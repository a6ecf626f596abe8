import ClusterReadiness.Document.Basic
import ClusterReadiness.Number.Text
import ClusterReadiness.Text.Quoted

/-!
Documents as JSON. A number with a point or an exponent is a `Float` and every other one an integer,
so the two stay apart in both directions. A `Float` that JSON cannot write is the object whose one
field `float` names it. Half a surrogate pair is read as the replacement character.
-/

namespace ClusterReadiness

namespace Json

/-- A part of the text, and the text after it. -/
abbrev Parsed (α : Type) := Option (α × List Char)

def isBlank (c : Char) : Bool := c == ' ' || c == '\t' || c == '\n' || c == '\r'

def skipBlanks (cs : List Char) : List Char := cs.dropWhile isBlank

section Texts

def hexValue (c : Char) : Nat :=
  if c.isDigit then c.toNat - 48 else c.toLower.toNat - 87

def codeUnit (digits : List Char) : Nat := digits.foldl (fun n c => n * 16 + hexValue c) 0

def isHigh (unit : Nat) : Bool := 0xD800 ≤ unit && unit < 0xDC00

def isLow (unit : Nat) : Bool := 0xDC00 ≤ unit && unit < 0xE000

def replacement : Char := Char.ofNat 0xFFFD

/-- A code unit that is half of a pair takes the other half with it. -/
def unicodeEscape (unit : Nat) (rest : List Char) : Char × List Char :=
  if isHigh unit then
    let low := codeUnit ((rest.drop 2).take 4)
    if rest.take 2 == ['\\', 'u'] && isLow low then
      (Char.ofNat (0x10000 + (unit - 0xD800) * 0x400 + (low - 0xDC00)), rest.drop 6)
    else (replacement, rest)
  else if isLow unit then (replacement, rest)
  else (Char.ofNat unit, rest)

def escape : List Char → Parsed Char
  | 'n' :: rest => some ('\n', rest)
  | 't' :: rest => some ('\t', rest)
  | 'r' :: rest => some ('\r', rest)
  | 'b' :: rest => some ('\x08', rest)
  | 'f' :: rest => some ('\x0c', rest)
  | 'u' :: rest => some (unicodeEscape (codeUnit (rest.take 4)) (rest.drop 4))
  | c :: rest => some (c, rest)
  | [] => none

/-- The characters up to the closing quote. -/
def textBody : (fuel : Nat) → List Char → Parsed (List Char)
  | 0, _ => none
  | _, [] => none
  | _, '"' :: rest => some ([], rest)
  | fuel + 1, '\\' :: rest => match escape rest with
    | none => none
    | some (c, rest) => (textBody fuel rest).map fun (body, rest) => (c :: body, rest)
  | fuel + 1, c :: rest => (textBody fuel rest).map fun (body, rest) => (c :: body, rest)

def text (cs : List Char) : Parsed String :=
  (textBody (cs.length + 1) cs).map fun (body, rest) => (String.ofList body, rest)

end Texts

section Numbers

def isNumberChar (c : Char) : Bool :=
  c.isDigit || c == '-' || c == '+' || c == '.' || c == 'e' || c == 'E'

def natural (digits : List Char) : Nat := digits.foldl (fun n c => n * 10 + (c.toNat - 48)) 0

def exponent : List Char → Int
  | _ :: '-' :: digits => -(natural digits : Int)
  | _ :: '+' :: digits => natural digits
  | _ :: digits => natural digits
  | [] => 0

def places : List Char → List Char × List Char
  | '.' :: rest => (rest.takeWhile Char.isDigit, rest.dropWhile Char.isDigit)
  | cs => ([], cs)

def unsigned (cs : List Char) : Number :=
  let whole := cs.takeWhile Char.isDigit
  match cs.dropWhile Char.isDigit with
  | [] => .int (natural whole)
  | rest =>
    let (fraction, rest) := places rest
    .float (Number.ofDecimal (natural (whole ++ fraction)) (exponent rest - fraction.length))

def number : List Char → Number
  | '-' :: cs => match unsigned cs with
    | .int n => .int (-n)
    | .float x => .float (-x)
  | cs => unsigned cs

end Numbers

/-- The object that stands for a `Float`, or the object itself. -/
def object : Table → Document
  | [("float", .text "nan")] => .float (Number.infinity - Number.infinity)
  | [("float", .text "inf")] => .float Number.infinity
  | [("float", .text "-inf")] => .float (-Number.infinity)
  | table => .object table

def word (name : String) (document : Document) (cs : List Char) : Parsed Document :=
  let chars := name.toList
  if cs.take chars.length == chars then some (document, cs.drop chars.length) else none

def scalar (cs : List Char) : Parsed Document :=
  match cs with
  | '"' :: rest => (text rest).map fun (s, rest) => (.text s, rest)
  | 'n' :: _ => word "null" .null cs
  | 't' :: _ => word "true" (.bool true) cs
  | 'f' :: _ => word "false" (.bool false) cs
  | _ =>
    match cs.takeWhile isNumberChar with
    | [] => none
    | chars => some (.number (number chars), cs.dropWhile isNumberChar)

mutual

def value : (fuel : Nat) → List Char → Parsed Document
  | 0, _ => none
  | fuel + 1, cs =>
    match skipBlanks cs with
    | '[' :: rest => match skipBlanks rest with
      | ']' :: rest => some (.array [], rest)
      | rest => (items fuel rest).map fun (items, rest) => (.array items, rest)
    | '\x7b' :: rest => match skipBlanks rest with
      | '\x7d' :: rest => some (.object [], rest)
      | rest => (members fuel [] rest).map fun (table, rest) => (object table, rest)
    | cs => scalar cs

def items : (fuel : Nat) → List Char → Parsed (List Document)
  | 0, _ => none
  | fuel + 1, cs =>
    match value fuel cs with
    | none => none
    | some (item, rest) => match skipBlanks rest with
      | ',' :: rest => (items fuel rest).map fun (items, rest) => (item :: items, rest)
      | ']' :: rest => some ([item], rest)
      | _ => none

def members : (fuel : Nat) → Table → List Char → Parsed Table
  | 0, _, _ => none
  | fuel + 1, table, cs =>
    match skipBlanks cs with
    | '"' :: rest => match text rest with
      | none => none
      | some (name, rest) => match skipBlanks rest with
        | ':' :: rest => match value fuel rest with
          | none => none
          | some (document, rest) => match skipBlanks rest with
            | ',' :: rest => members fuel (table.put name document) rest
            | '\x7d' :: rest => some (table.put name document, rest)
            | _ => none
        | _ => none
    | _ => none

end

def parse (line : String) : Option Document :=
  let cs := line.toList
  match value (2 * cs.length + 2) cs with
  | some (document, rest) => if (skipBlanks rest).isEmpty then some document else none
  | none => none

section Rendering

def escapeChar (c : Char) : List Char :=
  if c = '"' || c = '\\' then ['\\', c]
  else if c.toNat < 0x20 then '\\' :: 'u' :: Text.hexDigits 4 c.toNat
  else [c]

def renderText (s : String) : String :=
  String.ofList ('"' :: s.toList.flatMap escapeChar ++ ['"'])

def braced (members : List String) : String := "\x7b" ++ ", ".intercalate members ++ "\x7d"

def renderFloat (x : Float) : String :=
  if x.isNaN || x.isInf then braced ["\"float\": " ++ renderText (Number.floatText x)]
  else Number.floatText x

mutual

/-- Dates and times are written by their kind alone. -/
def render : Document → String
  | .null => "null"
  | .bool b => if b then "true" else "false"
  | .int n => toString n
  | .float x => renderFloat x
  | .text s => renderText s
  | .array items => "[" ++ ", ".intercalate (renderItems items) ++ "]"
  | .object table => braced (renderMembers table)
  | .date => renderText "date"
  | .time => renderText "time"
  | .datetime => renderText "datetime"

def renderItems : List Document → List String
  | [] => []
  | item :: rest => render item :: renderItems rest

def renderMembers : List (String × Document) → List String
  | [] => []
  | (name, item) :: rest => (renderText name ++ ": " ++ render item) :: renderMembers rest

end

end Rendering

end Json

end ClusterReadiness
