/-!
The smallest parts of a TOML document: blanks, comments, keys and quoted texts. Each reader takes a
part off the front of the text and answers the rest, or nothing where the text is not well-formed.
Line ends are line feeds here. Control characters other than the tab stand nowhere, and line feeds
only in texts of several lines.
-/

namespace ClusterReadiness

namespace Toml

/-- A part of a document, and the text after it. -/
abbrev Parsed (α : Type) := Option (α × List Char)

def isBlank (c : Char) : Bool := c == ' ' || c == '\t'

def isLayout (c : Char) : Bool := isBlank c || c == '\n'

def isControl (c : Char) : Bool := c.toNat < 0x20 || c.toNat == 0x7F

/-- Characters that may not stand in a comment or in a text of one line. -/
def isForbidden (c : Char) : Bool := isControl c && c != '\t'

/-- Characters that may not stand in a text of several lines. -/
def isForbiddenInLines (c : Char) : Bool := isForbidden c && c != '\n'

def skipBlanks (cs : List Char) : List Char := cs.dropWhile isBlank

/-- A comment goes up to the end of its line. -/
def skipComment : List Char → Option (List Char)
  | '#' :: rest =>
    if (rest.takeWhile (· != '\n')).any isForbidden then none
    else some (rest.dropWhile (· != '\n'))
  | cs => some cs

/-- Blanks, line ends and comments, as they may stand between the items of an array. -/
def skipLayout (inComment : Bool) : List Char → Option (List Char)
  | [] => some []
  | c :: rest =>
    if inComment then
      if c == '\n' then skipLayout false rest
      else if isForbidden c then none else skipLayout true rest
    else if isLayout c then skipLayout false rest
    else if c == '#' then skipLayout true rest
    else some (c :: rest)

section Texts

/-- A text between apostrophes, after the first one. Nothing is escaped in it. -/
def literal (cs : List Char) : Parsed (List Char) :=
  let body := cs.takeWhile (· != '\'')
  match cs.dropWhile (· != '\'') with
  | _ :: rest => if body.any isForbidden then none else some (body, rest)
  | [] => none

/-- Everything before three of the same quote in a row. -/
def beforeTriple (quote : Char) : List Char → Parsed (List Char)
  | [] => none
  | c :: rest =>
    if c == quote && rest.take 2 == [quote, quote] then some ([], rest.drop 2)
    else (beforeTriple quote rest).map fun (body, rest) => (c :: body, rest)

def literalLines (cs : List Char) : Parsed (List Char) :=
  match beforeTriple '\'' cs with
  | some (body, rest) => if body.any isForbiddenInLines then none else some (body, rest)
  | none => none

def hexDigit? (c : Char) : Option Nat :=
  if c.isDigit then some (c.toNat - 48)
  else if 'a' ≤ c && c ≤ 'f' then some (c.toNat - 87)
  else if 'A' ≤ c && c ≤ 'F' then some (c.toNat - 55)
  else none

/-- The character of so many hexadecimal digits; surrogates are none. -/
def codePoint (width : Nat) (cs : List Char) : Parsed Char :=
  let digits := cs.take width
  match digits.mapM hexDigit? with
  | none => none
  | some values =>
    let n := values.foldl (fun n d => n * 16 + d) 0
    if digits.length == width && n.isValidChar then some (Char.ofNat n, cs.drop width) else none

def escaped? : Char → Option Char
  | 'b' => some '\x08'
  | 't' => some '\t'
  | 'n' => some '\n'
  | 'f' => some '\x0c'
  | 'r' => some '\r'
  | '"' => some '"'
  | '\\' => some '\\'
  | _ => none

/-- What a backslash stands for, if for a character. -/
def escape : List Char → Parsed Char
  | 'u' :: rest => codePoint 4 rest
  | 'U' :: rest => codePoint 8 rest
  | c :: rest => (escaped? c).map fun e => (e, rest)
  | [] => none

/-- A backslash at the end of a line takes out the line end and the layout after it. -/
def joinedLine (cs : List Char) : Option (List Char) :=
  match skipBlanks cs with
  | '\n' :: rest => some (rest.dropWhile isLayout)
  | _ => none

/-- A quoted text after its opening quotes, reading at most `fuel` parts of it. -/
def basicWithin (lines : Bool) : (fuel : Nat) → List Char → Parsed (List Char)
  | 0, _ => none
  | _, [] => none
  | fuel + 1, c :: rest =>
    let keep (c : Char) (rest : List Char) : Parsed (List Char) :=
      (basicWithin lines fuel rest).map fun (body, rest) => (c :: body, rest)
    if c == '"' then
      if !lines then some ([], rest)
      else if rest.take 2 == ['"', '"'] then some ([], rest.drop 2)
      else keep c rest
    else if c == '\\' then
      match if lines then joinedLine rest else none with
      | some rest => basicWithin lines fuel rest
      | none => match escape rest with
        | some (c, rest) => keep c rest
        | none => none
    else if if lines then isForbiddenInLines c else isForbidden c then none
    else keep c rest

def basic (lines : Bool) (cs : List Char) : Parsed (List Char) :=
  basicWithin lines (cs.length + 1) cs

/-- Up to two more quotes belong to a text of several lines that they end. -/
def closingQuotes (quote : Char) (body rest : List Char) : List Char × List Char :=
  let extra := (rest.take 2).takeWhile (· == quote)
  (body ++ extra, rest.drop extra.length)

/-- A line end right after the opening quotes is not part of the text. -/
def dropFirstLineEnd : List Char → List Char
  | '\n' :: rest => rest
  | cs => cs

def text : List Char → Parsed String
  | '"' :: '"' :: '"' :: rest => (basic true (dropFirstLineEnd rest)).map fun (body, rest) =>
    let (body, rest) := closingQuotes '"' body rest
    (String.ofList body, rest)
  | '\'' :: '\'' :: '\'' :: rest => (literalLines (dropFirstLineEnd rest)).map fun (body, rest) =>
    let (body, rest) := closingQuotes '\'' body rest
    (String.ofList body, rest)
  | '"' :: rest => (basic false rest).map fun (body, rest) => (String.ofList body, rest)
  | '\'' :: rest => (literal rest).map fun (body, rest) => (String.ofList body, rest)
  | _ => none

end Texts

section Keys

def isBareKeyChar (c : Char) : Bool := c.isAlphanum || c == '-' || c == '_'

/-- One part of a key; a quoted one is a text of one line. -/
def keyPart : List Char → Parsed String
  | '"' :: rest => (basic false rest).map fun (body, rest) => (String.ofList body, rest)
  | '\'' :: rest => (literal rest).map fun (body, rest) => (String.ofList body, rest)
  | cs =>
    match cs.takeWhile isBareKeyChar with
    | [] => none
    | part => some (String.ofList part, cs.dropWhile isBareKeyChar)

def startsKey (c : Char) : Bool := isBareKeyChar c || c == '"' || c == '\''

/-- The parts of a key, of which there is at least one, with the blanks after the last one. -/
def keyWithin : (fuel : Nat) → List Char → Parsed (List String)
  | 0, _ => none
  | fuel + 1, cs =>
    match keyPart cs with
    | none => none
    | some (part, rest) =>
      match skipBlanks rest with
      | '.' :: rest =>
        (keyWithin fuel (skipBlanks rest)).map fun (parts, rest) => (part :: parts, rest)
      | rest => some ([part], rest)

def key (cs : List Char) : Option (List String × List Char) := keyWithin (cs.length + 1) cs

end Keys

end Toml

end ClusterReadiness
