import ClusterReadiness.Toml.Scalar
import ClusterReadiness.Toml.Section

/-!
Values of a TOML document. Arrays may go over several lines and end with a comma, inline tables may
not. Reading is bounded by the length of the text, which no value exceeds.
-/

namespace ClusterReadiness

namespace Toml

def dropWord (word : List Char) (cs : List Char) : Option (List Char) :=
  if cs.take word.length == word then some (cs.drop word.length) else none

def boolean (cs : List Char) : Parsed Document :=
  match dropWord ['t', 'r', 'u', 'e'] cs with
  | some rest => some (.bool true, rest)
  | none => (dropWord ['f', 'a', 'l', 's', 'e'] cs).map fun rest => (.bool false, rest)

/-- Values without parts; a text of the shape of a date is nothing else. -/
def scalar (cs : List Char) : Parsed Document :=
  match boolean cs with
  | some found => some found
  | none => match moment? cs with
    | some found => found
    | none => number cs

/-- The sign between a key and its value. -/
def equals (cs : List Char) : Option (List Char) := (skipChar '=' cs).map skipBlanks

mutual

def value : (fuel : Nat) → List Char → Parsed Document
  | 0, _ => none
  | fuel + 1, cs =>
    match cs with
    | '"' :: _ | '\'' :: _ => (text cs).map fun (s, rest) => (.text s, rest)
    | '[' :: rest => (array fuel rest).map fun (items, rest) => (.array items, rest)
    | '\x7b' :: rest => match skipBlanks rest with
      | '\x7d' :: rest => some (.object [], rest)
      | rest => (inlineTable fuel [] rest).map fun (fields, rest) =>
        (.object (Entry.toTable fields), rest)
    | _ => scalar cs

/-- The items of an array up to its end. -/
def array : (fuel : Nat) → List Char → Parsed (List Document)
  | 0, _ => none
  | fuel + 1, cs =>
    match skipLayout false cs with
    | none => none
    | some (']' :: rest) => some ([], rest)
    | some cs => match value fuel cs with
      | none => none
      | some (item, rest) => match skipLayout false rest with
        | some (',' :: rest) => (array fuel rest).map fun (items, rest) => (item :: items, rest)
        | some (']' :: rest) => some ([item], rest)
        | _ => none

/-- The pairs of an inline table up to its end; at least one follows. -/
def inlineTable : (fuel : Nat) → Fields → List Char → Parsed Fields
  | 0, _, _ => none
  | fuel + 1, fields, cs =>
    match key cs with
    | none => none
    | some (path, rest) => match (equals rest).bind (value fuel) with
      | none => none
      | some (document, rest) => match Fields.insert 0 document path fields with
        | none => none
        | some fields => match skipBlanks rest with
          | ',' :: rest => inlineTable fuel fields (skipBlanks rest)
          | '\x7d' :: rest => some (fields, rest)
          | _ => none

end

end Toml

end ClusterReadiness
