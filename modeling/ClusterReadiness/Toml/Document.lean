import ClusterReadiness.Toml.Value

/-!
Whole TOML documents, version 1.0: lines of key and value under the header of their section. A
document is read completely or not at all.
-/

namespace ClusterReadiness

namespace Toml

/-- What has been read: all tables, the path of the section's header, and the section's number. -/
structure Progress where
  fields : Fields
  header : List String
  number : Nat

namespace Progress

def start : Progress := ⟨[], [], 0⟩

/-- Opens the next section, whose table is made by `make` under the last part of the path. -/
def opened (make : String → Fields → Option Fields) (path : List String) (progress : Progress) :
    Option Progress := do
  let name ← path.getLast?
  let fields ← Fields.within (make name) path.dropLast progress.fields
  return ⟨fields, path, progress.number + 1⟩

def insert (path : List String) (document : Document) (progress : Progress) : Option Progress := do
  let change := Fields.insert progress.number document path
  let fields ← Fields.within change progress.header progress.fields
  return { progress with fields }

end Progress

/-- A header after its opening bracket. -/
def header (progress : Progress) : List Char → Option (Progress × List Char)
  | '[' :: rest => do
    let (path, rest) ← key (skipBlanks rest)
    let progress ← progress.opened Fields.append path
    return (progress, ← dropWord [']', ']'] rest)
  | rest => do
    let (path, rest) ← key (skipBlanks rest)
    let progress ← progress.opened Fields.define path
    return (progress, ← dropWord [']'] rest)

def pair (progress : Progress) (cs : List Char) : Option (Progress × List Char) := do
  let (path, rest) ← key cs
  let rest ← equals rest
  let (document, rest) ← value (2 * rest.length + 2) rest
  return (← progress.insert path document, rest)

/-- One line, without the line end; a line may be empty or hold a comment alone. -/
def line (progress : Progress) (cs : List Char) : Option (Progress × List Char) := do
  let (progress, rest) ← match skipBlanks cs with
    | '[' :: rest => header progress rest
    | c :: rest => if startsKey c then pair progress (c :: rest) else some (progress, c :: rest)
    | [] => some (progress, [])
  return (progress, ← skipComment (skipBlanks rest))

/-- Every line but the last ends with a line feed. -/
def linesWithin : (fuel : Nat) → Progress → List Char → Option Progress
  | 0, _, _ => none
  | fuel + 1, progress, cs =>
    match line progress cs with
    | none => none
    | some (progress, []) => some progress
    | some (progress, '\n' :: rest) => linesWithin fuel progress rest
    | some _ => none

/-- A carriage return before a line feed is no character of its own. -/
def lineFeeds : List Char → List Char
  | [] => []
  | c :: rest =>
    if c == '\r' && rest.head? == some '\n' then lineFeeds rest else c :: lineFeeds rest

def parse (text : String) : Option Table :=
  let cs := lineFeeds text.toList
  (linesWithin (cs.length + 1) .start cs).map fun progress => Entry.toTable progress.fields

end Toml

end ClusterReadiness
