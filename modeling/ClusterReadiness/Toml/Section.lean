import ClusterReadiness.Document.Basic

/-!
The tables of a TOML document while it is read. A table remembers how it came to be: by the way, as
the parent of another one, by a header of its own, or by the dotted keys of one section. That decides
who may still add to it. An array of tables is open only in its last table, and a table or an array
that was written as a value is closed.
-/

namespace ClusterReadiness

namespace Toml

/-- How a table came to be. Sections are counted by the headers before them. -/
inductive Origin where
  | implied
  | header
  | dotted (number : Nat)
deriving DecidableEq, Repr

namespace Origin

/-- Whether dotted keys of the given section may add to the table. -/
def opensTo (number : Nat) : Origin → Bool
  | implied => true
  | header => false
  | dotted other => other == number

end Origin

/-- An array of tables keeps its finished tables as they are written, and the last one open. -/
inductive Entry where
  | value (document : Document)
  | table (origin : Origin) (fields : List (String × Entry))
  | tables (finished : List Document) (last : List (String × Entry))

abbrev Fields := List (String × Entry)

namespace Entry

mutual

def toDocument : Entry → Document
  | value document => document
  | table _ fields => .object (toTable fields)
  | tables finished last => .array (finished ++ [.object (toTable last)])

def toTable : List (String × Entry) → Table
  | [] => []
  | (name, entry) :: rest => (name, entry.toDocument) :: toTable rest

end

end Entry

namespace Fields

/-- Replaces an entry where it stands, or adds it at the end. -/
def alter (name : String) (change : Option Entry → Option Entry) : Fields → Option Fields
  | [] => (change none).map fun entry => [(name, entry)]
  | (other, entry) :: rest =>
    if other = name then (change (some entry)).map fun entry => (other, entry) :: rest
    else (alter name change rest).map ((other, entry) :: ·)

/-- Changes the table behind a path. Tables on the way that are not there yet are implied. -/
def within (change : Fields → Option Fields) : List String → Fields → Option Fields
  | [], fields => change fields
  | name :: path, fields => alter name (fun
    | none => (within change path []).map (.table .implied)
    | some (.table origin inner) => (within change path inner).map (.table origin)
    | some (.tables finished last) => (within change path last).map (.tables finished)
    | some (.value _) => none) fields

/-- A header defines a table that is not there yet or was only implied. -/
def define (name : String) (fields : Fields) : Option Fields :=
  alter name (fun
    | none => some (.table .header [])
    | some (.table .implied inner) => some (.table .header inner)
    | _ => none) fields

/-- A double header starts the next table of an array. -/
def append (name : String) (fields : Fields) : Option Fields :=
  alter name (fun
    | none => some (.tables [] [])
    | some (.tables finished last) =>
      some (.tables (finished ++ [.object (Entry.toTable last)]) [])
    | _ => none) fields

/-- Adds a value under a dotted key of the given section; nothing is overwritten. -/
def insert (number : Nat) (document : Document) : List String → Fields → Option Fields
  | [], _ => none
  | name :: path, fields =>
    match path with
    | [] => alter name (fun
      | none => some (.value document)
      | some _ => none) fields
    | _ :: _ => alter name (fun
      | none => (insert number document path []).map (.table (.dotted number))
      | some (.table origin inner) =>
        if origin.opensTo number then
          (insert number document path inner).map (.table (.dotted number))
        else none
      | _ => none) fields

end Fields

end Toml

end ClusterReadiness
