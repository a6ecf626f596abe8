import ClusterReadiness.Number.Basic

/-!
Documents: the values that declarations and configurations are read from and written to. An object
keeps its fields in the order in which they were first given, each name once, so a later value of a
name takes the place of the earlier one. Dates and times are known by their kind alone, since no
declaration accepts one.
-/

namespace ClusterReadiness

inductive Document where
  | null
  | bool (value : Bool)
  | int (value : Int)
  | float (value : Float)
  | text (value : String)
  | array (items : List Document)
  | object (fields : List (String × Document))
  | date
  | time
  | datetime

namespace Document

/-- The name by which a message speaks of a kind of document. -/
def kind : Document → String
  | null => "null"
  | bool _ => "bool"
  | int _ => "int"
  | float _ => "float"
  | text _ => "str"
  | array _ => "array"
  | object _ => "object"
  | date => "date"
  | time => "time"
  | datetime => "datetime"

def number : Number → Document
  | .int n => int n
  | .float x => float x

def texts (values : List String) : Document := array (values.map text)

/-- Some document, or null. -/
def orNull {α : Type} (write : α → Document) : Option α → Document
  | some value => write value
  | none => null

end Document

/-- The fields of an object. -/
abbrev Table := List (String × Document)

namespace Table

/-- Sets a field where it stands, or at the end if it is new. -/
def put (name : String) (value : Document) : Table → Table
  | [] => [(name, value)]
  | (other, old) :: rest =>
    if other = name then (name, value) :: rest else (other, old) :: put name value rest

/-- Sets the given fields, one after the other. -/
def update (table : Table) (changes : List (String × Document)) : Table :=
  changes.foldl (fun table change => table.put change.1 change.2) table

def get? (table : Table) (name : String) : Option Document :=
  (table.find? (·.1 == name)).map (·.2)

end Table

end ClusterReadiness
