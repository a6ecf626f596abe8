import ClusterReadiness.Document.Basic
import ClusterReadiness.Document.Refusal

/-!
Strict reading of documents. A reader takes one kind of document and names it in its refusals; a
reader of optional values takes null besides. Nothing is converted, except that an integer may stand
for a `Float`. The fields of an object are read in the order of the document, those without a meaning
are passed over, and the first bad one is reported; only then are missing fields and the
declaration's own check looked at.
-/

namespace ClusterReadiness

/-- `take` answers nothing for a document of another kind. -/
structure Reader (α : Type) where
  wanted : String
  take : Document → Option (Except Refusal α)

namespace Reader

variable {α β σ : Type}

def refuse (mismatch : Mismatch) : Except Refusal α := .error ⟨[], mismatch⟩

def read (reader : Reader α) (document : Document) : Except Refusal α :=
  match reader.take document with
  | some result => result
  | none => refuse (.unexpected reader.wanted document.kind)

def within (step : PathStep) (result : Except Refusal α) : Except Refusal α :=
  result.mapError (Refusal.under step)

def map (f : α → β) (reader : Reader α) : Reader β :=
  ⟨reader.wanted, fun document => (reader.take document).map (Except.map f)⟩

def text : Reader String :=
  ⟨"str", fun
    | .text value => some (.ok value)
    | _ => none⟩

def int : Reader Int :=
  ⟨"int", fun
    | .int value => some (.ok value)
    | _ => none⟩

def float : Reader Float :=
  ⟨"float", fun
    | .float value => some (.ok value)
    | .int value => some (match Number.ofInt? value with
      | some x => .ok x
      | none => refuse .outOfRange)
    | _ => none⟩

/-- A text that stands for a value. -/
def choice (ofText? : String → Option α) : Reader α :=
  ⟨"str", fun
    | .text value => some (match ofText? value with
      | some a => .ok a
      | none => refuse (.unknownChoice value))
    | _ => none⟩

def orNull (reader : Reader α) : Reader (Option α) :=
  ⟨reader.wanted ++ " | null", fun
    | .null => some (.ok none)
    | document => (reader.take document).map (Except.map some)⟩

def readItems (reader : Reader α) : (index : Nat) → List Document → Except Refusal (List α)
  | _, [] => .ok []
  | index, item :: rest => do
    let value ← within (.item index) (reader.read item)
    let values ← readItems reader (index + 1) rest
    return value :: values

def list (reader : Reader α) : Reader (List α) :=
  ⟨"array", fun
    | .array items => some (reader.readItems 0 items)
    | _ => none⟩

def readEntries (reader : Reader α) : Table → Except Refusal (List (String × α))
  | [] => .ok []
  | (name, document) :: rest => do
    let value ← within .entry (reader.read document)
    let values ← readEntries reader rest
    return (name, value) :: values

/-- An object whose names are free. -/
def dictionary (reader : Reader α) : Reader (List (String × α)) :=
  ⟨"object", fun
    | .object table => some (reader.readEntries table)
    | _ => none⟩

/-- A field of a declaration, and how its value changes what is known of the declaration. -/
structure Field (σ : Type) where
  name : String
  store : Document → σ → Except Refusal σ

def field (name : String) (reader : Reader α) (set : σ → α → σ) : Field σ :=
  ⟨name, fun document known => (within (.field name) (reader.read document)).map (set known)⟩

def readFields (fields : List (Field σ)) : Table → σ → Except Refusal σ
  | [], known => .ok known
  | (name, document) :: rest, known =>
    match fields.find? (·.name == name) with
    | none => readFields fields rest known
    | some field => do readFields fields rest (← field.store document known)

/-- A declaration: its fields, what is known without any of them, and its completion. -/
def declaration (fields : List (Field σ)) (blank : σ) (complete : σ → Except Mismatch α) :
    Reader α :=
  ⟨"object", fun
    | .object table => some (do
      let known ← readFields fields table blank
      (complete known).mapError (⟨[], ·⟩))
    | _ => none⟩

/-- A field without a default. -/
def required (name : String) : Option α → Except Mismatch α
  | some value => .ok value
  | none => .error (.missingField name)

/-- A declaration that passes its own check. -/
def checked (made : Except Defect α) : Except Mismatch α := made.mapError .refused

end Reader

end ClusterReadiness
