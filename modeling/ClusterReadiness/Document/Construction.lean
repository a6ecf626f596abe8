import ClusterReadiness.Document.Declaration

/-!
Declarations put together field by field. The given fields are taken as they are, whatever their
kind; fields not given get their defaults, and the declaration's own check is made on the numbers and
texts that it finds. A field without a meaning is refused first, then a missing one.
-/

namespace ClusterReadiness

namespace Document

def number? : Document → Option Number
  | int n => some (.int n)
  | float x => some (.float x)
  | _ => none

end Document

inductive Declared where
  | topicSpec | retryPolicy | waitPolicy | config | pollState | rule
deriving DecidableEq, Repr

namespace Declared

/-- The fields of an object, each with a default. -/
def withDefaults : Document → List (String × Option Document)
  | .object table => table.map fun field => (field.1, some field.2)
  | _ => []

/-- The fields in their order; those without a default have to be given. -/
def fields : Declared → List (String × Option Document)
  | topicSpec => [("name", none), ("partition_count", some (.int 1)),
      ("replication_factor", some (.int 1))]
  | retryPolicy => withDefaults RetryPolicy.default.write
  | waitPolicy => withDefaults WaitPolicy.default.write
  | config => withDefaults Config.default.write
  | pollState => [("current_sleep_ms", none), ("attempt", some (.int 1))]
  | rule => withDefaults Rule.unrestricted.write

def number? (table : Table) (name : String) : Option Number :=
  (table.get? name).bind Document.number?

/-- Refuses a number below the bound. -/
def atLeast (table : Table) (name : String) (bound : Int) (defect : Number → Defect) :
    Except Defect Unit :=
  match number? table name with
  | some n => if n.isBelow (.int bound) then .error (defect n) else .ok ()
  | none => .ok ()

def namedCheck (table : Table) : Except Defect Unit :=
  match table.get? "name" with
  | some (.text name) => if Text.AllBlank name then .error .blankTopicName else .ok ()
  | some .null => .error .blankTopicName
  | _ => .ok ()

def intervalCheck (table : Table) : Except Defect Unit :=
  match number? table "initial_interval_ms", number? table "max_interval_ms" with
  | some initial, some maximum =>
    if maximum.isBelow initial then .error (.initialAboveMaximum initial maximum) else .ok ()
  | _, _ => .ok ()

def timeoutCheck (table : Table) : Except Defect Unit :=
  match number? table "request_timeout_s" with
  | some (.int n) => if n ≤ 0 then .error (.requestTimeout (.int n)) else .ok ()
  | some (.float x) => if x ≤ 0.0 then .error (.requestTimeout (.float x)) else .ok ()
  | none => .ok ()

/-- The declaration's own check, rule by rule. -/
def check (table : Table) : Declared → Except Defect Unit
  | topicSpec => do
    namedCheck table
    atLeast table "partition_count" 1 .partitionCount
    atLeast table "replication_factor" 1 .replicationFactor
  | retryPolicy => do
    atLeast table "initial_interval_ms" 1 fun _ => .retryIntervals
    atLeast table "max_interval_ms" 1 fun _ => .retryIntervals
    intervalCheck table
    atLeast table "multiplier" 1 .multiplier
    atLeast table "max_attempts" 1 .maxAttempts
  | waitPolicy => do
    atLeast table "sleep_ms" 1 .waitInterval
    atLeast table "multiplier" 1 .multiplier
    atLeast table "max_attempts" 1 .maxAttempts
  | config => timeoutCheck table
  | pollState | rule => .ok ()

/-- The given fields in the order of the declaration, completed with the defaults. -/
def complete (given : Table) : List (String × Option Document) → Result Table
  | [] => .ok []
  | (name, value) :: rest =>
    match (given.get? name).or value with
    | none => .error (.of (.wrongType ("Missing required argument " ++ Text.quoted name)))
    | some value => (complete given rest).map ((name, value) :: ·)

def construct (declared : Declared) (given : Table) : Result Table :=
  match given.find? fun argument => declared.fields.all (·.1 != argument.1) with
  | some (name, _) =>
    .error (.of (.wrongType ("Unexpected keyword argument " ++ Text.quoted name)))
  | none => do
    let table ← complete given declared.fields
    (declared.check table).mapError fun defect => .of defect.fault
    return table

end Declared

end ClusterReadiness
