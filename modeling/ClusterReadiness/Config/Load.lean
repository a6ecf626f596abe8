import ClusterReadiness.Document.Declaration
import ClusterReadiness.Log
import ClusterReadiness.Text.UpperCase
import ClusterReadiness.Text.Utf8
import ClusterReadiness.Toml.Document

/-!
Configurations from a TOML file and the environment. A variable that is set and not empty takes the
place of the field it stands for, before the fields are read, so a bad value in the file does no harm
there. Everything that is wrong with the file or its fields is a configuration error; only bytes that
are no text are reported as such.
-/

namespace ClusterReadiness

/-- A file named on the command line or elsewhere, and what came of reading it. -/
structure ConfigFile where
  path : String
  content : Except FileFault (List UInt8)

namespace ConfigFile

/-- A path without empty and idle components, as the system names it. -/
def plainPath (path : String) : String :=
  let parts := (Text.splitOn '/' path).filter fun part => part ≠ "" && part ≠ "."
  let joined := "/".intercalate parts
  if path.startsWith "/" then "/" ++ joined else if joined = "" then "." else joined

def unreadable (path : String) (reason : FileFault) : Failure :=
  let fault : Fault := .file reason (plainPath path)
  .because (.configuration ("cannot read config file " ++ path ++ ": " ++ fault.message))
    (.of fault)

/-- The fields of the file. -/
def table (file : ConfigFile) : Result Table :=
  match file.content with
  | .error reason => .error (unreadable file.path reason)
  | .ok bytes =>
    match Text.decodeUtf8 bytes with
    | .error undecodable => .error (.of (.undecodable undecodable.message))
    | .ok text =>
      match Toml.parse text with
      | some table => .ok table
      | none => .error (.of (.configuration ("invalid config file " ++ file.path ++ ": ")))

end ConfigFile

abbrev Environment := List (String × String)

namespace Environment

/-- The value of a variable that is set and not empty. -/
def value? (environment : Environment) (name : String) : Option String :=
  (environment.lookup name).filter (· ≠ "")

/-- Names between commas; blank pieces are dropped, the others kept as they are. -/
def topicNames (text : String) : List String :=
  (Text.splitOn ',' text).filter fun piece => !decide (Text.AllBlank piece)

/-- Each variable, the field it overrides, and the field's value. -/
def variableFields : List (String × String × (String → Document)) := [
  ("KAFKA_BOOTSTRAP_SERVERS", "bootstrap_servers", .text),
  ("SCHEMA_REGISTRY_URL", "schema_registry_url", .text),
  ("KBOOTSTRAP_TOPICS", "topic_names", fun text => .texts (topicNames text)),
  ("KBOOTSTRAP_LOG_LEVEL", "log_level", fun text => .text (Text.upper text))]

def overrides (environment : Environment) : List (String × Document) :=
  variableFields.filterMap fun (name, field, document) =>
    (environment.value? name).map fun text => (field, document text)

end Environment

namespace Config

/-- The fields of a configuration, of which those in the environment are overridden. -/
def resolve (table : Table) (environment : Environment) : Result Config :=
  match reader.read (.object (table.update environment.overrides)) with
  | .ok config => .ok config
  | .error refusal =>
    .error (.because (.configuration ("invalid configuration: " ++ refusal.message))
      refusal.failure)

def overriddenText (environment : Environment) : String :=
  "config overridden from environment: " ++
    Text.quotedList (Text.sortedSet (environment.overrides.map (·.1)))

/-- Overrides are noted once the file is read, before its fields are. -/
def load {m : Type → Type} [Monad m] (record : Level → String → m Unit)
    (file : Option ConfigFile) (environment : Environment) : m (Result Config) := do
  match (file.map ConfigFile.table).getD (.ok []) with
  | .error failure => return .error failure
  | .ok table =>
    if !environment.overrides.isEmpty then record .debug (overriddenText environment)
    return resolve table environment

end Config

end ClusterReadiness
