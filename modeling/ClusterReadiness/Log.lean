import ClusterReadiness.Fault
import ClusterReadiness.Text.UpperCase

/-!
Log levels and what a log keeps. A level is asked for by its name in any case, and a log keeps the
entries that are at least as severe as its level.
-/

namespace ClusterReadiness

inductive Level where
  | trace | debug | info | success | warning | error | critical
deriving DecidableEq, Repr

namespace Level

def name : Level → String
  | trace => "TRACE"
  | debug => "DEBUG"
  | info => "INFO"
  | success => "SUCCESS"
  | warning => "WARNING"
  | error => "ERROR"
  | critical => "CRITICAL"

def severity : Level → Nat
  | trace => 5
  | debug => 10
  | info => 20
  | success => 25
  | warning => 30
  | error => 40
  | critical => 50

def all : List Level := [trace, debug, info, success, warning, error, critical]

def ofName (name : String) : Result Level :=
  match all.find? (·.name == name) with
  | some level => .ok level
  | none => .error (.of (.invalidValue ("Level '" ++ name ++ "' does not exist")))

/-- The level that a configuration names. -/
def configured (name : String) : Result Level := ofName (Text.upper name)

end Level

structure LogEntry where
  level : Level
  message : String
deriving DecidableEq

namespace LogEntry

def text (entry : LogEntry) : String := entry.level.name ++ " " ++ entry.message

end LogEntry

/-- The entries kept so far, oldest first; without a threshold nothing is kept. -/
structure Log where
  threshold : Option Level
  entries : List LogEntry
deriving DecidableEq

namespace Log

def keepingAll : Log := ⟨some .trace, []⟩

def keeps (log : Log) (level : Level) : Bool :=
  log.threshold.any fun least => decide (least.severity ≤ level.severity)

def record (log : Log) (level : Level) (message : String) : Log :=
  if log.keeps level then { log with entries := log.entries ++ [⟨level, message⟩] } else log

/-- Sets the level by name. An unknown name leaves a log that keeps nothing. -/
def configure (log : Log) (name : String) : Log × Result Unit :=
  match Level.configured name with
  | .ok level => ({ log with threshold := some level }, .ok ())
  | .error failure => ({ log with threshold := none }, .error failure)

end Log

end ClusterReadiness
