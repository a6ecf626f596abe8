import ClusterReadiness.Defect

/-!
Why a document is refused, and where. The place is a path from the root of the document; an entry of
a dictionary is not told apart from its neighbours. A declaration that its own check refuses is
reported with the place, and that check's own fault as the cause.
-/

namespace ClusterReadiness

/-- One step into a document. -/
inductive PathStep where
  | field (name : String)
  | item (index : Nat)
  | entry
deriving DecidableEq, Repr

namespace PathStep

def text : PathStep → String
  | field name => "." ++ name
  | item index => "[" ++ toString index ++ "]"
  | entry => "[...]"

end PathStep

inductive Mismatch where
  | unexpected (wanted got : String)
  | missingField (name : String)
  | unknownChoice (value : String)
  | outOfRange
  | refused (defect : Defect)
deriving DecidableEq

namespace Mismatch

def message : Mismatch → String
  | unexpected wanted got => "Expected `" ++ wanted ++ "`, got `" ++ got ++ "`"
  | missingField name => "Object missing required field `" ++ name ++ "`"
  | unknownChoice value => "Invalid enum value " ++ Text.quoted value
  | outOfRange => "Number out of range"
  | refused defect => defect.message

/-- The fault of a declaration's own check, if it was that check. -/
def causes : Mismatch → List Fault
  | refused defect => [defect.fault]
  | _ => []

end Mismatch

/-- A mismatch at the end of a path, outermost step first. -/
structure Refusal where
  path : List PathStep
  mismatch : Mismatch
deriving DecidableEq

namespace Refusal

/-- The refusal as seen from one step further out. -/
def under (step : PathStep) (refusal : Refusal) : Refusal :=
  { refusal with path := step :: refusal.path }

def message (refusal : Refusal) : String :=
  refusal.mismatch.message ++
    if refusal.path.isEmpty then ""
    else " - at `$" ++ String.join (refusal.path.map PathStep.text) ++ "`"

def failure (refusal : Refusal) : Failure :=
  ⟨.invalidData refusal.message, refusal.mismatch.causes⟩

end Refusal

end ClusterReadiness
