/-!
Sets of texts as sorted lists without repeats, in the order of code points.
-/

namespace ClusterReadiness

namespace Text

/-- Keeps one of equal neighbours. -/
def dropRepeats : List String → List String
  | [] => []
  | s :: rest =>
    match rest with
    | [] => [s]
    | t :: _ => if s = t then dropRepeats rest else s :: dropRepeats rest

def sortedSet (texts : List String) : List String :=
  dropRepeats (texts.mergeSort fun a b => decide (a ≤ b))

end Text

end ClusterReadiness
