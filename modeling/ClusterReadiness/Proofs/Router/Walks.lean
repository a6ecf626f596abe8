import Mathlib.Data.List.Basic
import Mathlib.Tactic.Common

/-!
# Walks over registrations that change meanwhile

A list of registrations is walked by position, and whoever is visited may add registrations at its
end or take the first registration of somebody out. A registration that is carried from ahead of the
walk to its place or behind it is never visited.
-/

namespace ClusterReadiness

/-- A change of the registrations. -/
inductive Change where
  | register (id : String)
  | unregister (id : String)
deriving DecidableEq

namespace Change

def apply (registered : List String) : Change → List String
  | register id => registered ++ [id]
  | unregister id => registered.erase id

/-- The registration that a change makes, if it makes one. -/
def made? : Change → Option String
  | register id => some id
  | unregister _ => none

end Change

/-- A stop of the walk: who is visited, where, among which registrations, and how they change. -/
structure Visit where
  id : String
  position : Nat
  before : List String
  changes : List Change

namespace Visit

def after (visit : Visit) : List String := visit.changes.foldl Change.apply visit.before

/-- The registrations made during a visit. -/
def made (visit : Visit) : List String := visit.changes.filterMap Change.made?

/-- How many registrations of a callback were ahead of the walk, or were made, and are not ahead of
it after the visit. -/
def passedOver (visit : Visit) (id : String) : Nat :=
  (visit.before.drop (visit.position + 1)).count id + visit.made.count id -
    (visit.after.drop (visit.position + 1)).count id

/-- The visit carries a registration from ahead of the walk to its place or behind it. -/
def Skips (visit : Visit) (id : String) : Prop :=
  visit.position < visit.before.idxOf id ∧ visit.after.idxOf id ≤ visit.position

end Visit

/-- A walk from a position to the end, wherever the end then is. -/
inductive Walk : Nat → List String → List Visit → List String → Prop where
  | stop {position : Nat} {registered : List String} (past : registered.length ≤ position) :
      Walk position registered [] registered
  | step {visit : Visit} {visits : List Visit} {last : List String}
      (here : visit.before[visit.position]? = some visit.id)
      (rest : Walk (visit.position + 1) visit.after visits last) :
      Walk visit.position visit.before (visit :: visits) last

/-- Who is visited, in order. -/
def visited (visits : List Visit) : List String := visits.map (·.id)

/-- The registrations made during some visits, in order. -/
def madeDuring (visits : List Visit) : List String := visits.flatMap Visit.made

/-- How many registrations of a callback are passed over during some visits. -/
def passedOverDuring (visits : List Visit) (id : String) : Nat :=
  (visits.map (·.passedOver id)).foldr (· + ·) 0

/-- Nobody unregisters the callback. -/
def Kept (visits : List Visit) (id : String) : Prop :=
  ∀ visit ∈ visits, Change.unregister id ∉ visit.changes

section Changes

variable {id : String} {registered : List String} {changes : List Change} {k : Nat}

/-- What stands from a place on stood there before, or was added behind it. -/
theorem drop_foldl_sublist (registered : List String) (changes : List Change) (k : Nat) :
    ((changes.foldl Change.apply registered).drop k).Sublist
      (registered.drop k ++ changes.filterMap Change.made?) := by
  induction changes generalizing registered with
  | nil => simp
  | cons change rest ih =>
    cases change with
    | register other =>
      have added : ((registered ++ [other]).drop k).Sublist (registered.drop k ++ [other]) := by
        rw [List.drop_append]
        exact (List.Sublist.refl _).append (List.drop_sublist _ _)
      have step := (ih _).trans (added.append_right (rest.filterMap Change.made?))
      simpa [Change.apply, Change.made?] using step
    | unregister other =>
      have removed : ((registered.erase other).drop k).Sublist (registered.drop k) :=
        List.erase_sublist.drop k
      exact (ih _).trans (removed.append_right _)

/-- Changes that do not name a callback leave its registrations alone. -/
theorem count_foldl (kept : Change.unregister id ∉ changes)
    (once : id ∉ changes.filterMap Change.made?) :
    (changes.foldl Change.apply registered).count id = registered.count id := by
  induction changes generalizing registered with
  | nil => rfl
  | cons change rest ih =>
    have keptRest : Change.unregister id ∉ rest := fun h => kept (.tail _ h)
    cases change with
    | register other =>
      simp only [List.filterMap_cons, Change.made?, List.mem_cons, not_or] at once
      rw [List.foldl_cons, ih keptRest once.2]
      simp [Change.apply, List.count_append, Ne.symm once.1]
    | unregister other =>
      have other_ne : id ≠ other := by
        rintro rfl
        exact kept (.head _)
      rw [List.foldl_cons, ih keptRest once]
      exact List.count_erase_of_ne other_ne

/-- A callback that is registered once is ahead of a place or not. -/
theorem count_drop_of_once (once : registered.count id = 1) :
    (registered.drop (k + 1)).count id = if k < registered.idxOf id then 1 else 0 := by
  induction registered generalizing k with
  | nil => cases once
  | cons head tail ih =>
    by_cases first : head = id
    · subst first
      have absent : tail.count head = 0 := by simpa using once
      have none := (List.drop_sublist k tail).count_le head
      rw [List.drop_succ_cons, List.idxOf_cons_self, if_neg (Nat.not_lt_zero k)]
      omega
    · rw [List.count_cons_of_ne first] at once
      rw [List.drop_succ_cons, List.idxOf_cons_ne _ first]
      cases k with
      | zero => simp [once]
      | succ k =>
        rw [ih once]
        simp

end Changes

namespace Walk

variable {id : String} {position : Nat} {registered last : List String} {visits : List Visit}

/-- Everyone is visited in the order of the registrations, those made meanwhile included. -/
theorem visited_sublist (walk : Walk position registered visits last) :
    (visited visits).Sublist (registered.drop position ++ madeDuring visits) := by
  induction walk with
  | stop past => exact List.nil_sublist _
  | @step visit visits last here rest ih =>
    obtain ⟨within, hid⟩ := List.getElem?_eq_some_iff.mp here
    have added := drop_foldl_sublist visit.before visit.changes (visit.position + 1)
    have ahead := added.append_right (madeDuring visits)
    rw [List.drop_eq_getElem_cons within, hid]
    have more := (ih.trans ahead).cons_cons visit.id
    simpa [visited, madeDuring, Visit.made] using more

/-- Every registration ahead of a walk, or made during it, is visited or passed over. -/
theorem count_visited (walk : Walk position registered visits last) (id : String) :
    (visited visits).count id + passedOverDuring visits id =
      (registered.drop position).count id + (madeDuring visits).count id := by
  induction walk with
  | stop past => simp [visited, passedOverDuring, madeDuring, List.drop_eq_nil_of_le past]
  | @step visit visits last here rest ih =>
    obtain ⟨within, hid⟩ := List.getElem?_eq_some_iff.mp here
    have added := drop_foldl_sublist visit.before visit.changes (visit.position + 1)
    have bound := added.count_le id
    rw [List.count_append] at bound
    have counted : (visit.before.drop visit.position).count id =
        (visit.before.drop (visit.position + 1)).count id + [visit.id].count id := by
      rw [List.drop_eq_getElem_cons within, hid, ← List.singleton_append, List.count_append,
        Nat.add_comm]
    have parts : (visited (visit :: visits)).count id =
        [visit.id].count id + (visited visits).count id := by
      rw [← List.count_append]
      rfl
    have made : (madeDuring (visit :: visits)).count id =
        visit.made.count id + (madeDuring visits).count id := by
      rw [← List.count_append]
      rfl
    have passed : passedOverDuring (visit :: visits) id =
        visit.passedOver id + passedOverDuring visits id := rfl
    have passing : visit.passedOver id + (visit.after.drop (visit.position + 1)).count id =
        (visit.before.drop (visit.position + 1)).count id + visit.made.count id :=
      Nat.sub_add_cancel bound
    omega

/-- A callback registered once, and neither unregistered nor registered again, is passed over as
soon as a visit skips it. -/
theorem passedOver_eq_zero_iff (walk : Walk position registered visits last)
    (single : registered.count id = 1) (kept : Kept visits id) (once : id ∉ madeDuring visits) :
    passedOverDuring visits id = 0 ↔ ∀ visit ∈ visits, ¬ visit.Skips id := by
  induction walk with
  | stop past => simp [passedOverDuring]
  | @step visit visits last here rest ih =>
    simp only [madeDuring, List.flatMap_cons, List.mem_append, not_or] at once
    have keptHere := kept visit (.head _)
    have single' : visit.after.count id = 1 := (count_foldl keptHere once.1).trans single
    have passed : passedOverDuring (visit :: visits) id =
        visit.passedOver id + passedOverDuring visits id := rfl
    have here : visit.passedOver id = 0 ↔ ¬ visit.Skips id := by
      unfold Visit.passedOver Visit.Skips
      rw [count_drop_of_once single, count_drop_of_once single', List.count_eq_zero.mpr once.1]
      split <;> split <;> omega
    have others := ih single' (fun v hv => kept v (.tail _ hv)) once.2
    rw [passed, List.forall_mem_cons, ← here, ← others]
    omega

end Walk

end ClusterReadiness
