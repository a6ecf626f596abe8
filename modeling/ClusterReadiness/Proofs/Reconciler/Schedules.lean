import ClusterReadiness.Topic
import Mathlib.Data.List.Forall2
import Mathlib.Tactic.Common

/-!
# Schedules of names in a sequence of listings

Names are to be found one after the other in listings that may grow and shrink. Taking each name at
the first listing that has it, and going on from there, is never later than any other choice.
-/

namespace ClusterReadiness

variable {L : Nat → Listing} {names rest : List String} {positions : List Nat}
  {name : String} {first start later bound last position : Nat}

/-- Positions at which the names are found, never going back. -/
structure Schedule (L : Nat → Listing) (names : List String) (start bound : Nat)
    (positions : List Nat) : Prop where
  ascending : positions.Pairwise (· ≤ ·)
  within : ∀ position ∈ positions, start ≤ position ∧ position ≤ bound
  listed : List.Forall₂ (fun name position => name ∈ L position) names positions

namespace Schedule

theorem nil : Schedule L [] start bound [] :=
  ⟨.nil, by simp, .nil⟩

theorem cons_iff : Schedule L (name :: names) start bound (position :: positions) ↔
    start ≤ position ∧ position ≤ bound ∧ name ∈ L position ∧
      Schedule L names position bound positions := by
  constructor
  · rintro ⟨ascending, within, listed⟩
    obtain ⟨ahead, ascending⟩ := List.pairwise_cons.mp ascending
    obtain ⟨here, listed⟩ := List.forall₂_cons.mp listed
    obtain ⟨low, high⟩ := within position (.head _)
    refine ⟨low, high, here, ascending, fun p hp => ?_, listed⟩
    exact ⟨ahead p hp, (within p (.tail _ hp)).2⟩
  · rintro ⟨low, high, here, ascending, within, listed⟩
    refine ⟨List.pairwise_cons.mpr ⟨fun p hp => (within p hp).1, ascending⟩, ?_, .cons here listed⟩
    intro p hp
    rcases List.mem_cons.mp hp with rfl | hp
    · exact ⟨low, high⟩
    · have := within p hp
      omega

theorem eq_nil (schedule : Schedule L [] start bound positions) : positions = [] :=
  List.forall₂_nil_left_iff.mp schedule.listed

theorem exists_cons (schedule : Schedule L (name :: names) start bound positions) :
    ∃ position others, positions = position :: others := by
  obtain ⟨position, others, -, -, rfl⟩ := List.forall₂_cons_left_iff.mp schedule.listed
  exact ⟨position, others, rfl⟩

/-- What a schedule of more names makes of the first of them. -/
theorem of_append (schedule : Schedule L (names ++ rest) start bound positions) :
    ∃ before after, positions = before ++ after ∧ Schedule L names start bound before ∧
      Schedule L rest (before.getLastD start) bound after := by
  induction names generalizing start positions with
  | nil => exact ⟨[], positions, rfl, nil, schedule⟩
  | cons name names ih =>
    obtain ⟨position, others, rfl⟩ := schedule.exists_cons
    obtain ⟨low, high, here, schedule⟩ := cons_iff.mp schedule
    obtain ⟨before, after, rfl, hbefore, hafter⟩ := ih schedule
    refine ⟨position :: before, after, rfl, cons_iff.mpr ⟨low, high, here, hbefore⟩, ?_⟩
    rwa [List.getLastD_cons]

end Schedule

/-- Each name is taken at the first listing that has it, from the place of the one before on. -/
inductive Scan (L : Nat → Listing) : Nat → List String → Nat → Prop where
  | done {start : Nat} : Scan L start [] start
  | found {start position last : Nat} {name : String} {names : List String}
      (ahead : start ≤ position) (here : name ∈ L position)
      (missing : ∀ q, start ≤ q → q < position → name ∉ L q)
      (others : Scan L position names last) : Scan L start (name :: names) last

namespace Scan

theorem le (scan : Scan L start names last) : start ≤ last := by
  induction scan with
  | done => exact Nat.le_refl _
  | found ahead _ _ _ ih => exact Nat.le_trans ahead ih

/-- A scan is a schedule, and its last position is where the scan ends. -/
theorem schedule (scan : Scan L start names last) (enough : last ≤ bound) :
    ∃ positions, Schedule L names start bound positions ∧ positions.getLastD start = last := by
  induction scan with
  | done => exact ⟨[], .nil, rfl⟩
  | @found start position last name names ahead here _ others ih =>
    obtain ⟨positions, schedule, rfl⟩ := ih enough
    have high : position ≤ bound := Nat.le_trans others.le enough
    exact ⟨position :: positions, Schedule.cons_iff.mpr ⟨ahead, high, here, schedule⟩,
      List.getLastD_cons ..⟩

/-- The exchange argument: a schedule that starts no earlier ends no earlier. -/
theorem le_schedule (scan : Scan L start names last) (ahead : start ≤ later)
    (schedule : Schedule L names later bound positions) : last ≤ positions.getLastD later := by
  induction scan generalizing later positions with
  | done =>
    rw [schedule.eq_nil]
    exact ahead
  | @found start place last name names _ _ missing _ ih =>
    obtain ⟨position, others, rfl⟩ := schedule.exists_cons
    obtain ⟨low, high, here, schedule⟩ := Schedule.cons_iff.mp schedule
    have notBefore : place ≤ position := by
      by_contra early
      exact missing position (by omega) (by omega) here
    rw [List.getLastD_cons]
    exact ih notBefore schedule

/-- A name that the scan misses is in no schedule after these names. -/
theorem unscheduled (scan : Scan L start names last)
    (missing : ∀ q, last ≤ q → q ≤ bound → name ∉ L q) :
    ¬ ∃ positions, Schedule L (names ++ [name]) start bound positions := by
  rintro ⟨positions, schedule⟩
  obtain ⟨before, after, rfl, hbefore, hafter⟩ := schedule.of_append
  obtain ⟨position, others, rfl⟩ := hafter.exists_cons
  obtain ⟨low, high, here, -⟩ := Schedule.cons_iff.mp hafter
  have reached := scan.le_schedule (Nat.le_refl _) hbefore
  exact missing position (Nat.le_trans reached low) high here

end Scan

end ClusterReadiness
