import ClusterReadiness.Proofs.Router.Emission

/-!
# What rules accept

An event is wanted if there is no rule, or if one of the rules has all its criteria met. Only an
event of no phase can make a rule fail: one that asks for the phase after it has let the type pass.
Rules are looked at in turn, so such a rule is not reached if one before it accepts the event, which
takes a rule that does not go by the phase.
-/

namespace ClusterReadiness

namespace Rule

variable {rule : Rule} {rules rest : List Rule} {event : Event} {accepted : Bool}
  {object : ForeignObject}

/-- Every criterion that demands something is met. -/
structure Holds (rule : Rule) (event : Event) : Prop where
  type : demanded rule.eventTypes ≠ [] → event.type ∈ demanded rule.eventTypes
  phase : demanded rule.phases ≠ [] → ∃ phase ∈ demanded rule.phases, event.phase = .ok phase
  topic : demanded rule.topics ≠ [] → ∃ topic ∈ demanded rule.topics, event.topic? = some topic

/-- The type passes: it is demanded, or none is. -/
def AdmitsType (rule : Rule) (event : Event) : Prop :=
  demanded rule.eventTypes = [] ∨ event.type ∈ demanded rule.eventTypes

/-- The rule goes by the phase, and looks at it because the type passes. -/
def AsksPhase (rule : Rule) (event : Event) : Prop :=
  demanded rule.phases ≠ [] ∧ rule.AdmitsType event

/-- The rule does not go by the phase, and its criteria are met. -/
def AcceptsUnasked (rule : Rule) (event : Event) : Prop :=
  demanded rule.phases = [] ∧ rule.Holds event

/-- The type passes, and nothing else is demanded. -/
def AcceptsType (rule : Rule) (event : Event) : Prop :=
  demanded rule.phases = [] ∧ demanded rule.topics = [] ∧ rule.AdmitsType event

/-- Some rule asks for the phase, and none of those before it ends the search. -/
def ReachPhase (ends : Rule → Event → Prop) (rules : List Rule) (event : Event) : Prop :=
  ∃ before rule after, rules = before ++ rule :: after ∧ rule.AsksPhase event ∧
    ∀ earlier ∈ before, ¬ ends earlier event

section Steps

theorem admitsType_iff : rule.AdmitsType event ↔
    (demanded rule.eventTypes ≠ [] → event.type ∈ demanded rule.eventTypes) :=
  Classical.or_iff_not_imp_left

/-- The criterion on topics, as it is looked at last. -/
def meetsTopic (rule : Rule) (event : Event) : Bool :=
  (demanded rule.topics).isEmpty ||
    event.topic?.any fun topic => (demanded rule.topics).contains topic

theorem meetsTopic_iff : rule.meetsTopic event = true ↔
    (demanded rule.topics ≠ [] → ∃ topic ∈ demanded rule.topics, event.topic? = some topic) := by
  rw [meetsTopic, Bool.or_eq_true, List.isEmpty_iff, Classical.or_iff_not_imp_left,
    Option.any_eq_true]
  simp only [List.contains_iff_mem, and_comm]

theorem refusesType_iff : (!(demanded rule.eventTypes).isEmpty &&
    !(demanded rule.eventTypes).contains event.type) = true ↔ ¬ rule.AdmitsType event := by
  simp [AdmitsType]

theorem accepts_of_refused (refused : ¬ rule.AdmitsType event) :
    rule.accepts event = .ok false := by
  rw [accepts, if_pos (refusesType_iff.mpr refused)]

theorem accepts_of_admitted (admitted : rule.AdmitsType event) (free : demanded rule.phases = []) :
    rule.accepts event = .ok (rule.meetsTopic event) := by
  have passes := refusesType_iff.not_left.mpr admitted
  rw [accepts, if_neg passes, if_pos (List.isEmpty_iff.mpr free), meetsTopic]

theorem accepts_of_asked (asks : rule.AsksPhase event) :
    rule.accepts event = event.phase.map fun phase =>
      (demanded rule.phases).contains phase && rule.meetsTopic event := by
  obtain ⟨some, admitted⟩ := asks
  have passes := refusesType_iff.not_left.mpr admitted
  have demands : ¬ (demanded rule.phases).isEmpty = true := by simpa using some
  rw [accepts, if_neg passes, if_neg demands]
  rfl

/-- A rule that answers accepts the event iff all its criteria are met. -/
theorem accepts_iff_holds (answers : rule.accepts event = .ok accepted) :
    accepted = true ↔ rule.Holds event := by
  by_cases admitted : rule.AdmitsType event
  · by_cases free : demanded rule.phases = []
    · rw [accepts_of_admitted admitted free, Except.ok.injEq] at answers
      rw [← answers, meetsTopic_iff]
      exact ⟨fun topic => ⟨admitsType_iff.mp admitted, fun some => absurd free some, topic⟩,
        Holds.topic⟩
    · rw [accepts_of_asked ⟨free, admitted⟩] at answers
      cases placed : event.phase with
      | error failure =>
        rw [placed] at answers
        cases answers
      | ok phase =>
        rw [placed, Except.map, Except.ok.injEq] at answers
        rw [← answers, Bool.and_eq_true, List.contains_iff_mem, meetsTopic_iff]
        constructor
        · rintro ⟨listed, topic⟩
          exact ⟨admitsType_iff.mp admitted, fun _ => ⟨phase, listed, placed⟩, topic⟩
        · rintro ⟨-, there, topic⟩
          obtain ⟨other, listed, placed'⟩ := there free
          cases placed.symm.trans placed'
          exact ⟨listed, topic⟩
  · rw [accepts_of_refused admitted] at answers
    cases answers
    exact ⟨fun h => (by cases h), fun holds => absurd (admitsType_iff.mpr holds.type) admitted⟩

/-- A rule that does not come to ask for the phase answers, and accepts without it. -/
theorem accepts_of_not_asked (unasked : ¬ rule.AsksPhase event) :
    ∃ accepted, rule.accepts event = .ok accepted ∧
      (accepted = true ↔ rule.AcceptsUnasked event) := by
  have free (admitted : rule.AdmitsType event) : demanded rule.phases = [] := by
    by_contra some
    exact unasked ⟨some, admitted⟩
  have answers : ∃ accepted, rule.accepts event = .ok accepted := by
    by_cases admitted : rule.AdmitsType event
    · exact ⟨_, accepts_of_admitted admitted (free admitted)⟩
    · exact ⟨_, accepts_of_refused admitted⟩
  obtain ⟨accepted, answers⟩ := answers
  refine ⟨accepted, answers, (accepts_iff_holds answers).trans ⟨fun holds => ?_, And.right⟩⟩
  exact ⟨free (admitsType_iff.mpr holds.type), holds⟩

end Steps

section Reached

variable {ends : Rule → Event → Prop}

theorem not_reachPhase_nil : ¬ ReachPhase ends [] event := by
  rintro ⟨before, rule, after, split, -⟩
  exact absurd split (by simp)

theorem reachPhase_cons_iff : ReachPhase ends (rule :: rest) event ↔
    rule.AsksPhase event ∨ ¬ ends rule event ∧ ReachPhase ends rest event := by
  constructor
  · rintro ⟨before, asking, after, split, asks, passed⟩
    cases before with
    | nil =>
      cases split
      exact .inl asks
    | cons first before =>
      cases split
      obtain ⟨here, others⟩ := List.forall_mem_cons.mp passed
      exact .inr ⟨here, before, asking, after, rfl, asks, others⟩
  · rintro (asks | ⟨here, before, asking, after, rfl, asks, others⟩)
    · exact ⟨[], rule, rest, rfl, asks, by simp⟩
    · exact ⟨rule :: before, asking, after, rfl, asks, List.forall_mem_cons.mpr ⟨here, others⟩⟩

end Reached

section Runs

/-- Rules that answer accept the event iff one of them has its criteria met. -/
theorem anyAccepts_iff_holds (answers : anyAccepts rules event = .ok accepted) :
    accepted = true ↔ ∃ rule ∈ rules, rule.Holds event := by
  induction rules with
  | nil =>
    cases answers
    simp
  | cons rule rest ih =>
    rw [anyAccepts] at answers
    simp only [List.mem_cons, exists_eq_or_imp]
    cases first : rule.accepts event with
    | error failure =>
      rw [first] at answers
      cases answers
    | ok here =>
      rw [first] at answers
      have holds := accepts_iff_holds first
      cases here with
      | true =>
        cases answers
        exact ⟨fun _ => .inl (holds.mp rfl), fun _ => rfl⟩
      | false =>
        have unmet : ¬ rule.Holds event := fun h => by cases holds.mpr h
        rw [ih answers]
        exact ⟨.inr, fun h => h.resolve_left unmet⟩

/-- What is raised for want of a phase. -/
def phaseless (object : ForeignObject) : Failure :=
  .of (.wrongType ("unknown event " ++ object.kind ++ "()"))

theorem accepts_foreign_of_asked (foreign : event.happening = .foreign object)
    (asks : rule.AsksPhase event) : rule.accepts event = .error (phaseless object) := by
  rw [accepts_of_asked asks, Event.phase, foreign]
  rfl

/-- A foreign event makes rules fail exactly if they come to ask for its phase. -/
theorem anyAccepts_foreign (foreign : event.happening = .foreign object) :
    ReachPhase AcceptsUnasked rules event ∧ anyAccepts rules event = .error (phaseless object) ∨
      ¬ ReachPhase AcceptsUnasked rules event ∧
        ∃ accepted, anyAccepts rules event = .ok accepted := by
  induction rules with
  | nil => exact .inr ⟨not_reachPhase_nil, false, rfl⟩
  | cons rule rest ih =>
    rw [anyAccepts, reachPhase_cons_iff]
    by_cases asks : rule.AsksPhase event
    · rw [accepts_foreign_of_asked foreign asks]
      exact .inl ⟨.inl asks, rfl⟩
    · obtain ⟨here, answers, accepts⟩ := accepts_of_not_asked asks
      rw [answers]
      cases here with
      | true =>
        have accepted := accepts.mp rfl
        refine .inr ⟨?_, true, rfl⟩
        rintro (h | ⟨h, -⟩)
        · exact asks h
        · exact h accepted
      | false =>
        have passed : ¬ rule.AcceptsUnasked event := fun h => by cases accepts.mpr h
        refine ih.imp ?_ ?_
        · rintro ⟨reached, raised⟩
          exact ⟨.inr ⟨passed, reached⟩, raised⟩
        · rintro ⟨unreached, answers⟩
          refine ⟨?_, answers⟩
          rintro (h | ⟨-, h⟩)
          · exact asks h
          · exact unreached h

end Runs

/-- An event of a run, whatever type it is filed under, never makes rules fail, and they want it iff
there are none or one of them has all its criteria met. A foreign event makes them fail, for want of
a phase, exactly if they come to ask for it, which they do unless a rule before accepts the event
without its phase; otherwise the same holds of it. -/
theorem wants_iff_holds (rules : List Rule) (event : Event) :
    let answers := ∃ wanted, wants rules event = .ok wanted ∧
      (wanted = true ↔ rules = [] ∨ ∃ rule ∈ rules, rule.Holds event)
    ((∀ object, event.happening ≠ .foreign object) → answers) ∧
    ∀ object, event.happening = .foreign object →
      (wants rules event = .error (.of (.wrongType ("unknown event " ++ object.kind ++ "()"))) ↔
        ReachPhase AcceptsUnasked rules event) ∧
      (¬ ReachPhase AcceptsUnasked rules event → answers) := by
  intro answers
  have law {wanted : Bool} (done : wants rules event = .ok wanted) : answers := by
    refine ⟨wanted, done, ?_⟩
    cases rules with
    | nil =>
      cases done
      simp
    | cons rule rest =>
      rw [anyAccepts_iff_holds done]
      simp
  refine ⟨fun own => ?_, fun object foreign => ?_⟩
  · obtain ⟨wanted, done⟩ := Router.wants_ok rules own
    exact law done
  · have outcome :
        ReachPhase AcceptsUnasked rules event ∧ wants rules event = .error (phaseless object) ∨
        ¬ ReachPhase AcceptsUnasked rules event ∧
          ∃ accepted, wants rules event = .ok accepted := by
      cases rules with
      | nil => exact .inr ⟨not_reachPhase_nil, true, rfl⟩
      | cons rule rest => exact anyAccepts_foreign foreign
    rcases outcome with ⟨reached, raised⟩ | ⟨unreached, accepted, done⟩
    · exact ⟨⟨fun _ => reached, fun _ => raised⟩, fun h => absurd reached h⟩
    · refine ⟨⟨fun raised => ?_, fun h => absurd h unreached⟩, fun _ => law done⟩
      cases done.symm.trans raised

/-- Rules that go by the phase, the first of them for events of another type. -/
def phasewise : List Rule :=
  [⟨some [.ready], some [.ready], none⟩, ⟨none, some [.failed], some ["orders"]⟩]

/-- A rule for all that is about a topic. -/
def about (topic : String) : Rule := ⟨none, some [], some [topic]⟩

/-- An object of no phase that is about a topic. -/
def stray (topic : String) : Event := ⟨.foreign ⟨"Opaque", some topic⟩, 0.0, .unknown⟩

/-- A foreign event is taken by a rule on its topic, although no rule before the one that asks for
the phase takes it by its type alone. -/
theorem wants_topic_before_phase :
    let rules : List Rule := [about "orders", ⟨none, some [.ready], none⟩]
    ReachPhase AcceptsType rules (stray "orders") ∧ wants rules (stray "orders") = .ok true := by
  intro rules
  refine ⟨⟨[about "orders"], _, [], rfl, ?_, ?_⟩, by decide⟩
  · simp [AsksPhase, AdmitsType, demanded]
  · simp [AcceptsType, about, demanded]

/-- A foreign event passes the first rule by its type and makes the second fail, unless a rule on
its topic takes it before. -/
theorem wants_iff_holds_opaque :
    (stray "orders").happening = .foreign ⟨"Opaque", some "orders"⟩ ∧
    wants phasewise (stray "orders") = .error (.of (.wrongType "unknown event Opaque()")) ∧
    wants (about "orders" :: phasewise) (stray "orders") = .ok true := by
  have reached : ReachPhase AcceptsUnasked phasewise (stray "orders") := by
    refine ⟨[⟨some [.ready], some [.ready], none⟩], _, [], rfl, ?_, ?_⟩
    · simp [AsksPhase, AdmitsType, demanded]
    · simp [AcceptsUnasked, demanded]
  have holds : (about "orders").Holds (stray "orders") :=
    ⟨fun some => absurd rfl some, fun some => absurd rfl some, fun _ => ⟨"orders", .head _, rfl⟩⟩
  have taken : ¬ ReachPhase AcceptsUnasked (about "orders" :: phasewise) (stray "orders") := by
    rw [reachPhase_cons_iff]
    rintro (asks | ⟨passed, -⟩)
    · exact asks.1 rfl
    · exact passed ⟨rfl, holds⟩
  obtain ⟨raises, -⟩ := (wants_iff_holds phasewise (stray "orders")).2 _ rfl
  obtain ⟨-, answers⟩ := (wants_iff_holds (about "orders" :: phasewise) (stray "orders")).2 _ rfl
  obtain ⟨wanted, done, law⟩ := answers taken
  rw [law.mpr (.inr ⟨_, .head _, holds⟩)] at done
  exact ⟨rfl, raises.mpr reached, done⟩

end Rule

end ClusterReadiness
