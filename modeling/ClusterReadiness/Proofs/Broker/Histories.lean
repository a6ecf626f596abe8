import ClusterReadiness.Broker.InMemory
import Mathlib.Data.List.Nodup
import Mathlib.Data.Option.Basic

/-!
# The in-memory broker as a function of its history

What a broker shows can be said without its two tables and its countdowns: a name that was not
there from the start belongs to the first creation of it, and the delay in force at that creation
against the number of listings since decides whether it is listed yet.

`Standing` is what the broker holds of one name. `standing_createOne` and `standing_listTopics` say
how one step moves it, on a broker whose tables are `Sound`; the fold over a whole history is then
computed from the history's first creation of the name alone.
-/

namespace ClusterReadiness

namespace PendingTopic

/-- Due topics come into view with the next listing. -/
def isDue (waiting : PendingTopic) : Bool := waiting.remaining ≤ 1

def closer (waiting : PendingTopic) : PendingTopic :=
  { waiting with remaining := waiting.remaining - 1 }

end PendingTopic

namespace InMemoryBroker

/-- What a caller can do to a broker, the setting of its delay among it. -/
inductive Operation where
  | create (specs : List TopicSpec)
  | list
  | describe (name : String)
  | setDelay (delay : Int)
deriving DecidableEq

def perform (broker : InMemoryBroker) : Operation → InMemoryBroker
  | .create specs => (broker.createTopics specs).1
  | .list => broker.listTopics.1
  | .describe _ => broker
  | .setDelay delay => { broker with visibilityDelay := delay }

/-- The broker at the end of a history. -/
def after (broker : InMemoryBroker) (history : List Operation) : InMemoryBroker :=
  history.foldl perform broker

theorem after_append (broker : InMemoryBroker) (history more : List Operation) :
    broker.after (history ++ more) = (broker.after history).after more :=
  List.foldl_append

/-- The moments of a history that matter to a name: a declaration is processed while some delay is
in force, or a listing is answered. -/
inductive Moment where
  | created (spec : TopicSpec) (delay : Int)
  | listed
deriving DecidableEq

/-- The moments of a history that begins under the given delay. -/
def timeline : Int → List Operation → List Moment
  | _, [] => []
  | delay, .create specs :: rest => specs.map (Moment.created · delay) ++ timeline delay rest
  | delay, .list :: rest => .listed :: timeline delay rest
  | delay, .describe _ :: rest => timeline delay rest
  | _, .setDelay delay :: rest => timeline delay rest

/-- A creation, with the delay in force at it and the number of listings answered since. -/
structure Creation where
  spec : TopicSpec
  delay : Int
  listings : Nat
deriving DecidableEq

/-- The first creation of a name. -/
def firstCreation (name : String) : List Moment → Option Creation
  | [] => none
  | .listed :: rest => firstCreation name rest
  | .created spec delay :: rest =>
    if spec.name = name then some ⟨spec, delay, rest.count .listed⟩ else firstCreation name rest

/-- What a broker holds of one name. -/
inductive Standing where
  | unknown
  | pending (spec : TopicSpec) (remaining : Int)
  | visible (spec : TopicSpec)

/-- The listed declaration of a name. -/
def held (broker : InMemoryBroker) (name : String) : Option TopicSpec :=
  broker.topics.find? (·.name == name)

/-- The entry of a name among the topics that wait. -/
def awaited (broker : InMemoryBroker) (name : String) : Option PendingTopic :=
  broker.pending.find? (·.spec.name == name)

namespace Standing

def of : Option TopicSpec → Option PendingTopic → Standing
  | some spec, _ => .visible spec
  | none, some waiting => .pending waiting.spec waiting.remaining
  | none, none => .unknown

/-- How a moment moves the standing of a name. -/
def advance (name : String) : Standing → Moment → Standing
  | .unknown, .created spec delay =>
    if spec.name = name then if 0 < delay then .pending spec delay else .visible spec
    else .unknown
  | .pending spec remaining, .listed =>
    if remaining ≤ 1 then .visible spec else .pending spec (remaining - 1)
  | standing, _ => standing

def spec? : Standing → Option TopicSpec
  | .unknown => none
  | .pending spec _ => some spec
  | .visible spec => some spec

end Standing

def standing (broker : InMemoryBroker) (name : String) : Standing :=
  .of (broker.held name) (broker.awaited name)

/-- Where a creation has come to by now. -/
def Creation.standing (creation : Creation) : Standing :=
  if creation.delay ≤ creation.listings then .visible creation.spec
  else .pending creation.spec (creation.delay - creation.listings)

/-- No name is in both tables or waits twice, and whatever waits has listings to wait for. -/
structure Sound (broker : InMemoryBroker) : Prop where
  apart : ∀ spec ∈ broker.topics, ∀ waiting ∈ broker.pending, spec.name ≠ waiting.spec.name
  single : (broker.pending.map (·.spec.name)).Nodup
  waits : ∀ waiting ∈ broker.pending, 0 < waiting.remaining

/-! ## Looking a name up -/

/-- Where keys are unique, a filter leaves the entry of a key or takes it out. -/
theorem find?_filter_of_nodup {α : Type} (key : α → String) (keep : α → Bool) (name : String)
    {entries : List α} (single : (entries.map key).Nodup) :
    (entries.filter keep).find? (key · == name) =
      (entries.find? (key · == name)).filter keep := by
  induction entries with
  | nil => rfl
  | cons entry rest ih =>
    rw [List.map_cons, List.nodup_cons] at single
    obtain ⟨fresh, single⟩ := single
    by_cases here : key entry = name
    · by_cases kept : keep entry = true
      · simp [kept, here, Option.filter_some]
      · have gone : (rest.filter keep).find? (key · == name) = none := by
          rw [List.find?_eq_none]
          intro other among same
          have among : other ∈ rest := List.mem_of_mem_filter among
          have same : key other = key entry := (beq_iff_eq.mp same).trans here.symm
          exact fresh (same ▸ List.mem_map_of_mem among)
        rw [List.filter_cons_of_neg kept, gone]
        simp [kept, here, Option.filter_some]
    · by_cases kept : keep entry = true
      · simpa [kept, here] using ih single
      · simpa [kept, here] using ih single

variable {broker : InMemoryBroker} {name : String}

theorem find?_topics : broker.topics.find? (·.name == name) = broker.held name := rfl

theorem find?_pending :
    broker.pending.find? (fun waiting => waiting.spec.name == name) = broker.awaited name := rfl

theorem held_mk (topics : List TopicSpec) (pending : List PendingTopic) (delay : Int)
    (creates lists : Nat) (name : String) :
    (⟨topics, pending, delay, creates, lists⟩ : InMemoryBroker).held name =
      topics.find? (·.name == name) := rfl

theorem awaited_mk (topics : List TopicSpec) (pending : List PendingTopic) (delay : Int)
    (creates lists : Nat) (name : String) :
    (⟨topics, pending, delay, creates, lists⟩ : InMemoryBroker).awaited name =
      pending.find? fun waiting => waiting.spec.name == name := rfl

theorem held_eq_none_iff :
    broker.held name = none ↔ ∀ spec ∈ broker.topics, spec.name ≠ name := by
  simp [held]

theorem mem_listTopics :
    name ∈ broker.listTopics.2 ↔ ∃ spec, broker.standing name = .visible spec := by
  have looked : name ∈ broker.listTopics.2 ↔ (broker.held name).isSome = true := by
    simp [listTopics, held]
  rw [looked, standing]
  cases broker.held name <;> cases broker.awaited name <;> simp [Standing.of]

theorem describeTopic_eq : broker.describeTopic name = (broker.standing name).spec? := by
  unfold describeTopic
  rw [find?_topics, find?_pending, standing]
  cases broker.held name <;> cases broker.awaited name <;> rfl

theorem known_eq (broker : InMemoryBroker) (name : String) :
    (broker.isVisible name || broker.isPending name) =
      ((broker.held name).isSome || (broker.awaited name).isSome) := by
  rw [isVisible, isPending, held, awaited, List.isSome_find?, List.isSome_find?]

theorem awaited_of_mem (sound : Sound broker) {waiting : PendingTopic}
    (among : waiting ∈ broker.pending) : broker.awaited waiting.spec.name = some waiting := by
  cases found : broker.awaited waiting.spec.name with
  | none =>
    have missing := List.find?_eq_none.mp found waiting among
    exact absurd (beq_self_eq_true _) missing
  | some other =>
    have named := List.find?_some found
    have named : other.spec.name = waiting.spec.name := beq_iff_eq.mp named
    have same := List.inj_on_of_nodup_map sound.single (List.mem_of_find?_eq_some found) among named
    rw [same]

/-- On a sound broker an entry of the table of waiting topics is all there is of its name. -/
theorem mem_pending (sound : Sound broker) {waiting : PendingTopic} :
    waiting ∈ broker.pending ↔
      broker.standing waiting.spec.name = .pending waiting.spec waiting.remaining := by
  constructor
  · intro among
    have unlisted : broker.held waiting.spec.name = none := by
      rw [held_eq_none_iff]
      intro spec listed
      exact sound.apart spec listed waiting among
    rw [standing, unlisted, awaited_of_mem sound among, Standing.of]
  · intro stands
    rw [standing] at stands
    cases listed : broker.held waiting.spec.name with
    | some spec => simp [listed, Standing.of] at stands
    | none =>
      cases found : broker.awaited waiting.spec.name with
      | none => simp [listed, found, Standing.of] at stands
      | some other =>
        have same : other = waiting := by
          cases other
          cases waiting
          simpa [listed, found, Standing.of] using stands
        exact same ▸ List.mem_of_find?_eq_some found

/-! ## One operation -/

theorem standing_createOne (broker : InMemoryBroker) (spec : TopicSpec) (name : String) :
    (broker.createOne spec).1.standing name =
      (broker.standing name).advance name (.created spec broker.visibilityDelay) := by
  unfold createOne
  rw [known_eq]
  by_cases same : spec.name = name
  · subst same
    cases listed : broker.held spec.name with
    | some other => simp [standing, listed, Standing.of, Standing.advance]
    | none =>
      cases found : broker.awaited spec.name with
      | some other => simp [standing, listed, found, Standing.of, Standing.advance]
      | none =>
        by_cases delayed : 0 < broker.visibilityDelay
        · simp [delayed, held_mk, awaited_mk, find?_topics, find?_pending, standing, listed, found,
            Standing.of, Standing.advance]
        · simp [delayed, held_mk, awaited_mk, find?_topics, find?_pending, standing, listed, found,
            Standing.of, Standing.advance]
  · have still : (broker.standing name).advance name (.created spec broker.visibilityDelay) =
        broker.standing name := by
      cases broker.standing name <;> simp [Standing.advance, same]
    rw [still]
    split
    · rfl
    · split
      · simp [held_mk, awaited_mk, find?_topics, find?_pending, standing, same]
      · simp [held_mk, awaited_mk, find?_topics, find?_pending, standing, same]

theorem Sound.createOne (sound : Sound broker) (spec : TopicSpec) :
    Sound (broker.createOne spec).1 := by
  unfold InMemoryBroker.createOne
  rw [known_eq]
  by_cases known : ((broker.held spec.name).isSome || (broker.awaited spec.name).isSome) = true
  · rw [if_pos known]
    exact sound
  · rw [if_neg known]
    have unlisted : broker.held spec.name = none := by
      cases listed : broker.held spec.name with
      | none => rfl
      | some other => simp [listed] at known
    have unawaited : ∀ waiting ∈ broker.pending, waiting.spec.name ≠ spec.name := by
      intro waiting among same
      have found := awaited_of_mem sound among
      rw [same] at found
      simp [found] at known
    rw [held_eq_none_iff] at unlisted
    by_cases delayed : 0 < broker.visibilityDelay
    · rw [if_pos delayed]
      constructor
      · intro other listed waiting among
        rcases List.mem_append.mp among with among | among
        · exact sound.apart other listed waiting among
        · rw [List.mem_singleton.mp among]
          exact unlisted other listed
      · rw [List.map_append, List.nodup_append]
        refine ⟨sound.single, List.nodup_singleton _, ?_⟩
        intro key among last lastly
        obtain ⟨waiting, before, rfl⟩ := List.mem_map.mp among
        rw [List.map_singleton, List.mem_singleton] at lastly
        rw [lastly]
        exact unawaited waiting before
      · intro waiting among
        rcases List.mem_append.mp among with among | among
        · exact sound.waits waiting among
        · rw [List.mem_singleton.mp among]
          exact delayed
    · rw [if_neg delayed]
      constructor
      · intro other listed waiting among
        rcases List.mem_append.mp listed with listed | listed
        · exact sound.apart other listed waiting among
        · rw [List.mem_singleton.mp listed]
          exact (unawaited waiting among).symm
      · exact sound.single
      · exact sound.waits

theorem listTopics_fst (broker : InMemoryBroker) :
    broker.listTopics.1 =
      { broker with
        topics := broker.topics ++ (broker.pending.filter PendingTopic.isDue).map PendingTopic.spec
        pending := (broker.pending.filter (!PendingTopic.isDue ·)).map PendingTopic.closer
        listCalls := broker.listCalls + 1 } := by
  rw [listTopics, List.partition_eq_filter_filter]
  rfl

/-- A listing brings what waits one step closer, which takes the tables' soundness: were a name
in the table twice, the second entry could be due while the first still waits. -/
theorem standing_listTopics (sound : Sound broker) (name : String) :
    broker.listTopics.1.standing name = (broker.standing name).advance name .listed := by
  have due : (broker.pending.filter PendingTopic.isDue).find? (·.spec.name == name) =
      (broker.awaited name).filter PendingTopic.isDue :=
    find?_filter_of_nodup (·.spec.name) PendingTopic.isDue name sound.single
  have later : (broker.pending.filter (!PendingTopic.isDue ·)).find? (·.spec.name == name) =
      (broker.awaited name).filter (!PendingTopic.isDue ·) :=
    find?_filter_of_nodup (·.spec.name) (!PendingTopic.isDue ·) name sound.single
  have listed : broker.listTopics.1.held name = (broker.held name).or
      (((broker.awaited name).filter PendingTopic.isDue).map PendingTopic.spec) := by
    rw [listTopics_fst, held_mk, List.find?_append, List.find?_map, find?_topics, ← due]
    rfl
  have waiting : broker.listTopics.1.awaited name =
      ((broker.awaited name).filter (!PendingTopic.isDue ·)).map PendingTopic.closer := by
    rw [listTopics_fst, awaited_mk, List.find?_map, ← later]
    rfl
  rw [standing, standing, listed, waiting]
  cases broker.held name with
  | some spec => rfl
  | none =>
    cases broker.awaited name with
    | none => rfl
    | some waiting =>
      by_cases close : waiting.remaining ≤ 1
      · simp [Option.filter_some, PendingTopic.isDue, close, Standing.of, Standing.advance]
      · simp [Option.filter_some, PendingTopic.isDue, PendingTopic.closer, close, Standing.of,
          Standing.advance]

theorem Sound.listTopics (sound : Sound broker) : Sound broker.listTopics.1 := by
  rw [listTopics_fst]
  constructor
  · intro spec listed waiting among
    obtain ⟨before, kept, rfl⟩ := List.mem_map.mp among
    obtain ⟨waited, late⟩ := List.mem_filter.mp kept
    rcases List.mem_append.mp listed with listed | shown
    · exact sound.apart spec listed before waited
    · obtain ⟨other, due, rfl⟩ := List.mem_map.mp shown
      obtain ⟨also_waited, early⟩ := List.mem_filter.mp due
      intro same
      have one : other = before := List.inj_on_of_nodup_map sound.single also_waited waited same
      rw [one] at early
      simp [early] at late
  · have names : ((broker.pending.filter (!PendingTopic.isDue ·)).map PendingTopic.closer).map
        (·.spec.name) = (broker.pending.filter (!PendingTopic.isDue ·)).map (·.spec.name) := by
      rw [List.map_map]
      rfl
    have shorter : ((broker.pending.filter (!PendingTopic.isDue ·)).map (·.spec.name)).Sublist
        (broker.pending.map (·.spec.name)) := List.filter_sublist.map _
    exact names ▸ sound.single.sublist shorter
  · intro waiting among
    obtain ⟨before, kept, rfl⟩ := List.mem_map.mp among
    have late := List.of_mem_filter kept
    simp only [PendingTopic.isDue, Bool.not_eq_true', decide_eq_false_iff_not] at late
    simp only [PendingTopic.closer]
    omega

theorem createOne_delay (broker : InMemoryBroker) (spec : TopicSpec) :
    (broker.createOne spec).1.visibilityDelay = broker.visibilityDelay := by
  unfold createOne
  split
  · rfl
  · split <;> rfl

/-! ## A whole history -/

theorem createAll_delay (broker : InMemoryBroker) (specs : List TopicSpec) :
    (broker.createAll specs).1.visibilityDelay = broker.visibilityDelay := by
  induction specs generalizing broker with
  | nil => rfl
  | cons spec rest ih => exact (ih _).trans (createOne_delay broker spec)

theorem Sound.createAll (sound : Sound broker) (specs : List TopicSpec) :
    Sound (broker.createAll specs).1 := by
  induction specs generalizing broker with
  | nil => exact sound
  | cons spec rest ih => exact ih (sound.createOne spec)

/-- Within a batch the declarations are processed one after the other. -/
theorem standing_createAll (broker : InMemoryBroker) (specs : List TopicSpec) (name : String) :
    (broker.createAll specs).1.standing name =
      (specs.map (Moment.created · broker.visibilityDelay)).foldl (Standing.advance name)
        (broker.standing name) := by
  induction specs generalizing broker with
  | nil => rfl
  | cons spec rest ih =>
    have step := standing_createOne broker spec name
    have onward := ih (broker.createOne spec).1
    rw [createOne_delay, step] at onward
    exact onward

theorem Sound.perform (sound : Sound broker) (operation : Operation) :
    Sound (broker.perform operation) := by
  cases operation with
  | create specs =>
    have counted : Sound { broker with createCalls := broker.createCalls + 1 } :=
      ⟨sound.apart, sound.single, sound.waits⟩
    exact counted.createAll specs
  | list => exact sound.listTopics
  | describe name => exact sound
  | setDelay delay => exact ⟨sound.apart, sound.single, sound.waits⟩

theorem Sound.after (sound : Sound broker) (history : List Operation) :
    Sound (broker.after history) := by
  induction history generalizing broker with
  | nil => exact sound
  | cons operation rest ih => exact ih (sound.perform operation)

/-- The standing of a name after a history is computed from the moments of the history alone. -/
theorem standing_after (sound : Sound broker) (history : List Operation) (name : String) :
    (broker.after history).standing name =
      (timeline broker.visibilityDelay history).foldl (Standing.advance name)
        (broker.standing name) := by
  induction history generalizing broker with
  | nil => rfl
  | cons operation rest ih =>
    have onward := ih (sound.perform operation)
    change ((broker.perform operation).after rest).standing name = _
    rw [onward]
    cases operation with
    | create specs =>
      have batch := standing_createAll { broker with createCalls := broker.createCalls + 1 } specs
        name
      have delay := createAll_delay { broker with createCalls := broker.createCalls + 1 } specs
      rw [timeline, List.foldl_append, perform, createTopics, batch, delay]
      rfl
    | list =>
      rw [timeline, List.foldl_cons, perform, standing_listTopics sound, listTopics_fst]
    | describe other => rfl
    | setDelay delay => rfl

theorem foldl_advance_visible (name : String) (spec : TopicSpec) (moments : List Moment) :
    moments.foldl (Standing.advance name) (.visible spec) = .visible spec := by
  induction moments with
  | nil => rfl
  | cons moment rest ih => exact ih

/-- What waits counts the listings and nothing else. -/
theorem foldl_advance_pending (name : String) (spec : TopicSpec) (moments : List Moment)
    {remaining : Int} (waits : 0 < remaining) :
    moments.foldl (Standing.advance name) (.pending spec remaining) =
      Creation.standing ⟨spec, remaining, moments.count .listed⟩ := by
  induction moments generalizing remaining with
  | nil =>
    have early : ¬ remaining ≤ 0 := by omega
    simp [Creation.standing, early]
  | cons moment rest ih =>
    cases moment with
    | created other delay =>
      rw [List.foldl_cons, List.count_cons_of_ne (by simp)]
      exact ih waits
    | listed =>
      rw [List.foldl_cons, List.count_cons_self]
      by_cases last : remaining ≤ 1
      · have due : remaining ≤ ((rest.count .listed + 1 : Nat) : Int) := by omega
        simp only [Standing.advance, if_pos last, Creation.standing, if_pos due]
        exact foldl_advance_visible name spec rest
      · have fewer : (0 : Int) < remaining - 1 := by omega
        simp only [Standing.advance, if_neg last]
        rw [ih fewer, Creation.standing, Creation.standing]
        have same : remaining - 1 ≤ ((rest.count .listed : Nat) : Int) ↔
            remaining ≤ ((rest.count .listed + 1 : Nat) : Int) := by omega
        have rest_eq : remaining - 1 - ((rest.count .listed : Nat) : Int) =
            remaining - ((rest.count .listed + 1 : Nat) : Int) := by omega
        simp only [same, rest_eq]

/-- A name that nothing is known of belongs to its first creation. -/
theorem foldl_advance_unknown (name : String) (moments : List Moment) :
    moments.foldl (Standing.advance name) .unknown =
      match firstCreation name moments with
      | none => .unknown
      | some creation => creation.standing := by
  induction moments with
  | nil => rfl
  | cons moment rest ih =>
    cases moment with
    | listed => exact ih
    | created spec delay =>
      rw [List.foldl_cons, firstCreation]
      by_cases same : spec.name = name
      · rw [if_pos same]
        by_cases delayed : 0 < delay
        · simp only [Standing.advance, if_pos same, if_pos delayed]
          exact foldl_advance_pending name spec rest delayed
        · have due : delay ≤ ((rest.count .listed : Nat) : Int) := by omega
          simp only [Standing.advance, if_pos same, if_neg delayed, Creation.standing, if_pos due]
          exact foldl_advance_visible name spec rest
      · simp only [Standing.advance, if_neg same]
        exact ih

theorem Creation.standing_eq_visible_iff {creation : Creation} :
    (∃ spec, creation.standing = .visible spec) ↔
      creation.delay ≤ 0 ∨ creation.delay ≤ creation.listings := by
  unfold Creation.standing
  split
  · rename_i due
    exact ⟨fun _ => .inr due, fun _ => ⟨creation.spec, rfl⟩⟩
  · rename_i early
    constructor
    · rintro ⟨spec, ⟨⟩⟩
    · intro due
      omega

theorem Creation.standing_spec? (creation : Creation) :
    creation.standing.spec? = some creation.spec := by
  unfold Creation.standing
  split <;> rfl

theorem Creation.standing_eq_pending_iff {creation : Creation} {spec : TopicSpec}
    {remaining : Int} : creation.standing = .pending spec remaining ↔
      creation.spec = spec ∧ 0 < remaining ∧
        remaining = creation.delay - creation.listings := by
  unfold Creation.standing
  split
  · rename_i due
    constructor
    · rintro ⟨⟩
    · rintro ⟨-, waits, left⟩
      omega
  · rename_i early
    rw [Standing.pending.injEq]
    constructor
    · rintro ⟨same, left⟩
      exact ⟨same, by omega, left.symm⟩
    · rintro ⟨same, -, left⟩
      exact ⟨same, left.symm⟩

/-- Listings alone bring the moments that count a waiting topic down. -/
theorem count_timeline (delay : Int) (history : List Operation) :
    (timeline delay history).count .listed = history.count .list := by
  induction history generalizing delay with
  | nil => rfl
  | cons operation rest ih =>
    cases operation with
    | create specs =>
      have none_listed : (specs.map (Moment.created · delay)).count .listed = 0 := by
        rw [List.count_eq_zero]
        simp
      rw [timeline, List.count_append, none_listed, ih, List.count_cons_of_ne (by simp)]
      omega
    | list => rw [timeline, List.count_cons_self, List.count_cons_self, ih]
    | describe name => rw [timeline, ih, List.count_cons_of_ne (by simp)]
    | setDelay other => rw [timeline, ih, List.count_cons_of_ne (by simp)]

theorem listed_stays (sound : Sound broker) (more : List Operation)
    (listed : name ∈ broker.listTopics.2) : name ∈ (broker.after more).listTopics.2 := by
  rw [mem_listTopics] at listed ⊢
  obtain ⟨spec, stands⟩ := listed
  refine ⟨spec, ?_⟩
  rw [standing_after sound, stands, foldl_advance_visible]

/-- What waits is counted down by listings; nothing else that is done to the broker reaches it. -/
theorem standing_after_of_mem (sound : Sound broker) (more : List Operation)
    {waiting : PendingTopic} (among : waiting ∈ broker.pending) :
    (broker.after more).standing waiting.spec.name =
      Creation.standing ⟨waiting.spec, waiting.remaining, more.count .list⟩ := by
  rw [standing_after sound, (mem_pending sound).mp among,
    foldl_advance_pending _ _ _ (sound.waits waiting among), count_timeline]

theorem waits_on (sound : Sound broker) (more : List Operation) {waiting : PendingTopic}
    (among : waiting ∈ broker.pending) (left : more.count .list < waiting.remaining) :
    ⟨waiting.spec, waiting.remaining - more.count .list⟩ ∈ (broker.after more).pending := by
  rw [mem_pending (sound.after more), standing_after_of_mem sound more among,
    Creation.standing_eq_pending_iff]
  have still : 0 < waiting.remaining - more.count .list := by omega
  exact ⟨rfl, still, rfl⟩

/-- A declaration that is held is held for good. -/
theorem Standing.spec?_advance {standing : Standing} {spec : TopicSpec} (moment : Moment)
    (holds : standing.spec? = some spec) : (standing.advance name moment).spec? = some spec := by
  cases standing with
  | unknown => cases holds
  | visible other => exact holds
  | pending other remaining =>
    cases moment with
    | created another delay => exact holds
    | listed =>
      rw [Standing.advance]
      split <;> exact holds

theorem Standing.spec?_foldl {standing : Standing} {spec : TopicSpec} (moments : List Moment)
    (holds : standing.spec? = some spec) :
    (moments.foldl (Standing.advance name) standing).spec? = some spec := by
  induction moments generalizing standing with
  | nil => exact holds
  | cons moment rest ih => exact ih (Standing.spec?_advance moment holds)

theorem described_stays (sound : Sound broker) (more : List Operation) {spec : TopicSpec}
    (described : broker.describeTopic name = some spec) :
    (broker.after more).describeTopic name = some spec := by
  rw [describeTopic_eq] at described ⊢
  rw [standing_after sound]
  exact Standing.spec?_foldl _ described

/-! ## From the start -/

theorem make_one {name : String} (named : ¬ Text.AllBlank name) :
    ∃ spec, TopicSpec.make name 1 1 = .ok spec ∧ spec.name = name :=
  ⟨⟨name, 1, 1, named, Int.le_refl 1, Int.le_refl 1⟩, by simp [TopicSpec.make, named], rfl⟩

theorem existingTopics_ok {existing : List String}
    (named : ∀ name ∈ existing, ¬ Text.AllBlank name) :
    ∃ topics, existingTopics existing = .ok topics ∧ topics.map (·.name) = existing ∧
      ∀ spec ∈ topics, TopicSpec.make spec.name 1 1 = .ok spec := by
  induction existing with
  | nil => exact ⟨[], rfl, rfl, by simp⟩
  | cons name rest ih =>
    rw [List.forall_mem_cons] at named
    obtain ⟨topics, begun, names, plain⟩ := ih named.2
    obtain ⟨spec, made, same⟩ := make_one named.1
    refine ⟨spec :: topics, ?_, ?_, ?_⟩
    · rw [existingTopics, made, begun]
      rfl
    · rw [List.map_cons, names, same]
    · rw [List.forall_mem_cons, same]
      exact ⟨made, plain⟩

theorem start_refused {existing : List String} (delay : Int)
    (blank : ∃ name ∈ existing, Text.AllBlank name) :
    start existing delay = .error .blankTopicName := by
  have refused : existingTopics existing = .error .blankTopicName := by
    induction existing with
    | nil => simp at blank
    | cons name rest ih =>
      by_cases here : Text.AllBlank name
      · have unmade : TopicSpec.make name 1 1 = .error .blankTopicName := by
          simp [TopicSpec.make, here]
        rw [existingTopics, unmade]
        rfl
      · obtain ⟨spec, made, -⟩ := make_one here
        obtain ⟨other, among, void⟩ := blank
        have later : other ∈ rest := by
          rcases List.mem_cons.mp among with same | later
          · exact absurd (same ▸ void) here
          · exact later
        rw [existingTopics, made, ih ⟨other, later, void⟩]
        rfl
  rw [start, refused]
  rfl

/-- The names given to a broker are in view when it begins, and it knows of no other. -/
structure Begins (existing : List String) (delay : Int) (broker : InMemoryBroker) : Prop where
  sound : Sound broker
  delayed : broker.visibilityDelay = delay
  given : ∀ name ∈ existing, ∃ spec, TopicSpec.make name 1 1 = .ok spec ∧
    broker.standing name = .visible spec
  others : ∀ name ∉ existing, broker.standing name = .unknown

theorem start_ok {existing : List String} (delay : Int)
    (named : ∀ name ∈ existing, ¬ Text.AllBlank name) :
    ∃ broker, start existing delay = .ok broker ∧ Begins existing delay broker := by
  obtain ⟨topics, begun, names, plain⟩ := existingTopics_ok named
  refine ⟨⟨topics, [], delay, 0, 0⟩, ?_, ?_, rfl, ?_, ?_⟩
  · rw [start, begun]
    rfl
  · constructor
    · intro spec listed waiting among
      cases among
    · exact List.nodup_nil
    · intro waiting among
      cases among
  · intro name among
    have shown : ∃ spec, topics.find? (·.name == name) = some spec := by
      rw [← names] at among
      obtain ⟨spec, listed, same⟩ := List.mem_map.mp among
      rw [← Option.isSome_iff_exists, List.find?_isSome]
      exact ⟨spec, listed, beq_iff_eq.mpr same⟩
    obtain ⟨spec, found⟩ := shown
    have same : spec.name = name := by simpa using List.find?_some found
    refine ⟨spec, ?_, ?_⟩
    · rw [← same]
      exact plain spec (List.mem_of_find?_eq_some found)
    · rw [standing, held_mk, found]
      rfl
  · intro name missing
    have absent : topics.find? (·.name == name) = none := by
      rw [List.find?_eq_none]
      intro spec listed same
      have same : spec.name = name := beq_iff_eq.mp same
      apply missing
      rw [← names, ← same]
      exact List.mem_map_of_mem listed
    rw [standing, held_mk, absent]
    rfl

/-- What a broker shows now, told from the names and the delay it began with and from what was done
to it since. -/
structure Tells (existing : List String) (delay : Int) (history : List Operation)
    (now : InMemoryBroker) : Prop where
  /-- A name is listed if it was there from the start, or if its first creation was not delayed or
  has seen as many listings as it was delayed by. -/
  listed : ∀ name, name ∈ now.listTopics.2 ↔ name ∈ existing ∨
    ∃ creation, firstCreation name (timeline delay history) = some creation ∧
      (creation.delay ≤ 0 ∨ creation.delay ≤ creation.listings)
  existing_described : ∀ name ∈ existing, ∃ spec, TopicSpec.make name 1 1 = .ok spec ∧
    now.describeTopic name = some spec
  created_described : ∀ name ∉ existing,
    now.describeTopic name = (firstCreation name (timeline delay history)).map (·.spec)
  /-- What waits is what its first creation left to wait for. -/
  waits : ∀ waiting, waiting ∈ now.pending ↔ waiting.spec.name ∉ existing ∧
    ∃ creation, firstCreation waiting.spec.name (timeline delay history) = some creation ∧
      creation.spec = waiting.spec ∧ 0 < waiting.remaining ∧
      waiting.remaining = creation.delay - creation.listings

section Begun

variable {existing : List String} {delay : Int} (begins : Begins existing delay broker)
  (history : List Operation)
include begins

/-- No history moves a name that was there from the start. -/
theorem Begins.standing_given (among : name ∈ existing) : ∃ spec,
    TopicSpec.make name 1 1 = .ok spec ∧ (broker.after history).standing name = .visible spec := by
  obtain ⟨spec, made, stands⟩ := begins.given name among
  refine ⟨spec, made, ?_⟩
  rw [standing_after begins.sound, stands, foldl_advance_visible]

/-- Any other name stands where its first creation has come to. -/
theorem Begins.standing_created (missing : name ∉ existing) :
    (broker.after history).standing name =
      match firstCreation name (timeline delay history) with
      | none => .unknown
      | some creation => creation.standing := by
  rw [standing_after begins.sound, begins.others name missing, begins.delayed,
    foldl_advance_unknown]

theorem Begins.tells : Tells existing delay history (broker.after history) := by
  constructor
  · intro name
    rw [mem_listTopics]
    by_cases among : name ∈ existing
    · obtain ⟨spec, -, stands⟩ := begins.standing_given history among
      simp [among, stands]
    · rw [begins.standing_created history among]
      cases firstCreation name (timeline delay history) with
      | none => simp [among]
      | some creation => simp [among, Creation.standing_eq_visible_iff]
  · intro name among
    obtain ⟨spec, made, stands⟩ := begins.standing_given history among
    refine ⟨spec, made, ?_⟩
    rw [describeTopic_eq, stands, Standing.spec?]
  · intro name missing
    rw [describeTopic_eq, begins.standing_created history missing]
    cases firstCreation name (timeline delay history) with
    | none => rfl
    | some creation => exact creation.standing_spec?
  · intro waiting
    rw [mem_pending (begins.sound.after history)]
    by_cases among : waiting.spec.name ∈ existing
    · obtain ⟨spec, -, stands⟩ := begins.standing_given history among
      simp [among, stands]
    · rw [begins.standing_created history among]
      cases firstCreation waiting.spec.name (timeline delay history) with
      | none => simp [among]
      | some creation => simp [among, Creation.standing_eq_pending_iff]

end Begun

/-- A broker in memory is what its history says, unless a blank name keeps it from being made at
all. What is listed stays listed; what waits keeps its declaration, and its countdown goes down by
one with each listing, whatever else is done meanwhile: nothing that a later creation of the name
or a change of the delay says reaches it. -/
theorem start_tells_history (existing : List String) (delay : Int) :
    match start existing delay with
    | .error defect => defect = .blankTopicName ∧ ∃ name ∈ existing, Text.AllBlank name
    | .ok broker => (∀ name ∈ existing, ¬ Text.AllBlank name) ∧
      (∀ history, Tells existing delay history (broker.after history)) ∧
      (∀ history more, ∀ name ∈ (broker.after history).listTopics.2,
        name ∈ (broker.after (history ++ more)).listTopics.2) ∧
      (∀ history more name spec, (broker.after history).describeTopic name = some spec →
        (broker.after (history ++ more)).describeTopic name = some spec) ∧
      ∀ history more, ∀ waiting ∈ (broker.after history).pending,
        more.count .list < waiting.remaining →
          ⟨waiting.spec, waiting.remaining - more.count .list⟩ ∈
            (broker.after (history ++ more)).pending := by
  by_cases blank : ∃ name ∈ existing, Text.AllBlank name
  · rw [start_refused delay blank]
    exact ⟨rfl, blank⟩
  push Not at blank
  obtain ⟨broker, begun, begins⟩ := start_ok delay blank
  rw [begun]
  refine ⟨blank, begins.tells, ?_, ?_, ?_⟩
  · intro history more name listed
    rw [after_append]
    exact listed_stays (begins.sound.after history) more listed
  · intro history more name spec described
    rw [after_append]
    exact described_stays (begins.sound.after history) more described
  · intro history more waiting among left
    rw [after_append]
    exact waits_on (begins.sound.after history) more among left

/-- Three topics beside one that was there: the first is delayed by two listings and declared
otherwise in the batch of its own creation, the second is not delayed, the third still waits. -/
theorem start_tells_history_delayed :
    let events : TopicSpec := ⟨"events", 3, 1, by decide, by decide, by decide⟩
    let again : TopicSpec := ⟨"events", 6, 1, by decide, by decide, by decide⟩
    let audit : TopicSpec := ⟨"audit", 1, 1, by decide, by decide, by decide⟩
    let traces : TopicSpec := ⟨"traces", 1, 1, by decide, by decide, by decide⟩
    let history := [Operation.create [events, again], .list, .setDelay 0, .create [again, audit],
      .setDelay 5, .create [traces], .list]
    ∃ broker, start ["orders"] 2 = .ok broker ∧
      Tells ["orders"] 2 history (broker.after history) ∧
      (broker.after history).listTopics.2 = ["orders", "audit", "events"] ∧
      (broker.after history).describeTopic "events" = some events ∧
      (broker.after history).pending = [⟨traces, 4⟩] := by
  intro events again audit traces history
  have told := start_tells_history ["orders"] 2
  have begun : start ["orders"] 2 =
      .ok ⟨[⟨"orders", 1, 1, by decide, by decide, by decide⟩], [], 2, 0, 0⟩ := by rfl
  rw [begun] at told
  obtain ⟨-, tells, -⟩ := told
  exact ⟨_, begun, tells history, by decide, by decide, by decide⟩

end InMemoryBroker

end ClusterReadiness
