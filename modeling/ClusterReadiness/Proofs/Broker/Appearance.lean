import ClusterReadiness.Proofs.Broker.Histories
import Mathlib.Data.Finset.Dedup
import Mathlib.Data.Finset.Lattice.Fold
import Mathlib.Order.Lattice.Nat
import Mathlib.Data.List.Find

/-!
# When topics come into view

How many listings a topic still stays out of is known as soon as it is asked for: `away` says so.
Listings take that number down one by one, and asking for a known topic again moves nothing.
-/

namespace ClusterReadiness

namespace InMemoryBroker

variable {broker : InMemoryBroker} {name : String}

/-- The listings that a name of this standing stays out of; one that nothing is known of, once it is
created under the given delay. -/
def Standing.away (delay : Int) : Standing → Nat
  | .unknown => delay.toNat
  | .pending _ remaining => remaining.toNat
  | .visible _ => 0

/-- The listings that a name stays out of, once it has been asked for. -/
def away (broker : InMemoryBroker) (name : String) : Nat :=
  (broker.standing name).away broker.visibilityDelay

/-- The listings that names stay out of, all of them taken together. -/
def farthest (broker : InMemoryBroker) (names : List String) : Nat :=
  names.toFinset.sup broker.away

theorem mem_pending_of_standing {spec : TopicSpec} {remaining : Int}
    (stands : broker.standing name = .pending spec remaining) :
    ⟨spec, remaining⟩ ∈ broker.pending ∧ spec.name = name := by
  rw [standing] at stands
  cases listed : broker.held name with
  | some other => simp [listed, Standing.of] at stands
  | none =>
    cases found : broker.awaited name with
    | none => simp [listed, found, Standing.of] at stands
    | some waiting =>
      simp only [listed, found, Standing.of, Standing.pending.injEq] at stands
      obtain ⟨rfl, rfl⟩ := stands
      have named := List.find?_some found
      exact ⟨List.mem_of_find?_eq_some found, beq_iff_eq.mp named⟩

theorem Sound.remaining_pos (sound : Sound broker) {spec : TopicSpec} {remaining : Int}
    (stands : broker.standing name = .pending spec remaining) : 0 < remaining :=
  sound.waits _ (mem_pending_of_standing stands).1

theorem describeTopic_eq_none_iff :
    broker.describeTopic name = none ↔ broker.standing name = .unknown := by
  rw [describeTopic_eq]
  cases broker.standing name with
  | unknown => exact ⟨fun _ => rfl, fun _ => rfl⟩
  | pending | visible => exact ⟨nofun, nofun⟩

/-- A name that does not wait is either listed at once, or as far away as can be. -/
theorem le_away_iff_of_unasked {listings : Nat} (positive : 0 < listings)
    (within : listings ≤ broker.visibilityDelay.toNat)
    (unasked : ∀ waiting ∈ broker.pending, waiting.spec.name ≠ name) :
    listings ≤ broker.away name ↔ (broker.describeTopic name).isNone = true := by
  rw [describeTopic_eq, away]
  cases stands : broker.standing name with
  | unknown => simpa [Standing.away, Standing.spec?] using within
  | pending spec remaining =>
    obtain ⟨waits, named⟩ := mem_pending_of_standing stands
    exact absurd named (unasked _ waits)
  | visible spec => simpa [Standing.away, Standing.spec?] using Nat.ne_of_gt positive

/-- Where no name waits, the first that stays out of so many listings is the first that nothing is
known of. -/
theorem find?_away_of_unasked {listings : Nat} {names : List String} (positive : 0 < listings)
    (within : listings ≤ broker.visibilityDelay.toNat)
    (unasked : ∀ waiting ∈ broker.pending, waiting.spec.name ∉ names) :
    names.find? (fun name => listings ≤ broker.away name) =
      names.find? (fun name => (broker.describeTopic name).isNone) := by
  refine List.find?_congr fun name among => ?_
  have same := le_away_iff_of_unasked positive within
    fun waiting waits named => unasked waiting waits (named ▸ among)
  rw [Bool.eq_iff_iff, decide_eq_true_iff, same]

/-- A name that nothing is known of is as far away as the delay is long. -/
theorem farthest_eq_delay {names : List String}
    (short : ∀ name, broker.away name ≤ broker.visibilityDelay.toNat)
    (missing : ∃ name ∈ names, broker.describeTopic name = none) :
    broker.farthest names = broker.visibilityDelay.toNat := by
  obtain ⟨name, among, unknown⟩ := missing
  refine le_antisymm (Finset.sup_le fun other _ => short other) ?_
  have least : broker.away name ≤ broker.farthest names :=
    Finset.le_sup (List.mem_toFinset.mpr among)
  rwa [away, describeTopic_eq_none_iff.mp unknown] at least

/-! ## Listings -/

section Listings

variable (listings : Nat)

theorem timeline_listings (delay : Int) :
    timeline delay (List.replicate listings .list) = List.replicate listings .listed := by
  induction listings with
  | zero => rfl
  | succ listings ih =>
    rw [List.replicate_succ, timeline, ih, List.replicate_succ]

theorem firstCreation_listings :
    firstCreation name (List.replicate listings .listed) = none := by
  induction listings with
  | zero => rfl
  | succ listings ih => exact ih

theorem listings_delay :
    (broker.after (List.replicate listings .list)).visibilityDelay = broker.visibilityDelay := by
  induction listings generalizing broker with
  | zero => rfl
  | succ listings ih =>
    have kept : broker.listTopics.1.visibilityDelay = broker.visibilityDelay := by
      rw [listTopics_fst]
    have later : (broker.listTopics.1.after (List.replicate listings .list)).visibilityDelay =
        broker.listTopics.1.visibilityDelay := ih
    exact later.trans kept

/-- Where listings alone bring a name. -/
theorem standing_listings (sound : Sound broker) (name : String) :
    (broker.after (List.replicate listings .list)).standing name =
      match broker.standing name with
      | .unknown => .unknown
      | .pending spec remaining => Creation.standing ⟨spec, remaining, listings⟩
      | .visible spec => .visible spec := by
  rw [standing_after sound, timeline_listings]
  cases stands : broker.standing name with
  | unknown => rw [foldl_advance_unknown, firstCreation_listings]
  | pending spec remaining =>
    rw [foldl_advance_pending _ _ _ (sound.remaining_pos stands), List.count_replicate_self]
  | visible spec => rw [foldl_advance_visible]

theorem Creation.away_standing (creation : Creation) (delay : Int) :
    creation.standing.away delay = (creation.delay - creation.listings).toNat := by
  unfold Creation.standing
  split
  · rename_i due
    simp only [Standing.away]
    omega
  · rfl

theorem Creation.standing_known (creation : Creation) : creation.standing ≠ .unknown := by
  unfold Creation.standing
  split <;> exact Standing.noConfusion

/-- Each listing brings a topic that was asked for one step closer. -/
theorem away_listings (sound : Sound broker) (known : broker.standing name ≠ .unknown) :
    (broker.after (List.replicate listings .list)).standing name ≠ .unknown ∧
      (broker.after (List.replicate listings .list)).away name = broker.away name - listings := by
  rw [away, away, listings_delay, standing_listings listings sound]
  cases stands : broker.standing name with
  | unknown => exact absurd stands known
  | pending spec remaining =>
    refine ⟨Creation.standing_known _, ?_⟩
    rw [Creation.away_standing]
    simp only [Standing.away]
    omega
  | visible spec => exact ⟨Standing.noConfusion, (Nat.zero_sub listings).symm⟩

theorem mem_listTopics_iff_away (sound : Sound broker)
    (known : broker.standing name ≠ .unknown) :
    name ∈ broker.listTopics.2 ↔ broker.away name = 0 := by
  rw [mem_listTopics, away]
  cases stands : broker.standing name with
  | unknown => exact absurd stands known
  | pending spec remaining =>
    have waits := sound.remaining_pos stands
    simp only [Standing.away]
    constructor
    · rintro ⟨other, ⟨⟩⟩
    · intro none
      omega
  | visible spec => exact ⟨fun _ => rfl, fun _ => ⟨spec, rfl⟩⟩

/-- A topic that was asked for is in a listing as soon as it has stayed out of enough of them. -/
theorem mem_listing_iff (sound : Sound broker) (known : broker.standing name ≠ .unknown) :
    name ∈ (broker.after (List.replicate listings .list)).listTopics.2 ↔
      broker.away name ≤ listings := by
  obtain ⟨still, fewer⟩ := away_listings listings sound known
  rw [mem_listTopics_iff_away (sound.after _) still, fewer]
  omega

/-- What waits after some listings is what waited for so many more. -/
theorem mem_pending_listings (sound : Sound broker) {waiting : PendingTopic} :
    waiting ∈ (broker.after (List.replicate listings .list)).pending ↔
      0 < waiting.remaining ∧ ⟨waiting.spec, waiting.remaining + listings⟩ ∈ broker.pending := by
  rw [mem_pending (sound.after _), mem_pending sound, standing_listings listings sound]
  cases stands : broker.standing waiting.spec.name with
  | unknown | visible other => simp
  | pending other remaining =>
    simp only [Creation.standing_eq_pending_iff, Standing.pending.injEq]
    constructor
    · rintro ⟨same, left, fewer⟩
      exact ⟨left, same, by omega⟩
    · rintro ⟨left, same, more⟩
      exact ⟨same, left, by omega⟩

theorem describeTopic_listings (sound : Sound broker) (name : String) :
    (broker.after (List.replicate listings .list)).describeTopic name =
      broker.describeTopic name := by
  rw [describeTopic_eq, describeTopic_eq, standing_listings listings sound]
  cases broker.standing name with
  | pending spec remaining => exact Creation.standing_spec? _
  | _ => rfl

end Listings

/-! ## Creations -/

section Creations

variable {specs : List TopicSpec}

theorem standing_createTopics (broker : InMemoryBroker) (specs : List TopicSpec) (name : String) :
    (broker.createTopics specs).1.standing name =
      (specs.map (Moment.created · broker.visibilityDelay)).foldl (Standing.advance name)
        (broker.standing name) :=
  standing_createAll { broker with createCalls := broker.createCalls + 1 } specs name

theorem createTopics_delay :
    (broker.createTopics specs).1.visibilityDelay = broker.visibilityDelay :=
  createAll_delay { broker with createCalls := broker.createCalls + 1 } specs

/-- A creation moves nothing that is known. -/
theorem foldl_created_known {standing : Standing} (delay : Int) (known : standing ≠ .unknown) :
    (specs.map (Moment.created · delay)).foldl (Standing.advance name) standing = standing := by
  induction specs with
  | nil => rfl
  | cons spec rest ih =>
    rw [List.map_cons, List.foldl_cons]
    cases standing with
    | unknown => exact absurd rfl known
    | pending other remaining => exact ih
    | visible other => exact ih

theorem foldl_created_elsewhere (delay : Int) (elsewhere : ∀ spec ∈ specs, spec.name ≠ name) :
    (specs.map (Moment.created · delay)).foldl (Standing.advance name) .unknown = .unknown := by
  induction specs with
  | nil => rfl
  | cons spec rest ih =>
    rw [List.forall_mem_cons] at elsewhere
    rw [List.map_cons, List.foldl_cons, Standing.advance, if_neg elsewhere.1]
    exact ih elsewhere.2

/-- The first declaration of a name that nothing is known of sets it waiting. -/
theorem foldl_created_among (delay : Int) (among : ∃ spec ∈ specs, spec.name = name) :
    ∃ standing : Standing, standing ≠ .unknown ∧ standing.away delay = delay.toNat ∧
      (specs.map (Moment.created · delay)).foldl (Standing.advance name) .unknown = standing := by
  induction specs with
  | nil => simp at among
  | cons spec rest ih =>
    rw [List.map_cons, List.foldl_cons]
    by_cases same : spec.name = name
    · by_cases delayed : 0 < delay
      · simp only [Standing.advance, if_pos same, if_pos delayed]
        have known : Standing.pending spec delay ≠ .unknown := Standing.noConfusion
        exact ⟨_, known, rfl, foldl_created_known delay known⟩
      · simp only [Standing.advance, if_pos same, if_neg delayed]
        have known : Standing.visible spec ≠ .unknown := Standing.noConfusion
        refine ⟨_, known, ?_, foldl_created_known delay known⟩
        simp only [Standing.away]
        omega
    · simp only [Standing.advance, if_neg same]
      obtain ⟨other, here, named⟩ := among
      rcases List.mem_cons.mp here with rfl | later
      · exact absurd named same
      · exact ih ⟨other, later, named⟩

/-- Asking for a topic makes it known. -/
theorem known_createTopics (broker : InMemoryBroker) (among : ∃ spec ∈ specs, spec.name = name) :
    (broker.createTopics specs).1.standing name ≠ .unknown := by
  rw [standing_createTopics]
  by_cases known : broker.standing name = .unknown
  · obtain ⟨standing, named, -, created⟩ := foldl_created_among broker.visibilityDelay among
    rw [known, created]
    exact named
  · rw [foldl_created_known _ known]
    exact known

/-- A topic stays away as long as it would have without having been asked for. -/
theorem away_createTopics (broker : InMemoryBroker) (specs : List TopicSpec) (name : String) :
    (broker.createTopics specs).1.away name = broker.away name := by
  rw [away, away, createTopics_delay, standing_createTopics]
  by_cases known : broker.standing name = .unknown
  · by_cases among : ∃ spec ∈ specs, spec.name = name
    · obtain ⟨standing, -, stays, created⟩ := foldl_created_among broker.visibilityDelay among
      rw [known, created]
      exact stays
    · rw [known, foldl_created_elsewhere _ (by simpa using among)]
  · rw [foldl_created_known _ known]

theorem farthest_createTopics (broker : InMemoryBroker) (specs : List TopicSpec)
    (names : List String) :
    (broker.createTopics specs).1.farthest names = broker.farthest names := by
  rw [farthest, farthest, funext (away_createTopics broker specs)]

/-- A batch of known topics moves no topic at all. -/
theorem standing_createTopics_known
    (known : ∀ spec ∈ specs, broker.standing spec.name ≠ .unknown) (name : String) :
    (broker.createTopics specs).1.standing name = broker.standing name := by
  rw [standing_createTopics]
  by_cases unknown : broker.standing name = .unknown
  · have elsewhere : ∀ spec ∈ specs, spec.name ≠ name := by
      rintro spec among rfl
      exact known spec among unknown
    rw [unknown, foldl_created_elsewhere _ elsewhere]
  · exact foldl_created_known _ unknown

theorem Sound.createTopics (sound : Sound broker) (specs : List TopicSpec) :
    Sound (broker.createTopics specs).1 :=
  sound.perform (.create specs)

end Creations

/-! ## From the start -/

section Begun

variable {existing names : List String} {delay : Int}

theorem begins_of_start (begun : start existing delay = .ok broker) :
    Begins existing delay broker := by
  by_cases blank : ∃ name ∈ existing, Text.AllBlank name
  · rw [start_refused delay blank] at begun
    cases begun
  · obtain ⟨other, started, begins⟩ := start_ok delay (by simpa using blank)
    rw [started] at begun
    cases begun
    exact begins

theorem Begins.away_eq (begins : Begins existing delay broker) (name : String) :
    broker.away name = if name ∈ existing then 0 else delay.toNat := by
  rw [away, begins.delayed]
  by_cases given : name ∈ existing
  · obtain ⟨spec, -, stands⟩ := begins.given name given
    rw [if_pos given, stands]
    rfl
  · rw [if_neg given, begins.others name given]
    rfl

theorem Begins.away_le (begins : Begins existing delay broker) (name : String) :
    broker.away name ≤ broker.visibilityDelay.toNat := by
  rw [begins.away_eq, begins.delayed]
  split
  · exact Nat.zero_le _
  · exact Nat.le_refl _

/-- At the start no name waits. -/
theorem Begins.unasked (begins : Begins existing delay broker) (waiting : PendingTopic) :
    waiting ∉ broker.pending := by
  intro waits
  have stands := (mem_pending begins.sound).mp waits
  by_cases given : waiting.spec.name ∈ existing
  · obtain ⟨spec, -, visible⟩ := begins.given _ given
    cases visible.symm.trans stands
  · cases (begins.others _ given).symm.trans stands

/-- At the start nothing is away but what is to be created. -/
theorem Begins.farthest_eq (begins : Begins existing delay broker) :
    broker.farthest names = if ∀ name ∈ names, name ∈ existing then 0 else delay.toNat := by
  split
  · rename_i given
    refine Nat.le_zero.mp (Finset.sup_le fun name among => ?_)
    rw [begins.away_eq, if_pos (given name (List.mem_toFinset.mp among))]
  · rename_i missing
    push Not at missing
    obtain ⟨name, among, missing⟩ := missing
    refine le_antisymm (Finset.sup_le fun other _ => ?_) ?_
    · rw [begins.away_eq]
      split
      · exact Nat.zero_le _
      · exact Nat.le_refl _
    · have least : broker.away name ≤ broker.farthest names :=
        Finset.le_sup (List.mem_toFinset.mpr among)
      rwa [begins.away_eq, if_neg missing] at least

/-- While its delay is left alone, a broker keeps nothing back for longer than that. -/
theorem away_after_le {history : List Operation} (sound : Sound broker)
    (fixed : ∀ other, .setDelay other ∉ history)
    (short : ∀ name, broker.away name ≤ broker.visibilityDelay.toNat) :
    (broker.after history).visibilityDelay = broker.visibilityDelay ∧
      ∀ name, (broker.after history).away name ≤ broker.visibilityDelay.toNat := by
  induction history generalizing broker with
  | nil => exact ⟨rfl, short⟩
  | cons operation rest ih =>
    have fixed_rest : ∀ other, .setDelay other ∉ rest :=
      fun other among => fixed other (.tail _ among)
    have onward : (broker.perform operation).visibilityDelay = broker.visibilityDelay ∧
        ∀ name, (broker.perform operation).away name ≤ broker.visibilityDelay.toNat := by
      cases operation with
      | create specs =>
        refine ⟨createTopics_delay, fun name => ?_⟩
        rw [perform, away_createTopics]
        exact short name
      | list =>
        refine ⟨listings_delay 1, fun name => ?_⟩
        -- Listings bring closer what is known; what is not stays as far away as the delay says.
        by_cases known : broker.standing name = .unknown
        · have still := standing_listings 1 sound name
          rw [known] at still
          have kept : (broker.perform .list).standing name = .unknown := still
          rw [away, kept]
          exact Nat.le_of_eq (congrArg Int.toNat (listings_delay 1))
        · have closer := (away_listings 1 sound known).2
          have before := short name
          have after : (broker.perform .list).away name = broker.away name - 1 := closer
          omega
      | describe name => exact ⟨rfl, short⟩
      | setDelay other => exact absurd (.head _) (fixed other)
    obtain ⟨delay_eq, short⟩ := onward
    rw [← delay_eq] at short ⊢
    exact ih (sound.perform operation) fixed_rest short

theorem Begins.away_after_le (begins : Begins existing delay broker) {history : List Operation}
    (fixed : ∀ other, .setDelay other ∉ history) :
    (broker.after history).visibilityDelay = delay ∧
      ∀ name, (broker.after history).away name ≤ delay.toNat := by
  rw [← begins.delayed]
  exact InMemoryBroker.away_after_le begins.sound fixed begins.away_le

end Begun

end InMemoryBroker

end ClusterReadiness
