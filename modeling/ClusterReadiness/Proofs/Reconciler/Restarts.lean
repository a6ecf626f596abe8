import ClusterReadiness.Proofs.Reconciler.ClosedForm
import Mathlib.Algebra.GroupWithZero.Nat
import Mathlib.Data.List.Find

/-!
# Restarts

A run that gave up on its topics can be made again by a reconciler of the same declarations. The
broker remembers what was asked of it, so the attempts of the runs add up: whatever budgets they
have, the topics are there when the attempts of all of them together exceed the delay.
-/

namespace ClusterReadiness

namespace Reconciler

/-- A run of a reconciler with a registry of its own. -/
structure Restart where
  reconciler : Reconciler
  registry : InMemoryRegistry
  trace : List Exchange
  result : Result Unit
  stop : Phase

namespace Restart

/-- The listings that the run may take. -/
def attempts (run : Restart) : Nat := run.reconciler.wait.maxAttempts.toNat

/-- The run starts from the beginning, declares these topics, and leads the broker from one state to
the other. Its registry is healthy. -/
structure From (topics : List TopicSpec) (broker : InMemoryBroker) (run : Restart)
    (next : InMemoryBroker) : Prop where
  declares : run.reconciler.topics = topics
  grows : Grows run.reconciler.wait (.start run.reconciler.wait)
  healthy : run.registry.healthy = true
  now : run.registry.away = 0
  goes : Goes run.reconciler.ensureReady .idle run.trace run.result run.stop
  against : ∃ registry, Against ⟨broker, run.registry⟩ run.trace ⟨next, registry⟩

end Restart

/-- One run after the other, all of them of the same declarations and against the same broker. -/
inductive Restarts (topics : List TopicSpec) :
    InMemoryBroker → List Restart → InMemoryBroker → Prop where
  | ended {broker : InMemoryBroker} : Restarts topics broker [] broker
  | more {broker next last : InMemoryBroker} {run : Restart} {others : List Restart}
      (restart : run.From topics broker next) (onward : Restarts topics next others last) :
      Restarts topics broker (run :: others) last

/-- The attempts of some runs, taken together. -/
def attemptsOf (runs : List Restart) : Nat := (runs.map (·.attempts)).sum

variable {topics : List TopicSpec} {broker next last : InMemoryBroker} {run : Restart}
  {earlier later : List Restart}

theorem Restart.attempts_eq (run : Restart) : run.attempts = run.reconciler.rounds + 1 := by
  have := attempts_eq_rounds run.reconciler
  unfold Restart.attempts
  omega

theorem Restarts.append_iff : Restarts topics broker (earlier ++ later) last ↔
    ∃ middle, Restarts topics broker earlier middle ∧ Restarts topics middle later last := by
  induction earlier generalizing broker with
  | nil =>
    constructor
    · exact fun restarts => ⟨broker, .ended, restarts⟩
    · rintro ⟨_, ⟨⟩, onward⟩
      exact onward
  | cons run earlier ih =>
    constructor
    · rintro (_ | ⟨restart, onward⟩)
      obtain ⟨middle, before, after⟩ := ih.mp onward
      exact ⟨middle, .more restart before, after⟩
    · rintro ⟨middle, _ | ⟨restart, before⟩, after⟩
      exact .more restart (ih.mpr ⟨middle, before, after⟩)

section Step

/-- The names that some topics declare. -/
def namesOf (topics : List TopicSpec) : List String := topics.map (·.name)

variable (restart : run.From topics broker next)
include restart

theorem Restart.From.topicNames_eq : run.reconciler.topicNames = namesOf topics := by
  rw [topicNames, restart.declares, namesOf]

variable (declared : topics ≠ []) (sound : broker.Sound)
include declared sound

/-- A run lists the broker until the last topic has come into view, or its attempts are spent. -/
theorem Restart.From.concludes :
    ((broker.farthest (namesOf topics) < run.attempts ∧ run.result = .ok () ∧ run.stop = .ready ∧
      Takes 1 (broker.farthest (namesOf topics) + 1) 1
        (run.reconciler.wait.intervals (broker.farthest (namesOf topics))) run.trace) ∨
    (run.attempts ≤ broker.farthest (namesOf topics) ∧ ∃ name,
      (namesOf topics).find? (fun name => run.attempts ≤ broker.away name) = some name ∧
      run.result = .error (.of (.topicNotReady name run.reconciler.wait.maxAttempts)) ∧
      run.stop = .failed ∧
      Takes 1 run.attempts 0 (run.reconciler.wait.intervals (run.attempts - 1)) run.trace)) ∧
    next = (broker.createTopics topics).1.after (List.replicate
      (min (broker.farthest (namesOf topics) + 1) run.attempts) .list) := by
  obtain ⟨registry, against⟩ := restart.against
  have declared : run.reconciler.topics ≠ [] := restart.declares ▸ declared
  have healthy : (Collaborators.mk broker run.registry).registry.healthy = true := restart.healthy
  obtain ⟨ready, failed, concludes, moved⟩ :=
    ensureReady_against restart.grows healthy declared sound restart.goes against
  simp only [restart.topicNames_eq, restart.declares] at moved
  have whole := run.attempts_eq
  refine ⟨?_, by rw [moved, whole, Nat.add_min_add_right]⟩
  generalize run.result = result at concludes ready failed
  cases concludes with
  | ready visible _ takes =>
    simp only [restart.topicNames_eq, restart.now] at visible takes
    have none : run.reconciler.wait.intervals 0 = [] := rfl
    rw [none, List.append_nil] at takes
    exact .inl ⟨by omega, rfl, ready rfl, takes⟩
  | @unlisted name late first takes =>
    simp only [restart.topicNames_eq] at late first
    have fewer : run.attempts - 1 = run.reconciler.rounds := by omega
    rw [fewer, whole]
    exact .inr ⟨late, name, first, rfl, failed nofun, takes⟩
  | unhealthy _ late =>
    simp only [restart.now] at late
    exact absurd late (Nat.not_lt_zero _)

theorem Restart.From.ready_of_ok (ok : run.result = .ok ()) : run.stop = .ready := by
  obtain ⟨⟨-, -, ready, -⟩ | ⟨-, name, -, error, -⟩, -⟩ := restart.concludes declared sound
  · exact ready
  · rw [error] at ok
    cases ok

theorem Restart.From.sound_next : next.Sound := by
  obtain ⟨-, rfl⟩ := restart.concludes declared sound
  exact (sound.createTopics topics).after _

theorem Restart.From.delay_eq : next.visibilityDelay = broker.visibilityDelay := by
  obtain ⟨-, rfl⟩ := restart.concludes declared sound
  rw [InMemoryBroker.listings_delay, InMemoryBroker.createTopics_delay]

/-- The topics that a run finds known are moved by its listings alone. -/
theorem Restart.From.keeps
    (known : ∀ name ∈ namesOf topics, broker.standing name ≠ .unknown) :
    (∀ name, next.describeTopic name = broker.describeTopic name) ∧
      ∀ waiting : PendingTopic, waiting ∈ next.pending ↔ 0 < waiting.remaining ∧
        ⟨waiting.spec, waiting.remaining + (callsOf Request.isListing run.trace).length⟩ ∈
          broker.pending := by
  obtain ⟨outcome, rfl⟩ := restart.concludes declared sound
  have created := sound.createTopics topics
  have unmoved : ∀ name, (broker.createTopics topics).1.standing name = broker.standing name :=
    InMemoryBroker.standing_createTopics_known fun spec among =>
      known spec.name (List.mem_map_of_mem among)
  have listed : (callsOf Request.isListing run.trace).length =
      min (broker.farthest (namesOf topics) + 1) run.attempts := by
    rcases outcome with ⟨soon, -, -, takes⟩ | ⟨late, _, -, -, -, takes⟩
    · rw [takes.listed, Nat.min_eq_left soon]
    · rw [takes.listed, Nat.min_eq_right (Nat.le_succ_of_le late)]
  constructor
  · intro name
    rw [InMemoryBroker.describeTopic_listings _ created, InMemoryBroker.describeTopic_eq,
      InMemoryBroker.describeTopic_eq, unmoved]
  · intro waiting
    rw [InMemoryBroker.mem_pending_listings _ created, InMemoryBroker.mem_pending created, unmoved,
      ← InMemoryBroker.mem_pending sound, listed]

variable {name : String} (among : name ∈ namesOf topics)
include among

theorem Restart.From.known : next.standing name ≠ .unknown := by
  obtain ⟨-, rfl⟩ := restart.concludes declared sound
  have known := InMemoryBroker.known_createTopics broker (List.mem_map.mp among)
  exact (InMemoryBroker.away_listings _ (sound.createTopics topics) known).1

/-- Every attempt brings a declared topic closer, also those that a run did not need. -/
theorem Restart.From.away_eq : next.away name = broker.away name - run.attempts := by
  obtain ⟨-, rfl⟩ := restart.concludes declared sound
  have known := InMemoryBroker.known_createTopics broker (List.mem_map.mp among)
  rw [(InMemoryBroker.away_listings _ (sound.createTopics topics) known).2,
    InMemoryBroker.away_createTopics, run.attempts_eq]
  -- A run that stops early does so with no topic away, where fewer attempts come to the same.
  have least : broker.away name ≤ broker.farthest (namesOf topics) :=
    Finset.le_sup (List.mem_toFinset.mpr among)
  omega

end Step

section Runs

variable (declared : topics ≠ []) (sound : broker.Sound)
  (restarts : Restarts topics broker earlier last)
include declared sound restarts

theorem Restarts.sound_last : last.Sound := by
  induction restarts with
  | ended => exact sound
  | more restart _ ih => exact ih (restart.sound_next declared sound)

/-- What one run brings a topic closer by, and the next, adds up. -/
theorem Restarts.away_eq {name : String} (among : name ∈ namesOf topics) :
    last.away name = broker.away name - attemptsOf earlier := by
  induction restarts with
  | ended => exact (Nat.sub_zero _).symm
  | @more broker next last run others restart _ ih =>
    rw [ih (restart.sound_next declared sound), restart.away_eq declared sound among,
      Nat.sub_sub]
    rfl

theorem Restarts.known (begun : earlier ≠ []) {name : String} (among : name ∈ namesOf topics) :
    last.standing name ≠ .unknown := by
  induction restarts with
  | ended => exact absurd rfl begun
  | more restart onward ih =>
    cases onward with
    | ended => exact restart.known declared sound among
    | more => exact ih (restart.sound_next declared sound) (List.cons_ne_nil _ _)

/-- The names come into view together, and all runs bring them there. -/
theorem Restarts.farthest_eq : last.farthest (namesOf topics) =
    broker.farthest (namesOf topics) - attemptsOf earlier := by
  have away_eq : ∀ name ∈ (namesOf topics).toFinset,
      last.away name = broker.away name - attemptsOf earlier :=
    fun name among => restarts.away_eq declared sound (List.mem_toFinset.mp among)
  refine le_antisymm (Finset.sup_le fun name among => ?_) (Nat.sub_le_iff_le_add.mpr ?_)
  · rw [away_eq name among]
    exact Nat.sub_le_sub_right (Finset.le_sup among) _
  · refine Finset.sup_le fun name among => ?_
    have least : last.away name ≤ last.farthest (namesOf topics) := Finset.le_sup among
    rw [away_eq name among] at least
    exact Nat.sub_le_iff_le_add.mp least

variable (restart : run.From topics last next)
include restart

/-- A run is ready exactly if the attempts of all runs so far, its own among them, exceed the
listings that the topics stayed out of at first. -/
theorem Restarts.ready_iff : run.result = .ok () ↔
    broker.farthest (namesOf topics) < attemptsOf earlier + run.attempts := by
  have far := restarts.farthest_eq declared sound
  have positive := run.attempts_eq
  obtain ⟨⟨soon, ok, -⟩ | ⟨late, name, -, error, -⟩, -⟩ :=
    restart.concludes declared (restarts.sound_last declared sound)
  · exact ⟨fun _ => by omega, fun _ => ok⟩
  · rw [error]
    exact ⟨nofun, fun _ => by omega⟩

/-- A run that comes too early fails over the first topic that all listings so far are too few
for. -/
theorem Restarts.unlisted
    (early : attemptsOf earlier + run.attempts ≤ broker.farthest (namesOf topics)) :
    ∃ name, (namesOf topics).find?
        (fun name => attemptsOf earlier + run.attempts ≤ broker.away name) = some name ∧
      run.result = .error (.of (.topicNotReady name run.reconciler.wait.maxAttempts)) ∧
      run.stop = .failed ∧ (callsOf Request.isListing run.trace).length = run.attempts := by
  have far := restarts.farthest_eq declared sound
  obtain ⟨⟨soon, -⟩ | ⟨late, name, first, error, failed, takes⟩, -⟩ :=
    restart.concludes declared (restarts.sound_last declared sound)
  · omega
  · refine ⟨name, ?_, error, failed, takes.listed⟩
    rw [← first]
    refine List.find?_congr fun other among => decide_eq_decide.mpr ?_
    have positive := run.attempts_eq
    rw [restarts.away_eq declared sound among]
    omega

/-- A run after one that was ready lists the broker once. -/
theorem Restarts.at_once (late : broker.farthest (namesOf topics) < attemptsOf earlier) :
    run.result = .ok () ∧ run.stop = .ready ∧ Takes 1 1 1 [] run.trace := by
  have far := restarts.farthest_eq declared sound
  obtain ⟨⟨-, ok, ready, takes⟩ | ⟨late, -⟩, -⟩ :=
    restart.concludes declared (restarts.sound_last declared sound)
  · have none : last.farthest (namesOf topics) = 0 := by omega
    rw [none] at takes
    exact ⟨ok, ready, takes⟩
  · have positive := run.attempts_eq
    omega

end Runs

section Start

variable {existing : List String} {delay : Int} {fresh : InMemoryBroker}
  {history : List InMemoryBroker.Operation}

theorem ne_nil_of_missing
    (missing : ∃ name ∈ namesOf topics, broker.describeTopic name = none) : topics ≠ [] := by
  rintro rfl
  obtain ⟨name, among, -⟩ := missing
  cases among

/-- A success among some runs took more attempts than the topics were away. -/
theorem Restarts.lt_of_done (declared : topics ≠ []) (sound : broker.Sound)
    (restarts : Restarts topics broker earlier last)
    (done : ∃ done ∈ earlier, done.result = .ok ()) :
    broker.farthest (namesOf topics) < attemptsOf earlier := by
  obtain ⟨done, among, succeeded⟩ := done
  obtain ⟨before, after, rfl⟩ := List.append_of_mem among
  obtain ⟨middle, first, onward⟩ := Restarts.append_iff.mp restarts
  cases onward with
  | more restart _ =>
    have enough := (first.ready_iff declared sound restart).mp succeeded
    have counted : attemptsOf (before ++ done :: after) =
        attemptsOf before + done.attempts + attemptsOf after := by
      simp only [attemptsOf, List.map_append, List.map_cons, List.sum_append, List.sum_cons,
        Nat.add_assoc]
    omega

/-- Runs of the same declarations, one after the other, against a broker that has been used in any
way since it began and whose delay is left alone. A run is ready exactly if the attempts of all of
them so far exceed the delay; until then every run takes all its listings and fails over the first
topic that is not there, the same one each time unless some topic was already waiting before the
first run. After a success one listing is enough. A run that is not the first finds its topics
known: it changes no declaration, and of what waits it only takes its listings off. -/
theorem ensureReady_restarted (begun : InMemoryBroker.start existing delay = .ok fresh)
    (fixed : ∀ other, .setDelay other ∉ history) (delayed : 0 < delay)
    (missing : ∃ name ∈ namesOf topics, (fresh.after history).describeTopic name = none)
    (before : Restarts topics (fresh.after history) earlier broker)
    (restart : run.From topics broker next) :
    let attempts := attemptsOf earlier + run.attempts
    let listings := (callsOf Request.isListing run.trace).length
    (run.result = .ok () ∧ run.stop = .ready ↔ delay < attempts) ∧
    (attempts ≤ delay → ∃ name, run.stop = .failed ∧ listings = run.attempts ∧
      run.result = .error (.of (.topicNotReady name run.reconciler.wait.maxAttempts)) ∧
      (namesOf topics).find? (fun name => attempts ≤ (fresh.after history).away name) =
        some name ∧
      ((∀ waiting ∈ (fresh.after history).pending, waiting.spec.name ∉ namesOf topics) →
        (namesOf topics).find?
          (fun name => ((fresh.after history).describeTopic name).isNone) = some name)) ∧
    ((∃ done ∈ earlier, done.result = .ok ()) →
      run.result = .ok () ∧ run.stop = .ready ∧ listings = 1 ∧ delays run.trace = []) ∧
    (earlier ≠ [] → (∀ name, next.describeTopic name = broker.describeTopic name) ∧
      ∀ waiting : PendingTopic, waiting ∈ next.pending ↔ 0 < waiting.remaining ∧
        ⟨waiting.spec, waiting.remaining + listings⟩ ∈ broker.pending) := by
  intro attempts listings
  have begins := InMemoryBroker.begins_of_start begun
  have sound := begins.sound.after history
  obtain ⟨delay_eq, short⟩ := begins.away_after_le fixed
  have far := InMemoryBroker.farthest_eq_delay (delay_eq.symm ▸ short) missing
  rw [delay_eq] at far
  have declared : topics ≠ [] := ne_nil_of_missing missing
  have ready := before.ready_iff declared sound restart
  rw [far] at ready
  refine ⟨?_, ?_, ?_, ?_⟩
  · constructor
    · rintro ⟨ok, -⟩
      have := ready.mp ok
      omega
    · intro late
      have ok := ready.mpr (by omega)
      exact ⟨ok, restart.ready_of_ok declared (before.sound_last declared sound) ok⟩
  · intro early
    obtain ⟨name, first, error, failed, listed⟩ :=
      before.unlisted declared sound restart (by omega)
    refine ⟨name, failed, listed, error, first, fun unasked => ?_⟩
    have positive : 0 < attempts := by
      have := run.attempts_eq
      omega
    rw [← first]
    exact (InMemoryBroker.find?_away_of_unasked positive (by rw [delay_eq]; omega) unasked).symm
  · intro done
    obtain ⟨ok, ready, takes⟩ := before.at_once declared sound restart
      (before.lt_of_done declared sound done)
    exact ⟨ok, ready, takes.listed, by simpa using takes.slept⟩
  · intro begun
    exact restart.keeps declared (before.sound_last declared sound)
      fun name among => before.known declared sound begun among

/-- Of a broker that was asked for nothing yet, every run that comes too early fails over the same
topic, the first one that was not there. -/
theorem Restarts.first_missing (begun : InMemoryBroker.start existing delay = .ok fresh)
    (missing : ∃ name ∈ namesOf topics, fresh.describeTopic name = none)
    (before : Restarts topics fresh earlier broker) (restart : run.From topics broker next)
    (early : attemptsOf earlier + run.attempts ≤ delay) :
    ∃ name, (namesOf topics).find? (fun name => (fresh.describeTopic name).isNone) = some name ∧
      run.result = .error (.of (.topicNotReady name run.reconciler.wait.maxAttempts)) ∧
      run.stop = .failed ∧ (callsOf Request.isListing run.trace).length = run.attempts := by
  have begins := InMemoryBroker.begins_of_start begun
  have far := InMemoryBroker.farthest_eq_delay begins.away_le missing
  rw [begins.delayed] at far
  have declared : topics ≠ [] := ne_nil_of_missing missing
  have positive : 0 < attemptsOf earlier + run.attempts := by
    have := run.attempts_eq
    omega
  obtain ⟨name, first, error, failed, listed⟩ :=
    before.unlisted declared begins.sound restart (by omega)
  rw [InMemoryBroker.find?_away_of_unasked positive (by rw [begins.delayed]; omega)
    fun waiting waits => absurd waits (begins.unasked waiting)] at first
  exact ⟨name, first, error, failed, listed⟩

theorem exists_from {reconciler : Reconciler} (registry : InMemoryRegistry)
    (grows : Grows reconciler.wait (.start reconciler.wait)) (healthy : registry.healthy = true)
    (now : registry.away = 0) (broker : InMemoryBroker) :
    ∃ (run : Restart) (next : InMemoryBroker), run.reconciler = reconciler ∧
      run.From reconciler.topics broker next := by
  obtain ⟨trace, ⟨result, stop⟩, last, goes, against⟩ :=
    Against.exists_runs (reconciler.ensureReady.run.run .idle) ⟨broker, registry⟩
  exact ⟨⟨reconciler, registry, trace, result, stop⟩, last.broker, rfl, rfl, grows, healthy, now,
    goes, last.registry, against⟩

/-- Three attempts are not enough for a topic that stays out of three listings, three more are. -/
theorem ensureReady_restarted_once :
    let fresh : InMemoryBroker := ⟨[], [], 3, 0, 0⟩
    InMemoryBroker.start [] 3 = .ok fresh ∧
    ∃ (first second : Restart) (middle last : InMemoryBroker),
      first.reconciler = ordersOnly ∧ second.reconciler = ordersOnly ∧
      first.From ordersOnly.topics fresh middle ∧ second.From ordersOnly.topics middle last ∧
      first.result = .error (.of (.topicNotReady "orders" 3)) ∧
      (callsOf Request.isListing first.trace).length = 3 ∧
      second.result = .ok () ∧ second.stop = .ready ∧
      ∀ name, last.describeTopic name = middle.describeTopic name := by
  intro fresh
  have begun : InMemoryBroker.start [] 3 = .ok fresh := rfl
  have fixed : ∀ other, .setDelay other ∉ ([] : List InMemoryBroker.Operation) := nofun
  have missing : ∃ name ∈ namesOf ordersOnly.topics, fresh.describeTopic name = none :=
    ⟨"orders", by decide, rfl⟩
  obtain ⟨first, middle, own, one⟩ :=
    exists_from (.start true 0) ordersOnly_grows rfl rfl fresh
  obtain ⟨second, last, same, two⟩ :=
    exists_from (.start true 0) ordersOnly_grows rfl rfl middle
  have three : first.attempts = 3 := by rw [Restart.attempts, own]; rfl
  have more : second.attempts = 3 := by rw [Restart.attempts, same]; rfl
  obtain ⟨-, early, -⟩ := ensureReady_restarted begun fixed (by decide) missing .ended one
  obtain ⟨late, -, -, keeps⟩ := ensureReady_restarted begun fixed (by decide) missing
    (.more one .ended) two
  obtain ⟨name, -, listed, error, -, named⟩ := early (by rw [three]; decide)
  have orders : name = "orders" := by
    have only := named nofun
    have found : (namesOf ordersOnly.topics).find?
        (fun name => (fresh.describeTopic name).isNone) = some "orders" := rfl
    exact Option.some.inj (only.symm.trans found)
  obtain ⟨ok, ready⟩ := late.mpr (by
    rw [attemptsOf, List.map_singleton, List.sum_singleton, three, more]
    decide)
  refine ⟨begun, first, second, middle, last, own, same, one, two, ?_, ?_, ok, ready, ?_⟩
  · rw [error, orders, own]
    rfl
  · rw [listed, three]
  · exact (keeps (List.cons_ne_nil _ _)).1

end Start

end Reconciler

end ClusterReadiness
