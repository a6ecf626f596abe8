import ClusterReadiness.Proofs.Reconciler.OrderlyEnd
import ClusterReadiness.Proofs.Router.Containment

/-!
# What the work of a phase announces

Creation is announced once, a topic when it is seen, and every wait for a topic or the registry when
it is over. Work that fails has announced how such a log begins.
-/

namespace ClusterReadiness

namespace Happening

/-- The change of phase that a happening is, if it is one. -/
def change? : Happening → Option (Phase × Phase)
  | .stateChanged previous current => some (previous, current)
  | _ => none

end Happening

/-- The changes of phase in a log, in order. -/
def changes (log : List Happening) : List (Phase × Phase) := log.filterMap Happening.change?

section Changes

variable {first rest log : List Happening} {happening : Happening}

@[simp] theorem changes_nil : changes [] = [] := rfl

@[simp] theorem changes_append : changes (first ++ rest) = changes first ++ changes rest :=
  List.filterMap_append

theorem mem_changes {previous current : Phase} :
    (previous, current) ∈ changes log ↔ .stateChanged previous current ∈ log := by
  constructor
  · intro mem
    obtain ⟨happening, told, change⟩ := List.mem_filterMap.mp mem
    cases happening with
    | stateChanged =>
      cases change
      exact told
    | _ => cases change
  · exact fun told => List.mem_filterMap.mpr ⟨_, told, rfl⟩

end Changes

namespace Reconciler

variable {α : Type} {reconciler : Reconciler} {start stop phase : Phase} {trace : List Exchange}
  {poll after : PollState} {name : String} {names : List String} {log : List Happening}

theorem announcements_eq_nil
    (silent : ∀ e ∈ trace, ∀ told happening, e.request ≠ .announce told happening) :
    announcements trace = [] := by
  refine List.filterMap_eq_nil_iff.mpr fun e he => ?_
  have quiet := silent e he
  obtain ⟨request, answer⟩ := e
  cases request with
  | announce told happening => exact absurd rfl (quiet told happening)
  | _ => rfl

theorem mem_announcements {happening : Happening} :
    happening ∈ announcements trace ↔
      ∃ told answer, (⟨.announce told happening, answer⟩ : Exchange) ∈ trace := by
  constructor
  · intro mem
    obtain ⟨⟨request, answer⟩, he, found⟩ := List.mem_filterMap.mp mem
    cases request with
    | announce told other =>
      cases found
      exact ⟨told, answer, he⟩
    | _ => cases found
  · rintro ⟨told, answer, he⟩
    exact List.mem_filterMap.mpr ⟨_, he, rfl⟩

section Silence

@[simp] theorem announcements_logged {level : Level} {message : String} :
    announcements (logged level message :: trace) = announcements trace := rfl

theorem Attempts.silent {policy : RetryPolicy} {asks : Program (Result α)} {number : Int}
    {left : Nat} {outcome : Result α} (attempts : Attempts policy asks number left trace outcome)
    (calls : Calls asks) : announcements trace = [] := by
  refine announcements_eq_nil (attempts.forall_mem ?_ ?_ ?_)
  · intro t result run e he told happening news
    obtain ⟨call, rfl, port⟩ := calls t result run
    rw [List.mem_singleton.mp he] at news
    rw [news] at port
    exact port
  · exact fun _ _ _ news => by cases news
  · exact fun _ _ _ _ news => by cases news

/-- Asking for a listing is no news. -/
theorem listTopics_silent {result : Result Listing}
    (goes : Goes reconciler.listTopics start trace result stop) : announcements trace = [] := by
  obtain ⟨-, ⟨failure, tried, -⟩ | ⟨attempts, listing, message, tried, -, rfl⟩⟩ :=
    goes_listTopics goes
  · exact tried.silent calls_listTopics
  · rw [announcements_append, tried.silent calls_listTopics]
    rfl

/-- A round is announced when it is over, or not at all if it fails before. -/
theorem Waits.tells {policy : WaitPolicy} {waiting : Phase} {topic : Option String}
    {spent : Int → Fault} {result : Result Unit}
    (waits : Waits policy phase waiting topic spent poll trace result after) :
    announcements trace = [.waitRetry waiting (poll.attempt + 1) poll.interval topic] ∨
      announcements trace = [] := by
  cases waits with
  | spent | cutShort | overgrown => exact .inr rfl
  | told => exact .inl rfl

end Silence

section Logs

/-- A log is kept as far as the work came, and to its end if the work succeeds. -/
def Keeps (Log : List Happening → Prop) (trace : List Exchange) (result : Result α) : Prop :=
  ∃ rest, Log (announcements trace ++ rest) ∧ ∀ value, result = .ok value → rest = []

/-- The log of the topic phase: each topic is waited for until it is seen. -/
inductive TopicLog : List String → List Happening → Prop where
  | done : TopicLog [] []
  | waited {name : String} {names : List String} {attempt : Int} {delay : Number}
      {log : List Happening} (more : TopicLog (name :: names) log) :
      TopicLog (name :: names) (.waitRetry .verifyingTopics attempt delay (some name) :: log)
  | seen {name : String} {names : List String} {attempt : Int} {log : List Happening}
      (more : TopicLog names log) : TopicLog (name :: names) (.topicVisible name attempt :: log)

/-- The log of the registry phase: waits for the registry. -/
def RegistryLog (log : List Happening) : Prop :=
  ∀ happening ∈ log, ∃ attempt delay, happening = .waitRetry .verifyingRegistry attempt delay none

theorem exists_topicLog (names : List String) : ∃ log, TopicLog names log := by
  induction names with
  | nil => exact ⟨[], .done⟩
  | cons name names ih =>
    obtain ⟨log, more⟩ := ih
    exact ⟨.topicVisible name 1 :: log, .seen more⟩

theorem TopicLog.unchanged (kept : TopicLog names log) : changes log = [] := by
  induction kept with
  | done => rfl
  | waited more ih | seen more ih => exact ih

theorem RegistryLog.unchanged (kept : RegistryLog log) : changes log = [] := by
  refine List.filterMap_eq_nil_iff.mpr fun happening told => ?_
  obtain ⟨attempt, delay, rfl⟩ := kept happening told
  rfl

theorem createTopics_keeps_log {result : Result Unit}
    (goes : Goes reconciler.createTopics start trace result stop) :
    Keeps (· = [.topicsCreated reconciler.topicNames]) trace result := by
  obtain ⟨-, message, attempts, ⟨failure, tried, rfl, rfl⟩ | ⟨accepted, tried, rfl⟩⟩ :=
    goes_createTopics goes
  · refine ⟨[.topicsCreated reconciler.topicNames], ?_, fun value h => ?_⟩
    · rw [announcements_logged, tried.silent calls_createTopics]
      rfl
    · cases eq_ok_of_surfacing h.symm
  · refine ⟨[], ?_, fun _ _ => rfl⟩
    rw [announcements_append, List.append_nil, announcements_logged,
      tried.silent calls_createTopics]
    rfl

theorem Waits.extends {spent : Int → Fault} {result : Result Unit}
    (waits : Waits reconciler.wait phase .verifyingTopics (some name) spent poll trace result after)
    (more : TopicLog (name :: names) log) :
    TopicLog (name :: names) (announcements trace ++ log) := by
  rcases waits.tells with told | silent
  · rw [told]
    exact .waited more
  · rw [silent]
    exact more

/-- A log of a topic may begin with the waits for it. -/
theorem AwaitsTopic.extends {listing : Listing} {result : Result Listing}
    (awaits : AwaitsTopic reconciler phase name poll listing trace result after)
    (more : TopicLog (name :: names) log) :
    TopicLog (name :: names) (announcements trace ++ log) := by
  induction awaits with
  | present => exact more
  | stopped missing waits => exact waits.extends more
  | unlisted missing waits goes =>
    rw [announcements_append, listTopics_silent goes, List.append_nil]
    exact waits.extends more
  | again missing waits goes _ ih =>
    rw [announcements_append, announcements_append, listTopics_silent goes, List.append_nil,
      List.append_assoc]
    exact waits.extends ih

theorem AwaitsTopics.keeps_log {specs : List TopicSpec} {listing : Listing} {result : Result Unit}
    (awaits : AwaitsTopics reconciler phase specs poll listing trace result after) :
    Keeps (TopicLog (specs.map (·.name))) trace result := by
  induction awaits with
  | done => exact ⟨[], .done, fun _ _ => rfl⟩
  | @stopped spec rest _ _ _ _ _ awaits =>
    obtain ⟨log, more⟩ := exists_topicLog ((spec :: rest).map (·.name))
    exact ⟨log, awaits.extends more, fun _ h => by cases h⟩
  | @untold spec rest _ after _ _ _ _ _ awaits =>
    obtain ⟨log, more⟩ := exists_topicLog (rest.map (·.name))
    refine ⟨log, ?_, fun _ h => by cases h⟩
    rw [announcements_append, List.append_assoc]
    have seen : TopicLog ((spec :: rest).map (·.name))
        (.topicVisible spec.name after.attempt :: log) := .seen more
    exact awaits.extends seen
  | @seen spec rest _ between _ _ _ _ _ _ _ awaits _ ih =>
    obtain ⟨log, more, ended⟩ := ih
    refine ⟨log, ?_, ended⟩
    rw [announcements_append, announcements_append, List.append_assoc, List.append_assoc]
    have seen : TopicLog ((spec :: rest).map (·.name))
        (.topicVisible spec.name between.attempt :: (announcements _ ++ log)) := .seen more
    exact awaits.extends seen

theorem verifyTopics_keeps_log {result : Result Unit}
    (goes : Goes (reconciler.fresh reconciler.verifyTopics) start trace result stop) :
    Keeps (TopicLog reconciler.topicNames) trace result := by
  obtain ⟨after, polls⟩ := goes_fresh_iff.mp goes
  obtain ⟨-, ⟨failure, asks, rfl, -⟩ | ⟨asked, listing, rest, asks, awaits, rfl⟩⟩ :=
    polls_verifyTopics polls
  · obtain ⟨log, more⟩ := exists_topicLog reconciler.topicNames
    refine ⟨log, ?_, fun _ h => by cases h⟩
    rwa [listTopics_silent asks]
  · obtain ⟨log, more, ended⟩ := awaits.keeps_log
    refine ⟨log, ?_, ended⟩
    rwa [announcements_append, listTopics_silent asks]

theorem Waits.keeps_log {spent : Int → Fault} {result : Result Unit}
    (waits : Waits reconciler.wait phase .verifyingRegistry none spent poll trace result after) :
    RegistryLog (announcements trace) := by
  intro happening mem
  rcases waits.tells with told | silent
  · rw [told, List.mem_singleton] at mem
    exact ⟨_, _, mem⟩
  · rw [silent] at mem
    cases mem

theorem AwaitsRegistry.keeps_log {result : Result Unit}
    (awaits : AwaitsRegistry reconciler phase poll trace result after) :
    RegistryLog (announcements trace) := by
  induction awaits with
  | raised | healthy => exact fun _ mem => by cases mem
  | stopped waits =>
    have kept := waits.keeps_log
    exact kept
  | @again _ _ _ waited rest _ waits more ih =>
    have both : announcements (⟨.probe, .ok false⟩ :: waited ++ rest) =
        announcements waited ++ announcements rest := announcements_append
    rw [both]
    exact List.forall_mem_append.mpr ⟨waits.keeps_log, ih⟩

theorem verifyRegistry_keeps_log {result : Result Unit}
    (goes : Goes (reconciler.fresh reconciler.verifyRegistry) start trace result stop) :
    RegistryLog (announcements trace) := by
  obtain ⟨after, polls⟩ := goes_fresh_iff.mp goes
  obtain ⟨-, ⟨failure, awaits, -⟩ | ⟨probed, message, awaits, rfl, -⟩⟩ :=
    polls_verifyRegistry polls
  · exact awaits.keeps_log
  · have quiet : announcements (probed ++ [logged .info message]) = announcements probed := by
      rw [announcements_append]
      exact List.append_nil _
    rw [quiet]
    exact awaits.keeps_log

end Logs

end Reconciler

end ClusterReadiness
