import ClusterReadiness.Proofs.Reconciler.Steps

/-!
# Runs of verifications

A verification looks, waits a round if it must, and looks again. `Waits` tells one round,
`AwaitsTopic`, `AwaitsTopics` and `AwaitsRegistry` tell a verification look by look. The budget is
read off the progress alone: the attempts left are never counted a second time.
-/

namespace ClusterReadiness

namespace Reconciler

variable {α : Type} {reconciler : Reconciler} {start stop phase : Phase} {trace : List Exchange}
  {poll after : PollState}

section Rounds

/-- Taking one attempt of the budget. -/
inductive Advances (policy : WaitPolicy) (poll : PollState) :
    List Exchange → Result Bool → PollState → Prop where
  | spent (used : policy.maxAttempts ≤ poll.attempt) :
      Advances policy poll [] (.ok false) ⟨poll.interval, poll.attempt + 1⟩
  | cutShort {message : String} {cut : Failure} (within : poll.attempt < policy.maxAttempts) :
      Advances policy poll [logged .debug message, ⟨.sleep poll.interval, .error cut⟩]
        (.error cut) ⟨poll.interval, poll.attempt + 1⟩
  | overgrown {message : String} {reason : Overflow} (within : poll.attempt < policy.maxAttempts)
      (grown : poll.interval.scale policy.multiplier = .error reason) :
      Advances policy poll [logged .debug message, ⟨.sleep poll.interval, .ok ()⟩]
        (.error (.of (.overflow reason))) ⟨poll.interval, poll.attempt + 1⟩
  | rested {message : String} {interval : Number} (within : poll.attempt < policy.maxAttempts)
      (grown : poll.interval.scale policy.multiplier = .ok interval) :
      Advances policy poll [logged .debug message, ⟨.sleep poll.interval, .ok ()⟩]
        (.ok true) ⟨interval, poll.attempt + 1⟩

theorem runs_advance {policy : WaitPolicy} {result : Result Bool}
    (run : Runs ((poll.advance policy sleep record).run start) trace ((result, after), stop)) :
    Advances policy poll trace result after ∧ stop = start := by
  unfold PollState.advance at run
  simp only at run
  split at run
  · rename_i used
    obtain ⟨rfl, h, rfl⟩ := runs_stateT_pure_iff.mp run
    cases h
    exact ⟨.spent (by omega), rfl⟩
  · rename_i within
    simp only [runs_stateT_bind_iff] at run
    obtain ⟨_, _, _, rest, hline, hrest, rfl⟩ := run
    obtain ⟨rfl, rfl⟩ := runs_record_iff.mp hline
    obtain ⟨_, woken, _, last, hslept, hlast, rfl⟩ := hrest
    obtain ⟨rfl, rfl⟩ := runs_sleep_iff.mp hslept
    cases woken with
    | error cut =>
      obtain ⟨rfl, h, rfl⟩ := runs_stateT_pure_iff.mp hlast
      cases h
      exact ⟨.cutShort (by omega), rfl⟩
    | ok _ =>
      simp only at hlast
      cases grown : poll.interval.scale policy.multiplier with
      | error reason =>
        simp only [grown] at hlast
        obtain ⟨rfl, h, rfl⟩ := runs_stateT_pure_iff.mp hlast
        cases h
        exact ⟨.overgrown (by omega) grown, rfl⟩
      | ok interval =>
        simp only [grown] at hlast
        obtain ⟨rfl, h, rfl⟩ := runs_stateT_pure_iff.mp hlast
        cases h
        exact ⟨.rested (by omega) grown, rfl⟩

theorem polls_advance {result : Result Bool}
    (polls : Polls reconciler.advance poll start trace result after stop) :
    Advances reconciler.wait poll trace result after ∧ stop = start :=
  runs_advance (by simpa [Polls, advance] using polls)

theorem polls_attemptMore {missing : String} {spent : Int → Fault} {result : Result PollState}
    (polls : Polls (reconciler.attemptMore missing spent) poll start trace result after stop) :
    stop = start ∧ ∃ message rest outcome, trace = logged .warning message :: rest ∧
      Advances reconciler.wait poll rest outcome after ∧
      result = outcome.bind fun allowed =>
        if allowed then .ok poll else .error (.of (spent poll.attempt)) := by
  obtain ⟨rest, rfl, hrest⟩ := polls_note_bind (polls_get_bind polls)
  rcases polls_bind_iff.mp hrest with
    ⟨failure, hadvance, rfl⟩ | ⟨first, allowed, between, middle, last, hadvance, hlast, rfl⟩
  · obtain ⟨advances, rfl⟩ := polls_advance hadvance
    exact ⟨rfl, _, rest, _, rfl, advances, rfl⟩
  · obtain ⟨advances, rfl⟩ := polls_advance hadvance
    cases allowed with
    | true =>
      obtain ⟨rfl, rfl, rfl, rfl⟩ := polls_pure_iff.mp hlast
      rw [List.append_nil]
      exact ⟨rfl, _, first, _, rfl, advances, rfl⟩
    | false =>
      obtain ⟨rfl, rfl, rfl, rfl⟩ := polls_throw_iff.mp hlast
      rw [List.append_nil]
      exact ⟨rfl, _, first, _, rfl, advances, rfl⟩

theorem polls_announceRetry {waiting : Phase} {delay : Number} {topic : Option String}
    {result : Result Unit}
    (polls : Polls (announceRetry waiting delay topic) poll start trace result after stop) :
    trace = [⟨.announce start (.waitRetry waiting poll.attempt delay topic), result⟩] ∧
      after = poll ∧ stop = start := by
  obtain ⟨goes, rfl⟩ := polls_ofWork_iff.mp (polls_get_bind polls)
  obtain ⟨rfl, rfl⟩ := goes_announce_iff.mp goes
  exact ⟨rfl, rfl, rfl⟩

/-- One round: the attempt, and then the news of it, told in `phase` about the wait of the phase
`waiting`. -/
inductive Waits (policy : WaitPolicy) (phase waiting : Phase) (topic : Option String)
    (spent : Int → Fault) (poll : PollState) : List Exchange → Result Unit → PollState → Prop where
  | spent {message : String} (used : policy.maxAttempts ≤ poll.attempt) :
      Waits policy phase waiting topic spent poll [logged .warning message]
        (.error (.of (spent poll.attempt))) ⟨poll.interval, poll.attempt + 1⟩
  | cutShort {message note : String} {cut : Failure} (within : poll.attempt < policy.maxAttempts) :
      Waits policy phase waiting topic spent poll [logged .warning message, logged .debug note,
        ⟨.sleep poll.interval, .error cut⟩] (.error cut) ⟨poll.interval, poll.attempt + 1⟩
  | overgrown {message note : String} {reason : Overflow}
      (within : poll.attempt < policy.maxAttempts)
      (grown : poll.interval.scale policy.multiplier = .error reason) :
      Waits policy phase waiting topic spent poll [logged .warning message, logged .debug note,
        ⟨.sleep poll.interval, .ok ()⟩] (.error (.of (.overflow reason)))
        ⟨poll.interval, poll.attempt + 1⟩
  | told {message note : String} {interval : Number} {answer : Result Unit}
      (within : poll.attempt < policy.maxAttempts)
      (grown : poll.interval.scale policy.multiplier = .ok interval) :
      Waits policy phase waiting topic spent poll [logged .warning message, logged .debug note,
        ⟨.sleep poll.interval, .ok ()⟩,
        ⟨.announce phase (.waitRetry waiting (poll.attempt + 1) poll.interval topic), answer⟩]
        answer ⟨interval, poll.attempt + 1⟩

/-- A round that is told has taken an attempt of the budget. -/
theorem Waits.advanced {policy : WaitPolicy} {waiting : Phase} {topic : Option String}
    {spent : Int → Fault}
    (waits : Waits policy phase waiting topic spent poll trace (.ok ()) after) :
    after.attempt = poll.attempt + 1 ∧ after.attempt ≤ policy.maxAttempts := by
  cases waits with
  | told within => exact ⟨rfl, within⟩

/-- A round and what follows it, if there are as many attempts left as the budget allows: those
beyond it are never made. -/
theorem polls_round {missing : String} {spent : Int → Fault} {waiting : Phase}
    {topic : Option String} {result : Result α} {left : Nat} (next : Nat → Polling α)
    (enough : reconciler.budget poll ≤ left) (polls : Polls (do
      let before ← reconciler.attemptMore missing spent
      match left with
      | 0 => throw (.of (spent before.attempt))
      | left + 1 => do
        announceRetry waiting before.interval topic
        next left) poll start trace result after stop) :
    (∃ failure, Waits reconciler.wait start waiting topic spent poll trace (.error failure) after ∧
      result = .error failure ∧ stop = start) ∨
    ∃ first between fewer rest,
      Waits reconciler.wait start waiting topic spent poll first (.ok ()) between ∧
      fewer < left ∧ reconciler.budget between ≤ fewer ∧
      Polls (next fewer) between start rest result after stop ∧ trace = first ++ rest := by
  rcases polls_bind_iff.mp polls with
    ⟨failure, hattempt, rfl⟩ | ⟨first, before, between, middle, rest, hattempt, hrest, rfl⟩
  · obtain ⟨rfl, message, rest, outcome, rfl, advances, h⟩ := polls_attemptMore hattempt
    cases advances with
    | spent used =>
      cases h
      exact .inl ⟨_, .spent used, rfl, rfl⟩
    | cutShort within =>
      cases h
      exact .inl ⟨_, .cutShort within, rfl, rfl⟩
    | overgrown within grown =>
      cases h
      exact .inl ⟨_, .overgrown within grown, rfl, rfl⟩
    | rested within grown => cases h
  · obtain ⟨rfl, message, line, outcome, rfl, advances, h⟩ := polls_attemptMore hattempt
    cases advances with
    | rested within grown =>
      cases h
      cases left with
      | zero =>
        unfold budget at enough
        omega
      | succ fewer =>
        rcases polls_bind_iff.mp hrest with
          ⟨failure, htold, rfl⟩ | ⟨news, _, _, _, last, htold, hnext, rfl⟩
        · obtain ⟨rfl, rfl, rfl⟩ := polls_announceRetry htold
          exact .inl ⟨failure, .told within grown, rfl, rfl⟩
        · obtain ⟨rfl, rfl, rfl⟩ := polls_announceRetry htold
          refine .inr ⟨_, _, fewer, last, .told within grown, by omega, ?_, hnext, rfl⟩
          simp only [budget] at enough ⊢
          omega
    | _ => cases h

end Rounds

section Verifications

/-- Taking listings until one holds the topic, from a given one on. -/
inductive AwaitsTopic (reconciler : Reconciler) (phase : Phase) (name : String) :
    PollState → Listing → List Exchange → Result Listing → PollState → Prop where
  | present {poll : PollState} {listing : Listing} (listed : name ∈ listing) :
      AwaitsTopic reconciler phase name poll listing [] (.ok listing) poll
  | stopped {poll after : PollState} {listing : Listing} {trace : List Exchange}
      {failure : Failure} (missing : name ∉ listing)
      (waits : Waits reconciler.wait phase .verifyingTopics (some name) (.topicNotReady name) poll
        trace (.error failure) after) :
      AwaitsTopic reconciler phase name poll listing trace (.error failure) after
  | unlisted {poll after : PollState} {listing : Listing} {waited asked : List Exchange}
      {failure : Failure} (missing : name ∉ listing)
      (waits : Waits reconciler.wait phase .verifyingTopics (some name) (.topicNotReady name) poll
        waited (.ok ()) after)
      (goes : Goes reconciler.listTopics phase asked (.error failure) phase) :
      AwaitsTopic reconciler phase name poll listing (waited ++ asked) (.error failure) after
  | again {poll between after : PollState} {listing next : Listing}
      {waited asked rest : List Exchange} {result : Result Listing} (missing : name ∉ listing)
      (waits : Waits reconciler.wait phase .verifyingTopics (some name) (.topicNotReady name) poll
        waited (.ok ()) between)
      (goes : Goes reconciler.listTopics phase asked (.ok next) phase)
      (more : AwaitsTopic reconciler phase name between next rest result after) :
      AwaitsTopic reconciler phase name poll listing (waited ++ asked ++ rest) result after

theorem polls_awaitTopic {name : String} {left : Nat} {listing : Listing} {start : Phase}
    {poll : PollState} {trace : List Exchange} {result : Result Listing}
    (enough : reconciler.budget poll ≤ left)
    (polls : Polls (reconciler.awaitTopic name left listing) poll start trace result after stop) :
    AwaitsTopic reconciler start name poll listing trace result after ∧ stop = start := by
  rw [awaitTopic.eq_def] at polls
  split at polls
  · rename_i listed
    obtain ⟨rfl, rfl, rfl, rfl⟩ := polls_pure_iff.mp polls
    exact ⟨.present (List.contains_iff_mem.mp listed), rfl⟩
  · rename_i unlisted
    have missing : name ∉ listing := fun h => unlisted (List.contains_iff_mem.mpr h)
    rcases polls_round _ enough polls with
      ⟨failure, waits, rfl, rfl⟩ | ⟨waited, between, fewer, rest, waits, hless, hfewer, hrest, rfl⟩
    · exact ⟨.stopped missing waits, rfl⟩
    · rcases polls_bind_iff.mp hrest with
        ⟨failure, hlist, rfl⟩ | ⟨asked, next, _, middle, last, hlist, hlast, rfl⟩
      · obtain ⟨goes, rfl⟩ := polls_ofWork_iff.mp hlist
        obtain ⟨rfl, _⟩ := goes_listTopics goes
        exact ⟨.unlisted missing waits goes, rfl⟩
      · obtain ⟨goes, rfl⟩ := polls_ofWork_iff.mp hlist
        obtain ⟨rfl, _⟩ := goes_listTopics goes
        obtain ⟨more, rfl⟩ := polls_awaitTopic hfewer hlast
        rw [← List.append_assoc]
        exact ⟨.again missing waits goes more, rfl⟩
termination_by left

/-- One topic after the other, each from the listing that showed the one before. -/
inductive AwaitsTopics (reconciler : Reconciler) (phase : Phase) :
    List TopicSpec → PollState → Listing → List Exchange → Result Unit → PollState → Prop where
  | done {poll : PollState} {listing : Listing} :
      AwaitsTopics reconciler phase [] poll listing [] (.ok ()) poll
  | stopped {spec : TopicSpec} {rest : List TopicSpec} {poll after : PollState}
      {listing : Listing} {trace : List Exchange} {failure : Failure}
      (awaits : AwaitsTopic reconciler phase spec.name poll listing trace (.error failure) after) :
      AwaitsTopics reconciler phase (spec :: rest) poll listing trace (.error failure) after
  | untold {spec : TopicSpec} {rest : List TopicSpec} {poll after : PollState}
      {listing next : Listing} {trace : List Exchange} {message : String} {failure : Failure}
      (awaits : AwaitsTopic reconciler phase spec.name poll listing trace (.ok next) after) :
      AwaitsTopics reconciler phase (spec :: rest) poll listing (trace ++ [logged .info message,
        ⟨.announce phase (.topicVisible spec.name after.attempt), .error failure⟩])
        (.error failure) after
  | seen {spec : TopicSpec} {rest : List TopicSpec} {poll between after : PollState}
      {listing next : Listing} {trace more : List Exchange} {message : String}
      {result : Result Unit}
      (awaits : AwaitsTopic reconciler phase spec.name poll listing trace (.ok next) between)
      (others : AwaitsTopics reconciler phase rest between next more result after) :
      AwaitsTopics reconciler phase (spec :: rest) poll listing (trace ++ [logged .info message,
        ⟨.announce phase (.topicVisible spec.name between.attempt), .ok ()⟩] ++ more) result after

theorem polls_awaitTopics {specs : List TopicSpec} {listing : Listing} {poll : PollState}
    {trace : List Exchange} {result : Result Unit}
    (polls : Polls (reconciler.awaitTopics specs listing) poll start trace result after stop) :
    AwaitsTopics reconciler start specs poll listing trace result after ∧ stop = start := by
  induction specs generalizing listing poll trace with
  | nil =>
    obtain ⟨rfl, rfl, rfl, rfl⟩ := polls_pure_iff.mp polls
    exact ⟨.done, rfl⟩
  | cons spec rest ih =>
    rcases polls_bind_iff.mp (polls_get_bind polls) with
      ⟨failure, hawait, rfl⟩ | ⟨first, next, between, middle, last, hawait, hlast, rfl⟩
    · obtain ⟨awaits, rfl⟩ := polls_awaitTopic (Nat.le_refl _) hawait
      exact ⟨.stopped awaits, rfl⟩
    · obtain ⟨awaits, rfl⟩ := polls_awaitTopic (Nat.le_refl _) hawait
      obtain ⟨_, rfl, hnews⟩ := polls_note_bind (polls_get_bind hlast)
      rcases polls_bind_iff.mp hnews with
        ⟨failure, htold, rfl⟩ | ⟨_, _, _, _, more, htold, hmore, rfl⟩
      · obtain ⟨goes, rfl⟩ := polls_ofWork_iff.mp htold
        obtain ⟨rfl, rfl⟩ := goes_announce_iff.mp goes
        exact ⟨.untold awaits, rfl⟩
      · obtain ⟨goes, rfl⟩ := polls_ofWork_iff.mp htold
        obtain ⟨rfl, rfl⟩ := goes_announce_iff.mp goes
        obtain ⟨others, rfl⟩ := ih hmore
        exact ⟨by simpa using AwaitsTopics.seen awaits others, rfl⟩

/-- The topic phase: a first listing, and then the topics. -/
theorem polls_verifyTopics {result : Result Unit}
    (polls : Polls reconciler.verifyTopics poll start trace result after stop) :
    stop = start ∧
      ((∃ failure, Goes reconciler.listTopics start trace (.error failure) start ∧
        result = .error failure ∧ after = poll) ∨
      ∃ asked listing rest, Goes reconciler.listTopics start asked (.ok listing) start ∧
        AwaitsTopics reconciler start reconciler.topics poll listing rest result after ∧
        trace = asked ++ rest) := by
  rcases polls_bind_iff.mp polls with
    ⟨failure, hlist, rfl⟩ | ⟨asked, listing, _, _, rest, hlist, hrest, rfl⟩
  · obtain ⟨goes, rfl⟩ := polls_ofWork_iff.mp hlist
    obtain ⟨rfl, _⟩ := goes_listTopics goes
    exact ⟨rfl, .inl ⟨failure, goes, rfl, rfl⟩⟩
  · obtain ⟨goes, rfl⟩ := polls_ofWork_iff.mp hlist
    obtain ⟨rfl, _⟩ := goes_listTopics goes
    obtain ⟨awaits, rfl⟩ := polls_awaitTopics hrest
    exact ⟨rfl, .inr ⟨asked, listing, rest, goes, awaits, rfl⟩⟩

/-- Probing until the registry is healthy. -/
inductive AwaitsRegistry (reconciler : Reconciler) (phase : Phase) :
    PollState → List Exchange → Result Unit → PollState → Prop where
  | raised {poll : PollState} {failure : Failure} :
      AwaitsRegistry reconciler phase poll [⟨.probe, .error failure⟩] (.error failure) poll
  | healthy {poll : PollState} :
      AwaitsRegistry reconciler phase poll [⟨.probe, .ok true⟩] (.ok ()) poll
  | stopped {poll after : PollState} {trace : List Exchange} {failure : Failure}
      (waits : Waits reconciler.wait phase .verifyingRegistry none .registryNotReady poll
        trace (.error failure) after) :
      AwaitsRegistry reconciler phase poll (⟨.probe, .ok false⟩ :: trace) (.error failure) after
  | again {poll between after : PollState} {waited rest : List Exchange} {result : Result Unit}
      (waits : Waits reconciler.wait phase .verifyingRegistry none .registryNotReady poll
        waited (.ok ()) between)
      (more : AwaitsRegistry reconciler phase between rest result after) :
      AwaitsRegistry reconciler phase poll (⟨.probe, .ok false⟩ :: waited ++ rest) result after

theorem polls_awaitRegistry {left : Nat} {start : Phase} {poll : PollState}
    {trace : List Exchange} {result : Result Unit} (enough : reconciler.budget poll ≤ left)
    (polls : Polls (reconciler.awaitRegistry left) poll start trace result after stop) :
    AwaitsRegistry reconciler start poll trace result after ∧ stop = start := by
  rw [awaitRegistry.eq_def] at polls
  rcases polls_bind_iff.mp polls with
    ⟨failure, hprobe, rfl⟩ | ⟨_, healthy, _, _, rest, hprobe, hrest, rfl⟩
  · obtain ⟨rfl, rfl, rfl⟩ := polls_probe_iff.mp hprobe
    exact ⟨.raised, rfl⟩
  · obtain ⟨rfl, rfl, rfl⟩ := polls_probe_iff.mp hprobe
    cases healthy with
    | true =>
      obtain ⟨rfl, rfl, rfl, rfl⟩ := polls_pure_iff.mp hrest
      exact ⟨.healthy, rfl⟩
    | false =>
      rcases polls_round reconciler.awaitRegistry enough hrest with
        ⟨failure, waits, rfl, rfl⟩ |
        ⟨waited, between, fewer, last, waits, hless, hfewer, hlast, rfl⟩
      · exact ⟨.stopped waits, rfl⟩
      · obtain ⟨more, rfl⟩ := polls_awaitRegistry hfewer hlast
        exact ⟨by simpa using AwaitsRegistry.again waits more, rfl⟩
termination_by left

/-- The registry phase says in the log how it ended. -/
theorem polls_verifyRegistry {result : Result Unit}
    (polls : Polls reconciler.verifyRegistry poll start trace result after stop) :
    stop = start ∧
      ((∃ failure, AwaitsRegistry reconciler start poll trace (.error failure) after ∧
        result = .error failure) ∨
      ∃ probed message, AwaitsRegistry reconciler start poll probed (.ok ()) after ∧
        trace = probed ++ [logged .info message] ∧ result = .ok ()) := by
  rcases polls_bind_iff.mp (polls_get_bind polls) with
    ⟨failure, hawait, rfl⟩ | ⟨probed, _, _, _, rest, hawait, hrest, rfl⟩
  · obtain ⟨awaits, rfl⟩ := polls_awaitRegistry (Nat.le_refl _) hawait
    exact ⟨rfl, .inl ⟨failure, awaits, rfl⟩⟩
  · obtain ⟨awaits, rfl⟩ := polls_awaitRegistry (Nat.le_refl _) hawait
    obtain ⟨goes, rfl⟩ := polls_ofWork_iff.mp (polls_get_bind hrest)
    obtain ⟨rfl, rfl, rfl⟩ := goes_note_iff.mp goes
    exact ⟨rfl, .inr ⟨probed, _, awaits, rfl, rfl⟩⟩

end Verifications

end Reconciler

end ClusterReadiness
