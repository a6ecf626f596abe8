import ClusterReadiness.Proofs.Reconciler.EventLog
import ClusterReadiness.Proofs.Reconciler.Leave
import ClusterReadiness.Sleeper

/-!
# Shutdown

An interrupted sleeper gives no more leave for port calls, whenever the interrupt arrives. A run
under it makes at most the one call that it had leave for, and is brought to its end as failed.
-/

namespace ClusterReadiness

namespace Reconciler

variable {reconciler : Reconciler} {stop : Phase} {trace first rest : List Exchange} {leave : Leave}

section Sleeper

/-- An exchange with surroundings that hold a sleeper, and the sleeper after it. A shutdown may be
asked for during any exchange but the look at the flag; one that arrives during a sleep cuts it
short, as a user interrupt does. -/
inductive Serves (sleeper : InterruptibleSleeper) : Exchange → InterruptibleSleeper → Prop where
  | slept {delay : Number} : Serves sleeper ⟨.sleep delay, sleeper.sleep delay⟩ sleeper
  | woken {delay : Number} :
      Serves sleeper ⟨.sleep delay, sleeper.interrupt.sleep delay⟩ sleeper.interrupt
  | struck {delay : Number} :
      Serves sleeper ⟨.sleep delay, (sleeper.sleepInterrupted delay).2⟩
        (sleeper.sleepInterrupted delay).1
  | looked : Serves sleeper ⟨.isInterrupted, sleeper.interrupted⟩ sleeper
  | passed {exchange : Exchange} (other : ∀ delay, exchange.request ≠ .sleep delay)
      (unasked : exchange.request ≠ .isInterrupted) : Serves sleeper exchange sleeper
  | interrupted {exchange : Exchange} (other : ∀ delay, exchange.request ≠ .sleep delay)
      (unasked : exchange.request ≠ .isInterrupted) :
      Serves sleeper exchange sleeper.interrupt

/-- Exchanges one after the other, with the sleeper before and after them. -/
inductive Under : InterruptibleSleeper → List Exchange → InterruptibleSleeper → Prop where
  | none {sleeper : InterruptibleSleeper} : Under sleeper [] sleeper
  | more {sleeper between last : InterruptibleSleeper} {exchange : Exchange}
      {rest : List Exchange} (serves : Serves sleeper exchange between)
      (under : Under between rest last) : Under sleeper (exchange :: rest) last

/-- If leave is asked for it is not given. -/
def Denies : Exchange → Prop
  | ⟨.sleep _, .ok _⟩ | ⟨.isInterrupted, false⟩ => False
  | _ => True

variable {sleeper there last : InterruptibleSleeper} {exchange : Exchange}

theorem denies_sleep_iff {delay : Number} {answer : Result Unit} :
    Denies ⟨.sleep delay, answer⟩ ↔ answer ≠ .ok () := by
  cases answer with
  | ok _ => exact ⟨False.elim, fun failed => failed rfl⟩
  | error failure => exact ⟨fun _ h => (by cases h), fun _ => trivial⟩

theorem denies_of_other (other : ∀ delay, exchange.request ≠ .sleep delay)
    (unasked : exchange.request ≠ .isInterrupted) : Denies exchange := by
  obtain ⟨request, answer⟩ := exchange
  cases request with
  | sleep delay => exact absurd rfl (other delay)
  | isInterrupted => exact absurd rfl unasked
  | _ => trivial

theorem sleep_interrupted (interrupted : sleeper.interrupted = true) (delay : Number) :
    sleeper.sleep delay ≠ .ok () := by
  unfold InterruptibleSleeper.sleep
  rw [interrupted]
  split <;> simp

theorem sleepInterrupted_fails (delay : Number) : (sleeper.sleepInterrupted delay).2 ≠ .ok () := by
  unfold InterruptibleSleeper.sleepInterrupted
  split <;> simp

theorem sleepInterrupted_stays (interrupted : sleeper.interrupted = true) (delay : Number) :
    (sleeper.sleepInterrupted delay).1.interrupted = true := by
  unfold InterruptibleSleeper.sleepInterrupted
  split
  · exact interrupted
  · rfl

/-- Once interrupted the sleeper stays so and gives no more leave. -/
theorem Serves.denies (serves : Serves sleeper exchange there)
    (interrupted : sleeper.interrupted = true) :
    Denies exchange ∧ there.interrupted = true := by
  cases serves with
  | slept => exact ⟨denies_sleep_iff.mpr (sleep_interrupted interrupted _), interrupted⟩
  | woken => exact ⟨denies_sleep_iff.mpr (sleep_interrupted rfl _), rfl⟩
  | struck =>
    exact ⟨denies_sleep_iff.mpr (sleepInterrupted_fails _), sleepInterrupted_stays interrupted _⟩
  | looked =>
    refine ⟨?_, interrupted⟩
    rw [interrupted]
    trivial
  | passed other unasked => exact ⟨denies_of_other other unasked, interrupted⟩
  | interrupted other unasked => exact ⟨denies_of_other other unasked, rfl⟩

theorem Under.denies (under : Under sleeper trace last)
    (interrupted : sleeper.interrupted = true) : ∀ exchange ∈ trace, Denies exchange := by
  induction under with
  | none => exact fun _ mem => by cases mem
  | more serves _ ih =>
    obtain ⟨denies, still⟩ := serves.denies interrupted
    exact List.forall_mem_cons.mpr ⟨denies, ih still⟩

/-- A sleep during which the sleeper is interrupted is not slept to its end. -/
theorem Serves.sleep_fails {delay : Number} {answer : Result Unit}
    (serves : Serves sleeper ⟨.sleep delay, answer⟩ there)
    (interrupted : there.interrupted = true) : answer ≠ .ok () := by
  cases serves with
  | slept => exact sleep_interrupted interrupted delay
  | woken => exact sleep_interrupted rfl delay
  | struck => exact sleepInterrupted_fails delay
  | passed other => exact absurd rfl (other delay)
  | interrupted other => exact absurd rfl (other delay)

theorem Under.last_serves (under : Under sleeper (trace ++ [exchange]) last) :
    ∃ before, Serves before exchange last := by
  generalize whole : trace ++ [exchange] = all at under
  induction under generalizing trace with
  | none => simp at whole
  | @more _ _ _ _ rest serves under ih =>
    cases trace with
    | nil =>
      obtain ⟨rfl, rfl⟩ := List.cons.inj whole
      cases under
      exact ⟨_, serves⟩
    | cons _ trace => exact ih (List.cons.inj whole).2

/-- Where leave is denied, it is left only if it was there before. -/
theorem Denies.granted {between : Leave} (denies : Denies exchange)
    (other : ¬ exchange.request.IsPortCall) (passed : leave.next exchange = some between)
    (granted : between = .granted) : leave = .granted := by
  obtain ⟨request, answer⟩ := exchange
  subst granted
  cases request with
  | createTopics | listTopics | probe => exact absurd trivial other
  | sleep =>
    cases answer with
    | ok _ => exact denies.elim
    | error failure =>
      rw [Leave.next_cutShort] at passed
      split at passed <;> cases passed
  | isInterrupted =>
    cases answer with
    | false => exact denies.elim
    | true =>
      rw [Leave.next_set] at passed
      split at passed <;> cases passed
  | clock | announce | record => exact Option.some.inj passed

/-- If leave is denied whenever it is asked for, a call is made only with leave given before. -/
theorem portCalls_of_denies {left : Leave} (denied : ∀ exchange ∈ trace, Denies exchange)
    (through : leave.through trace = some left) :
    (portCalls trace).length ≤ if leave = .granted then 1 else 0 := by
  induction trace generalizing leave with
  | nil => exact Nat.zero_le _
  | cons exchange rest ih =>
    obtain ⟨denies, others⟩ := List.forall_mem_cons.mp denied
    rw [Leave.through_cons] at through
    obtain ⟨between, passed, onward⟩ := Option.bind_eq_some_iff.mp through
    have more := ih others onward
    by_cases port : exchange.request.IsPortCall
    · rw [Leave.next_port port] at passed
      rw [portCalls_cons, if_pos port]
      split at passed
      · rename_i granted
        cases passed
        rw [if_pos granted, List.length_cons]
        simpa using more
      · cases passed
    · rw [portCalls_cons, if_neg port]
      by_cases granted : between = .granted
      · rw [if_pos granted] at more
        rw [if_pos (denies.granted port passed granted)]
        exact more
      · rw [if_neg granted] at more
        omega

/-- There is no leave left before a run, after a port call and after a sleep that was cut short. -/
theorem not_granted_of_last {left : Leave} (through : Leave.used.through trace = some left)
    (last : ∀ e ∈ trace.getLast?, e.request.IsPortCall ∨
      ∃ delay failure, e = ⟨.sleep delay, .error failure⟩) : left ≠ .granted := by
  rcases List.eq_nil_or_concat trace with rfl | ⟨earlier, e, rfl⟩
  · cases through
    decide
  · rw [List.concat_eq_append, Leave.through_append] at through
    obtain ⟨between, -, passed⟩ := Option.bind_eq_some_iff.mp through
    rw [Leave.through_cons] at passed
    obtain ⟨next, passed, ⟨⟩⟩ := Option.bind_eq_some_iff.mp passed
    rcases last e (by simp) with port | ⟨delay, failure, rfl⟩
    · rw [Leave.next_port port] at passed
      split at passed
      · cases passed
        decide
      · cases passed
    · rw [Leave.next_cutShort] at passed
      split at passed
      · cases passed
      · cases passed
        decide

end Sleeper

section Shutdown

/-- Where a trace that enters the ready phase is split, the question that earns it is behind or
still ahead. -/
theorem EntersReady.earned_or (enters : EntersReady (first ++ rest)) :
    Earned first ∨ (⟨.isInterrupted, false⟩ : Exchange) ∈ rest := by
  obtain ⟨earlier, message, entered, split, -, quiet, -⟩ := enters
  rcases List.append_eq_append_iff.mp split with ⟨middle, hearly, rfl⟩ | ⟨middle, rfl, hrest⟩
  · exact .inr (List.mem_append_right _ (.head _))
  · cases middle with
    | nil =>
      rw [List.nil_append] at hrest
      rw [← hrest]
      exact .inr (.head _)
    | cons question middle =>
      obtain ⟨rfl, rfl⟩ := List.cons.inj hrest
      have silent : checks middle = [] := (List.append_eq_nil_iff.mp
        (checks_append.symm.trans quiet)).1
      exact .inl ⟨checks earlier, by simp [silent, logged, Request.IsPortCall]⟩

/-- A run either enters the ready phase or announces nothing there and fails. -/
theorem ensureReady_unready {result : Result Unit}
    (goes : Goes reconciler.ensureReady .idle trace result stop) (all : Told trace) :
    EntersReady trace ∨ Unready trace ∧ ∃ failure phase earlier, result = .error failure ∧
      stop = .failed ∧
      announcements trace = earlier ++ [.failed phase failure.name failure.message] := by
  have clockFirst : ∀ started : Float, Unready [⟨.clock, started⟩] := by simp [Unready]
  cases goes_ensureReady goes with
  | @failed started work closing failure phase stop told worked fails =>
    obtain ⟨quiet, silent⟩ := fail_checks fails
    rcases workPhases_readyEarned worked with ⟨unready, -, -⟩ | enters
    · obtain ⟨rfl, closed⟩ := fail_announces fails fun _ _ _ mem =>
        all _ _ _ (List.mem_append_right _ mem)
      refine .inr ⟨((clockFirst started).append unready).append silent, _, phase,
        announcements work ++ [.stateChanged phase .failed], rfl, (goes_fail fails).1, ?_⟩
      rw [announcements_append, closed, List.append_assoc]
      rfl
    · exact .inl (((clockFirst started).entersReady enters).append quiet)
  | @ready started ended work message stop told worked =>
    rcases workPhases_readyEarned worked with ⟨-, -, failed⟩ | enters
    · exact absurd rfl failed
    · refine .inl (((clockFirst started).entersReady enters).append ?_)
      simp [logged, Request.IsPortCall]

variable {ε σ : Type} {perform : ε → StateM σ (Result Unit)}
  {record : Level → String → StateM σ Unit} {sleeper there last : InterruptibleSleeper}
  {before after : List Exchange} {result : Result Unit}

/-- Once the sleeper is interrupted, and the ready phase not earned by then, no sleep is slept to
its end, the ready phase is not entered, and the run fails and tells so last. At most one port call
is still made, and none if the interrupt came before the run, during a port call or during a
sleep. -/
theorem ensureReady_heeds_shutdown
    (goes : Goes reconciler.ensureReady .idle (before ++ after) result stop)
    (heard : Heard perform record (before ++ after)) (ordinary : Router.Ordinary perform)
    (under : Under sleeper before there) (onward : Under there after last)
    (interrupted : there.interrupted = true) (early : ¬ Earned before) :
    (∀ delay answer, (⟨.sleep delay, answer⟩ : Exchange) ∈ after → answer ≠ .ok ()) ∧
    Unready (before ++ after) ∧
    (∃ failure phase earlier, result = .error failure ∧ stop = .failed ∧
      announcements (before ++ after) =
        earlier ++ [.failed phase failure.name failure.message]) ∧
    (portCalls after).length ≤ 1 ∧
    ((∀ e ∈ before.getLast?, e.request.IsPortCall ∨ ∃ delay, e.request = .sleep delay) →
      portCalls after = []) := by
  have denied := onward.denies interrupted
  obtain ⟨left, passed⟩ := ensureReady_through goes
  rw [Leave.through_append] at passed
  obtain ⟨leave, earlier, onwards⟩ := Option.bind_eq_some_iff.mp passed
  have few := portCalls_of_denies denied onwards
  have slept : ∀ delay answer, (⟨.sleep delay, answer⟩ : Exchange) ∈ after → answer ≠ .ok () :=
    fun delay answer mem => denies_sleep_iff.mp (denied _ mem)
  have unready : ¬ EntersReady (before ++ after) := by
    intro enters
    rcases enters.earned_or with earned | asked
    · exact early earned
    · exact denied _ asked
  obtain ⟨silent, fails⟩ :=
    (ensureReady_unready goes (ensureReady_told goes heard ordinary)).resolve_left unready
  refine ⟨slept, silent, fails, ?_, fun ended => ?_⟩
  · split at few <;> omega
  · have used : leave ≠ .granted := by
      refine not_granted_of_last earlier fun e mem => ?_
      rcases ended e mem with port | ⟨delay, asked⟩
      · exact .inl port
      · obtain ⟨request, answer⟩ := e
        subst asked
        obtain ⟨start, rfl⟩ := List.getLast?_eq_some_iff.mp mem
        obtain ⟨_, serves⟩ := under.last_serves
        -- the interrupt that arrived in this sleep cut it short
        cases answer with
        | ok _ => exact absurd rfl (serves.sleep_fails interrupted)
        | error failure => exact .inr ⟨delay, failure, rfl⟩
    rw [if_neg used] at few
    exact List.eq_nil_of_length_eq_zero (by omega)

/-- The sleeper after some exchanges, if it is interrupted during those with such requests. -/
def sleeperAfter (during : Request → Bool) (past : List Exchange) : InterruptibleSleeper :=
  ⟨past.any fun exchange => during exchange.request⟩

/-- Surroundings that hold this sleeper, and in which all else is answered as given. -/
def attended (during : Request → Bool) (answer : (r : Request) → r.Answer)
    (past : List Exchange) : (r : Request) → r.Answer
  | .sleep delay => (sleeperAfter during (past ++ [⟨.sleep delay, .ok ()⟩])).sleep delay
  | .isInterrupted => (sleeperAfter during past).interrupted
  | r => answer r

theorem sleeperAfter_append_singleton {during : Request → Bool} {past : List Exchange}
    {exchange : Exchange} : sleeperAfter during (past ++ [exchange]) =
      if during exchange.request then (sleeperAfter during past).interrupt
      else sleeperAfter during past := by
  cases interrupts : during exchange.request <;>
    simp [sleeperAfter, interrupts, InterruptibleSleeper.interrupt]

theorem serves_attended {during : Request → Bool} {answer : (r : Request) → r.Answer}
    {router : Router Unit} (past : List Exchange) (r : Request)
    (unasked : during .isInterrupted = false) :
    let exchange : Exchange := ⟨r, overheard router (attended during answer) past r⟩
    Serves (sleeperAfter during past) exchange (sleeperAfter during (past ++ [exchange])) := by
  intro exchange
  have other : ∀ next : Request, (∀ delay, next ≠ .sleep delay) → next ≠ .isInterrupted →
      ∀ answer : next.Answer, Serves (sleeperAfter during past) ⟨next, answer⟩
        (sleeperAfter during (past ++ [⟨next, answer⟩])) := by
    intro next awake quiet answer
    rw [sleeperAfter_append_singleton]
    split
    · exact .interrupted awake quiet
    · exact .passed awake quiet
  cases r with
  | sleep delay =>
    have same : exchange = ⟨.sleep delay,
        (sleeperAfter during (past ++ [⟨.sleep delay, .ok ()⟩])).sleep delay⟩ := rfl
    rw [same, sleeperAfter_append_singleton, sleeperAfter_append_singleton]
    split
    · exact .woken
    · exact .slept
  | isInterrupted =>
    rw [sleeperAfter_append_singleton, if_neg (by simp [exchange, unasked])]
    exact .looked
  | _ => exact other _ (by simp) (by simp) _

/-- Such surroundings hold the sleeper over any part of a run. -/
theorem under_attended {α : Type} {during : Request → Bool} {answer : (r : Request) → r.Answer}
    {router : Router Unit} {program : Program α} {before part later : List Exchange}
    (unasked : during .isInterrupted = false)
    (split : (Program.follow (overheard router (attended during answer)) program []).1 =
      before ++ part ++ later) :
    Under (sleeperAfter during before) part (sleeperAfter during (before ++ part)) := by
  induction part generalizing before with
  | nil =>
    rw [List.append_nil]
    exact .none
  | cons exchange part ih =>
    obtain ⟨request, given⟩ := exchange
    have answered : given = overheard router (attended during answer) before request :=
      Program.answer_of_follow_eq (split.trans (List.append_assoc ..))
    subst answered
    refine .more (serves_attended before request unasked) ?_
    have moved : ∀ e : Exchange,
        before ++ e :: part ++ later = before ++ [e] ++ part ++ later := by simp
    have more := ih (split.trans (moved _))
    rwa [List.append_assoc] at more

/-- A shutdown that is asked for during a healthy probe keeps the run from getting ready. -/
theorem ensureReady_heeds_shutdown_probe :
    let router : Router Unit :=
      ⟨[⟨"pager", "Scripted", [], .scripted [[.perform ()]]⟩], ["pager"], []⟩
    let during := fun r : Request => decide (r = .probe)
    let run := Program.follow (overheard router (attended during (obliging ["orders"])))
      (ordersOnly.ensureReady.run.run .idle) []
    let before := run.1.take 19
    let after := run.1.drop 19
    before.getLast?.map (·.request) = some .probe ∧ run.1 = before ++ after ∧
    Under .fresh before ⟨true⟩ ∧ Under ⟨true⟩ after ⟨true⟩ ∧ ¬ Earned before ∧
    Unready run.1 ∧ portCalls after = [] ∧ run.2.2 = .failed ∧
    run.2.1 = .error (shutdownBefore .ready) := by
  intro router during run before after
  have split : run.1 = before ++ after := (List.take_append_drop 19 run.1).symm
  have goes : Goes ordersOnly.ensureReady .idle (before ++ after) run.2.1 run.2.2 := by
    rw [← split]
    exact goes_follow _ _ _ _
  have heard : Heard stumble Router.unlogged (before ++ after) := by
    rw [← split]
    exact heard_overheard
  have probing : before.getLast?.map (·.request) = some .probe := by decide +kernel
  have asked : (checks before).getLast?.map (·.request) = some .probe := by decide +kernel
  have ended : run.2 = (.error (shutdownBefore .ready), .failed) := by decide +kernel
  have under : Under (sleeperAfter during []) before (sleeperAfter during before) :=
    under_attended rfl split
  have onward : Under (sleeperAfter during before) after (sleeperAfter during (before ++ after)) :=
    under_attended rfl (split.trans (List.append_nil _).symm)
  have struck : sleeperAfter during before = ⟨true⟩ := by decide +kernel
  have still : sleeperAfter during (before ++ after) = ⟨true⟩ := by decide +kernel
  rw [struck] at under onward
  rw [still] at onward
  have early : ¬ Earned before := by
    rintro ⟨earlier, h⟩
    rw [h] at asked
    simp at asked
  have called : ∀ e ∈ before.getLast?, e.request.IsPortCall ∨
      ∃ delay, e.request = .sleep delay := by
    intro e mem
    rw [mem, Option.map_some, Option.some.injEq] at probing
    rw [probing]
    exact .inl trivial
  obtain ⟨-, unready, -, -, uncalled⟩ :=
    ensureReady_heeds_shutdown goes heard stumble_ordinary under onward rfl early
  rw [split]
  exact ⟨probing, rfl, under, onward, early, unready, uncalled called, by rw [ended], by rw [ended]⟩

end Shutdown

end Reconciler

end ClusterReadiness
