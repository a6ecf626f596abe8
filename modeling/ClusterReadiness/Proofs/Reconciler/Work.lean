import ClusterReadiness.Proofs.Program.Runs
import ClusterReadiness.Reconciler

/-!
# Runs of reconciling work

`Goes` says what a run of some work exchanges with its surroundings, what it comes to, and from
which phase to which it leads; `Polls` says the same of work that advances a poll. Each step that
work is put together from has its runs spelled out here, so that nothing later looks inside the
layers of results, phases and polls.
-/

namespace ClusterReadiness

namespace Reconciler

variable {α β : Type} {start stop : Phase} {trace : List Exchange} {poll after : PollState}

/-- The work may go through these exchanges, between these phases, and come to this result. -/
def Goes (work : Work α) (start : Phase) (trace : List Exchange) (result : Result α)
    (stop : Phase) : Prop :=
  Runs (work.run.run start) trace (result, stop)

/-- The same of work that advances a poll, from the first progress to the last. -/
def Polls (polling : Polling α) (poll : PollState) (start : Phase) (trace : List Exchange)
    (result : Result α) (after : PollState) (stop : Phase) : Prop :=
  Runs ((polling.run.run poll).run start) trace ((result, after), stop)

/-- A line in the log. -/
def logged (level : Level) (message : String) : Exchange := ⟨.record level message, ()⟩

/-- The run of some work in which every request is answered in view of the exchanges before it. -/
theorem goes_follow (answer : List Exchange → (r : Request) → r.Answer) (work : Work α)
    (start : Phase) (past : List Exchange) :
    let run := Program.follow answer (work.run.run start) past
    Goes work start run.1 run.2.1 run.2.2 :=
  runs_follow answer past (work.run.run start)

section Work

theorem goes_pure_iff {value : α} {result : Result α} :
    Goes (pure value) start trace result stop ↔
      trace = [] ∧ result = .ok value ∧ stop = start := by
  show Runs (.done (Except.ok value, start)) trace (result, stop) ↔ _
  rw [runs_done_iff, Prod.mk.injEq]

theorem goes_throw_iff {failure : Failure} {result : Result α} :
    Goes (throw failure) start trace result stop ↔
      trace = [] ∧ result = .error failure ∧ stop = start := by
  show Runs (.done (Except.error failure, start)) trace (result, stop) ↔ _
  rw [runs_done_iff, Prod.mk.injEq]

/-- A failure ends the work; otherwise the rest follows. -/
theorem goes_bind_iff {work : Work α} {next : α → Work β} {result : Result β} :
    Goes (work >>= next) start trace result stop ↔
      (∃ failure, Goes work start trace (.error failure) stop ∧ result = .error failure) ∨
      ∃ first value middle rest, Goes work start first (.ok value) middle ∧
        Goes (next value) middle rest result stop ∧ trace = first ++ rest := by
  unfold Goes
  rw [ExceptT.run_bind, StateT.run_bind, runs_bind_iff]
  constructor
  · rintro ⟨first, ⟨outcome, middle⟩, rest, hfirst, hrest, rfl⟩
    cases outcome with
    | error failure =>
      obtain ⟨rfl, h⟩ := runs_done_iff.mp hrest
      obtain ⟨rfl, rfl⟩ := Prod.mk.inj h
      exact .inl ⟨failure, by simpa using hfirst, rfl⟩
    | ok value => exact .inr ⟨first, value, middle, rest, hfirst, hrest, rfl⟩
  · rintro (⟨failure, hfirst, rfl⟩ | ⟨first, value, middle, rest, hfirst, hrest, rfl⟩)
    · exact ⟨trace, (.error failure, stop), [], hfirst, .done _, by simp⟩
    · exact ⟨first, (.ok value, middle), rest, hfirst, hrest, rfl⟩

theorem goes_get_iff {result : Result Phase} :
    Goes get start trace result stop ↔ trace = [] ∧ result = .ok start ∧ stop = start := by
  show Runs (.done (Except.ok start, start)) trace (result, stop) ↔ _
  rw [runs_done_iff, Prod.mk.injEq]

theorem goes_set_iff {next : Phase} {result : Result PUnit} :
    Goes (set next) start trace result stop ↔ trace = [] ∧ result = .ok () ∧ stop = next := by
  show Runs (.done (Except.ok (), next)) trace (result, stop) ↔ _
  rw [runs_done_iff, Prod.mk.injEq]

theorem goes_note_iff {level : Level} {message : String} {result : Result Unit} :
    Goes (note level message) start trace result stop ↔
      trace = [logged level message] ∧ result = .ok () ∧ stop = start := by
  show Runs (.ask (.record level message) fun _ => .done (Except.ok (), start)) trace
    (result, stop) ↔ _
  rw [runs_ask_done_iff]
  constructor
  · rintro ⟨_, rfl, h⟩
    obtain ⟨rfl, rfl⟩ := Prod.mk.inj h
    exact ⟨rfl, rfl, rfl⟩
  · rintro ⟨rfl, rfl, rfl⟩
    exact ⟨(), rfl, rfl⟩

/-- Looking at the phase is no exchange. -/
theorem goes_get_bind {next : Phase → Work α} {result : Result α}
    (goes : Goes (get >>= next) start trace result stop) :
    Goes (next start) start trace result stop := by
  rcases goes_bind_iff.mp goes with ⟨_, hget, _⟩ | ⟨_, _, _, _, hget, hnext, rfl⟩
  · obtain ⟨_, h, _⟩ := goes_get_iff.mp hget
    cases h
  · obtain ⟨rfl, h, rfl⟩ := goes_get_iff.mp hget
    cases h
    exact hnext

theorem goes_set_bind {phase : Phase} {next : PUnit → Work α} {result : Result α}
    (goes : Goes (set phase >>= next) start trace result stop) :
    Goes (next ()) phase trace result stop := by
  rcases goes_bind_iff.mp goes with ⟨_, hset, _⟩ | ⟨_, _, _, _, hset, hnext, rfl⟩
  · obtain ⟨_, h, _⟩ := goes_set_iff.mp hset
    cases h
  · obtain ⟨rfl, _, rfl⟩ := goes_set_iff.mp hset
    exact hnext

theorem goes_note_bind {level : Level} {message : String} {next : Unit → Work α}
    {result : Result α} (goes : Goes (note level message >>= next) start trace result stop) :
    ∃ rest, trace = logged level message :: rest ∧ Goes (next ()) start rest result stop := by
  rcases goes_bind_iff.mp goes with ⟨_, hnote, _⟩ | ⟨_, _, _, rest, hnote, hnext, rfl⟩
  · obtain ⟨_, h, _⟩ := goes_note_iff.mp hnote
    cases h
  · obtain ⟨rfl, _, rfl⟩ := goes_note_iff.mp hnote
    exact ⟨rest, rfl, hnext⟩

/-- An announcement is made in the phase that the work is in, and fails as its emission does. -/
theorem goes_announce_iff {happening : Happening} {result : Result Unit} :
    Goes (announce happening) start trace result stop ↔
      trace = [⟨.announce start happening, result⟩] ∧ stop = start := by
  show Runs (.ask (.announce start happening) fun answer => .done (answer, start)) trace
    (result, stop) ↔ _
  rw [runs_ask_done_iff]
  constructor
  · rintro ⟨_, rfl, h⟩
    obtain ⟨rfl, rfl⟩ := Prod.mk.inj h
    exact ⟨rfl, rfl⟩
  · rintro ⟨rfl, rfl⟩
    exact ⟨result, rfl, rfl⟩

theorem goes_isInterrupted_iff {result : Result Bool} :
    Goes (liftM (Program.request .isInterrupted)) start trace result stop ↔
      ∃ answer : Bool, trace = [⟨.isInterrupted, answer⟩] ∧ result = .ok answer ∧
        stop = start := by
  show Runs (.ask .isInterrupted fun answer => .done (Except.ok answer, start)) trace
    (result, stop) ↔ _
  rw [runs_ask_done_iff]
  constructor
  · rintro ⟨answer, rfl, h⟩
    obtain ⟨rfl, rfl⟩ := Prod.mk.inj h
    exact ⟨answer, rfl, rfl, rfl⟩
  · rintro ⟨answer, rfl, rfl, rfl⟩
    exact ⟨answer, rfl, rfl⟩

theorem goes_clock_iff {result : Result Float} :
    Goes clock start trace result stop ↔
      ∃ time : Float, trace = [⟨.clock, time⟩] ∧ result = .ok time ∧ stop = start := by
  show Runs (.ask .clock fun time => .done (Except.ok time, start)) trace (result, stop) ↔ _
  rw [runs_ask_done_iff]
  constructor
  · rintro ⟨time, rfl, h⟩
    obtain ⟨rfl, rfl⟩ := Prod.mk.inj h
    exact ⟨time, rfl, rfl, rfl⟩
  · rintro ⟨time, rfl, rfl, rfl⟩
    exact ⟨time, rfl, rfl⟩

/-- Work on the phase alone never fails. -/
theorem goes_lift_iff {work : StateT Phase Program α} {result : Result α} :
    Goes (liftM work) start trace result stop ↔
      ∃ value, Runs (work.run start) trace (value, stop) ∧ result = .ok value := by
  show Runs (work.run start >>= fun p => .done (Except.ok p.1, p.2)) trace (result, stop) ↔ _
  rw [runs_bind_iff]
  constructor
  · rintro ⟨first, ⟨value, middle⟩, rest, hfirst, hrest, rfl⟩
    obtain ⟨rfl, h⟩ := runs_done_iff.mp hrest
    obtain ⟨rfl, rfl⟩ := Prod.mk.inj h
    exact ⟨value, by simpa using hfirst, rfl⟩
  · rintro ⟨value, hwork, rfl⟩
    exact ⟨trace, (value, stop), [], hwork, .done _, by simp⟩

/-- A verification starts with the whole budget, and its progress ends with it. -/
theorem goes_fresh_iff {reconciler : Reconciler} {polling : Polling Unit}
    {result : Result Unit} :
    Goes (reconciler.fresh polling) start trace result stop ↔
      ∃ after, Polls polling (.start reconciler.wait) start trace result after stop := by
  show Runs ((polling.run.run (.start reconciler.wait)).run start >>=
    fun p => .done (p.1.1, p.2)) trace (result, stop) ↔ _
  rw [runs_bind_iff]
  constructor
  · rintro ⟨first, ⟨⟨outcome, after⟩, middle⟩, rest, hfirst, hrest, rfl⟩
    obtain ⟨rfl, h⟩ := runs_done_iff.mp hrest
    obtain ⟨rfl, rfl⟩ := Prod.mk.inj h
    exact ⟨after, by simpa [Polls] using hfirst⟩
  · rintro ⟨after, hpolls⟩
    exact ⟨trace, ((result, after), stop), [], hpolls, .done _, by simp⟩

end Work

section Polling

theorem polls_pure_iff {value : α} {result : Result α} :
    Polls (pure value) poll start trace result after stop ↔
      trace = [] ∧ result = .ok value ∧ after = poll ∧ stop = start := by
  show Runs (.done ((Except.ok value, poll), start)) trace ((result, after), stop) ↔ _
  simp only [runs_done_iff, Prod.mk.injEq, and_assoc]

theorem polls_throw_iff {failure : Failure} {result : Result α} :
    Polls (throw failure) poll start trace result after stop ↔
      trace = [] ∧ result = .error failure ∧ after = poll ∧ stop = start := by
  show Runs (.done ((Except.error failure, poll), start)) trace ((result, after), stop) ↔ _
  simp only [runs_done_iff, Prod.mk.injEq, and_assoc]

theorem polls_get_iff {result : Result PollState} :
    Polls get poll start trace result after stop ↔
      trace = [] ∧ result = .ok poll ∧ after = poll ∧ stop = start := by
  show Runs (.done ((Except.ok poll, poll), start)) trace ((result, after), stop) ↔ _
  simp only [runs_done_iff, Prod.mk.injEq, and_assoc]

theorem polls_bind_iff {polling : Polling α} {next : α → Polling β} {result : Result β} :
    Polls (polling >>= next) poll start trace result after stop ↔
      (∃ failure, Polls polling poll start trace (.error failure) after stop ∧
        result = .error failure) ∨
      ∃ first value between middle rest, Polls polling poll start first (.ok value) between middle ∧
        Polls (next value) between middle rest result after stop ∧ trace = first ++ rest := by
  unfold Polls
  rw [ExceptT.run_bind, StateT.run_bind, StateT.run_bind, runs_bind_iff]
  constructor
  · rintro ⟨first, ⟨⟨outcome, between⟩, middle⟩, rest, hfirst, hrest, rfl⟩
    cases outcome with
    | error failure =>
      obtain ⟨rfl, h⟩ := runs_done_iff.mp hrest
      simp only [Prod.mk.injEq] at h
      obtain ⟨⟨rfl, rfl⟩, rfl⟩ := h
      exact .inl ⟨failure, by simpa using hfirst, rfl⟩
    | ok value => exact .inr ⟨first, value, between, middle, rest, hfirst, hrest, rfl⟩
  · rintro (⟨failure, hfirst, rfl⟩ |
      ⟨first, value, between, middle, rest, hfirst, hrest, rfl⟩)
    · exact ⟨trace, ((.error failure, after), stop), [], hfirst, .done _, by simp⟩
    · exact ⟨first, ((.ok value, between), middle), rest, hfirst, hrest, rfl⟩

/-- What follows a poll matters only for what the poll may come to. -/
theorem polling_bind_congr {polling : Polling α} {f g : α → Polling β}
    (same : ∀ trace value after stop, Polls polling poll start trace (.ok value) after stop →
      ((f value).run.run after).run stop = ((g value).run.run after).run stop) :
    ((polling >>= f).run.run poll).run start = ((polling >>= g).run.run poll).run start := by
  simp only [ExceptT.run_bind, StateT.run_bind]
  refine Program.bind_congr_of_runs fun trace outcome run => ?_
  obtain ⟨⟨result, after⟩, stop⟩ := outcome
  cases result with
  | error failure => rfl
  | ok value => exact same trace value after stop run

/-- Work that does not poll leaves the progress alone. -/
theorem polls_ofWork_iff {work : Work α} {result : Result α} :
    Polls (ofWork work) poll start trace result after stop ↔
      Goes work start trace result stop ∧ after = poll := by
  show Runs (work.run.run start >>= fun p => .done ((p.1, poll), p.2)) trace
    ((result, after), stop) ↔ _
  rw [runs_bind_iff]
  constructor
  · rintro ⟨first, ⟨outcome, middle⟩, rest, hfirst, hrest, rfl⟩
    obtain ⟨rfl, h⟩ := runs_done_iff.mp hrest
    simp only [Prod.mk.injEq] at h
    obtain ⟨⟨rfl, rfl⟩, rfl⟩ := h
    exact ⟨by simpa [Goes] using hfirst, rfl⟩
  · rintro ⟨hwork, rfl⟩
    exact ⟨trace, (result, stop), [], hwork, .done _, by simp⟩

theorem polls_get_bind {next : PollState → Polling α} {result : Result α}
    (polls : Polls (get >>= next) poll start trace result after stop) :
    Polls (next poll) poll start trace result after stop := by
  rcases polls_bind_iff.mp polls with ⟨_, hget, _⟩ | ⟨_, _, _, _, _, hget, hnext, rfl⟩
  · obtain ⟨_, h, _⟩ := polls_get_iff.mp hget
    cases h
  · obtain ⟨rfl, h, rfl, rfl⟩ := polls_get_iff.mp hget
    cases h
    exact hnext

theorem polls_note_bind {level : Level} {message : String} {next : Unit → Polling α}
    {result : Result α}
    (polls : Polls (ofWork (note level message) >>= next) poll start trace result after stop) :
    ∃ rest, trace = logged level message :: rest ∧
      Polls (next ()) poll start rest result after stop := by
  rcases polls_bind_iff.mp polls with ⟨_, hnote, _⟩ | ⟨_, _, _, _, rest, hnote, hnext, rfl⟩
  · obtain ⟨_, h, _⟩ := goes_note_iff.mp (polls_ofWork_iff.mp hnote).1
    cases h
  · obtain ⟨goes, rfl⟩ := polls_ofWork_iff.mp hnote
    obtain ⟨rfl, _, rfl⟩ := goes_note_iff.mp goes
    exact ⟨rest, rfl, hnext⟩

theorem polls_probe_iff {result : Result Bool} :
    Polls probe poll start trace result after stop ↔
      trace = [⟨.probe, result⟩] ∧ after = poll ∧ stop = start := by
  show Runs (.ask .probe fun answer => .done ((answer, poll), start)) trace
    ((result, after), stop) ↔ _
  rw [runs_ask_done_iff]
  constructor
  · rintro ⟨_, rfl, h⟩
    simp only [Prod.mk.injEq] at h
    obtain ⟨⟨rfl, rfl⟩, rfl⟩ := h
    exact ⟨rfl, rfl, rfl⟩
  · rintro ⟨rfl, rfl, rfl⟩
    exact ⟨result, rfl, rfl⟩

end Polling

end Reconciler

end ClusterReadiness
