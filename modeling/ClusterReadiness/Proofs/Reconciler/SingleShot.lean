import ClusterReadiness.Proofs.Reconciler.Transparency

/-!
# One run for each reconciler

A reconciler can be called again at any time: by whoever called it first, and by a callback, in the
middle of the run that it hears of. Whatever the surroundings do, all but the first call come to
nothing. They look at the phase, leave it as it is, and answer according to it.
-/

namespace ClusterReadiness

namespace Reconciler

/-- A call with what it asked for, the calls that callbacks made meanwhile, and how it ended. -/
structure Call where
  made ::
  start : Phase
  asked : List Exchange
  inner : List Call
  result : Result Unit
  stop : Phase

namespace Call

/-- A call that finds a run begun: it says so in the log, or refuses. -/
def again (phase : Phase) : Call :=
  if phase = .ready then .made phase [logged .info alreadyReadyText] [] (.ok ()) phase
  else .made phase [] [] (.error (cannotRunFrom phase)) phase

end Call

mutual

/-- Calls one after the other, each in the phase that the one before it ended in. -/
inductive CalledFrom (reconciler : Reconciler) : Phase → List Call → Phase → Prop where
  | ended {phase : Phase} : CalledFrom reconciler phase [] phase
  | more {start middle stop : Phase} {asked : List Exchange} {inner others : List Call}
      {result : Result Unit} (goes : Goes reconciler.ensureReady start asked result middle)
      (heard : CalledDuring reconciler asked inner)
      (onward : CalledFrom reconciler middle others stop) :
      CalledFrom reconciler start (.made start asked inner result middle :: others) stop

/-- Whenever something is announced callbacks may call, as often as they like. The first of their
calls finds the phase of the announcement; where the last one leaves it is left open. -/
inductive CalledDuring (reconciler : Reconciler) : List Exchange → List Call → Prop where
  | ended : CalledDuring reconciler [] []
  | unheard {exchange : Exchange} {rest : List Exchange} {inner : List Call}
      (onward : CalledDuring reconciler rest inner) :
      CalledDuring reconciler (exchange :: rest) inner
  | heard {phase last : Phase} {happening : Happening} {answer : Result Unit}
      {rest : List Exchange} {calls inner : List Call}
      (called : CalledFrom reconciler phase calls last)
      (onward : CalledDuring reconciler rest inner) :
      CalledDuring reconciler (⟨.announce phase happening, answer⟩ :: rest) (calls ++ inner)

end

variable {reconciler : Reconciler} {start stop phase : Phase} {asked : List Exchange}
  {calls inner : List Call} {result : Result Unit}

/-- Where nothing is announced nobody calls. -/
theorem CalledDuring.eq_nil (during : CalledDuring reconciler asked inner)
    (silent : ∀ e ∈ asked, ∀ phase happening, e.request ≠ .announce phase happening) :
    inner = [] := by
  induction asked generalizing inner with
  | nil =>
    cases during
    rfl
  | cons exchange rest ih =>
    obtain ⟨here, others⟩ := List.forall_mem_cons.mp silent
    cases during with
    | unheard onward => exact ih onward others
    | heard => exact absurd rfl (here _ _)

/-- Once a run is begun, calls come to nothing. -/
theorem CalledFrom.eq_again (called : CalledFrom reconciler start calls stop)
    (begun : start ≠ .idle) : stop = start ∧ ∀ call ∈ calls, call = .again start := by
  induction calls with
  | nil =>
    cases called
    exact ⟨rfl, by simp⟩
  | cons call others ih =>
    cases called with
    | more goes heard onward =>
      obtain ⟨rfl, again⟩ := goes_ensureReady_again begun goes
      obtain ⟨rfl, each⟩ := ih onward
      refine ⟨rfl, List.forall_mem_cons.mpr ⟨?_, each⟩⟩
      -- Neither way of answering announces anything, so there is no call within this one.
      rcases again with ⟨ready, rfl, rfl⟩ | ⟨unready, rfl, rfl⟩
      · rw [heard.eq_nil (by simp [logged]), Call.again, if_pos ready]
      · rw [heard.eq_nil (by simp), Call.again, if_neg unready]

/-- What callbacks call finds the phase of what they hear, and leaves it. -/
theorem CalledDuring.eq_again (during : CalledDuring reconciler asked inner)
    (begun : ∀ e ∈ asked, ∀ phase happening, e.request = .announce phase happening →
      phase ≠ .idle) :
    ∀ call ∈ inner, ∃ phase happening answer,
      (⟨.announce phase happening, answer⟩ : Exchange) ∈ asked ∧ call = .again phase := by
  induction asked generalizing inner with
  | nil =>
    cases during
    simp
  | cons exchange rest ih =>
    obtain ⟨here, others⟩ := List.forall_mem_cons.mp begun
    have later : ∀ {inner : List Call}, CalledDuring reconciler rest inner →
        ∀ call ∈ inner, ∃ phase happening answer,
          (⟨.announce phase happening, answer⟩ : Exchange) ∈ exchange :: rest ∧
            call = .again phase := by
      intro inner onward call among
      obtain ⟨phase, happening, answer, told, same⟩ := ih onward others call among
      exact ⟨phase, happening, answer, .tail _ told, same⟩
    cases during with
    | unheard onward => exact later onward
    | @heard phase last happening answer _ calls _ called onward =>
      refine List.forall_mem_append.mpr ⟨fun call among => ?_, later onward⟩
      obtain ⟨-, each⟩ := called.eq_again (here phase happening rfl)
      exact ⟨phase, happening, answer, .head _, each call among⟩

theorem ensureReady_ready (goes : Goes reconciler.ensureReady .idle asked (.ok ()) stop) :
    stop = .ready := by
  generalize returned : Except.ok () = result at goes
  cases goes_ensureReady goes with
  | @failed _ _ _ _ _ _ told => cases told <;> cases returned
  | ready worked => exact (workPhases_way worked).ready rfl

/-- Of the calls of a reconciler, one after the other and within each other, the first is the run,
and ends ready or failed, whatever it met. Every other one comes to nothing: a callback's, made
while the run tells something, as well as one made when the run is over. -/
theorem ensureReady_single_shot {first : Call} {later : List Call}
    (called : CalledFrom reconciler .idle (first :: later) stop) :
    (first.stop = .ready ∨ first.stop = .failed) ∧
    (first.result = .ok () → first.stop = .ready) ∧
    (∀ call ∈ first.inner, ∃ phase happening answer, phase ≠ .idle ∧
      (⟨.announce phase happening, answer⟩ : Exchange) ∈ first.asked ∧ call = .again phase) ∧
    stop = first.stop ∧ ∀ call ∈ later, call = .again stop := by
  cases called with
  | @more _ middle _ asked inner _ result goes heard onward =>
    obtain ⟨-, ended, -⟩ := ensureReady_leads goes
    have begun : middle ≠ .idle := by
      rintro rfl
      rcases ended with h | h <;> cases h
    obtain ⟨rfl, each⟩ := onward.eq_again begun
    refine ⟨ended, ?_, ?_, rfl, each⟩
    · intro ok
      have ok : result = .ok () := ok
      exact ensureReady_ready (ok ▸ goes)
    · intro call among
      have told : ∀ e ∈ asked, ∀ phase happening, e.request = .announce phase happening →
          phase ≠ .idle := by
        rintro ⟨_, answer⟩ mem phase happening rfl
        exact ensureReady_begun goes mem
      obtain ⟨phase, happening, answer, mem, same⟩ := heard.eq_again told call among
      exact ⟨phase, happening, answer, told _ mem phase happening rfl, mem, same⟩

section Existence

theorem goes_again (begun : phase ≠ .idle) :
    Goes reconciler.ensureReady phase (Call.again phase).asked (Call.again phase).result phase := by
  rw [Goes, reconciler.ensureReady_again begun, Call.again]
  split
  · exact runs_ask_iff.mpr ⟨(), [], rfl, .done _⟩
  · exact .done _

theorem calledDuring_nobody (asked : List Exchange) : CalledDuring reconciler asked [] := by
  induction asked with
  | nil => exact .ended
  | cons exchange rest ih => exact .unheard ih

theorem calledFrom_again (begun : phase ≠ .idle) (times : Nat) :
    CalledFrom reconciler phase (List.replicate times (.again phase)) phase := by
  have made : Call.again phase =
      .made phase (Call.again phase).asked [] (Call.again phase).result phase := by
    rw [Call.again]
    split <;> rfl
  induction times with
  | zero => exact .ended
  | succ times ih =>
    rw [List.replicate_succ, made]
    exact .more (goes_again begun) (calledDuring_nobody _) (made ▸ ih)

/-- The calls of a callback that calls so many times whenever it hears of something. -/
def callingBack (times : Nat) (exchange : Exchange) : List Call :=
  match exchange.request with
  | .announce phase _ => List.replicate times (.again phase)
  | _ => []

theorem calledDuring_callingBack (times : Nat)
    (begun : ∀ e ∈ asked, ∀ phase happening, e.request = .announce phase happening →
      phase ≠ .idle) :
    CalledDuring reconciler asked (asked.flatMap (callingBack times)) := by
  induction asked with
  | nil => exact .ended
  | cons exchange rest ih =>
    obtain ⟨here, others⟩ := List.forall_mem_cons.mp begun
    obtain ⟨request, answer⟩ := exchange
    rw [List.flatMap_cons]
    cases request with
    | announce phase happening =>
      exact .heard (calledFrom_again (here phase happening rfl) times) (ih others)
    | _ => exact .unheard (ih others)

/-- However the surroundings answer, and however often it is called again from within and after the
run, every call comes to an end. -/
theorem exists_calledFrom (reconciler : Reconciler)
    (answer : List Exchange → (r : Request) → r.Answer) (within after : Nat) :
    let run := Program.follow answer (reconciler.ensureReady.run.run .idle) []
    CalledFrom reconciler .idle (.made .idle run.1 (run.1.flatMap (callingBack within)) run.2.1
      run.2.2 :: List.replicate after (.again run.2.2)) run.2.2 := by
  intro run
  have goes : Goes reconciler.ensureReady .idle run.1 run.2.1 run.2.2 := goes_follow _ _ _ _
  obtain ⟨-, ended, -⟩ := ensureReady_leads goes
  have begun : run.2.2 ≠ .idle := by
    intro idle
    rw [idle] at ended
    rcases ended with h | h <;> cases h
  refine .more goes (calledDuring_callingBack within ?_) (calledFrom_again begun after)
  rintro ⟨_, answer⟩ mem phase happening rfl
  exact ensureReady_begun goes mem

end Existence

/-- A callback that calls again twice at every event of a run, with two calls more at the end. -/
theorem ensureReady_single_shot_obliged :
    let run := Program.follow (fun _ => obliging ["orders"])
      (ordersOnly.ensureReady.run.run .idle) []
    let inner := run.1.flatMap (callingBack 2)
    let first := Call.made .idle run.1 inner run.2.1 run.2.2
    CalledFrom ordersOnly .idle [first, .again .ready, .again .ready] .ready ∧
      first.stop = .ready ∧ inner.length = 14 ∧
      ∀ call ∈ inner, ∃ phase happening answer, phase ≠ .idle ∧
        (⟨.announce phase happening, answer⟩ : Exchange) ∈ run.1 ∧ call = .again phase := by
  intro run inner first
  have ended : run.2.2 = .ready := by decide +kernel
  have called : CalledFrom ordersOnly .idle [first, .again run.2.2, .again run.2.2] run.2.2 :=
    exists_calledFrom ordersOnly (fun _ => obliging ["orders"]) 2 2
  obtain ⟨-, -, each, -⟩ := ensureReady_single_shot called
  have counted : inner.length = 14 := by decide +kernel
  exact ⟨ended ▸ called, ended, counted, each⟩

end Reconciler

end ClusterReadiness
