import ClusterReadiness.Program
import Mathlib.Tactic.Common

/-!
# Runs of programs

A run is taken apart at its first request, and at the seam of two programs in sequence. Every
program has a run under every way of answering, which `follow` computes, so that a statement about
all runs is never about none.
-/

namespace ClusterReadiness

instance decidableEqExcept {ε α : Type} [DecidableEq ε] [DecidableEq α] :
    DecidableEq (Except ε α)
  | .error e, .error e' => decidable_of_iff (e = e') ⟨congrArg Except.error, Except.error.inj⟩
  | .ok a, .ok a' => decidable_of_iff (a = a') ⟨congrArg Except.ok, Except.ok.inj⟩
  | .error _, .ok _ | .ok _, .error _ => isFalse fun h => by cases h

variable {α β : Type}

theorem runs_done_iff {value result : α} {trace : List Exchange} :
    Runs (.done value) trace result ↔ trace = [] ∧ result = value := by
  constructor
  · intro run
    cases run
    exact ⟨rfl, rfl⟩
  · rintro ⟨rfl, rfl⟩
    exact .done _

theorem runs_ask_iff {r : Request} {next : r.Answer → Program α} {trace : List Exchange}
    {result : α} : Runs (.ask r next) trace result ↔
      ∃ answer rest, trace = ⟨r, answer⟩ :: rest ∧ Runs (next answer) rest result := by
  constructor
  · intro run
    cases run with
    | ask answer rest => exact ⟨answer, _, rfl, rest⟩
  · rintro ⟨answer, rest, rfl, run⟩
    exact .ask answer run

/-- One request, and its answer made into the value. -/
theorem runs_ask_done_iff {r : Request} {f : r.Answer → α} {trace : List Exchange} {result : α} :
    Runs (.ask r fun answer => .done (f answer)) trace result ↔
      ∃ answer, trace = [⟨r, answer⟩] ∧ result = f answer := by
  rw [runs_ask_iff]
  constructor
  · rintro ⟨answer, rest, rfl, run⟩
    obtain ⟨rfl, rfl⟩ := runs_done_iff.mp run
    exact ⟨answer, rfl, rfl⟩
  · rintro ⟨answer, rfl, rfl⟩
    exact ⟨answer, [], rfl, .done _⟩

theorem runs_request_iff {r : Request} {trace : List Exchange} {answer : r.Answer} :
    Runs (Program.request r) trace answer ↔ trace = [⟨r, answer⟩] := by
  constructor
  · intro run
    obtain ⟨_, rfl, rfl⟩ := runs_ask_done_iff.mp run
    rfl
  · rintro rfl
    exact runs_ask_done_iff.mpr ⟨answer, rfl, rfl⟩

/-- The runs of a sequence are the runs of its parts, put together. -/
theorem runs_bind_iff {program : Program α} {next : α → Program β} {trace : List Exchange}
    {result : β} : Runs (program >>= next) trace result ↔
      ∃ first value rest, Runs program first value ∧ Runs (next value) rest result ∧
        trace = first ++ rest := by
  induction program generalizing trace with
  | done value => simp [runs_done_iff]
  | ask r go ih =>
    rw [Program.ask_bind, runs_ask_iff]
    constructor
    · rintro ⟨answer, rest, rfl, run⟩
      obtain ⟨first, value, last, hfirst, hlast, rfl⟩ := (ih answer).mp run
      exact ⟨_, value, last, .ask answer hfirst, hlast, rfl⟩
    · rintro ⟨first, value, last, hfirst, hlast, rfl⟩
      obtain ⟨answer, rest, rfl, run⟩ := runs_ask_iff.mp hfirst
      exact ⟨answer, rest ++ last, rfl, (ih answer).mpr ⟨rest, value, last, run, hlast, rfl⟩⟩

namespace Program

theorem id_map (program : Program α) : id <$> program = program := by
  induction program with
  | done value => rfl
  | ask r next ih => exact congrArg (ask r) (funext ih)

theorem bind_assoc {γ : Type} (program : Program α) (f : α → Program β) (g : β → Program γ) :
    program >>= f >>= g = program >>= fun value => f value >>= g := by
  induction program with
  | done value => rfl
  | ask r next ih => exact congrArg (ask r) (funext ih)

/-- What follows a program matters only for the values that it may end with. -/
theorem bind_congr_of_runs {program : Program α} {f g : α → Program β}
    (same : ∀ trace value, Runs program trace value → f value = g value) :
    program >>= f = program >>= g := by
  induction program with
  | done value => exact same [] value (.done value)
  | ask r next ih =>
    rw [ask_bind, ask_bind]
    refine congrArg (ask r) (funext fun answer => ih answer fun trace value run => ?_)
    exact same _ value (.ask answer run)

instance : LawfulMonad Program := LawfulMonad.mk' Program id_map (fun _ _ => rfl) bind_assoc

/-- The run in which every request is answered in view of the exchanges before it. -/
def follow (answer : List Exchange → (r : Request) → r.Answer) :
    Program α → List Exchange → List Exchange × α
  | done value, _ => ([], value)
  | ask r next, past =>
    let exchange : Exchange := ⟨r, answer past r⟩
    let (trace, value) := follow answer (next (answer past r)) (past ++ [exchange])
    (exchange :: trace, value)

section Watching

variable {m : Type → Type} [Monad m]

/-- Runs a program with the answers a handler gives, and keeps what was exchanged. -/
def watch (handle : (r : Request) → m r.Answer) : Program α → m (List Exchange × α)
  | done value => pure ([], value)
  | ask r next => do
    let answer ← handle r
    let (trace, value) ← watch handle (next answer)
    return (⟨r, answer⟩ :: trace, value)

end Watching

end Program

/-- What is watched in some world is a run. -/
theorem runs_watch {σ : Type} (handle : (r : Request) → StateM σ r.Answer) (program : Program α)
    (world : σ) : Runs program ((program.watch handle).run world).1.1
      ((program.watch handle).run world).1.2 := by
  induction program generalizing world with
  | done value => exact .done value
  | ask r next ih =>
    exact .ask ((handle r).run world).1 (ih ((handle r).run world).1 ((handle r).run world).2)

theorem runs_follow (answer : List Exchange → (r : Request) → r.Answer) (past : List Exchange)
    (program : Program α) :
    Runs program (Program.follow answer program past).1 (Program.follow answer program past).2 := by
  induction program generalizing past with
  | done value => exact .done value
  | ask r next ih => exact .ask _ (ih (answer past r) _)

/-- Every request of such a run was answered in view of what came before it. -/
theorem Program.answer_of_follow_eq {answer : List Exchange → (r : Request) → r.Answer}
    {program : Program α} {past before after : List Exchange} {exchange : Exchange}
    (split : (follow answer program past).1 = before ++ exchange :: after) :
    exchange.answer = answer (past ++ before) exchange.request := by
  induction program generalizing past before with
  | done value => simp [follow] at split
  | ask r next ih =>
    cases before with
    | nil =>
      obtain ⟨rfl, -⟩ := List.cons.inj split
      rw [List.append_nil]
    | cons first before =>
      obtain ⟨rfl, rest⟩ := List.cons.inj split
      rw [ih _ rest, List.append_assoc]
      rfl

/-- Surroundings without a memory answer the same request alike wherever it stands. -/
theorem Program.answer_of_mem_follow {answers : (r : Request) → r.Answer} {program : Program α}
    {past : List Exchange} : ∀ e ∈ (follow (fun _ => answers) program past).1,
    e.answer = answers e.request := by
  induction program generalizing past with
  | done value => exact fun _ mem => by cases mem
  | ask r next ih => exact List.forall_mem_cons.mpr ⟨rfl, ih _⟩

end ClusterReadiness
