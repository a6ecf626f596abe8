import ClusterReadiness.Proofs.Reconciler.ClosedForm

/-!
# Surroundings that answer by number

A timetable fixes what each call of a port, each sleep and each question for a shutdown is answered
by how many calls and sleeps there were before. Nobody listens. Runs under one timetable are
compared by their calls and delays.
-/

namespace ClusterReadiness

/-- How many calls of each port there were, and how many sleeps. -/
structure Tally where
  creations : Nat
  listings : Nat
  probes : Nat
  sleeps : Nat

namespace Tally

def zero : Tally := ⟨0, 0, 0, 0⟩

def step (tally : Tally) : Request → Tally
  | .createTopics _ => { tally with creations := tally.creations + 1 }
  | .listTopics => { tally with listings := tally.listings + 1 }
  | .probe => { tally with probes := tally.probes + 1 }
  | .sleep _ => { tally with sleeps := tally.sleeps + 1 }
  | _ => tally

def after (tally : Tally) (trace : List Exchange) : Tally :=
  trace.foldl (fun tally exchange => tally.step exchange.request) tally

/-- No more of anything. -/
structure Upto (tally later : Tally) : Prop where
  creations : tally.creations ≤ later.creations
  listings : tally.listings ≤ later.listings
  probes : tally.probes ≤ later.probes
  sleeps : tally.sleeps ≤ later.sleeps

theorem Upto.trans {first second third : Tally} (before : first.Upto second)
    (onward : second.Upto third) : first.Upto third :=
  ⟨before.1.trans onward.1, before.2.trans onward.2, before.3.trans onward.3,
    before.4.trans onward.4⟩

end Tally

structure Timetable where
  create : Tally → Result Unit
  list : Tally → Result Listing
  probe : Tally → Result Bool
  sleep : Tally → Result Unit
  interrupted : Tally → Bool

namespace Timetable

/-- The answer to the next request, with what the clock shows. -/
def answer (timetable : Timetable) (tally : Tally) (time : Float) : (r : Request) → r.Answer
  | .createTopics _ => timetable.create tally
  | .listTopics => timetable.list tally
  | .probe => timetable.probe tally
  | .sleep _ => timetable.sleep tally
  | .isInterrupted => timetable.interrupted tally
  | .clock => time
  | .announce .. => Except.ok ()
  | .record .. => ()

/-- From the tally on everything is answered as the timetable says; the clock may show anything. -/
def Obeys (timetable : Timetable) : Tally → List Exchange → Prop
  | _, [] => True
  | tally, exchange :: rest =>
    (∃ time, exchange.answer = timetable.answer tally time exchange.request) ∧
      timetable.Obeys (tally.step exchange.request) rest

/-- Listings that succeed only grow, as far as these names go. -/
def Grows (timetable : Timetable) (names : List String) : Prop :=
  ∀ sooner later first next, (sooner.step .listTopics).Upto later →
    timetable.list sooner = .ok first → timetable.list later = .ok next →
      ∀ name ∈ names, name ∈ first → name ∈ next

/-- The listing was the answer to a request before. -/
def Showed (timetable : Timetable) (tally : Tally) (listing : Listing) : Prop :=
  ∃ sooner, (sooner.step .listTopics).Upto tally ∧ timetable.list sooner = .ok listing

end Timetable

section Obeying

variable {timetable : Timetable} {tally : Tally} {first rest trace : List Exchange}

@[simp] theorem Tally.after_nil : tally.after [] = tally := rfl

@[simp] theorem Tally.after_append : tally.after (first ++ rest) = (tally.after first).after rest :=
  List.foldl_append

theorem obeys_append_iff : timetable.Obeys tally (first ++ rest) ↔
    timetable.Obeys tally first ∧ timetable.Obeys (tally.after first) rest := by
  induction first generalizing tally with
  | nil => simp [Timetable.Obeys]
  | cons exchange first ih =>
    simp only [List.cons_append, Timetable.Obeys, ih, and_assoc]
    rfl

theorem Timetable.Obeys.left (obeys : timetable.Obeys tally (first ++ rest)) :
    timetable.Obeys tally first :=
  (obeys_append_iff.mp obeys).1

theorem Timetable.Obeys.right (obeys : timetable.Obeys tally (first ++ rest)) :
    timetable.Obeys (tally.after first) rest :=
  (obeys_append_iff.mp obeys).2

theorem Timetable.Obeys.head {request : Request} {answer : request.Answer}
    (obeys : timetable.Obeys tally (⟨request, answer⟩ :: rest)) :
    ∃ time, answer = timetable.answer tally time request :=
  obeys.1

theorem Timetable.Obeys.answered {exchange : Exchange} (obeys : timetable.Obeys tally trace)
    (mem : exchange ∈ trace) :
    ∃ turn time, exchange.answer = timetable.answer turn time exchange.request := by
  obtain ⟨before, after, rfl⟩ := List.append_of_mem mem
  exact ⟨_, obeys.right.head⟩

/-- Every program has a run under a timetable, whatever the clock shows. -/
theorem obeys_follow {α : Type} (timetable : Timetable) (time : Float) (program : Program α)
    (past : List Exchange) : timetable.Obeys (Tally.zero.after past) (Program.follow
      (fun past => timetable.answer (Tally.zero.after past) time) program past).1 := by
  induction program generalizing past with
  | done value => trivial
  | ask r next ih =>
    refine ⟨⟨time, rfl⟩, ?_⟩
    have onward := ih (timetable.answer (Tally.zero.after past) time r)
      (past ++ [⟨r, timetable.answer (Tally.zero.after past) time r⟩])
    rw [Tally.after_append] at onward
    exact onward

/-- The tally counts calls and delays. -/
theorem Tally.after_eq : tally.after trace =
    ⟨tally.creations + (callsOf Request.isCreation trace).length,
      tally.listings + (callsOf Request.isListing trace).length,
      tally.probes + (callsOf Request.isProbe trace).length,
      tally.sleeps + (delays trace).length⟩ := by
  induction trace generalizing tally with
  | nil => rfl
  | cons exchange rest ih =>
    obtain ⟨request, answer⟩ := exchange
    have step : tally.after (⟨request, answer⟩ :: rest) = (tally.step request).after rest := rfl
    rw [step, ih]
    cases request <;> simp [Tally.step, callsOf, Request.isCreation, Request.isListing,
      Request.isProbe, delays, Exchange.delay?, List.filterMap_cons, Nat.add_assoc,
      Nat.add_comm 1]

theorem Tally.upto_after : tally.Upto (tally.after trace) := by
  rw [after_eq]
  exact ⟨Nat.le_add_right _ _, Nat.le_add_right _ _, Nat.le_add_right _ _, Nat.le_add_right _ _⟩

/-- A listing request among the exchanges was answered in its turn. -/
theorem Timetable.Obeys.listed {answer : Result Listing} (obeys : timetable.Obeys tally trace)
    (mem : (⟨.listTopics, answer⟩ : Exchange) ∈ trace) :
    ∃ turn, tally.Upto turn ∧ (turn.step .listTopics).Upto (tally.after trace) ∧
      answer = timetable.list turn := by
  obtain ⟨before, after, rfl⟩ := List.append_of_mem mem
  obtain ⟨_, answered⟩ := obeys.right.head
  refine ⟨tally.after before, Tally.upto_after, ?_, answered⟩
  have onward : tally.after (before ++ ⟨.listTopics, answer⟩ :: after) =
      ((tally.after before).step .listTopics).after after := Tally.after_append
  rw [onward]
  exact Tally.upto_after

end Obeying

section Comparing

/-- The same numbers of calls, and the same delays. -/
structure Alike (first second : List Exchange) : Prop where
  created : (callsOf Request.isCreation first).length = (callsOf Request.isCreation second).length
  listed : (callsOf Request.isListing first).length = (callsOf Request.isListing second).length
  probed : (callsOf Request.isProbe first).length = (callsOf Request.isProbe second).length
  slept : delays first = delays second

variable {timetable : Timetable} {tally : Tally} {first second rest others trace : List Exchange}

theorem Alike.refl (trace : List Exchange) : Alike trace trace := ⟨rfl, rfl, rfl, rfl⟩

theorem Alike.append (before : Alike first second) (onward : Alike rest others) :
    Alike (first ++ rest) (second ++ others) where
  created := by simp [before.created, onward.created]
  listed := by simp [before.listed, onward.listed]
  probed := by simp [before.probed, onward.probed]
  slept := by simp [before.slept, onward.slept]

theorem Alike.after (alike : Alike first second) : tally.after first = tally.after second := by
  rw [Tally.after_eq, Tally.after_eq, alike.created, alike.listed, alike.probed, alike.slept]

/-- No call and no sleep among the exchanges. -/
def Idles (trace : List Exchange) : Prop := Alike trace []

theorem idles_nil : Idles [] := .refl []

theorem Idles.append (before : Idles first) (onward : Idles rest) : Idles (first ++ rest) :=
  Alike.append before onward

theorem Idles.alike (first_idles : Idles first) (rest_idles : Idles rest) : Alike first rest where
  created := first_idles.created.trans rest_idles.created.symm
  listed := first_idles.listed.trans rest_idles.listed.symm
  probed := first_idles.probed.trans rest_idles.probed.symm
  slept := first_idles.slept.trans rest_idles.slept.symm

theorem Idles.after (idles : Idles trace) : tally.after trace = tally := Alike.after idles

/-- What comes after idle exchanges is answered as if it came at once. -/
theorem Timetable.Obeys.past (obeys : timetable.Obeys tally (first ++ rest)) (idles : Idles first) :
    timetable.Obeys tally rest := by
  have onward := obeys.right
  rwa [idles.after] at onward

end Comparing

/-- Failures of the same class, and both raised by the user or neither. -/
structure Failure.Resembles (failure other : Failure) : Prop where
  name : failure.name = other.name
  raw : failure.isUserInterrupt = other.isUserInterrupt

/-- Both return the same, or both fail alike. -/
inductive Agree {α : Type} : Result α → Result α → Prop where
  | ok {value : α} : Agree (.ok value) (.ok value)
  | error {failure other : Failure} (resembles : failure.Resembles other) :
      Agree (.error failure) (.error other)

theorem Agree.refl {α : Type} (result : Result α) : Agree result result := by
  cases result with
  | ok value => exact .ok
  | error failure => exact .error ⟨rfl, rfl⟩

end ClusterReadiness
