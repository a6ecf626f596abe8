import ClusterReadiness.Proofs.Reconciler.Lockstep

/-!
# The order of declarations

Two reconcilers declare the same topics in different orders. Under one timetable, whose listings
only grow on these topics, their runs make the same calls and rest for the same delays: the topics
are waited for one after the other, but what is waited for in the end is that all of them are listed.
-/

namespace ClusterReadiness

namespace Reconciler

variable {reconciler other : Reconciler} {timetable : Timetable} {tally : Tally}
  {start stop stop' phase : Phase} {trace trace' : List Exchange} {poll after after' : PollState}
  {names names' : List String} {listing : Listing}

section Gathering

/-- A round of waiting for a topic, and the listing after it. -/
inductive Looks (reconciler : Reconciler) (phase : Phase) (name : String) (poll : PollState) :
    List Exchange → Result Listing → PollState → Prop where
  | stopped {trace : List Exchange} {failure : Failure} {after : PollState}
      (waits : Waits reconciler.wait phase .verifyingTopics (some name) (.topicNotReady name) poll
        trace (.error failure) after) :
      Looks reconciler phase name poll trace (.error failure) after
  | asked {waited asked : List Exchange} {result : Result Listing} {after : PollState}
      (waits : Waits reconciler.wait phase .verifyingTopics (some name) (.topicNotReady name) poll
        waited (.ok ()) after)
      (goes : Goes reconciler.listTopics phase asked result phase) :
      Looks reconciler phase name poll (waited ++ asked) result after

theorem Looks.alike {name name' : String} {fetched fetched' : Result Listing}
    (first : Looks reconciler phase name poll trace fetched after)
    (second : Looks other phase name' poll trace' fetched' after')
    (wait : other.wait = reconciler.wait) (retry : other.retry = reconciler.retry)
    (obeys : timetable.Obeys tally trace) (obeys' : timetable.Obeys tally trace') :
    Alike trace trace' ∧ Agree fetched fetched' ∧ after = after' := by
  have late : ∀ attempt, (Failure.of (.topicNotReady name attempt)).Resembles
      (.of (.topicNotReady name' attempt)) := fun _ => ⟨rfl, rfl⟩
  cases first with
  | stopped waits =>
    cases second with
    | stopped waits' =>
      rw [wait] at waits'
      obtain ⟨alike, agree, rfl⟩ := waits.alike waits' late obeys obeys'
      cases agree with
      | error resembles => exact ⟨alike, .error resembles, rfl⟩
    | asked waits' =>
      rw [wait] at waits'
      cases (waits.alike waits' late obeys obeys'.left).2.1
  | asked waits goes =>
    cases second with
    | stopped waits' =>
      rw [wait] at waits'
      cases (waits.alike waits' late obeys.left obeys').2.1
    | asked waits' goes' =>
      rw [wait] at waits'
      obtain ⟨alike, -, rfl⟩ := waits.alike waits' late obeys.left obeys'.left
      have onward := obeys'.right
      rw [← alike.after] at onward
      obtain ⟨same, agree, -⟩ :=
        listTopics_paired retry goes goes' obeys.right onward
      exact ⟨alike.append same, agree, rfl⟩

/-- Taking listings until one holds all the names, from a given one on. Each look is for one of the
names that are missing, and idle exchanges may precede it. -/
inductive Gathers (reconciler : Reconciler) (phase : Phase) (names : List String) :
    PollState → Listing → List Exchange → Result Unit → PollState → Prop where
  | complete {poll : PollState} {listing : Listing} {seen : List Exchange} (quiet : Idles seen)
      (all : ∀ name ∈ names, name ∈ listing) :
      Gathers reconciler phase names poll listing seen (.ok ()) poll
  | stopped {name : String} {poll after : PollState} {listing : Listing}
      {seen looked : List Exchange} {failure : Failure} (quiet : Idles seen)
      (among : name ∈ names) (missing : name ∉ listing)
      (looks : Looks reconciler phase name poll looked (.error failure) after) :
      Gathers reconciler phase names poll listing (seen ++ looked) (.error failure) after
  | again {name : String} {poll between after : PollState} {listing next : Listing}
      {seen looked rest : List Exchange} {result : Result Unit} (quiet : Idles seen)
      (among : name ∈ names) (missing : name ∉ listing)
      (looks : Looks reconciler phase name poll looked (.ok next) between)
      (more : Gathers reconciler phase names between next rest result after) :
      Gathers reconciler phase names poll listing (seen ++ looked ++ rest) result after

variable {first rest : List Exchange} {result result' : Result Unit}

theorem Gathers.quiet_append (quiet : Idles first)
    (gathers : Gathers reconciler phase names poll listing rest result after) :
    Gathers reconciler phase names poll listing (first ++ rest) result after := by
  cases gathers with
  | complete more all => exact .complete (quiet.append more) all
  | stopped more among missing looks =>
    rw [← List.append_assoc]
    exact .stopped (quiet.append more) among missing looks
  | again more among missing looks onward =>
    simp only [← List.append_assoc]
    exact .again (quiet.append more) among missing looks onward

/-- Which of the missing names is waited for makes no difference: a listing is taken again as long
as any name is missing. -/
theorem Gathers.alike (first : Gathers reconciler phase names poll listing trace result after)
    (second : Gathers other phase names' poll listing trace' result' after')
    (same : ∀ name, name ∈ names ↔ name ∈ names') (wait : other.wait = reconciler.wait)
    (retry : other.retry = reconciler.retry) (obeys : timetable.Obeys tally trace)
    (obeys' : timetable.Obeys tally trace') : Alike trace trace' ∧ Agree result result' := by
  induction first generalizing tally trace' result' after' with
  | complete quiet all =>
    cases second with
    | complete quiet' => exact ⟨quiet.alike quiet', .ok⟩
    | stopped _ among missing | again _ among missing =>
      exact absurd (all _ ((same _).mpr among)) missing
  | stopped quiet among missing looks =>
    cases second with
    | complete _ all => exact absurd (all _ ((same _).mp among)) missing
    | stopped quiet' _ _ looks' =>
      obtain ⟨alike, agree, -⟩ :=
        looks.alike looks' wait retry (obeys.past quiet) (obeys'.past quiet')
      cases agree with
      | error resembles => exact ⟨(quiet.alike quiet').append alike, .error resembles⟩
    | again quiet' _ _ looks' =>
      obtain ⟨-, agree, -⟩ :=
        looks.alike looks' wait retry (obeys.past quiet) (obeys'.left.past quiet')
      cases agree
  | again quiet among missing looks more ih =>
    cases second with
    | complete _ all => exact absurd (all _ ((same _).mp among)) missing
    | stopped quiet' _ _ looks' =>
      obtain ⟨-, agree, -⟩ :=
        looks.alike looks' wait retry (obeys.left.past quiet) (obeys'.past quiet')
      cases agree
    | again quiet' _ _ looks' more' =>
      obtain ⟨alike, agree, rfl⟩ :=
        looks.alike looks' wait retry (obeys.left.past quiet) (obeys'.left.past quiet')
      cases agree
      have looked := (quiet.alike quiet').append alike
      have onward := obeys'.right
      rw [← looked.after] at onward
      obtain ⟨others, agree⟩ := ih more' obeys.right onward
      exact ⟨looked.append others, agree⟩

theorem AwaitsTopic.gathers_failed {name : String} {failure : Failure} (among : name ∈ names)
    (awaits : AwaitsTopic reconciler phase name poll listing trace (.error failure) after) :
    Gathers reconciler phase names poll listing trace (.error failure) after := by
  generalize failed : Except.error failure = result at awaits
  induction awaits with
  | present => cases failed
  | stopped missing waits =>
    cases failed
    exact .stopped idles_nil among missing (.stopped waits)
  | unlisted missing waits goes =>
    cases failed
    simpa using Gathers.stopped idles_nil among missing (.asked waits goes)
  | again missing waits goes more ih =>
    simpa using Gathers.again idles_nil among missing (.asked waits goes) (ih failed)

/-- What is gathered from the listing that shows one topic on is gathered from the first. -/
theorem AwaitsTopic.gathers {name : String} {next : Listing} {between : PollState}
    (among : name ∈ names)
    (awaits : AwaitsTopic reconciler phase name poll listing trace (.ok next) between)
    (onward : Gathers reconciler phase names between next rest result after) :
    Gathers reconciler phase names poll listing (trace ++ rest) result after := by
  generalize shown : Except.ok next = fetched at awaits
  induction awaits with
  | present =>
    cases shown
    exact onward
  | again missing waits goes more ih =>
    simpa using Gathers.again idles_nil among missing (.asked waits goes) (ih onward shown)
  | _ => cases shown

theorem AwaitsTopic.keeps {name : String} {next : Listing} (grows : timetable.Grows names)
    (awaits : AwaitsTopic reconciler phase name poll listing trace (.ok next) after)
    (obeys : timetable.Obeys tally trace) (showed : timetable.Showed tally listing) :
    timetable.Showed (tally.after trace) next ∧
      ∀ name ∈ names, name ∈ listing → name ∈ next := by
  obtain ⟨sooner, upto, listed⟩ := showed
  obtain ⟨-, rfl | mem⟩ := awaits.listed
  · exact ⟨⟨sooner, upto.trans Tally.upto_after, listed⟩, fun _ _ given => given⟩
  · obtain ⟨turn, later, before, answered⟩ := obeys.listed mem
    exact ⟨⟨turn, before, answered.symm⟩, grows _ _ _ _ (upto.trans later) listed answered.symm⟩

/-- Topics awaited one after the other are gathered: where listings only grow, what was shown once
need not be looked for again. -/
theorem AwaitsTopics.gathers {specs : List TopicSpec} (grows : timetable.Grows names)
    (awaits : AwaitsTopics reconciler phase specs poll listing trace result after)
    (obeys : timetable.Obeys tally trace) (showed : timetable.Showed tally listing)
    (declared : ∀ spec ∈ specs, spec.name ∈ names)
    (known : ∀ name ∈ names, name ∈ listing ∨ ∃ spec ∈ specs, spec.name = name) :
    Gathers reconciler phase names poll listing trace result after := by
  induction awaits generalizing tally with
  | done => exact .complete idles_nil fun name mem => by simpa using known name mem
  | stopped awaits => exact awaits.gathers_failed (declared _ (.head _))
  | untold awaits =>
    obtain ⟨-, ⟨_, told⟩, -⟩ := obeys.right
    cases told
  | @seen spec others _ between _ _ next _ _ message _ awaits onward ih =>
    obtain ⟨showed, kept⟩ := awaits.keeps grows obeys.left.left showed
    have news : Idles [logged .info message, ⟨.announce phase
        (.topicVisible spec.name between.attempt), .ok ()⟩] := ⟨rfl, rfl, rfl, rfl⟩
    have answered := obeys.right
    rw [Tally.after_append, news.after] at answered
    rw [List.append_assoc]
    refine awaits.gathers (declared _ (.head _)) (.quiet_append news (ih answered showed ?_ ?_))
    · exact fun spec mem => declared spec (.tail _ mem)
    · intro name mem
      rcases known name mem with given | ⟨spec, among, rfl⟩
      · exact .inl (kept name mem given)
      · rcases List.mem_cons.mp among with rfl | among
        · exact .inl awaits.listed.1
        · exact .inr ⟨spec, among, rfl⟩

end Gathering

section Runs

variable (same : reconciler.topics.Perm other.topics) (wait : other.wait = reconciler.wait)
  (retry : other.retry = reconciler.retry) (grows : timetable.Grows reconciler.topicNames)
include same wait retry grows

/-- Whatever the order of the topics, a verification lists until all of them are there. -/
theorem verifyTopics_paired :
    Paired timetable (reconciler.fresh reconciler.verifyTopics)
      (other.fresh other.verifyTopics) start := by
  intro tally t t' result result' stop stop' goes goes' obeys obeys'
  obtain ⟨after, polls⟩ := goes_fresh_iff.mp goes
  obtain ⟨after', polls'⟩ := goes_fresh_iff.mp goes'
  rw [wait] at polls'
  have named : ∀ name, name ∈ reconciler.topicNames ↔ name ∈ other.topicNames :=
    fun name => (same.map TopicSpec.name).mem_iff
  have grows' : timetable.Grows other.topicNames :=
    fun sooner later first next upto listed relisted name among =>
      grows sooner later first next upto listed relisted name ((named name).mpr among)
  obtain ⟨rfl, ended⟩ := polls_verifyTopics polls
  obtain ⟨rfl, ended'⟩ := polls_verifyTopics polls'
  rcases ended with ⟨failure, lists, rfl, rfl⟩ | ⟨asked, listing, rest, lists, awaits, rfl⟩
  · rcases ended' with
      ⟨failure', lists', rfl, rfl⟩ | ⟨asked', listing', rest', lists', awaits', rfl⟩
    · obtain ⟨alike, agree, -⟩ := listTopics_paired retry lists lists' obeys obeys'
      cases agree with
      | error resembles => exact ⟨alike, .error resembles, rfl⟩
    · cases (listTopics_paired retry lists lists' obeys obeys'.left).2.1
  · rcases ended' with
      ⟨failure', lists', rfl, rfl⟩ | ⟨asked', listing', rest', lists', awaits', rfl⟩
    · cases (listTopics_paired retry lists lists' obeys.left obeys').2.1
    · obtain ⟨alike, agree, -⟩ :=
        listTopics_paired retry lists lists' obeys.left obeys'.left
      cases agree
      have onward := obeys'.right
      rw [← alike.after] at onward
      obtain ⟨turn, -, upto, answered⟩ := obeys.left.listed (listTopics_returned lists)
      have showed : timetable.Showed (tally.after asked) listing := ⟨turn, upto, answered.symm⟩
      have declared : ∀ (topics : List TopicSpec), ∀ spec ∈ topics,
          spec.name ∈ topics.map (·.name) :=
        fun topics spec mem => List.mem_map.mpr ⟨spec, mem, rfl⟩
      have gathers := awaits.gathers grows obeys.right showed (declared _)
        fun name mem => .inr (List.mem_map.mp mem)
      have gathers' := awaits'.gathers grows' onward showed (declared _)
        fun name mem => .inr (List.mem_map.mp mem)
      obtain ⟨others, agree⟩ := gathers.alike gathers' named wait retry obeys.right onward
      exact ⟨alike.append others, agree, rfl⟩

theorem workPhases_paired : Paired timetable reconciler.workPhases other.workPhases start := by
  intro tally t t' result result' stop stop' goes goes' obeys obeys'
  have last : List.Forall₂ (fun stage stage' => stage.1 = stage'.1 ∧
      Paired timetable stage.2 stage'.2 stage.1) reconciler.lastStages other.lastStages := by
    refine .cons ⟨rfl, verifyRegistry_paired wait⟩ (.cons ⟨rfl, ?_⟩ .nil)
    intro tally t t' result result' stop stop' goes goes' _ _
    obtain ⟨rfl, rfl, rfl⟩ := goes_pure_iff.mp goes
    obtain ⟨rfl, rfl, rfl⟩ := goes_pure_iff.mp goes'
    exact ⟨.refl [], .ok, rfl⟩
  rcases goes_workPhases goes with ⟨empty, message, rest, rfl, run⟩ | ⟨declared, run⟩
  · rw [empty] at same
    rcases goes_workPhases goes' with ⟨-, message', rest', rfl, run'⟩ | ⟨declared', -⟩
    · obtain ⟨alike, agree, rfl⟩ := run.alike run' last obeys.2 obeys'.2
      have line : Alike [logged .info message] [logged .info message'] := ⟨rfl, rfl, rfl, rfl⟩
      exact ⟨line.append alike, agree, rfl⟩
    · exact absurd same.nil_eq.symm declared'
  · rcases goes_workPhases goes' with ⟨empty', -⟩ | ⟨-, run'⟩
    · rw [empty'] at same
      exact absurd same.eq_nil declared
    · refine run.alike run' ?_ obeys obeys'
      exact .cons ⟨rfl, createTopics_paired retry⟩
        (.cons ⟨rfl, verifyTopics_paired same wait retry grows⟩ last)

theorem bootstraps_alike {result result' : Result Unit}
    (first : Bootstraps reconciler trace result stop)
    (second : Bootstraps other trace' result' stop') (obeys : timetable.Obeys tally trace)
    (obeys' : timetable.Obeys tally trace') :
    Alike trace trace' ∧ Agree result result' ∧ stop = stop' := by
  have paired : Paired timetable reconciler.workPhases other.workPhases .idle :=
    workPhases_paired same wait retry grows
  have begun (time time' : Float) : Alike [⟨.clock, time⟩] [⟨.clock, time'⟩] :=
    ⟨rfl, rfl, rfl, rfl⟩
  cases first with
  | @failed started work closing failure phase _ told goes fails =>
    obtain ⟨closes, rfl, rfl⟩ := fail_idles fails obeys.right
    cases second with
    | failed goes' fails' =>
      obtain ⟨closes', rfl, rfl⟩ := fail_idles fails' obeys'.right
      obtain ⟨alike, agree, rfl⟩ := paired goes goes' obeys.left.2 obeys'.left.2
      cases agree with
      | error resembles =>
        exact ⟨((begun _ _).append alike).append (closes.alike closes'),
          .error (raisedAs_resembles resembles), rfl⟩
    | ready goes' => cases (paired goes goes' obeys.left.2 obeys'.left.2).2.1
  | ready goes =>
    cases second with
    | failed goes' => cases (paired goes goes' obeys.left.2 obeys'.left.2).2.1
    | ready goes' =>
      obtain ⟨alike, -, rfl⟩ := paired goes goes' obeys.left.2 obeys'.left.2
      obtain ⟨-, -, ⟨_, told⟩, -⟩ := obeys.right
      obtain ⟨-, -, ⟨_, told'⟩, -⟩ := obeys'.right
      obtain rfl : result = result' := told.trans told'.symm
      exact ⟨((begun _ _).append alike).append ⟨rfl, rfl, rfl, rfl⟩, .refl _, rfl⟩

end Runs

/-- Every run under a timetable can be had. -/
theorem exists_obeying (reconciler : Reconciler) (timetable : Timetable) :
    ∃ trace result stop, Goes reconciler.ensureReady .idle trace result stop ∧
      timetable.Obeys .zero trace :=
  ⟨_, _, _, goes_follow _ _ _ [], obeys_follow timetable 0 _ []⟩

/-- The order in which topics are declared does not matter where listings only grow: whatever fails
by its number, both runs make as many calls of each port and rest for the same delays, and they end
in the same phase, ready or with failures of the same class. -/
theorem ensureReady_order_free (same : reconciler.topics.Perm other.topics)
    (wait : other.wait = reconciler.wait) (retry : other.retry = reconciler.retry)
    (grows : timetable.Grows reconciler.topicNames) :
    (∃ trace result stop, Goes reconciler.ensureReady .idle trace result stop ∧
      timetable.Obeys .zero trace) ∧
    (∃ trace result stop, Goes other.ensureReady .idle trace result stop ∧
      timetable.Obeys .zero trace) ∧
    ∀ trace trace' result result' stop stop',
      Goes reconciler.ensureReady .idle trace result stop → timetable.Obeys .zero trace →
      Goes other.ensureReady .idle trace' result' stop' → timetable.Obeys .zero trace' →
      Alike trace trace' ∧ stop = stop' ∧ ((result = .ok () ∧ result' = .ok ()) ∨
        ∃ failure failure', result = .error failure ∧ result' = .error failure' ∧
          failure.name = failure'.name) := by
  refine ⟨exists_obeying reconciler timetable, exists_obeying other timetable, ?_⟩
  intro trace trace' result result' stop stop' goes obeys goes' obeys'
  obtain ⟨alike, agree, rfl⟩ := bootstraps_alike same wait retry grows (goes_ensureReady goes)
    (goes_ensureReady goes') obeys obeys'
  refine ⟨alike, rfl, ?_⟩
  cases agree with
  | ok => exact .inl ⟨rfl, rfl⟩
  | error resembles => exact .inr ⟨_, _, rfl, rfl, resembles.name⟩

/-- The first creation and the first listing time out, and then the topics show up one by one. -/
def hesitant : Timetable where
  create tally := if tally.creations = 0 then .error (.of (.timeout "")) else .ok ()
  list tally :=
    if tally.listings = 0 then .error (.of (.timeout ""))
    else .ok (["payments", "orders"].take (tally.listings - 1))
  probe tally := .ok (0 < tally.probes)
  sleep _ := .ok ()
  interrupted _ := false

theorem hesitant_grows (names : List String) : hesitant.Grows names := by
  intro sooner later first next upto listed relisted name _ given
  have later_gt : sooner.listings + 1 ≤ later.listings := upto.listings
  simp only [hesitant] at listed relisted
  split at listed <;> split at relisted <;> cases listed <;> cases relisted
  exact (List.take_prefix_take_left (by omega)).subset given

/-- Whichever topic is declared first, it takes four listings and five rests to be ready. -/
theorem ensureReady_order_free_hesitant :
    let reconciler : Reconciler := ⟨ordersOnly.topics ++ [payments], .default, .default⟩
    let other : Reconciler := ⟨[payments] ++ ordersOnly.topics, .default, .default⟩
    reconciler.topics.Perm other.topics ∧ other.wait = reconciler.wait ∧
    other.retry = reconciler.retry ∧ hesitant.Grows reconciler.topicNames ∧
    ∃ trace trace' result result' stop stop',
      Goes reconciler.ensureReady .idle trace result stop ∧ hesitant.Obeys .zero trace ∧
      Goes other.ensureReady .idle trace' result' stop' ∧ hesitant.Obeys .zero trace' ∧
      Alike trace trace' ∧ stop = stop' ∧ ((result = .ok () ∧ result' = .ok ()) ∨
        ∃ failure failure', result = .error failure ∧ result' = .error failure' ∧
          failure.name = failure'.name) ∧
      (callsOf Request.isListing trace).length = 4 ∧ (delays trace).length = 5 ∧
      stop = .ready := by
  intro reconciler other
  have same : reconciler.topics.Perm other.topics := List.perm_append_comm
  let answer (past : List Exchange) := hesitant.answer (Tally.zero.after past) 0
  let run := Program.follow answer (reconciler.ensureReady.run.run .idle) []
  let run' := Program.follow answer (other.ensureReady.run.run .idle) []
  have obeys : hesitant.Obeys .zero run.1 := obeys_follow hesitant 0 _ []
  have obeys' : hesitant.Obeys .zero run'.1 := obeys_follow hesitant 0 _ []
  have goes : Goes reconciler.ensureReady .idle run.1 run.2.1 run.2.2 := runs_follow _ _ _
  have goes' : Goes other.ensureReady .idle run'.1 run'.2.1 run'.2.2 := runs_follow _ _ _
  obtain ⟨alike, ended, outcome⟩ := (ensureReady_order_free same rfl rfl
    (hesitant_grows _)).2.2 _ _ _ _ _ _ goes obeys goes' obeys'
  exact ⟨same, rfl, rfl, hesitant_grows _, _, _, _, _, _, _, goes, obeys, goes', obeys', alike,
    ended, outcome, by decide +kernel, by decide +kernel, by decide +kernel⟩

end Reconciler

end ClusterReadiness
