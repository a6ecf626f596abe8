import ClusterReadiness.Proofs.Reconciler.Schedules
import ClusterReadiness.Proofs.Reconciler.Stages

/-!
# The shared budget of the topic phase

All topics are waited for with one budget. With listings that come as they like, the phase succeeds
exactly if the topics can be found one after the other within the budget, and it is then done as
early as it can be.
-/

namespace ClusterReadiness

section Tallies

variable {exchange : Exchange} {trace first rest : List Exchange}

/-- The listing that an exchange returned, if it did return one. -/
def Exchange.listing? : Exchange → Option Listing
  | ⟨.listTopics, .ok listing⟩ => some listing
  | _ => none

def Exchange.isListingFailure : Exchange → Bool
  | ⟨.listTopics, .error _⟩ => true
  | _ => false

def Exchange.isSleep : Exchange → Bool
  | ⟨.sleep _, _⟩ => true
  | _ => false

/-- Neither a sleep nor an announcement that fails. -/
def Exchange.Smooth : Exchange → Prop
  | ⟨.sleep _, .error _⟩ | ⟨.announce _ _, .error _⟩ => False
  | _ => True

/-- The listings returned, in order. -/
def listings (trace : List Exchange) : List Listing := trace.filterMap Exchange.listing?

/-- How many calls for a listing failed. -/
def failedListings (trace : List Exchange) : Nat := trace.countP Exchange.isListingFailure

def sleeps (trace : List Exchange) : Nat := trace.countP Exchange.isSleep

/-- Every failed call for a listing is made again until one returns. -/
def Answered (trace : List Exchange) : Prop :=
  ∀ before failure after, trace = before ++ ⟨.listTopics, .error failure⟩ :: after →
    listings after ≠ []

@[simp] theorem listings_append : listings (first ++ rest) = listings first ++ listings rest :=
  List.filterMap_append

@[simp] theorem failedListings_append :
    failedListings (first ++ rest) = failedListings first + failedListings rest :=
  List.countP_append

@[simp] theorem sleeps_append : sleeps (first ++ rest) = sleeps first + sleeps rest :=
  List.countP_append

theorem Answered.of_append (answered : Answered (first ++ rest)) : Answered rest := by
  intro before failure after split
  exact answered (first ++ before) failure after (by rw [split, List.append_assoc])

theorem answered_of_no_failure (none : failedListings trace = 0) : Answered trace := by
  intro before failure after split
  have failed : (⟨.listTopics, .error failure⟩ : Exchange) ∈ trace := by
    rw [split]
    exact List.mem_append_right _ (.head _)
  exact absurd rfl (List.countP_eq_zero.mp none _ failed)

/-- A trace that follows the given listings, the next of which is the one at `position`. -/
def Follows (L : Nat → Listing) (position : Nat) (trace : List Exchange) : Prop :=
  ∀ k listing, (listings trace)[k]? = some listing → listing = L (position + k)

theorem Follows.of_append {L : Nat → Listing} {position : Nat}
    (follows : Follows L position (first ++ rest)) :
    Follows L position first ∧ Follows L (position + (listings first).length) rest := by
  constructor
  · intro k listing hk
    refine follows k listing ?_
    obtain ⟨within, -⟩ := List.getElem?_eq_some_iff.mp hk
    rwa [listings_append, List.getElem?_append_left within]
  · intro k listing hk
    rw [Nat.add_assoc]
    refine follows _ listing ?_
    rw [listings_append, List.getElem?_append_right (Nat.le_add_right ..), Nat.add_sub_cancel_left]
    exact hk

theorem Follows.head {L : Nat → Listing} {position : Nat} {listing : Listing}
    (follows : Follows L position trace) (one : listings trace = [listing]) :
    listing = L position :=
  follows 0 listing (by rw [one]; rfl)

/-- Surroundings in which everything goes well, and listings come as given. -/
def listingBy (L : Nat → Listing) (past : List Exchange) : (r : Request) → r.Answer
  | .listTopics => Except.ok (L (1 + (listings past).length))
  | r => Reconciler.obliging [] r

theorem follow_listingBy {α : Type} (L : Nat → Listing) (program : Program α)
    (past : List Exchange) :
    (∀ e ∈ (Program.follow (listingBy L) program past).1, e.Smooth) ∧
    failedListings (Program.follow (listingBy L) program past).1 = 0 ∧
    Follows L (1 + (listings past).length) (Program.follow (listingBy L) program past).1 := by
  induction program generalizing past with
  | done value => exact ⟨by simp [Program.follow], rfl, by simp [Program.follow, Follows, listings]⟩
  | ask r next ih =>
    obtain ⟨smooth, failures, follows⟩ :=
      ih (listingBy L past r) (past ++ [⟨r, listingBy L past r⟩])
    cases r with
    | listTopics =>
      refine ⟨List.forall_mem_cons.mpr ⟨trivial, smooth⟩, failures, ?_⟩
      intro k listing hk
      cases k with
      | zero =>
        cases hk
        rfl
      | succ k =>
        have found := follows k listing hk
        rw [listings_append, List.length_append] at found
        rw [found]
        exact congrArg L (by show 1 + (_ + 1) + k = _; omega)
    | _ =>
      refine ⟨List.forall_mem_cons.mpr ⟨trivial, smooth⟩, failures, ?_⟩
      rw [listings_append, show listings [_] = [] from rfl, List.append_nil] at follows
      exact follows

end Tallies

namespace Reconciler

variable {reconciler : Reconciler} {start stop phase : Phase} {trace : List Exchange}
  {poll after : PollState}

section Rounds

/-- The interval can be grown. -/
def Grows (policy : WaitPolicy) (poll : PollState) : Prop :=
  ∀ reason, poll.interval.scale policy.multiplier ≠ .error reason

/-- An interval that was grown once can be grown for ever. -/
theorem grows_of_grown {policy : WaitPolicy} {interval : Number}
    (grown : poll.interval.scale policy.multiplier = .ok interval) :
    ∀ reason, interval.scale policy.multiplier ≠ .error reason := by
  intro reason
  unfold Number.scale at grown
  cases h : poll.interval.toFloat with
  | error _ =>
    rw [h] at grown
    cases grown
  | ok value =>
    rw [h] at grown
    cases grown
    intro h
    cases h

/-- A listing request returns one listing, with one sleep for each call that failed before. -/
theorem Attempts.listed {policy : RetryPolicy} {number : Int} {left : Nat} {listing : Listing}
    (attempts : Attempts policy (Program.request .listTopics) number left trace (.ok listing)) :
    listings trace = [listing] ∧ sleeps trace = failedListings trace := by
  generalize hresult : Except.ok listing = result at attempts
  induction attempts with
  | returned called =>
    obtain rfl := runs_request_iff.mp called
    cases hresult
    exact ⟨rfl, rfl⟩
  | again called _ _ more ih =>
    obtain rfl := runs_request_iff.mp called
    obtain ⟨hlistings, hsleeps⟩ := ih hresult
    refine ⟨?_, ?_⟩
    · rw [listings_append, hlistings]
      rfl
    · rw [sleeps_append, failedListings_append, hsleeps]
      rfl
  | _ => cases hresult

/-- A request that fails although nobody cuts it short ends with a call that failed. -/
theorem Attempts.unanswered {policy : RetryPolicy} {number : Int} {left : Nat} {failure : Failure}
    (attempts : Attempts policy (Program.request .listTopics) number left trace (.error failure))
    (smooth : ∀ e ∈ trace, e.Smooth) : ¬ Answered trace := by
  generalize hresult : Except.error failure = result at attempts
  induction attempts with
  | returned => cases hresult
  | refused called | undelayed called =>
    obtain rfl := runs_request_iff.mp called
    intro answered
    exact answered [] _ [] rfl rfl
  | exhausted called =>
    obtain rfl := runs_request_iff.mp called
    intro answered
    exact answered [] _ [logged .warning _] rfl rfl
  | cutShort called => exact (smooth _ (List.mem_append_right _ (.tail _ (.head _)))).elim
  | again called _ _ more ih =>
    intro answered
    exact ih (fun e he => smooth e (List.mem_append_right _ he)) hresult answered.of_append

theorem listTopics_listed {listing : Listing}
    (goes : Goes reconciler.listTopics start trace (.ok listing) stop) :
    listings trace = [listing] ∧ sleeps trace = failedListings trace := by
  obtain ⟨-, ⟨failure, _, h⟩ | ⟨attempts, other, message, tried, h, rfl⟩⟩ := goes_listTopics goes
  · cases eq_ok_of_surfacing h
  · cases h
    obtain ⟨hlistings, hsleeps⟩ := tried.listed
    refine ⟨?_, ?_⟩
    · rw [listings_append, hlistings]
      rfl
    · rw [sleeps_append, failedListings_append, hsleeps]
      rfl

theorem listTopics_unanswered {failure : Failure}
    (goes : Goes reconciler.listTopics start trace (.error failure) stop)
    (smooth : ∀ e ∈ trace, e.Smooth) : ¬ Answered trace := by
  obtain ⟨-, ⟨failure, tried, -⟩ | ⟨attempts, listing, message, tried, h, -⟩⟩ :=
    goes_listTopics goes
  · exact tried.unanswered smooth
  · cases h

/-- Work that took one attempt of the budget and one rest for each listing it got, and one rest more
for each call for a listing that failed. -/
structure Progress (reconciler : Reconciler) (poll : PollState) (trace : List Exchange)
    (after : PollState) : Prop where
  attempts : after.attempt = poll.attempt + (listings trace).length
  within : (listings trace).length ≤ reconciler.budget poll
  slept : sleeps trace = (listings trace).length + failedListings trace
  grows : Grows reconciler.wait after

theorem Progress.none (noListing : listings trace = []) (noFailure : failedListings trace = 0)
    (noSleep : sleeps trace = 0) (grows : Grows reconciler.wait poll) :
    Progress reconciler poll trace poll := by
  refine ⟨?_, ?_, ?_, grows⟩
  · rw [noListing]
    simp
  · rw [noListing]
    exact Nat.zero_le _
  · rw [noListing, noFailure, noSleep]
    rfl

theorem Progress.trans {between : PollState} {first rest : List Exchange}
    (before : Progress reconciler poll first between)
    (next : Progress reconciler between rest after) :
    Progress reconciler poll (first ++ rest) after := by
  have hbefore := before.attempts
  have hnext := next.attempts
  have hwithin := before.within
  have hrest := next.within
  have hslept := before.slept
  have hlast := next.slept
  simp only [budget] at hwithin hrest
  refine ⟨?_, ?_, ?_, next.grows⟩
  · rw [listings_append, List.length_append]
    omega
  · simp only [listings_append, List.length_append, budget]
    omega
  · rw [sleeps_append, failedListings_append, listings_append, List.length_append]
    omega

/-- Work that stops at a spent budget has taken all of it. -/
theorem Progress.spent (progress : Progress reconciler poll trace after)
    (used : reconciler.wait.maxAttempts ≤ after.attempt) :
    (listings trace).length = reconciler.budget poll ∧
      after.attempt = max poll.attempt reconciler.wait.maxAttempts := by
  have attempts := progress.attempts
  have within := progress.within
  simp only [budget] at within ⊢
  omega

/-- A round that goes well either finds the budget spent, or rests once. -/
theorem Waits.smoothly {policy : WaitPolicy} {waiting : Phase} {topic : Option String}
    {spent : Int → Fault} {result : Result Unit}
    (waits : Waits policy phase waiting topic spent poll trace result after)
    (grows : poll.attempt < policy.maxAttempts → Grows policy poll)
    (smooth : ∀ e ∈ trace, e.Smooth) :
    listings trace = [] ∧ failedListings trace = 0 ∧
    ((policy.maxAttempts ≤ poll.attempt ∧ result = .error (.of (spent poll.attempt)) ∧
        sleeps trace = 0) ∨
      (poll.attempt < policy.maxAttempts ∧ result = .ok () ∧ sleeps trace = 1 ∧
        after.attempt = poll.attempt + 1 ∧ Grows policy after)) := by
  cases waits with
  | spent used => exact ⟨rfl, rfl, .inl ⟨used, rfl, rfl⟩⟩
  | cutShort within => exact (smooth _ (.tail _ (.tail _ (.head _)))).elim
  | overgrown within grown => exact (grows within _ grown).elim
  | told within grown =>
    cases result with
    | error failure => exact (smooth _ (.tail _ (.tail _ (.tail _ (.head _))))).elim
    | ok _ => exact ⟨rfl, rfl, .inr ⟨within, rfl, rfl, rfl, grows_of_grown grown⟩⟩

/-- A round and the listing after it. -/
theorem Progress.round {waiting : Phase} {topic : Option String} {spent : Int → Fault}
    {waited asked : List Exchange} {listing : Listing}
    (waits : Waits reconciler.wait phase waiting topic spent poll waited (.ok ()) after)
    (goes : Goes reconciler.listTopics start asked (.ok listing) stop)
    (grows : Grows reconciler.wait poll) (smooth : ∀ e ∈ waited, e.Smooth) :
    listings (waited ++ asked) = [listing] ∧
      Progress reconciler poll (waited ++ asked) after := by
  obtain ⟨noListing, noFailure, h⟩ := waits.smoothly (fun _ => grows) smooth
  obtain ⟨one, retried⟩ := listTopics_listed goes
  rcases h with ⟨-, h, -⟩ | ⟨within, -, slept, taken, grows⟩
  · cases h
  have all : listings (waited ++ asked) = [listing] := by
    rw [listings_append, noListing, one, List.nil_append]
  refine ⟨all, ?_, ?_, ?_, grows⟩
  · rw [all]
    exact taken
  · simp only [all, List.length_singleton, budget]
    omega
  · rw [all, sleeps_append, failedListings_append, slept, noFailure, retried, List.length_singleton]
    omega

end Rounds

section Topics

variable {L : Nat → Listing} {name : String} {position : Nat} {listing next : Listing}

/-- A wait that finds the topic does so at the first listing that has it, from the one at `position`
on. -/
theorem AwaitsTopic.found
    (awaits : AwaitsTopic reconciler phase name poll listing trace (.ok next) after)
    (grows : Grows reconciler.wait poll) (smooth : ∀ e ∈ trace, e.Smooth)
    (here : listing = L position) (follows : Follows L (position + 1) trace) :
    Progress reconciler poll trace after ∧ next = L (position + (listings trace).length) ∧
      name ∈ next ∧
      ∀ q, position ≤ q → q < position + (listings trace).length → name ∉ L q := by
  generalize hresult : Except.ok next = result at awaits
  induction awaits generalizing position with
  | present listed =>
    cases hresult
    refine ⟨.none rfl rfl rfl grows, here, listed, fun q low high => ?_⟩
    exact absurd low (by simpa [listings] using high)
  | @again poll between after listing shown waited asked rest result missing waits goes more ih =>
    obtain ⟨smoothFirst, smoothRest⟩ := List.forall_mem_append.mp smooth
    obtain ⟨smoothWaited, -⟩ := List.forall_mem_append.mp smoothFirst
    obtain ⟨followsFirst, followsRest⟩ := follows.of_append
    obtain ⟨one, round⟩ := Progress.round waits goes grows smoothWaited
    rw [one] at followsRest
    obtain ⟨progress, hnext, hname, hearlier⟩ :=
      ih round.grows smoothRest (followsFirst.head one) followsRest hresult
    rw [listings_append, one, List.singleton_append, List.length_cons]
    refine ⟨round.trans progress, ?_, hname, fun q low high => ?_⟩
    · rw [hnext, Nat.add_assoc, Nat.add_comm 1]
    · by_cases first : q = position
      · rw [first, ← here]
        exact missing
      · exact hearlier q (by omega) (by omega)
  | _ => cases hresult

/-- A wait that fails has spent the budget, and no listing it has seen has the topic. -/
theorem AwaitsTopic.missed {failure : Failure}
    (awaits : AwaitsTopic reconciler phase name poll listing trace (.error failure) after)
    (grows : Grows reconciler.wait poll) (smooth : ∀ e ∈ trace, e.Smooth)
    (answered : Answered trace) (here : listing = L position)
    (follows : Follows L (position + 1) trace) :
    ∃ last, Progress reconciler poll trace last ∧ reconciler.wait.maxAttempts ≤ last.attempt ∧
      failure = .of (.topicNotReady name last.attempt) ∧
      ∀ q, position ≤ q → q ≤ position + (listings trace).length → name ∉ L q := by
  generalize hresult : Except.error failure = result at awaits
  induction awaits generalizing position with
  | present => cases hresult
  | @stopped poll after listing trace failure missing waits =>
    cases hresult
    obtain ⟨noListing, noFailure, ⟨used, raised, noSleep⟩ | ⟨_, h, _⟩⟩ :=
      waits.smoothly (fun _ => grows) smooth
    · cases raised
      refine ⟨poll, .none noListing noFailure noSleep grows, used, rfl, fun q low high => ?_⟩
      rw [noListing, List.length_nil] at high
      obtain rfl : q = position := by omega
      exact here ▸ missing
    · cases h
  | unlisted missing waits goes =>
    exact absurd answered.of_append
      (listTopics_unanswered goes (List.forall_mem_append.mp smooth).2)
  | @again poll between after listing shown waited asked rest result missing waits goes more ih =>
    obtain ⟨smoothFirst, smoothRest⟩ := List.forall_mem_append.mp smooth
    obtain ⟨smoothWaited, -⟩ := List.forall_mem_append.mp smoothFirst
    obtain ⟨followsFirst, followsRest⟩ := follows.of_append
    obtain ⟨one, round⟩ := Progress.round waits goes grows smoothWaited
    rw [one] at followsRest
    obtain ⟨last, progress, used, raised, hmissed⟩ := ih round.grows smoothRest
      answered.of_append (followsFirst.head one) followsRest hresult
    rw [listings_append, one, List.singleton_append, List.length_cons]
    refine ⟨last, round.trans progress, used, raised, fun q low high => ?_⟩
    by_cases first : q = position
    · rw [first, ← here]
      exact missing
    · exact hmissed q (by omega) (by omega)

/-- News of a topic takes nothing from the budget. -/
theorem Progress.told {message : String} {happening : Happening} {answer : Result Unit}
    (progress : Progress reconciler poll trace after) :
    Progress reconciler poll
      (trace ++ [logged .info message, ⟨.announce phase happening, answer⟩]) after :=
  progress.trans (.none rfl rfl rfl progress.grows)

theorem listings_told {message : String} {happening : Happening} {answer : Result Unit} :
    listings (trace ++ [logged .info message, ⟨.announce phase happening, answer⟩]) =
      listings trace := by
  rw [listings_append]
  exact List.append_nil _

variable {specs : List TopicSpec}

/-- The topic phase is a scan of the listings. -/
theorem AwaitsTopics.found
    (awaits : AwaitsTopics reconciler phase specs poll listing trace (.ok ()) after)
    (grows : Grows reconciler.wait poll) (smooth : ∀ e ∈ trace, e.Smooth)
    (here : listing = L position) (follows : Follows L (position + 1) trace) :
    Progress reconciler poll trace after ∧
      Scan L position (specs.map (·.name)) (position + (listings trace).length) := by
  generalize hresult : Except.ok () = result at awaits
  induction awaits generalizing position with
  | done => exact ⟨.none rfl rfl rfl grows, .done⟩
  | @seen spec others poll between after listing next first rest message result awaits _ ih =>
    obtain ⟨smoothTold, smoothRest⟩ := List.forall_mem_append.mp smooth
    obtain ⟨smoothFirst, -⟩ := List.forall_mem_append.mp smoothTold
    obtain ⟨followsTold, followsRest⟩ := follows.of_append
    obtain ⟨progress, shown, hname, hearlier⟩ :=
      awaits.found grows smoothFirst here followsTold.of_append.1
    rw [listings_told, Nat.add_right_comm] at followsRest
    obtain ⟨more, scan⟩ := ih progress.grows smoothRest shown followsRest hresult
    refine ⟨progress.told.trans more, ?_⟩
    rw [listings_append, listings_told, List.length_append, ← Nat.add_assoc]
    exact .found (Nat.le_add_right ..) (shown ▸ hname) hearlier scan
  | _ => cases hresult

/-- If the phase fails, it fails at the first topic that no listing in reach has after the topics
before it. -/
theorem AwaitsTopics.missed {failure : Failure}
    (awaits : AwaitsTopics reconciler phase specs poll listing trace (.error failure) after)
    (grows : Grows reconciler.wait poll) (smooth : ∀ e ∈ trace, e.Smooth)
    (answered : Answered trace) (here : listing = L position)
    (follows : Follows L (position + 1) trace) :
    ∃ before name others middle last, specs.map (·.name) = before ++ name :: others ∧
      Scan L position before middle ∧ middle ≤ position + (listings trace).length ∧
      (∀ q, middle ≤ q → q ≤ position + (listings trace).length → name ∉ L q) ∧
      Progress reconciler poll trace last ∧ reconciler.wait.maxAttempts ≤ last.attempt ∧
      failure = .of (.topicNotReady name last.attempt) := by
  generalize hresult : Except.error failure = result at awaits
  induction awaits generalizing position with
  | done => cases hresult
  | @stopped spec others poll after listing trace failure awaits =>
    cases hresult
    obtain ⟨last, progress, used, raised, missed⟩ :=
      awaits.missed grows smooth answered here follows
    exact ⟨[], spec.name, others.map (·.name), position, last, rfl, .done,
      Nat.le_add_right .., missed, progress, used, raised⟩
  | untold => exact (smooth _ (List.mem_append_right _ (.tail _ (.head _)))).elim
  | @seen spec others poll between after listing next first rest message result awaits _ ih =>
    obtain ⟨smoothTold, smoothRest⟩ := List.forall_mem_append.mp smooth
    obtain ⟨smoothFirst, -⟩ := List.forall_mem_append.mp smoothTold
    obtain ⟨followsTold, followsRest⟩ := follows.of_append
    obtain ⟨progress, shown, hname, hearlier⟩ :=
      awaits.found grows smoothFirst here followsTold.of_append.1
    rw [listings_told, Nat.add_right_comm] at followsRest
    obtain ⟨before, name, later, middle, last, split, scan, within, missed, more, used, raised⟩ :=
      ih progress.grows smoothRest answered.of_append shown followsRest hresult
    rw [listings_append, listings_told, List.length_append, ← Nat.add_assoc]
    refine ⟨spec.name :: before, name, later, middle, last, by simp [split],
      .found (Nat.le_add_right ..) (shown ▸ hname) hearlier scan, within, missed,
      progress.told.trans more, used, raised⟩

end Topics

section Verification

variable {L : Nat → Listing}

/-- A topic phase that succeeds scans the listings from the first on, one sleep between two. -/
theorem verifyTopics_found
    (polls : Polls reconciler.verifyTopics poll start trace (.ok ()) after stop)
    (grows : Grows reconciler.wait poll) (smooth : ∀ e ∈ trace, e.Smooth)
    (follows : Follows L 1 trace) :
    Scan L 1 reconciler.topicNames (listings trace).length ∧
      (listings trace).length ≤ 1 + reconciler.budget poll ∧
      sleeps trace + 1 = (listings trace).length + failedListings trace ∧
      after.attempt = poll.attempt + (listings trace).length - 1 := by
  obtain ⟨-, ⟨failure, _, h, _⟩ | ⟨asked, listing, rest, asks, awaits, rfl⟩⟩ :=
    polls_verifyTopics polls
  · cases h
  obtain ⟨one, retried⟩ := listTopics_listed asks
  obtain ⟨followsAsked, followsRest⟩ := follows.of_append
  rw [one] at followsRest
  obtain ⟨progress, scan⟩ := awaits.found grows (List.forall_mem_append.mp smooth).2
    (followsAsked.head one) followsRest
  have within := progress.within
  have slept := progress.slept
  have attempts := progress.attempts
  have total : (listings (asked ++ rest)).length = 1 + (listings rest).length := by
    rw [listings_append, one, List.length_append, List.length_singleton]
  rw [total, sleeps_append, failedListings_append]
  refine ⟨scan, ?_, ?_, ?_⟩ <;> omega

/-- A topic phase that fails has taken the whole budget. -/
theorem verifyTopics_missed {failure : Failure}
    (polls : Polls reconciler.verifyTopics poll start trace (.error failure) after stop)
    (grows : Grows reconciler.wait poll) (smooth : ∀ e ∈ trace, e.Smooth)
    (answered : Answered trace) (follows : Follows L 1 trace) :
    ∃ before name others middle, reconciler.topicNames = before ++ name :: others ∧
      Scan L 1 before middle ∧ middle ≤ 1 + reconciler.budget poll ∧
      (∀ q, middle ≤ q → q ≤ 1 + reconciler.budget poll → name ∉ L q) ∧
      failure = .of (.topicNotReady name (max poll.attempt reconciler.wait.maxAttempts)) ∧
      (listings trace).length = 1 + reconciler.budget poll ∧
      sleeps trace = reconciler.budget poll + failedListings trace := by
  obtain ⟨-, ⟨failure, asks, _, _⟩ | ⟨asked, listing, rest, asks, awaits, rfl⟩⟩ :=
    polls_verifyTopics polls
  · exact absurd answered (listTopics_unanswered asks smooth)
  obtain ⟨one, retried⟩ := listTopics_listed asks
  obtain ⟨followsAsked, followsRest⟩ := follows.of_append
  rw [one] at followsRest
  obtain
    ⟨before, name, others, middle, last, split, scan, within, missed, progress, used, raised⟩ :=
    awaits.missed grows (List.forall_mem_append.mp smooth).2 answered.of_append
      (followsAsked.head one) followsRest
  obtain ⟨taken, reached⟩ := progress.spent used
  rw [taken] at within missed
  rw [reached] at raised
  have slept := progress.slept
  refine ⟨before, name, others, middle, split, scan, within, missed, raised, ?_, ?_⟩
  · rw [listings_append, one, List.length_append, taken, List.length_singleton]
  · rw [sleeps_append, failedListings_append]
    omega

/-- With listings that follow `L`, no failing sleep and no failing announcement, the topic phase
succeeds exactly if there is a schedule of the topics in the listings that the budget allows. It
then ends at the earliest listing that any schedule ends at; otherwise it fails, with the budget
spent, at the first topic that no schedule reaches. -/
theorem verifyTopics_iff_schedule {result : Result Unit}
    (polls : Polls reconciler.verifyTopics poll start trace result after stop)
    (grows : Grows reconciler.wait poll) (smooth : ∀ e ∈ trace, e.Smooth)
    (answered : Answered trace) (follows : Follows L 1 trace) :
    let bound := 1 + reconciler.budget poll
    (result = .ok () ↔ ∃ positions, Schedule L reconciler.topicNames 1 bound positions) ∧
    (result = .ok () →
      (∃ positions, Schedule L reconciler.topicNames 1 bound positions ∧
        positions.getLastD 1 = (listings trace).length) ∧
      (∀ positions, Schedule L reconciler.topicNames 1 bound positions →
        (listings trace).length ≤ positions.getLastD 1) ∧
      sleeps trace + 1 = (listings trace).length + failedListings trace ∧
      after.attempt = poll.attempt + (listings trace).length - 1) ∧
    (result ≠ .ok () → ∃ before name others,
      reconciler.topicNames = before ++ name :: others ∧
      (∃ positions, Schedule L before 1 bound positions) ∧
      (¬ ∃ positions, Schedule L (before ++ [name]) 1 bound positions) ∧
      result = .error (.of (.topicNotReady name
        (max poll.attempt reconciler.wait.maxAttempts))) ∧
      (listings trace).length = bound ∧
      sleeps trace = reconciler.budget poll + failedListings trace) := by
  intro bound
  cases result with
  | ok _ =>
    obtain ⟨scan, within, slept, attempts⟩ := verifyTopics_found polls grows smooth follows
    obtain ⟨positions, schedule, ends⟩ := scan.schedule within
    refine ⟨⟨fun _ => ⟨positions, schedule⟩, fun _ => rfl⟩, fun _ => ?_, fun h => absurd rfl h⟩
    exact ⟨⟨positions, schedule, ends⟩, fun _ other => scan.le_schedule (Nat.le_refl _) other,
      slept, attempts⟩
  | error failure =>
    obtain ⟨before, name, others, middle, split, scan, within, missed, rfl, fetched, slept⟩ :=
      verifyTopics_missed polls grows smooth answered follows
    obtain ⟨positions, schedule, -⟩ := scan.schedule within
    have unscheduled := scan.unscheduled missed
    refine ⟨⟨fun h => (by cases h), ?_⟩, fun h => (by cases h), fun _ => ?_⟩
    · rintro ⟨all, whole⟩
      rw [split, List.append_cons] at whole
      obtain ⟨part, _, _, reached, _⟩ := whole.of_append
      exact absurd ⟨part, reached⟩ unscheduled
    · exact ⟨before, name, others, split, ⟨positions, schedule⟩, unscheduled, rfl, fetched, slept⟩

/-- A topic that shows up in the second listing only. -/
def flapping (position : Nat) : Listing := if position = 2 then ["orders"] else []

theorem verifyTopics_iff_schedule_flapping :
    let run := Program.follow (listingBy flapping)
      ((ordersOnly.verifyTopics.run.run (.start ordersOnly.wait)).run .verifyingTopics) []
    run.2.1.1 = .ok () ∧ (listings run.1).length = 2 ∧
      ∃ positions, Schedule flapping ["orders"] 1 3 positions ∧ positions.getLastD 1 = 2 := by
  intro run
  have ended : run.2.1.1 = .ok () := by decide +kernel
  have fetched : (listings run.1).length = 2 := by decide +kernel
  have grows : Grows ordersOnly.wait (.start ordersOnly.wait) := by
    intro reason overflows
    have scaled : ((PollState.start ordersOnly.wait).interval.scale
      ordersOnly.wait.multiplier).toBool = true := by decide +kernel
    rw [overflows] at scaled
    cases scaled
  have polls : Polls ordersOnly.verifyTopics (.start ordersOnly.wait) .verifyingTopics run.1
      run.2.1.1 run.2.1.2 run.2.2 := runs_follow _ _ _
  obtain ⟨smooth, failures, follows⟩ := follow_listingBy flapping _ []
  obtain ⟨-, found, -⟩ := verifyTopics_iff_schedule polls grows smooth
    (answered_of_no_failure failures) follows
  obtain ⟨⟨positions, schedule, ends⟩, -⟩ := found ended
  exact ⟨ended, fetched, positions, schedule, ends.trans fetched⟩

end Verification

end Reconciler

end ClusterReadiness
