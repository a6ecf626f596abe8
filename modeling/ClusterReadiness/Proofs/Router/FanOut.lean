import ClusterReadiness.Proofs.Router.Emission
import Mathlib.Data.List.Nodup

/-!
# Who is offered an event

A callback that is registered when an emission begins, and that nobody unregisters, is offered the
event once and in order unless the changes of the others carry its registration past the walk. The
walk does not notice, so such a callback is left out.
-/

namespace ClusterReadiness

/-- The callback notes an event that it is offered. -/
def Callback.hears {ε : Type} (callback : Callback ε) (event : Event) : Bool :=
  match callback.behaviour, Rule.wants callback.rules event with
  | .scripted _, .ok true => true
  | _, _ => false

namespace Router

variable {ε σ : Type} {perform : ε → StateM σ (Result Unit)}
  {record : Level → String → StateM σ Unit} {event : Event} {router told last : Router ε}
  {callback : Callback ε} {id : String} {entry : Option (List (Action ε))}
  {position : Nat} {world after : σ} {visits : List Visit}

/-- The callback of that identity notes an event that it is offered. -/
def hears (router : Router ε) (event : Event) (id : String) : Bool :=
  (router.find? id).any fun callback => callback.hears event

theorem hears_modify {behaviour : Behaviour ε} (known : router.find? id = some callback)
    (same : ({ callback with behaviour } : Callback ε).hears event = callback.hears event)
    (other : String) :
    (router.modify id fun c => { c with behaviour }).hears event other =
      router.hears event other := by
  obtain ⟨-, rfl⟩ := find?_mem known
  unfold hears
  rw [modify_find? (fun c => { c with behaviour }) fun _ => rfl]
  cases found : router.find? other with
  | none => rfl
  | some c =>
    obtain ⟨-, rfl⟩ := find?_mem found
    by_cases equal : c.id = callback.id
    · rw [equal, known] at found
      cases found
      simpa using same
    · simp [equal]

/-- Handing over is noted for the callbacks that hear, and changes nothing of who hears. -/
theorem handOver_hears (known : router.find? id = some callback)
    (wanted : Rule.wants callback.rules event = .ok true)
    (handing : router.handOver callback event = (told, entry)) :
    told.handled = router.handled ++ ([id].filter (router.hears event)).map (·, event) ∧
      ∀ other, told.hears event other = router.hears event other := by
  obtain ⟨-, rfl⟩ := find?_mem known
  unfold handOver at handing
  split at handing
  · rename_i state latched
    cases handing
    have deaf : callback.hears event = false := by simp [Callback.hears, latched]
    refine ⟨?_, hears_modify known (by rw [deaf]; rfl)⟩
    simp [hears, known, deaf, modify]
  · rename_i script scripted
    have hearing : callback.hears event = true := by simp [Callback.hears, scripted, wanted]
    cases script with
    | nil =>
      cases handing
      exact ⟨by simp [hears, known, hearing], fun _ => rfl⟩
    | cons first rest =>
      cases handing
      refine ⟨by simp [hears, known, hearing, modify], ?_⟩
      have noted : find? { router with handled := router.handled ++ [(callback.id, event)] }
          callback.id = some callback := known
      refine hears_modify noted ?_
      simp [Callback.hears, wanted, scripted]

/-- What an entry does is determined. -/
theorem Performs.unique {entry : List (Action ε)} {registered : List String}
    {world after after' : σ} {changes changes' : List Change} {outcome outcome' : Result Unit}
    (one : Performs perform entry registered world changes outcome after)
    (other : Performs perform entry registered world changes' outcome' after') :
    changes = changes' ∧ outcome = outcome' ∧ after = after' := by
  induction one generalizing changes' with
  | done =>
    cases other
    exact ⟨rfl, rfl, rfl⟩
  | register _ ih =>
    cases other with
    | register others =>
      obtain ⟨rfl, rfl, rfl⟩ := ih others
      exact ⟨rfl, rfl, rfl⟩
  | unregister present _ ih =>
    cases other with
    | unregister _ others =>
      obtain ⟨rfl, rfl, rfl⟩ := ih others
      exact ⟨rfl, rfl, rfl⟩
    | absent absent => exact (absent present).elim
  | absent absent =>
    cases other with
    | unregister present => exact (absent present).elim
    | absent => exact ⟨rfl, rfl, rfl⟩
  | effect works _ ih =>
    cases other with
    | effect works' others =>
      cases works.symm.trans works'
      exact ih others
    | raised fails => cases works.symm.trans fails
  | raised fails =>
    cases other with
    | effect works => cases fails.symm.trans works
    | raised fails' =>
      cases fails.symm.trans fails'
      exact ⟨rfl, rfl, rfl⟩

namespace Offers

theorem not_past {registered : List String} (here : registered[position]? = some id) :
    ¬ registered.length ≤ position :=
  Nat.not_le.mpr (List.getElem?_eq_some_iff.mp here).1

/-- The way of an emission is determined, stop by stop. -/
theorem unique {visits' : List Visit} {last' : Router ε} {after' : σ}
    (one : Offers perform record event position router world visits last after)
    (other : Offers perform record event position router world visits' last' after') :
    visits = visits' ∧ last = last' ∧ after = after' := by
  induction one generalizing visits' with
  | finished past =>
    cases other with
    | finished => exact ⟨rfl, rfl, rfl⟩
    | refused here | handed here | entered here => exact (not_past here past).elim
  | refused here unwanted _ ih =>
    cases other with
    | finished past => exact (not_past here past).elim
    | refused here' _ rest =>
      cases here.symm.trans here'
      obtain ⟨rfl, rfl, rfl⟩ := ih rest
      exact ⟨rfl, rfl, rfl⟩
    | handed here' known wanted | entered here' known wanted =>
      cases here.symm.trans here'
      cases (unwanted _ known).symm.trans wanted
  | handed here known wanted idle _ ih =>
    cases other with
    | finished past => exact (not_past here past).elim
    | refused here' unwanted =>
      cases here.symm.trans here'
      cases (unwanted _ known).symm.trans wanted
    | handed here' known' _ idle' rest =>
      cases here.symm.trans here'
      cases known.symm.trans known'
      cases idle.symm.trans idle'
      obtain ⟨rfl, rfl, rfl⟩ := ih rest
      exact ⟨rfl, rfl, rfl⟩
    | entered here' known' _ due =>
      cases here.symm.trans here'
      cases known.symm.trans known'
      cases idle.symm.trans due
  | entered here known wanted due performs _ ih =>
    cases other with
    | finished past => exact (not_past here past).elim
    | refused here' unwanted =>
      cases here.symm.trans here'
      cases (unwanted _ known).symm.trans wanted
    | handed here' known' _ idle =>
      cases here.symm.trans here'
      cases known.symm.trans known'
      cases due.symm.trans idle
    | entered here' known' _ due' performs' rest =>
      cases here.symm.trans here'
      cases known.symm.trans known'
      cases due.symm.trans due'
      obtain ⟨rfl, rfl, rfl⟩ := performs.unique performs'
      obtain ⟨rfl, rfl, rfl⟩ := ih rest
      exact ⟨rfl, rfl, rfl⟩

theorem walk (offers : Offers perform record event position router world visits last after) :
    Walk position router.registered visits last.registered := by
  induction offers with
  | finished past => exact .stop past
  | refused here _ _ ih => exact @Walk.step ⟨_, _, _, []⟩ _ _ here ih
  | handed here _ _ idle _ ih =>
    rw [handOver_registered idle] at ih
    exact @Walk.step ⟨_, _, _, []⟩ _ _ here ih
  | @entered _ _ _ _ _ _ _ _ _ _ changes _ _ here _ _ _ _ _ ih =>
    exact @Walk.step ⟨_, _, _, changes⟩ _ _ here ih

/-- Those who hear note the event as often as they are offered it, and in that order. -/
theorem handled (offers : Offers perform record event position router world visits last after) :
    last.handled =
      router.handled ++ ((visited visits).filter (router.hears event)).map (·, event) := by
  induction offers with
  | finished past => simp [visited]
  | @refused _ router _ _ _ id _ here unwanted _ ih =>
    have deaf : router.hears event id = false := by
      unfold hears
      cases known : router.find? id with
      | none => rfl
      | some callback => simp [Callback.hears, unwanted callback known]
    rw [ih]
    simp [visited, deaf]
  | handed here known wanted idle _ ih =>
    obtain ⟨noted, same⟩ := handOver_hears known wanted idle
    rw [ih, noted, funext same, List.append_assoc, ← List.map_append, ← List.filter_append]
    rfl
  | @entered _ router told _ _ _ _ _ _ _ changes _ _ here known wanted due _ _ ih =>
    obtain ⟨noted, same⟩ := handOver_hears known wanted due
    have hearing : (told.withRegistered
        (changes.foldl Change.apply router.registered)).hears event = told.hears event := rfl
    rw [ih, hearing, funext same]
    show told.handled ++ _ = _
    rw [noted, List.append_assoc, ← List.map_append, ← List.filter_append]
    rfl

end Offers

/-- An emission offers the event in the order of the registrations, those made meanwhile included.
A callback that was registered when it began, and that nobody unregisters, is offered the event
exactly once if and only if as many registrations of it are passed over as are made. If nobody
registers it again, that is if no visit carries it from ahead of the walk to its place or behind. -/
theorem emit_offers_once_iff (own : ∀ object, event.happening ≠ .foreign object)
    (orderly : ∀ effect world failure after, (perform effect).run world = (.error failure, after) →
      failure.isUserInterrupt = false)
    (sound : router.Sound) (distinct : router.registered.Nodup) (world : σ) :
    ∃ visits last after, ran (emit perform record event) router world = ((.ok (), last), after) ∧
      Offers perform record event 0 router world visits last after ∧
      last.handled =
        router.handled ++ ((visited visits).filter (router.hears event)).map (·, event) ∧
      (visited visits).Sublist (router.registered ++ madeDuring visits) ∧
      ∀ id ∈ router.registered, Kept visits id →
        ((visited visits).count id = 1 ↔
          passedOverDuring visits id = (madeDuring visits).count id) ∧
        (id ∉ madeDuring visits →
          ((visited visits).count id = 1 ↔ ∀ visit ∈ visits, ¬ visit.Skips id)) := by
  obtain ⟨visits, last, after, emitted, offers⟩ :=
    emit_walks record own orderly sound world
  refine ⟨visits, last, after, emitted, offers, offers.handled, offers.walk.visited_sublist, ?_⟩
  intro id hid kept
  have single : router.registered.count id = 1 := List.count_eq_one_of_mem distinct hid
  have counted := offers.walk.count_visited id
  rw [List.drop_zero, single] at counted
  constructor
  · omega
  · intro once
    have unmade : (madeDuring visits).count id = 0 := List.count_eq_zero.mpr once
    have skipped := offers.walk.passedOver_eq_zero_iff single kept once
    rw [← skipped]
    omega

section Neighbours

/-- A callback without rules that takes another one out when it is first called. -/
def remover (id taken : String) : Callback Empty :=
  ⟨id, "Scripted", [], .scripted [[.unregister taken]]⟩

/-- A callback without rules that only notes what it is offered. -/
def listener (id : String) : Callback Empty := ⟨id, "Scripted", [], .scripted []⟩

def seen : Event := .announced (.topicVisible "events" 1) 0

/-- Nothing to do in the world outside. -/
def idly (effect : Empty) : StateM Unit (Result Unit) := effect.elim

def unlogged (_ : Level) (_ : String) : StateM Unit Unit := pure ()

/-- A callback that takes itself out makes the walk miss its neighbour. -/
theorem emit_misses_neighbour :
    let router : Router Empty := ⟨[remover "a" "a", listener "b"], ["a", "b"], []⟩
    ∃ visits last, ran (emit idly unlogged seen) router () = ((.ok (), last), ()) ∧
      Offers idly unlogged seen 0 router () visits last () ∧
      "b" ∈ router.registered ∧ Kept visits "b" ∧ "b" ∉ madeDuring visits ∧
      (visited visits).count "b" = 0 ∧ last.handled = [("a", seen)] := by
  intro router
  refine ⟨[⟨"a", 0, ["a", "b"], [.unregister "a"]⟩], _, rfl, ?_, by decide, ?_, by decide,
    by decide, rfl⟩
  · exact .entered rfl rfl rfl rfl (.unregister (by decide) .done) (.finished (by decide))
  · intro visit hvisit
    rw [List.mem_singleton.mp hvisit]
    decide

/-- A callback that takes out one ahead of the walk makes it miss nobody else. -/
theorem emit_offers_once_iff_ahead :
    let router : Router Empty :=
      ⟨[remover "a" "b", listener "b", listener "c"], ["a", "b", "c"], []⟩
    let visits : List Visit :=
      [⟨"a", 0, ["a", "b", "c"], [.unregister "b"]⟩, ⟨"c", 1, ["a", "c"], []⟩]
    router.registered.Nodup ∧ ∃ last,
      ran (emit idly unlogged seen) router () = ((.ok (), last), ()) ∧
      last.handled = [("a", seen), ("c", seen)] ∧
      Offers idly unlogged seen 0 router () visits last () ∧
      Kept visits "c" ∧ "c" ∉ madeDuring visits ∧ (∀ visit ∈ visits, ¬ visit.Skips "c") ∧
      (visited visits).count "c" = 1 ∧
      passedOverDuring visits "c" = (madeDuring visits).count "c" := by
  intro router visits
  have sound : router.Sound := by
    refine ⟨by decide, fun callback hcallback script scripted => ?_⟩
    simp only [router, List.mem_cons, List.not_mem_nil, or_false] at hcallback
    rcases hcallback with rfl | rfl | rfl <;> cases scripted <;> simp [Action.IsPlain]
  have distinct : router.registered.Nodup := by decide
  obtain ⟨taken, last, after, emitted, offers, -, -, exactly⟩ :=
    @emit_offers_once_iff Empty Unit idly unlogged seen router (fun _ h => by cases h)
      (fun effect => effect.elim) sound distinct ()
  have ended : ran (emit idly unlogged seen) router () = ((.ok (), _), ()) := rfl
  rw [ended] at emitted
  cases emitted
  have way : Offers idly unlogged seen 0 router () visits _ () :=
    .entered rfl rfl rfl rfl (.unregister (by decide) .done)
      (.handed rfl rfl rfl rfl (.finished (by decide)))
  obtain ⟨rfl, -, -⟩ := offers.unique way
  have kept : Kept visits "c" := by simp [Kept, visits]
  have unmade : "c" ∉ madeDuring visits := by decide
  have unskipped : ∀ visit ∈ visits, ¬ visit.Skips "c" := by
    simp [visits, Visit.Skips, Visit.after, Change.apply]
  obtain ⟨counted, skipped⟩ := exactly "c" (by decide) kept
  have once := (skipped unmade).mpr unskipped
  exact ⟨distinct, _, ended, rfl, offers, kept, unmade, unskipped, once, counted.mp once⟩

end Neighbours

end Router

end ClusterReadiness
