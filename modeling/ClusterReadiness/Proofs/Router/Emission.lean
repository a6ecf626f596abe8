import ClusterReadiness.Proofs.Router.Walks
import ClusterReadiness.Router

/-!
# Emissions

An emission walks the registrations themselves, not a copy, while callbacks change them. `Offers`
tells such a walk callback by callback, and says who is offered the event and who is not.
-/

namespace ClusterReadiness

/-- Registering, unregistering, or doing something to the world outside. -/
def Action.IsPlain {ε : Type} : Action ε → Prop
  | .addRule .. | .emit _ => False
  | _ => True

namespace Router

variable {ε σ : Type} {perform : ε → StateM σ (Result Unit)}
  {record : Level → String → StateM σ Unit} {event : Event}

section Entries

/-- What the actions of an entry do to the registrations and the world, up to the first that
fails. -/
inductive Performs (perform : ε → StateM σ (Result Unit)) : List (Action ε) → List String → σ →
    List Change → Result Unit → σ → Prop where
  | done {registered : List String} {world : σ} :
      Performs perform [] registered world [] (.ok ()) world
  | register {id : String} {rest : List (Action ε)} {registered : List String} {world after : σ}
      {changes : List Change} {outcome : Result Unit}
      (others : Performs perform rest (registered ++ [id]) world changes outcome after) :
      Performs perform (.register id :: rest) registered world (.register id :: changes) outcome
        after
  | unregister {id : String} {rest : List (Action ε)} {registered : List String} {world after : σ}
      {changes : List Change} {outcome : Result Unit} (present : id ∈ registered)
      (others : Performs perform rest (registered.erase id) world changes outcome after) :
      Performs perform (.unregister id :: rest) registered world (.unregister id :: changes)
        outcome after
  | absent {id : String} {rest : List (Action ε)} {registered : List String} {world : σ}
      (absent : id ∉ registered) :
      Performs perform (.unregister id :: rest) registered world []
        (.error (.of (.invalidValue "list.remove(x): x not in list"))) world
  | effect {effect : ε} {rest : List (Action ε)} {registered : List String}
      {world between after : σ} {changes : List Change} {outcome : Result Unit}
      (works : (perform effect).run world = (.ok (), between))
      (others : Performs perform rest registered between changes outcome after) :
      Performs perform (.perform effect :: rest) registered world changes outcome after
  | raised {effect : ε} {rest : List (Action ε)} {registered : List String} {world after : σ}
      {failure : Failure} (fails : (perform effect).run world = (.error failure, after)) :
      Performs perform (.perform effect :: rest) registered world [] (.error failure) after

/-- What some work of the router comes to, and in which states it leaves router and world. -/
def ran {α : Type} (work : StateT (Router ε) (StateM σ) α) (router : Router ε) (world : σ) :
    (α × Router ε) × σ :=
  (work.run router).run world

theorem ran_bind {α β : Type} {work : StateT (Router ε) (StateM σ) α}
    {next : α → StateT (Router ε) (StateM σ) β} {router between : Router ε} {world after : σ}
    {value : α} (first : ran work router world = ((value, between), after)) :
    ran (work >>= next) router world = ran (next value) between after := by
  show ran (next (ran work router world).1.1) (ran work router world).1.2
    (ran work router world).2 = _
  rw [first]

variable {nested : Event → StateT (Router ε) (StateM σ) (Result Unit)}

theorem ran_actAll_ok {action : Action ε} {rest : List (Action ε)} {router between : Router ε}
    {world after : σ} (first : ran (act perform nested action) router world =
      ((.ok (), between), after)) :
    ran (actAll perform nested (action :: rest)) router world =
      ran (actAll perform nested rest) between after :=
  ran_bind first

theorem ran_actAll_error {action : Action ε} {rest : List (Action ε)} {router between : Router ε}
    {world after : σ} {failure : Failure} (first : ran (act perform nested action) router world =
      ((.error failure, between), after)) :
    ran (actAll perform nested (action :: rest)) router world =
      ((.error failure, between), after) :=
  ran_bind first

/-- The router with other registrations. -/
def withRegistered (router : Router ε) (registered : List String) : Router ε :=
  { router with registered }

theorem ran_unregister {id : String} {router : Router ε} {world : σ} :
    ran (act perform nested (.unregister id)) router world =
      if id ∈ router.registered then
        ((.ok (), router.withRegistered (router.registered.erase id)), world)
      else ((.error (.of (.invalidValue "list.remove(x): x not in list")), router), world) := by
  have first : ran (get : StateT (Router ε) (StateM σ) (Router ε)) router world =
      ((router, router), world) := rfl
  unfold act
  rw [ran_bind first]
  by_cases present : id ∈ router.registered
  · have removed : router.unregister id =
        .ok (router.withRegistered (router.registered.erase id)) := by
      simp [unregister, present, withRegistered]
    rw [removed, if_pos present]
    rfl
  · have refused : router.unregister id =
        .error (.of (.invalidValue "list.remove(x): x not in list")) := by
      simp [unregister, present]
    rw [refused, if_neg present]
    rfl

/-- Plain entries change nothing of the router but the registrations. -/
theorem actAll_performs (entry : List (Action ε)) (plain : ∀ action ∈ entry, action.IsPlain)
    (router : Router ε) (world : σ) : ∃ changes outcome after,
      ran (actAll perform nested entry) router world =
        ((outcome, router.withRegistered (changes.foldl Change.apply router.registered)), after) ∧
      Performs perform entry router.registered world changes outcome after := by
  induction entry generalizing router world with
  | nil => exact ⟨[], .ok (), world, rfl, .done⟩
  | cons action rest ih =>
    obtain ⟨here, others⟩ := List.forall_mem_cons.mp plain
    cases action with
    | register id =>
      have first : ran (act perform nested (.register id)) router world =
          ((.ok (), router.register id), world) := rfl
      obtain ⟨changes, outcome, after, more, performs⟩ := ih others (router.register id) world
      exact ⟨.register id :: changes, outcome, after, (ran_actAll_ok first).trans more,
        .register performs⟩
    | unregister id =>
      by_cases present : id ∈ router.registered
      · have first : ran (act perform nested (.unregister id)) router world = _ := ran_unregister
        rw [if_pos present] at first
        obtain ⟨changes, outcome, after, more, performs⟩ :=
          ih others (router.withRegistered (router.registered.erase id)) world
        exact ⟨.unregister id :: changes, outcome, after, (ran_actAll_ok first).trans more,
          .unregister present performs⟩
      · have first : ran (act perform nested (.unregister id)) router world = _ := ran_unregister
        rw [if_neg present] at first
        exact ⟨[], _, world, ran_actAll_error first, .absent present⟩
    | addRule | emit => exact here.elim
    | perform effect =>
      have first : ran (act perform nested (.perform effect)) router world =
          ((((perform effect).run world).1, router), ((perform effect).run world).2) := rfl
      cases effected : (perform effect).run world with
      | mk outcome between =>
        rw [effected] at first
        cases outcome with
        | ok _ =>
          obtain ⟨changes, outcome, after, more, performs⟩ := ih others router between
          exact ⟨changes, outcome, after, (ran_actAll_ok first).trans more,
            .effect effected performs⟩
        | error failure =>
          exact ⟨[], _, between, ran_actAll_error first, .raised effected⟩

end Entries

section Pool

variable {router : Router ε} {callback : Callback ε} {id : String}

/-- Callbacks are told apart by their identities, and their scripts are plain. -/
structure Sound (router : Router ε) : Prop where
  distinct : (router.pool.map (·.id)).Nodup
  plain : ∀ callback ∈ router.pool, ∀ script, callback.behaviour = .scripted script →
    ∀ entry ∈ script, ∀ action ∈ entry, action.IsPlain

theorem find?_mem (known : router.find? id = some callback) :
    callback ∈ router.pool ∧ callback.id = id :=
  ⟨List.mem_of_find?_eq_some known, by simpa using List.find?_some known⟩

theorem modify_find? {other : String} (change : Callback ε → Callback ε)
    (same : ∀ c, (change c).id = c.id) : (router.modify other change).find? id =
      (router.find? id).map fun c => if c.id == other then change c else c := by
  unfold find? modify
  rw [List.find?_map]
  congr 2
  funext c
  simp only [Function.comp_apply]
  split
  · rw [same]
  · rfl

/-- Giving one callback another behaviour leaves soundness alone if its script stays plain. -/
theorem Sound.modify (sound : router.Sound) {behaviour : Behaviour ε}
    (plain : ∀ script, behaviour = .scripted script →
      ∀ entry ∈ script, ∀ action ∈ entry, action.IsPlain) :
    (router.modify id fun c => { c with behaviour }).Sound := by
  constructor
  · have ids : ((router.modify id fun c => { c with behaviour }).pool.map (·.id)) =
        router.pool.map (·.id) := by
      unfold Router.modify
      rw [List.map_map]
      refine List.map_congr_left fun c _ => ?_
      simp only [Function.comp_apply]
      split <;> rfl
    rw [ids]
    exact sound.distinct
  · intro changed hchanged script scripted
    obtain ⟨original, horiginal, rfl⟩ := List.mem_map.mp hchanged
    split at scripted
    · exact plain script scripted
    · exact sound.plain original horiginal script scripted

/-- Entries left over the callbacks of a pool, when one of them is changed. -/
theorem entriesLeft_map {pool : List (Callback ε)} (change : Callback ε → Callback ε)
    (distinct : (pool.map (·.id)).Nodup) (mem : callback ∈ pool) :
    ((pool.map fun c => if c.id == callback.id then change c else c).map
        Callback.entriesLeft).foldr (· + ·) 0 + callback.entriesLeft =
      (pool.map Callback.entriesLeft).foldr (· + ·) 0 + (change callback).entriesLeft := by
  induction pool with
  | nil => cases mem
  | cons head tail ih =>
    obtain ⟨fresh, distinct⟩ := List.nodup_cons.mp distinct
    rcases List.mem_cons.mp mem with rfl | mem
    · have others : (tail.map fun c => if c.id == callback.id then change c else c) = tail := by
        refine (List.map_congr_left fun c hc => ?_).trans (List.map_id tail)
        have other : c.id ≠ callback.id := by
          intro same
          exact fresh (List.mem_map.mpr ⟨c, hc, same⟩)
        simp [other]
      simp only [List.map_cons, List.foldr_cons, beq_self_eq_true, if_true, others]
      omega
    · have other : head.id ≠ callback.id := by
        intro same
        exact fresh (List.mem_map.mpr ⟨callback, mem, same.symm⟩)
      have unchanged : (if head.id == callback.id then change head else head) = head := by
        simp [other]
      simp only [List.map_cons, List.foldr_cons, unchanged]
      have := ih distinct mem
      omega

section HandOver

variable {told : Router ε} {entry : List (Action ε)}

/-- Handing an event over leaves the registrations alone. -/
theorem handOver_registered {taken : Option (List (Action ε))}
    (handing : router.handOver callback event = (told, taken)) :
    told.registered = router.registered := by
  unfold handOver at handing
  split at handing
  · cases handing
    rfl
  · split at handing
    · cases handing
      rfl
    · cases handing
      rfl

/-- An entry that is due is a plain one, and one less is left. -/
theorem handOver_some (sound : router.Sound) (known : router.find? id = some callback)
    (due : router.handOver callback event = (told, some entry)) :
    told.Sound ∧ (∀ action ∈ entry, action.IsPlain) ∧ told.entriesLeft < router.entriesLeft := by
  obtain ⟨mem, rfl⟩ := find?_mem known
  unfold handOver at due
  split at due
  · cases due
  · rename_i script scripted
    cases script with
    | nil => cases due
    | cons first rest =>
      cases due
      have plain := sound.plain callback mem _ scripted
      have left := entriesLeft_map (fun c => { c with behaviour := .scripted rest })
        sound.distinct mem
      have one : callback.entriesLeft = rest.length + 1 := by
        simp [Callback.entriesLeft, scripted]
      have noted : Sound { router with handled := router.handled ++ [(callback.id, event)] } :=
        ⟨sound.distinct, sound.plain⟩
      refine ⟨noted.modify fun script h => ?_, plain _ (.head _), ?_⟩
      · cases h
        exact fun entry hentry => plain entry (.tail _ hentry)
      · simp only [entriesLeft, modify]
        simp only [Callback.entriesLeft] at left one ⊢
        omega

theorem handOver_none (sound : router.Sound) (known : router.find? id = some callback)
    (idle : router.handOver callback event = (told, none)) :
    told.Sound ∧ told.entriesLeft = router.entriesLeft := by
  obtain ⟨mem, rfl⟩ := find?_mem known
  unfold handOver at idle
  split at idle
  · rename_i state latched
    cases idle
    have left := entriesLeft_map (fun c => { c with behaviour := .latch (state.handle event) })
      sound.distinct mem
    have none : callback.entriesLeft = 0 := by simp [Callback.entriesLeft, latched]
    refine ⟨sound.modify (fun script h => by cases h), ?_⟩
    simp only [entriesLeft, modify]
    simp only [Callback.entriesLeft] at left none ⊢
    omega
  · rename_i script scripted
    cases script with
    | nil =>
      cases idle
      exact ⟨⟨sound.distinct, sound.plain⟩, rfl⟩
    | cons => cases idle

end HandOver

end Pool

section Emission

/-- Where the world is after an entry, whose failure is put into the log. -/
def reported (record : Level → String → StateM σ Unit) (callback : Callback ε) (event : Event) :
    Result Unit → σ → σ
  | .ok (), world => world
  | .error failure, world =>
    ((record .warning (failureText callback event failure)).run world).2

/-- An emission from a position on: each registration in turn is offered the event, and a callback
that wants it is handed it and makes its changes. -/
inductive Offers (perform : ε → StateM σ (Result Unit)) (record : Level → String → StateM σ Unit)
    (event : Event) : Nat → Router ε → σ → List Visit → Router ε → σ → Prop where
  | finished {position : Nat} {router : Router ε} {world : σ}
      (past : router.registered.length ≤ position) :
      Offers perform record event position router world [] router world
  | refused {position : Nat} {router last : Router ε} {world after : σ} {id : String}
      {visits : List Visit} (here : router.registered[position]? = some id)
      (unwanted : ∀ callback, router.find? id = some callback →
        Rule.wants callback.rules event = .ok false)
      (rest : Offers perform record event (position + 1) router world visits last after) :
      Offers perform record event position router world
        (⟨id, position, router.registered, []⟩ :: visits) last after
  | handed {position : Nat} {router told last : Router ε} {world after : σ} {id : String}
      {callback : Callback ε} {visits : List Visit}
      (here : router.registered[position]? = some id) (known : router.find? id = some callback)
      (wanted : Rule.wants callback.rules event = .ok true)
      (idle : router.handOver callback event = (told, none))
      (rest : Offers perform record event (position + 1) told world visits last after) :
      Offers perform record event position router world
        (⟨id, position, router.registered, []⟩ :: visits) last after
  | entered {position : Nat} {router told last : Router ε} {world between after : σ} {id : String}
      {callback : Callback ε} {entry : List (Action ε)} {changes : List Change}
      {outcome : Result Unit} {visits : List Visit}
      (here : router.registered[position]? = some id) (known : router.find? id = some callback)
      (wanted : Rule.wants callback.rules event = .ok true)
      (due : router.handOver callback event = (told, some entry))
      (performs : Performs perform entry router.registered world changes outcome between)
      (rest : Offers perform record event (position + 1)
        (told.withRegistered (changes.foldl Change.apply router.registered))
        (reported record callback event outcome between) visits last after) :
      Offers perform record event position router world
        (⟨id, position, router.registered, changes⟩ :: visits) last after

theorem phase_ok (own : ∀ object, event.happening ≠ .foreign object) :
    ∃ phase, event.phase = .ok phase := by
  cases h : event.happening with
  | foreign object => exact absurd h (own object)
  | _ => exact ⟨_, by rw [Event.phase, h, Happening.phase]⟩

theorem accepts_ok (rule : Rule) (own : ∀ object, event.happening ≠ .foreign object) :
    ∃ accepted, rule.accepts event = .ok accepted := by
  obtain ⟨phase, hphase⟩ := phase_ok own
  simp only [Rule.accepts, hphase]
  split
  · exact ⟨_, rfl⟩
  · split <;> exact ⟨_, rfl⟩

/-- An event of a phase is wanted or not, without failing. -/
theorem wants_ok (rules : List Rule) (own : ∀ object, event.happening ≠ .foreign object) :
    ∃ wanted, Rule.wants rules event = .ok wanted := by
  have any : ∀ rules : List Rule, ∃ wanted, Rule.anyAccepts rules event = .ok wanted := by
    intro rules
    induction rules with
    | nil => exact ⟨false, rfl⟩
    | cons rule rest ih =>
      obtain ⟨accepted, haccepted⟩ := accepts_ok rule own
      rw [Rule.anyAccepts, haccepted]
      cases accepted with
      | true => exact ⟨true, rfl⟩
      | false => exact ih
  unfold Rule.wants
  split
  · exact ⟨true, rfl⟩
  · exact any rules

theorem Performs.orderly {entry : List (Action ε)} {registered : List String} {world after : σ}
    {changes : List Change} {failure : Failure}
    (orderly : ∀ effect world failure after, (perform effect).run world = (.error failure, after) →
      failure.isUserInterrupt = false)
    (performs : Performs perform entry registered world changes (.error failure) after) :
    failure.isUserInterrupt = false := by
  generalize hresult : Except.error failure = outcome at performs
  induction performs with
  | done => cases hresult
  | register _ ih | unregister _ _ ih | effect _ _ ih => exact ih hresult
  | absent =>
    cases hresult
    rfl
  | raised fails =>
    cases hresult
    exact orderly _ _ _ _ fails

section Sweeping

variable {runEntry : List (Action ε) → StateT (Router ε) (StateM σ) (Result Unit)}
  {resume : Nat → StateT (Router ε) (StateM σ) (Result Unit)} {left position : Nat}
  {router told : Router ε} {world : σ} {callback : Callback ε}

/-- Who stands at a place of the registrations, if it is one of the pool. -/
def at? (router : Router ε) (position : Nat) : Option (Callback ε) :=
  router.registered[position]?.bind router.find?

/-- A place where nobody wants the event is passed by. -/
theorem ran_sweep_refused (unwanted : ∀ callback, router.at? position = some callback →
      Rule.wants callback.rules event = .ok false) :
    ran (sweep record runEntry resume event (left + 1) position) router world =
      ran (sweep record runEntry resume event left (position + 1)) router world := by
  have first : ran (get : StateT (Router ε) (StateM σ) (Router ε)) router world =
      ((router, router), world) := rfl
  rw [sweep, ran_bind first]
  cases found : router.at? position with
  | none =>
    unfold at? at found
    simp only [found]
  | some callback =>
    have refused := unwanted callback found
    unfold at? at found
    simp only [found, refused]

/-- A callback that wants the event and has nothing to do is handed it. -/
theorem ran_sweep_handed (found : router.at? position = some callback)
    (wanted : Rule.wants callback.rules event = .ok true)
    (idle : router.handOver callback event = (told, none)) :
    ran (sweep record runEntry resume event (left + 1) position) router world =
      ran (sweep record runEntry resume event left (position + 1)) told world := by
  have first : ran (get : StateT (Router ε) (StateM σ) (Router ε)) router world =
      ((router, router), world) := rfl
  have setTold : ran (set told : StateT (Router ε) (StateM σ) PUnit) router world =
      (((), told), world) := rfl
  unfold at? at found
  rw [sweep, ran_bind first]
  simp only [found, wanted, idle]
  rw [ran_bind setTold]

/-- A callback that has an entry left does it, and the walk goes on unless it was interrupted. -/
theorem ran_sweep_entered {entry : List (Action ε)} {outcome : Result Unit} {between : Router ε}
    {after : σ} (found : router.at? position = some callback)
    (wanted : Rule.wants callback.rules event = .ok true)
    (due : router.handOver callback event = (told, some entry))
    (entered : ran (runEntry entry) told world = ((outcome, between), after)) :
    (∃ failure, outcome = .error failure ∧ failure.isUserInterrupt = true ∧
      ran (sweep record runEntry resume event (left + 1) position) router world =
        ((outcome, between), after)) ∨
    (∀ failure, outcome = .error failure → failure.isUserInterrupt = false) ∧
      ran (sweep record runEntry resume event (left + 1) position) router world =
        ran (resume (position + 1)) between (reported record callback event outcome after) := by
  have first : ran (get : StateT (Router ε) (StateM σ) (Router ε)) router world =
      ((router, router), world) := rfl
  have setTold : ran (set told : StateT (Router ε) (StateM σ) PUnit) router world =
      (((), told), world) := rfl
  unfold at? at found
  rw [sweep, ran_bind first]
  simp only [found, wanted, due]
  rw [ran_bind setTold, ran_bind entered]
  cases outcome with
  | ok _ => exact .inr ⟨fun _ h => (by cases h), rfl⟩
  | error failure =>
    by_cases raw : failure.isUserInterrupt = true
    · refine .inl ⟨failure, rfl, raw, ?_⟩
      simp only [raw, if_true]
      rfl
    · refine .inr ⟨fun _ h => ?_, ?_⟩
      · cases h
        simpa using raw
      · simp only [raw]
        rfl

/-- An event of a phase is refused at a place, or handed over there. -/
theorem refused_or_handed (own : ∀ object, event.happening ≠ .foreign object) (router : Router ε)
    (position : Nat) :
    (∀ callback, router.at? position = some callback →
      Rule.wants callback.rules event = .ok false) ∨
    ∃ callback told entry, router.at? position = some callback ∧
      Rule.wants callback.rules event = .ok true ∧
      router.handOver callback event = (told, entry) := by
  cases found : router.at? position with
  | none => exact .inl fun _ h => by cases h
  | some callback =>
    obtain ⟨wanted, hwanted⟩ := wants_ok callback.rules own
    cases wanted with
    | false =>
      refine .inl fun _ h => ?_
      cases h
      exact hwanted
    | true => exact .inr ⟨callback, _, _, rfl, hwanted, rfl⟩

/-- Sweeping offers the event, if what follows a used entry does. -/
theorem sweep_offers {budget : Nat} (own : ∀ object, event.happening ≠ .foreign object)
    (orderly : ∀ effect world failure after, (perform effect).run world = (.error failure, after) →
      failure.isUserInterrupt = false)
    (enters : 0 < budget → ∃ nested, runEntry = actAll perform nested)
    (resumes : ∀ position router world, Sound router → router.entriesLeft < budget →
      ∃ visits last after, ran (resume position) router world = ((.ok (), last), after) ∧
        Offers perform record event position router world visits last after)
    (left position : Nat) (router : Router ε) (world : σ) (sound : router.Sound)
    (enough : router.entriesLeft ≤ budget) (all : left = router.registered.length - position) :
    ∃ visits last after, ran (sweep record runEntry resume event left position) router world =
        ((.ok (), last), after) ∧
      Offers perform record event position router world visits last after := by
  induction left generalizing position router with
  | zero => exact ⟨[], router, world, rfl, .finished (by omega)⟩
  | succ left ih =>
    have within : position < router.registered.length := by omega
    have here : router.registered[position]? = some router.registered[position] :=
      List.getElem?_eq_getElem within
    have place : router.at? position = router.find? router.registered[position] := by
      unfold at?
      rw [here]
      rfl
    rcases refused_or_handed own router position with
      unwanted | ⟨callback, told, entry, found, wanted, handing⟩
    · obtain ⟨visits, last, after, swept, offers⟩ :=
        ih (position + 1) router sound enough (by omega)
      rw [← ran_sweep_refused unwanted] at swept
      rw [place] at unwanted
      exact ⟨_, last, after, swept, .refused here unwanted offers⟩
    · have known := place.symm.trans found
      have registered := handOver_registered handing
      cases entry with
      | none =>
        obtain ⟨soundTold, same⟩ := handOver_none sound known handing
        obtain ⟨visits, last, after, swept, offers⟩ := ih (position + 1) told soundTold
          (by omega) (by rw [registered]; omega)
        rw [← ran_sweep_handed found wanted handing] at swept
        exact ⟨_, last, after, swept, .handed here known wanted handing offers⟩
      | some entry =>
        obtain ⟨soundTold, plain, fewer⟩ := handOver_some sound known handing
        obtain ⟨nested, rfl⟩ := enters (by omega)
        obtain ⟨changes, outcome, between, acted, performs⟩ :=
          @actAll_performs _ _ perform nested entry plain told world
        have soundAfter : (told.withRegistered
            (changes.foldl Change.apply told.registered)).Sound :=
          ⟨soundTold.distinct, soundTold.plain⟩
        have fewerAfter : (told.withRegistered
            (changes.foldl Change.apply told.registered)).entriesLeft < budget :=
          show told.entriesLeft < budget by omega
        obtain ⟨visits, last, after, resumed, offers⟩ := resumes (position + 1) _
          (reported record callback event outcome between) soundAfter fewerAfter
        rcases ran_sweep_entered found wanted handing acted with
          ⟨failure, rfl, raw, -⟩ | ⟨-, swept⟩
        · rw [performs.orderly orderly] at raw
          cases raw
        · rw [registered] at performs offers
          exact ⟨_, last, after, swept.trans resumed,
            .entered here known wanted handing performs offers⟩

/-- Sweeping fails by a user interrupt only, if what follows a used entry does. -/
theorem sweep_interrupted (own : ∀ object, event.happening ≠ .foreign object)
    (resumes : ∀ position router world failure,
      (ran (resume position) router world).1.1 = .error failure → failure.isUserInterrupt = true)
    (left position : Nat) (router : Router ε) (world : σ) (failure : Failure)
    (failed : (ran (sweep record runEntry resume event left position) router world).1.1 =
      .error failure) : failure.isUserInterrupt = true := by
  induction left generalizing position router world with
  | zero => cases failed
  | succ left ih =>
    rcases refused_or_handed own router position with
      unwanted | ⟨callback, told, entry, found, wanted, handing⟩
    · rw [ran_sweep_refused unwanted] at failed
      exact ih (position + 1) router world failed
    · cases entry with
      | none =>
        rw [ran_sweep_handed found wanted handing] at failed
        exact ih (position + 1) told world failed
      | some entry =>
        cases entered : ran (runEntry entry) told world with
        | mk result after =>
          rcases ran_sweep_entered found wanted handing entered with
            ⟨cut, raised, raw, swept⟩ | ⟨-, swept⟩
          · rw [swept] at failed
            cases raised.symm.trans failed
            exact raw
          · rw [swept] at failed
            exact resumes _ _ _ _ failed

end Sweeping

/-- The budget never runs out, so an emission is a walk to the end that fails for nobody. -/
theorem emitWithin_offers (own : ∀ object, event.happening ≠ .foreign object)
    (orderly : ∀ effect world failure after, (perform effect).run world = (.error failure, after) →
      failure.isUserInterrupt = false)
    (budget position : Nat) (router : Router ε) (world : σ) (sound : router.Sound)
    (enough : router.entriesLeft ≤ budget) :
    ∃ visits last after,
      ran (emitWithin perform record budget event position) router world =
        ((.ok (), last), after) ∧
      Offers perform record event position router world visits last after := by
  induction budget generalizing position router world with
  | zero =>
    exact sweep_offers own orderly (fun h : 0 < 0 => absurd h (Nat.lt_irrefl 0))
      (fun _ _ _ _ h => absurd h (Nat.not_lt_zero _)) _ position router world sound enough rfl
  | succ budget ih =>
    exact sweep_offers own orderly (fun _ => ⟨_, rfl⟩)
      (fun position router world sound h => ih position router world sound (by omega))
      _ position router world sound enough rfl

variable (record) in
theorem emit_walks (own : ∀ object, event.happening ≠ .foreign object)
    (orderly : ∀ effect world failure after, (perform effect).run world = (.error failure, after) →
      failure.isUserInterrupt = false)
    {router : Router ε} (sound : router.Sound) (world : σ) :
    ∃ visits last after, ran (emit perform record event) router world = ((.ok (), last), after) ∧
      Offers perform record event 0 router world visits last after :=
  emitWithin_offers own orderly _ 0 router world sound (Nat.le_refl _)

end Emission

section Failures

/-- Emissions of a run's own events fail by a user interrupt only, whatever the callbacks do. -/
theorem emit_interrupted (own : ∀ object, event.happening ≠ .foreign object) (router : Router ε)
    (world : σ) (failure : Failure)
    (failed : (ran (emit perform record event) router world).1.1 = .error failure) :
    failure.isUserInterrupt = true := by
  have within : ∀ budget position router world failure,
      (ran (emitWithin perform record budget event position) router world).1.1 = .error failure →
        failure.isUserInterrupt = true := by
    intro budget
    induction budget with
    | zero =>
      intro position router world failure failed
      exact sweep_interrupted own (fun _ _ _ _ h => by cases h) _ position router world failure
        failed
    | succ budget ih =>
      intro position router world failure failed
      exact sweep_interrupted own ih _ position router world failure failed
  exact within _ 0 router world failure failed

end Failures

end Router

end ClusterReadiness
