import ClusterReadiness.Proofs.Router.Containment

/-!
# What a callback is handed

Callbacks that leave the registrations alone may still add rules, emit events of their own and do
what they like to the world outside. One callback is watched through an emission: it is handed the
emitted event as often as it is registered and wants it, and besides that only events that callbacks
emitted themselves.
-/

namespace ClusterReadiness

/-- One call of a callback: the event, and whether it is the one that is being emitted, and not one
that a callback emitted meanwhile. -/
structure Handing where
  event : Event
  own : Bool

/-- The action leaves the registrations alone, emits only such events, and adds a rule to the
callback of that identity only if its rules stay as they should be. -/
def Action.Spares {ε : Type} (id : String) (suits : List Rule → Prop) (emits : Event → Prop) :
    Action ε → Prop
  | .register _ | .unregister _ => False
  | .addRule other rule => other = id → ∀ rules, suits rules → suits (rules ++ [rule])
  | .emit event => emits event
  | .perform _ => True

/-- A rule on the phase alone. -/
def Rule.inPhases (phases : List Phase) : Rule := ⟨none, some phases, none⟩

/-- The state of a latch. -/
def Callback.latch? {ε : Type} (callback : Callback ε) : Option Latch :=
  match callback.behaviour with
  | .latch state => some state
  | .scripted _ => none

namespace Router

variable {ε σ : Type} {perform : ε → StateM σ (Result Unit)}
  {record : Level → String → StateM σ Unit} {event : Event} {id : String}
  {suits : List Rule → Prop} {emits : Event → Prop} {router between last : Router ε}
  {events more : List Event}

/-- Some callback is still to do the action. -/
def Acts (router : Router ε) (action : Action ε) : Prop :=
  ∃ callback ∈ router.pool, ∃ script, callback.behaviour = .scripted script ∧
    ∃ entry ∈ script, action ∈ entry

def latch? (router : Router ε) (id : String) : Option Latch :=
  (router.find? id).bind Callback.latch?

/-- All that callbacks are still to do. -/
def actions (router : Router ε) : List (Action ε) :=
  router.pool.flatMap fun callback =>
    match callback.behaviour with
    | .scripted script => script.flatten
    | .latch _ => []

theorem acts_iff {action : Action ε} : router.Acts action ↔ action ∈ router.actions := by
  simp only [actions, List.mem_flatMap]
  constructor
  · rintro ⟨callback, mem, script, scripted, entry, due, among⟩
    refine ⟨callback, mem, ?_⟩
    rw [scripted]
    exact List.mem_flatten.mpr ⟨entry, due, among⟩
  · rintro ⟨callback, mem, among⟩
    split at among
    · rename_i script scripted
      obtain ⟨entry, due, among⟩ := List.mem_flatten.mp among
      exact ⟨callback, mem, script, scripted, entry, due, among⟩
    · cases among

/-- The events that a scripted callback was handed, in order. -/
def noted (router : Router ε) (id : String) : List Event :=
  router.handled.filterMap fun call => if call.1 = id then some call.2 else none

/-- One callback is watched, and what all of them are to do spares it. -/
structure Watched (id : String) (suits : List Rule → Prop) (emits : Event → Prop)
    (router : Router ε) : Prop where
  distinct : (router.pool.map (·.id)).Nodup
  spares : ∀ action, router.Acts action → action.Spares id suits emits
  suited : ∀ callback, router.find? id = some callback → suits callback.rules

/-- The watched callback is handed these events on the way from one router to another. -/
structure Hands (id : String) (suits : List Rule → Prop) (emits : Event → Prop)
    (router : Router ε) (events : List Event) (last : Router ε) : Prop where
  watched : last.Watched id suits emits
  registered : last.registered = router.registered
  known : (last.find? id).isSome = (router.find? id).isSome
  fewer : last.entriesLeft ≤ router.entriesLeft
  latch : last.latch? id = (router.latch? id).map fun latch => events.foldl Latch.handle latch
  noted : router.latch? id = none → last.noted id = router.noted id ++ events

theorem Hands.none (watched : router.Watched id suits emits) :
    Hands id suits emits router [] router where
  watched := watched
  registered := rfl
  known := rfl
  fewer := Nat.le_refl _
  latch := by simp
  noted _ := (List.append_nil _).symm

theorem Hands.trans (first : Hands id suits emits router events between)
    (onward : Hands id suits emits between more last) :
    Hands id suits emits router (events ++ more) last where
  watched := onward.watched
  registered := onward.registered.trans first.registered
  known := onward.known.trans first.known
  fewer := Nat.le_trans onward.fewer first.fewer
  latch := by
    rw [onward.latch, first.latch, Option.map_map]
    congr 1
    funext latch
    exact (List.foldl_append ..).symm
  noted scripted := by
    have still : between.latch? id = Option.none := by rw [first.latch, scripted]; rfl
    rw [onward.noted still, first.noted scripted, List.append_assoc]

section Pool

variable {callback : Callback ε} {other : String} {change : Callback ε → Callback ε}

theorem pool_modify_ids (same : ∀ c, (change c).id = c.id) :
    (router.modify other change).pool.map (·.id) = router.pool.map (·.id) := by
  unfold modify
  rw [List.map_map]
  refine List.map_congr_left fun c _ => ?_
  simp only [Function.comp_apply]
  split
  · exact same c
  · rfl

/-- What is to be done after a callback changed was to be done before, if that goes for the one that
changed. -/
theorem acts_modify {action : Action ε} (acts : (router.modify other change).Acts action)
    (fewer : ∀ callback ∈ router.pool, callback.id = other → ∀ script,
      (change callback).behaviour = .scripted script → ∀ entry ∈ script, action ∈ entry →
        router.Acts action) : router.Acts action := by
  obtain ⟨changed, mem, script, scripted, entry, due, among⟩ := acts
  obtain ⟨callback, original, rfl⟩ := List.mem_map.mp mem
  by_cases same : callback.id = other
  · simp only [same, beq_self_eq_true, if_true] at scripted
    exact fewer callback original same script scripted entry due among
  · simp only [beq_iff_eq, same, if_false] at scripted
    exact ⟨callback, original, script, scripted, entry, due, among⟩

/-- Changing a callback leaves it watched if its rules stay as they should be and nothing new is to
be done. -/
theorem Watched.modify (watched : router.Watched id suits emits)
    (same : ∀ c, (change c).id = c.id)
    (suited : ∀ c, other = id → suits c.rules → suits (change c).rules)
    (acts : ∀ action, (router.modify other change).Acts action → router.Acts action) :
    (router.modify other change).Watched id suits emits where
  distinct := by
    rw [pool_modify_ids same]
    exact watched.distinct
  spares action due := watched.spares action (acts action due)
  suited changed found := by
    rw [modify_find? change same] at found
    obtain ⟨callback, known, rfl⟩ := Option.map_eq_some_iff.mp found
    have suits := watched.suited callback known
    have named := (find?_mem known).2
    split
    · rename_i chosen
      refine suited callback ?_ suits
      rw [← named]
      exact (beq_iff_eq.mp chosen).symm
    · exact suits

/-- A change of one callback hands the watched one what it takes in by that change. -/
theorem modify_hands (watched : router.Watched id suits emits)
    (same : ∀ c, (change c).id = c.id)
    (suited : ∀ c, other = id → suits c.rules → suits (change c).rules)
    (acts : ∀ action, (router.modify other change).Acts action → router.Acts action)
    (fewer : (router.modify other change).entriesLeft ≤ router.entriesLeft)
    (taken : ∀ c, router.find? id = some c → c.id = other →
      (change c).latch? = c.latch?.map fun latch => events.foldl Latch.handle latch)
    (unseen : other ≠ id ∨ router.latch? id = none → events = []) :
    Hands id suits emits router events (router.modify other change) where
  watched := watched.modify same suited acts
  registered := rfl
  known := by rw [modify_find? change same, Option.isSome_map]
  fewer := fewer
  latch := by
    unfold latch?
    rw [modify_find? change same]
    cases found : router.find? id with
    | none => rfl
    | some c =>
      simp only [Option.map_some, Option.bind_some, beq_iff_eq]
      split
      · rename_i chosen
        exact taken c found chosen
      · rename_i another
        rw [unseen (.inl fun h => another ((find?_mem found).2.trans h.symm))]
        simp
  noted scripted := by
    rw [unseen (.inr scripted), List.append_nil]
    rfl

/-- Adding a rule hands nobody anything. -/
theorem addRule_hands (watched : router.Watched id suits emits) {rule : Rule}
    (spares : other = id → ∀ rules, suits rules → suits (rules ++ [rule])) :
    Hands id suits emits router [] (router.addRule other rule) := by
  have same : (router.addRule other rule).entriesLeft = router.entriesLeft := by
    simp only [entriesLeft, addRule, Router.modify, List.map_map]
    congr 1
    refine List.map_congr_left fun c _ => ?_
    simp only [Function.comp_apply]
    split <;> rfl
  refine modify_hands watched (fun _ => rfl) (fun c chosen suits => spares chosen _ suits) ?_
    (Nat.le_of_eq same) (fun c _ _ => ?_) fun _ => rfl
  · exact fun action acts => acts_modify acts fun callback mem _ script scripted entry due among =>
      ⟨callback, mem, script, scripted, entry, due, among⟩
  · simp [Callback.latch?]

section HandOver

variable {state : Latch} {entry : List (Action ε)} {script : List (List (Action ε))}

/-- A latch takes the event in. -/
theorem latch_hands (watched : router.Watched id suits emits)
    (found : router.find? other = some callback) (latched : callback.behaviour = .latch state) :
    Hands id suits emits router (if other = id then [event] else [])
      (router.modify other fun c => { c with behaviour := .latch (state.handle event) }) := by
  obtain ⟨mem, rfl⟩ := find?_mem found
  refine modify_hands watched (fun _ => rfl) (fun _ _ suits => suits) ?_ ?_ ?_ ?_
  · exact fun action acts => acts_modify acts fun _ _ _ _ scripted => by cases scripted
  · have left := entriesLeft_map (fun c => { c with behaviour := .latch (state.handle event) })
      watched.distinct mem
    simp only [entriesLeft, Router.modify]
    simp only [Callback.entriesLeft] at left ⊢
    omega
  · intro c known same
    obtain rfl : callback.id = id := same.symm.trans (find?_mem known).2
    obtain rfl : callback = c := Option.some.inj (found.symm.trans known)
    simp [Callback.latch?, latched]
  · rintro (another | scripted)
    · exact if_neg another
    · refine if_neg fun same => ?_
      subst same
      simp [latch?, found, Callback.latch?, latched] at scripted

/-- It is noted that a scripted callback is handed the event. -/
theorem note_hands (watched : router.Watched id suits emits)
    (found : router.find? other = some callback)
    (scripted : callback.behaviour = .scripted script) :
    Hands id suits emits router (if other = id then [event] else [])
      { router with handled := router.handled ++ [(other, event)] } where
  watched := ⟨watched.distinct, watched.spares, watched.suited⟩
  registered := rfl
  known := rfl
  fewer := Nat.le_refl _
  latch := by
    show router.latch? id = _
    split
    · rename_i same
      subst same
      simp [latch?, found, Callback.latch?, scripted]
    · simp
  noted _ := by
    simp only [noted, List.filterMap_append]
    by_cases same : other = id <;> simp [same]

/-- Taking the next entry of a script hands nobody anything, and one entry less is left. -/
theorem take_hands (watched : router.Watched id suits emits)
    (found : router.find? other = some callback)
    (scripted : callback.behaviour = .scripted (entry :: script)) :
    let taken := router.modify other fun c => { c with behaviour := .scripted script }
    Hands id suits emits router [] taken ∧ taken.entriesLeft < router.entriesLeft := by
  intro taken
  obtain ⟨mem, rfl⟩ := find?_mem found
  have fewer : taken.entriesLeft < router.entriesLeft := by
    have left := entriesLeft_map (fun c => { c with behaviour := .scripted script })
      watched.distinct mem
    have one : callback.entriesLeft = script.length + 1 := by
      simp [Callback.entriesLeft, scripted]
    simp only [taken, entriesLeft, Router.modify]
    simp only [Callback.entriesLeft] at left one ⊢
    omega
  refine ⟨modify_hands watched (fun _ => rfl) (fun _ _ suits => suits) ?_ (Nat.le_of_lt fewer) ?_
    fun _ => rfl, fewer⟩
  · refine fun action acts => acts_modify acts fun other among same rest h due mem' within => ?_
    cases h
    exact ⟨callback, mem, _, scripted, due, .tail _ mem', within⟩
  · intro c known same
    obtain rfl : callback.id = id := same.symm.trans (find?_mem known).2
    obtain rfl : callback = c := Option.some.inj (found.symm.trans known)
    simp [Callback.latch?, scripted]

/-- A callback is handed an event: the watched one takes it if it is the callback, and an entry that
falls due is one that was to be done. -/
theorem handOver_hands {told : Router ε} {due : Option (List (Action ε))}
    (watched : router.Watched id suits emits) (found : router.find? other = some callback)
    (handing : router.handOver callback event = (told, due)) :
    Hands id suits emits router (if other = id then [event] else []) told ∧
      ∀ entry, due = some entry → told.entriesLeft < router.entriesLeft ∧
        ∀ action ∈ entry, router.Acts action := by
  obtain ⟨mem, named⟩ := find?_mem found
  unfold handOver at handing
  rw [named] at handing
  split at handing
  · rename_i state latched
    cases handing
    exact ⟨latch_hands watched found latched, fun _ h => by cases h⟩
  · rename_i script scripted
    have noted : Hands id suits emits router (if other = id then [event] else []) _ :=
      note_hands watched found scripted
    cases script with
    | nil =>
      cases handing
      exact ⟨noted, fun _ h => by cases h⟩
    | cons entry rest =>
      cases handing
      obtain ⟨taken, fewer⟩ := take_hands noted.watched found scripted
      refine ⟨by simpa using noted.trans taken, fun _ h => ?_⟩
      cases h
      exact ⟨fewer, fun action among => ⟨callback, mem, _, scripted, entry, .head _, among⟩⟩

end HandOver

end Pool

section Entries

variable {nested : Event → StateT (Router ε) (StateM σ) (Result Unit)}

/-- Work of the router that hands the watched callback nothing but what callbacks emit. -/
def Quiet (id : String) (suits : List Rule → Prop) (emits : Event → Prop)
    (work : StateT (Router ε) (StateM σ) (Result Unit)) : Prop :=
  ∀ router world, router.Watched id suits emits → ∃ events,
    Hands id suits emits router events (ran work router world).1.2 ∧ ∀ event ∈ events, emits event

variable (perform) in
theorem quiet_act (quiet : ∀ event, emits event → Quiet id suits emits (nested event))
    {action : Action ε} (spares : action.Spares id suits emits) :
    Quiet id suits emits (act perform nested action) := by
  intro router world watched
  cases action with
  | register | unregister => exact spares.elim
  | addRule other rule => exact ⟨[], addRule_hands watched spares, by simp⟩
  | emit event => exact quiet event spares router world watched
  | perform effect => exact ⟨[], .none watched, by simp⟩

theorem quiet_actAll (quiet : ∀ event, emits event → Quiet id suits emits (nested event))
    {entry : List (Action ε)} (spares : ∀ action ∈ entry, action.Spares id suits emits) :
    Quiet id suits emits (actAll perform nested entry) := by
  induction entry with
  | nil => exact fun _ _ watched => ⟨[], .none watched, by simp⟩
  | cons action rest ih =>
    intro router world watched
    obtain ⟨here, others⟩ := List.forall_mem_cons.mp spares
    obtain ⟨events, hands, emitted⟩ :=
      quiet_act perform quiet here router world watched
    cases acted : ran (act perform nested action) router world with
    | mk first after =>
      obtain ⟨outcome, between⟩ := first
      rw [acted] at hands
      cases outcome with
      | error failure =>
        rw [ran_actAll_error acted]
        exact ⟨events, hands, emitted⟩
      | ok _ =>
        rw [ran_actAll_ok acted]
        obtain ⟨more, onward, emittedMore⟩ := ih others between after hands.watched
        exact ⟨events ++ more, hands.trans onward,
          List.forall_mem_append.mpr ⟨emitted, emittedMore⟩⟩

end Entries

section Emission

/-- How often the watched callback is still due to be handed the event, from a position on. -/
def timesDue (router : Router ε) (id : String) (wanted : Bool) (position : Nat) : Nat :=
  if wanted then (router.registered.drop position).count id else 0

/-- It is settled whether the watched callback is handed the event wherever it is registered: the
event is a run's own, no user interrupt arrives, and the rules want it or not. -/
structure Settled (perform : ε → StateM σ (Result Unit)) (event : Event) (id : String)
    (suits : List Rule → Prop) (wanted : Bool) (budget : Nat) (router : Router ε) : Prop where
  own : ∀ object, event.happening ≠ .foreign object
  ordinary : Ordinary perform
  agreed : ∀ rules, suits rules → Rule.wants rules event = .ok wanted
  known : (router.find? id).isSome
  enough : router.entriesLeft ≤ budget

/-- On the way the watched callback is handed the event and what callbacks emit; if the count of the
former is settled it is so many. -/
def Reaches (id : String) (suits : List Rule → Prop) (emits : Event → Prop) (event : Event)
    (settled : Prop) (times : Nat) (router last : Router ε) : Prop :=
  ∃ calls : List Handing, Hands id suits emits router (calls.map (·.event)) last ∧
    (∀ call ∈ calls, if call.own then call.event = event else emits call.event) ∧
    (settled → calls.countP (·.own) = times)

variable {wanted : Bool} {budget times : Nat} {settled onwardSettled : Prop}

theorem Settled.onward {lower : Nat} (settled : Settled perform event id suits wanted budget router)
    (hands : Hands id suits emits router events last) (enough : last.entriesLeft ≤ lower) :
    Settled perform event id suits wanted lower last :=
  ⟨settled.own, settled.ordinary, settled.agreed, by rw [hands.known]; exact settled.known, enough⟩

/-- Nothing is handed over any more. -/
theorem Reaches.none (watched : router.Watched id suits emits) (done : settled → times = 0) :
    Reaches id suits emits event settled times router router :=
  ⟨[], .none watched, by simp, fun h => (done h).symm⟩

/-- First come some calls with the event itself, then some with what callbacks emit, then the rest of
the walk. -/
theorem Reaches.after {here : Nat}
    (hands : Hands id suits emits router (List.replicate here event ++ events) between)
    (emitted : ∀ event ∈ events, emits event)
    (onward : Reaches id suits emits event onwardSettled times between last)
    (still : settled → onwardSettled) :
    Reaches id suits emits event settled (here + times) router last := by
  obtain ⟨calls, more, each, counted⟩ := onward
  let own : List Handing := .replicate here ⟨event, true⟩
  let others : List Handing := events.map fun event => ⟨event, false⟩
  refine ⟨own ++ others ++ calls, ?_, ?_, ?_⟩
  · have same : (own ++ others).map (·.event) = List.replicate here event ++ events := by
      simp [own, others, Function.comp_def]
    rw [List.map_append, same]
    exact hands.trans more
  · simp only [List.forall_mem_append]
    refine ⟨⟨fun call mem => ?_, fun call mem => ?_⟩, each⟩
    · rw [List.eq_of_mem_replicate mem]
      rfl
    · obtain ⟨event, among, rfl⟩ := List.mem_map.mp mem
      exact emitted event among
  · intro h
    simp [own, others, List.countP_append, List.countP_replicate, Function.comp_def,
      counted (still h)]

theorem Reaches.congr {other : Nat}
    (reaches : Reaches id suits emits event settled times router last)
    (same : settled → times = other) :
    Reaches id suits emits event settled other router last := by
  obtain ⟨calls, hands, each, counted⟩ := reaches
  exact ⟨calls, hands, each, fun h => (counted h).trans (same h)⟩

/-- One place further on, one time less is due if the watched callback stands there. -/
theorem timesDue_step {name : String} {position : Nat}
    (here : router.registered[position]? = some name) :
    router.timesDue id wanted position =
      (if wanted = true ∧ name = id then 1 else 0) + router.timesDue id wanted (position + 1) := by
  obtain ⟨within, rfl⟩ := List.getElem?_eq_some_iff.mp here
  unfold timesDue
  rw [List.drop_eq_getElem_cons within, List.count_cons]
  cases wanted <;> by_cases same : router.registered[position] = id <;> simp [same]
  omega

section Sweeping

variable {runEntry : List (Action ε) → StateT (Router ε) (StateM σ) (Result Unit)}
  {resume : Nat → StateT (Router ε) (StateM σ) (Result Unit)}

/-- Where somebody wants the event the watched callback is handed it if it is the one, then what the
entry that falls due emits, and then comes the rest of the walk. -/
theorem sweep_handed_reaches {left position : Nat} {told : Router ε} {world : σ} {name : String}
    {callback : Callback ε} {due : Option (List (Action ε))}
    (entries : ∀ entry : List (Action ε), (∀ action ∈ entry, action.Spares id suits emits) →
      Quiet id suits emits (runEntry entry))
    (calm : Ordinary perform → ∀ entry, Calm (runEntry entry))
    (resumes : ∀ position router world, router.Watched id suits emits →
      Reaches id suits emits event
        (∃ lower < budget, Settled perform event id suits wanted lower router)
        (router.timesDue id wanted position) router (ran (resume position) router world).1.2)
    (passes : ∀ told : Router ε, told.Watched id suits emits → told.registered = router.registered →
      Reaches id suits emits event (Settled perform event id suits wanted budget told)
        (told.timesDue id wanted (position + 1)) told
        (ran (sweep record runEntry resume event left (position + 1)) told world).1.2)
    (watched : router.Watched id suits emits) (here : router.registered[position]? = some name)
    (found : router.find? name = some callback)
    (wants : Rule.wants callback.rules event = .ok true)
    (handing : router.handOver callback event = (told, due)) :
    Reaches id suits emits event (Settled perform event id suits wanted budget router)
      (router.timesDue id wanted position) router
      (ran (sweep record runEntry resume event (left + 1) position) router world).1.2 := by
  have place : router.at? position = some callback := by
    unfold at?
    rw [here]
    exact found
  obtain ⟨handed, later⟩ := handOver_hands watched found handing
  let once : Nat := if name = id then 1 else 0
  have first : Hands id suits emits router (List.replicate once event) told := by
    by_cases same : name = id
    · simpa [once, same] using handed
    · simpa [once, same] using handed
  have rest : ∀ between : Router ε, between.registered = told.registered →
      Settled perform event id suits wanted budget router →
        once + between.timesDue id wanted (position + 1) = router.timesDue id wanted position := by
    intro between same settled
    rw [timesDue_step here, timesDue, timesDue, same, first.registered]
    by_cases chosen : name = id
    · subst chosen
      have agreed := settled.agreed _ (watched.suited callback found)
      rw [wants] at agreed
      cases agreed
      simp [once]
    · simp [once, chosen]
  cases due with
  | none =>
    rw [ran_sweep_handed place wants handing]
    have onward := passes told first.watched first.registered
    rw [← List.append_nil (List.replicate once event)] at first
    refine (Reaches.after first (by simp) onward fun settled => ?_).congr (rest told rfl)
    exact settled.onward first (Nat.le_trans first.fewer settled.enough)
  | some entry =>
    obtain ⟨fewer, acts⟩ := later entry rfl
    obtain ⟨events, does, emitted⟩ := entries entry
      (fun action among => watched.spares action (acts action among)) told world first.watched
    cases entered : ran (runEntry entry) told world with
    | mk outcome after =>
      obtain ⟨outcome, between⟩ := outcome
      rw [entered] at does
      have both := first.trans does
      rcases ran_sweep_entered place wants handing entered with
        ⟨failure, rfl, raw, ended⟩ | ⟨-, resumed⟩
      · have settled_false : Settled perform event id suits wanted budget router → False := by
          intro settled
          have ordinary := calm settled.ordinary entry told world failure (by rw [entered])
          rw [raw] at ordinary
          cases ordinary
        rw [ended]
        have ends : Reaches id suits emits event False 0 between between :=
          .none both.watched fun h => h.elim
        exact (ends.after both emitted settled_false).congr fun h => (settled_false h).elim
      · rw [resumed]
        have onward := resumes (position + 1) between
          (reported record callback event outcome after) both.watched
        refine (Reaches.after both emitted onward fun settled => ?_).congr
          (rest between does.registered)
        have enough := settled.enough
        exact ⟨told.entriesLeft, by omega, settled.onward both does.fewer⟩

/-- A sweep hands the watched callback the event wherever it is due, if what follows a used entry
does. -/
theorem sweep_reaches
    (entries : ∀ entry : List (Action ε), (∀ action ∈ entry, action.Spares id suits emits) →
      Quiet id suits emits (runEntry entry))
    (calm : Ordinary perform → ∀ entry, Calm (runEntry entry))
    (resumes : ∀ position router world, router.Watched id suits emits →
      Reaches id suits emits event
        (∃ lower < budget, Settled perform event id suits wanted lower router)
        (router.timesDue id wanted position) router (ran (resume position) router world).1.2)
    (left position : Nat) (router : Router ε) (world : σ) (watched : router.Watched id suits emits)
    (all : left = router.registered.length - position) :
    Reaches id suits emits event (Settled perform event id suits wanted budget router)
      (router.timesDue id wanted position) router
      (ran (sweep record runEntry resume event left position) router world).1.2 := by
  induction left generalizing position router world with
  | zero =>
    refine .none watched fun _ => ?_
    unfold timesDue
    rw [List.drop_eq_nil_of_le (by omega)]
    simp
  | succ left ih =>
    have within : position < router.registered.length := by omega
    have here := List.getElem?_eq_getElem within
    have place : router.at? position = router.find? router.registered[position] := by
      unfold at?
      rw [here]
      rfl
    have step : router.timesDue id wanted position = _ := timesDue_step here
    -- a place that is passed by is not one where the watched callback is due
    have passed : (∀ callback, router.at? position = some callback →
          Rule.wants callback.rules event = .ok false) →
        Reaches id suits emits event (Settled perform event id suits wanted budget router)
          (router.timesDue id wanted position) router
          (ran (sweep record runEntry resume event (left + 1) position) router world).1.2 := by
      intro unwanted
      rw [ran_sweep_refused unwanted]
      refine (ih (position + 1) router world watched (by omega)).congr fun settled => ?_
      rw [step, if_neg, Nat.zero_add]
      rintro ⟨rfl, same⟩
      rw [same] at place
      obtain ⟨callback, known⟩ := Option.isSome_iff_exists.mp settled.known
      have refused := unwanted callback (place.trans known)
      rw [settled.agreed _ (watched.suited callback known)] at refused
      cases refused
    cases found : router.at? position with
    | none => exact passed fun _ h => by rw [found] at h; cases h
    | some callback =>
      have known := place.symm.trans found
      cases wants : Rule.wants callback.rules event with
      | error cut =>
        rw [ran_sweep_unruled found wants]
        refine .none watched fun settled => ?_
        obtain ⟨_, fine⟩ := wants_ok callback.rules settled.own
        cases wants.symm.trans fine
      | ok accepted =>
        cases accepted with
        | false =>
          refine passed fun other h => ?_
          rw [found] at h
          cases h
          exact wants
        | true =>
          exact sweep_handed_reaches entries calm resumes (fun told watched same =>
            ih (position + 1) told world watched (by rw [same]; omega)) watched here known wants rfl

end Sweeping

variable (perform record) in
/-- An emission hands the watched callback the event wherever it is due, as far as that is settled,
and else only what callbacks emit. -/
theorem emitWithin_reaches (suits : List Rule → Prop) (wanted : Bool) (budget : Nat) (event : Event)
    (position : Nat) (router : Router ε) (world : σ) (watched : router.Watched id suits emits) :
    Reaches id suits emits event (Settled perform event id suits wanted budget router)
      (router.timesDue id wanted position) router
      (ran (emitWithin perform record budget event position) router world).1.2 := by
  induction budget generalizing event position router world with
  | zero =>
    have idle : Quiet id suits emits
        (return .ok () : StateT (Router ε) (StateM σ) (Result Unit)) :=
      fun _ _ watched => ⟨[], .none watched, by simp⟩
    refine sweep_reaches (fun _ _ => idle) (fun _ _ _ _ _ h => by cases h)
      (fun _ _ _ watched => .none watched ?_) _ position router world watched rfl
    rintro ⟨_, below, -⟩
    exact absurd below (Nat.not_lt_zero _)
  | succ budget ih =>
    have nested : ∀ event, emits event →
        Quiet id suits emits (emitWithin perform record budget event 0) := by
      intro event emitted router world watched
      obtain ⟨calls, hands, each, -⟩ := ih event 0 router world watched
      refine ⟨calls.map (·.event), hands, List.forall_mem_map.mpr fun call mem => ?_⟩
      have kind := each call mem
      split at kind
      · rw [kind]
        exact emitted
      · exact kind
    refine sweep_reaches (fun entry spares => quiet_actAll nested spares)
      (fun ordinary entry => calm_actAll ordinary (fun event =>
        calm_emitWithin record ordinary budget event 0) entry) (fun position router world watched =>
        ?_) _ position router world watched rfl
    obtain ⟨calls, hands, each, counted⟩ := ih event position router world watched
    refine ⟨calls, hands, each, ?_⟩
    rintro ⟨lower, below, settled⟩
    exact counted (settled.onward (.none watched) (Nat.le_trans settled.enough (by omega)))

end Emission

section Latches

variable {latch : Latch}

theorem handle_of_not_terminal (going : ¬ event.happening.IsTerminal) :
    latch.handle event = latch := by
  unfold Latch.handle
  split
  · rename_i happening
    exact absurd (by rw [happening]; trivial) going
  · rename_i happening
    exact absurd (by rw [happening]; trivial) going
  · rfl

theorem handle_twice : (latch.handle event).handle event = latch.handle event := by
  cases happening : event.happening <;> simp [Latch.handle, happening]

/-- What a latch makes of an event that it is handed, however often, among others that end no
run. -/
theorem foldl_handle {calls : List Handing} (each : ∀ call ∈ calls,
      if call.own then call.event = event else ¬ call.event.happening.IsTerminal) :
    (calls.map (·.event)).foldl Latch.handle latch =
      if calls.countP (·.own) = 0 then latch else latch.handle event := by
  induction calls generalizing latch with
  | nil => rfl
  | cons call rest ih =>
    obtain ⟨here, others⟩ := List.forall_mem_cons.mp each
    rw [List.map_cons, List.foldl_cons, ih others, List.countP_cons]
    split at here
    · rename_i own
      simp [own, here, handle_twice]
    · rename_i foreign
      simp [foreign, handle_of_not_terminal here]

/-- The rule of a latch stands first, whatever was added to it. -/
def OfLatch (rules : List Rule) : Prop := ∃ more, rules = Latch.rule :: more

theorem ofLatch_append {rules more : List Rule} (latch : OfLatch rules) :
    OfLatch (rules ++ more) := by
  obtain ⟨others, rfl⟩ := latch
  exact ⟨others ++ more, rfl⟩

/-- A latch wants what ends a run. -/
theorem wants_ofLatch {rules : List Rule} (latch : OfLatch rules)
    (ends : event.type = .ready ∨ event.type = .failed) : Rule.wants rules event = .ok true := by
  obtain ⟨more, rfl⟩ := latch
  have accepts : Latch.rule.accepts event = .ok true := by
    rcases ends with h | h <;> simp [Rule.accepts, Rule.demanded, Latch.rule, h]
  simp [Rule.wants, Rule.anyAccepts, accepts]

variable (record) in
/-- A registered latch takes in what is emitted, whatever the other callbacks do, as long as they
leave the registrations alone and do not emit themselves what ends a run. -/
theorem emit_latch (ordinary : Ordinary perform) {happening : Happening} {time : Float}
    (watched : router.Watched id OfLatch fun event => ¬ event.happening.IsTerminal)
    (state : router.latch? id = some latch) (registered : id ∈ router.registered) (world : σ) :
    let last := (ran (emit perform record (.announced happening time)) router world).1.2
    last.Watched id OfLatch (fun event => ¬ event.happening.IsTerminal) ∧
      last.registered = router.registered ∧
      last.latch? id = some (latch.handle (.announced happening time)) := by
  intro last
  obtain ⟨calls, hands, each, counted⟩ := emitWithin_reaches perform record OfLatch true
    router.entriesLeft (.announced happening time) 0 router world watched
  refine ⟨hands.watched, hands.registered, ?_⟩
  have taken : last.latch? id = _ := hands.latch
  rw [taken, state, Option.map_some, foldl_handle each]
  by_cases ends : happening.IsTerminal
  · have known : (router.find? id).isSome := by
      cases found : router.find? id with
      | none => simp [latch?, found] at state
      | some _ => rfl
    have settled : Settled perform (.announced happening time) id OfLatch true router.entriesLeft
        router := by
      refine ⟨?_, ordinary, fun rules latch => wants_ofLatch latch ?_, known, Nat.le_refl _⟩
      · rintro object rfl
        exact ends
      · cases happening <;> simp_all [Happening.IsTerminal, Event.announced, Happening.ownType]
    have some : 0 < router.timesDue id true 0 := by
      simpa [timesDue, List.count_pos_iff] using registered
    rw [if_neg (by rw [counted settled]; omega)]
  · rw [handle_of_not_terminal ends, ite_self]

end Latches

section Filters

variable {phases : List Phase} {phase : Phase}

/-- A callback with no other rule wants what belongs to one of the phases. -/
theorem wants_inPhases (some : phases ≠ []) (belongs : event.phase = .ok phase) :
    Rule.wants [.inPhases phases] event = .ok (phases.contains phase) := by
  have demanding : phases.isEmpty = false := by simpa using some
  have accepts : (Rule.inPhases phases).accepts event = .ok (phases.contains phase) := by
    simp [Rule.accepts, Rule.demanded, Rule.inPhases, demanding, belongs, Except.map]
  rw [Rule.wants, List.isEmpty_cons, if_neg (by decide), Rule.anyAccepts, accepts]
  cases phases.contains phase <;> rfl

variable (record) in
/-- A callback that is registered once and chooses by the phase is handed an event of one of its
phases once, and no other but such as callbacks emit. -/
theorem emit_inPhases (ordinary : Ordinary perform) {happening : Happening} {time : Float}
    (watched : router.Watched id (· = [.inPhases phases]) emits) (some : phases ≠ [])
    (known : (router.find? id).isSome) (once : router.registered.count id = 1)
    (belongs : happening.phase = .ok phase) (world : σ) :
    let event : Event := .announced happening time
    let last := (ran (emit perform record event) router world).1.2
    ∃ calls : List Handing,
      Hands id (· = [.inPhases phases]) emits router (calls.map (·.event)) last ∧
      (∀ call ∈ calls, if call.own then call.event = event else emits call.event) ∧
      (calls.filter (·.own)).map (·.event) = if phase ∈ phases then [event] else [] := by
  intro event last
  obtain ⟨calls, hands, each, counted⟩ := emitWithin_reaches perform record
    (· = [.inPhases phases]) (phases.contains phase) router.entriesLeft event 0 router world watched
  refine ⟨calls, hands, each, ?_⟩
  have settled : Settled perform event id (· = [.inPhases phases]) (phases.contains phase)
      router.entriesLeft router := by
    refine ⟨?_, ordinary, ?_, known, Nat.le_refl _⟩
    · rintro object h
      obtain rfl : happening = .foreign object := h
      cases belongs
    · rintro rules rfl
      exact wants_inPhases some belongs
  have own : (calls.filter (·.own)).map (·.event) =
      List.replicate (calls.countP (·.own)) event := by
    refine List.eq_replicate_iff.mpr ⟨by rw [List.length_map, List.countP_eq_length_filter], ?_⟩
    refine List.forall_mem_map.mpr fun call mem => ?_
    obtain ⟨among, own⟩ := List.mem_filter.mp mem
    simpa [own] using each call among
  rw [own, counted settled]
  by_cases within : phase ∈ phases
  · simp [timesDue, within, once]
  · simp [timesDue, within]

end Filters

end Router

end ClusterReadiness
