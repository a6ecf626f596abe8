import ClusterReadiness.Proofs.Reconciler.EventLog
import ClusterReadiness.Proofs.Router.Isolation
import ClusterReadiness.Rehearsal.Stage

/-!
# Callbacks do not show

A run is attended by callbacks that may fail, call the reconciler again and change the registrations
while it goes on. If none of them is interrupted by the user and none touches what the run asks for,
the run is the same as one that nobody attends: request by request, in what it comes to, and in
what it leaves behind.
-/

namespace ClusterReadiness

/-- What is announced is put into an event, and that is emitted. -/
theorem Router.ran_serve_announce {ε σ : Type} {perform : Phase → ε → StateM σ (Result Unit)}
    {create : Happening → StateM σ Event} {others : (r : Request) → StateM σ r.Answer}
    {phase : Phase} {happening : Happening} {event : Event} {router : Router ε} {world between : σ}
    (created : (create happening).run world = (event, between)) :
    ran (serve perform create others (.announce phase happening)) router world =
      ran (emit (perform phase) (fun level message => others (.record level message)) event) router
        between := by
  have lifted : ran (liftM (create happening) : StateT (Router ε) (StateM σ) Event) router world =
      ((event, router), between) := by
    show ((((create happening).run world).1, router), ((create happening).run world).2) = _
    rw [created]
  exact ran_bind lifted

/-- Callbacks hear of a run once it has begun, and only its own news. -/
def Request.IsProper : Request → Prop
  | .announce phase happening => phase ≠ .idle ∧ ∀ object, happening ≠ .foreign object
  | _ => True

namespace Reconciler

/-- A further call asks for nothing but a line in the log, and keeps the phase. -/
theorem ensureReady_again (reconciler : Reconciler) {phase : Phase} (begun : phase ≠ .idle) :
    reconciler.ensureReady.run.run phase =
      if phase = .ready then
        .ask (.record .info alreadyReadyText) fun _ => .done (.ok (), phase)
      else .done (.error (cannotRunFrom phase), phase) := by
  have again : reconciler.ensureReady.run.run phase = (callAgain phase).run.run phase := by
    show (if phase = .idle then reconciler.bootstrap else callAgain phase).run.run phase = _
    rw [if_neg begun]
  rw [again, callAgain]
  split <;> rfl

section Attending

/-- What a run asks of the world outside: the ports, the sleeper and the clocks, each with a
behaviour of its own. Events are stamped by `time`. -/
structure World (σ : Type) where
  createTopics : List TopicSpec → StateM σ (Result Unit)
  listTopics : StateM σ (Result Listing)
  probe : StateM σ (Result Bool)
  sleep : Number → StateM σ (Result Unit)
  isInterrupted : StateM σ Bool
  clock : StateM σ Float
  time : StateM σ Float

/-- What a callback does besides changing the registrations. -/
inductive Deed (ε : Type) where
  | own (effect : ε)
  | callAgain

/-- What callbacks do of their own, and where the log goes. They may look at the world but change
only what is theirs, and no user interrupt arrives in them. -/
structure Audience (ε τ σ : Type) where
  act : Phase → σ → ε → StateM τ (Result Unit)
  record : Level → String → StateM τ Unit
  ordinary : ∀ phase world effect own failure after,
    (act phase world effect).run own = (.error failure, after) → failure.isUserInterrupt = false

/-- A run's surroundings: what belongs to the callbacks, the world, and the events passed to the
router so far. -/
structure Setting (τ σ : Type) where
  own : τ
  world : σ
  told : List Event

variable {ε τ σ α : Type}

namespace Setting

/-- All of the surroundings but what belongs to the callbacks. -/
def seen (setting : Setting τ σ) : σ × List Event := (setting.world, setting.told)

def inWorld (work : StateM σ α) : StateM (Setting τ σ) α := do
  let setting ← get
  let (value, world) := work.run setting.world
  set { setting with world }
  return value

def inOwn (work : StateM τ α) : StateM (Setting τ σ) α := do
  let setting ← get
  let (value, own) := work.run setting.own
  set { setting with own }
  return value

end Setting

namespace World

def answer (world : World σ) : (r : Request) → StateM σ r.Answer
  | .createTopics specs => world.createTopics specs
  | .listTopics => world.listTopics
  | .probe => world.probe
  | .sleep delay => world.sleep delay
  | .isInterrupted => world.isInterrupted
  | .clock => world.clock
  | .announce _ _ => return .ok ()
  | .record _ _ => return ()

/-- The event that is passed to the router. -/
def event (world : World σ) (happening : Happening) : StateM (Setting τ σ) Event := do
  let event := Event.announced happening (← Setting.inWorld world.time)
  modify fun setting => { setting with told := setting.told ++ [event] }
  return event

end World

namespace Audience

/-- Answers the requests of a run when no callback is registered. -/
def unheard (audience : Audience ε τ σ) (world : World σ) :
    (r : Request) → StateM (Setting τ σ) r.Answer
  | .announce _ happening => do
    let _ ← world.event happening
    return .ok ()
  | .record level message => Setting.inOwn (audience.record level message)
  | r => Setting.inWorld (world.answer r)

/-- What a callback does that hears of a run in some phase. The reconciler is called again in that
phase; where it ends is dropped, since by `ensureReady_again` that is where it began. -/
def perform (audience : Audience ε τ σ) (world : World σ) (reconciler : Reconciler)
    (phase : Phase) : Deed ε → StateM (Setting τ σ) (Result Unit)
  | .own effect => do Setting.inOwn (audience.act phase (← get).world effect)
  | .callAgain =>
    Prod.fst <$> (reconciler.ensureReady.run.run phase).interpret (audience.unheard world)

/-- Nobody attends, and no log is kept. -/
def nobody : Audience Empty Unit σ := ⟨fun _ _ effect => effect.elim, fun _ _ => pure (), by
  intro phase world effect
  cases effect⟩

end Audience

/-- What shows of a call: the requests it made with the answers it got, what it came to and in which
phase, the world it left, and the events it passed to the router. -/
structure Course (σ : Type) where
  trace : List Exchange
  result : Result Unit
  stop : Phase
  world : σ
  told : List Event

def Course.of (watched : List Exchange × Result Unit × Phase) (seen : σ × List Event) : Course σ :=
  ⟨watched.1, watched.2.1, watched.2.2, seen.1, seen.2⟩

/-- The course of a call that is attended by the callbacks of a router. -/
def courseWith (reconciler : Reconciler) (world : World σ) (audience : Audience ε τ σ)
    (router : Router (Deed ε)) (own : τ) (start : Phase) (first : σ) : Course σ :=
  let serve := Router.serve (audience.perform world reconciler) world.event
    (audience.unheard world)
  let ((watched, _), last) :=
    Router.ran ((reconciler.ensureReady.run.run start).watch serve) router ⟨own, first, []⟩
  .of watched last.seen

/-- The course of a call without any callbacks. -/
def courseAlone (reconciler : Reconciler) (world : World σ) (start : Phase) (first : σ) :
    Course σ :=
  let (watched, last) :=
    ((reconciler.ensureReady.run.run start).watch (Audience.nobody.unheard world)).run
      ⟨(), first, []⟩
  .of watched last.seen

end Attending

section Proper

variable {reconciler : Reconciler} {start stop : Phase} {trace : List Exchange}
  {result : Result Unit}

/-- Whatever a run announces it announces in a phase after the idle one. -/
theorem ensureReady_begun (goes : Goes reconciler.ensureReady .idle trace result stop)
    {phase : Phase} {happening : Happening} {answer : Result Unit}
    (mem : (⟨.announce phase happening, answer⟩ : Exchange) ∈ trace) : phase ≠ .idle := by
  have working : ∀ {started : Float} {work : List Exchange} {outcome : Result Unit}
      {last : Phase}, Goes reconciler.workPhases .idle work outcome last →
        (⟨.announce phase happening, answer⟩ : Exchange) ∈ ⟨.clock, started⟩ :: work →
          phase ≠ .idle := by
    intro started work outcome last worked mem
    rcases List.mem_cons.mp mem with h | h
    · cases h
    · exact (workPhases_announces worked _ h phase happening rfl).1
  cases goes_ensureReady goes with
  | failed worked fails =>
    rcases List.mem_append.mp mem with h | h
    · exact working worked h
    · obtain ⟨-, message, ⟨cut, rfl, -⟩ | rfl⟩ := goes_fail fails
      · simp only [changing, logged, List.mem_cons, List.not_mem_nil, or_false] at h
        rcases h with h | h | h <;> cases h
        decide
      · simp only [changing, logged, List.mem_cons, List.mem_append, List.not_mem_nil,
          or_false] at h
        rcases h with (h | h | h) | h <;> cases h <;> decide
  | ready worked =>
    have ready := (workPhases_way worked).ready rfl
    rcases List.mem_append.mp mem with h | h
    · exact working worked h
    · simp only [logged, List.mem_cons, List.not_mem_nil, or_false] at h
      rcases h with h | h | h <;> cases h
      rw [ready]
      decide

theorem ensureReady_proper (goes : Goes reconciler.ensureReady start trace result stop) :
    ∀ e ∈ trace, e.request.IsProper := by
  by_cases idle : start = .idle
  · subst idle
    rintro ⟨request, answer⟩ he
    cases request with
    | announce phase happening =>
      refine ⟨ensureReady_begun goes he, ?_⟩
      rintro object rfl
      exact ensureReady_own goes object (mem_announcements.mpr ⟨phase, answer, he⟩)
    | _ => trivial
  · obtain ⟨-, ⟨-, rfl, -⟩ | ⟨-, rfl, -⟩⟩ := goes_ensureReady_again idle goes
    · exact List.forall_mem_singleton.mpr trivial
    · simp

end Proper

section Steps

variable {ε ε' τ τ' σ α : Type}

/-- Callbacks and a log leave no mark on what is answered outside the router. -/
theorem unheard_seen (audience : Audience ε τ σ) (other : Audience ε' τ' σ) (world : World σ)
    (r : Request) {setting : Setting τ σ} {quiet : Setting τ' σ}
    (same : setting.seen = quiet.seen) :
    let heard := (audience.unheard world r).run setting
    let plain := (other.unheard world r).run quiet
    heard.1 = plain.1 ∧ heard.2.seen = plain.2.seen := by
  obtain ⟨own, here, told⟩ := setting
  obtain ⟨own', here', told'⟩ := quiet
  obtain ⟨rfl, rfl⟩ := Prod.mk.inj same
  cases r <;> exact ⟨rfl, rfl⟩

/-- A request is served, its answer is put on record, and the rest of the program follows. -/
theorem ran_watch_ask {handle : (r : Request) → StateT (Router ε) (StateM σ) r.Answer}
    {r : Request} {next : r.Answer → Program α} {router between : Router ε} {first after : σ}
    {answer : r.Answer} (served : Router.ran (handle r) router first = ((answer, between), after)) :
    let rest := Router.ran ((next answer).watch handle) between after
    Router.ran ((Program.ask r next).watch handle) router first =
      (((⟨r, answer⟩ :: rest.1.1.1, rest.1.1.2), rest.1.2), rest.2) := by
  intro rest
  rw [Program.watch, Router.ran_bind served]
  rfl

theorem run_watch_ask {handle : (r : Request) → StateM σ r.Answer} {r : Request}
    {next : r.Answer → Program α} {first after : σ} {answer : r.Answer}
    (served : (handle r).run first = (answer, after)) :
    let rest := ((next answer).watch handle).run after
    ((Program.ask r next).watch handle).run first =
      ((⟨r, answer⟩ :: rest.1.1, rest.1.2), rest.2) := by
  intro rest
  rw [Program.watch, StateT.run_bind, served]
  rfl

variable (world : World σ) (audience : Audience ε τ σ) (other : Audience ε' τ' σ)
  (reconciler : Reconciler) {phase : Phase}

/-- Once a run has begun, calling the reconciler again fails at most by an ordinary fault. -/
theorem ordinary_perform (begun : phase ≠ .idle) :
    Router.Ordinary (audience.perform world reconciler phase) := by
  intro deed setting failure after failed
  cases deed with
  | own effect =>
    have acted : ((audience.act phase setting.world effect).run setting.own).1 = .error failure :=
      congrArg Prod.fst failed
    exact audience.ordinary phase setting.world effect setting.own failure _ (Prod.ext acted rfl)
  | callAgain =>
    rw [Audience.perform, reconciler.ensureReady_again begun] at failed
    split at failed
    · cases failed
    · cases failed
      rfl

theorem unseen_perform (begun : phase ≠ .idle) :
    Router.Unseen Setting.seen (audience.perform world reconciler phase) := by
  intro deed setting
  cases deed with
  | own effect => rfl
  | callAgain =>
    rw [Audience.perform, reconciler.ensureReady_again begun]
    split <;> rfl

/-- An emission to callbacks is answered as if there were none, and shows as much. -/
theorem serve_announce (begun : phase ≠ .idle) {happening : Happening}
    (own : ∀ object, happening ≠ .foreign object) (router : Router (Deed ε))
    (setting : Setting τ σ) :
    let served := Router.ran (Router.serve (audience.perform world reconciler) world.event
      (audience.unheard world) (.announce phase happening)) router setting
    let plain := (audience.unheard world (.announce phase happening)).run setting
    served.1.1 = plain.1 ∧ served.2.seen = plain.2.seen := by
  intro served plain
  let perform := audience.perform world reconciler phase
  let record : Level → String → StateM (Setting τ σ) Unit :=
    fun level message => audience.unheard world (.record level message)
  let event : Event := ((world.event happening).run setting).1
  let between : Setting τ σ := ((world.event happening).run setting).2
  have emitted : served = Router.ran (Router.emit perform record event) router between :=
    Router.ran_serve_announce rfl
  have told : (Router.ran (Router.emit perform record event) router between).1.1 = .ok () :=
    Router.emit_ok own (ordinary_perform world audience reconciler begun) router between
  have unseen : Router.Unseen Setting.seen perform := unseen_perform world audience reconciler begun
  have log : Router.UnseenLog Setting.seen record := fun _ _ _ => rfl
  have left := Router.leaves_emit unseen log event router between
  rw [emitted]
  exact ⟨told, left⟩

/-- What is served shows as what is answered without any callbacks. -/
theorem serve_seen {r : Request} (proper : r.IsProper) (router : Router (Deed ε))
    {setting : Setting τ σ} {quiet : Setting τ' σ} (same : setting.seen = quiet.seen) :
    let served := Router.ran (Router.serve (audience.perform world reconciler) world.event
      (audience.unheard world) r) router setting
    let plain := (other.unheard world r).run quiet
    served.1.1 = plain.1 ∧ served.2.seen = plain.2.seen := by
  intro served plain
  obtain ⟨answered, left⟩ := unheard_seen audience other world r same
  cases r with
  | announce phase happening =>
    obtain ⟨begun, own⟩ := proper
    obtain ⟨told, kept⟩ := serve_announce world audience reconciler begun own router setting
    exact ⟨told.trans answered, kept.trans left⟩
  | _ => exact ⟨answered, left⟩

/-- As long as the requests are proper, the settings of the two runs show the same. -/
theorem watch_serve_seen (program : Program α) (router : Router (Deed ε))
    {setting : Setting τ σ} {quiet : Setting τ' σ} (same : setting.seen = quiet.seen)
    (proper : ∀ e ∈ ((program.watch (other.unheard world)).run quiet).1.1, e.request.IsProper) :
    let served := Router.ran (program.watch (Router.serve (audience.perform world reconciler)
      world.event (audience.unheard world))) router setting
    let plain := (program.watch (other.unheard world)).run quiet
    served.1.1 = plain.1 ∧ served.2.seen = plain.2.seen := by
  induction program generalizing router setting quiet with
  | done value => exact ⟨rfl, same⟩
  | ask r next ih =>
    intro served plain
    cases asked : (other.unheard world r).run quiet with
    | mk answer quieter =>
      have plainly : ((Program.ask r next).watch (other.unheard world)).run quiet = _ :=
        run_watch_ask asked
      rw [plainly] at proper
      obtain ⟨here, later⟩ := List.forall_mem_cons.mp proper
      obtain ⟨answered, left⟩ := serve_seen world audience other reconciler here router same
      cases first : Router.ran (Router.serve (audience.perform world reconciler) world.event
          (audience.unheard world) r) router setting with
      | mk pair after =>
        obtain ⟨got, between⟩ := pair
        rw [first, asked] at answered left
        obtain rfl : got = answer := answered
        have step : served = _ := ran_watch_ask first
        obtain ⟨kept, shown⟩ := ih _ between left later
        rw [step, show plain = _ from plainly]
        refine ⟨?_, shown⟩
        exact congrArg (fun rest : List Exchange × α => (_ :: rest.1, rest.2)) kept

end Steps

section Courses

variable {ε ε' τ τ' σ : Type}

/-- Callbacks do not show. Whatever rules they have, however they fail, whenever they call the
reconciler again, and whatever they do to the registrations, two calls in the same world have the
same course: the same requests with the same answers in the same order, among them the port calls
and the sleeps, the same end in the same phase, and the same events for the router. It is the course
of a call that nobody attends. -/
theorem ensureReady_transparent (reconciler : Reconciler) (world : World σ) (start : Phase)
    (first : σ) (audience : Audience ε τ σ) (router : Router (Deed ε)) (own : τ)
    (other : Audience ε' τ' σ) (router' : Router (Deed ε')) (own' : τ') :
    reconciler.courseWith world audience router own start first =
      reconciler.courseWith world other router' own' start first ∧
    reconciler.courseWith world audience router own start first =
      reconciler.courseAlone world start first := by
  have same : ∀ {ε τ : Type} (audience : Audience ε τ σ) (router : Router (Deed ε)) (own : τ),
      reconciler.courseWith world audience router own start first =
        reconciler.courseAlone world start first := by
    intro ε τ audience router own
    have alone := runs_watch (Audience.nobody.unheard world)
      (reconciler.ensureReady.run.run start) ⟨(), first, []⟩
    have begins : (⟨own, first, []⟩ : Setting τ σ).seen = (⟨(), first, []⟩ : Setting Unit σ).seen :=
      rfl
    obtain ⟨kept, shown⟩ := watch_serve_seen world audience Audience.nobody reconciler
      (reconciler.ensureReady.run.run start) router begins (ensureReady_proper alone)
    exact congrArg₂ Course.of kept shown
  exact ⟨(same audience router own).trans (same other router' own').symm, same audience router own⟩

/-- A world that counts listings and shows one topic from the second of them on. -/
def slow (name : String) : World Nat where
  createTopics _ := return .ok ()
  listTopics := do
    let before ← get
    set (before + 1)
    return .ok (if before = 0 then [] else [name])
  probe := return .ok true
  sleep _ := return .ok ()
  isInterrupted := return false
  clock := return 0
  time := return 0

/-- Callbacks that make mistakes whenever they do something of their own, and are counted. -/
def stumbling : Audience Unit Nat σ where
  act _ _ _ := do
    modify (· + 1)
    return .error (.of (.runtime "stumbled"))
  record _ _ := return ()
  ordinary := by
    intro phase world effect own failure after failed
    cases failed
    rfl

/-- One callback fails, calls the reconciler again and makes room for another one, which calls it
again when the run is over: the topic is still waited for once, and the run gets ready. -/
theorem ensureReady_transparent_unruly :
    let unruly : Router (Deed Unit) :=
      ⟨[⟨"pager", "Scripted", [], .scripted [[.perform (.own ())], [.perform .callAgain],
          [.register "closer", .unregister "pager", .perform (.own ())]]⟩,
        ⟨"closer", "Scripted", [⟨none, some [.ready], none⟩],
          .scripted [[.perform .callAgain], [.perform .callAgain]]⟩], ["pager"], []⟩
    let course := ordersOnly.courseWith (slow "orders") stumbling unruly 0 .idle 0
    course = ordersOnly.courseWith (slow "orders") stumbling ⟨[], [], []⟩ 0 .idle 0 ∧
    course.result = .ok () ∧ course.stop = .ready ∧ course.world = 2 ∧
    (portCalls course.trace).length = 4 ∧ course.told.length = 8 := by
  intro unruly course
  obtain ⟨same, -⟩ := ensureReady_transparent ordersOnly (slow "orders") .idle 0 stumbling unruly 0
    stumbling ⟨[], [], []⟩ 0
  exact ⟨same, by decide +kernel, by decide +kernel, by decide +kernel, by decide +kernel,
    by decide +kernel⟩

end Courses

end Reconciler

end ClusterReadiness
