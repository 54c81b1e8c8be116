import AmqpAsio.AutoReconnect.Starting
import AmqpAsio.AutoReconnect.Wrapping
import AmqpAsio.ConnectionHandler.Losses
import AmqpAsio.Connector.WellFormed

/-!
# The cycles of AutoReconnect

A cycle begins with an accepted `AutoReconnect::start()` and ends when the exit callback that the
application had installed before is called. It should be called once, and as long as it has not been
called, something should be left that can still lead to it. But `stop()` cancels a pending wait of
the timer and leaves nothing in its place; the callback that a `start()` has saved is forgotten if
the exit callback of the last cycle made that call; and a session that is reported twice calls the
callback twice.
-/

set_option autoImplicit false
set_option relaxedAutoImplicit false

namespace AmqpAsio

namespace Connector

open ConnectionHandler (Continuation Over)

variable {c c' c₁ : Connector} {own : Option ℕ}

/-! ### The record of the cycles -/

/-- No cycle is under way, the application having installed its own exit callback; or one is, which
began with that callback installed. -/
inductive Round
  | closed (own : Option ℕ)
  | opened (own : Option ℕ)
  deriving DecidableEq, Repr

/-- What is recorded begins a cycle or ends one. Only the callback of the present cycle may be
called, and no cycle may begin before the last one has ended; one without a callback ends
unnoticed. -/
def Round.after : Round → Observation → Option Round
  | .closed _, .installed f => some (.closed f)
  | .opened none, .installed f => some (.closed f)
  | .closed own, .startAccepted => some (.opened own)
  | .opened none, .startAccepted => some (.opened none)
  | .opened (some _), .startAccepted => none
  | .opened (some own), .called f _ => if f = own then some (.closed (some own)) else none
  | .closed _, .called _ _ | .opened none, .called _ _ => none
  | r, _ => some r

/-- Where the record stands, unless a callback has been called that should not have been, or a cycle
has not ended before the next. -/
def round (c : Connector) : Option Round := c.log.foldlM Round.after (.closed none)

theorem round_append (new : List Observation) (hlog : c'.log = c.log ++ new) :
    c'.round = c.round.bind fun r ↦ new.foldlM Round.after r := by
  unfold round
  rw [hlog, List.foldlM_append]
  rfl

/-- What is recorded has nothing to do with the cycles. -/
def Observation.isApart : Observation → Bool
  | .exit _ _ | .acted _ _ | .startReturned | .stopCalled => true
  | .called _ _ | .installed _ | .startAccepted => false

theorem Round.after_apart {o : Observation} (ho : o.isApart = true) (r : Round) :
    r.after o = some r := by
  cases o with
  | called | installed | startAccepted => cases ho
  | _ => rcases r with _ | ⟨_ | _⟩ <;> rfl

theorem round_record {o : Observation} (ho : o.isApart = true) : (c.record o).round = c.round := by
  rw [round_append (c := c) [o] rfl]
  simp [Round.after_apart ho]

/-! ### What can still lead to the callback -/

/-- An attempt is in progress; or the connector is connected, or has lost the connection and a
`stop()` is outstanding; or it is being shut down, or its transceivers are being dropped. -/
def UnderWay (c : Connector) : Prop :=
  c.connectionHandler.state = .eResolving ∨ c.connectionHandler.state = .eConnecting ∨
    c.connectionHandlerReady = true ∧ (c.connectionHandler.ready = true ∨ ¬ c.NoStop) ∨
    .shutdown c.session ∈ c.tasks ∨ .drop c.session ∈ c.tasks

/-- The present session is under way, or the timer is armed or has expired. -/
def Pending (c : Connector) : Prop :=
  c.UnderWay ∨ c.auto.waiting = true ∨ 0 < c.auto.expired

/-- In every cycle the callback has been called once at most, and only after that has the next one
begun. Between cycles the connector has the application's own exit callback. In a cycle something is
left that can still lead to the callback; without one, it may also have ended. -/
def CallsOnce (c : Connector) : Prop :=
  ∃ r, c.round = some r ∧
    (∀ own, r = .closed own → c.exitCb = own.map .application) ∧
    ∀ own, r = .opened own → c.Pending ∨ own = none ∧ c.exitCb = none

theorem not_pending (hstate : c.connectionHandler.state = .eNotConnected)
    (hready : c.connectionHandlerReady = false) (htasks : c.tasks = [])
    (hwaiting : c.auto.waiting = false) (hexpired : c.auto.expired = 0) : ¬ c.Pending := by
  simp [Pending, UnderWay, hstate, hready, htasks, hwaiting, hexpired]

/-- The callback has not been called, and nothing is left that could lead to it. -/
theorem not_callsOnce {f : ℕ} (hround : c.round = some (.opened (some f))) (hnot : ¬ c.Pending) :
    ¬ c.CallsOnce := by
  rintro ⟨r, hr, -, hopened⟩
  obtain rfl := Option.some.inj (hround.symm.trans hr)
  rcases hopened (some f) rfl with hpending | ⟨hnone, -⟩
  exacts [hnot hpending, nomatch hnone]

/-! ### The invariant -/

/-- A cycle is under way: the connector has the wrapper, which has saved the callback. -/
structure Wrapped (own : Option ℕ) (c : Connector) : Prop where
  exitCb : c.exitCb = some .restart
  backup : c.auto.backupExitCallback = own.map .application
  round : c.round = some (.opened own)

/-- No cycle is under way: the connector has the callback of the application. -/
structure Unwound (own : Option ℕ) (c : Connector) : Prop where
  exitCb : c.exitCb = own.map .application
  round : c.round = some (.closed own) ∨ own = none ∧ c.round = some (.opened own)

/-- Between two cycles it does not matter whether one without a callback is over. -/
theorem Unwound.round_record {o : Observation} {r : Round} (h : Unwound own c)
    (hclosed : (Round.closed own).after o = some r)
    (hopened : own = none → (Round.opened own).after o = some r) : (c.record o).round = some r := by
  refine (round_append (c := c) [o] rfl).trans ?_
  rcases h.round with hround | ⟨hnone, hround⟩
  · simp [hround, hclosed]
  · simp [hround, hopened hnone]

/-- Every session has been reported. -/
structure AtRest (c : Connector) : Prop where
  reported : ∀ i < c.handlers.length, exitCodes i c.log ≠ []
  ready : c.connectionHandlerReady = false

/-- Every session but the present one has been reported. -/
structure Unanswered (c : Connector) : Prop where
  lt : c.session < c.handlers.length
  current : exitCodes c.session c.log = []
  others : ∀ i < c.handlers.length, i ≠ c.session → exitCodes i c.log ≠ []

/-- The timer is not armed and has not expired. -/
def Untimed (c : Connector) : Prop := c.auto.waiting = false ∧ c.auto.expired = 0

/-- Where a connector stands: it is at rest and no cycle is under way; or in a cycle, with a session
under way, or waiting for the timer. -/
inductive Stands (c : Connector) : Prop
  | idle {own : Option ℕ} (hround : Unwound own c) (hrest : c.AtRest) (htimer : c.Untimed)
  | active {own : Option ℕ} (hround : Wrapped own c) (hsession : c.Unanswered)
      (hunderWay : c.UnderWay) (htimer : c.Untimed)
  | timed {own : Option ℕ} (hround : Wrapped own c) (hrest : c.AtRest)
      (htimer : c.auto.waiting = true ∧ c.auto.expired = 0 ∨
        c.auto.waiting = false ∧ c.auto.expired = 1)

theorem Stands.callsOnce (h : c.Stands) : c.CallsOnce := by
  rcases h with ⟨⟨hexitCb, hround⟩, -, -⟩ | ⟨hround, -, hunderWay, -⟩ | ⟨hround, -, htimer⟩
  · rcases hround with hround | ⟨rfl, hround⟩
    · refine ⟨_, hround, ?_, fun _ h ↦ (nomatch h)⟩
      rintro _ ⟨⟩
      exact hexitCb
    · refine ⟨_, hround, fun _ h ↦ (nomatch h), ?_⟩
      rintro _ ⟨⟩
      exact Or.inr ⟨rfl, hexitCb⟩
  · refine ⟨_, hround.round, fun _ h ↦ (nomatch h), fun _ _ ↦ Or.inl (Or.inl hunderWay)⟩
  · refine ⟨_, hround.round, fun _ h ↦ (nomatch h), fun _ _ ↦ Or.inl (Or.inr ?_)⟩
    exact htimer.imp And.left fun h ↦ by omega

/-! ### What changes nothing -/

/-- Nothing has changed of what the invariant is about, but that a task may have come up. -/
structure Along (c c' : Connector) : Prop where
  length : c'.handlers.length = c.handlers.length
  states : ∀ i, (c'.handler i).state = (c.handler i).state
  ready : c'.connectionHandlerReady = c.connectionHandlerReady
  loops : ∀ i, .shutdown i ∈ c.tasks → .shutdown i ∈ c'.tasks
  drops : ∀ i, .drop i ∈ c.tasks → .drop i ∈ c'.tasks
  noStop : c'.NoStop → c.NoStop
  exits : ∀ i, exitCodes i c'.log = exitCodes i c.log
  round : c'.round = c.round
  exitCb : c'.exitCb = c.exitCb
  backup : c'.auto.backupExitCallback = c.auto.backupExitCallback
  waiting : c'.auto.waiting = c.auto.waiting
  expired : c'.auto.expired = c.auto.expired

theorem Along.session (h : Along c c') : c'.session = c.session := congrArg (· - 1) h.length

theorem Along.state (h : Along c c') : c'.connectionHandler.state = c.connectionHandler.state := by
  unfold connectionHandler
  rw [h.session]
  exact h.states c.session

theorem Along.trans (hfirst : Along c c₁) (hsecond : Along c₁ c') : Along c c' where
  length := hsecond.length.trans hfirst.length
  states i := (hsecond.states i).trans (hfirst.states i)
  ready := hsecond.ready.trans hfirst.ready
  loops i hi := hsecond.loops i (hfirst.loops i hi)
  drops i hi := hsecond.drops i (hfirst.drops i hi)
  noStop h := hfirst.noStop (hsecond.noStop h)
  exits i := (hsecond.exits i).trans (hfirst.exits i)
  round := hsecond.round.trans hfirst.round
  exitCb := hsecond.exitCb.trans hfirst.exitCb
  backup := hsecond.backup.trans hfirst.backup
  waiting := hsecond.waiting.trans hfirst.waiting
  expired := hsecond.expired.trans hfirst.expired

/-- What leaves the connector alike, and the wrapper as it is, changes nothing. -/
theorem Alike.along (h : Alike c c') (hround : c'.round = c.round) (hexitCb : c'.exitCb = c.exitCb)
    (hbackup : c'.auto.backupExitCallback = c.auto.backupExitCallback)
    (hwaiting : c'.auto.waiting = c.auto.waiting) (hexpired : c'.auto.expired = c.auto.expired) :
    Along c c' := by
  have hmem {task : Task} (htask : task.isWork = true) : task ∈ c.tasks ↔ task ∈ c'.tasks := by
    rw [← mem_work htask, ← mem_work htask, h.work]
  refine ⟨h.length, h.states, h.ready, fun i hi ↦ (hmem rfl).mp hi, fun i hi ↦ (hmem rfl).mp hi, ?_,
    h.exits, hround, hexitCb, hbackup, hwaiting, hexpired⟩
  rintro ⟨hposted, hnone⟩
  refine ⟨h.posted ▸ hposted, fun issued ↦ ⟨fun hstop ↦ ?_, fun hstop ↦ ?_⟩⟩
  · exact (hnone issued).1 ((hmem rfl).mp hstop)
  · exact (hnone issued).2 ((hmem rfl).mp hstop)

theorem Quiet.along (h : Quiet c c') : Along c c' :=
  h.alike.along (by rw [round, round, h.log]) h.exitCb h.backup h.waiting h.expired

/-- A call is suspended. -/
theorem along_push (c : Connector) (f : Frame) : Along c (c.push f) := by
  have hmem {task : Task} (htask : task ∈ c.tasks) : task ∈ (c.push f).tasks := by
    rw [tasks_push]
    exact List.mem_append_right _ htask
  refine ⟨rfl, fun _ ↦ rfl, rfl, fun _ ↦ hmem, fun _ ↦ hmem, fun hnone ↦ ⟨hnone.1, fun issued ↦ ?_⟩,
    fun _ ↦ rfl, rfl, rfl, rfl, rfl, rfl⟩
  exact (hnone.2 issued).imp (fun h hi ↦ h (hmem hi)) fun h hi ↦ h (hmem hi)

/-- The handler of a session changes, but not its state. -/
theorem along_setHandler {session : ℕ} {v : ConnectionHandler}
    (hstate : v.state = (c.handler session).state) : Along c (c.setHandler session v) := by
  refine ⟨length_setHandler c session v, fun i ↦ ?_, rfl, fun _ ↦ id, fun _ ↦ id, id, fun _ ↦ rfl,
    rfl, rfl, rfl, rfl, rfl⟩
  by_cases hlt : session < c.handlers.length
  · by_cases hi : i = session
    · subst hi
      rw [handler_setHandler c i v hlt, hstate]
    · rw [handler_setHandler_of_ne c v hi]
  · rw [setHandler_of_le (Nat.not_lt.mp hlt)]

theorem Wrapped.along (h : Wrapped own c) (halong : Along c c') : Wrapped own c' :=
  ⟨halong.exitCb.trans h.exitCb, halong.backup.trans h.backup, halong.round.trans h.round⟩

theorem AtRest.along (h : c.AtRest) (halong : Along c c') : c'.AtRest where
  reported i hi := by
    rw [halong.exits]
    exact h.reported i (halong.length ▸ hi)
  ready := halong.ready.trans h.ready

theorem Unanswered.along (h : c.Unanswered) (halong : Along c c') : c'.Unanswered where
  lt := by
    rw [halong.session, halong.length]
    exact h.lt
  current := by
    rw [halong.session, halong.exits]
    exact h.current
  others i hi := by
    rw [halong.session, halong.exits]
    exact h.others i (halong.length ▸ hi)

theorem Untimed.along (h : c.Untimed) (halong : Along c c') : c'.Untimed :=
  ⟨halong.waiting.trans h.1, halong.expired.trans h.2⟩

theorem UnderWay.along (h : c.UnderWay) (halong : Along c c') : c'.UnderWay := by
  unfold UnderWay
  rw [halong.state, halong.session, halong.ready, ConnectionHandler.ready_iff, halong.state,
    ← ConnectionHandler.ready_iff]
  refine h.imp_right (Or.imp_right (Or.imp (And.imp_right ?_) ?_))
  · exact Or.imp_right fun hstop hnone ↦ hstop (halong.noStop hnone)
  · exact Or.imp (halong.loops _) (halong.drops _)

theorem Stands.along (h : c.Stands) (halong : Along c c') : c'.Stands := by
  cases h with
  | idle hround hrest htimer =>
    refine Stands.idle ⟨halong.exitCb.trans hround.exitCb, ?_⟩ (hrest.along halong)
      (htimer.along halong)
    rw [halong.round]
    exact hround.round
  | active hround hsession hunderWay htimer =>
    exact Stands.active (hround.along halong) (hsession.along halong) (hunderWay.along halong)
      (htimer.along halong)
  | timed hround hrest htimer =>
    refine Stands.timed (hround.along halong) (hrest.along halong) ?_
    rw [halong.waiting, halong.expired]
    exact htimer

/-! ### The end of a session -/

theorem auto_restore (c : Connector) (code : ExitCode) : (c.restore code).auto = c.auto := by
  simp only [restore]
  split <;> rfl

/-- The application gets its callback back, and it is called. -/
theorem Wrapped.restore (h : Wrapped own c) (code : ExitCode) : Unwound own (c.restore code) := by
  cases own with
  | none =>
    have hbackup : c.auto.backupExitCallback = none := h.backup
    simp only [Connector.restore, hbackup]
    exact ⟨rfl, Or.inr ⟨rfl, h.round⟩⟩
  | some f =>
    have hbackup : c.auto.backupExitCallback = some (.application f) := h.backup
    simp only [Connector.restore, hbackup]
    refine ⟨rfl, Or.inl ((round_append (c := c) [.called f code] rfl).trans ?_)⟩
    rw [h.round]
    simp [Round.after]

/-- The session that is left is reported to the wrapper, which ends the cycle or arms the timer. -/
theorem Wrapped.exit {session : ℕ} (h : Wrapped own c)
    (hothers : ∀ i < c.handlers.length, i ≠ session → exitCodes i c.log ≠ [])
    (hready : c.connectionHandlerReady = false) (htimer : c.Untimed) (code : ExitCode) :
    (c.exit session code).Stands := by
  have hexit : c.exit session code = (c.record (.exit session code)).restart code := by
    unfold Connector.exit
    rw [h.exitCb]
  have hwrapped : Wrapped own (c.record (.exit session code)) :=
    ⟨h.exitCb, h.backup, (round_record rfl).trans h.round⟩
  have halike := alike_restart (c.record (.exit session code)) code
  have hrest : ((c.record (.exit session code)).restart code).AtRest := by
    refine ⟨fun i hi ↦ ?_, halike.ready.trans hready⟩
    rw [halike.exits, exitCodes_record_exit]
    by_cases heq : session = i
    · simp [heq]
    · rw [if_neg heq, List.append_nil]
      exact hothers i (halike.length ▸ hi) (Ne.symm heq)
  rw [hexit]
  unfold restart at hrest ⊢
  split at hrest
  · next hstopped =>
    rw [if_pos hstopped]
    exact Stands.idle (hwrapped.restore code) hrest (by rwa [Untimed, auto_restore])
  · next hstarted =>
    rw [if_neg hstarted]
    cases code with
    | eNormal =>
      have hset : Wrapped own { c.record (.exit session .eNormal) with
          auto := { c.auto with started := false } } := { hwrapped with }
      exact Stands.idle (hset.restore .eNormal) hrest (by rwa [Untimed, auto_restore])
    | eBrokerConnectError | eAmqpError =>
      exact Stands.timed { hwrapped with } hrest (Or.inl ⟨rfl, htimer.2⟩)

/-- The present session is over, but not reported yet. -/
theorem Unanswered.onShutdown (h : c.Unanswered) (hround : Wrapped own c) (htimer : c.Untimed) :
    (c.onShutdown c.session).Stands := by
  unfold Connector.onShutdown
  split
  · exact Wrapped.exit (c := c.disconnected) { hround with } h.others rfl htimer _
  · split
    · next hready =>
      refine Wrapped.exit (c := { c with amqpConnection := none, sentinel := false })
        { hround with }
        h.others ?_ htimer _
      simpa using hready
    · next hready =>
      have hready' : c.connectionHandlerReady = true := by simpa using hready
      have hpush (f : Frame) (hunderWay : (c.push f).UnderWay) : (c.push f).Stands :=
        Stands.active (hround.along (along_push c f)) (h.along (along_push c f)) hunderWay htimer
      split
      · refine hpush _ (Or.inr (Or.inr (Or.inr (Or.inr ?_))))
        rw [tasks_push]
        exact List.mem_cons_self
      · unfold Connector.stop
        rw [if_neg (by simp [hready'])]
        refine hpush _ (Or.inr (Or.inr (Or.inl ⟨hready', Or.inr fun hnone ↦ ?_⟩)))
        refine (hnone.2 c.session).1 ?_
        rw [tasks_push]
        exact List.mem_cons_self

theorem Unanswered.setHandler {v : ConnectionHandler} (h : c.Unanswered) :
    (c.setHandler c.session v).Unanswered where
  lt := by
    rw [session_setHandler, length_setHandler]
    exact h.lt
  current := by
    rw [session_setHandler]
    exact h.current
  others i hi := by
    rw [session_setHandler]
    exact h.others i (length_setHandler c c.session v ▸ hi)

/-- The present handler is back in `eNotConnected`. -/
theorem Unanswered.ends (h : c.Unanswered) (hround : Wrapped own c) (htimer : c.Untimed)
    (v : ConnectionHandler) :
    (((c.setHandler c.session v).push (.shutdownCb c.session)).onShutdown c.session).Stands := by
  have halong := along_push (c.setHandler c.session v) (.shutdownCb c.session)
  have hset : Wrapped own (c.setHandler c.session v) := { hround with }
  have hends := (h.setHandler.along halong).onShutdown (hset.along halong) htimer
  rwa [session_push, session_setHandler] at hends

theorem Unanswered.finish (h : c.Unanswered) (hround : Wrapped own c) (htimer : c.Untimed) :
    (c.finish c.session).Stands := h.ends hround htimer _

/-- The present handler shuts down, and may have to wait. -/
theorem Unanswered.shutdownLoop {v : ConnectionHandler} (h : c.Unanswered)
    (hround : Wrapped own c) (htimer : c.Untimed) :
    (c.handle c.session (v, .shutdownLoop)).Stands := by
  simp only [Connector.handle]
  have hset : Wrapped own (c.setHandler c.session v) := { hround with }
  split
  · have halong := along_push (c.setHandler c.session v) (.shutdownLoop c.session)
    refine Stands.active (hset.along halong) (h.setHandler.along halong) ?_ htimer
    refine Or.inr (Or.inr (Or.inr (Or.inl ?_)))
    rw [session_push, session_setHandler, tasks_push]
    exact List.mem_cons_self
  · have hfinish := (h.setHandler (v := v)).finish hset htimer
    rwa [session_setHandler] at hfinish

/-! ### The methods of a handler -/

theorem along_stop (c : Connector) : Along c c.stop := by
  unfold stop
  split
  · exact (Quiet.refl c).along
  · exact along_push c _

theorem along_callStartedCb (c : Connector) : Along c c.callStartedCb := by
  unfold callStartedCb
  split
  · exact (Quiet.refl c).along
  · exact along_push c _
  · by_cases hstop : c.auto.needStop
    · have hset : Along c { c with auto := { c.auto with needStop := false } } :=
        ⟨rfl, fun _ ↦ rfl, rfl, fun _ ↦ id, fun _ ↦ id, id, fun _ ↦ rfl, rfl, rfl, rfl, rfl, rfl⟩
      unfold started
      rw [if_pos hstop]
      exact hset.trans (along_stop _)
    · exact (quiet_started (by simpa using hstop)).along

/-- The handler of a session that is over does nothing. -/
theorem along_handle {session : ℕ} {r : ConnectionHandler × Continuation}
    (hstate : (c.handler session).state = .eNotConnected) (hacts : (c.handler session).Acts r) :
    Along c (c.handle session r) := by
  have htransition := hacts.transition
  obtain ⟨v, next⟩ := r
  have hloop : next ≠ .shutdownLoop := by
    rintro rfl
    exact htransition.1 hstate
  obtain ⟨hnext, hsame⟩ := htransition.still (Or.inl hstate) hloop
  have hset : Along c (c.setHandler session v) := along_setHandler hsame
  rcases hnext with rfl | rfl
  · exact hset
  · exact hset.trans (along_push _ _)

/-- A method of the present handler, whose session is under way. -/
theorem Unanswered.handle {r : ConnectionHandler × Continuation} (h : c.Unanswered)
    (hround : Wrapped own c) (htimer : c.Untimed) (hunderWay : c.UnderWay)
    (hsound : c.connectionHandler.Sound) (hacts : c.connectionHandler.Acts r) :
    (c.handle c.session r).Stands := by
  have htransition := hacts.transition
  have hactive := Stands.active hround h hunderWay htimer
  obtain ⟨v, next⟩ := r
  have hself := connectionHandler_setHandler c v h.lt
  cases next with
  | done =>
    rcases htransition with hstate | ⟨hadvances, hcb⟩
    · exact hactive.along (along_setHandler hstate)
    · change (c.setHandler c.session v).Stands
      refine Stands.active { hround with } h.setHandler ?_ htimer
      unfold UnderWay at hunderWay ⊢
      rw [hself, session_setHandler, ConnectionHandler.ready_iff]
      rw [ConnectionHandler.ready_iff] at hunderWay
      rcases hadvances with ⟨hstate, hv⟩ | ⟨hstate, hv⟩ | ⟨hstate, hv⟩
      · exact Or.inr (Or.inl hv)
      · exact absurd (hcb hv) (by simp [hsound.connectedCb])
      · rcases hunderWay with hs | hs | hunderWay
        · simp [hstate] at hs
        · simp [hstate] at hs
        · exact Or.inr (Or.inr (hunderWay.imp_left (And.imp_right fun _ ↦ Or.inl (Or.inr hv))))
  | connectedCb =>
    change (c.setHandler c.session v).onConnected.Stands
    rw [onConnected_setHandler v h.lt]
    refine Stands.along ?_ (along_callStartedCb _)
    have hset := h.setHandler (v := (v.onData protocolHeader).1)
    refine Stands.active { hround with } { hset with } (Or.inr (Or.inr (Or.inl ⟨rfl, Or.inl ?_⟩)))
      htimer
    have hself' := connectionHandler_setHandler c (v.onData protocolHeader).1 h.lt
    have hready : (v.onData protocolHeader).1.ready = true :=
      ConnectionHandler.ready_iff.mpr (Or.inr (ConnectionHandler.state_onData htransition.2 _))
    exact (congrArg ConnectionHandler.ready hself').trans hready
  | parse =>
    exact hactive.along ((along_setHandler htransition.2).trans (along_push _ _))
  | shutdownLoop => exact h.shutdownLoop hround htimer
  | shutdownCb message => exact h.ends hround htimer v

/-- A reported session is over. -/
theorem WellFormed.stopped {i : ℕ} (h : c.WellFormed fun _ ↦ False)
    (hreported : exitCodes i c.log ≠ []) : (c.handler i).state = .eNotConnected :=
  (h.answered i hreported).2

theorem AtRest.stopped (h : c.AtRest) (hwf : c.WellFormed fun _ ↦ False) (i : ℕ) :
    (c.handler i).state = .eNotConnected := by
  by_cases hi : i < c.handlers.length
  · exact hwf.stopped (h.reported i hi)
  · rw [handler_of_le (Nat.not_lt.mp hi)]
    rfl

theorem Stands.handle {session : ℕ} {r : ConnectionHandler × Continuation} (h : c.Stands)
    (hwf : c.WellFormed fun _ ↦ False) (hlt : session < c.handlers.length)
    (hacts : (c.handler session).Acts r) : (c.handle session r).Stands := by
  cases h with
  | idle hround hrest htimer =>
    exact (Stands.idle hround hrest htimer).along (along_handle (hrest.stopped hwf session) hacts)
  | timed hround hrest htimer =>
    exact (Stands.timed hround hrest htimer).along (along_handle (hrest.stopped hwf session) hacts)
  | active hround hsession hunderWay htimer =>
    by_cases hcurrent : session = c.session
    · subst hcurrent
      exact hsession.handle hround htimer hunderWay (hwf.sound _ (handler_mem hlt)) hacts
    · have hstate := hwf.stopped (hsession.others session hlt hcurrent)
      exact (Stands.active hround hsession hunderWay htimer).along (along_handle hstate hacts)

/-! ### The next session -/

/-- A connector at rest begins a session. -/
theorem AtRest.asyncStart (h : c.AtRest) (hwf : c.WellFormed fun _ ↦ False)
    (hround : Wrapped own c) (htimer : c.Untimed) (callback : Option StartedCallback) :
    (c.asyncStart callback).Stands := by
  have hstate : c.connectionHandler.state = .eNotConnected := h.stopped hwf c.session
  have hdown : c.connectionHandler.connected = false := by
    simp [ConnectionHandler.connected, hstate]
  rcases asyncStart_cases callback h.ready hwf.sound hdown with ⟨-, heq⟩ | ⟨hne, -⟩
  · rw [heq]
    refine Stands.active { hround with } ⟨?_, ?_, fun i hi hne ↦ ?_⟩
      (Or.inl (state_begun c callback _))
      htimer
    · rw [session_begun]
      simp [begun]
    · rw [session_begun]
      by_contra hreported
      exact absurd (hwf.answered _ hreported).1 (Nat.lt_irrefl _)
    · rw [session_begun] at hne
      simp only [begun, List.length_append, List.length_singleton] at hi
      exact h.reported i (by omega)
  · exact absurd hstate hne

/-- `AutoReconnect::start` saves the callback of the application and begins a cycle. -/
theorem Unwound.autoStart (h : Unwound own c) (hrest : c.AtRest) (htimer : c.Untimed)
    (hwf : c.WellFormed fun _ ↦ False) (callback : Bool) (hstarted : c.auto.started = false) :
    (c.autoStart callback).Stands := by
  simp only [Connector.autoStart]
  rw [if_neg (by simp [hstarted])]
  set c₁ : Connector := { c with
    auto := { c.auto with
      needStop := false, rerun := false
      backupExitCallback := c.exitCb, startedCallback := callback }
    exitCb := some .restart } with hc₁
  have hround : Wrapped own (c₁.record .startAccepted) := by
    refine ⟨rfl, h.exitCb, h.round_record rfl fun hnone ↦ hnone ▸ rfl⟩
  have haside : ∀ o ∈ [Observation.startAccepted], o.isAside = true := by
    simp [Observation.isAside]
  have hexits (i : ℕ) : exitCodes i (c₁.record .startAccepted).log = exitCodes i c.log :=
    exitCodes_append_aside haside i c.log
  have hwf₁ : ((c₁.record .startAccepted).push .autoStart).WellFormed fun _ ↦ False :=
    hwf.alike (alike_of_eq [.startAccepted] rfl rfl rfl rfl rfl rfl (by simp [Observation.isAside]))
  have hrest₁ : ((c₁.record .startAccepted).push .autoStart).AtRest :=
    ⟨fun i hi ↦ (hexits i).symm ▸ hrest.reported i hi, hrest.ready⟩
  exact hrest₁.asyncStart hwf₁ (hround.along (along_push _ _)) htimer _

/-! ### The steps -/

/-- Before the event. `AutoReconnect::stop` is not accepted while the timer is armed, and `start`
only where the connector has not got the wrapper. The application leaves the exit callback alone in
a cycle, and begins no session of its own. -/
def Regular (c : Connector) : Event → Prop
  | .autoStop => c.auto.started = true → c.auto.waiting = false
  | .autoStart _ => c.auto.started = false → c.exitCb ≠ some .restart
  | .onExit _ => c.exitCb ≠ some .restart
  | .asyncStart _ | .start => c.connectionHandlerReady = true
  | _ => True

/-- Before a suspended call goes on. A call of the exit callback does not return to `restart` after
it has begun another cycle, and no session is reported that has been reported. -/
def RegularDue (c : Connector) : Prop :=
  (c.due = some .backup → c.exitCb = some .restart → c.auto.backupExitCallback = none) ∧
    ∀ i, c.due = some (.shutdown i) ∨ c.due = some (.drop i) → exitCodes i c.log = []

theorem Quiet.regular {e : Event} (hquiet : Quiet c c') (h : c.Regular e) : c'.Regular e := by
  cases e <;> simp only [Regular, hquiet.started, hquiet.waiting, hquiet.exitCb, hquiet.ready]
    at h ⊢
  all_goals exact h

theorem along_autoStop (hwaiting : c.auto.started = true → c.auto.waiting = false) :
    Along c c.autoStop := by
  have hcalled : Along c (c.record .stopCalled) := by
    refine Alike.along ?_ (round_record rfl) rfl rfl rfl rfl
    exact alike_of_eq [.stopCalled] rfl rfl rfl rfl rfl rfl (by simp [Observation.isAside])
  have hset (auto : AutoReconnect) (hbackup : auto.backupExitCallback = c.auto.backupExitCallback)
      (hwaiting : auto.waiting = c.auto.waiting) (hexpired : auto.expired = c.auto.expired) :
      Along c { c.record .stopCalled with auto := auto } :=
    hcalled.trans ⟨rfl, fun _ ↦ rfl, rfl, fun _ ↦ id, fun _ ↦ id, id, fun _ ↦ rfl, rfl, rfl,
      hbackup, hwaiting, hexpired⟩
  simp only [Connector.autoStop]
  split
  · exact hcalled
  · next hstarted =>
    have hunarmed := hwaiting (by simpa [record] using hstarted)
    split
    · refine Along.trans ?_ ((along_push _ .autoStop).trans (along_stop _))
      exact hset { c.auto with waiting := false } rfl hunarmed.symm rfl
    · exact hset { c.auto with waiting := false, needStop := true, started := false } rfl
        hunarmed.symm rfl

theorem Stands.occur {e : Event} (h : c.Stands) (hwf : c.WellFormed fun _ ↦ False)
    (hregular : c.Regular e) (hoccur : c.occur e = some c') : c'.Stands := by
  cases e with
  | remove transceiver =>
    rw [← Option.some.inj hoccur]
    exact h.along ⟨rfl, fun _ ↦ rfl, rfl, fun _ ↦ id, fun _ ↦ id, id, fun _ ↦ rfl, rfl, rfl, rfl,
      rfl, rfl⟩
  | run => exact Option.some.inj hoccur ▸ h.along (quiet_run c).along
  | asyncStart callback =>
    rw [← Option.some.inj hoccur, asyncStart_of_ready hregular]
    exact h
  | start =>
    have hready : c.connectionHandlerReady = true := hregular
    rw [← Option.some.inj hoccur, Connector.start, if_pos hready]
    exact h
  | stop => exact Option.some.inj hoccur ▸ h.along (along_stop c)
  | onExit f =>
    rw [← Option.some.inj hoccur]
    cases h with
    | idle hround hrest htimer =>
      have haside : ∀ o ∈ [Observation.installed f], o.isAside = true := by
        simp [Observation.isAside]
      have hexits (i : ℕ) : exitCodes i (c.record (.installed f)).log = exitCodes i c.log :=
        exitCodes_append_aside haside i c.log
      have hinstalled : (c.record (.installed f)).round = some (.closed f) :=
        hround.round_record rfl fun hnone ↦ hnone ▸ rfl
      refine Stands.idle ⟨rfl, Or.inl hinstalled⟩ ⟨fun i hi ↦ ?_, hrest.ready⟩ htimer
      exact (hexits i).symm ▸ hrest.reported i hi
    | active hround | timed hround => exact absurd hround.exitCb hregular
  | autoStart callback =>
    rw [← Option.some.inj hoccur]
    by_cases hstarted : c.auto.started = true
    · rw [Connector.autoStart, if_pos hstarted]
      exact h
    · have hstarted' : c.auto.started = false := by simpa using hstarted
      cases h with
      | idle hround hrest htimer => exact hround.autoStart hrest htimer hwf callback hstarted'
      | active hround | timed hround => exact absurd hround.exitCb (hregular hstarted')
  | autoStop => exact Option.some.inj hoccur ▸ h.along (along_autoStop hregular)
  | handler session e =>
    obtain ⟨⟨hlt, -⟩, hoccur⟩ := Option.ite_none_right_eq_some.mp hoccur
    obtain ⟨r, hmethod, rfl⟩ := Option.map_eq_some_iff.mp hoccur
    exact h.handle hwf hlt (ConnectionHandler.acts_method hmethod)
  | posted k =>
    obtain ⟨issued, -, rfl⟩ := Option.map_eq_some_iff.mp hoccur
    have halong := along_push c (.forEach (.stopHandler issued) c.transceivers)
    refine h.along ⟨rfl, fun _ ↦ rfl, rfl, halong.loops, halong.drops, fun hnone ↦ ?_, fun _ ↦ rfl,
      rfl, rfl, rfl, rfl, rfl⟩
    refine absurd ?_ (hnone.2 issued).2
    rw [tasks_push]
    exact List.mem_cons_self
  | timerExpires =>
    obtain ⟨hwaiting, hoccur⟩ := Option.ite_none_right_eq_some.mp hoccur
    rw [← Option.some.inj hoccur]
    cases h with
    | idle hround hrest htimer | active hround hsession hunderWay htimer =>
      simp [htimer.1] at hwaiting
    | timed hround hrest htimer =>
      refine Stands.timed { hround with } { hrest with } (Or.inr ⟨rfl, ?_⟩)
      have hexpired := (htimer.resolve_right fun h ↦ by simp [h.1] at hwaiting).2
      simp [hexpired]
  | timerHandler =>
    obtain ⟨hexpired, hoccur⟩ := Option.ite_none_left_eq_some.mp hoccur
    rw [← Option.some.inj hoccur]
    cases h with
    | idle hround hrest htimer | active hround hsession hunderWay htimer =>
      exact absurd htimer.2 hexpired
    | timed hround hrest htimer =>
      obtain ⟨hwaiting, hone⟩ := htimer.resolve_left fun h ↦ hexpired h.2
      set c₁ : Connector := { c with auto := { c.auto with expired := c.auto.expired - 1 } }
        with hc₁
      have hrest₁ : c₁.AtRest := { hrest with }
      have hround₁ : Wrapped _ c₁ := { hround with }
      exact hrest₁.asyncStart { hwf with } hround₁ ⟨hwaiting, by simp [hc₁, hone]⟩ _

/-- A session that has not been reported is the present one, in a cycle. -/
theorem Stands.unreported {i : ℕ} (h : c.Stands) (hlt : i < c.handlers.length)
    (hnone : exitCodes i c.log = []) :
    ∃ own, i = c.session ∧ Wrapped own c ∧ c.Unanswered ∧ c.Untimed := by
  cases h with
  | idle hround hrest | timed hround hrest => exact absurd hnone (hrest.reported i hlt)
  | @active own hround hsession hunderWay htimer =>
    refine ⟨own, ?_, hround, hsession, htimer⟩
    by_contra hne
    exact hsession.others i hlt hne hnone

/-- The handler posted by a `stop()` acts, its task being taken from the stack. -/
theorem Stands.stopHandler {issued : ℕ} {rest : List Frame} (h : c.Stands)
    (hwf : c.WellFormed fun _ ↦ False)
    (htasks : c.tasks = .stopHandler issued :: { c with stack := rest }.tasks) :
    ({ c with stack := rest }.stopHandler issued).Stands := by
  have hnothing (hrest : c.AtRest) :
      { c with stack := rest }.stopHandler issued = { c with stack := rest } := by
    have hstate : { c with stack := rest }.connectionHandler.state = .eNotConnected :=
      hrest.stopped hwf c.session
    unfold Connector.stopHandler
    rw [if_pos (by simp [ConnectionHandler.stopped, hstate]), if_neg (by simp [hrest.ready])]
  cases h with
  | idle hround hrest htimer =>
    rw [hnothing hrest]
    exact Stands.idle { hround with } { hrest with } htimer
  | timed hround hrest htimer =>
    rw [hnothing hrest]
    exact Stands.timed { hround with } { hrest with } htimer
  | @active own hround hsession hunderWay htimer =>
    set c₁ : Connector := { c with stack := rest }.record (.acted issued c.session) with hc₁
    have hexits (i : ℕ) : exitCodes i c₁.log = exitCodes i c.log :=
      exitCodes_record_acted { c with stack := rest } i issued c.session
    have hround₁ : Wrapped own c₁ :=
      ⟨hround.exitCb, hround.backup, (round_record rfl).trans hround.round⟩
    have hsession₁ : c₁.Unanswered :=
      ⟨hsession.lt, (hexits _).trans hsession.current,
        fun i hi hne ↦ (hexits i).symm ▸ hsession.others i hi hne⟩
    unfold Connector.stopHandler
    split
    · next hstopped =>
      have hstate : c.connectionHandler.state = .eNotConnected := by
        simpa [ConnectionHandler.stopped, connectionHandler, handler, Connector.session]
          using hstopped
      split
      · exact Wrapped.exit (c := c₁.disconnected) { hround₁ with } hsession₁.others rfl htimer _
      · next hready =>
        refine Stands.active { hround with } { hsession with } ?_ htimer
        have hdown : c.connectionHandlerReady = false := by simpa using hready
        have hpop {task : Task} (hne : task ≠ .stopHandler issued) (hmem : task ∈ c.tasks) :
            task ∈ { c with stack := rest }.tasks :=
          (List.mem_cons.mp (htasks ▸ hmem)).resolve_left hne
        rcases hunderWay with hs | hs | ⟨hup, -⟩ | hmem | hmem
        · simp [hstate] at hs
        · simp [hstate] at hs
        · simp [hdown] at hup
        · exact Or.inr (Or.inr (Or.inr (Or.inl (hpop (by simp) hmem))))
        · exact Or.inr (Or.inr (Or.inr (Or.inr (hpop (by simp) hmem))))
    · next hstopped =>
      have hstop : c.connectionHandler.stop.2 = .shutdownLoop := by
        unfold ConnectionHandler.stop
        rw [if_neg]
        · rfl
        · simpa [ConnectionHandler.stopped, connectionHandler, handler, Connector.session]
            using hstopped
      have hloop := Unanswered.shutdownLoop (c := { c₁ with exiting := true })
        (v := c.connectionHandler.stop.1) { hsession₁ with } { hround₁ with } htimer
      rw [← hstop] at hloop
      exact hloop

theorem Stands.perform {task : Task} {rest : List Frame} (h : c.Stands)
    (hwf : c.WellFormed fun _ ↦ False) (hunwrapped : c.Unwrapped) (hregular : c.RegularDue)
    (hdue : c.due = some task) (htasks : c.tasks = task :: { c with stack := rest }.tasks) :
    (task.perform { c with stack := rest }).Stands := by
  have hmem : task ∈ c.tasks := htasks ▸ List.mem_cons_self
  have hpop {other : Task} (hne : other ≠ task) (hother : other ∈ c.tasks) :
      other ∈ { c with stack := rest }.tasks :=
    (List.mem_cons.mp (htasks ▸ hother)).resolve_left hne
  -- the tasks of the wrapper
  have halong (hloop : ∀ i, task ≠ .shutdown i) (hdrop : ∀ i, task ≠ .drop i)
      (hnoStop : { c with stack := rest }.NoStop → c.NoStop) : Along c { c with stack := rest } :=
    ⟨rfl, fun _ ↦ rfl, rfl, fun i hi ↦ hpop (hloop i).symm hi, fun i hi ↦ hpop (hdrop i).symm hi,
      hnoStop, fun _ ↦ rfl, rfl, rfl, rfl, rfl, rfl⟩
  have hnoStop (hstop : ∀ k, task ≠ .stop k) (hhandler : ∀ k, task ≠ .stopHandler k)
      (hnone : { c with stack := rest }.NoStop) : c.NoStop :=
    ⟨hnone.1, fun k ↦ ⟨fun hk ↦ (hnone.2 k).1 (hpop (hstop k).symm hk),
      fun hk ↦ (hnone.2 k).2 (hpop (hhandler k).symm hk)⟩⟩
  cases task with
  | shutdown session =>
    have hlt := (hwf.loops session ((mem_work rfl).mpr hmem)).1
    obtain ⟨own, rfl, hround, hsession, htimer⟩ := h.unreported hlt (hregular.2 _ (Or.inl hdue))
    exact Unanswered.finish (c := { c with stack := rest }) { hsession with } { hround with } htimer
  | drop session =>
    have hlt := (hwf.drops session ((mem_work rfl).mpr hmem)).1
    obtain ⟨own, rfl, hround, hsession, htimer⟩ := h.unreported hlt (hregular.2 _ (Or.inr hdue))
    exact Wrapped.exit (c := { c with stack := rest }.disconnected) { hround with } hsession.others
      rfl htimer _
  | stop issued =>
    refine h.along ⟨rfl, fun _ ↦ rfl, rfl, fun i hi ↦ hpop (by simp) hi, fun i hi ↦ hpop (by simp)
      hi, fun hnone ↦ ?_, fun _ ↦ rfl, rfl, rfl, rfl, rfl, rfl⟩
    exact absurd hnone.1 (by simp [Task.perform])
  | stopHandler issued => exact h.stopHandler hwf htasks
  | restart code => exact absurd hmem (hunwrapped.2 code)
  | backup =>
    have hrest := h.along (halong (by simp) (by simp) (hnoStop (by simp) (by simp)))
    cases hrest with
    | idle hround hrest htimer => exact Stands.idle { hround with } { hrest with } htimer
    | active hround hsession hunderWay htimer =>
      have hnone := hregular.1 hdue hround.exitCb
      exact Stands.active ⟨hround.exitCb, hnone.symm.trans hround.backup, hround.round⟩
        { hsession with } hunderWay htimer
    | timed hround hrest htimer =>
      have hnone := hregular.1 hdue hround.exitCb
      exact Stands.timed ⟨hround.exitCb, hnone.symm.trans hround.backup, hround.round⟩
        { hrest with } htimer
  | autoStart =>
    refine h.along ((halong (by simp) (by simp) (hnoStop (by simp) (by simp))).trans ?_)
    refine Alike.along ?_ (round_record rfl) rfl rfl rfl rfl
    exact alike_of_eq [.startReturned] rfl rfl rfl rfl rfl rfl (by simp [Observation.isAside])
  | autoStop =>
    refine h.along ((halong (by simp) (by simp) (hnoStop (by simp) (by simp))).trans ?_)
    exact ⟨rfl, fun _ ↦ rfl, rfl, fun _ ↦ id, fun _ ↦ id, id, fun _ ↦ rfl, rfl, rfl, rfl, rfl, rfl⟩

end Connector

namespace Program

open Connector

variable {τ ε : Type} {p p' : Program τ}

/-- The timer is not armed when `AutoReconnect::stop` is accepted, no `start()` is accepted while
the connector has the wrapper or forgotten when the last callback returns, and no session is
reported twice. -/
def Regular (p : Program τ) : Event ε → Prop
  | .connector e => p.connector.Regular e
  | .resume => p.connector.RegularDue
  | _ => True

theorem Regular.savesOther {e : Event ε} (h : p.Regular e) : p.SavesOther e := by
  cases e with
  | connector e =>
    cases e with
    | autoStart callback => exact h
    | _ => trivial
  | _ => trivial

variable [TransceiverImpl τ ε]

theorem stands_step {e : Event ε} (h : p.connector.Stands)
    (hwf : p.connector.WellFormed fun _ ↦ False) (hunwrapped : p.connector.Unwrapped)
    (hregular : p.Regular e) (hstep : p.step e = some p') : p'.connector.Stands := by
  have hmoves := moves_of_step hstep
  generalize p'.connector = c' at hmoves
  cases hmoves with
  | quiet he hquiet => exact h.along hquiet.along
  | occur hquiet hoccur =>
    exact (h.along hquiet.along).occur (hwf.alike hquiet.alike) (hquiet.regular hregular) hoccur
  | @parsed parsed expected session c₁ r hquiet hparsed =>
    have h₁ := h.along hquiet.along
    by_cases hlt : session < c₁.handlers.length
    · exact h₁.handle (hwf.alike hquiet.alike) hlt (ConnectionHandler.acts_onParsed hparsed)
    · rw [handler_of_le (Nat.not_lt.mp hlt)] at hparsed
      obtain rfl := Option.some.inj hparsed
      rw [Connector.handle, setHandler_of_le (Nat.not_lt.mp hlt)]
      exact h₁
  | shutdownCb hquiet => exact (h.along hquiet.along).along (along_setHandler rfl)
  | perform hdue hwaits htasks => exact h.perform hwf hunwrapped hregular hdue htasks

/-- As long as a run is regular, every cycle of `start()` and `stop()` calls the exit callback of
the application once, and gives it back. -/
theorem callsOnce_of_regular (h : (machine τ).ReachedBy Regular p) : p.connector.CallsOnce := by
  have hinvariant : p.connector.WellFormed (fun _ ↦ False) ∧ p.connector.Unwrapped ∧
      p.connector.Stands := by
    refine h.invariant (I := fun q ↦ q.connector.WellFormed (fun _ ↦ False) ∧
      q.connector.Unwrapped ∧ q.connector.Stands) (fun q hq ↦ ?_) ?_
    · obtain rfl : q = _ := hq
      refine ⟨wellFormed_new, ⟨by simp [initial, Connector.new, AutoReconnect.new], fun code ↦ ?_⟩,
        ?_⟩
      · simp [initial, Connector.new, tasks]
      · exact Stands.idle (⟨rfl, Or.inl rfl⟩ : Unwound none _)
          ⟨by simp [initial, Connector.new], rfl⟩ ⟨rfl, rfl⟩
    · rintro q e q' ⟨hwf, hunwrapped, hstands⟩ hregular hstep
      exact ⟨wellFormed_step hwf hstep,
        (unwrapped_step_iff hunwrapped hstep).mpr hregular.savesOther,
        stands_step hstands hwf hunwrapped hregular hstep⟩
  exact hinvariant.2.2.callsOnce

/-- The application starts and the broker is not found. It stops during the second attempt, which
fails too. -/
def stoppedTrying : List (Event Transceiver.Event) :=
  [.connector (.onExit (some 7)), .connector (.autoStart false), .resume,
    .connector (.handler 0 (.resolved (some "host not found"))), .resume,
    .connector .timerExpires, .connector .timerHandler, .connector .autoStop,
    .connector (.handler 1 (.resolved (some "host not found"))), .resume, .resume]

/-- The callback is called when the attempt has failed, and is the connector's again. -/
theorem callsOnce_stoppedTrying :
    ∃ p, (machine Transceiver).run (initial Transceiver) stoppedTrying = some p ∧
      p.connector.round = some (.closed (some 7)) ∧ p.connector.CallsOnce := by
  have hresume {p : Program Transceiver} (task : Option Task) (hdue : p.connector.due = task)
      (hbackup : p.connector.exitCb ≠ some .restart ∨ task ≠ some .backup)
      (hreport : ∀ i, task ≠ some (.shutdown i) ∧ task ≠ some (.drop i)) :
      p.Regular (.resume : Event Transceiver.Event) := by
    subst hdue
    refine ⟨fun hdue hexitCb ↦ ?_, fun i hdue ↦ ?_⟩
    · exact absurd hdue (hbackup.resolve_left fun hne ↦ hne hexitCb)
    · exact absurd hdue (not_or.mpr (hreport i))
  refine ⟨_, rfl, by decide, callsOnce_of_regular ?_⟩
  refine ⟨initial Transceiver, stoppedTrying, rfl, rfl, ?_⟩
  refine Machine.meets_cons (by decide : _ ≠ _) rfl ?_
  refine Machine.meets_cons (fun _ ↦ by decide) rfl ?_
  refine Machine.meets_cons (hresume (some .autoStart) rfl (Or.inr (by simp)) (by simp)) rfl ?_
  refine Machine.meets_cons trivial rfl ?_
  refine Machine.meets_cons (hresume none rfl (Or.inr (by simp)) (by simp)) rfl ?_
  refine Machine.meets_cons trivial rfl (Machine.meets_cons trivial rfl ?_)
  refine Machine.meets_cons (fun _ ↦ rfl) rfl (Machine.meets_cons trivial rfl ?_)
  refine Machine.meets_cons (hresume none rfl (Or.inr (by simp)) (by simp)) rfl ?_
  exact Machine.meets_cons (hresume (some .backup) rfl (Or.inl (by decide)) (by simp)) rfl trivial

/-- The application starts, the broker is not found, and the application stops before the timer
expires. -/
def stoppedWaiting : List (Event Transceiver.Event) :=
  [.connector (.onExit (some 7)), .connector (.autoStart false), .resume,
    .connector (.handler 0 (.resolved (some "host not found"))), .resume, .connector .autoStop]

/-- The timer is cancelled, and nothing is left that could lead to the callback. -/
theorem not_callsOnce_stoppedWaiting :
    ∃ p, (machine Transceiver).run (initial Transceiver) stoppedWaiting = some p ∧
      p.connector.round = some (.opened (some 7)) ∧ p.connector.auto.started = false ∧
      p.connector.stack = [] ∧ p.connector.posted = [] ∧ ¬ p.connector.CallsOnce := by
  refine ⟨_, rfl, by decide, rfl, rfl, rfl, ?_⟩
  exact not_callsOnce (f := 7) (by decide) (not_pending rfl rfl rfl rfl rfl)

/-- The read fails on a connection that is up, and the application starts again when the handler
posted then calls its callback, at which time no method of the handler is suspended. It stops during
the attempt, which fails. -/
def startedInside : List (Event Transceiver.Event) :=
  [.connector (.onExit (some 7)), .connector (.autoStart false), .resume,
    .connector (.handler 0 (.resolved none)), .connector (.handler 0 (.connectDone none)),
    .connector (.handler 0 (.wrote none 8)),
    .connector (.handler 0 (.read (some "connection reset") 0 0)), .resume, .resume,
    .connector (.posted 0), .resume, .connector (.autoStart false), .resume, .resume, .resume,
    .connector .autoStop, .connector (.handler 1 (.resolved (some "host not found"))), .resume]

/-- The callback that the second start has saved is forgotten when the first call of it returns. -/
theorem not_callsOnce_startedInside :
    ∃ p, (machine Transceiver).run (initial Transceiver) startedInside = some p ∧
      p.connector.exitCb = none ∧ ¬ p.connector.CallsOnce :=
  ⟨_, rfl, rfl, not_callsOnce (f := 7) (by decide) (not_pending rfl rfl rfl rfl rfl)⟩

end Program

end AmqpAsio
