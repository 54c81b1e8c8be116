import AmqpAsio.AutoReconnect.Starting
import AmqpAsio.ConnectionHandler.Losses

/-!
# Whether AutoReconnect gives up

From an accepted `start()` to the next `stop()`, `AutoReconnect` should always be connected, or
trying to connect, or waiting for its timer. It gives up when the connector's exit callback tells it
`eNormal`, and that is what it is told after a failed read or write, or when a `stop()` of an
earlier cycle is still outstanding. As long as every loss is reported by `onError()`, and a start
finds the connector at rest, it never does.
-/

set_option autoImplicit false
set_option relaxedAutoImplicit false

namespace AmqpAsio

namespace Connector

open ConnectionHandler (Continuation)

variable {c c' : Connector}

/-! ### What the application has asked for -/

/-- The application has asked `AutoReconnect` to run, or to stop. -/
def Observation.isOrder : Observation → Bool
  | .startReturned | .stopCalled => true
  | _ => false

/-- An accepted `AutoReconnect::start` has returned, and `stop` has not been called since. -/
def Asked (c : Connector) : Prop :=
  (c.log.filter Observation.isOrder).getLast? = some .startReturned

/-- What is recorded is no order. -/
theorem asked_append {new : List Observation} (hlog : c'.log = c.log ++ new)
    (hnew : ∀ o ∈ new, o.isOrder = false) : c'.Asked ↔ c.Asked := by
  have hnone : new.filter Observation.isOrder = [] := by
    simpa [List.filter_eq_nil_iff] using hnew
  unfold Asked
  rw [hlog, List.filter_append, hnone, List.append_nil]

theorem Keeps.asked (h : Keeps c c') : c'.Asked ↔ c.Asked := by
  obtain ⟨new, hlog, hnew⟩ := h.log
  refine asked_append hlog fun o ho ↦ ?_
  have hinner := hnew o ho
  cases o <;> simp [Observation.isInner] at hinner <;> rfl

theorem not_asked_of_stopCalled {new : List Observation}
    (hlog : c'.log = c.log ++ .stopCalled :: new)
    (hnew : ∀ o ∈ new, o.isOrder = false) : ¬ c'.Asked := by
  have hnone : new.filter Observation.isOrder = [] := by
    simpa [List.filter_eq_nil_iff] using hnew
  unfold Asked
  rw [hlog, List.filter_append, List.filter_cons_of_pos rfl, hnone]
  simp

/-- `AutoReconnect` is started and installed as the exit callback, and an attempt is in progress, or
the connector is connected, or it is being shut down with its exit callback still to come, or the
timer is armed or has just expired. -/
structure GoesOn (c : Connector) : Prop where
  started : c.auto.started = true
  installed : c.exitCb = some .restart
  working : c.connectionHandler.state = .eResolving ∨ c.connectionHandler.state = .eConnecting ∨
    c.connectionHandlerReady = true ∧ c.connectionHandler.ready = true ∨
    .shutdown c.session ∈ c.tasks ∨ .drop c.session ∈ c.tasks ∨
    c.auto.waiting = true ∨ 0 < c.auto.expired

/-! ### The invariant -/

/-- A task that can come up while `AutoReconnect` runs. -/
def Task.Steady : Task → Prop
  | .shutdown _ | .drop _ | .backup => True
  | _ => False

/-- Nothing is under way by which the exit callback could be told `eNormal`, or could be another one
than the wrapper. -/
structure Steadfast (c : Connector) : Prop where
  needStop : c.auto.needStop = false
  exitCb : c.exitCb = some .restart
  exiting : c.exiting = false
  posted : c.posted = []
  tasks : ∀ task ∈ c.tasks, task.Steady
  connecting : c.connectionHandler.state = .eResolving ∨ c.connectionHandler.state = .eConnecting →
    c.connectionHandlerReady = false
  reported : c.connectionHandler.state = .eShutdown → c.connectionHandler.amqpError = true

/-- Besides, `AutoReconnect` is started, and the connector is at work, or it is not connected and
the timer is armed or has just expired. -/
structure Persists (c : Connector) : Prop where
  steadfast : c.Steadfast
  started : c.auto.started = true
  working : c.connectionHandler.state ≠ .eNotConnected ∨ .drop c.session ∈ c.tasks ∨
    c.connectionHandlerReady = false ∧ (c.auto.waiting = true ∨ 0 < c.auto.expired)

theorem Persists.goesOn (h : c.Persists) (horderly : c.Orderly) : c.GoesOn := by
  refine ⟨h.started, h.steadfast.exitCb, ?_⟩
  rcases h.working with hstate | hdrop | ⟨-, htimer⟩
  · have hready (hs : c.connectionHandler.state = .eReceiverInit ∨
        c.connectionHandler.state = .eReady) :
        c.connectionHandlerReady = true ∧ c.connectionHandler.ready = true :=
      ⟨horderly.ready (ConnectionHandler.connected_iff.mpr (hs.imp_right Or.inl)),
        ConnectionHandler.ready_iff.mpr hs⟩
    cases hs : c.connectionHandler.state with
    | eNotConnected => exact absurd hs hstate
    | eResolving => exact Or.inl rfl
    | eConnecting => exact Or.inr (Or.inl rfl)
    | eReceiverInit => exact Or.inr (Or.inr (Or.inl (hready (Or.inl hs))))
    | eReady => exact Or.inr (Or.inr (Or.inl (hready (Or.inr hs))))
    | eShutdown =>
      have hcount := horderly.loops c.session
      rw [if_pos ⟨rfl, hs⟩] at hcount
      have hmem : .shutdown c.session ∈ c.work := List.count_pos_iff.mp (by omega)
      exact Or.inr (Or.inr (Or.inr (Or.inl ((mem_work rfl).mp hmem))))
  · exact Or.inr (Or.inr (Or.inr (Or.inr (Or.inl hdrop))))
  · exact Or.inr (Or.inr (Or.inr (Or.inr (Or.inr htimer))))

theorem Steadfast.noStop (h : c.Steadfast) : c.NoStop :=
  ⟨h.posted, fun _ ↦ ⟨fun hmem ↦ h.tasks _ hmem, fun hmem ↦ h.tasks _ hmem⟩⟩

/-! ### Frames -/

theorem Steadfast.quiet (h : c.Steadfast) (hquiet : Quiet c c') : c'.Steadfast where
  needStop := hquiet.needStop.trans h.needStop
  exitCb := hquiet.exitCb.trans h.exitCb
  exiting := hquiet.exiting.trans h.exiting
  posted := hquiet.posted.trans h.posted
  tasks := hquiet.tasks ▸ h.tasks
  connecting := by
    rw [hquiet.ready, hquiet.alike.state]
    exact h.connecting
  reported := by
    simp only [connectionHandler, handler, Connector.session, hquiet.handlers]
    exact h.reported

theorem Persists.quiet (h : c.Persists) (hquiet : Quiet c c') : c'.Persists where
  steadfast := h.steadfast.quiet hquiet
  started := hquiet.started.trans h.started
  working := by
    rw [hquiet.alike.state, hquiet.alike.session, hquiet.tasks, hquiet.ready, hquiet.waiting,
      hquiet.expired]
    exact h.working

/-- A call with a steady task is suspended. -/
theorem Steadfast.push {f : Frame} (h : c.Steadfast)
    (hf : ∀ task, f.task = some task → task.Steady) :
    (c.push f).Steadfast := by
  refine { h with tasks := fun task htask ↦ ?_ }
  rw [tasks_push, List.mem_append, Option.mem_toList] at htask
  exact htask.elim (hf task) (h.tasks task)

/-- A handler changes; the present one is not connected again, and shuts down only after an
`onError()`. -/
theorem Steadfast.setHandler {session : ℕ} {v : ConnectionHandler} (h : c.Steadfast)
    (hlt : session < c.handlers.length)
    (hconnecting : session = c.session → v.state = .eResolving ∨ v.state = .eConnecting →
      c.connectionHandlerReady = false)
    (hreported : session = c.session → v.state = .eShutdown → v.amqpError = true) :
    (c.setHandler session v).Steadfast := by
  by_cases hcurrent : session = c.session
  · subst hcurrent
    have hself := connectionHandler_setHandler c v hlt
    refine { h with connecting := ?_, reported := ?_ }
    · rw [hself]
      exact hconnecting rfl
    · rw [hself]
      exact hreported rfl
  · have hself : (c.setHandler session v).connectionHandler = c.connectionHandler := by
      unfold connectionHandler
      rw [session_setHandler]
      exact handler_setHandler_of_ne c v (Ne.symm hcurrent)
    refine { h with connecting := ?_, reported := ?_ }
    · rw [hself]
      exact h.connecting
    · rw [hself]
      exact h.reported

/-! ### The end of a session -/

/-- A session that ends with an error arms the timer. -/
theorem Steadfast.exit {session : ℕ} {code : ExitCode} (h : c.Steadfast)
    (hstarted : c.auto.started = true) (hready : c.connectionHandlerReady = false)
    (hcode : code ≠ .eNormal) : (c.exit session code).Persists := by
  rw [exit_of_started h.exitCb hstarted hcode]
  exact ⟨{ h with }, hstarted, Or.inr (Or.inr ⟨hready, Or.inl rfl⟩)⟩

theorem Steadfast.disconnected (h : c.Steadfast) : c.disconnected.Steadfast :=
  { h with connecting := fun _ ↦ rfl }

/-- `onShutdown` for a session that could not connect, or for the present one after an
`onError()`. -/
theorem Steadfast.onShutdown {session : ℕ} (h : c.Steadfast) (hstarted : c.auto.started = true)
    (hreported : c.connectionHandlerReady = true →
      session = c.session ∧ c.connectionHandler.amqpError = true) :
    (c.onShutdown session).Persists := by
  unfold Connector.onShutdown
  rw [if_neg (by simp [h.exiting])]
  split
  · next hready =>
    have hready' : c.connectionHandlerReady = false := by simpa using hready
    refine Steadfast.exit (c := { c with amqpConnection := none, sentinel := false }) ?_ hstarted
      hready' (by simp)
    exact { h with }
  · next hready =>
    obtain ⟨rfl, hamqpError⟩ := hreported (by simpa using hready)
    rw [if_pos hamqpError]
    refine ⟨h.push (by simp [Frame.task, Loop.task, Task.Steady]), hstarted, Or.inr (Or.inl ?_)⟩
    rw [tasks_push]
    exact List.mem_cons_self

/-! ### The methods of a handler -/

theorem quiet_callStartedCb (hneedStop : c.auto.needStop = false) : Quiet c c.callStartedCb := by
  unfold callStartedCb
  split
  · exact Quiet.refl c
  · exact quiet_push c rfl
  · exact quiet_started hneedStop

theorem Persists.handle {session : ℕ} {r : ConnectionHandler × Continuation} (h : c.Persists)
    (horderly : c.Orderly) (hlt : session < c.handlers.length) (hacts : (c.handler session).Acts r)
    (hloop : r.2 = .shutdownLoop → r.1.amqpError = true)
    (hkept : (c.handler session).state = .eShutdown →
      r.1.amqpError = (c.handler session).amqpError) : (c.handle session r).Persists := by
  have hcomes := horderly.comes hlt hacts
  have hsteadfast := h.steadfast
  generalize c.handle session r = c' at hcomes
  cases hcomes with
  | still hstate hquiet =>
    refine Persists.quiet ?_ hquiet
    refine ⟨hsteadfast.setHandler hlt ?_ ?_, h.started, ?_⟩
    · rintro rfl hs
      exact hsteadfast.connecting (hstate ▸ hs)
    · rintro rfl hs
      have hs' : c.connectionHandler.state = .eShutdown := hstate.symm.trans hs
      exact (hkept hs').trans (hsteadfast.reported hs')
    · have hsame : (c.setHandler session r.1).connectionHandler.state =
          c.connectionHandler.state := by
        refine (alike_setHandler hlt (fun _ ↦ ?_) hstate).state
        exact hacts.sound (horderly.sound _ (handler_mem hlt))
      rw [hsame, session_setHandler]
      exact h.working
  | advance hcurrent hstate =>
    subst hcurrent
    have hself := connectionHandler_setHandler c r.1 hlt
    refine ⟨hsteadfast.setHandler hlt (fun _ hs ↦ ?_) (fun _ hs ↦ ?_), h.started, Or.inl ?_⟩
    · rcases hstate with ⟨hs', -⟩ | ⟨-, hs'⟩
      · exact hsteadfast.connecting (Or.inl hs')
      · simp [hs'] at hs
    · rcases hstate with ⟨-, hs'⟩ | ⟨-, hs'⟩ <;> simp [hs'] at hs
    · rw [hself]
      rcases hstate with ⟨-, hs⟩ | ⟨-, hs⟩ <;> simp [hs]
  | @connected v hcurrent hstate hv =>
    subst hcurrent
    have hself := connectionHandler_setHandler c v hlt
    have hset : (c.setHandler c.session v).Steadfast :=
      hsteadfast.setHandler hlt (fun _ hs ↦ by simp [hv] at hs) (fun _ hs ↦ by simp [hv] at hs)
    refine Persists.quiet ?_ (quiet_callStartedCb hsteadfast.needStop)
    refine ⟨{ hset with connecting := fun hs ↦ ?_ }, h.started, Or.inl ?_⟩
    · have hs' : v.state = .eResolving ∨ v.state = .eConnecting := hself ▸ hs
      simp [hv] at hs'
    · have hs' : (c.setHandler c.session v).connectionHandler.state ≠ .eNotConnected := by
        simp [hself, hv]
      exact hs'
  | waits hcurrent hstate hloop' hv =>
    subst hcurrent
    have hself := connectionHandler_setHandler c r.1 hlt
    have hset : (c.setHandler c.session r.1).Steadfast :=
      hsteadfast.setHandler hlt (fun _ hs ↦ by simp [hv] at hs) fun _ _ ↦ hloop hloop'
    refine ⟨hset.push (by simp [Frame.task, Task.Steady]), h.started, Or.inl ?_⟩
    rw [connectionHandler_push, hself, hv]
    simp
  | @ends v hcurrent hstate hv hcause =>
    subst hcurrent
    have hself := connectionHandler_setHandler c v hlt
    have hset : (c.setHandler c.session v).Steadfast :=
      hsteadfast.setHandler hlt (fun _ hs ↦ by simp [hv] at hs) (fun _ hs ↦ by simp [hv] at hs)
    refine (hset.push (by simp [Frame.task])).onShutdown h.started fun hready ↦ ?_
    rw [session_push, session_setHandler, connectionHandler_push, hself]
    rcases hcause with ⟨hloop', hsame⟩ | hs
    · exact ⟨rfl, hsame.trans (hloop hloop')⟩
    · exact absurd ((hsteadfast.connecting hs).symm.trans hready) Bool.false_ne_true

/-! ### The next session -/

theorem Steadfast.begun (h : c.Steadfast) (hready : c.connectionHandlerReady = false)
    (callback : Option StartedCallback) (l : List ConnectionHandler) :
    (c.begun callback l).Steadfast :=
  { h with
    exiting := rfl
    connecting := fun _ ↦ hready
    reported := fun hs ↦ by simp [state_begun] at hs }

theorem Steadfast.asyncStart (h : c.Steadfast) (hstarted : c.auto.started = true)
    (hworking : c.connectionHandlerReady = true →
      c.connectionHandler.state ≠ .eNotConnected ∨ .drop c.session ∈ c.tasks)
    (horderly : c.Orderly) (callback : Option StartedCallback) :
    (c.asyncStart callback).Persists := by
  by_cases hready : c.connectionHandlerReady = true
  · rw [asyncStart_of_ready hready]
    exact ⟨h, hstarted, (hworking hready).imp_right Or.inl⟩
  · have hready' : c.connectionHandlerReady = false := by simpa using hready
    have hdown : c.connectionHandler.connected = false := by
      by_contra hup
      exact hready (horderly.ready (by simpa using hup))
    rcases asyncStart_cases callback hready' horderly.sound hdown with
      ⟨-, heq⟩ | ⟨-, v, -, -, heq⟩
    · rw [heq]
      exact ⟨h.begun hready' _ _, hstarted, Or.inl (by simp [state_begun])⟩
    · rw [heq]
      refine ((h.begun hready' _ _).push (by simp [Frame.task])).onShutdown hstarted ?_
      exact fun hup ↦ absurd hup hready

theorem Persists.connected (h : c.Persists) (hready : c.connectionHandlerReady = true) :
    c.connectionHandler.state ≠ .eNotConnected ∨ .drop c.session ∈ c.tasks :=
  h.working.imp_right fun hidle ↦ hidle.resolve_right fun hidle ↦ by simp [hready] at hidle

theorem Persists.asyncStart (h : c.Persists) (horderly : c.Orderly)
    (callback : Option StartedCallback) : (c.asyncStart callback).Persists :=
  h.steadfast.asyncStart h.started h.connected horderly callback

/-! ### The steps while AutoReconnect runs -/

theorem Steadfast.pop {task : Task} {stack : List Frame} (h : c.Steadfast)
    (htasks : c.tasks = task :: { c with stack := stack }.tasks) :
    { c with stack := stack }.Steadfast :=
  { h with tasks := fun other hother ↦ h.tasks other (htasks ▸ List.mem_cons_of_mem task hother) }

theorem Persists.perform {task : Task} {stack : List Frame} (h : c.Persists) (horderly : c.Orderly)
    (htasks : c.tasks = task :: { c with stack := stack }.tasks) :
    (task.perform { c with stack := stack }).Persists := by
  have hwork := work_of_tasks htasks
  have hpop := h.steadfast.pop htasks
  have hsteady := h.steadfast.tasks task (htasks ▸ List.mem_cons_self)
  cases task with
  | shutdown session =>
    obtain ⟨rfl, hstate⟩ := horderly.shutdown_mem (i := session) (by simp [hwork, Task.isWork])
    have hlt := session_lt_of_state (c := c) (by simp [hstate])
    have hself := connectionHandler_setHandler { c with stack := stack }
      c.connectionHandler.endShutdown.1 hlt
    have hset : ({ c with stack := stack }.setHandler c.session
        c.connectionHandler.endShutdown.1).Steadfast := by
      refine hpop.setHandler hlt (fun _ hs ↦ ?_) fun _ hs ↦ ?_ <;>
        simp [ConnectionHandler.endShutdown, ConnectionHandler.goto,
          ConnectionHandler.stateMachine] at hs
    refine (hset.push (by simp [Frame.task])).onShutdown h.started fun _ ↦ ⟨?_, ?_⟩
    · rw [session_push]
      exact (session_setHandler _ _ _).symm
    · rw [connectionHandler_push]
      exact (congrArg ConnectionHandler.amqpError hself).trans (h.steadfast.reported hstate)
  | drop session =>
    exact hpop.disconnected.exit h.started rfl (by simp)
  | backup =>
    refine ⟨{ hpop with }, h.started, h.working.imp_right (Or.imp_left fun hdrop ↦ ?_)⟩
    rw [htasks, List.mem_cons] at hdrop
    exact hdrop.resolve_left (by simp)
  | stop | stopHandler | restart | autoStart | autoStop => exact hsteady.elim

/-- The application does not ask for `eNormal`, no loss goes unreported, and `AutoReconnect::start`
finds the connector at rest and no call of the wrapper under way. -/
def Steady (c : Connector) : Event → Prop
  | .autoStart _ => c.auto.started = false →
    c.connectionHandlerReady = false ∧ c.connectionHandler.state = .eNotConnected ∧
      .autoStart ∉ c.tasks ∧ .autoStop ∉ c.tasks ∧ ∀ code, .restart code ∉ c.tasks
  | .stop | .onExit _ => ¬ c.Asked
  | .handler session e => c.Asked → (c.handler session).ready = true →
    e.isFailure = false ∧ e ≠ .onClosed
  | _ => True

theorem Quiet.steady {e : Event} (hquiet : Quiet c c') (h : c.Steady e) : c'.Steady e := by
  have hasked : c'.Asked ↔ c.Asked := hquiet.keeps.asked
  cases e with
  | autoStart =>
    simp only [Steady, hquiet.started, hquiet.ready, hquiet.alike.state, hquiet.tasks]
    exact h
  | handler session e =>
    simp only [Steady, handler, hquiet.handlers, hasked]
    exact h
  | stop | onExit =>
    simp only [Steady, hasked]
    exact h
  | _ => trivial

theorem Persists.occur {e : Event} (h : c.Persists) (horderly : c.Orderly) (hasked : c.Asked)
    (horder : c.InOrder e) (hsteady : c.Steady e) (hstop : e ≠ .autoStop)
    (hoccur : c.occur e = some c') : c'.Persists := by
  cases e with
  | remove =>
    rw [← Option.some.inj hoccur]
    exact ⟨{ h.steadfast with }, h.started, h.working⟩
  | run => exact Option.some.inj hoccur ▸ h.quiet (quiet_run c)
  | asyncStart callback => exact Option.some.inj hoccur ▸ h.asyncStart horderly _
  | start =>
    rw [← Option.some.inj hoccur]
    unfold Connector.start
    split
    · exact h
    · have hquiet := quiet_push c (f := .startLoop false) rfl
      exact (h.quiet hquiet).asyncStart (horderly.alike hquiet.alike) none
  | stop | onExit => exact absurd hasked hsteady
  | autoStart callback =>
    rw [← Option.some.inj hoccur, autoStart, if_pos h.started]
    exact h
  | autoStop => exact absurd rfl hstop
  | handler session e =>
    obtain ⟨⟨hlt, hne⟩, hoccur⟩ := Option.ite_none_right_eq_some.mp hoccur
    obtain ⟨r, hmethod, rfl⟩ := Option.map_eq_some_iff.mp hoccur
    have hundisturbed := horder.1 session e rfl
    refine h.handle horderly hlt (ConnectionHandler.acts_method hmethod) (fun hloop ↦ ?_)
      fun hs ↦ ?_
    · exact ConnectionHandler.amqpError_of_shutdownLoop hmethod hloop hne hundisturbed
        (hsteady hasked)
    · exact (ConnectionHandler.kept_method hmethod).2 (hundisturbed hs).2.2
  | posted k => simp [Connector.occur, h.steadfast.posted] at hoccur
  | timerExpires =>
    obtain ⟨-, hoccur⟩ := Option.ite_none_right_eq_some.mp hoccur
    rw [← Option.some.inj hoccur]
    refine ⟨{ h.steadfast with }, h.started, h.working.imp_right (Or.imp_right fun hidle ↦ ?_)⟩
    exact ⟨hidle.1, Or.inr (Nat.succ_pos _)⟩
  | timerHandler =>
    obtain ⟨-, hoccur⟩ := Option.ite_none_left_eq_some.mp hoccur
    rw [← Option.some.inj hoccur]
    have hsteadfast : { c with
        auto := { c.auto with expired := c.auto.expired - 1 } }.Steadfast := { h.steadfast with }
    refine hsteadfast.asyncStart h.started h.connected ?_ _
    exact { horderly with }

/-! ### The steps around it -/

/-- `AutoReconnect::start` is about to return. -/
def Starting (c : Connector) : Prop :=
  ¬ c.Asked ∧ c.connectionHandler.state = .eResolving ∧
    ∃ rest, c.stack = .autoStart :: rest ∧ { c with stack := rest }.Steadfast

theorem Starting.perform {rest : List Frame} (h : c.Starting)
    (hstack : c.stack = .autoStart :: rest) :
    (Task.perform .autoStart { c with stack := rest }).Persists := by
  obtain ⟨-, hstate, rest', hstack', hsteadfast⟩ := h
  obtain rfl : rest' = rest := (List.cons.inj (hstack'.symm.trans hstack)).2
  refine ⟨{ hsteadfast with }, rfl, Or.inl fun hs ↦ ?_⟩
  exact absurd (hstate.symm.trans hs) (by simp)

/-- A start that finds the connector at rest. -/
theorem starting_autoStart (callback : Bool) (horderly : c.Orderly) (hasked : ¬ c.Asked)
    (hnone : c.NoStop) (hstarted : c.auto.started = false)
    (hsteady : c.Steady (.autoStart callback)) : (c.autoStart callback).Starting := by
  obtain ⟨hready, hstate, hstart, hstop, hrestart⟩ := hsteady hstarted
  rw [autoStart_of_stopped callback hstarted hready hstate horderly.sound]
  have htasks (task : Task) (htask : task ∈ c.tasks) : task.Steady := by
    cases task with
    | stop issued => exact (hnone.2 issued).1 htask
    | stopHandler issued => exact (hnone.2 issued).2 htask
    | restart code => exact hrestart code htask
    | autoStart => exact hstart htask
    | autoStop => exact hstop htask
    | shutdown | drop | backup => trivial
  have hstate' := state_begun (({ c with
    auto := { c.auto with
      needStop := false, rerun := false
      backupExitCallback := c.exitCb, startedCallback := callback }
    exitCb := some .restart }.record .startAccepted).push .autoStart) (some .started) c.handlers
  refine ⟨fun hasked' ↦ hasked ?_, hstate', c.stack, rfl, rfl, rfl, rfl, hnone.1, htasks,
    fun _ ↦ hready, fun hs ↦ absurd (hstate'.symm.trans hs) (by simp)⟩
  have hlog : ∀ o ∈ [Observation.startAccepted], o.isOrder = false := by
    simp [Observation.isOrder]
  exact (asked_append rfl hlog).mp hasked'

/-- What holds of the connector all along a steady run. -/
structure Invariant (c : Connector) : Prop where
  orderly : c.Orderly
  asked : c.Asked → c.Persists
  starting : .autoStart ∈ c.tasks → c.Starting

/-- Nothing has been asked for, and no call of `AutoReconnect::start` is under way. -/
def Unasked (c : Connector) : Prop := ¬ c.Asked ∧ .autoStart ∉ c.tasks

theorem Keeps.autoStart_notMem (h : Keeps c c') (hnot : .autoStart ∉ c.tasks) :
    .autoStart ∉ c'.tasks := by
  obtain ⟨added, htasks, hadded⟩ := h.tasks
  rw [htasks, List.mem_append, not_or]
  exact ⟨fun hmem ↦ hadded _ hmem, hnot⟩

theorem Keeps.unasked (h : Keeps c c') (hunasked : c.Unasked) : c'.Unasked :=
  ⟨fun hasked ↦ hunasked.1 (h.asked.mp hasked), h.autoStart_notMem hunasked.2⟩

theorem unasked_autoStop (h : .autoStart ∉ c.tasks) : c.autoStop.Unasked := by
  refine ⟨not_asked_of_stopCalled (log_autoStop c) (by simp), fun hmem ↦ ?_⟩
  rcases mem_tasks_autoStop hmem with hmem | hmem | ⟨issued, hmem⟩
  exacts [h hmem, absurd hmem (by simp), absurd hmem (by simp)]

theorem Unasked.occur {e : Event} (h : c.Unasked) (horderly : c.Orderly) (horder : c.InOrder e)
    (hsteady : c.Steady e) (hoccur : c.occur e = some c') : c'.Unasked ∨ c'.Starting := by
  cases e with
  | onExit f =>
    rw [← Option.some.inj hoccur]
    refine Or.inl ⟨fun hasked ↦ h.1 ?_, h.2⟩
    have hlog : ∀ o ∈ [Observation.installed f], o.isOrder = false := by simp [Observation.isOrder]
    exact (asked_append rfl hlog).mp hasked
  | autoStart callback =>
    rw [← Option.some.inj hoccur]
    by_cases hstarted : c.auto.started = true
    · rw [autoStart, if_pos hstarted]
      exact Or.inl h
    · have hstarted' : c.auto.started = false := by simpa using hstarted
      have hready := (hsteady hstarted').1
      exact Or.inr (starting_autoStart callback horderly h.1 (horder.2 ⟨hstarted', hready⟩)
        hstarted' hsteady)
  | autoStop =>
    rw [← Option.some.inj hoccur]
    exact Or.inl (unasked_autoStop h.2)
  | _ => exact Or.inl ((keeps_occur rfl hoccur).unasked h)

theorem Unasked.perform {task : Task} {stack : List Frame} (h : c.Unasked)
    (htasks : c.tasks = task :: { c with stack := stack }.tasks) :
    (task.perform { c with stack := stack }).Unasked := by
  have hpop : { c with stack := stack }.Unasked :=
    ⟨h.1, fun hmem ↦ h.2 (htasks ▸ List.mem_cons_of_mem _ hmem)⟩
  cases task with
  | backup | autoStop => exact hpop
  | autoStart => exact absurd (htasks ▸ List.mem_cons_self) h.2
  | _ => exact (keeps_perform _ rfl).unasked hpop

end Connector

namespace Program

open Connector

variable {τ ε : Type} [TransceiverImpl τ ε] {p p' : Program τ}

/-- The event is in order; the application does not ask for `eNormal`, no loss goes unreported, and
`AutoReconnect::start` finds the connector at rest. -/
def Steady (p : Program τ) (e : Event ε) : Prop :=
  p.InOrder e ∧ ∀ e', e = .connector e' → p.connector.Steady e'

theorem persists_or_unasked {e : Event ε} (h : p.connector.Persists)
    (horderly : p.connector.Orderly) (hasked : p.connector.Asked) (hsteady : p.Steady e)
    (hstep : p.step e = some p') : p'.connector.Persists ∨ p'.connector.Unasked := by
  have hmoves := moves_of_step hstep
  generalize p'.connector = c' at hmoves
  cases hmoves with
  | quiet he hquiet => exact Or.inl (h.quiet hquiet)
  | @occur e c₁ _ hquiet hoccur =>
    have h₁ := h.quiet hquiet
    by_cases hstop : e = .autoStop
    · subst hstop
      rw [← Option.some.inj hoccur]
      exact Or.inr (unasked_autoStop fun hmem ↦ h₁.steadfast.tasks _ hmem)
    · refine Or.inl (h₁.occur (horderly.alike hquiet.alike) (hquiet.keeps.asked.mpr hasked)
        (hquiet.inOrder hsteady.1) (hquiet.steady (hsteady.2 e rfl)) hstop hoccur)
  | @parsed parsed expected session c₁ r hquiet hparsed =>
    have h₁ := h.quiet hquiet
    by_cases hlt : session < c₁.handlers.length
    · refine Or.inl (h₁.handle (horderly.alike hquiet.alike) hlt
        (ConnectionHandler.acts_onParsed hparsed) (fun hloop ↦ ?_) fun _ ↦ ?_)
      · exact absurd hloop (ConnectionHandler.onParsed_ne_shutdownLoop hparsed)
      · exact (ConnectionHandler.kept_onParsed hparsed).2 (by simp)
    · rw [handler_of_le (Nat.not_lt.mp hlt)] at hparsed
      obtain rfl := Option.some.inj hparsed
      rw [Connector.handle, setHandler_of_le (Nat.not_lt.mp hlt)]
      exact Or.inl h₁
  | @shutdownCb session c₁ hquiet =>
    have h₁ := h.quiet hquiet
    by_cases hlt : session < c₁.handlers.length
    · exact Or.inl (h₁.handle (horderly.alike hquiet.alike) hlt
        (ConnectionHandler.acts_endShutdownCb _) (fun hloop ↦ by cases hloop) fun _ ↦ rfl)
    · rw [setHandler_of_le (Nat.not_lt.mp hlt)]
      exact Or.inl h₁
  | perform hdue hwaits htasks => exact Or.inl (h.perform horderly htasks)

theorem unasked_or_starting {e : Event ε} (h : p.connector.Unasked) (horderly : p.connector.Orderly)
    (hsteady : p.Steady e) (hstep : p.step e = some p') :
    p'.connector.Unasked ∨ p'.connector.Starting := by
  have hmoves := moves_of_step hstep
  generalize p'.connector = c' at hmoves
  cases hmoves with
  | quiet he hquiet => exact Or.inl (hquiet.keeps.unasked h)
  | @occur e c₁ _ hquiet hoccur =>
    exact (hquiet.keeps.unasked h).occur (horderly.alike hquiet.alike) (hquiet.inOrder hsteady.1)
      (hquiet.steady (hsteady.2 e rfl)) hoccur
  | parsed hquiet hparsed => exact Or.inl ((keeps_handle _ _ _).unasked (hquiet.keeps.unasked h))
  | shutdownCb hquiet => exact Or.inl ((keeps_setHandler _ _ _).unasked (hquiet.keeps.unasked h))
  | perform hdue hwaits htasks => exact Or.inl (h.perform htasks)

theorem invariant_step {e : Event ε} (h : p.connector.Invariant) (hsteady : p.Steady e)
    (hstep : p.step e = some p') : p'.connector.Invariant := by
  have horderly := orderly_step h.orderly hsteady.1 hstep
  have hpersists (hp : p'.connector.Persists) : p'.connector.Invariant :=
    ⟨horderly, fun _ ↦ hp, fun hmem ↦ (hp.steadfast.tasks _ hmem).elim⟩
  have hunasked (hu : p'.connector.Unasked) : p'.connector.Invariant :=
    ⟨horderly, fun hasked ↦ absurd hasked hu.1, fun hmem ↦ absurd hmem hu.2⟩
  have hstarting (hs : p'.connector.Starting) : p'.connector.Invariant :=
    ⟨horderly, fun hasked ↦ absurd hasked hs.1, fun _ ↦ hs⟩
  by_cases hauto : .autoStart ∈ p.connector.tasks
  · obtain ⟨-, -, rest, hstack, -⟩ := h.starting hauto
    refine hpersists ?_
    rw [step_of_autoStart hstack hstep]
    exact (h.starting hauto).perform hstack
  · by_cases hasked : p.connector.Asked
    · rcases persists_or_unasked (h.asked hasked) h.orderly hasked hsteady hstep with hp | hu
      exacts [hpersists hp, hunasked hu]
    · rcases unasked_or_starting ⟨hasked, hauto⟩ h.orderly hsteady hstep with hu | hs
      exacts [hunasked hu, hstarting hs]

/-- From an accepted `AutoReconnect::start` to the next call of `stop`, `AutoReconnect` goes on, as
long as the run is steady. -/
theorem goesOn_of_steady (h : (machine τ).ReachedBy Steady p) (hasked : p.connector.Asked) :
    p.connector.GoesOn := by
  have hinvariant : p.connector.Invariant := by
    refine h.invariant (I := fun q ↦ q.connector.Invariant) (fun q hq ↦ ?_)
      fun q e q' hq hsteady hstep ↦ invariant_step hq hsteady hstep
    obtain rfl : q = _ := hq
    exact ⟨orderly_new, fun hasked ↦ by simp [initial, Connector.new, Asked] at hasked,
      fun hmem ↦ by simp [initial, Connector.new, tasks] at hmem⟩
  exact (hinvariant.asked hasked).goesOn hinvariant.orderly

/-- The application starts, the broker is not found, and the timer expires. -/
def retried : List (Event Transceiver.Event) :=
  [.connector (.onExit (some 7)), .connector (.autoStart false), .resume,
    .connector (.handler 0 (.resolved (some "host not found"))), .resume,
    .connector .timerExpires, .connector .timerHandler]

/-- After a failure another attempt is made. -/
theorem goesOn_retried :
    ∃ p, (machine Transceiver).run (initial Transceiver) retried = some p ∧
      p.connector.session = 1 ∧ p.connector.GoesOn := by
  have hnone {c : Connector} (hposted : c.posted = []) (htasks : c.tasks = []) : c.NoStop :=
    ⟨hposted, fun _ ↦ by simp [htasks]⟩
  have hrest {c : Connector} (hready : c.connectionHandlerReady = false)
      (hstate : c.connectionHandler.state = .eNotConnected) (htasks : c.tasks = []) :
      c.Steady (.autoStart false) :=
    fun _ ↦ ⟨hready, hstate, by simp [htasks], by simp [htasks], by simp [htasks]⟩
  have hresume {p : Program Transceiver} (task : Option Task) (hdue : p.connector.due = task)
      (htask : ∀ issued, task ≠ some (.stopHandler issued)) :
      p.Steady (.resume : Event Transceiver.Event) :=
    ⟨fun issued h ↦ absurd (hdue.symm.trans h) (htask issued), fun _ h ↦ nomatch h⟩
  refine ⟨_, rfl, by decide, goesOn_of_steady ?_ rfl⟩
  refine ⟨initial Transceiver, retried, rfl, rfl, ?_⟩
  refine Machine.meets_cons ⟨⟨by simp, fun h ↦ h.elim⟩, ?_⟩ rfl ?_
  · rintro e ⟨⟩
    simp [Connector.Steady, Asked, initial, Connector.new]
  refine Machine.meets_cons ⟨⟨by simp, fun _ ↦ hnone rfl rfl⟩, ?_⟩ rfl ?_
  · rintro e ⟨⟩
    exact hrest rfl rfl rfl
  refine Machine.meets_cons (hresume (some .autoStart) rfl (by simp)) rfl ?_
  refine Machine.meets_cons ⟨⟨?_, fun h ↦ h.elim⟩, ?_⟩ rfl ?_
  · rintro session e ⟨⟩
    simp [ConnectionHandler.Undisturbed]
  · rintro e ⟨⟩ - -
    exact ⟨rfl, by simp⟩
  refine Machine.meets_cons (hresume none rfl (by simp)) rfl ?_
  refine Machine.meets_cons ⟨⟨by simp, fun h ↦ h.elim⟩, ?_⟩ rfl ?_
  · rintro e ⟨⟩
    trivial
  refine Machine.meets_cons ⟨⟨by simp, fun _ ↦ hnone rfl rfl⟩, ?_⟩ rfl trivial
  rintro e ⟨⟩
  trivial

/-- The application starts and is connected, and then the broker cannot be read from. -/
def lost : List (Event Transceiver.Event) :=
  [.connector (.onExit (some 7)), .connector (.autoStart false), .resume,
    .connector (.handler 0 (.resolved none)), .connector (.handler 0 (.connectDone none)),
    .connector (.handler 0 (.wrote none 8)),
    .connector (.handler 0 (.read (some "connection reset") 0 8)), .resume, .resume,
    .connector (.posted 0), .resume, .resume, .resume]

/-- `AutoReconnect` gives up after a failed read: it is not started, and nothing is left to do. -/
theorem not_goesOn_lost :
    ∃ p, (machine Transceiver).run (initial Transceiver) lost = some p ∧ p.connector.Asked ∧
      p.connector.auto = { AutoReconnect.new with rerun := p.connector.auto.rerun } ∧
      p.connector.connectionHandler.state = .eNotConnected ∧ p.connector.stack = [] ∧
      p.connector.posted = [] ∧ ¬ p.connector.GoesOn :=
  ⟨_, rfl, rfl, rfl, rfl, rfl, rfl, fun h ↦ nomatch h.started⟩

end Program

end AmqpAsio
