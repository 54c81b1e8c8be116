import AmqpAsio.Connector.Keeps
import AmqpAsio.Connector.Sessions

/-!
# How AutoReconnect drives a connector

`AutoReconnect::start` has an attempt begun before it returns, and what comes of the attempt, or of
any later method of a handler, is one of a few things (`Comes`). A session that ends with an error
while `AutoReconnect` is started arms the timer.
-/

set_option autoImplicit false
set_option relaxedAutoImplicit false

namespace AmqpAsio

namespace Connector

open ConnectionHandler (Continuation)

variable {c c' : Connector}

/-! ### What a method comes to -/

/-- What a method of the handler of a session of an orderly connector comes to: nothing; a step
towards the connection, or the connection; a shutdown that waits; or the end of the session. -/
inductive Comes (c : Connector) (session : ℕ) (r : ConnectionHandler × Continuation) :
    Connector → Prop
  | still {c' : Connector} (hstate : r.1.state = (c.handler session).state)
      (hquiet : Quiet (c.setHandler session r.1) c') : Comes c session r c'
  | advance (hcurrent : session = c.session)
      (hstate : c.connectionHandler.state = .eResolving ∧ r.1.state = .eConnecting ∨
        c.connectionHandler.state = .eReceiverInit ∧ r.1.state = .eReady) :
      Comes c session r (c.setHandler c.session r.1)
  | connected {v : ConnectionHandler} (hcurrent : session = c.session)
      (hstate : c.connectionHandler.state = .eConnecting) (hv : v.state = .eReady) :
      Comes c session r { c.setHandler c.session v with
        connectionHandlerReady := true, amqpConnection := some c.session
        sentinel := false }.callStartedCb
  | waits (hcurrent : session = c.session) (hstate : c.connectionHandler.connected = true)
      (hloop : r.2 = .shutdownLoop) (hv : r.1.state = .eShutdown) :
      Comes c session r ((c.setHandler c.session r.1).push (.shutdownLoop c.session))
  | ends {v : ConnectionHandler} (hcurrent : session = c.session)
      (hstate : c.connectionHandler.state ≠ .eNotConnected) (hv : v.state = .eNotConnected)
      (hcause : r.2 = .shutdownLoop ∧ v.amqpError = r.1.amqpError ∨
        c.connectionHandler.state = .eResolving ∨ c.connectionHandler.state = .eConnecting) :
      Comes c session r
        (((c.setHandler c.session v).push (.shutdownCb c.session)).onShutdown c.session)

theorem Orderly.comes {session : ℕ} {r : ConnectionHandler × Continuation} (h : c.Orderly)
    (hlt : session < c.handlers.length) (hacts : (c.handler session).Acts r) :
    Comes c session r (c.handle session r) := by
  have hold := h.sound _ (handler_mem hlt)
  have hwaits := hacts.waits hold
  have htransition := hacts.transition
  obtain ⟨v, next⟩ := r
  have hcurrent (hstate : (c.handler session).state ≠ .eNotConnected) : session = c.session := by
    by_contra hne
    refine hstate (h.others session ?_)
    unfold Connector.session at hne ⊢
    omega
  simp only [Connector.handle]
  cases next <;> simp only [ConnectionHandler.Transition] at htransition
  case done =>
    rcases htransition with hstate | ⟨⟨hstate, hv⟩ | ⟨hstate, hv⟩ | ⟨hstate, hv⟩, hcb⟩
    · exact Comes.still hstate (Quiet.refl _)
    all_goals obtain rfl := hcurrent (by simp [hstate])
    · exact Comes.advance rfl (Or.inl ⟨hstate, hv⟩)
    · have hset := hold.connectedCb
      simp [hcb hv] at hset
    · exact Comes.advance rfl (Or.inr ⟨hstate, hv⟩)
  case connectedCb =>
    obtain ⟨hstate, hv⟩ := htransition
    obtain rfl := hcurrent (by simp [hstate])
    rw [onConnected_setHandler v hlt]
    exact Comes.connected rfl hstate (ConnectionHandler.state_onData hv _)
  case parse => exact Comes.still htransition.2 (quiet_push _ rfl)
  case shutdownLoop =>
    obtain ⟨hstate, hv⟩ := htransition
    obtain rfl := hcurrent hstate
    change Comes c c.session (v, .shutdownLoop) (if v.waiting then
      (c.setHandler c.session v).push (.shutdownLoop c.session)
      else (c.setHandler c.session v).finish c.session)
    split
    · next hwaiting => exact Comes.waits rfl (hwaits rfl hwaiting) rfl hv
    · rw [finish_setHandler v hlt]
      exact Comes.ends rfl hstate rfl (Or.inl ⟨rfl, rfl⟩)
  case shutdownCb message =>
    obtain ⟨hstate, hv, -⟩ := htransition
    obtain rfl := hcurrent (by rcases hstate with hs | hs <;> simp [hs])
    refine Comes.ends rfl ?_ hv (Or.inr hstate)
    rcases hstate with hs | hs <;> simp [connectionHandler, hs]

/-! ### The calls of the wrapper -/

/-- `AutoReconnect::start`, accepted when the last session is over, begins a session at once. -/
theorem autoStart_of_stopped (callback : Bool) (hstarted : c.auto.started = false)
    (hready : c.connectionHandlerReady = false)
    (hstate : c.connectionHandler.state = .eNotConnected) (hsound : ∀ h ∈ c.handlers, h.Sound) :
    c.autoStart callback = (({ c with
      auto := { c.auto with
        needStop := false, rerun := false
        backupExitCallback := c.exitCb, startedCallback := callback }
      exitCb := some .restart }.record .startAccepted).push .autoStart).begun (some .started)
        c.handlers := by
  have hdown : c.connectionHandler.connected = false := by
    simp [ConnectionHandler.connected, hstate]
  unfold autoStart
  rw [if_neg (by simp [hstarted])]
  rcases asyncStart_cases (c := ({ c with
      auto := { c.auto with
        needStop := false, rerun := false
        backupExitCallback := c.exitCb, startedCallback := callback }
      exitCb := some .restart }.record .startAccepted).push .autoStart) (some .started) hready
        hsound hdown
    with ⟨-, heq⟩ | ⟨hne, -⟩
  · exact heq
  · exact absurd hstate hne

theorem log_autoStop (c : Connector) : c.autoStop.log = c.log ++ [.stopCalled] := by
  have hstop (c : Connector) : c.stop.log = c.log := by
    unfold stop
    split <;> rfl
  simp only [autoStop]
  split
  · rfl
  · split
    · exact hstop _
    · rfl

theorem mem_tasks_autoStop {task : Task} (htask : task ∈ c.autoStop.tasks) :
    task ∈ c.tasks ∨ task = .autoStop ∨ ∃ issued, task = .stop issued := by
  simp only [autoStop, stop] at htask
  split_ifs at htask
  · exact Or.inl htask
  · rw [tasks_push, List.mem_append] at htask
    exact htask.elim (fun h ↦ Or.inr (Or.inl (by simpa [Frame.task] using h))) Or.inl
  · rw [tasks_push, tasks_push, List.mem_append, List.mem_append] at htask
    rcases htask with h | h | h
    · exact Or.inr (Or.inr ⟨_, by simpa [Frame.task, Loop.task] using h⟩)
    · exact Or.inr (Or.inl (by simpa [Frame.task] using h))
    · exact Or.inl h
  · exact Or.inl htask

/-- A session that ends with an error arms the timer. -/
theorem exit_of_started {session : ℕ} {code : ExitCode} (hexitCb : c.exitCb = some .restart)
    (hstarted : c.auto.started = true) (hcode : code ≠ .eNormal) :
    c.exit session code = { c.record (.exit session code) with
      auto := { c.auto with rerun := true, waiting := true } } := by
  unfold exit restart
  rw [hexitCb]
  cases code with
  | eNormal => exact absurd rfl hcode
  | eBrokerConnectError | eAmqpError => simp [record, hstarted]

end Connector

namespace Program

open Connector

variable {τ ε : Type} [TransceiverImpl τ ε] {p p' : Program τ}

/-- Nothing happens between the attempt that `AutoReconnect::start` begins and its return. -/
theorem step_of_autoStart {e : Event ε} {rest : List Frame}
    (hstack : p.connector.stack = .autoStart :: rest) (hstep : p.step e = some p') :
    p'.connector = Task.perform .autoStart { p.connector with stack := rest } := by
  have hpausing : p.pausing = false := by simp [pausing, hstack]
  cases e with
  | resume =>
    simp only [step, resume, hstack, Frame.goOn, Option.map_some, Option.some.injEq] at hstep
    rw [← hstep]
    rfl
  | parsed => simp [step, hstack] at hstep
  | _ => simp [step, hpausing] at hstep

end Program

end AmqpAsio
