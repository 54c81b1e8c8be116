import AmqpAsio.ConnectionHandler.Sound
import AmqpAsio.Connector.Moves

/-!
# The connector behind its callbacks

What the connector itself does does not depend on what its exit callback does. `Alike` connectors
have handlers in the same states, the same flags, the same tasks of the connector's own and the same
record of its sessions, and calling the exit callback changes nothing but that record
(`alike_exit`).
-/

set_option autoImplicit false
set_option relaxedAutoImplicit false

namespace AmqpAsio

namespace Connector

variable {c c' : Connector}

/-! ### The handlers -/

@[simp] theorem session_push (c : Connector) (f : Frame) : (c.push f).session = c.session := rfl

@[simp] theorem handler_push (c : Connector) (f : Frame) : (c.push f).handler = c.handler := rfl

@[simp] theorem connectionHandler_push (c : Connector) (f : Frame) :
    (c.push f).connectionHandler = c.connectionHandler := rfl

@[simp] theorem length_setHandler (c : Connector) (session : ℕ) (h : ConnectionHandler) :
    (c.setHandler session h).handlers.length = c.handlers.length :=
  List.length_set

@[simp] theorem session_setHandler (c : Connector) (session : ℕ) (h : ConnectionHandler) :
    (c.setHandler session h).session = c.session := by
  simp [Connector.session]

theorem handler_setHandler (c : Connector) (session : ℕ) (h : ConnectionHandler)
    (hsession : session < c.handlers.length) : (c.setHandler session h).handler session = h := by
  simp [handler, setHandler, hsession]

theorem handler_setHandler_of_ne {session other : ℕ} (c : Connector) (h : ConnectionHandler)
    (hne : other ≠ session) : (c.setHandler session h).handler other = c.handler other := by
  simp [handler, setHandler, List.getD_eq_getElem?_getD, List.getElem?_set_ne hne.symm]

theorem connectionHandler_setHandler (c : Connector) (h : ConnectionHandler)
    (hsession : c.session < c.handlers.length) :
    (c.setHandler c.session h).connectionHandler = h := by
  unfold connectionHandler
  rw [session_setHandler]
  exact handler_setHandler c c.session h hsession

/-- A session that does not exist has a handler that was never started, and cannot change. -/
theorem handler_of_le {session : ℕ} (hle : c.handlers.length ≤ session) :
    c.handler session = ConnectionHandler.new := by
  simp [handler, hle]

theorem setHandler_of_le {session : ℕ} {h : ConnectionHandler} (hle : c.handlers.length ≤ session) :
    c.setHandler session h = c := by
  simp [setHandler, List.set_eq_of_length_le hle]

/-- What holds of every handler and of the new one holds of every handler once one has changed. -/
theorem forall_mem_setHandler {P : ConnectionHandler → Prop} {session : ℕ} {h : ConnectionHandler}
    (hall : ∀ v ∈ c.handlers, P v) (hh : P h) : ∀ v ∈ (c.setHandler session h).handlers, P v := by
  intro v hv
  rcases List.mem_or_eq_of_mem_set hv with hv | rfl
  exacts [hall v hv, hh]

theorem handler_mem {session : ℕ} (hsession : session < c.handlers.length) :
    c.handler session ∈ c.handlers := by
  simp [handler, hsession]

theorem session_lt_of_state (h : c.connectionHandler.state ≠ .eNotConnected) :
    c.session < c.handlers.length := by
  by_contra hlt
  have hnil : c.handlers = [] := by
    rw [← List.length_eq_zero_iff]
    unfold Connector.session at hlt
    omega
  exact h (by simp [connectionHandler, handler, hnil, ConnectionHandler.new])

theorem connectionHandler_of_getLast? {old : ConnectionHandler}
    (hlast : c.handlers.getLast? = some old) :
    c.session < c.handlers.length ∧ c.connectionHandler = old := by
  rw [List.getLast?_eq_getElem?] at hlast
  obtain ⟨hlt, hget⟩ := List.getElem?_eq_some_iff.mp hlast
  refine ⟨hlt, ?_⟩
  simp [connectionHandler, handler, Connector.session, hlt, hget]

theorem forall_mem_handlers {P : ConnectionHandler → Prop}
    (hall : ∀ i, i < c.handlers.length → P (c.handler i)) : ∀ v ∈ c.handlers, P v := by
  intro v hv
  obtain ⟨i, hi, rfl⟩ := List.getElem_of_mem hv
  simpa [handler, hi] using hall i hi

/-- A handler that has been changed finishes its shutdown. -/
theorem finish_setHandler {session : ℕ} (h : ConnectionHandler)
    (hlt : session < c.handlers.length) :
    (c.setHandler session h).finish session =
      ((c.setHandler session h.endShutdown.1).push (.shutdownCb session)).onShutdown session := by
  unfold finish
  rw [handler_setHandler c session h hlt]
  simp [setHandler]

/-- A handler that is stopped before its connection is in `eNotConnected` at once. -/
theorem handle_stop {session : ℕ} {h : ConnectionHandler} (hlt : session < c.handlers.length)
    (hsound : h.Sound) (hstate : h.state ≠ .eNotConnected) (hdown : h.connected = false) :
    ∃ v : ConnectionHandler, v.Sound ∧ v.state = .eNotConnected ∧ c.handle session h.stop =
      ((c.setHandler session v).push (.shutdownCb session)).onShutdown session := by
  have hacts := ConnectionHandler.acts_stop h
  have hloop : h.stop.2 = .shutdownLoop := by
    unfold ConnectionHandler.stop
    rw [if_neg hstate]
    rfl
  have hwaits : h.stop.1.waiting = false := by
    by_contra hwaits
    have hup := hacts.waits hsound hloop (by simpa using hwaits)
    simp [hdown] at hup
  refine ⟨h.stop.1.endShutdown.1, (hacts.sound hsound).endShutdown, rfl, ?_⟩
  simp only [Connector.handle, hloop, hwaits, Bool.false_eq_true, ↓reduceIte]
  exact finish_setHandler _ hlt

/-! ### The next session -/

/-- A session begins, the earlier ones having these handlers. -/
def begun (c : Connector) (callback : Option StartedCallback) (l : List ConnectionHandler) :
    Connector :=
  { c with
    exiting := false
    startedCb := callback
    sentinel := true
    handlers := l ++ [(ConnectionHandler.new.start true).1] }

@[simp] theorem session_begun (c : Connector) (callback : Option StartedCallback)
    (l : List ConnectionHandler) : (c.begun callback l).session = l.length := by
  simp [begun, Connector.session]

theorem handler_begun {l : List ConnectionHandler} {i : ℕ} (c : Connector)
    (callback : Option StartedCallback) (hi : i < l.length) :
    (c.begun callback l).handler i = l.getD i ConnectionHandler.new := by
  simp [begun, handler, List.getElem?_append_left hi]

theorem state_begun (c : Connector) (callback : Option StartedCallback)
    (l : List ConnectionHandler) : (c.begun callback l).connectionHandler.state = .eResolving := by
  rw [connectionHandler, session_begun]
  simp [begun, handler, ConnectionHandler.start, ConnectionHandler.new, ConnectionHandler.goto,
    ConnectionHandler.stateMachine]

theorem asyncStart_of_ready {callback : Option StartedCallback}
    (hready : c.connectionHandlerReady = true) : c.asyncStart callback = c := by
  simp [asyncStart, hready]

/-- `async_start()` of a connector that is not connected: if the last session is not over, it is
ended in between. -/
theorem asyncStart_cases (callback : Option StartedCallback)
    (hready : c.connectionHandlerReady = false) (hsound : ∀ h ∈ c.handlers, h.Sound)
    (hdown : c.connectionHandler.connected = false) :
    (c.connectionHandler.state = .eNotConnected ∧
      c.asyncStart callback = c.begun callback c.handlers) ∨
    (c.connectionHandler.state ≠ .eNotConnected ∧ ∃ v : ConnectionHandler, v.Sound ∧
      v.state = .eNotConnected ∧ c.asyncStart callback =
        ((c.begun callback (c.handlers.set c.session v)).push (.shutdownCb c.session)).onShutdown
          c.session) := by
  unfold asyncStart
  rw [if_neg (by simp [hready])]
  cases hlast : c.handlers.getLast? with
  | none =>
    rw [List.getLast?_eq_none_iff] at hlast
    exact Or.inl ⟨by simp [connectionHandler, handler, hlast, ConnectionHandler.new], rfl⟩
  | some old =>
    obtain ⟨hlt, rfl⟩ := connectionHandler_of_getLast? hlast
    have hset (v : ConnectionHandler) : (c.begun callback c.handlers).setHandler c.session v =
        c.begun callback (c.handlers.set c.session v) := by
      simp only [begun, setHandler]
      rw [List.set_append_left _ _ hlt]
    by_cases hstate : c.connectionHandler.state = .eNotConnected
    · refine Or.inl ⟨hstate, ?_⟩
      have hdone : c.connectionHandler.stop = (c.connectionHandler, .done) := by
        unfold ConnectionHandler.stop
        rw [if_pos hstate]
      have hself : c.handlers.set c.session c.connectionHandler = c.handlers := by
        simp [connectionHandler, handler, hlt]
      simp only [hdone]
      exact (hset _).trans (congrArg (c.begun callback) hself)
    · refine Or.inr ⟨hstate, ?_⟩
      have hlt' : c.session < (c.begun callback c.handlers).handlers.length := by
        rw [begun, List.length_append]
        exact Nat.lt_add_right _ hlt
      obtain ⟨v, hv, hstopped, heq⟩ := handle_stop (c := c.begun callback c.handlers) hlt'
        (hsound _ (handler_mem hlt)) hstate hdown
      exact ⟨v, hv, hstopped, heq.trans (by rw [hset])⟩

/-! ### The tasks and the record of the connector -/

/-- The task is one of the connector, not of its wrapper. -/
def Task.isWork : Task → Bool
  | .shutdown _ | .stop _ | .stopHandler _ | .drop _ => true
  | .restart _ | .backup | .autoStart | .autoStop => false

/-- The tasks of the connector, the topmost first. -/
def work (c : Connector) : List Task := c.tasks.filter Task.isWork

theorem mem_work {task : Task} (htask : task.isWork = true) : task ∈ c.work ↔ task ∈ c.tasks := by
  simp [work, htask]

@[simp] theorem tasks_setHandler (c : Connector) (session : ℕ) (h : ConnectionHandler) :
    (c.setHandler session h).tasks = c.tasks := rfl

theorem work_push (c : Connector) (f : Frame) :
    (c.push f).work = f.task.toList.filter Task.isWork ++ c.work := by
  simp [work]

theorem work_of_tasks {task : Task} {stack : List Frame}
    (htasks : c.tasks = task :: { c with stack := stack }.tasks) :
    c.work = [task].filter Task.isWork ++ { c with stack := stack }.work := by
  unfold Connector.work
  rw [htasks, ← List.filter_append]
  rfl

/-- The codes that the exit callback has been called with for a session, in order. -/
def exitCodes (session : ℕ) (log : List Observation) : List ExitCode :=
  log.filterMap fun
    | .exit other code => if other = session then some code else none
    | _ => none

@[simp] theorem exitCodes_append (session : ℕ) (first second : List Observation) :
    exitCodes session (first ++ second) = exitCodes session first ++ exitCodes session second := by
  simp [exitCodes]

theorem exitCodes_exit (session other : ℕ) (code : ExitCode) :
    exitCodes session [.exit other code] = if other = session then [code] else [] := by
  by_cases h : other = session <;> simp [exitCodes, h]

theorem exitCodes_record_exit (c : Connector) (session other : ℕ) (code : ExitCode) :
    exitCodes session (c.record (.exit other code)).log =
      exitCodes session c.log ++ if other = session then [code] else [] := by
  rw [record, exitCodes_append, exitCodes_exit]

theorem exitCodes_record_acted (c : Connector) (session issued other : ℕ) :
    exitCodes session (c.record (.acted issued other)).log = exitCodes session c.log := by
  rw [record, exitCodes_append]
  exact List.append_nil _

/-! ### Alike connectors -/

/-- The connectors agree in what concerns the connector itself. -/
structure Alike (c c' : Connector) : Prop where
  length : c'.handlers.length = c.handlers.length
  states : ∀ session, (c'.handler session).state = (c.handler session).state
  sound : (∀ h ∈ c.handlers, h.Sound) → ∀ h ∈ c'.handlers, h.Sound
  exiting : c'.exiting = c.exiting
  ready : c'.connectionHandlerReady = c.connectionHandlerReady
  posted : c'.posted = c.posted
  work : c'.work = c.work
  exits : ∀ session, exitCodes session c'.log = exitCodes session c.log
  acts : ∀ issued session, .acted issued session ∈ c'.log ↔ .acted issued session ∈ c.log

theorem Alike.session (h : Alike c c') : c'.session = c.session :=
  congrArg (· - 1) h.length

theorem Alike.state (h : Alike c c') : c'.connectionHandler.state = c.connectionHandler.state := by
  unfold connectionHandler
  rw [h.session]
  exact h.states c.session

theorem Alike.trans {c₁ : Connector} (hfirst : Alike c c₁) (hsecond : Alike c₁ c') :
    Alike c c' where
  length := hsecond.length.trans hfirst.length
  states session := (hsecond.states session).trans (hfirst.states session)
  sound h := hsecond.sound (hfirst.sound h)
  exiting := hsecond.exiting.trans hfirst.exiting
  ready := hsecond.ready.trans hfirst.ready
  posted := hsecond.posted.trans hfirst.posted
  work := hsecond.work.trans hfirst.work
  exits session := (hsecond.exits session).trans (hfirst.exits session)
  acts issued session := (hsecond.acts issued session).trans (hfirst.acts issued session)

/-- Observations that are about no session. -/
def Observation.isAside : Observation → Bool
  | .exit _ _ | .acted _ _ => false
  | _ => true

theorem exitCodes_append_aside {new : List Observation} (hnew : ∀ o ∈ new, o.isAside = true)
    (session : ℕ) (log : List Observation) :
    exitCodes session (log ++ new) = exitCodes session log := by
  have hnone : exitCodes session new = [] := by
    refine List.filterMap_eq_nil_iff.mpr fun o ho ↦ ?_
    have haside := hnew o ho
    cases o <;> simp_all [Observation.isAside]
  rw [exitCodes_append, hnone, List.append_nil]

/-- What changes neither the handlers nor the connector's own tasks, and records nothing about a
session, leaves the connector alike. -/
theorem alike_of_eq (new : List Observation) (hhandlers : c'.handlers = c.handlers)
    (hexiting : c'.exiting = c.exiting)
    (hready : c'.connectionHandlerReady = c.connectionHandlerReady) (hposted : c'.posted = c.posted)
    (hwork : c'.work = c.work) (hlog : c'.log = c.log ++ new)
    (hnew : ∀ o ∈ new, o.isAside = true) : Alike c c' where
  length := congrArg List.length hhandlers
  states session := by simp only [handler, hhandlers]
  sound h := hhandlers ▸ h
  exiting := hexiting
  ready := hready
  posted := hposted
  work := hwork
  exits session := hlog ▸ exitCodes_append_aside hnew session c.log
  acts issued session := by
    rw [hlog, List.mem_append, or_iff_left]
    intro hacted
    cases hnew _ hacted

theorem Quiet.alike (h : Quiet c c') : Alike c c' :=
  alike_of_eq [] h.handlers h.exiting h.ready h.posted (by rw [work, work, h.tasks])
    (by simp [h.log]) (by simp)

/-- The handler of a session changes, but not its state. -/
theorem alike_setHandler {session : ℕ} {h : ConnectionHandler}
    (hsession : session < c.handlers.length)
    (hsound : (c.handler session).Sound → h.Sound) (hstate : h.state = (c.handler session).state) :
    Alike c (c.setHandler session h) where
  length := length_setHandler c session h
  states other := by
    by_cases hother : other = session
    · subst hother
      rw [handler_setHandler c other h hsession, hstate]
    · rw [handler_setHandler_of_ne c h hother]
  sound hall := forall_mem_setHandler hall (hsound (hall _ (handler_mem hsession)))
  exiting := rfl
  ready := rfl
  posted := rfl
  work := rfl
  exits _ := rfl
  acts _ _ := Iff.rfl

/-- The call of an exit callback, once it has been recorded, leaves the connector alike. -/
theorem Calls.alike (h : Calls c c') : Alike c c' := by
  cases h with
  | intro hstack hlog =>
    obtain ⟨added, rfl, hadded⟩ := hstack
    obtain ⟨new, rfl, hnew⟩ := hlog
    have hnone : (added.filterMap Frame.task).filter Task.isWork = [] := by
      refine List.filter_eq_nil_iff.mpr fun task htask ↦ ?_
      obtain ⟨f, hf, htask⟩ := List.mem_filterMap.mp htask
      have hkind := hadded f hf
      cases f <;> simp_all [Frame.OfCallback, Frame.task] <;> simp [← htask, Task.isWork]
    refine alike_of_eq new rfl rfl rfl rfl ?_ rfl fun o ho ↦ ?_
    · simp [work, tasks, List.filterMap_append, hnone]
    · have hcalled := hnew o ho
      cases o with
      | called => rfl
      | _ => cases hcalled

theorem alike_restart (c : Connector) (code : ExitCode) : Alike c (c.restart code) :=
  (calls_restart c code).alike

/-- Calling the exit callback, if there is one, changes nothing but the record. -/
theorem alike_exit (c : Connector) (session : ℕ) (code : ExitCode) :
    Alike c (c.exit session code) ∨ Alike (c.record (.exit session code))
    (c.exit session code) := by
  rcases exit_cases c session code with ⟨-, heq⟩ | ⟨-, hcalls⟩
  · rw [heq]
    exact Or.inl (Quiet.refl c).alike
  · exact Or.inr hcalls.alike

end Connector

end AmqpAsio
