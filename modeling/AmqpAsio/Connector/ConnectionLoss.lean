import AmqpAsio.ConnectionHandler.Losses
import AmqpAsio.Connector.Keeps
import AmqpAsio.Connector.WellFormed

/-!
# The loss of a connection

A connection can be lost in two ways: AMQP-CPP calls `onError()`, or a read or a write fails. The
documentation of `Connector::onShutdown` promises that on an error during the work with the broker
the transceivers are dropped and the exit callback is called with `eAmqpError`, and after
`onError()` that is what happens. After a failed read or write `onShutdown` goes on to `stop()`,
which asks the transceivers to say goodbye over the lost connection, and which ends in `eNormal` if
it ends at all. So no such loss is ever reported.
-/

set_option autoImplicit false
set_option relaxedAutoImplicit false

namespace AmqpAsio

namespace Connector

variable {c c' : Connector} {s : ℕ}

/-! ### While the handler shuts down -/

/-- A task that can come up while the handler of a session waits in its loop. -/
def Task.Nested (s : ℕ) : Task → Prop
  | .shutdown i => i = s
  | .stop _ | .stopHandler _ | .autoStart | .autoStop => True
  | .drop _ | .restart _ | .backup => False

/-- The handler of the present session is shutting down after a loss that AMQP-CPP has not reported.
Only a handler posted by a `stop()` can make it shut down once more in its loop. -/
structure Losing (s : ℕ) (c : Connector) : Prop where
  session : c.session = s
  ready : c.connectionHandlerReady = true
  exitCb : c.exitCb ≠ none
  state : (c.handler s).state = .eShutdown
  amqpError : (c.handler s).amqpError = false
  tasks : ∃ above below, c.tasks = above ++ .shutdown s :: below ∧
    (∀ task ∈ above, task.Nested s) ∧ (c.exiting = false → .shutdown s ∉ above ++ below)

theorem Losing.lt (h : Losing s c) : s < c.handlers.length := by
  have hstate : c.connectionHandler.state ≠ .eNotConnected := by
    rw [connectionHandler, h.session, h.state]
    simp
  exact h.session ▸ session_lt_of_state hstate

/-- What leaves the handler and the flags alone, and suspends only nested calls. -/
theorem Losing.of_append (h : Losing s c) (added : List Task) (hsession : c'.session = c.session)
    (hready : c'.connectionHandlerReady = c.connectionHandlerReady) (hexitCb : c'.exitCb ≠ none)
    (hstate : (c'.handler s).state = .eShutdown) (hamqpError : (c'.handler s).amqpError = false)
    (hexiting : c'.exiting = false → c.exiting = false ∧ .shutdown s ∉ added)
    (htasks : c'.tasks = added ++ c.tasks) (hadded : ∀ task ∈ added, task.Nested s) :
    Losing s c' := by
  obtain ⟨above, below, hsplit, habove, hone⟩ := h.tasks
  refine ⟨hsession.trans h.session, hready.trans h.ready, hexitCb, hstate, hamqpError,
    added ++ above, below, ?_, fun task htask ↦ ?_, fun hnot ↦ ?_⟩
  · rw [htasks, hsplit, List.append_assoc]
  · exact (List.mem_append.mp htask).elim (hadded task) (habove task)
  · obtain ⟨hnot', hadded'⟩ := hexiting hnot
    rw [List.append_assoc, List.mem_append, not_or]
    exact ⟨hadded', hone hnot'⟩

theorem Losing.of_eq (h : Losing s c) (hhandlers : c'.handlers = c.handlers)
    (hready : c'.connectionHandlerReady = c.connectionHandlerReady) (hexitCb : c'.exitCb ≠ none)
    (hexiting : c'.exiting = c.exiting) (htasks : c'.tasks = c.tasks) : Losing s c' := by
  have hhandler : c'.handler s = c.handler s := by simp only [handler, hhandlers]
  refine h.of_append [] ?_ hready hexitCb (hhandler ▸ h.state) (hhandler ▸ h.amqpError) ?_ htasks
    (by simp)
  · simp only [Connector.session, hhandlers]
  · exact fun hnot ↦ ⟨hexiting ▸ hnot, by simp⟩

theorem Losing.quiet (h : Losing s c) (hquiet : Quiet c c') : Losing s c' :=
  h.of_eq hquiet.handlers hquiet.ready (hquiet.exitCb ▸ h.exitCb) hquiet.exiting hquiet.tasks

/-- A call whose task can come up is suspended. -/
theorem Losing.push {f : Frame} (h : Losing s c) (hf : ∀ task, f.task = some task →
    task.Nested s ∧ task ≠ .shutdown s) : Losing s (c.push f) := by
  have hmem {task : Task} (htask : task ∈ f.task.toList) : f.task = some task := by
    simpa using htask
  refine h.of_append f.task.toList rfl rfl h.exitCb h.state h.amqpError (fun hnot ↦ ?_)
    (tasks_push c f) fun task htask ↦ (hf task (hmem htask)).1
  exact ⟨hnot, fun htask ↦ (hf _ (hmem htask)).2 rfl⟩

theorem Losing.stop (h : Losing s c) : Losing s c.stop := by
  unfold Connector.stop
  split
  · exact h
  · exact h.push (by simp [Frame.task, Loop.task, Task.Nested])

/-- `async_start()` is not accepted. -/
theorem Losing.asyncStart (h : Losing s c) (callback : Option StartedCallback) :
    Losing s (c.asyncStart callback) := by
  simp only [Connector.asyncStart, h.ready, ↓reduceIte]
  exact h

/-- A method is called that does not shut down a handler. -/
theorem Losing.handle {session : ℕ} {r : ConnectionHandler × ConnectionHandler.Continuation}
    (h : Losing s c) (hstill : r.2 = .done ∨ r.2 = .parse)
    (hself : session = s → r.1.state = .eShutdown ∧ r.1.amqpError = false) :
    Losing s (c.handle session r) := by
  have hset : Losing s (c.setHandler session r.1) := by
    refine h.of_append [] (session_setHandler c session r.1) rfl h.exitCb ?_ ?_
      (fun hnot ↦ ⟨hnot, by simp⟩) rfl (by simp)
    all_goals
      by_cases heq : session = s
      · subst heq
        rw [handler_setHandler c session r.1 h.lt]
        first | exact (hself rfl).1 | exact (hself rfl).2
      · rw [handler_setHandler_of_ne c r.1 (Ne.symm heq)]
        first | exact h.state | exact h.amqpError
  obtain ⟨v, next⟩ := r
  rcases hstill with rfl | rfl
  · exact hset
  · exact hset.quiet (quiet_push _ rfl)

/-- Every handler of a well-formed connector is over. -/
theorem Losing.over {session : ℕ} (h : Losing s c) (hwf : c.WellFormed fun _ ↦ False)
    (hlt : session < c.handlers.length) : (c.handler session).Over := by
  by_cases heq : session = s
  · exact heq ▸ Or.inr h.state
  · refine hwf.others session ?_
    have hsession := h.session
    unfold Connector.session at hsession ⊢
    omega

/-! ### The end of the shutdown -/

/-- A session that is stopped, has nothing left that ends it, and is not answered is spent. -/
theorem WellFormed.spend (h : c.WellFormed fun _ ↦ False) (hlt : s < c.handlers.length)
    (hstate : (c.handler s).state = .eNotConnected) (hloops : .shutdown s ∉ c.tasks)
    (hdrops : .drop s ∉ c.tasks) (hexits : exitCodes s c.log = []) : c.WellFormed (· = s) :=
  { h with
    loops := fun i hi ↦ by
      obtain ⟨hlt', hstate', -⟩ := h.loops i hi
      exact ⟨hlt', hstate', fun heq ↦ hloops (heq ▸ (mem_work rfl).mp hi)⟩
    drops := fun i hi ↦ by
      obtain ⟨hlt', hstate', -⟩ := h.drops i hi
      exact ⟨hlt', hstate', fun heq ↦ hdrops (heq ▸ (mem_work rfl).mp hi)⟩
    spent := by
      rintro i rfl
      exact ⟨hlt, hstate, by simp [hexits]⟩ }

/-- The exit callback, if there is one, is recorded. -/
theorem exitCodes_exit_self (c : Connector) (s : ℕ) (code : ExitCode) (hexitCb : c.exitCb ≠ none) :
    code ∈ exitCodes s (c.exit s code).log := by
  have hrecord : code ∈ exitCodes s (c.record (.exit s code)).log := by
    simp [exitCodes_record_exit]
  unfold exit
  split
  · next hnone => exact absurd hnone hexitCb
  · next f _ =>
    simp only [record, push, exitCodes_append, List.mem_append] at hrecord ⊢
    exact Or.inl hrecord
  · rw [(alike_restart _ code).exits s]
    exact hrecord

/-- The handler finishes its shutdown: the session is answered with `eNormal` if a `stop()` has
acted on it, and it is spent otherwise. -/
theorem finish_lost (hwf : (c.finish s).WellFormed fun _ ↦ False) (hsession : c.session = s)
    (hlt : s < c.handlers.length) (hready : c.connectionHandlerReady = true)
    (hexitCb : c.exitCb ≠ none) (hamqpError : (c.handler s).amqpError = false)
    (hloops : c.exiting = false → .shutdown s ∉ c.tasks) (hdrops : .drop s ∉ c.tasks)
    (hexits : exitCodes s c.log = []) :
    .eNormal ∈ exitCodes s (c.finish s).log ∨ (c.finish s).WellFormed (· = s) := by
  have hset (v : ConnectionHandler) : (c.setHandler s v).handler s = v :=
    handler_setHandler c s v hlt
  by_cases hexiting : c.exiting = true
  · have hfinish : c.finish s = ((c.setHandler s (c.handler s).endShutdown.1).push
        (.shutdownCb s)).disconnected.exit s .eNormal := by
      unfold finish onShutdown
      exact if_pos hexiting
    rw [hfinish]
    exact Or.inl (exitCodes_exit_self _ s .eNormal hexitCb)
  · have hnot : c.exiting = false := by simpa using hexiting
    have hfinish : c.finish s = ((c.setHandler s (c.handler s).endShutdown.1).push
        (.shutdownCb s)).push (.forEach (.stop s) c.transceivers) := by
      have hself : (c.setHandler s (c.handler s).endShutdown.1).connectionHandler.amqpError =
          false := by
        rw [connectionHandler, session_setHandler, hsession, hset]
        exact hamqpError
      have hsession' := session_setHandler c s (c.handler s).endShutdown.1
      simp only [finish, onShutdown, Connector.stop, connectionHandler_push, session_push, hself,
        hsession', hsession]
      simp [setHandler, push, hnot, hready]
    right
    rw [hfinish] at hwf ⊢
    refine hwf.spend ?_ ?_ ?_ ?_ hexits
    · exact (length_setHandler c s _).symm ▸ hlt
    · rw [handler_push, handler_push, hset]
      rfl
    · simpa [Frame.task, Loop.task] using hloops hnot
    · simpa [Frame.task, Loop.task] using hdrops

/-! ### The step -/

/-- The loss of the connection of a session is not reported: the session has been answered with
`eNormal`, or is spent, or its handler is still shutting down. -/
def Unreported (s : ℕ) (c : Connector) : Prop :=
  .eNormal ∈ exitCodes s c.log ∨ c.WellFormed (· = s) ∨ Losing s c

/-- A handler posted by a `stop()` acts on the handler, which shuts down a second time. -/
theorem Losing.stopHandler {issued : ℕ} (h : Losing s c)
    (hwf : (c.stopHandler issued).WellFormed fun _ ↦ False) (hdrops : .drop s ∉ c.tasks)
    (hexits : exitCodes s c.log = []) : (c.stopHandler issued).Unreported s := by
  obtain rfl := h.session
  have hlt := h.lt
  have hself : c.connectionHandler.state = .eShutdown := h.state
  have hstopped : c.connectionHandler.stopped = false := by
    simp [ConnectionHandler.stopped, hself]
  obtain ⟨v, hstop, hstate, hamqpError⟩ : ∃ v, c.connectionHandler.stop = (v, .shutdownLoop) ∧
      v.state = .eShutdown ∧ v.amqpError = false := by
    unfold ConnectionHandler.stop
    rw [if_neg (by simp [hself])]
    exact ⟨_, rfl, rfl, h.amqpError⟩
  have hset : ({ c.record (.acted issued c.session) with exiting := true }.setHandler
      c.session v).handler c.session = v := handler_setHandler _ _ v hlt
  simp only [Connector.stopHandler, hstopped, hstop, Connector.handle, Bool.false_eq_true,
    ↓reduceIte] at hwf ⊢
  split
  · refine Or.inr (Or.inr (h.of_append [.shutdown c.session] ?_ rfl h.exitCb ?_ ?_ ?_
      (tasks_push _ _) (by simp [Task.Nested])))
    · rw [session_push, session_setHandler]
      rfl
    · rw [handler_push, hset, hstate]
    · rw [handler_push, hset, hamqpError]
    · exact fun hnot ↦ (Bool.false_ne_true hnot.symm).elim
  · next hwaits =>
    rw [if_neg hwaits] at hwf
    refine (finish_lost hwf ?_ ?_ h.ready h.exitCb ?_ ?_ hdrops ?_).imp_right Or.inl
    · exact session_setHandler _ _ _
    · exact (length_setHandler _ _ _).symm ▸ hlt
    · rw [hset, hamqpError]
    · exact fun hnot ↦ (Bool.false_ne_true hnot.symm).elim
    · exact (exitCodes_record_acted c c.session issued c.session).trans hexits

theorem Losing.perform {task : Task} {stack : List Frame} (h : Losing s c)
    (hwf : c.WellFormed fun _ ↦ False)
    (hwf' : (task.perform { c with stack := stack }).WellFormed fun _ ↦ False)
    (htasks : c.tasks = task :: { c with stack := stack }.tasks) :
    (task.perform { c with stack := stack }).Unreported s := by
  have hdrops : .drop s ∉ c.tasks := by
    intro hdrop
    have hstate := (hwf.drops s ((mem_work rfl).mpr hdrop)).2.1
    simp [h.state] at hstate
  have hdrops' : .drop s ∉ { c with stack := stack }.tasks :=
    fun hdrop ↦ hdrops (htasks ▸ List.mem_cons_of_mem task hdrop)
  have hexits : exitCodes s c.log = [] := by
    by_contra hanswered
    have hstate := (hwf.answered s hanswered).2
    simp [h.state] at hstate
  obtain ⟨above, below, hsplit, habove, hone⟩ := h.tasks
  have hfinish (hwf : (finish { c with stack := stack } s).WellFormed fun _ ↦ False)
      (hloops : c.exiting = false → .shutdown s ∉ { c with stack := stack }.tasks) :
      (finish { c with stack := stack } s).Unreported s :=
    (finish_lost hwf h.session h.lt h.ready h.exitCb h.amqpError hloops hdrops' hexits).imp_right
      Or.inl
  rw [htasks] at hsplit
  cases above with
  | nil =>
    obtain ⟨rfl, hbelow⟩ := List.cons.inj hsplit
    exact hfinish hwf' fun hnot ↦ hbelow ▸ hone hnot
  | cons first above =>
    obtain ⟨rfl, hrest⟩ := List.cons.inj hsplit
    have hpop : Losing s { c with stack := stack } := by
      refine ⟨h.session, h.ready, h.exitCb, h.state, h.amqpError, above, below, hrest,
        fun other hother ↦ habove other (List.mem_cons_of_mem _ hother), fun hnot hmem ↦ ?_⟩
      exact hone hnot (List.mem_cons_of_mem _ hmem)
    cases task with
    | shutdown i =>
      obtain rfl : i = s := habove _ List.mem_cons_self
      exact hfinish hwf' fun hnot ↦ absurd List.mem_cons_self (hone hnot)
    | stopHandler issued => exact hpop.stopHandler hwf' hdrops' hexits
    | stop | autoStart | autoStop => exact Or.inr (Or.inr (hpop.of_eq rfl rfl h.exitCb rfl rfl))
    | drop | restart | backup => exact (habove _ List.mem_cons_self).elim

theorem Losing.occur {e : Event} (h : Losing s c) (hwf : c.WellFormed fun _ ↦ False)
    (hundisturbed : ∀ session e', e = .handler session e' → (c.handler session).Undisturbed e')
    (hexitCb : e ≠ .onExit none) (hoccur : c.occur e = some c') : Losing s c' := by
  cases e with
  | remove =>
    rw [← Option.some.inj hoccur]
    exact h.of_eq rfl rfl h.exitCb rfl rfl
  | run => exact Option.some.inj hoccur ▸ h.quiet (quiet_run c)
  | asyncStart callback => exact Option.some.inj hoccur ▸ h.asyncStart _
  | start =>
    rw [← Option.some.inj hoccur, Connector.start, if_pos h.ready]
    exact h
  | stop => exact Option.some.inj hoccur ▸ h.stop
  | onExit f =>
    rw [← Option.some.inj hoccur]
    refine h.of_eq rfl rfl ?_ rfl rfl
    cases f with
    | none => exact absurd rfl hexitCb
    | some f => exact Option.some_ne_none _
  | autoStart callback =>
    rw [← Option.some.inj hoccur]
    simp only [Connector.autoStart]
    split
    · exact h
    · refine Losing.asyncStart ?_ _
      exact h.of_append [.autoStart] rfl rfl (Option.some_ne_none ExitCallback.restart) h.state
        h.amqpError (fun hnot ↦ ⟨hnot, by simp⟩) rfl (by simp [Task.Nested])
  | autoStop =>
    rw [← Option.some.inj hoccur]
    simp only [Connector.autoStop]
    split
    · exact h.of_eq rfl rfl h.exitCb rfl rfl
    · split
      · refine Losing.stop (h.of_append [.autoStop] rfl rfl h.exitCb h.state h.amqpError ?_ rfl ?_)
        · exact fun hnot ↦ ⟨hnot, by simp⟩
        · simp [Task.Nested]
      · exact h.of_eq rfl rfl h.exitCb rfl rfl
  | handler session e =>
    obtain ⟨⟨hlt, -⟩, hoccur⟩ := Option.ite_none_right_eq_some.mp hoccur
    obtain ⟨r, hmethod, rfl⟩ := Option.map_eq_some_iff.mp hoccur
    have hundisturbed' := hundisturbed session e rfl
    have htells := ConnectionHandler.Execution.tells_method hundisturbed' hmethod
    have hover := h.over hwf hlt
    have hloop : r.2 ≠ .shutdownLoop := by
      rcases hover with hstate | hstate
      · intro hloop
        have htransition := htells.transition
        rw [hloop] at htransition
        exact htransition.1 hstate
      · exact (htells.during hstate).2
    obtain ⟨hstill, hsame⟩ := htells.transition.still hover hloop
    refine h.handle hstill fun heq ↦ ?_
    obtain rfl := heq
    refine ⟨hsame.trans h.state, ?_⟩
    rw [(ConnectionHandler.kept_method hmethod).2 (hundisturbed' h.state).2.2]
    exact h.amqpError
  | posted k =>
    obtain ⟨issued, -, rfl⟩ := Option.map_eq_some_iff.mp hoccur
    refine Losing.push ?_ (by simp [Frame.task, Loop.task, Task.Nested])
    exact h.of_eq rfl rfl h.exitCb rfl rfl
  | timerExpires =>
    obtain ⟨-, hoccur⟩ := Option.ite_none_right_eq_some.mp hoccur
    rw [← Option.some.inj hoccur]
    exact h.of_eq rfl rfl h.exitCb rfl rfl
  | timerHandler =>
    obtain ⟨-, hoccur⟩ := Option.ite_none_left_eq_some.mp hoccur
    rw [← Option.some.inj hoccur]
    refine Losing.asyncStart ?_ _
    exact h.of_eq rfl rfl h.exitCb rfl rfl

/-- A failed read or write of the present handler, which is ready, leaves an unreported loss. -/
theorem unreported_of_failure {failure : ConnectionHandler.Event}
    {r : ConnectionHandler × ConnectionHandler.Continuation} (hwf : c.WellFormed fun _ ↦ False)
    (hwf' : (c.handle c.session r).WellFormed fun _ ↦ False)
    (hready : c.connectionHandlerReady = true) (hexitCb : c.exitCb ≠ none)
    (hlt : c.session < c.handlers.length) (hup : c.connectionHandler.ready = true)
    (hfailure : failure.isFailure = true) (hmethod : c.connectionHandler.method failure = some r) :
    (c.handle c.session r).Unreported c.session := by
  obtain ⟨hloop, hstate, hsame⟩ := ConnectionHandler.shutdownLoop_of_isFailure hup hfailure hmethod
  have hnot : c.connectionHandler.state ≠ .eNotConnected := by
    intro hs
    simp [ConnectionHandler.ready, hs] at hup
  have hover : ¬ c.connectionHandler.Over := by
    rintro (hs | hs) <;> simp [ConnectionHandler.ready, hs] at hup
  have hamqpError : r.1.amqpError = false := by
    rw [hsame]
    exact (hwf.sound _ (handler_mem hlt)).amqpError hnot fun hs ↦ hover (Or.inr hs)
  have hloops : .shutdown c.session ∉ c.tasks :=
    fun hmem ↦ hover (hwf.loops _ ((mem_work rfl).mpr hmem)).2.1
  have hdrops : .drop c.session ∉ c.tasks :=
    fun hmem ↦ hnot (hwf.drops _ ((mem_work rfl).mpr hmem)).2.1
  have hexits : exitCodes c.session c.log = [] := by
    by_contra hanswered
    exact hnot (hwf.answered _ hanswered).2
  have hset := handler_setHandler c c.session r.1 hlt
  obtain ⟨v, next⟩ := r
  obtain rfl : next = .shutdownLoop := hloop
  simp only [Connector.handle] at hwf' ⊢
  split
  · refine Or.inr (Or.inr ⟨?_, hready, hexitCb, ?_, ?_, [], c.tasks, tasks_push _ _, by simp, ?_⟩)
    · rw [session_push, session_setHandler]
    · rw [handler_push, hset, hstate]
    · rw [handler_push, hset, hamqpError]
    · exact fun _ ↦ hloops
  · next hwaits =>
    rw [if_neg hwaits] at hwf'
    refine (finish_lost hwf' ?_ ?_ hready hexitCb ?_ (fun _ ↦ hloops) hdrops hexits).imp_right
      Or.inl
    · exact session_setHandler c c.session v
    · exact (length_setHandler c c.session v).symm ▸ hlt
    · rw [hset, hamqpError]

end Connector

namespace Program

open Connector

variable {τ ε : Type} [TransceiverImpl τ ε] {p p' : Program τ} {e : Event ε} {s : ℕ}

/-! ### Losses in a program -/

/-- The event needs no reply of the broker, and does not take the exit callback away. -/
def Unaided (τ : Type) {ε : Type} [TransceiverImpl τ ε] (e : Event ε) : Prop :=
  isReply τ e = false ∧ e ≠ .connector (.onExit none)

/-- A read or a write fails on the connection of a connector that is ready. -/
def LosesConnection (p : Program τ) (e : Event ε) : Prop :=
  p.connector.connectionHandlerReady = true ∧ p.connector.connectionHandler.ready = true ∧
    ∃ failure, e = .connector (.handler p.connector.session failure) ∧ failure.isFailure = true

/-- The loss of the connection of a session is reported: without a further reply of the broker the
program can come to where every transceiver has ended and the exit callback has been called with an
error code and not with `eNormal`. -/
def LossReported (s : ℕ) (p : Program τ) : Prop :=
  ∃ (es : List (Event ε)) (q : Program τ), (∀ e ∈ es, Unaided τ e) ∧
    (machine τ).run p es = some q ∧ (∀ i ∈ q.connector.transceivers, q.isRunning i = false) ∧
    exitCodes s q.connector.log ≠ [] ∧ .eNormal ∉ exitCodes s q.connector.log

/-- Without a reply of the broker an unreported loss stays so. -/
theorem unreported_step (hwf : p.connector.WellFormed fun _ ↦ False)
    (h : p.connector.Unreported s) (hunaided : Unaided τ e) (hstep : p.step e = some p') :
    p'.connector.Unreported s := by
  rcases h with hnormal | hspent | hlosing
  · exact Or.inl (((log_prefix_step hstep).filterMap _).subset hnormal)
  · exact Or.inr (Or.inl (wellFormed_step hspent hstep))
  · have hwf' := wellFormed_step hwf hstep
    have hmoves := moves_of_step hstep
    generalize p'.connector = c' at hmoves hwf'
    cases hmoves with
    | quiet he hquiet => exact Or.inr (Or.inr (hlosing.quiet hquiet))
    | @occur e c₁ _ hquiet hoccur =>
      refine Or.inr (Or.inr ((hlosing.quiet hquiet).occur (hwf.alike hquiet.alike) ?_ ?_ hoccur))
      · rintro session e' rfl hstate
        obtain ⟨⟨-, hstop⟩, -⟩ := Option.ite_none_right_eq_some.mp hoccur
        refine ⟨hstop, ?_, fun message ↦ ?_⟩
        all_goals
          rintro rfl
          cases hunaided.1
      · rintro rfl
        exact hunaided.2 rfl
    | @parsed parsed expected session c₁ r hquiet hparsed =>
      have hlosing' := hlosing.quiet hquiet
      have hwf₁ := hwf.alike hquiet.alike
      have htransition := ConnectionHandler.transition_onParsed hparsed
      have hloop := ConnectionHandler.onParsed_ne_shutdownLoop hparsed
      have hover : (c₁.handler session).Over := by
        by_cases hlt : session < c₁.handlers.length
        · exact hlosing'.over hwf₁ hlt
        · rw [handler_of_le (Nat.not_lt.mp hlt)]
          exact Or.inl rfl
      obtain ⟨hstill, hsame⟩ := htransition.still hover hloop
      refine Or.inr (Or.inr (hlosing'.handle hstill fun heq ↦ ?_))
      obtain rfl := heq
      refine ⟨hsame.trans hlosing'.state, ?_⟩
      rw [(ConnectionHandler.kept_onParsed hparsed).2 (by simp)]
      exact hlosing'.amqpError
    | @shutdownCb session c₁ hquiet =>
      have hlosing' := hlosing.quiet hquiet
      refine Or.inr (Or.inr (hlosing'.handle (r := (_, .done)) (Or.inl rfl) fun heq ↦ ?_))
      obtain rfl := heq
      exact ⟨hlosing'.state, hlosing'.amqpError⟩
    | perform hdue hwaits htasks => exact hlosing.perform hwf hwf' htasks

/-- A failed read or write leaves an unreported loss. -/
theorem unreported_of_losesConnection (hwf : p.connector.WellFormed fun _ ↦ False)
    (hexitCb : p.connector.exitCb ≠ none) (hloses : p.LosesConnection e)
    (hstep : p.step e = some p') : p'.connector.Unreported p.connector.session := by
  have hwf' := wellFormed_step hwf hstep
  obtain ⟨hready, hup, failure, rfl, hfailure⟩ := hloses
  have hmoves := moves_of_step hstep
  generalize p'.connector = c' at hmoves hwf'
  cases hmoves with
  | quiet he => exact absurd rfl (he _)
  | @occur e c₁ _ hquiet hoccur =>
    obtain ⟨⟨hlt, -⟩, hoccur⟩ := Option.ite_none_right_eq_some.mp hoccur
    obtain ⟨r, hmethod, rfl⟩ := Option.map_eq_some_iff.mp hoccur
    rw [← hquiet.alike.session] at hlt hmethod hwf' ⊢
    refine unreported_of_failure (hwf.alike hquiet.alike) hwf' (hquiet.ready ▸ hready)
      (hquiet.exitCb ▸ hexitCb) hlt ?_ hfailure hmethod
    rw [connectionHandler, hquiet.alike.session]
    simp only [handler, hquiet.handlers]
    exact hup

/-- Without a reply of the broker an unreported loss is never reported. -/
theorem not_lossReported_of_unreported (hwf : p.connector.WellFormed fun _ ↦ False)
    (h : p.connector.Unreported s) : ¬ LossReported s p := by
  rintro ⟨es, q, hunaided, hrun, -, hanswered, hnormal⟩
  have hend : q.connector.WellFormed (fun _ ↦ False) ∧ q.connector.Unreported s := by
    refine Machine.Meets.invariant (P := fun _ e ↦ Unaided τ e)
      (I := fun q : Program τ ↦ q.connector.WellFormed (fun _ ↦ False) ∧ q.connector.Unreported s)
      (fun q e q' hq he hnext ↦ ?_) (Machine.meets_of_forall_mem fun e he _ ↦ hunaided e he) hrun
      ⟨hwf, h⟩
    exact ⟨wellFormed_step hq.1 hnext, unreported_step hq.1 hq.2 he hnext⟩
  rcases hend.2 with hnormal' | hspent | hlosing
  · exact hnormal hnormal'
  · obtain ⟨code, hcode⟩ := List.exists_mem_of_ne_nil _ hanswered
    exact hnormal ((hspent.spent _ rfl).2.2 code hcode ▸ hcode)
  · have hstate := (hend.1.answered _ hanswered).2
    simp [hlosing.state] at hstate

/-- A connection that is lost through a failed read or write is never reported, whatever state the
transceivers are in. -/
theorem not_lossReported (h : (machine τ).Reachable p) (hexitCb : p.connector.exitCb ≠ none)
    (hloses : p.LosesConnection e) (hstep : (machine τ).step p e = some p') :
    ¬ LossReported p.connector.session p' := by
  have hwf := wellFormed h
  refine not_lossReported_of_unreported (wellFormed_step hwf hstep) ?_
  exact unreported_of_losesConnection hwf hexitCb hloses hstep

/-- The application has an exit callback and connects. -/
def connecting : List (Event Transceiver.Event) :=
  [.connector (.onExit (some 7)), .connector (.asyncStart false),
    .connector (.handler 0 (.resolved none)), .connector (.handler 0 (.connectDone none)),
    .connector (.handler 0 (.wrote none 8))]

/-- The broker cannot be read from. -/
def readFailed : Event Transceiver.Event :=
  .connector (.handler 0 (.read (some "connection reset") 0 8))

/-- A run that ends in a connected state with an exit callback can be followed by the loss. -/
theorem exists_losesConnection (es : List (Event Transceiver.Event))
    (hend : ((machine Transceiver).run (initial Transceiver) es).map (fun p ↦
      (p.connector.connectionHandlerReady, p.connector.connectionHandler.ready, p.connector.session,
        p.connector.exitCb, (p.step readFailed).isSome)) =
          some (true, true, 0, some (.application 7), true)) :
    ∃ p p', (machine Transceiver).run (initial Transceiver) es = some p ∧
      p.LosesConnection readFailed ∧ p.step readFailed = some p' ∧ p.connector.exitCb ≠ none ∧
      p.connector.session = 0 := by
  obtain ⟨p, hrun, hfacts⟩ := Option.map_eq_some_iff.mp hend
  simp only [Prod.mk.injEq] at hfacts
  obtain ⟨hready, hup, hsession, hexitCb, hstep⟩ := hfacts
  obtain ⟨p', hstep⟩ := Option.isSome_iff_exists.mp hstep
  exact ⟨p, p', hrun, ⟨hready, hup, _, by rw [hsession]; rfl, rfl⟩, hstep,
    by simp [hexitCb], hsession⟩

/-- A connector without transceivers loses its connection. -/
theorem not_lossReported_connecting :
    ∃ p p', (machine Transceiver).run (initial Transceiver) connecting = some p ∧
      p.LosesConnection readFailed ∧ p.step readFailed = some p' ∧ ¬ LossReported 0 p' := by
  obtain ⟨p, p', hrun, hloses, hstep, hexitCb, hsession⟩ :=
    exists_losesConnection connecting rfl
  refine ⟨p, p', hrun, hloses, hstep, ?_⟩
  exact hsession ▸ not_lossReported ⟨_, connecting, rfl, hrun⟩ hexitCb hloses hstep

/-- The application has also opened a sender. -/
def opening : List (Event Transceiver.Event) :=
  .transceiver "exchange" "" "route" false :: connecting ++ [.open 0,
    .call 0 (.callback 0 .createChannelReady), .call 0 (.callback 0 .createExchangeSuccess),
    .resume]

/-- After a failed read the exit callback is called with `eNormal`. If there is a transceiver that
is ready, it waits for a reply for ever, and with it the handler posted by `stop()`. -/
theorem exitsNormally_of_readFailed :
    (∃ p, (machine Transceiver).run (initial Transceiver) (connecting ++
      [readFailed, .resume, .resume, .connector (.posted 0), .resume]) = some p ∧
        exitCodes 0 p.connector.log = [.eNormal]) ∧
    (∃ p, (machine Transceiver).run (initial Transceiver) (opening ++
      [readFailed, .resume, .resume, .resume, .connector (.posted 0)]) = some p ∧
        exitCodes 0 p.connector.log = [] ∧ p.isRunning 0 = true ∧ (p.step .resume).isNone) ∧
    ∃ p p', (machine Transceiver).run (initial Transceiver) opening = some p ∧
      p.LosesConnection readFailed ∧ p.step readFailed = some p' ∧ ¬ LossReported 0 p' := by
  refine ⟨⟨_, rfl, by decide⟩, ⟨_, rfl, by decide, by decide, by decide⟩, ?_⟩
  obtain ⟨p, p', hrun, hloses, hstep, hexitCb, hsession⟩ :=
    exists_losesConnection opening rfl
  refine ⟨p, p', hrun, hloses, hstep, ?_⟩
  have hwf := wellFormed ⟨_, opening, rfl, hrun⟩
  refine not_lossReported_of_unreported (wellFormed_step hwf hstep) ?_
  exact hsession ▸ unreported_of_losesConnection hwf hexitCb hloses hstep

end Program

end AmqpAsio
