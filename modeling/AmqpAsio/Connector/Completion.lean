import AmqpAsio.Connector.Continuing

/-!
# How soon a stop() and an AMQP error are answered

`Connector::stop()` only asks the transceivers to stop and posts a handler; that handler waits until
they have ended, and then stops the `ConnectionHandler`, which waits for its read and its write.
Whatever the order in which the broker answers and the event loop runs the handlers, the exit
callback is told `eNormal` in the end. An error of AMQP-CPP shuts the connection down at once, and
the exit callback is told `eAmqpError` when the transceivers have been dropped.
-/

set_option autoImplicit false
set_option relaxedAutoImplicit false

namespace AmqpAsio

namespace Program

open Connector

variable {p p' : Program Transceiver} {c c' : Connector} {v : ConnectionHandler} {session : ℕ}
  {k : Setting} {below : List Frame} {exits : Bool} {Goal : Program Transceiver → Prop}
  {may : Program Transceiver → Event Transceiver.Event → Prop}

/-- The exit callback of the session has been told the code. -/
def Told (session : ℕ) (code : ExitCode) (p : Program Transceiver) : Prop :=
  code ∈ exitCodes session p.connector.log

/-- The exit callback is called, if there is one. -/
theorem mem_exitCodes_exit {code : ExitCode} (hexitCb : c.exitCb ≠ none) :
    code ∈ exitCodes session (c.exit session code).log := by
  have hrecord : code ∈ exitCodes session (c.record (.exit session code)).log := by
    simp [exitCodes_record_exit]
  unfold exit
  split
  · next hnone => exact absurd hnone hexitCb
  · next f _ =>
    rw [push, record, exitCodes_append]
    exact List.mem_append_left _ hrecord
  · rw [(alike_restart _ code).exits]
    exact hrecord

/-! ### Shutting the connection down -/

/-- A shutdown that the application has asked for, or that follows an error of AMQP-CPP. -/
structure Shuts (k : Setting) (exits : Bool) (c : Connector) : Prop where
  setting : settingOf c = k
  lt : c.session < c.handlers.length
  posted : c.posted = []
  exiting : c.exiting = exits
  error : exits = false → c.connectionHandlerReady = true ∧ c.connectionHandler.amqpError = true

/-- The shutdown waits for a read or a write. -/
structure Closes (k : Setting) (exits : Bool) (below : List Frame) (c : Connector) : Prop
    extends Shuts k exits c where
  stack : c.stack = .shutdownLoop k.session :: below
  state : c.connectionHandler.state = .eShutdown
  steady : c.connectionHandler.Steady

theorem Shuts.session_eq (h : Shuts k exits c) : c.session = k.session :=
  congrArg Setting.session h.setting

theorem Shuts.transceivers (h : Shuts k exits c) : c.transceivers = k.transceivers :=
  congrArg Setting.transceivers h.setting

theorem Shuts.handler_eq (h : Shuts k exits c) : c.handler k.session = c.connectionHandler := by
  rw [connectionHandler, h.session_eq]

/-- The handler of the session has changed. -/
theorem Shuts.setHandler (h : Shuts k exits c)
    (herror : v.amqpError = c.connectionHandler.amqpError) :
    Shuts k exits (c.setHandler k.session v) ∧
      (c.setHandler k.session v).connectionHandler = v := by
  have hset : (c.setHandler k.session v).connectionHandler = v := by
    have hset := connectionHandler_setHandler c v h.lt
    rwa [h.session_eq] at hset
  refine ⟨⟨?_, ?_, h.posted, h.exiting, ?_⟩, hset⟩
  · rw [settingOf_setHandler, h.setting]
  · rw [session_setHandler, length_setHandler]
    exact h.lt
  · rw [hset, herror]
    exact h.error

/-- An operation that fails while the connection is shut down is no longer outstanding. -/
theorem method_aborted {event : ConnectionHandler.Event}
    {r : ConnectionHandler × ConnectionHandler.Continuation} (hstate : v.state = .eShutdown)
    (habort : isAbort event = true) (hmethod : v.method event = some r) :
    r.2 = .done ∧ r.1.state = .eShutdown ∧ r.1.amqpError = v.amqpError ∧
      r.1.reads + r.1.writes < v.reads + v.writes := by
  cases event <;> try cases habort
  case read ec bytes expected =>
    cases ec with
    | none => cases habort
    | some message =>
      obtain ⟨hreads, hmethod⟩ := Option.ite_none_left_eq_some.mp hmethod
      simp [ConnectionHandler.onRead, ConnectionHandler.connected, hstate] at hmethod
      subst hmethod
      exact ⟨rfl, rfl, rfl, by simp only; omega⟩
  case wrote ec bytes =>
    cases ec with
    | none => cases habort
    | some message =>
      obtain ⟨hwrites, hmethod⟩ := Option.ite_none_left_eq_some.mp hmethod
      simp [ConnectionHandler.onWrite, ConnectionHandler.connected, hstate] at hmethod
      subst hmethod
      exact ⟨rfl, rfl, rfl, by simp only; omega⟩

/-- What the loop of a shutdown waits for can fail. -/
theorem exists_aborted (hstate : v.state = .eShutdown) (hsteady : v.Steady)
    (hwaits : v.waiting = true) :
    ∃ event r, isAbort event = true ∧ v.method event = some (r, .done) := by
  rcases Bool.or_eq_true_iff.mp hwaits with hread | hwrite
  · have hreads := (hsteady.read hread).2
    refine ⟨.read (some "") 0 0, { v with readReq := false, reads := v.reads - 1 }, rfl, ?_⟩
    simp [ConnectionHandler.method, hreads, ConnectionHandler.onRead, ConnectionHandler.connected,
      hstate]
  · have hwrites : v.writes ≠ 0 := by simp [hsteady.writes, hwrite]
    refine ⟨.wrote (some "") 0, { v with
      writeReq := false
      writes := v.writes - 1
      outBufs := v.outBufs.modifyHead (· - 0) }, rfl, ?_⟩
    simp [ConnectionHandler.method, hwrites, ConnectionHandler.onWrite, ConnectionHandler.connected,
      hstate]

/-- A read or a write fails, the connection having been shut down. -/
theorem Closes.aborted {event : ConnectionHandler.Event}
    {r : ConnectionHandler × ConnectionHandler.Continuation} (h : Closes k exits below p.connector)
    (hloop : p.InLoop) (habort : isAbort event = true)
    (hmethod : p.connector.connectionHandler.method event = some r) :
    ∃ p', p.step (.connector (.handler p.connector.session event)) = some p' ∧
      Closes k exits below p'.connector ∧ p'.pool = p.pool ∧
      p'.connector.connectionHandler.reads + p'.connector.connectionHandler.writes <
        p.connector.connectionHandler.reads + p.connector.connectionHandler.writes := by
  obtain ⟨hdone, hstate, herror, hless⟩ := method_aborted h.state habort hmethod
  have hentered : p.entered = p := by
    unfold entered
    rw [h.stack]
  have hnot : event ≠ .stop := by
    rintro rfl
    cases habort
  have hhandle : p.connector.handle k.session r = p.connector.setHandler k.session r.1 := by
    simp [Connector.handle, hdone]
  obtain ⟨hshuts, hhandler⟩ := h.toShuts.setHandler herror
  have hstep : p.step (.connector (.handler p.connector.session event)) =
      some { p with connector := p.connector.setHandler k.session r.1 } := by
    have hlt := h.session_eq ▸ h.lt
    simp [Program.step, crashes, Connector.crashes, hloop.1, hentered, occur, Connector.occur,
      h.session_eq, hlt, hnot, h.handler_eq, hmethod, hhandle]
  refine ⟨_, hstep, ⟨hshuts, h.stack, ?_, ?_⟩, rfl, ?_⟩
  · rw [hhandler]
    exact hstate
  · rw [hhandler]
    exact h.steady.method hmethod
  · rw [hhandler]
    exact hless

/-- The loop of the shutdown goes on when it has nothing to wait for. -/
theorem Closes.goOn (h : Closes k exits below p.connector) :
    p.resume =
      if p.connector.connectionHandler.waiting then none
      else some { p with connector := { p.connector with stack := below }.finish k.session } := by
  have hsame : { p.connector with stack := below }.handler k.session =
      p.connector.connectionHandler := h.handler_eq
  simp only [Program.resume, h.stack, Frame.goOn, hsame]
  split <;> rfl

/-- A read or a write is outstanding, or the shutdown goes on. -/
theorem Closes.exists_continues (h : Closes k exits below p.connector) : ∃ e, Continues p e := by
  by_cases hwaits : p.connector.connectionHandler.waiting = true
  · have hloop : p.InLoop := by
      constructor
      · simp [pausing, h.stack, h.handler_eq, hwaits]
      · simp [h.stack, isForeign]
    obtain ⟨event, r, habort, hmethod⟩ := exists_aborted h.state h.steady hwaits
    exact ⟨_, .aborted hloop h.state habort hmethod⟩
  · exact ⟨.resume, .resume (by simp [h.goOn, hwaits])⟩

/-- A shutdown comes to what its end comes to, if nothing else may happen meanwhile. -/
theorem Closes.within {n : ℕ} (h : Closes k exits below p.connector)
    (hmay : ∀ (q : Program Transceiver) e, Closes k exits below q.connector →
      (may q e ↔ Continues q e))
    (hgoal : ∀ (q : Program Transceiver) c, Shuts k exits c → c.stack = below → q.pool = p.pool →
      Goal { q with connector := c.finish k.session })
    (hn : p.connector.connectionHandler.reads + p.connector.connectionHandler.writes ≤ n) :
    (machine Transceiver).Within may Goal (n + 1) p := by
  refine Machine.within_succ_of_measure
    (I := fun q : Program Transceiver ↦ Closes k exits below q.connector ∧ q.pool = p.pool)
    (fun q : Program Transceiver ↦
      q.connector.connectionHandler.reads + q.connector.connectionHandler.writes) ?_ ?_ ⟨h, rfl⟩ hn
  · intro q hq _
    obtain ⟨e, he⟩ := hq.1.exists_continues
    exact ⟨e, (hmay q e hq.1).mpr he⟩
  · intro q e hq _ he
    obtain ⟨h, hpool⟩ := hq
    cases (hmay q e h).mp he with
    | resume hresume =>
      have hgoes := h.goOn
      split at hgoes
      · exact absurd hgoes hresume
      · exact ⟨_, hgoes, Or.inl (hgoal q _ { h.toShuts with } rfl hpool)⟩
    | posted hloop hk => simp [h.posted] at hk
    | answer hloop hup => exact absurd h.state hup
    | aborted hloop hdown habort hmethod =>
      obtain ⟨q', hstep, hcloses, hsame, hless⟩ := h.aborted hloop habort hmethod
      exact ⟨q', hstep, Or.inr ⟨⟨hcloses, hsame.trans hpool⟩, hless⟩⟩

/-- A method that shuts the connection down comes to what the end of the shutdown comes to. -/
theorem within_handle (p : Program Transceiver) (hshuts : Shuts k exits (c.setHandler k.session v))
    (hhandler : (c.setHandler k.session v).connectionHandler = v) (hstate : v.state = .eShutdown)
    (hsteady : v.Steady) (hreads : v.reads ≤ 1)
    (hmay : ∀ (q : Program Transceiver) e, Closes k exits c.stack q.connector →
      (may q e ↔ Continues q e))
    (hgoal : ∀ (q : Program Transceiver) c', Shuts k exits c' → c'.stack = c.stack →
      q.pool = p.pool → Goal { q with connector := c'.finish k.session }) :
    (machine Transceiver).Within may Goal 3
      { p with connector := c.handle k.session (v, .shutdownLoop) } := by
  simp only [Connector.handle]
  split
  · have hcloses : Closes k exits c.stack
        ((c.setHandler k.session v).push (.shutdownLoop k.session)) := by
      refine ⟨{ hshuts with }, rfl, ?_, ?_⟩
      · rw [connectionHandler_push, hhandler]
        exact hstate
      · rw [connectionHandler_push, hhandler]
        exact hsteady
    have hwrites : v.writes ≤ 1 := hsteady.writes ▸ Bool.toNat_le _
    refine Closes.within hcloses hmay hgoal ?_
    rw [connectionHandler_push, hhandler]
    omega
  · exact Machine.Within.now (hgoal p _ hshuts rfl rfl) 3

/-! ### Asking the transceivers -/

/-- A connection in service, with what it has outstanding. -/
structure Reports (k : Setting) (c : Connector) : Prop extends Serves k c where
  steady : c.connectionHandler.Steady
  reads : c.connectionHandler.reads ≤ 1

/-- In the first loop of a `stop()` the transceivers still to be asked can be stopped, and the
others are stopping. -/
structure Asks (k : Setting) (rest : List ℕ) (p : Program Transceiver) : Prop where
  reports : Reports k p.connector
  answerable : ∀ t ∈ p.pool, t.Answerable
  posted : p.connector.posted = []
  visits : Visits (fun _ t ↦ t.state ≠ .eRecreateChannel) (fun _ t ↦ t.state.beforeShutdown = false)
    k.transceivers rest p.pool

/-- The transceivers are stopping, and the handler is posted, or waits for them. -/
structure Waits (k : Setting) (p : Program Transceiver) : Prop where
  reports : Reports k p.connector
  answerable : ∀ t ∈ p.pool, t.Answerable
  stopping : ∀ i ∈ k.transceivers, Holds i (fun t ↦ t.state.beforeShutdown = false) p.pool
  stack : ∃ n below, p.connector.stack = List.replicate n .client ++ below ∧
    (below = [] ∧ p.connector.posted = [k.session] ∨
      ∃ rest, below = [.forEach (.stopHandler k.session) rest] ∧ p.connector.posted = [])

theorem Reports.of_eq (h : Reports k c) (hsetting : settingOf c' = settingOf c)
    (hhandlers : c'.handlers = c.handlers) : Reports k c' := by
  have hhandler := connectionHandler_of_eq hhandlers
  exact ⟨h.toServes.of_eq hsetting hhandlers, hhandler ▸ h.steady, hhandler ▸ h.reads⟩

theorem Reports.operation (h : Reports k c) (hc : c' = c ∨ c' = c.push .client) : Reports k c' := by
  rcases hc with rfl | rfl
  · exact h
  · exact h.of_eq rfl rfl

theorem beforeShutdown_of_stopped {t : Transceiver} (hdown : t.state.beforeShutdown = false) :
    t.state ≠ .eRecreateChannel ∧ t.state ≠ .eReady := by
  constructor
  · intro hstate
    simp [hstate, Transceiver.State.beforeShutdown] at hdown
  · intro hstate
    simp [hstate, Transceiver.State.beforeShutdown] at hdown

/-- The first loop of a `stop()` leaves every transceiver stopping, and posts the handler. -/
theorem bodyLoop_stop : BodyLoop (.stop k.session) [] (Asks k)
    fun p ↦ Waits k p ∧ p.connector.stack = [] where
  never _ _ := rfl
  cost _ := rfl
  returns p rest stack h := ⟨h.reports.of_eq rfl rfl, h.answerable, h.posted, h.visits⟩
  body p rest i others h hremaining := by
    have hconnector := p.connector_body (.stop k.session) i
    refine ⟨h.reports.operation hconnector, answerable_body h.answerable _ i, ?_, ?_⟩
    · rw [posted_operation hconnector]
      exact h.posted
    · refine h.visits.operate h.reports.transceivers hremaining fun t ht ↦ ?_
      exact Transceiver.beforeShutdown_stop
        (ht.elim id fun hdown ↦ (beforeShutdown_of_stopped hdown).1)
  done p rest h hremaining hstack := by
    have hstopping := h.visits.done h.reports.transceivers hremaining
    refine ⟨⟨h.reports.of_eq rfl rfl, h.answerable, hstopping, 0, [], hstack, ?_⟩, hstack⟩
    exact Or.inl ⟨rfl, by simp [Loop.after, h.posted]⟩

/-! ### Waiting for the transceivers -/

/-- Only a loop waits for the transceivers. -/
theorem Waits.entered (h : Waits k p) (hloop : p.InLoop) : p.entered = p := by
  obtain ⟨n, below, hstack, hbelow⟩ := h.stack
  obtain rfl := eq_nil_of_inLoop hloop hstack
  unfold Program.entered
  rw [hstack]
  rcases hbelow with ⟨rfl, -⟩ | ⟨rest, rfl, -⟩
  · rfl
  · rfl

/-- An answer brings a stop nearer to its end. -/
theorem Waits.answer {i : ℕ} {t : Transceiver} {event : Transceiver.Event} (h : Waits k p)
    (hloop : p.InLoop) (hi : i ∈ k.transceivers) (hget : p.pool[i]? = some t)
    (hanswer : t.Answer event) :
    ∃ p', p.step (.call i event) = some p' ∧ Waits k p' ∧ p'.load < p.load := by
  have hrunning := hanswer.running (h.answerable t (List.mem_of_getElem? hget)).attended.well
  obtain ⟨t', ht', hstep, hanswerable, hless⟩ := exists_answered h.reports.toServes h.answerable
    hloop (h.entered hloop) hi hget hanswer
  have hconnector := p.connector_update i t t'
  obtain ⟨n, below, hstack, hbelow⟩ := h.stack
  obtain ⟨m, hstack'⟩ := exists_stack_operation hconnector hstack
  refine ⟨_, hstep, ⟨h.reports.operation hconnector, hanswerable, ?_, m, below, hstack', ?_⟩, hless⟩
  · intro j hj u hu
    rw [pool_update hget] at hu
    split at hu
    · obtain rfl := Option.some.inj hu
      exact Transceiver.beforeShutdown_step hrunning (h.stopping i hi t hget) ht'
    · exact h.stopping j hj u hu
  · rw [posted_operation hconnector]
    exact hbelow

/-- The handler posted by the stop is run. -/
theorem Waits.posted {n : ℕ} (h : Waits k p) (hloop : p.InLoop)
    (hn : n < p.connector.posted.length) :
    ∃ p', p.step (.connector (.posted n)) = some p' ∧ Waits k p' ∧ p'.load < p.load := by
  obtain ⟨m, below, hstack, hbelow⟩ := h.stack
  obtain rfl := eq_nil_of_inLoop hloop hstack
  rcases hbelow with ⟨rfl, hposted⟩ | ⟨rest, -, hposted⟩
  · obtain rfl : n = 0 := by simpa [hposted] using hn
    let f : Frame := .forEach (.stopHandler k.session) p.connector.transceivers
    let p' : Program Transceiver := { p with
      connector := { p.connector with posted := [], stack := [f] } }
    have hstep : p.step (.connector (.posted 0)) = some p' := by
      simp [Program.step, crashes, Connector.crashes, hloop.1, h.entered hloop, occur,
        Connector.occur, hposted, push, p', f, hstack]
    refine ⟨p', hstep, ?_, ?_⟩
    · exact ⟨h.reports.of_eq rfl rfl, h.answerable, h.stopping, 0, [f], rfl, Or.inr ⟨_, rfl, rfl⟩⟩
    · have hleft : p'.leftOf = p.leftOf := rfl
      rw [load, load, hleft, steps, steps, hstack, hposted]
      simp [p', f, stepsOf]
  · simp [hposted] at hn

/-- The posted handler shuts down a connection that is up. -/
theorem Serves.stopHandler (h : Serves k c) :
    c.stopHandler k.session =
      Connector.handle { c.record (.acted k.session k.session) with exiting := true } k.session
        ({ c.connectionHandler with lastError := "", state := .eShutdown }, .shutdownLoop) := by
  have hnot : ¬ c.connectionHandler.stopped = true := by
    simp [ConnectionHandler.stopped, h.state]
  have hstop : c.connectionHandler.stop =
      ({ c.connectionHandler with lastError := "", state := .eShutdown }, .shutdownLoop) := by
    simp [ConnectionHandler.stop, h.state, ConnectionHandler.goto, ConnectionHandler.stateMachine]
  unfold Connector.stopHandler
  rw [if_neg hnot, hstop, h.session_eq]

/-- When its loop ends, a shutdown that the application has asked for is reported as `eNormal`. -/
theorem Shuts.told_finish (h : Shuts k true c) (hexitCb : k.exitCb ≠ none)
    (q : Program Transceiver) :
    Told k.session .eNormal { q with connector := c.finish k.session } := by
  have hcallback : c.exitCb ≠ none := by
    rw [show c.exitCb = k.exitCb from congrArg Setting.exitCb h.setting]
    exact hexitCb
  show .eNormal ∈ exitCodes k.session (c.finish k.session).log
  unfold Connector.finish onShutdown
  split
  · exact mem_exitCodes_exit hcallback
  · next hnot => exact absurd h.exiting hnot

/-- With the transceivers at their ends, the posted handler shuts the connection down. -/
theorem Reports.within_stopHandler (h : Reports k c) (hexitCb : k.exitCb ≠ none)
    (hposted : c.posted = []) (p : Program Transceiver) :
    (machine Transceiver).Within Continues (Told k.session .eNormal) 3
      { p with connector := c.stopHandler k.session } := by
  have hlt := session_lt_of_state (c := c) (by simp [h.state])
  rw [h.toServes.stopHandler]
  have hshuts : Shuts k true { c.record (.acted k.session k.session) with exiting := true } :=
    ⟨h.setting, hlt, hposted, rfl, by simp⟩
  obtain ⟨hset, hhandler⟩ := hshuts.setHandler
    (v := { c.connectionHandler with lastError := "", state := .eShutdown }) rfl
  refine within_handle p hset hhandler rfl ?_ h.reads (fun _ _ _ ↦ Iff.rfl)
    fun q c' hshuts _ _ ↦ hshuts.told_finish hexitCb q
  exact h.steady.shutdown _ rfl id rfl rfl rfl rfl rfl

/-- A call returns, or a loop goes on to the next transceiver or to its end. -/
theorem Waits.resume (h : Waits k p) (hexitCb : k.exitCb ≠ none) (hresume : p.resume ≠ none) :
    ∃ p', p.resume = some p' ∧
      ((machine Transceiver).Within Continues (Told k.session .eNormal) 3 p' ∨
        Waits k p' ∧ p'.load < p.load) := by
  obtain ⟨n, below, hstack, hbelow⟩ := h.stack
  cases n with
  | succ n =>
    refine ⟨_, resume_client hstack, Or.inr ⟨?_, load_stack ?_⟩⟩
    · exact ⟨h.reports.of_eq rfl rfl, h.answerable, h.stopping, n, below, rfl, hbelow⟩
    · simp [steps, hstack, List.replicate_succ, stepsOf]
  | zero =>
    rcases hbelow with ⟨rfl, -⟩ | ⟨rest, rfl, hposted⟩
    · exact absurd (by simp [Program.resume, hstack]) hresume
    · have hgoes := resume_forEach hstack
      cases hremaining : p.connector.remaining rest with
      | nil =>
        simp only [hremaining] at hgoes
        have hreports : Reports k { p.connector with stack := [] } := h.reports.of_eq rfl rfl
        exact ⟨_, hgoes, Or.inl (hreports.within_stopHandler hexitCb hposted p)⟩
      | cons i others =>
        simp only [hremaining] at hgoes
        split at hgoes
        · exact absurd hgoes hresume
        · refine ⟨_, hgoes, Or.inr ⟨?_, load_stack ?_⟩⟩
          · exact ⟨h.reports.of_eq rfl rfl, h.answerable, h.stopping, 0, _, rfl,
              Or.inr ⟨others, rfl, hposted⟩⟩
          · have hfewer := length_of_remaining hremaining
            simp [steps, hstack, stepsOf]
            omega

/-- Something goes on while the transceivers are waited for. -/
theorem Waits.exists_continues (h : Waits k p) : ∃ e, Continues p e := by
  obtain ⟨n, below, hstack, hbelow⟩ := h.stack
  cases n with
  | succ n => exact ⟨.resume, .resume (by simp [resume_client hstack])⟩
  | zero =>
    rcases hbelow with ⟨rfl, hposted⟩ | ⟨rest, rfl, hposted⟩
    · have hloop : p.InLoop := by
        constructor
        · simp [pausing, hstack]
        · simp [hstack]
      exact ⟨_, .posted (k := 0) hloop (by simp [hposted])⟩
    · have hgoes := resume_forEach hstack
      cases hremaining : p.connector.remaining rest with
      | nil =>
        simp only [hremaining] at hgoes
        exact ⟨.resume, .resume (by simp [hgoes])⟩
      | cons i others =>
        simp only [hremaining] at hgoes
        by_cases hwaits : p.waitsAt (.stopHandler k.session) i = true
        · obtain ⟨t, hget, ht⟩ : ∃ t, p.pool[i]? = some t ∧ t.isRunning = true :=
            (Option.any_eq_true _ _).mp hwaits
          have hi : i ∈ k.transceivers := h.reports.transceivers ▸ mem_of_remaining hremaining
          have hloop : p.InLoop := by
            constructor
            · simp [pausing, hstack, hremaining, hwaits]
            · simp [hstack, isForeign]
          have hready := (beforeShutdown_of_stopped (h.stopping i hi t hget)).2
          have hend : t.state ≠ .eEnd := by simpa [Transceiver.isRunning] using ht
          exact exists_continues_of_running h.reports.toServes h.answerable hloop hi hget hready
            hend
        · rw [if_neg hwaits] at hgoes
          exact ⟨.resume, .resume (by simp [hgoes])⟩

/-- Once the transceivers have been asked, the connection is shut down. -/
theorem Waits.within (h : Waits k p) (hexitCb : k.exitCb ≠ none) {n : ℕ} (hn : p.load ≤ n) :
    (machine Transceiver).Within Continues
      ((machine Transceiver).Within Continues (Told k.session .eNormal) 3) (n + 1) p := by
  refine Machine.within_succ_of_measure (I := Waits k) load ?_ ?_ h hn
  · intro p h _
    exact h.exists_continues
  · intro p e h _ hcontinues
    cases hcontinues with
    | resume hresume => exact h.resume hexitCb hresume
    | posted hloop hk =>
      obtain ⟨p', hstep, hlater⟩ := h.posted hloop hk
      exact ⟨p', hstep, Or.inr hlater⟩
    | answer hloop hup hi hget hanswer =>
      obtain ⟨p', hstep, hlater⟩ := h.answer hloop (h.reports.transceivers ▸ hi) hget hanswer
      exact ⟨p', hstep, Or.inr hlater⟩
    | aborted hloop hdown => exact absurd hdown h.reports.not_shutdown

/-! ### The stop as a whole -/

/-- What is left to do once the transceivers have been asked. -/
theorem Waits.load_le (h : Waits k p) (hstack : p.connector.stack = []) :
    p.load ≤ 9 * k.transceivers.length + 1 := by
  have hposted : p.connector.posted = [k.session] := by
    obtain ⟨n, below, hframes, ⟨-, hposted⟩ | ⟨rest, rfl, -⟩⟩ := h.stack
    · exact hposted
    · simp [hstack] at hframes
  have hleft : (k.transceivers.map p.leftOf).sum ≤ k.transceivers.length * 4 := by
    refine sum_leftOf_le fun i hi ↦ leftOf_le fun t hget ↦ ?_
    simpa [h.stopping i hi t hget] using (h.answerable t (List.mem_of_getElem? hget)).left_le
  rw [load, h.reports.transceivers, steps, hstack, hposted]
  simp
  omega

/-- Whatever the order in which the broker answers and calls return, the exit callback is told
`eNormal` within eleven events for each transceiver, and six more, after a `stop()`. -/
theorem answers_of_reachedBy (h : (machine Transceiver).ReachedBy Faithful p)
    (hstack : p.connector.stack = []) (hposted : p.connector.posted = [])
    (hready : p.connector.connectionHandlerReady = true)
    (hstate : p.connector.connectionHandler.state = .eReady) (hexitCb : p.connector.exitCb ≠ none)
    (hrecreate : ∀ i ∈ p.connector.transceivers, ∀ t, p.pool[i]? = some t →
      t.state ≠ .eRecreateChannel) :
    ∃ p', p.step (.connector .stop) = some p' ∧
      (machine Transceiver).Within Continues (Told p.connector.session .eNormal)
        (11 * p.connector.transceivers.length + 6) p' := by
  let f : Frame := .forEach (.stop p.connector.session) p.connector.transceivers
  let p' : Program Transceiver := { p with connector := { p.connector with stack := [f] } }
  have hstep : p.step (.connector .stop) = some p' := by
    simp [Program.step, crashes, Connector.crashes, pausing, hstack, entered, occur,
      Connector.occur, Connector.stop, hready, push, p', f]
  have hasks : Asks (settingOf p.connector) p.connector.transceivers p' := by
    have hsteady := steady_of_reachable h.reachable
    have hlt := session_lt_of_state (c := p.connector) (by simp [hstate])
    have hreads := (nested h.reachable).reads p.connector.session
    have hanswerable := answerable_of_reachedBy h
    refine ⟨?_, hanswerable, hposted, ?_⟩
    · exact ⟨⟨rfl, hstate⟩, hsteady _ (handler_mem hlt),
        le_trans (Nat.le_add_right _ _) hreads.single⟩
    · exact fun i hi ↦ Or.inl ⟨hi, hrecreate i hi⟩
  refine ⟨p', hstep, ?_⟩
  have hasked := bodyLoop_stop.within (fun _ _ _ ↦ Iff.rfl) (show p'.connector.stack = _ from rfl)
    hasks
  have hshuts := hasked.bind fun q hq ↦ hq.1.within hexitCb (hq.1.load_le hq.2)
  refine (hshuts.bind fun q hq ↦ hq).mono ?_
  simp only [settingOf]
  omega

/-- With one sender open, a stop is answered within seventeen events. -/
theorem answers_opening :
    ∃ p p', (machine Transceiver).run (initial Transceiver) opening = some p ∧
      p.isRunning 0 = true ∧ p.step (.connector .stop) = some p' ∧
      (machine Transceiver).Within Continues (Told 0 .eNormal) 17 p' := by
  obtain ⟨p', hstep, hwithin⟩ := answers_of_reachedBy ⟨_, opening, rfl, rfl, meets_opening⟩ rfl rfl
    rfl rfl (by decide) (by decide)
  exact ⟨_, p', rfl, by decide, hstep, hwithin⟩

/-! ### An error of AMQP-CPP -/

theorem onShutdown_of_error (hexiting : c.exiting = false)
    (hready : c.connectionHandlerReady = true) (herror : c.connectionHandler.amqpError = true) :
    c.onShutdown session = c.push (.forEach (.drop session) c.transceivers) := by
  simp [onShutdown, hexiting, hready, herror]

/-- The connection has been shut down after an error, and the transceivers are to be dropped. -/
structure Falls (k : Setting) (c : Connector) : Prop extends Shuts k false c where
  state : c.connectionHandler.state = .eNotConnected

theorem Falls.of_eq (h : Falls k c) (hsetting : settingOf c' = settingOf c)
    (hhandlers : c'.handlers = c.handlers) (hposted : c'.posted = c.posted)
    (hexiting : c'.exiting = c.exiting) : Falls k c' := by
  have hhandler := connectionHandler_of_eq hhandlers
  refine ⟨⟨hsetting.trans h.setting, ?_, hposted.trans h.posted, hexiting.trans h.exiting, ?_⟩, ?_⟩
  · rw [Connector.session, hhandlers]
    exact h.lt
  · rw [hhandler, show c'.connectionHandlerReady = _ from congrArg Setting.ready hsetting]
    exact h.error
  · rw [hhandler]
    exact h.state

/-- When its loop ends, a shutdown after an error goes on to drop the transceivers. -/
theorem Shuts.finish (h : Shuts k false c) :
    ∃ c₁, c.finish k.session =
      (c₁.push (.shutdownCb k.session)).push (.forEach (.drop k.session) k.transceivers) ∧
      Falls k c₁ ∧ c₁.stack = c.stack := by
  obtain ⟨hready, herror⟩ := h.error rfl
  have herror' : (c.handler k.session).endShutdown.1.amqpError = c.connectionHandler.amqpError := by
    rw [h.handler_eq]
    rfl
  obtain ⟨hshuts, hhandler⟩ := h.setHandler herror'
  refine ⟨c.setHandler k.session (c.handler k.session).endShutdown.1, ?_, ⟨hshuts, ?_⟩, rfl⟩
  · rw [← h.transceivers]
    refine onShutdown_of_error h.exiting hready ?_
    rw [connectionHandler_push, hhandler, herror', herror]
  · rw [hhandler]
    rfl

/-- After the transceivers have been dropped, the exit callback is called. -/
theorem bodyLoop_drop :
    BodyLoop (.drop session) below (fun _ p ↦ Falls k p.connector) fun p ↦
      ∃ c, p.connector = c.disconnected.exit session .eAmqpError ∧ Falls k c ∧ c.stack = below where
  never _ _ := rfl
  cost _ := rfl
  returns p rest stack h := h.of_eq rfl rfl rfl rfl
  body p rest i others h _ := by
    rcases p.connector_body (.drop session) i with heq | heq
    · rw [heq]
      exact h
    · rw [heq]
      exact h.of_eq rfl rfl rfl rfl
  done p rest h _ hstack := ⟨p.connector, rfl, h, hstack⟩

/-- When its loop ends, a shutdown after an error is told once the transceivers have been
dropped. -/
theorem Shuts.within_drop (h : Shuts k false c) (hexitCb : k.exitCb ≠ none)
    (q : Program Transceiver) :
    (machine Transceiver).Within Continues (Told k.session .eAmqpError)
      (2 * k.transceivers.length + 1) { q with connector := c.finish k.session } := by
  obtain ⟨c₁, hfinish, hfalls, -⟩ := h.finish
  let r : Program Transceiver := { q with
    connector := (c₁.push (.shutdownCb k.session)).push
      (.forEach (.drop k.session) k.transceivers) }
  have hdrops := bodyLoop_drop.within (p := r) (fun _ _ _ ↦ Iff.rfl) rfl
    (hfalls.of_eq rfl rfl rfl rfl)
  rw [hfinish]
  refine hdrops.imp fun r hr ↦ ?_
  obtain ⟨c₂, hexit, hfalls₂, -⟩ := hr
  have hcallback : c₂.disconnected.exitCb ≠ none := by
    rw [show c₂.disconnected.exitCb = k.exitCb from congrArg Setting.exitCb hfalls₂.setting]
    exact hexitCb
  rw [Told, hexit]
  exact mem_exitCodes_exit hcallback

/-- An error that AMQP-CPP reports on a connection that is up shuts it down. -/
theorem exists_shuts_of_onError (h : (machine Transceiver).Reachable p) (message : String)
    (hpausing : p.pausing = true) (hposted : p.connector.posted = [])
    (hready : p.connector.connectionHandlerReady = true)
    (hstate : p.connector.connectionHandler.state = .eReady) :
    ∃ (c : Connector) (v : ConnectionHandler),
      p.step (.connector (.handler p.connector.session (.onError message))) =
        some { p with connector := c.handle p.connector.session (v, .shutdownLoop) } ∧
      c.stack = p.entered.connector.stack ∧
      Shuts (settingOf p.connector) false (c.setHandler p.connector.session v) ∧
      (c.setHandler p.connector.session v).connectionHandler = v ∧ v.state = .eShutdown ∧
      v.Steady ∧ v.reads ≤ 1 := by
  obtain ⟨stack, hentered⟩ : ∃ stack, p.entered =
      { p with connector := { p.connector with stack := stack } } := by
    unfold entered
    split
    · exact ⟨_, rfl⟩
    · exact ⟨p.connector.stack, rfl⟩
  let c : Connector := { p.connector with stack := stack }
  let v : ConnectionHandler := { p.connector.connectionHandler with
    connection := true, lastError := "AMQP-CPP error: " ++ message, amqpError := true
    state := .eShutdown }
  have hmethod : p.connector.connectionHandler.method (.onError message) =
      some (v, .shutdownLoop) := by
    simp [ConnectionHandler.method, ConnectionHandler.onError, ConnectionHandler.connected, hstate,
      ConnectionHandler.goto, ConnectionHandler.stateMachine, v]
  have hlt := session_lt_of_state (c := p.connector) (by simp [hstate])
  have hsteady := (steady_of_reachable h _ (handler_mem hlt)).method hmethod
  have hreads := ((nested h).reads p.connector.session).single
  have hexiting : p.connector.exiting = false := by
    by_contra hexiting
    rcases (wellFormed h).exiting (by simpa using hexiting) with hover | hover
    all_goals cases hstate.symm.trans hover
  have hset : (c.setHandler p.connector.session v).connectionHandler = v :=
    connectionHandler_setHandler c v hlt
  refine ⟨c, v, ?_, by rw [hentered], ?_, hset, rfl, hsteady,
    le_trans (Nat.le_add_right _ _) hreads⟩
  · have hmethod' : (p.connector.handler p.connector.session).method (.onError message) =
        some (v, .shutdownLoop) := hmethod
    have hhandler : { p.connector with stack := stack }.handler = p.connector.handler := rfl
    simp [Program.step, crashes, Connector.crashes, hpausing, hentered, occur, Connector.occur, hlt,
      hhandler, hmethod', c]
  · refine ⟨?_, ?_, hposted, hexiting, fun _ ↦ ⟨hready, ?_⟩⟩
    · rw [settingOf_setHandler]
      rfl
    · rw [session_setHandler, length_setHandler]
      exact hlt
    · exact congrArg ConnectionHandler.amqpError hset

/-- An error that AMQP-CPP reports on a connection that is up is told to the exit callback within
two events for each transceiver, and four more. -/
theorem tells_of_reachable (h : (machine Transceiver).Reachable p) (message : String)
    (hpausing : p.pausing = true) (hposted : p.connector.posted = [])
    (hready : p.connector.connectionHandlerReady = true)
    (hstate : p.connector.connectionHandler.state = .eReady)
    (hexitCb : p.connector.exitCb ≠ none) :
    ∃ p', p.step (.connector (.handler p.connector.session (.onError message))) = some p' ∧
      (machine Transceiver).Within Continues (Told p.connector.session .eAmqpError)
        (2 * p.connector.transceivers.length + 4) p' := by
  obtain ⟨c, v, hstep, -, hshuts, hhandler, hdown, hsteady, hreads⟩ :=
    exists_shuts_of_onError h message hpausing hposted hready hstate
  have hclosed := within_handle p hshuts hhandler hdown hsteady hreads (fun _ _ _ ↦ Iff.rfl)
    fun q c' hshuts' _ _ ↦ hshuts'.within_drop hexitCb q
  refine ⟨_, hstep, (hclosed.bind fun q hq ↦ hq).mono ?_⟩
  simp only [settingOf]
  omega

/-- With one sender open, an error is told within six events. -/
theorem tells_opening :
    ∃ p p', (machine Transceiver).run (initial Transceiver) opening = some p ∧
      p.isRunning 0 = true ∧
      p.step (.connector (.handler 0 (.onError "frame error"))) = some p' ∧
      (machine Transceiver).Within Continues (Told 0 .eAmqpError) 6 p' := by
  obtain ⟨p', hstep, hwithin⟩ := tells_of_reachable ⟨_, opening, rfl, rfl⟩ "frame error"
    (by decide) rfl rfl rfl (by decide)
  exact ⟨_, p', rfl, by decide, hstep, hwithin⟩

end Program

end AmqpAsio
