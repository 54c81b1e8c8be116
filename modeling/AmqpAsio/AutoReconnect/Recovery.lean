import AmqpAsio.Connector.Completion
import AmqpAsio.Connector.Returns

/-!
# How soon the wrapper restores a connection

An error of AMQP-CPP shuts the connection down and drops the transceivers, and
`AutoReconnect::restart`, which is told of it, sets the timer. The handler of the timer makes the
connector start another session; one that cannot be connected sets the timer again. When a
connection is established `AutoReconnect::started` calls `run()`, and that starts every transceiver
on the new connection. So the transceivers are set up again, however many attempts fail before one
succeeds.
-/

set_option autoImplicit false
set_option relaxedAutoImplicit false

namespace AmqpAsio

namespace Program

open Connector

variable {p : Program Transceiver} {c : Connector} {v : ConnectionHandler} {k : Setting}
  {runs : ℕ → ℕ} {last session n : ℕ} {stack : List Frame} {code : ExitCode}

/-! ### The way back -/

/-- What the event loop wakes: the timer and its handler, and an attempt to connect, which does not
fail in the session `last` or in a later one. -/
inductive Wakes (last : ℕ) (c : Connector) : Connector.Event → Prop
  | timerExpires (h : c.auto.waiting = true) : Wakes last c .timerExpires
  | timerHandler (h : c.auto.expired ≠ 0) : Wakes last c .timerHandler
  | resolved {ec : Option String} (h : c.connectionHandler.state = .eResolving)
      (hec : last ≤ c.session → ec = none) : Wakes last c (.handler c.session (.resolved ec))
  | connectDone {ec : Option String} (h : c.connectionHandler.state = .eConnecting)
      (hec : last ≤ c.session → ec = none) : Wakes last c (.handler c.session (.connectDone ec))

/-- With nothing suspended, none of it crashes the program. -/
theorem Wakes.crashes_eq_false {e : Connector.Event} (h : Wakes last c e) (hstack : c.stack = []) :
    c.crashes e = false := by
  cases h with
  | timerHandler => simp [Connector.crashes, destroysSuspended, hstack]
  | timerExpires | resolved | connectDone => rfl

/-- What happens without the application on the way back to a connection. -/
inductive Recovers (last : ℕ) (p : Program Transceiver) : Event Transceiver.Event → Prop
  | continues {e : Event Transceiver.Event} (h : Continues p e) : Recovers last p e
  | parsed {session parsed expected : ℕ} {below : List Frame}
      (hstack : p.connector.stack = .parse session :: below) :
      Recovers last p (.parsed parsed expected)
  | wakes {e : Connector.Event} (hloop : p.InLoop) (h : Wakes last p.connector e) :
      Recovers last p (.connector e)

/-- `AutoReconnect::restart` is the exit callback, `AutoReconnect::started` is done with the
connection, and the timer is not set. -/
structure Wraps (k : Setting) : Prop where
  exitCb : k.exitCb = some .restart
  started : k.auto.started = true
  needStop : k.auto.needStop = false
  rerun : k.auto.rerun = false
  startedCallback : k.auto.startedCallback = false
  waiting : k.auto.waiting = false
  expired : k.auto.expired = 0

/-- The setting between two connections. -/
def Setting.without (k : Setting) (session : ℕ) (waiting : Bool) (expired : ℕ) : Setting where
  session := session
  ready := false
  amqpConnection := none
  transceivers := k.transceivers
  auto := { k.auto with rerun := true, waiting := waiting, expired := expired }
  exitCb := k.exitCb

/-- The setting once a connection has been established, with the wrapper as it was. -/
def Setting.restored (k : Setting) (session : ℕ) : Setting where
  session := session
  ready := true
  amqpConnection := some session
  transceivers := k.transceivers
  auto := k.auto
  exitCb := k.exitCb

/-- `AutoReconnect::started` takes back what `restart` and the timer have done to the wrapper. -/
theorem Wraps.auto_without (h : Wraps k) (session : ℕ) :
    { (k.without session false 0).auto with startedCallback := false, rerun := false } =
      k.auto := by
  have hrerun := h.rerun
  have hcallback := h.startedCallback
  have hwaiting := h.waiting
  have hexpired := h.expired
  cases hauto : k.auto
  simp_all [Setting.without]

theorem Wraps.restored (h : Wraps k) (session : ℕ) : Wraps (k.restored session) :=
  ⟨h.exitCb, h.started, h.needStop, h.rerun, h.startedCallback, h.waiting, h.expired⟩

/-- The transceivers in the list are at their ends, in the runs they were in. -/
structure Dropped (ids : List ℕ) (runs : ℕ → ℕ) (pool : List Transceiver) : Prop where
  ended : ∀ i ∈ ids, Holds i (fun t ↦ t.state = .eEnd ∧ t.runs = runs i) pool
  answerable : ∀ t ∈ pool, t.Answerable

/-- No connection is up, and the transceivers have been dropped. -/
structure Offline (k : Setting) (runs : ℕ → ℕ) (stack : List Frame) (v : ConnectionHandler)
    (p : Program Transceiver) : Prop where
  setting : settingOf p.connector = k
  lt : p.connector.session < p.connector.handlers.length
  posted : p.connector.posted = []
  exiting : p.connector.exiting = false
  startedCb : v.state ≠ .eNotConnected → p.connector.startedCb = some .started
  stack : p.connector.stack = stack
  handler : p.connector.connectionHandler = v
  down : v.connected = false
  dropped : Dropped k.transceivers runs p.pool

theorem Offline.session_eq (h : Offline k runs stack v p) : p.connector.session = k.session :=
  congrArg Setting.session h.setting

theorem Offline.auto (h : Offline k runs stack v p) : p.connector.auto = k.auto :=
  congrArg Setting.auto h.setting

/-- Between two connections no transceiver waits for an answer, and no read or write for its
failure. -/
theorem Offline.eq_resume {e : Event Transceiver.Event} (h : Offline k runs stack v p)
    (he : Continues p e) : e = .resume ∧ p.resume ≠ none := by
  cases he with
  | resume hresume => exact ⟨rfl, hresume⟩
  | posted hloop hk => simp [h.posted] at hk
  | @answer i t event hloop hup hi hget hanswer =>
    have hi' : i ∈ k.transceivers := h.setting ▸ hi
    have hwell := (h.dropped.answerable t (List.mem_of_getElem? hget)).attended.well
    exact absurd (h.dropped.ended i hi' t hget).1 (hanswer.running hwell)
  | aborted hloop hdown =>
    have hconnected : v.connected = true := by
      rw [← h.handler, ConnectionHandler.connected, hdown]
      rfl
    simp [h.down] at hconnected

/-- Between two connections, and with nothing suspended, only what the event loop wakes goes on. -/
theorem Offline.within_one {Goal : Program Transceiver → Prop} (h : Offline k runs [] v p)
    (hexists : ∃ e, Wakes last p.connector e)
    (hall : ∀ e, Wakes last p.connector e →
      ∃ c, p.connector.occur e = some c ∧ Goal { p with connector := c }) :
    (machine Transceiver).Within (Recovers last) Goal 1 p := by
  have hpausing : p.pausing = true := by
    unfold pausing
    rw [h.stack]
  have hentered : p.entered = p := by
    unfold entered
    rw [h.stack]
  have hloop : p.InLoop := ⟨hpausing, by simp [h.stack]⟩
  refine Or.inr ⟨?_, fun e he ↦ ?_⟩
  · obtain ⟨e, he⟩ := hexists
    exact ⟨_, .wakes hloop he⟩
  · cases he with
    | continues he =>
      obtain ⟨rfl, hresume⟩ := h.eq_resume he
      exact absurd (by simp [Program.resume, h.stack]) hresume
    | parsed hstack => simp [h.stack] at hstack
    | wakes hloop he =>
      obtain ⟨c', hoccur, hgoal⟩ := hall _ he
      have hcrash : p.connector.crashes _ = false := he.crashes_eq_false h.stack
      exact ⟨_, by simp [Program.step, crashes, hcrash, hpausing, hentered, Program.occur, hoccur],
        hgoal⟩

/-! ### The timer -/

/-- Told of a connection that is lost or could not be made, the wrapper sets its timer. -/
theorem exit_restart (hexitCb : c.exitCb = some .restart) (hstarted : c.auto.started = true)
    (hcode : code ≠ .eNormal) :
    c.exit session code = { c.record (.exit session code) with
      auto := { c.auto with rerun := true, waiting := true } } := by
  have hrestart : c.exit session code = (c.record (.exit session code)).restart code := by
    simp only [exit, hexitCb]
  rw [hrestart]
  unfold restart
  rw [if_neg (by simp [record, hstarted])]
  cases code with
  | eNormal => exact absurd rfl hcode
  | eBrokerConnectError | eAmqpError => rfl

theorem settingOf_auto (h : settingOf c = k) (auto : AutoReconnect) :
    settingOf { c with auto := auto } = { k with auto := auto } := by
  rw [← h]
  rfl

/-- The timer expires. -/
theorem Offline.expires (h : Offline (k.without session true 0) runs [] v p)
    (hstate : v.state = .eNotConnected) :
    (machine Transceiver).Within (Recovers last) (Offline (k.without session false 1) runs [] v) 1
      p := by
  have hwaiting : p.connector.auto.waiting = true := by rw [h.auto]; rfl
  have hexpired : p.connector.auto.expired = 0 := by rw [h.auto]; rfl
  refine h.within_one ⟨_, .timerExpires hwaiting⟩ fun e he ↦ ?_
  cases he with
  | timerExpires =>
    refine ⟨_, if_pos hwaiting, { h with setting := ?_ }⟩
    rw [settingOf_auto h.setting, h.auto]
    rfl
  | timerHandler hnot => exact absurd hexpired hnot
  | resolved hnot | connectDone hnot =>
    rw [h.handler, hstate] at hnot
    cases hnot

/-! ### An attempt to connect -/

/-- The handler of an attempt while the address is resolved. -/
def resolvingHandler : ConnectionHandler := (ConnectionHandler.new.start true).1

/-- The handler of an attempt while the connection is established. -/
def connectingHandler : ConnectionHandler := (resolvingHandler.resolved none).1

/-- `async_start()` of a connector whose last session is over begins the next one. -/
theorem asyncStart_of_stopped (callback : Option StartedCallback)
    (hready : c.connectionHandlerReady = false)
    (hstate : c.connectionHandler.state = .eNotConnected) :
    c.asyncStart callback = c.begun callback c.handlers := by
  rcases asyncStart_eq callback hready with ⟨-, heq⟩ | ⟨hlt, -, heq⟩
  · exact heq
  · have hdone : c.connectionHandler.stop = (c.connectionHandler, .done) := by
      unfold ConnectionHandler.stop
      rw [if_pos hstate]
    rw [heq, hdone]
    have hself : c.handlers.set c.session c.connectionHandler = c.handlers := by
      simp [connectionHandler, handler, hlt]
    simp only [Connector.handle, setHandler, begun, List.set_append_left _ _ hlt, hself]

theorem connectionHandler_begun (c : Connector) (callback : Option StartedCallback) :
    (c.begun callback c.handlers).connectionHandler = resolvingHandler := by
  rw [connectionHandler, session_begun]
  simp [begun, handler, resolvingHandler]

theorem settingOf_begun (c : Connector) (callback : Option StartedCallback) :
    settingOf (c.begun callback c.handlers) =
      { settingOf c with session := c.handlers.length } := by
  rw [settingOf, session_begun]
  rfl

/-- The handler of the timer begins an attempt. -/
theorem Offline.attempts (h : Offline (k.without session false 1) runs [] v p)
    (hstate : v.state = .eNotConnected) :
    (machine Transceiver).Within (Recovers last)
      (Offline (k.without (session + 1) false 0) runs [] resolvingHandler) 1 p := by
  have hwaiting : p.connector.auto.waiting = false := by rw [h.auto]; rfl
  have hexpired : p.connector.auto.expired = 1 := by rw [h.auto]; rfl
  refine h.within_one ⟨_, .timerHandler (by simp [hexpired])⟩ fun e he ↦ ?_
  cases he with
  | timerExpires hnot => simp [hwaiting] at hnot
  | resolved hnot | connectDone hnot =>
    rw [h.handler, hstate] at hnot
    cases hnot
  | timerHandler =>
    let c : Connector := { p.connector with
      auto := { p.connector.auto with expired := p.connector.auto.expired - 1 } }
    have hoccur : p.connector.occur .timerHandler = some (c.begun (some .started) c.handlers) := by
      rw [← asyncStart_of_stopped]
      · simp [Connector.occur, hexpired, c]
      · exact congrArg Setting.ready h.setting
      · exact (congrArg ConnectionHandler.state h.handler).trans hstate
    have hlength : c.handlers.length = session + 1 := by
      have hlt := h.lt
      have hthis : p.connector.session = session := h.session_eq
      unfold Connector.session at hthis hlt
      simp only [c]
      omega
    refine ⟨_, hoccur, { h with
      setting := ?_, lt := ?_, exiting := rfl, startedCb := fun _ ↦ rfl
      handler := connectionHandler_begun c _, down := rfl }⟩
    · rw [settingOf_begun, hlength, settingOf_auto h.setting, h.auto]
      rfl
    · exact session_lt_of_state (by simp [state_begun])

/-- The present handler has changed, and is not connected. -/
theorem Offline.setHandler (h : Offline k runs stack v p) (v' : ConnectionHandler)
    (hdown : v'.connected = false)
    (hstarted : v'.state ≠ .eNotConnected → v.state ≠ .eNotConnected) :
    Offline k runs stack v' { p with connector := p.connector.setHandler k.session v' } := by
  refine { h with
    setting := (settingOf_setHandler _ _ _).trans h.setting, lt := ?_
    startedCb := fun hne ↦ h.startedCb (hstarted hne), handler := ?_, down := hdown }
  · rw [session_setHandler, length_setHandler]
    exact h.lt
  · rw [← h.session_eq]
    exact connectionHandler_setHandler p.connector v' h.lt

/-- Told that there is no connection, the wrapper sets its timer. -/
theorem Offline.exit {auto : AutoReconnect}
    (h : Offline { k.without session true 0 with auto := auto } runs stack v p) (hwraps : Wraps k)
    (hauto : { auto with rerun := true, waiting := true } = (k.without session true 0).auto)
    (code : ExitCode) (hcode : code ≠ .eNormal) :
    Offline (k.without session true 0) runs stack v
      { p with connector := p.connector.exit session code } := by
  have hexitCb : p.connector.exitCb = some .restart :=
    (congrArg Setting.exitCb h.setting).trans hwraps.exitCb
  have hstarted : p.connector.auto.started = true := by
    rw [h.auto]
    exact (congrArg AutoReconnect.started hauto).trans hwraps.started
  rw [exit_restart hexitCb hstarted hcode]
  refine { h with setting := ?_ }
  rw [settingOf_auto (c := p.connector.record _) h.setting, h.auto]
  exact congrArg (fun a ↦ { k.without session true 0 with auto := a }) hauto

/-- An attempt that fails comes to the wrapper. -/
theorem Offline.fails {v' : ConnectionHandler} {message : String}
    (h : Offline (k.without session false 0) runs [] v p) (hwraps : Wraps k)
    (hstate : v'.state = .eNotConnected) :
    Offline (k.without session true 0) runs [.shutdownCb session] v'
      { p with connector := p.connector.handle session (v', .shutdownCb message) } := by
  let c : Connector := { (p.connector.setHandler session v').push (.shutdownCb session) with
    amqpConnection := none, sentinel := false }
  have hhandle : p.connector.handle session (v', .shutdownCb message) =
      c.exit session .eBrokerConnectError := by
    have hexiting : ((p.connector.setHandler session v').push (.shutdownCb session)).exiting =
        false := h.exiting
    have hready : ((p.connector.setHandler session v').push
        (.shutdownCb session)).connectionHandlerReady = false := congrArg Setting.ready h.setting
    simp [Connector.handle, onShutdown, hexiting, hready, c]
  have hset := h.setHandler v' (by simp [ConnectionHandler.connected, hstate])
    fun hne ↦ absurd hstate hne
  have hlost : Offline { k.without session true 0 with auto := (k.without session false 0).auto }
      runs [.shutdownCb session] v' { p with connector := c } :=
    { hset with
      setting := congrArg (fun k' ↦ { k' with amqpConnection := none }) hset.setting
      stack := congrArg (List.cons _) hset.stack }
  rw [hhandle]
  exact hlost.exit hwraps rfl _ (by simp)

/-- A completion calls a method of the present handler. -/
theorem Offline.occur_handler {e : ConnectionHandler.Event}
    {r : ConnectionHandler × ConnectionHandler.Continuation}
    (h : Offline (k.without session false 0) runs [] v p) (hmethod : v.method e = some r)
    (hne : e ≠ .stop) :
    p.connector.occur (.handler p.connector.session e) = some (p.connector.handle session r) := by
  have hsession : p.connector.session = session := h.session_eq
  have hhandler : p.connector.handler session = v := by
    rw [← h.handler, connectionHandler, hsession]
  have hlt := hsession ▸ h.lt
  simp [Connector.occur, hsession, hlt, hne, hhandler, hmethod]

/-- An attempt before the session `last` has failed. -/
def Failed (k : Setting) (runs : ℕ → ℕ) (last session : ℕ) (p : Program Transceiver) : Prop :=
  session < last ∧ ∃ v : ConnectionHandler, v.state = .eNotConnected ∧
    Offline (k.without session true 0) runs [.shutdownCb session] v p

/-- An attempt comes to an outcome that only an attempt before the session `last` has. -/
theorem Offline.failed {e : ConnectionHandler.Event} {v' : ConnectionHandler}
    {message text : String} (h : Offline (k.without session false 0) runs [] v p)
    (hwraps : Wraps k) (hmethod : v.method e = some (v', .shutdownCb text)) (hne : e ≠ .stop)
    (hstate : v'.state = .eNotConnected) (hec : last ≤ session → some message = none) :
    ∃ c, p.connector.occur (.handler p.connector.session e) = some c ∧
      Failed k runs last session { p with connector := c } := by
  have hearlier : session < last := by
    by_contra hlast
    cases hec (Nat.not_lt.mp hlast)
  exact ⟨_, h.occur_handler hmethod hne, hearlier, v', hstate, h.fails hwraps hstate⟩

/-- While an attempt is under way only its outcome can come. -/
theorem Offline.wakes_of_attempt {e : Connector.Event}
    (h : Offline (k.without session false 0) runs [] v p) (he : Wakes last p.connector e) :
    ∃ ec : Option String, (last ≤ session → ec = none) ∧
      (v.state = .eResolving ∧ e = .handler p.connector.session (.resolved ec) ∨
        v.state = .eConnecting ∧ e = .handler p.connector.session (.connectDone ec)) := by
  have hsession : p.connector.session = session := h.session_eq
  have hauto : p.connector.auto = (k.without session false 0).auto := h.auto
  cases he with
  | timerExpires hnot =>
    rw [hauto] at hnot
    cases hnot
  | timerHandler hnot =>
    rw [hauto] at hnot
    exact absurd rfl hnot
  | @resolved ec hstate hec =>
    rw [h.handler] at hstate
    exact ⟨ec, hsession ▸ hec, Or.inl ⟨hstate, rfl⟩⟩
  | @connectDone ec hstate hec =>
    rw [h.handler] at hstate
    exact ⟨ec, hsession ▸ hec, Or.inr ⟨hstate, rfl⟩⟩

/-- The address is resolved, or the attempt fails. -/
theorem Offline.resolves (h : Offline (k.without session false 0) runs [] resolvingHandler p)
    (hwraps : Wraps k) :
    (machine Transceiver).Within (Recovers last)
      (fun q ↦ Offline (k.without session false 0) runs [] connectingHandler q ∨
        Failed k runs last session q) 1 p := by
  have hstate : p.connector.connectionHandler.state = .eResolving := by rw [h.handler]; rfl
  have hsucceeds : Wakes last p.connector (.handler p.connector.session (.resolved none)) :=
    .resolved hstate fun _ ↦ rfl
  refine h.within_one ⟨_, hsucceeds⟩ fun e he ↦ ?_
  obtain ⟨ec, hec, ⟨-, rfl⟩ | ⟨hconnecting, -⟩⟩ := h.wakes_of_attempt he
  · cases ec with
    | none =>
      have hhandle := h.occur_handler (e := .resolved none) (r := (connectingHandler, .done)) rfl
        (by simp)
      exact ⟨_, hhandle, Or.inl (h.setHandler connectingHandler rfl fun _ ↦ by decide)⟩
    | some message =>
      obtain ⟨c, hoccur, hfailed⟩ :=
        h.failed (e := .resolved (some message)) hwraps rfl (by simp) rfl hec
      exact ⟨c, hoccur, Or.inr hfailed⟩
  · cases hconnecting

/-- A connection is up again, and the transceivers are to be started. -/
structure Restarts (k : Setting) (runs : ℕ → ℕ) (session : ℕ) (p : Program Transceiver) : Prop where
  starts : Starts (k.restored session) k.transceivers p
  stack : p.connector.stack = [.forEach .start k.transceivers]
  dropped : Dropped k.transceivers runs p.pool

/-- `AutoReconnect::started`, but for the first connection, runs the connector. -/
theorem callStartedCb_of_rerun (hstartedCb : c.startedCb = some .started)
    (hneedStop : c.auto.needStop = false) (hcallback : c.auto.startedCallback = false)
    (hrerun : c.auto.rerun = true) (hready : c.connectionHandlerReady = true) :
    c.callStartedCb =
      { c with
        sentinel := true
        auto := { c.auto with startedCallback := false, rerun := false } }.push
          (.forEach .start c.transceivers) := by
  simp [callStartedCb, hstartedCb, started, hneedStop, hcallback, endStarted, hrerun, run, hready,
    push]

/-- An attempt that succeeds makes the wrapper run the connector. -/
theorem Offline.restores (h : Offline (k.without session false 0) runs [] connectingHandler p)
    (hwraps : Wraps k) :
    Restarts k runs session
      { p with connector := p.connector.handle session (connectingHandler.connectDone none) } := by
  let v : ConnectionHandler := (connectingHandler.connectDone none).1
  let c : Connector := { p.connector.setHandler session (v.onData protocolHeader).1 with
    connectionHandlerReady := true, amqpConnection := some session, sentinel := false }
  have hsession : p.connector.session = session := h.session_eq
  have hauto : c.auto = (k.without session false 0).auto := h.auto
  have hhandle : p.connector.handle session (connectingHandler.connectDone none) =
      c.callStartedCb := by
    have honConnected := onConnected_setHandler v h.lt
    rw [hsession] at honConnected
    exact honConnected
  have hcalls := callStartedCb_of_rerun (c := c) (h.startedCb (by decide))
    (hauto ▸ hwraps.needStop) (hauto ▸ hwraps.startedCallback) (hauto ▸ rfl) rfl
  have hsetting : settingOf c =
      { k.without session false 0 with ready := true, amqpConnection := some session } := by
    rw [← h.setting, ← settingOf_setHandler p.connector session (v.onData protocolHeader).1]
    rfl
  have hhandler : c.connectionHandler = (v.onData protocolHeader).1 := by
    have hset := connectionHandler_setHandler p.connector (v.onData protocolHeader).1 h.lt
    rwa [hsession] at hset
  rw [hhandle, hcalls]
  refine ⟨⟨⟨?_, ?_⟩, h.dropped.answerable, h.posted⟩, ?_, h.dropped⟩
  · refine (settingOf_auto (c := { c with sentinel := true }) hsetting _).trans ?_
    rw [hauto, Setting.restored, ← hwraps.auto_without session]
    rfl
  · exact (congrArg ConnectionHandler.state hhandler).trans rfl
  · have hids : c.transceivers = k.transceivers := congrArg Setting.transceivers h.setting
    have hstack : c.stack = [] := h.stack
    rw [push, hids, hstack]

/-- The connection is established, or the attempt fails. -/
theorem Offline.connects (h : Offline (k.without session false 0) runs [] connectingHandler p)
    (hwraps : Wraps k) :
    (machine Transceiver).Within (Recovers last)
      (fun q ↦ Restarts k runs session q ∨ Failed k runs last session q) 1 p := by
  have hstate : p.connector.connectionHandler.state = .eConnecting := by rw [h.handler]; rfl
  have hsucceeds : Wakes last p.connector (.handler p.connector.session (.connectDone none)) :=
    .connectDone hstate fun _ ↦ rfl
  refine h.within_one ⟨_, hsucceeds⟩ fun e he ↦ ?_
  obtain ⟨ec, hec, ⟨hresolving, -⟩ | ⟨-, rfl⟩⟩ := h.wakes_of_attempt he
  · cases hresolving
  · cases ec with
    | none => exact ⟨_, h.occur_handler rfl (by simp), Or.inl (h.restores hwraps)⟩
    | some message =>
      obtain ⟨c, hoccur, hfailed⟩ :=
        h.failed (e := .connectDone (some message)) hwraps rfl (by simp) rfl hec
      exact ⟨c, hoccur, Or.inr hfailed⟩

/-! ### The attempts -/

/-- `m_shutdownCb` returns. -/
theorem Offline.returns {below : List Frame}
    (h : Offline k runs (.shutdownCb k.session :: below) v p) :
    (machine Transceiver).Within (Recovers last) (Offline k runs below v.endShutdownCb) 1 p := by
  have hhandler : p.connector.handler k.session = v := by
    rw [← h.handler, connectionHandler, h.session_eq]
  let p' : Program Transceiver := { p with
    connector := { p.connector with stack := below }.setHandler k.session v.endShutdownCb }
  have hsame : { p.connector with stack := below }.handler k.session = v := hhandler
  have hresume : p.resume = some p' := by
    simp only [Program.resume, h.stack, Frame.goOn, Option.map_some, hsame, p']
  have hnot : ¬ p.InLoop := by
    intro hloop
    have hpausing := hloop.1
    unfold pausing at hpausing
    rw [h.stack] at hpausing
    cases hpausing
  refine Or.inr ⟨⟨.resume, .continues (.resume (by simp [hresume]))⟩, fun e he ↦ ?_⟩
  cases he with
  | continues he =>
    obtain ⟨rfl, -⟩ := h.eq_resume he
    have hset := h.setHandler v.endShutdownCb h.down id
    exact ⟨p', hresume, { hset with stack := rfl }⟩
  | parsed hstack => simp [h.stack] at hstack
  | wakes hloop => exact absurd hloop hnot

/-- `parse` returns in a handler that has been shut down. -/
theorem Offline.parses (h : Offline k runs [.parse k.session] v p) :
    (machine Transceiver).Within (Recovers last) (Offline k runs [] v) 1 p := by
  have hhandler : p.connector.handler k.session = v := by
    rw [← h.handler, connectionHandler, h.session_eq]
  have hnot : ¬ p.InLoop := by
    intro hloop
    have hparse := hloop.2 (.parse k.session) (by simp [h.stack])
    cases hparse
  refine Or.inr ⟨⟨.parsed 0 0, .parsed h.stack⟩, fun e he ↦ ?_⟩
  cases he with
  | continues he =>
    obtain ⟨-, hresume⟩ := h.eq_resume he
    exact absurd (by simp [Program.resume, h.stack, Frame.goOn]) hresume
  | @parsed session parsed expected below hstack =>
    let p' : Program Transceiver := { p with
      connector := { p.connector with stack := [] }.setHandler k.session v }
    have hstep : p.step (.parsed parsed expected) = some p' := by
      simp [Program.step, h.stack, hhandler, ConnectionHandler.onParsed, h.down, Connector.handle,
        p']
    exact ⟨p', hstep, { h.setHandler v h.down id with stack := rfl }⟩
  | wakes hloop => exact absurd hloop hnot

/-- An attempt succeeds or fails. -/
theorem Offline.within_attempt (h : Offline (k.without session true 0) runs [] v p)
    (hwraps : Wraps k) (hstate : v.state = .eNotConnected) (last : ℕ) :
    (machine Transceiver).Within (Recovers last)
      (fun q ↦ Restarts k runs (session + 1) q ∨ Failed k runs last (session + 1) q) 4 p := by
  refine (h.expires hstate).bind (n := 3) fun q hq ↦ ?_
  refine (hq.attempts hstate).bind (n := 2) fun q hq ↦ ?_
  refine (hq.resolves hwraps).bind (n := 1) fun q hq ↦ ?_
  rcases hq with hconnecting | hfailed
  · exact hconnecting.connects hwraps
  · refine .now ?_ 1
    exact Or.inr hfailed

/-- Once the attempts that may fail have been made, a connection is established. -/
theorem Offline.within_restarts (h : Offline (k.without session true 0) runs [] v p)
    (hwraps : Wraps k) (hstate : v.state = .eNotConnected) (hlast : last ≤ session + 1 + n) :
    (machine Transceiver).Within (Recovers last)
      (fun q ↦ ∃ s, session < s ∧ s ≤ session + 1 + n ∧ Restarts k runs s q) (5 * n + 4) p := by
  have hattempt := h.within_attempt hwraps hstate last
  induction n generalizing session v p with
  | zero =>
    refine hattempt.imp fun q hq ↦ ?_
    rcases hq with hrestarts | ⟨hearlier, -⟩
    · exact ⟨session + 1, by omega, le_rfl, hrestarts⟩
    · omega
  | succ n ih =>
    refine (hattempt.bind (n := 1 + (5 * n + 4)) fun q hq ↦ ?_).mono (by omega)
    rcases hq with hrestarts | ⟨-, v', hstate', hidle⟩
    · refine .now ?_ _
      exact ⟨session + 1, by omega, by omega, hrestarts⟩
    · refine hidle.returns.bind fun r hr ↦ ?_
      have hnext := ih hr hstate' (by omega) (hr.within_attempt hwraps hstate' last)
      refine hnext.imp fun q hq ↦ ?_
      obtain ⟨s, hless, hle, hrestarts⟩ := hq
      exact ⟨s, by omega, by omega, hrestarts⟩

/-! ### The transceivers -/

/-- While a loop does not wait, nothing happens but that it goes on. -/
theorem recovers_of_inBody {loop : Loop} {below : List Frame}
    {Stage : List ℕ → Program Transceiver → Prop} {e : Event Transceiver.Event} (last : ℕ)
    (hnever : ∀ i, p.waitsAt loop i = false) (hin : InBody loop below Stage p) :
    Recovers last p e ↔ Continues p e := by
  obtain ⟨n, rest, hstack, -⟩ := hin
  refine ⟨fun he ↦ ?_, .continues⟩
  cases he with
  | continues he => exact he
  | parsed hparse =>
    rw [hstack] at hparse
    cases n <;> cases hparse
  | wakes hloop => exact absurd hloop (not_inLoop hstack hnever)

/-- With the connection up or being shut down, and the timer not set, nothing is to be woken. -/
theorem recovers_of_wraps {e : Event Transceiver.Event} (last : ℕ) (hwraps : Wraps k)
    (hsetting : settingOf p.connector = k)
    (hstate : p.connector.connectionHandler.state = .eReady ∨
      p.connector.connectionHandler.state = .eShutdown)
    (hparse : ∀ f ∈ p.connector.stack.head?, ∀ session, f ≠ .parse session) :
    Recovers last p e ↔ Continues p e := by
  have hauto : p.connector.auto = k.auto := congrArg Setting.auto hsetting
  refine ⟨fun he ↦ ?_, .continues⟩
  cases he with
  | continues he => exact he
  | @parsed session _ _ _ hstack => exact absurd rfl (hparse _ (by simp [hstack]) session)
  | wakes hloop he =>
    cases he with
    | timerExpires hnot => simp [hauto, hwraps.waiting] at hnot
    | timerHandler hnot => simp [hauto, hwraps.expired] at hnot
    | resolved hnot | connectDone hnot => simp [hnot] at hstate

/-- The loop that drops the transceivers leaves each in the run it was in. -/
def Dropping (ids : List ℕ) (runs : ℕ → ℕ) (rest : List ℕ) (pool : List Transceiver) : Prop :=
  Visits (fun i t ↦ t.runs = runs i) (fun i t ↦ t.state = .eEnd ∧ t.runs = runs i) ids rest pool ∧
    ∀ t ∈ pool, t.Answerable

theorem bodyLoop_dropAll {below : List Frame} :
    BodyLoop (.drop k.session) below
      (fun rest p ↦ Falls k p.connector ∧ Dropping k.transceivers runs rest p.pool) fun p ↦
        (∃ c, p.connector = c.disconnected.exit k.session .eAmqpError ∧ Falls k c ∧
          c.stack = below) ∧ Dropped k.transceivers runs p.pool := by
  refine bodyLoop_drop.and (fun p rest i others hfalls hdropping hremaining ↦ ?_)
    fun p rest hfalls hdropping hremaining ↦ ?_
  · refine ⟨hdropping.1.operate hfalls.transceivers hremaining fun t ht ↦ ?_,
      answerable_body hdropping.2 _ i⟩
    obtain ⟨hend, hsame⟩ := t.state_drop
    exact ⟨hend, hsame.trans (ht.elim id And.right)⟩
  · exact ⟨hdropping.1.done hfalls.transceivers hremaining, hdropping.2⟩

/-- The transceivers are dropped, and the wrapper sets its timer. -/
theorem Shuts.within_offline (h : Shuts k false c) (hwraps : Wraps k) (q : Program Transceiver)
    (hruns : ∀ i ∈ k.transceivers, Holds i (fun t ↦ t.runs = runs i) q.pool)
    (hanswerable : ∀ t ∈ q.pool, t.Answerable) :
    (machine Transceiver).Within (Recovers last)
      (fun q ↦ ∃ v : ConnectionHandler, v.state = .eNotConnected ∧
        Offline (k.without k.session true 0) runs (.shutdownCb k.session :: c.stack) v q)
      (2 * k.transceivers.length + 1) { q with connector := c.finish k.session } := by
  obtain ⟨c₁, hfinish, hfalls, hstack⟩ := h.finish
  let r : Program Transceiver := { q with
    connector := (c₁.push (.shutdownCb k.session)).push
      (.forEach (.drop k.session) k.transceivers) }
  have hdropping : Dropping k.transceivers runs k.transceivers r.pool :=
    ⟨fun i hi ↦ Or.inl ⟨hi, hruns i hi⟩, hanswerable⟩
  have hdrops := bodyLoop_dropAll.within (p := r) (fun _ _ ↦ recovers_of_inBody last fun _ ↦ rfl)
    rfl ⟨hfalls.of_eq rfl rfl rfl rfl, hdropping⟩
  rw [hfinish]
  refine hdrops.imp fun r hr ↦ ?_
  obtain ⟨⟨c₂, hexit, hfalls₂, hstack₂⟩, hdropped⟩ := hr
  refine ⟨c₂.connectionHandler, hfalls₂.state, ?_⟩
  have hlost : Offline { k.without k.session true 0 with auto := k.auto } runs
      (.shutdownCb k.session :: c.stack) c₂.connectionHandler
      { r with connector := c₂.disconnected } := by
    constructor
    case setting =>
      rw [Setting.without, ← hfalls₂.setting]
      rfl
    case lt => exact hfalls₂.lt
    case posted => exact hfalls₂.posted
    case exiting => exact hfalls₂.exiting
    case startedCb => exact fun hne ↦ absurd hfalls₂.state hne
    case stack => exact hstack₂.trans (congrArg (List.cons _) hstack)
    case handler => rfl
    case down => simp [ConnectionHandler.connected, hfalls₂.state]
    case dropped => exact hdropped
  have hauto : { k.auto with rerun := true, waiting := true } =
      (k.without k.session true 0).auto := by
    simp [Setting.without, hwraps.expired]
  have hoffline := hlost.exit hwraps hauto .eAmqpError (by simp)
  rw [← hexit] at hoffline
  exact hoffline

/-- The loop that starts the transceivers begins a run of each on the connection of the session. -/
def Resuming (ids : List ℕ) (runs : ℕ → ℕ) (session : ℕ) (rest : List ℕ)
    (pool : List Transceiver) : Prop :=
  Visits (fun i t ↦ t.state = .eEnd ∧ t.runs = runs i)
    (fun i t ↦ t.InRun (runs i + 1) (some session) ∧ t.state ≠ .eEnd) ids rest pool

/-- Every transceiver in the list is in the run that has been begun on the connection. -/
def Resumed (ids : List ℕ) (runs : ℕ → ℕ) (session : ℕ) (pool : List Transceiver) : Prop :=
  ∀ i ∈ ids, Holds i (Transceiver.InRun (runs i + 1) (some session)) pool

theorem bodyLoop_runAll :
    BodyLoop .start []
      (fun rest p ↦ Starts (k.restored session) rest p ∧
        Resuming k.transceivers runs session rest p.pool) fun p ↦
        (Loops (k.restored session) (RunStage k.transceivers) p ∧
          p.steps ≤ k.transceivers.length) ∧ Resumed k.transceivers runs session p.pool := by
  have hbegins := @bodyLoop_begins (k.restored session)
    (fun i t ↦ t.state = .eEnd ∧ t.runs = runs i)
    (fun i t ↦ t.InRun (runs i + 1) (some session) ∧ t.state ≠ .eEnd)
    (fun i t ht hend ↦ ht.2 ▸ Transceiver.inRun_start hend session)
    (fun i t ht hnot ↦ absurd ht.1 hnot) fun i t ht ↦ ht.2
  exact hbegins.imp fun p hp ↦ ⟨hp.1, fun i hi t hget ↦ (hp.2 i hi t hget).1⟩

/-- Answers leave the transceivers in their runs. -/
theorem waitLoop_runAll (ids : List ℕ) :
    WaitLoop ids (fun f pool ↦ RunStage ids f pool ∧ Resumed ids runs session pool) fun pool ↦
      (∀ i ∈ ids, Holds i Transceiver.SetUp pool) ∧ Resumed ids runs session pool := by
  refine waitLoop_run.and fun p i t t' event hresumed hget ht hanswer hstep j hj ↦ ?_
  exact (hresumed j hj).update hget fun hrun ↦ hrun.step ht.attended.well hanswer hstep

/-! ### The recovery as a whole -/

/-- The connection of the session is up, the application is running again, and every transceiver
has been set up in a new run. -/
structure Restored (k : Setting) (runs : ℕ → ℕ) (session : ℕ) (p : Program Transceiver) : Prop where
  serves : Serves (k.restored session) p.connector
  posted : p.connector.posted = []
  stack : p.connector.stack = []
  setUp : ∀ i ∈ k.transceivers, Holds i Transceiver.SetUp p.pool
  resumed : Resumed k.transceivers runs session p.pool

/-- `run()` starts the transceivers again, and returns. -/
theorem Restarts.within (h : Restarts k runs session p) (hwraps : Wraps k) :
    (machine Transceiver).Within (Recovers last) (Restored k runs session)
      (33 * k.transceivers.length + 2) p := by
  have hresuming : Resuming k.transceivers runs session k.transceivers p.pool :=
    fun i hi ↦ Or.inl ⟨hi, h.dropped.ended i hi⟩
  have hstarted := bodyLoop_runAll.within (fun _ _ ↦ recovers_of_inBody last fun _ ↦ rfl) h.stack
    ⟨h.starts, hresuming⟩
  refine (hstarted.bind (n := 31 * k.transceivers.length + 1) fun q hq ↦ ?_).mono (by omega)
  obtain ⟨⟨hloops, hsteps⟩, hresumed⟩ := hq
  have hboth : Loops (k.restored session) (fun f pool ↦ RunStage k.transceivers f pool ∧
      Resumed k.transceivers runs session pool) q := by
    obtain ⟨n, f, hstack, hstage⟩ := hloops.stack
    exact ⟨hloops.serves, hloops.answerable, hloops.posted, n, f, hstack, hstage, hresumed⟩
  have hload : q.load ≤ 31 * k.transceivers.length := by
    have hle : q.load ≤ 30 * k.transceivers.length + k.transceivers.length :=
      hloops.load_le hsteps
    omega
  refine (hboth.within (waitLoop_runAll _) (fun r e hr ↦ ?_) hload).imp fun r hr ↦ ?_
  · refine recovers_of_wraps last (hwraps.restored session) hr.serves.setting
      (Or.inl hr.serves.state) fun g hg i hparse ↦ ?_
    obtain ⟨n, f, hstack, ⟨rest, rfl, -⟩, -⟩ := hr.stack
    subst hparse
    rw [hstack] at hg
    cases n <;> cases hg
  · obtain ⟨hserves, hposted, hstack, hsetUp, hresumed'⟩ := hr
    exact ⟨hserves, hposted, hstack, hsetUp, hresumed'⟩

/-- Once the wrapper has set its timer, the connection is restored. -/
theorem Offline.within_restored {below : List Frame}
    (h : Offline (k.without session true 0) runs (.shutdownCb session :: below) v p)
    (hbelow : below = [] ∨ below = [.parse session]) (hwraps : Wraps k)
    (hstate : v.state = .eNotConnected) (hlast : last ≤ session + 1 + n) :
    (machine Transceiver).Within (Recovers last)
      (fun q ↦ ∃ s, session < s ∧ s ≤ session + 1 + n ∧ Restored k runs s q)
      (33 * k.transceivers.length + 5 * n + 8) p := by
  have hparsed : (machine Transceiver).Within (Recovers last)
      (Offline (k.without session true 0) runs [] v.endShutdownCb) 2 p := by
    refine h.returns.bind (n := 1) fun q hq ↦ ?_
    rcases hbelow with rfl | rfl
    · exact .now hq 1
    · exact hq.parses
  have hrestarts := hparsed.bind fun q hq ↦ hq.within_restarts hwraps hstate hlast
  refine (hrestarts.bind (n := 33 * k.transceivers.length + 2) fun q hq ↦ ?_).mono (by omega)
  obtain ⟨s, hless, hle, hrestarts⟩ := hq
  exact (hrestarts.within hwraps).imp fun r hr ↦ ⟨s, hless, hle, hr⟩

/-- An error of AMQP-CPP makes the wrapper set its timer, with the transceivers dropped. -/
theorem exists_offline_of_onError (h : (machine Transceiver).ReachedBy Faithful p)
    (message : String) (last : ℕ)
    (hstack : p.connector.stack = [] ∨ p.connector.stack = [.parse p.connector.session])
    (hposted : p.connector.posted = []) (hready : p.connector.connectionHandlerReady = true)
    (hstate : p.connector.connectionHandler.state = .eReady)
    (hwraps : Wraps (settingOf p.connector)) :
    ∃ p', p.step (.connector (.handler p.connector.session (.onError message))) = some p' ∧
      (machine Transceiver).Within (Recovers last)
        (fun q ↦ ∃ v : ConnectionHandler, v.state = .eNotConnected ∧
          Offline ((settingOf p.connector).without p.connector.session true 0) p.runsOf
            (.shutdownCb p.connector.session :: p.connector.stack) v q)
        (2 * p.connector.transceivers.length + 4) p' := by
  have hpausing : p.pausing = true := by
    unfold pausing
    rcases hstack with hs | hs <;> rw [hs]
  have hentered : p.entered = p := by
    unfold entered
    rcases hstack with hs | hs <;> rw [hs]
  obtain ⟨c, v, hstep, hbelow, hshuts, hhandler, hdown, hsteady, hreads⟩ :=
    exists_shuts_of_onError h.reachable message hpausing hposted hready hstate
  rw [hentered] at hbelow
  have hclosed : (machine Transceiver).Within (Recovers last)
      ((machine Transceiver).Within (Recovers last) (fun q ↦ ∃ v : ConnectionHandler,
        v.state = .eNotConnected ∧
          Offline ((settingOf p.connector).without p.connector.session true 0) p.runsOf
            (.shutdownCb p.connector.session :: p.connector.stack) v q)
        (2 * p.connector.transceivers.length + 1)) 3
      { p with connector := c.handle p.connector.session (v, .shutdownLoop) } := by
    refine within_handle (c := c) (v := v) (k := settingOf p.connector) p hshuts hhandler hdown
      hsteady hreads (fun q e hq ↦ ?_) fun q c' hshuts' hstack' hpool ↦ ?_
    · refine recovers_of_wraps last hwraps hq.setting (Or.inr hq.state) fun g hg i hparse ↦ ?_
      simp [hq.stack, hparse] at hg
    · rw [← hbelow, ← hstack']
      refine hshuts'.within_offline hwraps q (fun i hi t hget ↦ ?_) ?_
      · rw [hpool] at hget
        simp [runsOf, hget]
      · rw [hpool]
        exact answerable_of_reachedBy h
  exact ⟨_, hstep, (hclosed.bind fun q hq ↦ hq).mono (by omega)⟩

/-- After an error of AMQP-CPP, and however many attempts to connect fail before the session `last`,
the wrapper restores the connection and starts every transceiver on it again, within thirty-five
events for each transceiver, five for each attempt that may fail, and twelve more. -/
theorem recovers_of_reachedBy (h : (machine Transceiver).ReachedBy Faithful p) (message : String)
    (last : ℕ)
    (hstack : p.connector.stack = [] ∨ p.connector.stack = [.parse p.connector.session])
    (hposted : p.connector.posted = []) (hready : p.connector.connectionHandlerReady = true)
    (hstate : p.connector.connectionHandler.state = .eReady)
    (hwraps : Wraps (settingOf p.connector)) :
    ∃ p', p.step (.connector (.handler p.connector.session (.onError message))) = some p' ∧
      (machine Transceiver).Within (Recovers last)
        (fun q ↦ ∃ session, p.connector.session < session ∧
          session ≤ max (p.connector.session + 1) last ∧
          Restored (settingOf p.connector) p.runsOf session q)
        (35 * p.connector.transceivers.length + 5 * (last - (p.connector.session + 1)) + 12)
        p' := by
  obtain ⟨p', hstep, hoffline⟩ :=
    exists_offline_of_onError h message last hstack hposted hready hstate hwraps
  obtain ⟨n, hn⟩ : ∃ n, n = last - (p.connector.session + 1) := ⟨_, rfl⟩
  have hrestored := hoffline.bind fun q hq ↦ by
    obtain ⟨v, hstate', hq⟩ := hq
    exact hq.within_restored (n := n) hstack hwraps hstate' (by omega)
  refine ⟨p', hstep, (hrestored.imp fun q hq ↦ ?_).mono ?_⟩
  · obtain ⟨s, hless, hle, hrestored⟩ := hq
    exact ⟨s, hless, by omega, hrestored⟩
  · simp only [settingOf]
    omega

/-- A sender is made, the wrapper establishes the connection, the sender is opened, and data of the
broker is being parsed. -/
def reconnecting : List (Event Transceiver.Event) :=
  [.transceiver "exchange" "" "route" false, .connector (.autoStart false), .resume,
    .connector (.handler 0 (.resolved none)), .connector (.handler 0 (.connectDone none)), .open 0,
    .call 0 (.callback 0 .createChannelReady), .call 0 (.callback 0 .createExchangeSuccess),
    .resume, .connector (.handler 0 (.read none 8 8))]

theorem meets_reconnecting :
    (machine Transceiver).Meets Faithful (initial Transceiver) reconnecting := by
  rw [← List.take_append_drop 6 reconnecting]
  refine Machine.meets_append ?_ rfl ?_
  · refine Machine.meets_of_forall_mem fun e he p ↦ faithful_of_not_call fun i event h ↦ ?_
    subst h
    simp [reconnecting] at he
  · refine Machine.meets_cons (faithful_call rfl ?_) rfl ?_
    · exact Transceiver.faithful_of_prompt (by decide) (by simp)
    refine Machine.meets_cons (faithful_call rfl ?_) rfl ?_
    · exact Transceiver.faithful_of_prompt (by decide) (by simp)
    refine Machine.meets_cons (faithful_of_not_call (by simp)) rfl ?_
    exact Machine.meets_cons (faithful_of_not_call (by simp)) rfl trivial

/-- An error is reported of the data that is being parsed. Though the next attempt to connect may
fail, the sender is set up again within fifty-two events. -/
theorem recovers_reconnecting :
    ∃ p p', (machine Transceiver).run (initial Transceiver) reconnecting = some p ∧
      p.connector.stack = [.parse 0] ∧
      p.step (.connector (.handler 0 (.onError "frame error"))) = some p' ∧
      (machine Transceiver).Within (Recovers 2)
        (fun q ↦ ∃ session, 0 < session ∧ session ≤ 2 ∧
          Restored (settingOf p.connector) p.runsOf session q) 52 p' := by
  obtain ⟨p', hstep, hwithin⟩ := recovers_of_reachedBy
    ⟨_, reconnecting, rfl, rfl, meets_reconnecting⟩ "frame error" 2 (Or.inr rfl) rfl rfl rfl
    ⟨rfl, rfl, rfl, rfl, rfl, rfl, rfl⟩
  exact ⟨_, p', rfl, rfl, hstep, hwithin⟩

end Program

end AmqpAsio
