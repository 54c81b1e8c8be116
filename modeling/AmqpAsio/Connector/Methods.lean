import AmqpAsio.Connector.Basic

/-!
# The methods of a connector and of its wrapper

Each method up to the first thing it calls that may run other code: the application, the event loop,
or an operation of a transceiver. What the method does after that is left on the stack as a frame,
and `Frame.goOn` and `Loop.after` say what a frame does when it is reached again. So that methods
need not call each other in a circle, they are defined in the order `restart`, `stop`,
`onConnected`, `onShutdown`, and the handler's methods come after what they call.
-/

set_option autoImplicit false
set_option relaxedAutoImplicit false

namespace AmqpAsio

namespace Connector

variable (c : Connector)

/-! ### The exit callback -/

/-- `m_connector->onExit(m_backupExitCallback);` and the call of `m_backupExitCallback`. -/
def restore (code : ExitCode) : Connector :=
  let c := { c with exitCb := c.auto.backupExitCallback }
  match c.auto.backupExitCallback with
  | none => c
  | some (.application f) => ((c.record (.called f code)).push .backup).push .client
  | some .restart => (c.push .backup).push (.restart code)

/-- `AutoReconnect::restart`. Setting the timer cancels a wait that is pending. -/
def restart (code : ExitCode) : Connector :=
  if !c.auto.started then c.restore code
  else
    match code with
    | .eNormal => { c with auto := { c.auto with started := false } }.restore code
    | .eBrokerConnectError => { c with auto := { c.auto with rerun := true, waiting := true } }
    | .eAmqpError => { c with auto := { c.auto with rerun := true, waiting := true } }

/-- `if (m_exitCb) m_exitCb(code);`, for a session that has ended. -/
def exit (session : ℕ) (code : ExitCode) : Connector :=
  match c.exitCb with
  | none => c
  | some (.application f) =>
    ((c.record (.exit session code)).record (.called f code)).push .client
  | some .restart => (c.record (.exit session code)).restart code

/-- `m_connectionHandlerReady = false; m_amqpConnection.reset(); m_sentinel.reset();`. -/
def disconnected : Connector :=
  { c with connectionHandlerReady := false, amqpConnection := none, sentinel := false }

/-! ### Stopping and running -/

/-- `Connector::stop`, up to its loop. -/
def stop : Connector :=
  if !c.connectionHandlerReady then c
  else c.push (.forEach (.stop c.session) c.transceivers)

/-- `Connector::run`, up to its first loop. -/
def run : Connector :=
  if !c.connectionHandlerReady then c
  else { c with sentinel := true }.push (.forEach .start c.transceivers)

/-! ### What the handler calls -/

/-- The rest of `AutoReconnect::started`, after `m_startedCallback`. -/
def endStarted : Connector :=
  let c := { c with auto := { c.auto with startedCallback := false } }
  if c.auto.rerun then { c with auto := { c.auto with rerun := false } }.run else c

/-- `AutoReconnect::started`. -/
def started : Connector :=
  if c.auto.needStop then { c with auto := { c.auto with needStop := false } }.stop
  else if c.auto.startedCallback then (c.push .started).push .client
  else c.endStarted

/-- `if (m_startedCb) m_startedCb();`. -/
def callStartedCb : Connector :=
  match c.startedCb with
  | none => c
  | some .application => c.push .client
  | some .started => c.started

/-- The size of the protocol header, with which an `AMQP::Connection` begins. -/
def protocolHeader : ℕ := 8

/-- `Connector::onConnected`. The new `AMQP::Connection` sends the protocol header through the
handler. -/
def onConnected : Connector :=
  { c with
    connectionHandlerReady := true
    amqpConnection := some c.session
    handlers := c.handlers.set c.session (c.connectionHandler.onData protocolHeader).1
    sentinel := false }.callStartedCb

/-- `Connector::onShutdown`, called by the handler of a session. -/
def onShutdown (session : ℕ) : Connector :=
  if c.exiting then c.disconnected.exit session .eNormal
  else if !c.connectionHandlerReady then
    { c with amqpConnection := none, sentinel := false }.exit session .eBrokerConnectError
  else if c.connectionHandler.amqpError then c.push (.forEach (.drop session) c.transceivers)
  else c.stop

/-- The end of `case eShutdown` in the handler of a session, which goes on to `m_shutdownCb`. -/
def finish (session : ℕ) : Connector :=
  ((c.setHandler session (c.handler session).endShutdown.1).push (.shutdownCb session)).onShutdown
    session

/-- A method of the handler of a session is called. A loop with nothing to wait for ends at once. -/
def handle (session : ℕ) (r : ConnectionHandler × ConnectionHandler.Continuation) : Connector :=
  let c := c.setHandler session r.1
  match r.2 with
  | .done => c
  | .connectedCb => c.onConnected
  | .parse => c.push (.parse session)
  | .shutdownLoop => if r.1.waiting then c.push (.shutdownLoop session) else c.finish session
  | .shutdownCb _ => (c.push (.shutdownCb session)).onShutdown session

/-! ### Starting -/

/-- `Connector::async_start`. At its end the previous handler is destroyed, which stops it. -/
def asyncStart (callback : Option StartedCallback) : Connector :=
  if c.connectionHandlerReady then c
  else
    let next := { c with
      exiting := false
      startedCb := callback
      sentinel := true
      handlers := c.handlers ++ [(ConnectionHandler.new.start true).1] }
    match c.handlers.getLast? with
    | none => next
    | some old => next.handle c.session old.stop

/-- `Connector::start`, up to its loop. -/
def start : Connector :=
  if c.connectionHandlerReady then c else (c.push (.startLoop false)).asyncStart none

/-- `AutoReconnect::start`, up to the return of `async_start`. -/
def autoStart (callback : Bool) : Connector :=
  if c.auto.started then c
  else
    let auto := { c.auto with
      needStop := false
      rerun := false
      backupExitCallback := c.exitCb
      startedCallback := callback }
    (({ c with auto := auto, exitCb := some .restart }.record .startAccepted).push
      .autoStart).asyncStart (some .started)

/-- `AutoReconnect::stop`, up to the return of `Connector::stop`. -/
def autoStop : Connector :=
  let c := c.record .stopCalled
  if !c.auto.started then c
  else
    let c := { c with auto := { c.auto with waiting := false } }
    if c.connectionHandlerReady then (c.push .autoStop).stop
    else { c with auto := { c.auto with needStop := true, started := false } }

/-! ### Going on -/

/-- The lambda posted by a `stop()`, after its loop. -/
def stopHandler (issued : ℕ) : Connector :=
  if c.connectionHandler.stopped then
    if c.connectionHandlerReady then
      (c.record (.acted issued c.session)).disconnected.exit c.session .eNormal
    else c
  else
    { c.record (.acted issued c.session) with exiting := true }.handle c.session
      c.connectionHandler.stop

/-- What comes after a loop over the transceivers. -/
def Loop.after : Loop → Connector → Connector
  | .stop issued, c => { c with posted := c.posted ++ [issued] }
  | .stopHandler issued, c => c.stopHandler issued
  | .drop session, c => c.disconnected.exit session .eAmqpError
  | .start, c => c.push (.forEach .ready c.transceivers)
  | .ready, c => c

/-- What a suspended call does when what it called returns. `parse` hands back a number, and the
loops that look at a transceiver are left to the module that has the transceivers; a loop that still
waits does not go on. -/
def Frame.goOn : Frame → Connector → Option Connector
  | .client, c => some c
  | .shutdownLoop session, c =>
    if (c.handler session).waiting then none else some (c.finish session)
  | .shutdownCb session, c => some (c.setHandler session (c.handler session).endShutdownCb)
  | .startLoop ran, c =>
    if ran && (c.connectionHandler.stopped || c.connectionHandler.ready) then some c else none
  | .started, c => some c.endStarted
  | .restart code, c => some (c.restart code)
  | .backup, c => some { c with auto := { c.auto with backupExitCallback := none } }
  | .autoStart, c =>
    some ({ c with auto := { c.auto with started := true } }.record .startReturned)
  | .autoStop, c => some { c with auto := { c.auto with started := false } }
  | .parse _, _ | .forEach _ _, _ | .openLoop _, _ | .closeLoop _, _ => none

/-- What the application calls, and what the event loop runs, other than what depends on a
transceiver. The application installs only functions of its own. The handler of a session is called
by AMQP-CPP and by the completion of its operations; the handlers posted by `stop()` are run in any
order. -/
inductive Event
  | remove (transceiver : ℕ)
  | run
  | asyncStart (callback : Bool)
  | start
  | stop
  | onExit (function : Option ℕ)
  | autoStart (callback : Bool)
  | autoStop
  | handler (session : ℕ) (e : ConnectionHandler.Event)
  | posted (k : ℕ)
  | timerExpires
  | timerHandler
  deriving DecidableEq, Repr

/-- `async_start()` would destroy a handler a method of which is suspended. -/
def destroysSuspended : Bool := !c.connectionHandlerReady && c.stack.any (·.isOf c.session)

/-- The event crashes the program: `remove()` erases an element that is not in the list, or that a
suspended loop stands on, or a handler is destroyed while a method of it is suspended. -/
def crashes : Event → Bool
  | .remove transceiver =>
    transceiver ∉ c.transceivers || c.stack.any fun
      | .forEach loop rest => c.standsOn loop rest = some transceiver
      | _ => false
  | .asyncStart _ | .start => c.destroysSuspended
  | .autoStart _ => !c.auto.started && c.destroysSuspended
  | .timerHandler => c.auto.expired ≠ 0 && c.destroysSuspended
  | _ => false

/-- What an event does that does not crash the program. -/
def occur : Event → Option Connector
  | .remove transceiver => some { c with transceivers := c.transceivers.erase transceiver }
  | .run => some c.run
  | .asyncStart callback => some (c.asyncStart (if callback then some .application else none))
  | .start => some c.start
  | .stop => some c.stop
  | .onExit f => some { c.record (.installed f) with exitCb := f.map .application }
  | .autoStart callback => some (c.autoStart callback)
  | .autoStop => some c.autoStop
  | .handler session e =>
    if session < c.handlers.length ∧ e ≠ .stop then
      ((c.handler session).method e).map (c.handle session)
    else none
  | .posted k =>
    c.posted[k]?.map fun issued ↦
      { c with posted := c.posted.eraseIdx k }.push
        (.forEach (.stopHandler issued) c.transceivers)
  | .timerExpires =>
    if c.auto.waiting then
      some { c with auto := { c.auto with waiting := false, expired := c.auto.expired + 1 } }
    else none
  | .timerHandler =>
    if c.auto.expired = 0 then none
    else
      some ({ c with auto := { c.auto with expired := c.auto.expired - 1 } }.asyncStart
        (some .started))

end Connector

end AmqpAsio
