import AmqpAsio.ConnectionHandler.Execution
import AmqpAsio.Transceiver.Basic

/-!
# The data of a connector

`amqp::Connector` keeps a list of transceivers and one `ConnectionHandler`, and
`amqp::AutoReconnect` wraps a connector by installing itself as its exit callback. The two call each
other and the application, `ConnectionHandler` calls the connector, and several methods run the
event loop before they return. So a connector is modelled together with its wrapper, the handlers
queued on the `io_service`, and the calls that are suspended, with what each of them still has to
do.

Every accepted `async_start()` makes a new `ConnectionHandler`, and with it begins a session; the
handler of a session is the element of `handlers` with its number, the last one being the one
`m_connectionHandler` points to. A handler that has been destroyed stays in the list as its
destructor has left it. To destroy it while a method of it is suspended crashes the program, and so
does taking the transceiver out of the list that a suspended loop stands on.

The address of the broker and the `io_service` itself are left out, since nothing depends on them. A
`work` object is represented by whether there is one.
-/

set_option autoImplicit false
set_option relaxedAutoImplicit false

namespace AmqpAsio

namespace Connector

/-- `Connector::ExitCode`. -/
inductive ExitCode
  | eNormal
  | eBrokerConnectError
  | eAmqpError
  deriving DecidableEq, Repr

/-- What an `ExitCallback` calls: a function of the application, or `AutoReconnect::restart`. -/
inductive ExitCallback
  | application (function : ℕ)
  | restart
  deriving DecidableEq, Repr

/-- What a `StartedCallback` of the connector calls: the application, or
`AutoReconnect::started`. -/
inductive StartedCallback
  | application
  | started
  deriving DecidableEq, Repr

/-- A loop over `m_transceivers`: the one of `Connector::stop`, the one of the lambda it posts, the
one of `Connector::onShutdown`, and the two of `Connector::run`. The first two carry the session in
which `stop()` was called, the third the session that has ended. -/
inductive Loop
  | stop (issued : ℕ)
  | stopHandler (issued : ℕ)
  | drop (session : ℕ)
  | start
  | ready
  deriving DecidableEq, Repr

/-- The loop waits for its transceivers, and has no other body. -/
def Loop.waits : Loop → Bool
  | .stopHandler _ | .ready => true
  | .stop _ | .drop _ | .start => false

/-- A suspended call, with what it still has to do when what it called returns: foreign code
(`client`), `parse` and the end of `case eShutdown` and of `case eNotConnected` in the handler of a
session, a loop over the transceivers that are left of it, the loops of `Connector::open`, `close`
and `start` (the last one a do-while, with whether its body has run), `AutoReconnect::started` after
`m_startedCallback`, `AutoReconnect::restart` calling itself and after `m_backupExitCallback`, and
`AutoReconnect::start` and `stop` after their calls of the connector. -/
inductive Frame
  | client
  | parse (session : ℕ)
  | shutdownLoop (session : ℕ)
  | shutdownCb (session : ℕ)
  | forEach (loop : Loop) (rest : List ℕ)
  | openLoop (transceiver : ℕ)
  | closeLoop (transceiver : ℕ)
  | startLoop (ran : Bool)
  | started
  | restart (code : ExitCode)
  | backup
  | autoStart
  | autoStop
  deriving DecidableEq, Repr

/-- The frame is of a method of the handler of a session. -/
def Frame.isOf (session : ℕ) : Frame → Bool
  | .parse s | .shutdownLoop s | .shutdownCb s => s = session
  | _ => false

/-- What is recorded of a run: `m_exitCb` is called for a session; the handler posted by a `stop()`
of the session `issued` ends the present session; a function of the application is called as an exit
callback; the application installs an exit callback; `AutoReconnect::start` is accepted; it returns;
and `AutoReconnect::stop` is called. -/
inductive Observation
  | exit (session : ℕ) (code : ExitCode)
  | acted (issued session : ℕ)
  | called (function : ℕ) (code : ExitCode)
  | installed (function : Option ℕ)
  | startAccepted
  | startReturned
  | stopCalled
  deriving DecidableEq, Repr

end Connector

open Connector in
/-- `amqp::AutoReconnect`. `m_timer` is represented by whether its wait is pending and by the number
of its handlers that are queued, the timer having expired. -/
structure AutoReconnect where
  started : Bool
  needStop : Bool
  rerun : Bool
  backupExitCallback : Option ExitCallback
  startedCallback : Bool
  waiting : Bool
  expired : ℕ
  deriving DecidableEq, Repr

open Connector in
/-- `amqp::Connector`. The first group of fields are the members of the class, transceivers being
represented by their numbers. The second is what surrounds it: its wrapper, the sessions in which
the handlers posted by `stop()` were issued, the suspended calls, the topmost first, and what has
been recorded, oldest first. -/
structure Connector where
  transceivers : List ℕ
  sentinel : Bool
  amqpConnection : Option ConnectionId
  handlers : List ConnectionHandler
  exiting : Bool
  connectionHandlerReady : Bool
  startedCb : Option StartedCallback
  exitCb : Option ExitCallback
  auto : AutoReconnect
  posted : List ℕ
  stack : List Frame
  log : List Observation
  deriving DecidableEq, Repr

/-- `AutoReconnect::AutoReconnect`. -/
def AutoReconnect.new : AutoReconnect where
  started := false
  needStop := false
  rerun := false
  backupExitCallback := none
  startedCallback := false
  waiting := false
  expired := 0

namespace Connector

/-- `Connector::Connector`. -/
def new : Connector where
  transceivers := []
  sentinel := false
  amqpConnection := none
  handlers := []
  exiting := false
  connectionHandlerReady := false
  startedCb := none
  exitCb := none
  auto := AutoReconnect.new
  posted := []
  stack := []
  log := []

variable (c : Connector)

/-- The present session. -/
def session : ℕ := c.handlers.length - 1

/-- The handler of a session. -/
def handler (session : ℕ) : ConnectionHandler := c.handlers.getD session ConnectionHandler.new

/-- `*m_connectionHandler`. It is only used while there is a session. -/
def connectionHandler : ConnectionHandler := c.handler c.session

/-- The handler of a session has changed. -/
def setHandler (session : ℕ) (h : ConnectionHandler) : Connector :=
  { c with handlers := c.handlers.set session h }

/-- A call is suspended. -/
def push (f : Frame) : Connector := { c with stack := f :: c.stack }

/-- Something is recorded. -/
def record (o : Observation) : Connector := { c with log := c.log ++ [o] }

/-- The transceivers still to come in a loop, without those removed from `m_transceivers`. -/
def remaining (rest : List ℕ) : List ℕ := rest.filter (· ∈ c.transceivers)

/-- The transceiver that a loop stands on while it is suspended. A loop that waits does so at the
first of those that are left. The others are suspended in their body, whose transceiver is the one
before those that are left: the list only grows in front. -/
def standsOn (loop : Loop) (rest : List ℕ) : Option ℕ :=
  if loop.waits then (c.remaining rest).head?
  else (c.transceivers.take (c.transceivers.length - (c.remaining rest).length)).getLast?

end Connector

end AmqpAsio
