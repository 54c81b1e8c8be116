import Mathlib.Data.List.Basic

/-!
# The handler of a connection

`amqp::ConnectionHandler` opens a TCP connection and carries data between it and AMQP-CPP. Its
methods call `StateMachine()` last, and `StateMachine()` may go on to run the event loop or to call
back into the application, where anything may happen. So a method is a function that returns the
handler as far as the method itself takes it, together with how it goes on (`Continuation`); what
comes after is added by the modules that know the callbacks.

The socket, the host and the resolved address are left out, since nothing depends on them but the
outcome of the asynchronous operations, which is an argument of their completion. Buffers are
represented by their sizes. The numbers of outstanding operations say which completions can come.
-/

set_option autoImplicit false
set_option relaxedAutoImplicit false

namespace AmqpAsio

namespace ConnectionHandler

/-- `ConnectionHandler::State`. -/
inductive State
  | eNotConnected
  | eResolving
  | eConnecting
  | eReceiverInit
  | eReady
  | eShutdown
  deriving DecidableEq, Repr

/-- How a method goes on once the handler is in its new state: it returns; it calls
`m_connectedCb`; it enters the loop of `case eShutdown`, which runs the event loop while a read or a
write is outstanding; it calls `m_shutdownCb`; or it calls `AMQP::Connection::parse`. -/
inductive Continuation
  | done
  | connectedCb
  | shutdownLoop
  | shutdownCb (message : String)
  | parse
  deriving DecidableEq, Repr

end ConnectionHandler

open ConnectionHandler in
/-- `amqp::ConnectionHandler`. The first group of fields are the members of the class, a callback or
a pointer being represented by whether there is one. The second are the asynchronous operations
outstanding: resolutions, connections, reads and writes. -/
structure ConnectionHandler where
  state : State
  connectedCb : Bool
  connection : Bool
  inBuf : ℕ
  outBufs : List ℕ
  lastError : String
  amqpError : Bool
  readReq : Bool
  writeReq : Bool
  sentinel : Bool
  resolves : ℕ
  connects : ℕ
  reads : ℕ
  writes : ℕ
  deriving DecidableEq, Repr

namespace ConnectionHandler

/-- `ConnectionHandler::ConnectionHandler`. -/
def new : ConnectionHandler where
  state := .eNotConnected
  connectedCb := false
  connection := false
  inBuf := 0
  outBufs := []
  lastError := ""
  amqpError := false
  readReq := false
  writeReq := false
  sentinel := false
  resolves := 0
  connects := 0
  reads := 0
  writes := 0

variable (h : ConnectionHandler)

/-- `ConnectionHandler::ready`. -/
def ready : Bool := h.state = .eReceiverInit || h.state = .eReady

/-- `ConnectionHandler::stopped`. -/
def stopped : Bool := h.state = .eNotConnected

/-- `ConnectionHandler::connected`, that is `m_state > eConnecting`. -/
def connected : Bool := h.state = .eReceiverInit || h.state = .eReady || h.state = .eShutdown

/-- `m_readReq || m_writeReq`. -/
def waiting : Bool := h.readReq || h.writeReq

/-- `m_readReq = true; m_socket.async_read_some(…)`. -/
def asyncRead : ConnectionHandler := { h with readReq := true, reads := h.reads + 1 }

/-- `m_writeReq = true; boost::asio::async_write(…)`. -/
def asyncWrite : ConnectionHandler := { h with writeReq := true, writes := h.writes + 1 }

/-- `ConnectionHandler::StateMachine`. -/
def stateMachine : ConnectionHandler × Continuation :=
  match h.state with
  | .eResolving => ({ h with sentinel := true, resolves := h.resolves + 1 }, .done)
  | .eConnecting => ({ h with connects := h.connects + 1 }, .done)
  | .eReceiverInit => (h, if h.connectedCb then .connectedCb else .done)
  | .eReady => (h.asyncRead, .done)
  | .eShutdown => (h, .shutdownLoop)
  | .eNotConnected => (h, .shutdownCb h.lastError)

/-- `m_state = s; StateMachine();`. -/
def goto (s : State) : ConnectionHandler × Continuation := { h with state := s }.stateMachine

/-- The rest of `case eShutdown`, after its loop. -/
def endShutdown : ConnectionHandler × Continuation :=
  { h with inBuf := 0, outBufs := [], connection := false }.goto .eNotConnected

/-- The rest of `case eNotConnected`, after `m_shutdownCb`. -/
def endShutdownCb : ConnectionHandler := { h with lastError := "", sentinel := false }

/-! ### The methods -/

/-- `ConnectionHandler::start`. -/
def start (connectedCb : Bool) : ConnectionHandler × Continuation :=
  if h.state ≠ .eNotConnected then (h, .done)
  else { h with connectedCb := connectedCb, amqpError := false }.goto .eResolving

/-- `ConnectionHandler::stop`. -/
def stop : ConnectionHandler × Continuation :=
  if h.state = .eNotConnected then (h, .done) else { h with lastError := "" }.goto .eShutdown

/-- The part of `ConnectionHandler::onData` that puts the data into the queue. -/
def push (size : ℕ) : ConnectionHandler :=
  let h := { h with outBufs := h.outBufs ++ [size] }
  if h.writeReq then h else h.asyncWrite

/-- `ConnectionHandler::onData`. The first data starts the reading. -/
def onData (size : ℕ) : ConnectionHandler × Continuation :=
  if !h.connected then (h, .done)
  else if h.state = .eReceiverInit then
    (({ h with connection := true }.goto .eReady).1.push size, .done)
  else ({ h with connection := true }.push size, .done)

/-- `ConnectionHandler::onError`. -/
def onError (message : String) : ConnectionHandler × Continuation :=
  if !h.connected then (h, .done)
  else
    { h with
      connection := true
      lastError := "AMQP-CPP error: " ++ message
      amqpError := true }.goto .eShutdown

/-- `ConnectionHandler::onClosed`. -/
def onClosed : ConnectionHandler × Continuation :=
  if !h.connected then (h, .done)
  else { h with connection := true, lastError := "" }.goto .eShutdown

/-! ### The completions of asynchronous operations

A completion with an error carries the text of the error. A completion that would follow a null
`m_connection` or take the front of an empty queue does not happen. -/

/-- The lambda of `async_resolve`. -/
def resolved (ec : Option String) : ConnectionHandler × Continuation :=
  let h := { h with resolves := h.resolves - 1 }
  if h.state ≠ .eResolving then (h, .done)
  else
    match ec with
    | some message =>
      { h with lastError := "failed to resolve: " ++ message }.goto .eNotConnected
    | none => h.goto .eConnecting

/-- The lambda of `async_connect`. -/
def connectDone (ec : Option String) : ConnectionHandler × Continuation :=
  let h := { h with connects := h.connects - 1 }
  if h.state ≠ .eConnecting then (h, .done)
  else
    match ec with
    | some message =>
      { h with lastError := "failed to connect: " ++ message }.goto .eNotConnected
    | none => h.goto .eReceiverInit

/-- The common end of `onRead` and its loop: parse while there is a frame in the buffer, else read
on. -/
def parseOrRead (again : Bool) (expected : ℕ) : Option (ConnectionHandler × Continuation) :=
  if !h.connection then none
  else if h.inBuf ≥ expected && again then some (h, .parse)
  else some (h.asyncRead, .done)

/-- `ConnectionHandler::onRead`, up to its first call of `parse`. The last argument is
`m_connection->expected()`. -/
def onRead (ec : Option String) (bytes expected : ℕ) :
    Option (ConnectionHandler × Continuation) :=
  let h := { h with readReq := false, reads := h.reads - 1 }
  if !h.connected then some (h, .done)
  else
    match ec with
    | some message =>
      if h.state ≠ .eShutdown then
        some ({ h with lastError := "read error: " ++ message }.goto .eShutdown)
      else some (h, .done)
    | none => { h with inBuf := h.inBuf + bytes }.parseOrRead true expected

/-- The loop of `ConnectionHandler::onRead`, after `parse` has returned the number of bytes it has
parsed. -/
def onParsed (parsed expected : ℕ) : Option (ConnectionHandler × Continuation) :=
  if !h.connected then some (h, .done)
  else { h with inBuf := h.inBuf - parsed }.parseOrRead (parsed ≠ 0) expected

/-- `ConnectionHandler::onWrite`, for a write that has sent the given number of bytes of the buffer
in front: `async_write` consumes what it sends, also when it fails in the end. -/
def onWrite (ec : Option String) (bytes : ℕ) : Option (ConnectionHandler × Continuation) :=
  let h := { h with
    writeReq := false
    writes := h.writes - 1
    outBufs := h.outBufs.modifyHead (· - bytes) }
  if !h.connected then some (h, .done)
  else
    match ec with
    | some message =>
      if h.state ≠ .eShutdown then
        some ({ h with lastError := "write error: " ++ message }.goto .eShutdown)
      else some (h, .done)
    | none =>
      match h.outBufs with
      | [] => none
      | front :: rest =>
        let outBufs := if front = 0 then rest else front :: rest
        let h := { h with outBufs := outBufs }
        some (if outBufs = [] then h else h.asyncWrite, .done)

end ConnectionHandler

end AmqpAsio
