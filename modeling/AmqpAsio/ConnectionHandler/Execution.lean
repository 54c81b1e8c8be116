import AmqpAsio.Machine
import AmqpAsio.ConnectionHandler.Transitions

/-!
# Executions of a handler

A handler together with the calls that are suspended inside it. `StateMachine()` runs the event loop
while it shuts down, and `m_connectedCb`, `m_shutdownCb` and `parse` run foreign code; while one of
these is on top of the stack, every method of the handler may be called, and every outstanding
operation may complete, before it returns.
-/

set_option autoImplicit false
set_option relaxedAutoImplicit false

namespace AmqpAsio

namespace ConnectionHandler

/-- A call suspended inside the handler: `m_connectedCb()`, `m_shutdownCb(…)`,
`m_connection->parse(…)`, or the loop of `case eShutdown` with the number of the accepted `start()`
that is being shut down. -/
inductive Frame
  | connectedCb
  | shutdownCb
  | parse
  | shutdownLoop (run : ℕ)
  deriving DecidableEq, Repr

/-- What is recorded of an execution: an event with the given message has ended the connection, or
the attempt at one, of an accepted `start()`; and a call of `m_shutdownCb` for an accepted
`start()`. -/
inductive Observation
  | began (run : ℕ) (message : String)
  | shutdownCb (run : ℕ) (message : String)
  deriving DecidableEq, Repr

/-- A handler, the calls suspended inside it, the topmost first, the number of accepted calls of
`start()`, and what has been recorded, oldest first. -/
structure Execution where
  handler : ConnectionHandler
  stack : List Frame
  starts : ℕ
  log : List Observation
  deriving DecidableEq, Repr

/-- What can happen to a handler. Besides its methods and the completions of its operations,
`m_connection->parse` returns (`parsed`), and the call on top of the stack goes on (`resume`). -/
inductive Event
  | start (connectedCb : Bool)
  | stop
  | onData (size : ℕ)
  | onError (message : String)
  | onClosed
  | resolved (ec : Option String)
  | connectDone (ec : Option String)
  | read (ec : Option String) (bytes expected : ℕ)
  | wrote (ec : Option String) (bytes : ℕ)
  | parsed (parsed expected : ℕ)
  | resume
  deriving DecidableEq, Repr

/-- The message of an event that ends a connection or an attempt at one. It is empty for `stop()`
and `onClosed()`. -/
def Event.message : Event → String
  | .onError message => "AMQP-CPP error: " ++ message
  | .resolved (some message) => "failed to resolve: " ++ message
  | .connectDone (some message) => "failed to connect: " ++ message
  | .read (some message) _ _ => "read error: " ++ message
  | .wrote (some message) _ => "write error: " ++ message
  | _ => ""

/-- The method that an event calls, other than `start()` and those that belong to the stack. -/
def method (h : ConnectionHandler) : Event → Option (ConnectionHandler × Continuation)
  | .stop => some h.stop
  | .onData size => some (h.onData size)
  | .onError message => some (h.onError message)
  | .onClosed => some h.onClosed
  | .resolved ec => if h.resolves = 0 then none else some (h.resolved ec)
  | .connectDone ec => if h.connects = 0 then none else some (h.connectDone ec)
  | .read ec bytes expected => if h.reads = 0 then none else h.onRead ec bytes expected
  | .wrote ec bytes => if h.writes = 0 then none else h.onWrite ec bytes
  | .start _ | .parsed _ _ | .resume => none

/-- The handler has been under way and is so no more. -/
def Begins (h h' : ConnectionHandler) : Prop :=
  (h.state ≠ .eNotConnected ∧ h.state ≠ .eShutdown) ∧
    (h'.state = .eNotConnected ∨ h'.state = .eShutdown)

instance (h h' : ConnectionHandler) : Decidable (Begins h h') :=
  inferInstanceAs (Decidable ((_ ∧ _) ∧ (_ ∨ _)))

namespace Execution

variable (x : Execution)

/-- A call is suspended. -/
def suspend (f : Frame) : Execution := { x with stack := f :: x.stack }

/-- `m_shutdownCb(m_lastError)`. -/
def callback (run : ℕ) (message : String) : Execution :=
  { x with stack := .shutdownCb :: x.stack, log := x.log ++ [.shutdownCb run message] }

/-- The loop of `case eShutdown` ends, and the handler goes on to `m_shutdownCb`. -/
def finish (run : ℕ) : Execution :=
  { x with handler := x.handler.endShutdown.1 }.callback run x.handler.endShutdown.1.lastError

/-- A method goes on. A loop with nothing to wait for ends at once. -/
def goOn : Continuation → Execution
  | .done => x
  | .connectedCb => x.suspend .connectedCb
  | .parse => x.suspend .parse
  | .shutdownLoop =>
    if x.handler.waiting then x.suspend (.shutdownLoop x.starts) else x.finish x.starts
  | .shutdownCb message => x.callback x.starts message

/-- A method is called in the course of an event with the given message. -/
def perform (message : String) (r : ConnectionHandler × Continuation) : Execution :=
  { x with
    handler := r.1
    log := x.log ++
      if Begins x.handler r.1 then [Observation.began x.starts message] else [] }.goOn r.2

/-- Something else may happen before the call on top of the stack goes on. The loop of
`case eShutdown` lets it while a read or a write is outstanding. -/
def pausing : Bool :=
  match x.stack with
  | .shutdownLoop _ :: _ => x.handler.waiting
  | _ => true

/-- One event. -/
def step (e : Event) : Option Execution :=
  match e with
  | .resume =>
    match x.stack with
    | .connectedCb :: rest => some { x with stack := rest }
    | .shutdownCb :: rest => some { x with handler := x.handler.endShutdownCb, stack := rest }
    | .shutdownLoop run :: rest =>
      if x.handler.waiting then none else some ({ x with stack := rest }.finish run)
    | .parse :: _ | [] => none
  | .parsed parsed expected =>
    match x.stack with
    | .parse :: rest =>
      (x.handler.onParsed parsed expected).map ({ x with stack := rest }.perform e.message)
    | _ => none
  | .start connectedCb =>
    if x.pausing then
      if x.handler.state = .eNotConnected then
        some ({ x with starts := x.starts + 1 }.perform e.message (x.handler.start connectedCb))
      else some x
    else none
  | e => if x.pausing then (x.handler.method e).map (x.perform e.message) else none

/-- The executions of a handler from its construction on. -/
def machine : Machine Execution Event where
  init x := x = { handler := new, stack := [], starts := 0, log := [] }
  step := step

@[simp] theorem machine_step (x : Execution) (e : Event) : machine.step x e = x.step e := rfl

end Execution

end ConnectionHandler

end AmqpAsio
