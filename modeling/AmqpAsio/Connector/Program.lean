import AmqpAsio.Machine
import AmqpAsio.Connector.Methods
import AmqpAsio.Transceiver.Events

/-!
# A program with a connector

`Connector` is a template over the class of its transceivers, and asks of it what `TransceiverImpl`
lists. A program is a connector together with the transceivers that have been made, and a step of it
is one thing that happens: a call by the application or by AMQP-CPP, a completion, a queued handler,
or the topmost suspended call going on. Foreign code, and the event loop that a method waits in, may
do anything; any other suspended call has to go on first.
-/

set_option autoImplicit false
set_option relaxedAutoImplicit false

namespace AmqpAsio

open Connector

/-- What a connector asks of its class of transceivers `τ`, the events of which are `ε`: how many
times it has called the application, and which events are replies of the broker. -/
class TransceiverImpl (τ : Type) (ε : outParam Type) where
  new (exchange queue routeIn : String) (listener : Bool) : τ
  isRunning : τ → Bool
  ready : τ → Bool
  start : τ → Option ConnectionId → τ
  stop : τ → τ
  drop : τ → τ
  step : τ → ε → Option τ
  calls : τ → ℕ
  isReply : ε → Bool

/-- The transceiver calls the application. -/
def Transceiver.Observation.isCall : Transceiver.Observation → Bool
  | .exit _ _ | .message _ _ _ | .bounce _ _ _ => true
  | _ => false

/-- The event is a call of a lambda by AMQP-CPP. -/
def Transceiver.Event.isReply : Transceiver.Event → Bool
  | .callback _ _ => true
  | _ => false

instance : TransceiverImpl Transceiver Transceiver.Event where
  new := Transceiver.new
  isRunning := Transceiver.isRunning
  ready := Transceiver.ready
  start := Transceiver.start
  stop := Transceiver.stop
  drop := Transceiver.drop
  step := Transceiver.machine.step
  calls t := t.log.countP (·.isCall)
  isReply := Transceiver.Event.isReply

/-- A connector and the transceivers that have been made for it, by their numbers. -/
structure Program (τ : Type) where
  connector : Connector
  pool : List τ

namespace Program

variable {τ ε : Type} [TransceiverImpl τ ε]

/-- What can happen to a program. Besides the events of its connector: the application makes a
transceiver, opens or closes one, or calls one, AMQP-CPP calls one, `parse` returns, and the topmost
suspended call goes on. -/
inductive Event (ε : Type)
  | connector (e : Connector.Event)
  | transceiver (exchange queue routeIn : String) (listener : Bool)
  | open (transceiver : ℕ)
  | close (transceiver : ℕ)
  | call (transceiver : ℕ) (e : ε)
  | parsed (parsed expected : ℕ)
  | resume
  deriving DecidableEq, Repr

/-- The event is a reply of the broker, or AMQP-CPP reporting or asking something in consequence of
one. -/
def isReply (τ : Type) {ε : Type} [TransceiverImpl τ ε] : Event ε → Bool
  | .connector (.handler _ (.onData _)) | .connector (.handler _ (.onError _))
  | .connector (.handler _ .onClosed) => true
  | .call _ e => TransceiverImpl.isReply τ e
  | _ => false

variable (p : Program τ)

/-- `is_running()` of a transceiver. -/
def isRunning (transceiver : ℕ) : Bool := p.pool[transceiver]?.any TransceiverImpl.isRunning

/-- `is_running() && !ready()` of a transceiver. -/
def isStarting (transceiver : ℕ) : Bool :=
  p.pool[transceiver]?.any fun t ↦ TransceiverImpl.isRunning t && !TransceiverImpl.ready t

/-- A transceiver has become another one. If it has called the application on the way, the
application is running. -/
def update (transceiver : ℕ) (t t' : τ) : Program τ where
  connector :=
    if TransceiverImpl.calls t' = TransceiverImpl.calls t then p.connector
    else p.connector.push .client
  pool := p.pool.set transceiver t'

/-- A method of a transceiver is called. -/
def operate (transceiver : ℕ) (f : τ → τ) : Program τ :=
  match p.pool[transceiver]? with
  | none => p
  | some t => p.update transceiver t (f t)

/-- A loop over the transceivers waits at one of them. -/
def waitsAt : Loop → ℕ → Bool
  | .stopHandler _, transceiver => p.isRunning transceiver
  | .ready, transceiver => p.isStarting transceiver
  | _, _ => false

/-- The body of a loop over the transceivers. -/
def body : Loop → ℕ → Program τ
  | .stop _, transceiver => p.operate transceiver TransceiverImpl.stop
  | .drop _, transceiver => p.operate transceiver TransceiverImpl.drop
  | .start, transceiver =>
    if p.isRunning transceiver then p
    else p.operate transceiver (TransceiverImpl.start · p.connector.amqpConnection)
  | .stopHandler _, _ | .ready, _ => p

/-- `Connector::transceiver`. -/
def transceiver (exchange queue routeIn : String) (listener : Bool) : Program τ where
  connector := { p.connector with transceivers := p.pool.length :: p.connector.transceivers }
  pool := p.pool ++ [TransceiverImpl.new exchange queue routeIn listener]

/-- `Connector::open`, up to its loop. -/
def «open» (transceiver : ℕ) : Program τ :=
  if !p.isRunning transceiver && p.connector.connectionHandlerReady then
    { p with connector := p.connector.push (.openLoop transceiver) }.operate transceiver
      (TransceiverImpl.start · p.connector.amqpConnection)
  else p

/-- `Connector::close`, up to its loop. -/
def close (transceiver : ℕ) : Program τ :=
  if p.isRunning transceiver then
    { p with connector := p.connector.push (.closeLoop transceiver) }.operate transceiver
      TransceiverImpl.stop
  else p

/-- Something else may happen before the topmost suspended call goes on: the application or AMQP-CPP
is running, or the event loop is. -/
def pausing : Bool :=
  match p.connector.stack with
  | [] | .client :: _ | .parse _ :: _ => true
  | .shutdownLoop session :: _ => (p.connector.handler session).waiting
  | .forEach loop rest :: _ =>
    match p.connector.remaining rest with
    | [] => false
    | transceiver :: _ => p.waitsAt loop transceiver
  | .openLoop transceiver :: _ => p.isStarting transceiver
  | .closeLoop transceiver :: _ => p.isRunning transceiver
  | .startLoop ran :: _ =>
    !ran || !p.connector.connectionHandler.stopped && !p.connector.connectionHandler.ready
  | _ => false

/-- The body of the do-while of `Connector::start`, if it is on top, has run. -/
def entered : Program τ :=
  match p.connector.stack with
  | .startLoop _ :: rest =>
    { p with connector := { p.connector with stack := .startLoop true :: rest } }
  | _ => p

/-- The topmost suspended call goes on. -/
def resume : Option (Program τ) :=
  match p.connector.stack with
  | [] => none
  | f :: rest =>
    let p := { p with connector := { p.connector with stack := rest } }
    match f with
    | .forEach loop rest =>
      match p.connector.remaining rest with
      | [] => some { p with connector := loop.after p.connector }
      | transceiver :: rest =>
        if p.waitsAt loop transceiver then none
        else some ({ p with connector := p.connector.push (.forEach loop rest) }.body loop
          transceiver)
    | .openLoop transceiver => if p.isStarting transceiver then none else some p
    | .closeLoop transceiver => if p.isRunning transceiver then none else some p
    | f => (f.goOn p.connector).map fun c ↦ { p with connector := c }

/-- An event other than the return of a suspended call. -/
def occur : Event ε → Option (Program τ)
  | .connector e => (p.connector.occur e).map fun c ↦ { p with connector := c }
  | .transceiver exchange queue routeIn listener =>
    some (p.transceiver exchange queue routeIn listener)
  | .open transceiver =>
    if transceiver ∈ p.connector.transceivers then some (p.open transceiver) else none
  | .close transceiver =>
    if transceiver ∈ p.connector.transceivers then some (p.close transceiver) else none
  | .call transceiver e =>
    p.pool[transceiver]?.bind fun t ↦
      (TransceiverImpl.step t e).map fun t' ↦ p.update transceiver t t'
  | .parsed _ _ | .resume => none

/-- The event crashes the program. -/
def crashes : Event ε → Bool
  | .connector e => p.connector.crashes e
  | _ => false

/-- One event. A run ends where the program crashes. -/
def step : Event ε → Option (Program τ)
  | .resume => p.resume
  | .parsed parsed expected =>
    match p.connector.stack with
    | .parse session :: rest =>
      ((p.connector.handler session).onParsed parsed expected).map fun r ↦
        { p with connector := { p.connector with stack := rest }.handle session r }
    | _ => none
  | e => if p.pausing && !p.crashes e then p.entered.occur e else none

/-- The program at the construction of its connector. -/
def initial (τ : Type) : Program τ := { connector := Connector.new, pool := [] }

/-- The runs of a program from the construction of its connector on. -/
def machine (τ : Type) {ε : Type} [TransceiverImpl τ ε] : Machine (Program τ) (Event ε) where
  init p := p = initial τ
  step := step

@[simp] theorem machine_step (e : Event ε) : (machine τ).step p e = p.step e := rfl

end Program

end AmqpAsio
