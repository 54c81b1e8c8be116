import Mathlib.Data.List.Basic

/-!
# The data of a transceiver

`amqp::Transceiver` drives one AMQP channel through set-up, work and teardown. This module holds
its states and exit codes, the operations it asks of AMQP-CPP, the `AMQP::Channel` objects it has
made, and the transceiver itself: the members of the class, followed by the part of its
surroundings that the class shares with AMQP-CPP. A lambda handed to AMQP-CPP is an element of
`Callback`, with the arguments AMQP-CPP calls it with, so what is registered on a channel and what
is later called are values.

The array bound `eMax` of `Transceiver::State` is never a value of `m_state` and is left out, as
are the arguments that the lambdas mark `UNUSED`. The three application callbacks matter only by
being installed or not.
-/

set_option autoImplicit false
set_option relaxedAutoImplicit false

namespace AmqpAsio

/-- An `AMQP::Connection` object; a null pointer is `none`. -/
abbrev ConnectionId := ℕ

namespace Transceiver

/-- `Transceiver::State`. -/
inductive State
  | eCreateChannel
  | eCheckQueue
  | eRecreateChannel
  | eCreateExchange
  | eCreateQueue
  | eBindQueue
  | eCreateConsumer
  | eReady
  | eShutdown
  | eUnbindQueue
  | eRemoveQueue
  | eCloseChannel
  | eEnd
  deriving DecidableEq, Repr

/-- `Transceiver::ExitCode`. -/
inductive ExitCode
  | eNoError
  | eCreateChannelError
  | eCreateExchangeError
  | eCreateQueueError
  | eBindQueueError
  | eCreateConsumerError
  | eConsumerCancelError
  | eUnbindQueueError
  | eRemoveQueueError
  | eCloseChannelError
  | eChannelAbruptlyClosedError
  | eDrop
  deriving DecidableEq, Repr

/-- The AMQP-CPP flags the class uses. A sum of distinct flags is the list of its summands. -/
inductive Flag
  | durable
  | autodelete
  | passive
  | exclusive
  | mandatory
  deriving DecidableEq, Repr

/-- `Transceiver::ExchangeCreationFlags`. -/
def exchangeCreationFlags : List Flag := [.autodelete, .durable]

/-- A message as `AMQP::Envelope` and `AMQP::Message` carry it. -/
structure Message where
  contentType : String
  contentEncoding : String
  body : String
  deriving DecidableEq, Repr

/-- A deferred operation on a channel. `declareQueue` with the flag `AMQP::passive`, which only
checks, is `declarePassive`; every exchange is of type `AMQP::topic`. -/
inductive Operation
  | declarePassive (queue : String)
  | declareExchange (exchange : String) (flags : List Flag)
  | declareQueue (queue : String) (flags : List Flag)
  | bindQueue (exchange queue route : String)
  | consume (queue : String)
  | cancel (tag : String)
  | unbindQueue (exchange queue route : String)
  | removeQueue (queue : String)
  | close
  deriving DecidableEq, Repr

/-- The lambdas installed by `AMQP::Channel::onReady`, by the state that installs them. -/
inductive ReadyHandler
  | createChannel
  | recreateChannel
  | unbindQueue
  | removeQueue
  deriving DecidableEq, Repr

/-- The lambdas installed by `AMQP::Channel::onError`, by the state that installs them. -/
inductive ErrorHandler
  | createChannel
  | recreateChannel
  | ready
  | unbindQueue
  | removeQueue
  deriving DecidableEq, Repr

/-- A call of one of the lambdas that the class registers with AMQP-CPP. The name is the state
whose branch of `Transceiver::StateMachine` registers the lambda, then the event it waits for. -/
inductive Callback
  | createChannelReady
  | createChannelError (message : String)
  | checkQueueSuccess (name : String)
  | checkQueueError (message : String)
  | recreateChannelReady
  | recreateChannelError (message : String)
  | createExchangeSuccess
  | createExchangeError (message : String)
  | createQueueSuccess (name : String)
  | createQueueError (message : String)
  | bindQueueSuccess
  | bindQueueError (message : String)
  | createConsumerSuccess (consumer : String)
  | createConsumerReceived (message : Message) (deliveryTag : UInt64) (redelivered : Bool)
  | createConsumerError (message : String)
  | readyError (message : String)
  | shutdownSuccess (consumer : String)
  | shutdownError (message : String)
  | unbindQueueReady
  | unbindQueueSuccess
  | unbindQueueError (message : String)
  | unbindQueueChannelError (message : String)
  | removeQueueReady
  | removeQueueSuccess
  | removeQueueError (message : String)
  | removeQueueChannelError (message : String)
  | closeChannelSuccess
  | closeChannelError (message : String)
  | sendReturned (message : Message) (code : Int) (description : String)
  deriving DecidableEq, Repr

/-- The call of an `onReady` lambda. -/
def ReadyHandler.callback : ReadyHandler → Callback
  | .createChannel => .createChannelReady
  | .recreateChannel => .recreateChannelReady
  | .unbindQueue => .unbindQueueReady
  | .removeQueue => .removeQueueReady

/-- The call of a channel-level `onError` lambda. -/
def ErrorHandler.callback : ErrorHandler → String → Callback
  | .createChannel => .createChannelError
  | .recreateChannel => .recreateChannelError
  | .ready => .readyError
  | .unbindQueue => .unbindQueueChannelError
  | .removeQueue => .removeQueueChannelError

/-- The call of the `onError` lambda of a deferred operation. -/
def Operation.error : Operation → String → Callback
  | .declarePassive _ => .checkQueueError
  | .declareExchange _ _ => .createExchangeError
  | .declareQueue _ _ => .createQueueError
  | .bindQueue _ _ _ => .bindQueueError
  | .consume _ => .createConsumerError
  | .cancel _ => .shutdownError
  | .unbindQueue _ _ _ => .unbindQueueError
  | .removeQueue _ => .removeQueueError
  | .close => .closeChannelError

/-- The callback is a call of one of the two lambdas registered with the operation: the lambda
for its success, whatever AMQP-CPP passes to it, or the lambda for its failure. -/
def Operation.reports : Operation → Callback → Bool
  | .declarePassive _, .checkQueueSuccess _ => true
  | .declarePassive _, .checkQueueError _ => true
  | .declareExchange _ _, .createExchangeSuccess => true
  | .declareExchange _ _, .createExchangeError _ => true
  | .declareQueue _ _, .createQueueSuccess _ => true
  | .declareQueue _ _, .createQueueError _ => true
  | .bindQueue _ _ _, .bindQueueSuccess => true
  | .bindQueue _ _ _, .bindQueueError _ => true
  | .consume _, .createConsumerSuccess _ => true
  | .consume _, .createConsumerError _ => true
  | .cancel _, .shutdownSuccess _ => true
  | .cancel _, .shutdownError _ => true
  | .unbindQueue _ _ _, .unbindQueueSuccess => true
  | .unbindQueue _ _ _, .unbindQueueError _ => true
  | .removeQueue _, .removeQueueSuccess => true
  | .removeQueue _, .removeQueueError _ => true
  | .close, .closeChannelSuccess => true
  | .close, .closeChannelError _ => true
  | _, _ => false

/-- An `AMQP::Channel` made by the transceiver, as far as its lambdas are concerned: the
connection it was made on, the `onReady` lambda not called yet, the `onError` lambda installed
last, the operations whose outcome has not been reported, and whether a consumer and a publisher
have registered their lambdas. -/
structure Channel where
  connection : Option ConnectionId
  onReady : Option ReadyHandler
  onError : Option ErrorHandler
  pending : List Operation
  consuming : Bool
  publishing : Bool
  deriving DecidableEq, Repr

/-- What a transceiver does that can be seen from outside: the values `m_state` takes, the
channels and operations it asks for, and the application callbacks it invokes. A call of `m_onExit`
carries the number of the accepted `start()` it belongs to. -/
inductive Observation
  | entered (state : State)
  | opened (channel : ℕ)
  | closed (channel : ℕ)
  | issued (channel : ℕ) (operation : Operation)
  | published (channel : ℕ) (exchange route : String) (envelope : Message) (flags : List Flag)
  | exit (run : ℕ) (ec : ExitCode)
  | message (message : Message) (deliveryTag : UInt64) (redelivered : Bool)
  | bounce (message : Message) (code : Int) (description : String)
  deriving DecidableEq, Repr

end Transceiver

open Transceiver in
/-- `amqp::Transceiver`. The first group of fields are the members of the class. The second is
what surrounds it: the channels it has made, the number of accepted calls of `start()`, whether a
null `m_channel` has been used, and what has been observed so far, oldest first. -/
structure Transceiver where
  state : State
  connection : Option ConnectionId
  exchange : String
  queue : String
  recvQueue : String
  routeIn : String
  consumerTag : String
  listener : Bool
  queueExist : Bool
  qFlags : List Flag
  onBounceMessage : Bool
  onMessage : Bool
  onExit : Bool
  channel : Option ℕ
  error : String
  ec : ExitCode
  channels : List Channel
  runs : ℕ
  crashed : Bool
  log : List Observation
  deriving DecidableEq, Repr

end AmqpAsio
