import AmqpAsio.Machine
import AmqpAsio.Transceiver.StateMachine

/-!
# Runs of a transceiver

The events of a transceiver are the calls of its methods and the calls of the lambdas it has
registered with AMQP-CPP. A lambda may be called while it is registered: the `onReady` lambda of a
channel until it has been called, the `onError` lambda that was installed last, the two lambdas of
a deferred operation until one of them has been called, and the lambdas of consumers and
publishers always. Nothing else is asked of AMQP-CPP, so the lambdas are called in any order, and
also those of a channel that has been closed, replaced or reset.
-/

set_option autoImplicit false
set_option relaxedAutoImplicit false

namespace AmqpAsio

namespace Transceiver

/-! ### Delivery of callbacks -/

/-- The callback is a call of the channel-level `onError` lambda. -/
def ErrorHandler.reports : ErrorHandler → Callback → Bool
  | .createChannel, .createChannelError _ => true
  | .recreateChannel, .recreateChannelError _ => true
  | .ready, .readyError _ => true
  | .unbindQueue, .unbindQueueChannelError _ => true
  | .removeQueue, .removeQueueChannelError _ => true
  | _, _ => false

/-- The callback is a call of a lambda registered on the channel. -/
def Channel.registered (c : Channel) (cb : Callback) : Bool :=
  c.onReady.any (·.callback = cb) || c.onError.any (·.reports cb) ||
    c.pending.any (·.reports cb) ||
    match cb with
    | .createConsumerReceived _ _ _ => c.consuming
    | .sendReturned _ _ _ => c.publishing
    | _ => false

/-- The channel once the callback has been called. -/
def Channel.deliver (c : Channel) (cb : Callback) : Channel :=
  { c with
    onReady := c.onReady.filter (·.callback ≠ cb)
    pending := c.pending.eraseP (·.reports cb) }

/-- AMQP-CPP calls a lambda registered on a channel. -/
def deliver (t : Transceiver) (channel : ℕ) (cb : Callback) : Transceiver :=
  { t with channels := t.channels.modify channel (·.deliver cb) }.call cb

/-- What can happen to a transceiver. -/
inductive Event
  | install (bounce message exit : Bool)
  | start (connection : Option ConnectionId)
  | stop
  | drop
  | send (message route : String) (mandatory : Bool)
  | callback (channel : ℕ) (cb : Callback)
  deriving DecidableEq, Repr

/-- One event. Once a null `m_channel` has been used nothing more happens. -/
def step (t : Transceiver) (e : Event) : Option Transceiver :=
  if t.crashed then none
  else
    match e with
    | .install bounce message exit => some (t.install bounce message exit)
    | .start connection => some (t.start connection)
    | .stop => some t.stop
    | .drop => some t.drop
    | .send message route mandatory => some (t.send message route mandatory).1
    | .callback channel cb =>
      if (t.channels[channel]?).any (·.registered cb) then some (t.deliver channel cb) else none

/-- The runs of a transceiver from its construction on. -/
def machine : Machine Transceiver Event where
  init t := ∃ exchange queue routeIn listener, t = new exchange queue routeIn listener
  step := step

@[simp] theorem machine_step (t : Transceiver) (e : Event) : machine.step t e = t.step e := rfl

/-- A step happens only while no null pointer has been used. -/
theorem crashed_eq_false_of_step {t t' : Transceiver} {e : Event} (hstep : t.step e = some t') :
    t.crashed = false := by
  by_contra hcrashed
  simp [step, hcrashed] at hstep

/-- The step of a callback delivers it, and it was registered. -/
theorem step_callback {t t' : Transceiver} {channel : ℕ} {cb : Callback}
    (hstep : t.step (.callback channel cb) = some t') :
    (∃ c, t.channels[channel]? = some c ∧ c.registered cb) ∧ t' = t.deliver channel cb := by
  have hcrashed := crashed_eq_false_of_step hstep
  simp only [step, hcrashed, Bool.false_eq_true, ↓reduceIte, Option.ite_none_right_eq_some,
    Option.some.injEq] at hstep
  obtain ⟨hregistered, rfl⟩ := hstep
  exact ⟨by simpa [Option.any_eq_true] using hregistered, rfl⟩

/-! ### What a lambda does -/

theorem call_of_reaction {t u : Transceiver} {cb : Callback} {s : State}
    (hreaction : t.reaction cb = some (u, s)) : t.call cb = u.goto s := by
  rw [call, hreaction]

theorem call_of_no_reaction {t : Transceiver} {cb : Callback} (hreaction : t.reaction cb = none) :
    t.call cb = t.aside cb := by
  rw [call, hreaction]

/-- The operation that the branch of the present state asks for. -/
def request (t : Transceiver) : Option Operation :=
  match t.state with
  | .eCheckQueue => some (.declarePassive t.queue)
  | .eCreateExchange => some (.declareExchange t.exchange exchangeCreationFlags)
  | .eCreateQueue => some (.declareQueue t.queue t.qFlags)
  | .eBindQueue => some (.bindQueue t.exchange t.recvQueue t.routeIn)
  | .eCreateConsumer => some (.consume t.recvQueue)
  | .eShutdown => some (.cancel t.consumerTag)
  | .eUnbindQueue => some (.unbindQueue t.exchange t.recvQueue t.routeIn)
  | .eRemoveQueue => some (.removeQueue t.recvQueue)
  | .eCloseChannel => some .close
  | .eCreateChannel | .eRecreateChannel | .eReady | .eEnd => none

/-- The lambda issues the operation that its channel was opened for. -/
def Issues (t : Transceiver) (cb : Callback) : Prop :=
  cb = .unbindQueueReady ∧ t.state = .eUnbindQueue ∨ cb = .removeQueueReady ∧
    t.state = .eRemoveQueue

/-- What a lambda does that does not call `StateMachine()`: nothing, or it issues the operation its
channel was opened for, or it hands a message to the application. -/
inductive Aside (t : Transceiver) (cb : Callback) : Transceiver → Prop
  | idle (hissues : ¬ t.Issues cb) : Aside t cb t
  | issue (operation : Operation) (hissues : t.Issues cb) (hrequest : t.request = some operation) :
    Aside t cb ((t.setOnError none).issue operation)
  | message (message : Message) (deliveryTag : UInt64) (redelivered : Bool)
    (hissues : ¬ t.Issues cb) : Aside t cb
    { t with log := t.log ++ [.message message deliveryTag redelivered] }
  | bounce (message : Message) (code : Int) (description : String) (hissues : ¬ t.Issues cb) :
    Aside t cb { t with log := t.log ++ [.bounce message code description] }

theorem aside_cases (t : Transceiver) (cb : Callback) : Aside t cb (t.aside cb) := by
  cases cb <;> simp only [aside]
  case unbindQueueReady =>
    split
    · next hs => exact .issue _ (Or.inl ⟨rfl, hs⟩) (by simp only [request, hs])
    · next hs => exact .idle (by simp [Issues, hs])
  case removeQueueReady =>
    split
    · next hs => exact .issue _ (Or.inr ⟨rfl, hs⟩) (by simp only [request, hs])
    · next hs => exact .idle (by simp [Issues, hs])
  case createConsumerReceived message deliveryTag redelivered =>
    split
    · exact .message message deliveryTag redelivered (by simp [Issues])
    · exact .idle (by simp [Issues])
  case sendReturned message code description =>
    split
    · exact .bounce message code description (by simp [Issues])
    · exact .idle (by simp [Issues])
  all_goals exact .idle (by simp [Issues])

theorem Issues.state {t : Transceiver} {cb : Callback} (h : t.Issues cb) :
    t.state = .eUnbindQueue ∨ t.state = .eRemoveQueue :=
  h.imp And.right And.right

end Transceiver

end AmqpAsio
