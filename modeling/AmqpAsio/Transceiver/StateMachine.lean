import AmqpAsio.Transceiver.Basic

/-!
# The state machine of a transceiver

`Transceiver::StateMachine` branch by branch, the lambdas its branches register, and the methods
`start`, `stop`, `drop` and `send`. A branch of the source that sets `m_state` and calls
`StateMachine()` again always moves on in the order of the states, except into `eUnbindQueue`,
`eRemoveQueue`, `eCloseChannel` and `eEnd`, so the branches are defined from the last one
backwards and each calls the ones it re-enters by name.

Every operation, and every lambda AMQP-CPP calls at once when it is registered, is the last thing
its branch does, so a lambda called at once is one called right after.
-/

set_option autoImplicit false
set_option relaxedAutoImplicit false

namespace AmqpAsio

namespace Transceiver

/-! ### Construction -/

/-- `Transceiver::Transceiver`. -/
def new (exchange queue routeIn : String) (listener : Bool) : Transceiver where
  state := .eEnd
  connection := none
  exchange := exchange
  queue := queue
  recvQueue := ""
  routeIn := routeIn
  consumerTag := ""
  listener := listener
  queueExist := false
  qFlags := if queue = "" then [.exclusive] else []
  onBounceMessage := false
  onMessage := false
  onExit := false
  channel := none
  error := ""
  ec := .eNoError
  channels := []
  runs := 0
  crashed := false
  log := []

/-- `Transceiver::onBounce`, `onMessage` and `onExit`, called together: which of the application
callbacks are installed. -/
def install (t : Transceiver) (bounce message exit : Bool) : Transceiver :=
  { t with onBounceMessage := bounce, onMessage := message, onExit := exit }

/-! ### The operations on `m_channel` -/

variable (t : Transceiver)

/-- An assignment to `m_state`. -/
def enter (s : State) : Transceiver := { t with state := s, log := t.log ++ [.entered s] }

/-- A change to the channel that `m_channel` points to. Following a null pointer is a crash. -/
def onChannel (f : Channel → Channel) : Transceiver :=
  { t with
    channels := match t.channel with
      | some c => t.channels.modify c f
      | none => t.channels
    crashed := t.crashed || t.channel.isNone }

/-- `m_ec = ec; m_error = message;`. -/
def setError (ec : ExitCode) (message : String) : Transceiver :=
  { t with ec := ec, error := message }

/-- `if (m_ec == eNoError) m_ec = ec; if (m_error.empty()) m_error = message;`. -/
def setErrorIfUnset (ec : ExitCode) (message : String) : Transceiver :=
  { t with
    ec := if t.ec = ExitCode.eNoError then ec else t.ec
    error := if t.error = "" then message else t.error }

/-- Something the current channel is seen to do. -/
def observe (o : ℕ → Observation) : Transceiver :=
  { t with log := t.log ++ (t.channel.map o).toList }

/-- `m_channel->operation(…).onSuccess(…).onError(…)`. -/
def issue (operation : Operation) : Transceiver :=
  (t.onChannel fun c ↦ { c with
    pending := c.pending ++ [operation]
    consuming := c.consuming || operation matches .consume _ }).observe (.issued · operation)

/-- `m_channel->onError(…)`. -/
def setOnError (handler : Option ErrorHandler) : Transceiver :=
  t.onChannel fun c ↦ { c with onError := handler }

/-- `m_channel->close()`, with no lambdas. -/
def closeOld : Transceiver := (t.onChannel id).observe .closed

/-- A new `AMQP::Channel` on `m_connection` is swapped into `m_channel` and given its lambdas. -/
def newChannel (ready : ReadyHandler) (error : ErrorHandler) : Transceiver :=
  { t with
    channels := t.channels ++ [{
      connection := t.connection
      onReady := some ready
      onError := some error
      pending := []
      consuming := false
      publishing := false }]
    channel := some t.channels.length
    log := t.log ++ [.opened t.channels.length] }

/-! ### The branches of `Transceiver::StateMachine` -/

/-- `case eEnd`. -/
def atEnd : Transceiver :=
  { t with
    connection := none
    recvQueue := ""
    consumerTag := ""
    queueExist := false
    channel := none
    log := t.log ++ if t.onExit then [.exit t.runs t.ec] else [] }

/-- `case eCloseChannel`. -/
def atCloseChannel : Transceiver := t.issue .close

/-- `case eRemoveQueue`. -/
def atRemoveQueue : Transceiver :=
  if t.queueExist then (t.enter .eCloseChannel).atCloseChannel
  else t.closeOld.newChannel .removeQueue .removeQueue

/-- `case eUnbindQueue`. -/
def atUnbindQueue : Transceiver :=
  if t.recvQueue = "" then (t.enter .eCloseChannel).atCloseChannel
  else t.closeOld.newChannel .unbindQueue .unbindQueue

/-- `case eShutdown`. -/
def atShutdown : Transceiver :=
  if t.listener then
    if t.consumerTag = "" then (t.enter .eUnbindQueue).atUnbindQueue
    else t.issue (.cancel t.consumerTag)
  else (t.enter .eCloseChannel).atCloseChannel

/-- `case eReady`. Only a sender installs a lambda for the failure of its channel here. -/
def atReady : Transceiver := if t.listener then t else t.setOnError (some .ready)

/-- `case eCreateConsumer`. -/
def atCreateConsumer : Transceiver := t.issue (.consume t.recvQueue)

/-- `case eBindQueue`. -/
def atBindQueue : Transceiver := t.issue (.bindQueue t.exchange t.recvQueue t.routeIn)

/-- `case eCreateQueue`. -/
def atCreateQueue : Transceiver :=
  if t.queueExist then (t.enter .eBindQueue).atBindQueue
  else t.issue (.declareQueue t.queue t.qFlags)

/-- `case eCreateExchange`. -/
def atCreateExchange : Transceiver :=
  t.issue (.declareExchange t.exchange exchangeCreationFlags)

/-- `case eRecreateChannel`. -/
def atRecreateChannel : Transceiver := t.closeOld.newChannel .recreateChannel .recreateChannel

/-- `case eCheckQueue`. -/
def atCheckQueue : Transceiver :=
  if t.queue = "" then (t.enter .eCreateExchange).atCreateExchange
  else t.issue (.declarePassive t.queue)

/-- `case eCreateChannel`. -/
def atCreateChannel : Transceiver :=
  match t.connection with
  | some _ => t.newChannel .createChannel .createChannel
  | none =>
    ((t.setError .eCreateChannelError "no AMQP connection").enter .eEnd).atEnd

/-- `Transceiver::StateMachine`. -/
def stateMachine : Transceiver :=
  match t.state with
  | .eCreateChannel => t.atCreateChannel
  | .eCheckQueue => t.atCheckQueue
  | .eRecreateChannel => t.atRecreateChannel
  | .eCreateExchange => t.atCreateExchange
  | .eCreateQueue => t.atCreateQueue
  | .eBindQueue => t.atBindQueue
  | .eCreateConsumer => t.atCreateConsumer
  | .eReady => t.atReady
  | .eShutdown => t.atShutdown
  | .eUnbindQueue => t.atUnbindQueue
  | .eRemoveQueue => t.atRemoveQueue
  | .eCloseChannel => t.atCloseChannel
  | .eEnd => t.atEnd

/-- `m_state = s; StateMachine();`. -/
def goto (s : State) : Transceiver := (t.enter s).stateMachine

/-! ### The lambdas -/

/-- The lambdas that end with `StateMachine()`: the fields the lambda sets and the state it goes to,
or `none` when its test of `m_state` makes it return at once. -/
def reaction : Callback → Option (Transceiver × State)
  | .createChannelReady =>
    if t.state = .eCreateChannel then
      some (t.setOnError none, if t.listener then .eCheckQueue else .eCreateExchange)
    else none
  | .createChannelError message =>
    if t.state = .eCreateChannel then some (t.setError .eCreateChannelError message, .eEnd)
    else none
  | .checkQueueSuccess name =>
    if t.state = .eCheckQueue then
      some ({ t with queueExist := true, recvQueue := name }, .eCreateExchange)
    else none
  | .checkQueueError _ => if t.state = .eCheckQueue then some (t, .eRecreateChannel) else none
  | .recreateChannelReady =>
    if t.state = .eRecreateChannel then some (t.setOnError none, .eCreateExchange) else none
  | .recreateChannelError message =>
    if t.state = .eRecreateChannel then some (t.setError .eCreateChannelError message, .eEnd)
    else none
  | .createExchangeSuccess =>
    if t.state = .eCreateExchange then some (t, if t.listener then .eCreateQueue else .eReady)
    else none
  | .createExchangeError message =>
    if t.state = .eCreateExchange then
      some (t.setError .eCreateExchangeError message, .eCloseChannel)
    else none
  | .createQueueSuccess name =>
    if t.state = .eCreateQueue then some ({ t with recvQueue := name }, .eBindQueue) else none
  | .createQueueError message =>
    if t.state = .eCreateQueue then some (t.setError .eCreateQueueError message, .eCloseChannel)
    else none
  | .bindQueueSuccess => if t.state = .eBindQueue then some (t, .eCreateConsumer) else none
  | .bindQueueError message =>
    if t.state = .eBindQueue then some (t.setError .eBindQueueError message, .eRemoveQueue)
    else none
  | .createConsumerSuccess consumer =>
    if t.state = .eCreateConsumer then some ({ t with consumerTag := consumer }, .eReady) else none
  | .createConsumerError message =>
    if t.state = .eCreateConsumer then
      some (t.setError .eCreateConsumerError message, .eUnbindQueue)
    else if t.state = .eReady then some (t.setError .eChannelAbruptlyClosedError message, .eEnd)
    else none
  | .readyError message => some (t.setError .eChannelAbruptlyClosedError message, .eEnd)
  | .shutdownSuccess consumer =>
    if t.consumerTag = consumer then some (t, .eUnbindQueue) else none
  | .shutdownError message => some (t.setError .eConsumerCancelError message, .eUnbindQueue)
  | .unbindQueueSuccess => some (t, .eCloseChannel)
  | .unbindQueueError message => some (t.setErrorIfUnset .eUnbindQueueError message, .eEnd)
  | .unbindQueueChannelError message =>
    if t.state = .eUnbindQueue then some (t.setError .eCreateChannelError message, .eEnd) else none
  | .removeQueueSuccess => some (t, .eCloseChannel)
  | .removeQueueError message => some (t.setErrorIfUnset .eRemoveQueueError message, .eEnd)
  | .removeQueueChannelError message =>
    if t.state = .eRemoveQueue then some (t.setError .eCreateChannelError message, .eEnd) else none
  | .closeChannelSuccess => some (t, .eEnd)
  | .closeChannelError message => some (t.setErrorIfUnset .eCloseChannelError message, .eEnd)
  | .unbindQueueReady | .removeQueueReady | .createConsumerReceived _ _ _ | .sendReturned _ _ _ =>
    none

/-- The other lambdas: the ones that issue the operation a new channel was opened for, and the ones
that hand a message to the application. `OnMessage`, called when `m_onMessage` is not installed,
does nothing. -/
def aside : Callback → Transceiver
  | .unbindQueueReady =>
    if t.state = .eUnbindQueue then
      (t.setOnError none).issue (.unbindQueue t.exchange t.recvQueue t.routeIn)
    else t
  | .removeQueueReady =>
    if t.state = .eRemoveQueue then (t.setOnError none).issue (.removeQueue t.recvQueue) else t
  | .createConsumerReceived message deliveryTag redelivered =>
    if t.state = .eReady ∧ t.onMessage then
      { t with log := t.log ++ [.message message deliveryTag redelivered] }
    else t
  | .sendReturned message code description =>
    if t.onBounceMessage then { t with log := t.log ++ [.bounce message code description] } else t
  | _ => t

/-- The body of a lambda, called with its arguments. -/
def call (cb : Callback) : Transceiver :=
  match t.reaction cb with
  | some (u, s) => u.goto s
  | none => t.aside cb

/-! ### The methods -/

/-- `Transceiver::is_running`. -/
def isRunning : Bool := t.state ≠ .eEnd

/-- `Transceiver::ready`. -/
def ready : Bool := t.state = .eReady

/-- `Transceiver::StopTransit`. -/
def stopTransitTable : List (State × State) :=
  [(.eCreateChannel, .eEnd),
   (.eCreateExchange, .eCloseChannel),
   (.eCheckQueue, .eCloseChannel),
   (.eCreateQueue, .eCloseChannel),
   (.eBindQueue, .eRemoveQueue),
   (.eCreateConsumer, .eUnbindQueue),
   (.eReady, .eShutdown)]

/-- `StopTransit[s]`. The subscript of an `std::unordered_map` inserts a value-initialised element
where there is none, and the state whose value is zero is `eCreateChannel`. -/
def stopTransit (s : State) : State := (stopTransitTable.lookup s).getD .eCreateChannel

/-- `(s >= eCreateChannel) && (s <= eReady)`. -/
def State.beforeShutdown : State → Bool
  | .eCreateChannel | .eCheckQueue | .eRecreateChannel | .eCreateExchange | .eCreateQueue
  | .eBindQueue | .eCreateConsumer | .eReady => true
  | _ => false

/-- `Transceiver::start`. -/
def start (connection : Option ConnectionId) : Transceiver :=
  if t.state = .eEnd then
    { t with connection := connection, error := "", ec := .eNoError, runs := t.runs + 1 }.goto
      .eCreateChannel
  else t

/-- `Transceiver::stop`. -/
def stop : Transceiver :=
  if t.state = .eEnd then t
  else if t.state.beforeShutdown then t.goto (stopTransit t.state)
  else t

/-- `Transceiver::drop`. -/
def drop : Transceiver :=
  if t.state = .eEnd then t
  else (t.setError .eDrop "transceiver dropped").goto .eEnd

/-- The common part of the two overloads of `Transceiver::send`: publish an envelope, and say
whether it was published. -/
def publish (envelope : Message) (route : String) (mandatory : Bool) : Transceiver × Bool :=
  if t.state ≠ .eReady then (t, false)
  else
    ((t.onChannel fun c ↦ { c with publishing := true }).observe
      (.published · t.exchange route envelope (if mandatory then [.mandatory] else [])), true)

/-- `Transceiver::send(const std::string&, …)`. -/
def send (message route : String) (mandatory : Bool) : Transceiver × Bool :=
  t.publish { contentType := "text/plain", contentEncoding := "utf-8", body := message } route
    mandatory

end Transceiver

end AmqpAsio
