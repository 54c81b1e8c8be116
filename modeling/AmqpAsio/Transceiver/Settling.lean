import AmqpAsio.Transceiver.Events

/-!
# Where `StateMachine()` comes to rest

A call `m_state = s; StateMachine();` may enter further states before it returns. `path` lists the
states it enters and `landing` is the last of them; `goto_eq` says that the call passes through its
path and then does in the landing state what that state is for (`arrive`): issue an operation, open
a channel, wait for messages or finish. The invariants of a run are proved from this normal form.
-/

set_option autoImplicit false
set_option relaxedAutoImplicit false

namespace AmqpAsio

namespace Transceiver

variable (t : Transceiver)

/-- The states that `m_state = s; StateMachine();` enters, in order. -/
def path : State → List State
  | .eCreateChannel =>
    if t.connection.isSome then [.eCreateChannel] else [.eCreateChannel, .eEnd]
  | .eCheckQueue => if t.queue = "" then [.eCheckQueue, .eCreateExchange] else [.eCheckQueue]
  | .eCreateQueue => if t.queueExist then [.eCreateQueue, .eBindQueue] else [.eCreateQueue]
  | .eShutdown =>
    if t.listener then
      if t.consumerTag = "" then
        if t.recvQueue = "" then [.eShutdown, .eUnbindQueue, .eCloseChannel]
        else [.eShutdown, .eUnbindQueue]
      else [.eShutdown]
    else [.eShutdown, .eCloseChannel]
  | .eUnbindQueue =>
    if t.recvQueue = "" then [.eUnbindQueue, .eCloseChannel] else [.eUnbindQueue]
  | .eRemoveQueue =>
    if t.queueExist then [.eRemoveQueue, .eCloseChannel] else [.eRemoveQueue]
  | s => [s]

/-- The state in which `m_state = s; StateMachine();` comes to rest. -/
def landing (s : State) : State := (t.path s).getLast?.getD s

/-- The transceiver after entering the listed states. -/
def passing (states : List State) : Transceiver :=
  { t with state := states.getLast?.getD t.state, log := t.log ++ states.map .entered }

/-- What `StateMachine()` does in a state in which it comes to rest. -/
def arrive : Transceiver :=
  match t.state with
  | .eCreateChannel => t.newChannel .createChannel .createChannel
  | .eCheckQueue => t.issue (.declarePassive t.queue)
  | .eRecreateChannel => t.closeOld.newChannel .recreateChannel .recreateChannel
  | .eCreateExchange => t.issue (.declareExchange t.exchange exchangeCreationFlags)
  | .eCreateQueue => t.issue (.declareQueue t.queue t.qFlags)
  | .eBindQueue => t.issue (.bindQueue t.exchange t.recvQueue t.routeIn)
  | .eCreateConsumer => t.issue (.consume t.recvQueue)
  | .eReady => t.atReady
  | .eShutdown => t.issue (.cancel t.consumerTag)
  | .eUnbindQueue => t.closeOld.newChannel .unbindQueue .unbindQueue
  | .eRemoveQueue => t.closeOld.newChannel .removeQueue .removeQueue
  | .eCloseChannel => t.issue .close
  | .eEnd => t.atEnd

/-- The error set on the way: only `start()` without a connection sets one. -/
def passingError (s : State) : Transceiver :=
  if s = .eCreateChannel ∧ t.connection = none then
    t.setError .eCreateChannelError "no AMQP connection"
  else t

/-- A call of `StateMachine()` passes through its path and arrives. -/
theorem goto_eq (s : State) :
    t.goto s = ((t.passingError s).passing (t.path s)).arrive := by
  cases s with
  | eCreateChannel =>
    cases hconnection : t.connection <;>
      simp [goto, stateMachine, atCreateChannel, enter, hconnection, passingError, passing, path,
        arrive, setError]
  | eShutdown =>
    by_cases hlistener : t.listener <;> by_cases htag : t.consumerTag = "" <;>
      by_cases hqueue : t.recvQueue = "" <;>
      simp [goto, stateMachine, atShutdown, atUnbindQueue, atCloseChannel, enter, hlistener, htag,
        hqueue, passingError, passing, path, arrive]
  | eCheckQueue =>
    by_cases hqueue : t.queue = "" <;>
      simp [goto, stateMachine, atCheckQueue, atCreateExchange, enter, hqueue, passingError,
        passing, path, arrive]
  | eCreateQueue =>
    by_cases hexist : t.queueExist <;>
      simp [goto, stateMachine, atCreateQueue, atBindQueue, enter, hexist, passingError, passing,
        path, arrive]
  | eUnbindQueue =>
    by_cases hqueue : t.recvQueue = "" <;>
      simp [goto, stateMachine, atUnbindQueue, atCloseChannel, enter, hqueue, passingError,
        passing, path, arrive]
  | eRemoveQueue =>
    by_cases hexist : t.queueExist <;>
      simp [goto, stateMachine, atRemoveQueue, atCloseChannel, enter, hexist, passingError,
        passing, path, arrive]
  | _ => simp [goto, stateMachine, enter, passingError, passing, path, arrive, atRecreateChannel,
      atCreateExchange, atBindQueue, atCreateConsumer, atCloseChannel]

/-! ### The states entered -/

/-- The states a list of observations enters, in order. -/
def statesEntered (log : List Observation) : List State :=
  log.filterMap fun
    | .entered s => some s
    | _ => none

@[simp] theorem statesEntered_append (first second : List Observation) :
    statesEntered (first ++ second) = statesEntered first ++ statesEntered second := by
  simp [statesEntered]

@[simp] theorem statesEntered_map_entered (states : List State) :
    statesEntered (states.map .entered) = states := by
  simp [statesEntered, List.filterMap_map]

@[simp] theorem state_passingError (s : State) : (t.passingError s).state = t.state := by
  unfold passingError
  split <;> rfl

@[simp] theorem log_passingError (s : State) : (t.passingError s).log = t.log := by
  unfold passingError
  split <;> rfl

theorem path_ne_nil (s : State) : t.path s ≠ [] := by
  cases s <;> simp only [path] <;> (repeat' split) <;> simp

theorem getLast?_path (s : State) : (t.path s).getLast? = some (t.landing s) := by
  rw [landing, List.getLast?_eq_some_getLast (t.path_ne_nil s)]
  rfl

theorem landing_mem_path (s : State) : t.landing s ∈ t.path s := by
  exact List.mem_of_getLast? (t.getLast?_path s)

@[simp] theorem state_arrive : t.arrive.state = t.state := by
  cases hstate : t.state <;> simp only [arrive, hstate] <;>
    first
    | exact hstate
    | (unfold atReady; split <;> exact hstate)

/-- A call of `StateMachine()` comes to rest in its landing state. -/
@[simp] theorem state_goto (s : State) : (t.goto s).state = t.landing s := by
  simp [goto_eq, passing, getLast?_path]

/-- Until the end the connection stays. -/
theorem connection_goto {t : Transceiver} {s : State} (hlanding : t.landing s ≠ .eEnd) :
    (t.goto s).connection = t.connection := by
  have hstate : ((t.passingError s).passing (t.path s)).state = t.landing s := by
    simp [passing, getLast?_path]
  have hsame : ((t.passingError s).passing (t.path s)).connection = t.connection := by
    unfold passing passingError
    split <;> rfl
  rw [goto_eq, ← hsame]
  generalize (t.passingError s).passing (t.path s) = v at hstate
  rw [← hstate] at hlanding
  cases hv : v.state <;> simp only [arrive, hv] <;>
    first
    | rfl
    | exact absurd hv hlanding
    | (unfold atReady; split <;> rfl)

/-- Arriving in a state enters no further one. -/
@[simp] theorem statesEntered_arrive : statesEntered t.arrive.log = statesEntered t.log := by
  cases hstate : t.state <;> simp only [arrive, hstate]
  case eReady => unfold atReady; split <;> rfl
  case eEnd => cases hexit : t.onExit <;> simp [atEnd, hexit, statesEntered]
  all_goals
    cases hchannel : t.channel <;>
      simp [issue, observe, onChannel, newChannel, closeOld, hchannel, statesEntered]

/-- A call of `StateMachine()` enters the states of its path. -/
@[simp] theorem statesEntered_goto (s : State) :
    statesEntered (t.goto s).log = statesEntered t.log ++ t.path s := by
  simp [goto_eq, passing]

end Transceiver

end AmqpAsio
