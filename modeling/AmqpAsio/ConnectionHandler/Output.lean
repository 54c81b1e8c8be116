import AmqpAsio.ConnectionHandler.Sound

/-!
# The bytes a handler sends

`onData` puts each payload into a buffer of its own at the end of `m_outBufs`, and `async_write`
takes bytes from the buffer in front. Below, a handler is followed with the contents of its buffers:
what `m_outBufs` holds, which buffers are being written, and which bytes the socket has accepted.
The sizes of the contents are the sizes that the handler itself knows (`Flowing.sizes`), and the
bytes accepted, followed by the contents, are the payloads of the connection, whatever is called in
between (`inOrder_of_reachable`).
-/

set_option autoImplicit false
set_option relaxedAutoImplicit false

namespace AmqpAsio

namespace ConnectionHandler

variable {h h' : ConnectionHandler}

/-! ### What steps do to the queue -/

/-- The queue of output buffers, `m_writeReq`, and the number of outstanding writes. -/
def output (h : ConnectionHandler) : List ℕ × Bool × ℕ := (h.outBufs, h.writeReq, h.writes)

theorem output_goto (h : ConnectionHandler) (s : State) : (h.goto s).1.output = h.output := by
  cases s <;> rfl

theorem output_parseOrRead {again : Bool} {expected : ℕ} {r : ConnectionHandler × Continuation}
    (hmethod : h.parseOrRead again expected = some r) : r.1.output = h.output := by
  unfold parseOrRead at hmethod
  split_ifs at hmethod <;> exact Option.some.inj hmethod ▸ rfl

theorem output_onParsed {parsed expected : ℕ} {r : ConnectionHandler × Continuation}
    (hmethod : h.onParsed parsed expected = some r) : r.1.output = h.output := by
  unfold ConnectionHandler.onParsed at hmethod
  split at hmethod
  · exact Option.some.inj hmethod ▸ rfl
  · exact output_parseOrRead (h := { h with inBuf := h.inBuf - parsed }) hmethod

/-- Only `onData` and the completion of a write touch the queue, other than the shutdown. -/
theorem output_method {e : Event} {r : ConnectionHandler × Continuation}
    (hmethod : h.method e = some r) (hdata : ∀ size, e ≠ .onData size)
    (hwrote : ∀ ec bytes, e ≠ .wrote ec bytes) : r.1.output = h.output := by
  cases e with
  | start | parsed | resume => cases hmethod
  | onData size => exact absurd rfl (hdata size)
  | wrote ec bytes => exact absurd rfl (hwrote ec bytes)
  | stop =>
    rw [← Option.some.inj hmethod]
    unfold stop
    split
    · rfl
    · exact output_goto _ _
  | onError message =>
    rw [← Option.some.inj hmethod]
    unfold onError
    split
    · rfl
    · exact output_goto _ _
  | onClosed =>
    rw [← Option.some.inj hmethod]
    unfold onClosed
    split
    · rfl
    · exact output_goto _ _
  | resolved ec =>
    obtain ⟨-, hmethod⟩ := Option.ite_none_left_eq_some.mp hmethod
    rw [← Option.some.inj hmethod]
    simp only [resolved]
    split
    · rfl
    · cases ec <;> exact output_goto _ _
  | connectDone ec =>
    obtain ⟨-, hmethod⟩ := Option.ite_none_left_eq_some.mp hmethod
    rw [← Option.some.inj hmethod]
    simp only [connectDone]
    split
    · rfl
    · cases ec <;> exact output_goto _ _
  | read ec bytes expected =>
    obtain ⟨-, hmethod⟩ := Option.ite_none_left_eq_some.mp hmethod
    simp only [onRead] at hmethod
    split at hmethod
    · exact Option.some.inj hmethod ▸ rfl
    · cases ec with
      | none =>
        have hsame := output_parseOrRead (h := { h with
          readReq := false, reads := h.reads - 1, inBuf := h.inBuf + bytes }) hmethod
        exact hsame
      | some message =>
        simp only at hmethod
        split at hmethod <;> exact Option.some.inj hmethod ▸ rfl

theorem output_push (h : ConnectionHandler) (size : ℕ) :
    (h.push size).output =
      (h.outBufs ++ [size], true, if h.writeReq then h.writes else h.writes + 1) := by
  by_cases hreq : h.writeReq <;> simp [push, output, asyncWrite, hreq]

/-- `onData` pushes one buffer, and begins to write unless a write is outstanding. -/
theorem output_onData (hconnected : h.connected = true) (size : ℕ) :
    (h.onData size).1.output =
      (h.outBufs ++ [size], true, if h.writeReq then h.writes else h.writes + 1) := by
  simp only [onData, hconnected, Bool.not_true, Bool.false_eq_true, ↓reduceIte]
  split <;> exact output_push _ _

/-- What the completion of a write does, as the handler sees it: a failed write leaves the rest of
its buffer in front, a successful one takes an empty buffer away and goes on with the next. -/
theorem output_onWrite (ec : Option String) (bytes : ℕ) {front : ℕ} {rest : List ℕ}
    (hconnected : h.connected = true) (hbufs : h.outBufs = front :: rest) :
    ∃ r, h.onWrite ec bytes = some r ∧
      r.1.output = match ec with
        | some _ => ((front - bytes) :: rest, false, h.writes - 1)
        | none =>
          if front - bytes = 0 then (rest, !rest.isEmpty, h.writes - 1 + if rest = [] then 0 else 1)
          else ((front - bytes) :: rest, true, h.writes - 1 + 1) := by
  have hsame : { h with
      writeReq := false, writes := h.writes - 1
      outBufs := h.outBufs.modifyHead (· - bytes) }.connected = true := hconnected
  simp only [onWrite, hsame, Bool.not_true, Bool.false_eq_true, ↓reduceIte]
  cases ec with
  | some message =>
    by_cases hstate : h.state = .eShutdown
    · exact ⟨_, if_neg (not_not.mpr hstate), by simp [output, hbufs]⟩
    · exact ⟨_, if_pos hstate, by rw [output_goto]; simp [output, hbufs]⟩
  | none =>
    simp only [hbufs, List.modifyHead_cons]
    by_cases hzero : front - bytes = 0
    · cases rest with
      | nil => exact ⟨_, rfl, by simp [output, hzero]⟩
      | cons next rest => exact ⟨_, rfl, by simp [output, asyncWrite, hzero]⟩
    · exact ⟨_, rfl, by simp [output, asyncWrite, hzero]⟩

end ConnectionHandler

namespace ConnectionHandler.Execution

variable {x x' : Execution}

/-- A step leaves the queue alone and keeps the connection, or is an accepted `start()`. -/
structure KeepsOutput (x x' : Execution) : Prop where
  output : x'.handler.output = x.handler.output
  connected : x.handler.connected = true → x'.handler.connected = true
  starts : x'.starts = x.starts ∧
      (x'.handler.state ≠ .eNotConnected → x.handler.state ≠ .eNotConnected) ∨
    x'.starts = x.starts + 1 ∧ x.handler.state = .eNotConnected

/-- A step runs `case eShutdown` to its end, where no write is outstanding. -/
structure ClearsOutput (x x' : Execution) : Prop where
  idle : x.handler.writeReq = false
  output : x'.handler.output = ([], false, x.handler.writes)
  state : x'.handler.state = .eNotConnected
  starts : x'.starts = x.starts

theorem starts_goOn (x : Execution) (next : Continuation) : (x.goOn next).starts = x.starts := by
  cases next <;> simp only [goOn] <;> first | rfl | (split <;> rfl)

/-- Going on leaves the handler as it is, unless its shutdown has nothing to wait for. -/
theorem handler_goOn (x : Execution) (next : Continuation) :
    (x.goOn next).handler = x.handler ∨ next = .shutdownLoop ∧ x.handler.waiting = false ∧
      (x.goOn next).handler = x.handler.endShutdown.1 := by
  cases next with
  | shutdownLoop =>
    by_cases hwaits : x.handler.waiting
    · exact Or.inl (by simp [goOn, hwaits, suspend])
    · exact Or.inr ⟨rfl, by simpa using hwaits, by simp [goOn, hwaits, finish, callback]⟩
  | _ => exact Or.inl rfl

theorem writeReq_of_not_waiting {h : ConnectionHandler} (hwaits : h.waiting = false) :
    h.writeReq = false := by
  simp only [waiting, Bool.or_eq_false_iff] at hwaits
  exact hwaits.2

/-- What a method makes of the connection when it goes on to anything but the end of a shutdown. -/
theorem connected_of_transition {h h' : ConnectionHandler} {next : Continuation}
    (htransition : Transition h h' next) :
    (h.connected = true → h'.connected = true) ∧
      (h'.state ≠ .eNotConnected → h.state ≠ .eNotConnected) := by
  cases next <;> simp only [Transition, State.Advances] at htransition
  case done =>
    rcases htransition with hsame | ⟨⟨hs, hs'⟩ | ⟨hs, hs'⟩ | ⟨hs, hs'⟩, -⟩
    · simp [connected, hsame]
    all_goals simp [connected, hs, hs']
  case connectedCb => simp [connected, htransition.1, htransition.2]
  case shutdownLoop => simp [connected, htransition.1, htransition.2]
  case shutdownCb => rcases htransition.1 with hs | hs <;> simp [connected, hs]
  case parse => simp [connected, htransition.2]

/-- A method that has left the queue in some way goes on with it so, or clears it. -/
theorem output_perform (x : Execution) (message : String) (r : ConnectionHandler × Continuation) :
    ((x.perform message r).handler = r.1 ∨ r.1.writeReq = false ∧
      (x.perform message r).handler.output = ([], false, r.1.writes) ∧
        (x.perform message r).handler.state = .eNotConnected) ∧
      (x.perform message r).starts = x.starts := by
  refine ⟨?_, starts_goOn _ _⟩
  rcases handler_goOn _ r.2 with hsame | ⟨-, hwaits, hended⟩
  · exact Or.inl hsame
  · have hreq := writeReq_of_not_waiting hwaits
    refine Or.inr ⟨hreq, ?_, ?_⟩
    · rw [perform, hended]
      simp only [endShutdown, output_goto]
      exact Prod.ext rfl (Prod.ext hreq rfl)
    · rw [perform, hended]
      rfl

theorem keepsOutput_perform (message : String) {r : ConnectionHandler × Continuation}
    (houtput : r.1.output = x.handler.output) (htransition : Transition x.handler r.1 r.2) :
    KeepsOutput x (x.perform message r) ∨ ClearsOutput x (x.perform message r) := by
  obtain ⟨hhandler, hstarts⟩ := output_perform x message r
  simp only [output, Prod.mk.injEq] at houtput
  rcases hhandler with hsame | ⟨hreq, hcleared, hstate⟩
  · obtain ⟨hconnected, hstate⟩ := connected_of_transition htransition
    exact Or.inl ⟨by simp [output, hsame, houtput], hsame ▸ hconnected,
      Or.inl ⟨hstarts, hsame ▸ hstate⟩⟩
  · exact Or.inr ⟨houtput.2.1 ▸ hreq, houtput.2.2 ▸ hcleared, hstate, hstarts⟩

/-- A step other than `onData` and the completion of a write keeps the queue or clears it. -/
theorem output_step {e : Event} (hstep : x.step e = some x') (hdata : ∀ size, e ≠ .onData size)
    (hwrote : ∀ ec bytes, e ≠ .wrote ec bytes) : KeepsOutput x x' ∨ ClearsOutput x x' := by
  have hmethod (hstep : (if x.pausing then (x.handler.method e).map (x.perform e.message)
      else none) = some x') : KeepsOutput x x' ∨ ClearsOutput x x' := by
    obtain ⟨-, hmap⟩ := Option.ite_none_right_eq_some.mp hstep
    obtain ⟨r, hr, rfl⟩ := Option.map_eq_some_iff.mp hmap
    exact keepsOutput_perform _ (output_method hr hdata hwrote) (transition_method hr)
  cases e with
  | onData size => exact absurd rfl (hdata size)
  | wrote ec bytes => exact absurd rfl (hwrote ec bytes)
  | resume =>
    simp only [step] at hstep
    split at hstep
    · exact Or.inl (Option.some.inj hstep ▸ ⟨rfl, id, Or.inl ⟨rfl, id⟩⟩)
    · exact Or.inl (Option.some.inj hstep ▸ ⟨rfl, id, Or.inl ⟨rfl, id⟩⟩)
    · obtain ⟨hwaits, hstep⟩ := Option.ite_none_left_eq_some.mp hstep
      have hreq := writeReq_of_not_waiting (Bool.not_eq_true _ ▸ hwaits)
      rw [← Option.some.inj hstep]
      exact Or.inr ⟨hreq, Prod.ext rfl (Prod.ext hreq rfl), rfl, rfl⟩
    · cases hstep
    · cases hstep
  | parsed parsed expected =>
    simp only [step] at hstep
    split at hstep
    · next rest _ =>
      obtain ⟨r, hr, rfl⟩ := Option.map_eq_some_iff.mp hstep
      have hkeeps := keepsOutput_perform (x := { x with stack := rest })
        (Event.message (.parsed parsed expected)) (output_onParsed hr) (transition_onParsed hr)
      exact hkeeps.imp (fun h ↦ ⟨h.output, h.connected, h.starts⟩)
        fun h ↦ ⟨h.idle, h.output, h.state, h.starts⟩
    · cases hstep
  | start connectedCb =>
    obtain ⟨-, hstep⟩ := Option.ite_none_right_eq_some.mp hstep
    split at hstep
    · next hstate =>
      rw [← Option.some.inj hstep]
      refine Or.inl ⟨?_, fun hconnected ↦ by simp [connected, hstate] at hconnected,
        Or.inr ⟨?_, hstate⟩⟩
      · simp [ConnectionHandler.start, hstate, perform, goto, stateMachine, goOn, output]
      · exact starts_goOn _ _
    · exact Or.inl (Option.some.inj hstep ▸ ⟨rfl, id, Or.inl ⟨rfl, id⟩⟩)
  | _ => exact hmethod hstep

end ConnectionHandler.Execution

namespace ConnectionHandler

/-! ### The contents of the buffers -/

/-- A buffer of `m_outBufs`: how many buffers had been made before it, the accepted `start()` it was
made under, and the bytes it still holds. -/
structure Buffer where
  number : ℕ
  run : ℕ
  content : List UInt8
  deriving DecidableEq, Repr

/-- An outstanding `async_write`: the buffer it was given, and how many bytes the socket has
accepted from it so far. -/
structure Write where
  buffer : ℕ
  bytes : ℕ
  deriving DecidableEq, Repr

/-- An execution of a handler with the contents of its output: the buffers in `m_outBufs`, the
outstanding writes, the number of buffers made, and, since the last accepted `start()`, the bytes
the socket has accepted and the payloads that `onData` has. -/
structure Transmission where
  execution : Execution
  outBufs : List Buffer
  writing : List Write
  made : ℕ
  accepted : List UInt8
  payloads : List UInt8
  deriving DecidableEq, Repr

/-- What can happen to a transmission: the socket accepts bytes of an outstanding write, the write
completes, `onData` is called with a payload, and everything else that can happen to the handler. -/
inductive Transmission.Event
  | onData (payload : List UInt8)
  | accept (write bytes : ℕ)
  | wrote (write : ℕ) (ec : Option String)
  | other (e : ConnectionHandler.Event)
  deriving DecidableEq, Repr

namespace Transmission

variable (x : Transmission)

/-- The place in `m_outBufs` of the buffer that a write was given. -/
def position (w : Write) : ℕ := x.outBufs.findIdx (·.number = w.buffer)

/-- What the write still has to send. -/
def remaining (w : Write) : List UInt8 :=
  ((x.outBufs[x.position w]?).map (·.content)).getD []

/-- A payload is put into a buffer of its own at the end of the queue. -/
def queue (payload : List UInt8) : Transmission :=
  { x with
    outBufs := x.outBufs ++ [⟨x.made, x.execution.starts, payload⟩]
    made := x.made + 1
    payloads := x.payloads ++ payload }

/-- The socket accepts bytes of a write, and `async_write` consumes them from its buffer. -/
def send (write bytes : ℕ) (w : Write) : Transmission :=
  { x with
    outBufs := x.outBufs.modify (x.position w) fun b ↦ { b with content := b.content.drop bytes }
    writing := x.writing.set write { w with bytes := w.bytes + bytes }
    accepted := x.accepted ++ (x.remaining w).take bytes }

/-- The handler has taken a step. As many buffers have left the queue at its front as the handler
has popped, and every `async_write` it has begun was given the buffer in front. -/
def follow (execution : Execution) : Transmission :=
  let outBufs := x.outBufs.drop (x.outBufs.length - execution.handler.outBufs.length)
  let begun := List.replicate (execution.handler.writes - x.writing.length) outBufs.head?
  { x with
    execution := execution
    outBufs := outBufs
    writing := x.writing ++ begun.filterMap fun front ↦ front.map fun b ↦ ⟨b.number, 0⟩ }

/-- An accepted `start()` begins the bytes of a connection. -/
def restart (starts : ℕ) : Transmission :=
  if x.execution.starts = starts then x else { x with accepted := [], payloads := [] }

/-- One event. A write succeeds only when its buffer is empty. -/
def step : Event → Option Transmission
  | .onData payload =>
    (x.execution.step (.onData payload.length)).map fun execution ↦
      (if x.execution.handler.connected then x.queue payload else x).follow execution
  | .accept write bytes =>
    (x.writing[write]?).bind fun w ↦
      if bytes ≤ (x.remaining w).length then some (x.send write bytes w) else none
  | .wrote write ec =>
    (x.writing[write]?).bind fun w ↦
      if ec = none ∧ x.remaining w ≠ [] then none
      else
        (x.execution.step (.wrote ec w.bytes)).map fun execution ↦
          { x with writing := x.writing.eraseIdx write }.follow execution
  | .other (.onData _) | .other (.wrote _ _) => none
  | .other e =>
    (x.execution.step e).map fun execution ↦ (x.restart execution.starts).follow execution

/-- A handler just constructed. -/
def initial : Transmission where
  execution := { handler := new, stack := [], starts := 0, log := [] }
  outBufs := []
  writing := []
  made := 0
  accepted := []
  payloads := []

/-- The transmissions of a handler from its construction on. -/
def machine : Machine Transmission Event where
  init x := x = initial
  step := step

@[simp] theorem machine_step (x : Transmission) (e : Event) : machine.step x e = x.step e := rfl

/-- The bytes in the queue. -/
def queued : List UInt8 := (x.outBufs.map (·.content)).flatten

/-- What AMQP-CPP hands over reaches the socket unchanged. At most one write is outstanding, it
writes the buffer in front, and no completion takes the front of an empty queue; from a `start()`
until the shutdown has cleared the queue, the bytes accepted and the queue are the payloads; and
whatever is queued belongs to the present connection. -/
structure InOrder (x : Transmission) : Prop where
  single : x.writing.length ≤ 1
  front : ∀ w ∈ x.writing, ∃ b rest, x.outBufs = b :: rest ∧ b.number = w.buffer
  nonempty : x.execution.handler.writes ≠ 0 →
    ∀ ec bytes, x.execution.handler.onWrite ec bytes ≠ none
  stream : x.execution.handler.state ≠ .eNotConnected → x.accepted ++ x.queued = x.payloads
  current : ∀ b ∈ x.outBufs, b.run = x.execution.starts
  cleared : x.execution.handler.connected = false → x.outBufs = [] ∧ x.writing = []

/-! ### The invariant -/

/-- The sizes of the buffers as the handler knows them: it learns of the bytes that a write has sent
when the write completes. -/
def sizes (outBufs : List Buffer) : List Write → List ℕ
  | [] => outBufs.map (·.content.length)
  | w :: _ => (outBufs.map (·.content.length)).modifyHead (· + w.bytes)

/-- The contents fit what the handler knows, and are what the claims about them need. -/
structure Flowing (x : Transmission) : Prop where
  sizes : x.execution.handler.output =
    (sizes x.outBufs x.writing, !x.writing.isEmpty, x.writing.length)
  single : x.writing.length ≤ 1
  front : ∀ w ∈ x.writing, ∃ b rest, x.outBufs = b :: rest ∧ b.number = w.buffer
  stream : x.execution.handler.state ≠ .eNotConnected → x.accepted ++ x.queued = x.payloads
  current : ∀ b ∈ x.outBufs, b.run = x.execution.starts
  cleared : x.execution.handler.connected = false → x.outBufs = []

variable {x}

@[simp] theorem length_sizes (outBufs : List Buffer) (writing : List Write) :
    (Transmission.sizes outBufs writing).length = outBufs.length := by
  cases writing <;> simp [Transmission.sizes]

/-- A transmission writes nothing, or the buffer in front. -/
theorem Flowing.cases (hflowing : x.Flowing) :
    x.writing = [] ∨ ∃ w b rest, x.writing = [w] ∧ x.outBufs = b :: rest ∧ b.number = w.buffer := by
  rcases hwriting : x.writing with - | ⟨w, writing⟩
  · exact Or.inl rfl
  · obtain ⟨b, rest, hbufs, hnumber⟩ := hflowing.front w (by simp [hwriting])
    have hsingle := hflowing.single
    rw [hwriting, List.length_cons] at hsingle
    obtain rfl : writing = [] := List.eq_nil_of_length_eq_zero (by omega)
    exact Or.inr ⟨w, b, rest, rfl, hbufs, hnumber⟩

theorem length_outBufs (hflowing : x.Flowing) :
    x.execution.handler.outBufs.length = x.outBufs.length := by
  rw [← length_sizes x.outBufs x.writing]
  exact congrArg (·.1.length) hflowing.sizes

theorem writes_eq (hflowing : x.Flowing) : x.execution.handler.writes = x.writing.length :=
  congrArg (·.2.2) hflowing.sizes

theorem writeReq_eq (hflowing : x.Flowing) : x.execution.handler.writeReq = !x.writing.isEmpty :=
  congrArg (·.2.1) hflowing.sizes

/-- The write in front sends the buffer in front. -/
theorem position_eq {w : Write} {b : Buffer} {rest : List Buffer} (hbufs : x.outBufs = b :: rest)
    (hnumber : b.number = w.buffer) : x.position w = 0 ∧ x.remaining w = b.content := by
  have hposition : x.position w = 0 := by simp [position, hbufs, List.findIdx_cons, hnumber]
  exact ⟨hposition, by simp [remaining, hposition, hbufs]⟩

/-! ### Following a step -/

/-- A step that neither pops nor begins a write changes nothing of the contents. -/
theorem follow_of_eq (x : Transmission) {execution : Execution}
    (hlength : execution.handler.outBufs.length = x.outBufs.length)
    (hwrites : execution.handler.writes = x.writing.length) :
    x.follow execution = { x with execution := execution } := by
  simp [follow, hlength, hwrites]

/-- A step that empties the queue while nothing is written. -/
theorem follow_of_cleared (x : Transmission) {execution : Execution}
    (hbufs : execution.handler.outBufs = []) (hwriting : x.writing = [])
    (hwrites : execution.handler.writes = 0) :
    x.follow execution = { x with execution := execution, outBufs := [] } := by
  simp [follow, hbufs, hwriting, hwrites]

/-- A step that begins a write of the buffer in front. -/
theorem follow_of_begun (x : Transmission) {execution : Execution} (b : Buffer) (rest : List Buffer)
    (hlength : execution.handler.outBufs.length = (b :: rest).length)
    (hbufs : x.outBufs.drop (x.outBufs.length - (b :: rest).length) = b :: rest)
    (hwriting : x.writing = []) (hwrites : execution.handler.writes = 1) :
    x.follow execution =
      { x with execution := execution, outBufs := b :: rest, writing := [⟨b.number, 0⟩] } := by
  simp only [follow, hlength, hbufs, hwriting, hwrites]
  rfl

/-- The end of a shutdown clears what is followed. -/
theorem Flowing.clear {execution : Execution} {y : Transmission} (hwriting : y.writing = [])
    (houtput : execution.handler.output = ([], false, 0))
    (hstate : execution.handler.state = .eNotConnected) : (y.follow execution).Flowing := by
  simp only [ConnectionHandler.output, Prod.mk.injEq] at houtput
  rw [follow_of_cleared y houtput.1 hwriting houtput.2.2]
  refine ⟨?_, by simp [hwriting], by simp [hwriting], fun hne ↦ absurd hstate hne, by simp,
    fun _ ↦ rfl⟩
  simp [ConnectionHandler.output, houtput, hwriting, Transmission.sizes]

/-- A step that keeps the queue, or clears it. -/
theorem Flowing.other {execution : Execution} (hflowing : x.Flowing)
    (hstep : x.execution.KeepsOutput execution ∨ x.execution.ClearsOutput execution) :
    ((x.restart execution.starts).follow execution).Flowing := by
  have hwrites := writes_eq hflowing
  rcases hstep with ⟨houtput, hconnected, hstarts⟩ | ⟨hidle, houtput, hstate, -⟩
  · have hsame := houtput.trans hflowing.sizes
    simp only [ConnectionHandler.output, Prod.mk.injEq] at houtput
    have hdown (hdown : execution.handler.connected = false) :
        x.execution.handler.connected = false := by
      by_contra hup
      simp [hconnected (by simpa using hup)] at hdown
    have hbufs : execution.handler.outBufs.length = x.outBufs.length :=
      houtput.1 ▸ length_outBufs hflowing
    rcases hstarts with ⟨hstarts, hstate⟩ | ⟨hstarts, hstate⟩
    · rw [restart, if_pos hstarts.symm, follow_of_eq x hbufs (houtput.2.2.trans hwrites)]
      exact ⟨hsame, hflowing.single, hflowing.front, fun hne ↦ hflowing.stream (hstate hne),
        fun b hb ↦ (hflowing.current b hb).trans hstarts.symm, fun h ↦ hflowing.cleared (hdown h)⟩
    · -- an accepted `start()` finds an empty queue
      have hempty := hflowing.cleared (by simp [connected, hstate])
      rw [restart, if_neg (by omega), follow_of_eq { x with accepted := [], payloads := [] } hbufs
        (houtput.2.2.trans hwrites)]
      exact ⟨hsame, hflowing.single, hflowing.front, fun _ ↦ by simp [queued, hempty],
        by simp [hempty], fun _ ↦ hempty⟩
  · have hnone : x.writing = [] := by simpa [hidle] using (writeReq_eq hflowing).symm
    refine Flowing.clear ?_ ?_ hstate
    · rw [restart]
      split <;> exact hnone
    · rw [houtput, hwrites, hnone]
      rfl

/-- `onData` queues its payload while the handler is connected. -/
theorem Flowing.onData {payload : List UInt8} (hflowing : x.Flowing) {execution : Execution}
    (hstep : x.execution.step (.onData payload.length) = some execution) :
    ((if x.execution.handler.connected then x.queue payload else x).follow execution).Flowing := by
  have hdone : execution.handler = (x.execution.handler.onData payload.length).1 ∧
      execution.starts = x.execution.starts := by
    obtain ⟨-, hmap⟩ := Option.ite_none_right_eq_some.mp hstep
    obtain ⟨r, hr, rfl⟩ := Option.map_eq_some_iff.mp hmap
    obtain rfl := Option.some.inj hr
    have hnext : (x.execution.handler.onData payload.length).2 = .done := by
      unfold ConnectionHandler.onData
      split_ifs <;> rfl
    refine ⟨?_, Execution.starts_goOn _ _⟩
    rw [Execution.perform, hnext]
    rfl
  have hwrites := writes_eq hflowing
  have hreq := writeReq_eq hflowing
  have hlength := length_outBufs hflowing
  by_cases hup : x.execution.handler.connected
  · have houtput := output_onData hup payload.length
    rw [← hdone.1] at houtput
    have hconnected : execution.handler.connected = true := by
      rw [hdone.1]
      exact (Execution.connected_of_transition (transition_onData _ _)).1 hup
    have hstream : (x.queue payload).accepted ++ (x.queue payload).queued =
        (x.queue payload).payloads := by
      have hstate : x.execution.handler.state ≠ .eNotConnected := by
        rintro hstate
        simp [connected, hstate] at hup
      simp [queue, queued, ← hflowing.stream hstate]
    have hcurrent : ∀ b ∈ (x.queue payload).outBufs, b.run = execution.starts := by
      intro b hb
      rw [hdone.2]
      rcases List.mem_append.mp hb with hb | hb
      · exact hflowing.current b hb
      · exact List.mem_singleton.mp hb ▸ rfl
    have hsizes := hflowing.sizes
    simp only [ConnectionHandler.output, Prod.mk.injEq] at houtput hsizes
    rw [if_pos hup]
    rcases hflowing.cases with hnone | ⟨w, b, rest, hone, hbufs, hnumber⟩
    · -- the first buffer of an idle handler, or one behind what a failed write has left
      obtain ⟨b, rest, hqueue⟩ : ∃ b rest, (x.queue payload).outBufs = b :: rest :=
        List.exists_cons_of_ne_nil (by simp [queue])
      have hcount : execution.handler.outBufs.length = (b :: rest).length := by
        rw [houtput.1, ← hqueue, List.length_append, hlength, queue, List.length_append]
        rfl
      rw [follow_of_begun (x.queue payload) b rest hcount (by simp [hqueue]) hnone
        (by simp [houtput, hreq, hnone, hwrites])]
      refine ⟨?_,
        by simp, by simp, fun _ ↦ ?_, hqueue ▸ hcurrent, fun h ↦ by simp [hconnected] at h⟩
      · have hmap : (x.queue payload).outBufs.map (·.content.length) =
            x.outBufs.map (·.content.length) ++ [payload.length] := by simp [queue]
        simp [ConnectionHandler.output, houtput, hreq, hnone, hwrites, hsizes,
          Transmission.sizes, ← hmap, hqueue]
      · simpa [queued, hqueue] using hstream
    · rw [follow_of_eq (x.queue payload) (by simp [houtput, hlength, queue])
        (by simp [houtput, hreq, hone, hwrites, queue])]
      refine ⟨?_, hflowing.single, ?_, fun _ ↦ hstream, hcurrent, fun h ↦ by simp [hconnected] at h⟩
      · simp [ConnectionHandler.output, houtput, hreq, hone, hwrites, hsizes,
          Transmission.sizes, queue, hbufs]
      · simp [queue, hone, hbufs, hnumber]
  · have hsame : execution.handler = x.execution.handler := by
      rw [hdone.1]
      simp [ConnectionHandler.onData, hup]
    rw [if_neg hup, follow_of_eq x (by rw [hsame, hlength]) (by rw [hsame, hwrites])]
    exact ⟨hsame ▸ hflowing.sizes, hflowing.single, hflowing.front,
      fun h ↦ hflowing.stream (hsame ▸ h), fun b hb ↦ (hflowing.current b hb).trans hdone.2.symm,
      fun h ↦ hflowing.cleared (hsame ▸ h)⟩

/-- The bytes that the socket accepts leave the buffer in front. -/
theorem Flowing.send {write bytes : ℕ} {w : Write} (hflowing : x.Flowing)
    (hwrite : x.writing[write]? = some w) (hbytes : bytes ≤ (x.remaining w).length) :
    (x.send write bytes w).Flowing := by
  rcases hflowing.cases with hnone | ⟨w', b, rest, hone, hbufs, hnumber⟩
  · simp [hnone] at hwrite
  · obtain ⟨rfl, rfl⟩ : write = 0 ∧ w' = w := by
      rw [hone, List.getElem?_singleton] at hwrite
      split_ifs at hwrite with hzero
      exact ⟨hzero, Option.some.inj hwrite⟩
    obtain ⟨hposition, hremaining⟩ := position_eq hbufs hnumber
    rw [hremaining] at hbytes
    have hsend : x.send 0 bytes w' = { x with
        outBufs := { b with content := b.content.drop bytes } :: rest
        writing := [{ w' with bytes := w'.bytes + bytes }]
        accepted := x.accepted ++ b.content.take bytes } := by
      simp [Transmission.send, hposition, hremaining, hbufs, hone]
    rw [hsend]
    refine ⟨?_, by simp, by simp [hnumber], fun hstate ↦ ?_, ?_, fun hdown ↦ ?_⟩
    · have hcount : b.content.length - bytes + (w'.bytes + bytes) = b.content.length +
        w'.bytes := by
        omega
      simp [hflowing.sizes, hone, hbufs, Transmission.sizes, hcount]
    · have hstream := hflowing.stream hstate
      simp only [queued, hbufs, List.map_cons, List.flatten_cons] at hstream ⊢
      rw [← hstream, List.append_assoc, ← List.append_assoc (b.content.take bytes),
        List.take_append_drop]
    · have hcurrent := hflowing.current
      rw [hbufs] at hcurrent
      exact List.forall_mem_cons.mpr ⟨hcurrent b (by simp), fun c hc ↦ hcurrent c (by simp [hc])⟩
    · simp [hflowing.cleared hdown] at hbufs

/-- A handler that writes has something in its queue and is connected. -/
theorem Flowing.connected {w : Write} {b : Buffer} {rest : List Buffer} (hflowing : x.Flowing)
    (hone : x.writing = [w]) (hbufs : x.outBufs = b :: rest) :
    x.execution.handler.connected = true ∧
      x.execution.handler.outBufs = (b.content.length + w.bytes) :: rest.map
      (·.content.length) := by
  constructor
  · by_contra hdown
    simp [hflowing.cleared (by simpa using hdown)] at hbufs
  · have hsizes := congrArg (·.1) hflowing.sizes
    simpa [ConnectionHandler.output, Transmission.sizes, hone, hbufs] using hsizes

/-- The completion of a write keeps the contents in order. -/
theorem Flowing.wrote {write : ℕ} {w : Write} {ec : Option String} {execution : Execution}
    (hflowing : x.Flowing) (hwrite : x.writing[write]? = some w)
    (hempty : ¬ (ec = none ∧ x.remaining w ≠ []))
    (hstep : x.execution.step (.wrote ec w.bytes) = some execution) :
    ({ x with writing := x.writing.eraseIdx write }.follow execution).Flowing := by
  rcases hflowing.cases with hnone | ⟨w', b, rest, hone, hbufs, hnumber⟩
  · simp [hnone] at hwrite
  obtain ⟨rfl, rfl⟩ : write = 0 ∧ w' = w := by
    rw [hone, List.getElem?_singleton] at hwrite
    split_ifs at hwrite with hzero
    exact ⟨hzero, Option.some.inj hwrite⟩
  have herase : x.writing.eraseIdx 0 = [] := by rw [hone]; rfl
  obtain ⟨hup, hsizes⟩ := hflowing.connected hone hbufs
  have hwrites : x.execution.handler.writes = 1 := by rw [writes_eq hflowing, hone]; rfl
  obtain ⟨r, hr, houtput⟩ := output_onWrite ec w'.bytes hup hsizes
  have hperform : execution = x.execution.perform (Event.message (.wrote ec w'.bytes)) r := by
    obtain ⟨-, hmap⟩ := Option.ite_none_right_eq_some.mp hstep
    obtain ⟨r', hr', rfl⟩ := Option.map_eq_some_iff.mp hmap
    have hsame := (Option.ite_none_left_eq_some.mp hr').2
    rw [Option.some.inj (hsame.symm.trans hr)]
  obtain ⟨hgoes, hkeeps⟩ := Execution.connected_of_transition (transition_onWrite hr)
  obtain ⟨hhandler, hstarts⟩ := Execution.output_perform x.execution
    (Event.message (.wrote ec w'.bytes)) r
  rw [← hperform] at hhandler hstarts
  have hcurrent : ∀ c ∈ b :: rest, c.run = execution.starts := fun c hc ↦
    (hflowing.current c (hbufs ▸ hc)).trans hstarts.symm
  have hnumbered : (b.content.length + w'.bytes) - w'.bytes = b.content.length := by omega
  rw [hnumbered, hwrites] at houtput
  rw [herase]
  rcases hhandler with hsame | ⟨hreq, hcleared, hstate⟩
  · have hconnected : execution.handler.connected = true := hsame ▸ hgoes hup
    have hdown : execution.handler.connected = false → execution.handler.outBufs = [] :=
      fun hdown ↦ by simp [hconnected] at hdown
    have hstream : x.accepted ++ (b.content ++ (rest.map (·.content)).flatten) = x.payloads := by
      have hrunning : x.execution.handler.state ≠ .eNotConnected := fun hstate ↦ by
        simp [ConnectionHandler.connected, hstate] at hup
      simpa [queued, hbufs] using hflowing.stream hrunning
    rw [← hsame] at houtput
    cases ec with
    | some message =>
      simp only [ConnectionHandler.output, Prod.mk.injEq] at houtput
      rw [follow_of_eq { x with writing := [] } (by simp [houtput, hbufs]) houtput.2.2]
      refine ⟨?_, by simp, by simp, fun _ ↦ ?_, hbufs ▸ hcurrent, fun h ↦ by simp [hconnected] at h⟩
      · simp [ConnectionHandler.output, houtput, Transmission.sizes, hbufs]
      · simpa [queued, hbufs] using hstream
    | none =>
      have hcontent : b.content = [] := by
        rw [← (position_eq hbufs hnumber).2]
        simpa using hempty
      simp only [hcontent, List.length_nil, ↓reduceIte, ConnectionHandler.output, Prod.mk.injEq,
        List.map_eq_nil_iff, List.isEmpty_map] at houtput
      rw [hcontent, List.nil_append] at hstream
      cases rest with
      | nil =>
        rw [follow_of_cleared { x with writing := [] } houtput.1 rfl houtput.2.2]
        refine ⟨?_, by simp, by simp, fun _ ↦ by simpa [queued] using hstream, by simp, fun _ ↦ rfl⟩
        simp [ConnectionHandler.output, houtput, Transmission.sizes]
      | cons c rest =>
        rw [follow_of_begun { x with writing := [] } c rest (by simp [houtput])
          (by simp [hbufs]) rfl (by simp [houtput])]
        refine ⟨?_, by simp, by simp, fun _ ↦ by simpa [queued] using hstream,
          fun d hd ↦ hcurrent d (List.mem_cons_of_mem b hd), fun h ↦ by simp [hconnected] at h⟩
        simp [ConnectionHandler.output, houtput, Transmission.sizes]
  · refine Flowing.clear rfl ?_ hstate
    have hnone : r.1.writes = 0 := by
      cases ec with
      | some message =>
        simp only [ConnectionHandler.output, Prod.mk.injEq] at houtput
        exact houtput.2.2
      | none =>
        have hcontent : b.content = [] := by
          rw [← (position_eq hbufs hnumber).2]
          simpa using hempty
        simp only [hcontent, List.length_nil, ↓reduceIte, ConnectionHandler.output,
          Prod.mk.injEq] at houtput
        cases rest with
        | nil => simpa using houtput.2.2
        | cons c rest => simp [hreq] at houtput
    rw [hcleared, hnone]

/-- The step lemma: whatever happens, the contents stay in order. -/
theorem flowing_step {x' : Transmission} {e : Event} (hflowing : x.Flowing)
    (hstep : x.step e = some x') : x'.Flowing := by
  cases e with
  | onData payload =>
    obtain ⟨execution, hexecution, rfl⟩ := Option.map_eq_some_iff.mp hstep
    exact hflowing.onData hexecution
  | accept write bytes =>
    obtain ⟨w, hwrite, hsend⟩ := Option.bind_eq_some_iff.mp hstep
    obtain ⟨hbytes, hsend⟩ := Option.ite_none_right_eq_some.mp hsend
    exact Option.some.inj hsend ▸ hflowing.send hwrite hbytes
  | wrote write ec =>
    obtain ⟨w, hwrite, hwrote⟩ := Option.bind_eq_some_iff.mp hstep
    obtain ⟨hempty, hwrote⟩ := Option.ite_none_left_eq_some.mp hwrote
    obtain ⟨execution, hexecution, rfl⟩ := Option.map_eq_some_iff.mp hwrote
    exact hflowing.wrote hwrite hempty hexecution
  | other e =>
    have hother (hdata : ∀ size, e ≠ .onData size) (hwrote : ∀ ec bytes, e ≠ .wrote ec bytes)
        (hstep : (x.execution.step e).map (fun execution ↦
          (x.restart execution.starts).follow execution) = some x') : x'.Flowing := by
      obtain ⟨execution, hexecution, rfl⟩ := Option.map_eq_some_iff.mp hstep
      exact hflowing.other (Execution.output_step hexecution hdata hwrote)
    cases e with
    | onData size => cases hstep
    | wrote ec bytes => cases hstep
    | _ => exact hother (by simp) (by simp) hstep

/-- Contents in order are what AMQP-CPP and the socket rely on. -/
theorem Flowing.inOrder (hflowing : x.Flowing) : x.InOrder := by
  refine ⟨hflowing.single, hflowing.front, fun hwrites ec bytes ↦ ?_, hflowing.stream,
    hflowing.current, fun hdown ↦ ?_⟩
  · rcases hflowing.cases with hnone | ⟨w, b, rest, hone, hbufs, -⟩
    · simp [writes_eq hflowing, hnone] at hwrites
    · obtain ⟨hup, hsizes⟩ := hflowing.connected hone hbufs
      obtain ⟨r, hr, -⟩ := output_onWrite ec bytes hup hsizes
      simp [hr]
  · have hbufs := hflowing.cleared hdown
    refine ⟨hbufs, ?_⟩
    rcases hflowing.cases with hnone | ⟨w, b, rest, -, hcons, -⟩
    · exact hnone
    · simp [hbufs] at hcons

/-- However `onData`, the completions of writes and the shutdowns of any number of connections are
interleaved, the bytes go out in order, one write at a time. -/
theorem inOrder_of_reachable (hreachable : machine.Reachable x) : x.InOrder := by
  refine Flowing.inOrder
    (hreachable.invariant (I := Flowing) ?_ fun s e s' hs hstep ↦ flowing_step hs hstep)
  rintro s rfl
  exact ⟨rfl, by simp [initial], by simp [initial], fun _ ↦ rfl, by simp [initial], fun _ ↦ rfl⟩

/-- Two payloads are queued, the first is sent, a `stop()` comes while the second is being sent, the
write fails with a byte of it left, and a third payload comes before the read has ended. -/
def interrupted : List Event :=
  [.other (.start true), .other (.resolved none), .other (.connectDone none), .onData [1, 2, 3],
    .onData [4, 5], .accept 0 3, .other .resume, .wrote 0 none, .accept 0 1, .other .stop,
    .wrote 0 (some "aborted"), .onData [7], .accept 0 1]

/-- The bytes of the interrupted transmission are in order. -/
theorem inOrder_interrupted :
    ∃ x, machine.run initial interrupted = some x ∧ x.accepted = [1, 2, 3, 4, 5] ∧
      x.payloads = [1, 2, 3, 4, 5, 7] ∧ x.InOrder :=
  ⟨_, rfl, rfl, rfl, inOrder_of_reachable ⟨initial, interrupted, rfl, rfl⟩⟩

end Transmission

end ConnectionHandler

end AmqpAsio
