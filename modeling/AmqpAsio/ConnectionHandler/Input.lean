import AmqpAsio.PrefixCode
import AmqpAsio.ConnectionHandler.Sound

/-!
# The bytes a handler receives

`onRead` appends what has been received to `m_inBuf` and hands the buffer to
`AMQP::Connection::parse` as long as `expected()` bytes are there and the last call has parsed any.
Below, a handler is followed from its construction on, with the contents of its input buffer and
with the buffer that each call of `parse` under way was given. AMQP-CPP answers as it likes within
what it promises (`Promised`): `parse` processes complete frames at the front of the buffer, at
least one if one is there, and `expected()` is no more than the next frame needs. Then, while a
connection is up, the frames it is handed and the bytes left over depend only on the bytes received
(`received_of_reachedBy`), provided that a `parse` of an earlier connection does not come back to it
(`Rejoins`): `onRead` would take the bytes that it has parsed from the buffer of the new one
(`not_received_overtaken`).
-/

set_option autoImplicit false
set_option relaxedAutoImplicit false

namespace AmqpAsio

namespace ConnectionHandler

variable {h : ConnectionHandler}

/-! ### What methods do to the input -/

/-- The number of bytes in `m_inBuf`, `m_readReq`, and the number of outstanding reads. -/
def input (h : ConnectionHandler) : ℕ × Bool × ℕ := (h.inBuf, h.readReq, h.reads)

theorem input_push (h : ConnectionHandler) (size : ℕ) : (h.push size).input = h.input := by
  simp only [push]
  split <;> rfl

/-- What a method other than `onData` and the completion of a read leaves of the input, the
connection and the state. A read that fails has no effect on the buffer, and ends a connection that
is up. -/
structure LeavesInput (h : ConnectionHandler) (r : ConnectionHandler × Continuation) : Prop where
  inBuf : r.1.inBuf = h.inBuf
  connection : h.connection = true → r.1.connection = true
  parse : r.2 ≠ .parse
  ready : r.1.state = .eReady → h.state = .eReady
  reads : r.1.readReq = h.readReq ∧ r.1.reads = h.reads ∨
    r.1.readReq = false ∧ r.1.reads = h.reads - 1 ∧ (h.ready = true → r.2 = .shutdownLoop)

theorem leavesInput_method {e : Event} {r : ConnectionHandler × Continuation}
    (hmethod : h.method e = some r) (hdata : ∀ size, e ≠ .onData size)
    (hread : ∀ bytes expected, e ≠ .read none bytes expected) : LeavesInput h r := by
  have hsame : LeavesInput h (h, .done) := ⟨rfl, id, by simp, id, Or.inl ⟨rfl, rfl⟩⟩
  cases e with
  | start | parsed | resume => cases hmethod
  | onData size => exact absurd rfl (hdata size)
  | stop =>
    rw [← Option.some.inj hmethod]
    unfold stop
    split
    · exact hsame
    · exact ⟨rfl, id, by simp [goto, stateMachine], by simp [goto, stateMachine],
        Or.inl ⟨rfl, rfl⟩⟩
  | onError message =>
    rw [← Option.some.inj hmethod]
    unfold onError
    split
    · exact hsame
    · exact ⟨rfl, fun _ ↦ rfl, by simp [goto, stateMachine], by simp [goto, stateMachine],
        Or.inl ⟨rfl, rfl⟩⟩
  | onClosed =>
    rw [← Option.some.inj hmethod]
    unfold onClosed
    split
    · exact hsame
    · exact ⟨rfl, fun _ ↦ rfl, by simp [goto, stateMachine], by simp [goto, stateMachine],
        Or.inl ⟨rfl, rfl⟩⟩
  | resolved ec =>
    obtain ⟨-, hmethod⟩ := Option.ite_none_left_eq_some.mp hmethod
    rw [← Option.some.inj hmethod]
    simp only [resolved]
    split
    · exact ⟨rfl, id, by simp, id, Or.inl ⟨rfl, rfl⟩⟩
    · cases ec <;> exact ⟨rfl, id, by simp [goto, stateMachine], by simp [goto, stateMachine],
        Or.inl ⟨rfl, rfl⟩⟩
  | connectDone ec =>
    obtain ⟨-, hmethod⟩ := Option.ite_none_left_eq_some.mp hmethod
    rw [← Option.some.inj hmethod]
    simp only [connectDone]
    split
    · exact ⟨rfl, id, by simp, id, Or.inl ⟨rfl, rfl⟩⟩
    · cases ec with
      | some message => exact ⟨rfl, id, by simp [goto, stateMachine], by simp [goto, stateMachine],
          Or.inl ⟨rfl, rfl⟩⟩
      | none =>
        refine ⟨rfl, id, ?_, by simp [goto, stateMachine], Or.inl ⟨rfl, rfl⟩⟩
        simp only [goto, stateMachine]
        split <;> simp
  | read ec bytes expected =>
    cases ec with
    | none => exact absurd rfl (hread bytes expected)
    | some message =>
      obtain ⟨-, hmethod⟩ := Option.ite_none_left_eq_some.mp hmethod
      simp only [onRead] at hmethod
      split at hmethod
      · next hdown =>
        rw [← Option.some.inj hmethod]
        refine ⟨rfl, id, by simp, id, Or.inr ⟨rfl, rfl, fun hready ↦ ?_⟩⟩
        simp only [ready, Bool.or_eq_true, decide_eq_true_eq] at hready
        rcases hready with hs | hs <;> simp [connected, hs] at hdown
      · split at hmethod
        · rw [← Option.some.inj hmethod]
          exact ⟨rfl, id, by simp [goto, stateMachine], by simp [goto, stateMachine],
            Or.inr ⟨rfl, rfl, fun _ ↦ rfl⟩⟩
        · next hshutdown =>
          rw [← Option.some.inj hmethod]
          refine ⟨rfl, id, by simp, id, Or.inr ⟨rfl, rfl, fun hready ↦ ?_⟩⟩
          have hstate : h.state = .eShutdown := not_not.mp hshutdown
          simp [ready, hstate] at hready
  | wrote ec bytes =>
    obtain ⟨-, hmethod⟩ := Option.ite_none_left_eq_some.mp hmethod
    simp only [onWrite] at hmethod
    split at hmethod
    · rw [← Option.some.inj hmethod]
      exact ⟨rfl, id, by simp, id, Or.inl ⟨rfl, rfl⟩⟩
    · cases ec with
      | some message =>
        simp only at hmethod
        split at hmethod
        · rw [← Option.some.inj hmethod]
          exact ⟨rfl, id, by simp [goto, stateMachine], by simp [goto, stateMachine],
            Or.inl ⟨rfl, rfl⟩⟩
        · rw [← Option.some.inj hmethod]
          exact ⟨rfl, id, by simp, id, Or.inl ⟨rfl, rfl⟩⟩
      | none =>
        simp only at hmethod
        split at hmethod
        · cases hmethod
        · rw [← Option.some.inj hmethod]
          split_ifs <;> exact ⟨rfl, id, by simp, id, Or.inl ⟨rfl, rfl⟩⟩

/-- A read may be outstanding, or `parse` be under way. -/
def State.Reads (s : State) : Prop := s = .eReady ∨ s = .eShutdown

/-- A method that leaves the handler where nothing is read has found it so. -/
theorem Transition.not_reads {h' : ConnectionHandler} {next : Continuation}
    (htransition : Transition h h' next) (hstate : ¬ h'.state.Reads) :
    ¬ h.state.Reads ∧ (h'.state ≠ .eNotConnected → h.state ≠ .eNotConnected) := by
  cases next with
  | done =>
    rcases htransition with hsame | ⟨⟨hs, -⟩ | ⟨hs, -⟩ | ⟨-, hs⟩, -⟩
    · exact ⟨hsame ▸ hstate, fun hne ↦ hsame ▸ hne⟩
    · simp [hs, State.Reads]
    · simp [hs, State.Reads]
    · exact absurd (Or.inl hs) hstate
  | connectedCb => simp [htransition.1, State.Reads]
  | shutdownLoop => exact absurd (Or.inr htransition.2) hstate
  | shutdownCb message =>
    obtain ⟨hs | hs, hstopped, -⟩ := htransition <;> simp [hs, hstopped, State.Reads]
  | parse => exact ⟨htransition.2 ▸ hstate, fun hne ↦ htransition.2 ▸ hne⟩

/-! ### The contents of the buffer -/

/-- A call of `parse` under way: the accepted `start()` it was made under, and the bytes it was
given. -/
structure Reception.Call where
  run : ℕ
  given : List UInt8
  deriving DecidableEq, Repr

/-- A handler with the contents of `m_inBuf`. While a connection is up, also the bytes that it has
received and the frames of it that `parse` has processed, in order. Last, the calls of `parse` under
way, the innermost first. -/
structure Reception where
  execution : Execution
  inBuf : List UInt8
  received : List UInt8
  handed : List (List UInt8)
  calls : List Reception.Call
  deriving DecidableEq, Repr

/-- What can happen to a handler: a read completes with some bytes, `parse` returns after it has
processed some frames, and everything else that can happen to it. The last argument of the first two
is `m_connection->expected()` at the next test of the loop. -/
inductive Reception.Event
  | read (chunk : List UInt8) (expected : ℕ)
  | parsed (frames : List (List UInt8)) (expected : ℕ)
  | other (e : ConnectionHandler.Event)
  deriving DecidableEq, Repr

namespace Reception

variable (x : Reception)

/-- The calls of `parse` under way that were made under the present `start()`. -/
def own : List Call := x.calls.filter (·.run = x.execution.starts)

/-- The handler has taken a step. The end of `case eShutdown` clears `m_inBuf`, and `parse` is
called with what `m_inBuf` holds. -/
def follow (execution : Execution) : Reception :=
  let inBuf := if execution.handler.inBuf = 0 then [] else x.inBuf
  { execution := execution
    inBuf := inBuf
    received := if execution.handler.ready then x.received else []
    handed := if execution.handler.ready then x.handed else []
    calls :=
      if x.calls.length < execution.stack.count .parse then ⟨execution.starts, inBuf⟩ :: x.calls
      else x.calls }

/-- One event. A `parse` that returns to a connection takes what it has parsed from the front of
`m_inBuf`, whichever connection it was called for. -/
def step : Event → Option Reception
  | .read chunk expected =>
    (x.execution.step (.read none chunk.length expected)).map
      { x with
        inBuf := if x.execution.handler.connected then x.inBuf ++ chunk else x.inBuf
        received := x.received ++ chunk }.follow
  | .parsed frames expected =>
    (x.execution.step (.parsed frames.flatten.length expected)).map
      { x with
        inBuf :=
          if x.execution.handler.connected then x.inBuf.drop frames.flatten.length else x.inBuf
        handed :=
          if x.calls.head?.map Call.run = some x.execution.starts then x.handed ++ frames
          else x.handed
        calls := x.calls.tail }.follow
  | .other (.read none _ _) | .other (.parsed _ _) => none
  | .other e => (x.execution.step e).map x.follow

/-- A handler just constructed. -/
def initial : Reception where
  execution := { handler := new, stack := [], starts := 0, log := [] }
  inBuf := []
  received := []
  handed := []
  calls := []

/-- A handler from its construction on. -/
def machine : Machine Reception Event where
  init x := x = initial
  step := step

@[simp] theorem machine_step (x : Reception) (e : Event) : machine.step x e = x.step e := rfl

/-- What AMQP-CPP promises of its frames: `parse` processes complete ones at the front of the
buffer it is given, at least one whenever one is there, and `expected()` does not exceed the bytes
that the next one needs. -/
def Promised (C : PrefixCode UInt8) (x : Reception) : Event → Prop
  | .read chunk expected =>
    x.execution.handler.connected = true → C.Awaits expected (x.inBuf ++ chunk)
  | .parsed frames expected =>
    (∀ call ∈ x.calls.head?, (∀ f ∈ frames, f ∈ C.words) ∧ frames.flatten <+: call.given ∧
      (¬ C.Incomplete call.given → frames ≠ [])) ∧
    (x.execution.handler.connected = true →
      C.Awaits expected (x.inBuf.drop frames.flatten.length))
  | .other _ => True

/-- A call of `parse` that comes back to a handler with a connection comes back to the connection it
was made under. -/
def Rejoins (x : Reception) : Event → Prop
  | .parsed _ _ => x.execution.handler.connected = true →
    x.calls.head?.map Call.run = some x.execution.starts
  | _ => True

/-- The condition of the theorem on the events of a run. -/
structure Orderly (C : PrefixCode UInt8) (x : Reception) (e : Event) : Prop where
  promised : Promised C x e
  rejoins : x.Rejoins e

/-- The next read is armed. -/
def Armed (x : Reception) : Prop := x.execution.handler.reads ≠ 0

/-- The input of a connection does not depend on how it was cut into reads. The bytes received are
the frames handed over followed by the buffer, each byte once and in order; no complete frame is
left when a read is armed; the loop goes on with whatever `parse` returns, calls it at most once
more than there are bytes in the buffer, and then arms a read; and any other connection that is up,
in this or another run, and has received the same bytes has handed over the same frames and left the
same bytes. -/
structure Received (C : PrefixCode UInt8) (x : Reception) : Prop where
  inOrder : x.handed.flatten ++ x.inBuf = x.received
  frames : ∀ f ∈ x.handed, f ∈ C.words
  complete : x.Armed → C.Incomplete x.inBuf
  answered : x.execution.stack.head? = some .parse →
    ∀ frames expected, x.Rejoins (.parsed frames expected) →
      ∃ x', machine.step x (.parsed frames expected) = some x'
  ends : ∀ es x', (∀ e ∈ es, ∃ frames expected, e = .parsed frames expected) →
    machine.Meets (Orderly C) x es → machine.run x es = some x' → es.length ≤ x.inBuf.length + 1
  armed : x.execution.handler.state = .eReady → x.own = [] → x.Armed
  cut : ∀ y, machine.ReachedBy (Orderly C) y → y.execution.handler.ready = true →
    y.received = x.received → x.Armed → y.Armed → y.handed = x.handed ∧ y.inBuf = x.inBuf

/-! ### The invariant -/

variable {x : Reception} {C : PrefixCode UInt8} {execution : Execution}

/-- How the input, and the calls of `parse` under the present `start()`, go with the state. Where
nothing is read the buffer is empty, and while the connection is being established no such call is
under way. From the first data on, either a read is outstanding and the buffer holds no complete
frame, or there is one call of `parse`, which was given the buffer. -/
structure Shape (C : PrefixCode UInt8) (execution : Execution) (inBuf : List UInt8)
    (calls : List Call) : Prop where
  count : calls.length = execution.stack.count .parse
  past : ∀ call ∈ calls, call.run ≤ execution.starts
  size : execution.handler.inBuf = inBuf.length
  reads : execution.handler.reads = execution.handler.readReq.toNat
  single : (calls.filter (·.run = execution.starts)).length + execution.handler.reads ≤ 1
  idle : ¬ execution.handler.state.Reads → execution.handler.readReq = false ∧ inBuf = []
  fresh : ¬ execution.handler.state.Reads → execution.handler.state ≠ .eNotConnected →
    calls.filter (·.run = execution.starts) = []
  connection : execution.handler.state = .eReady → execution.handler.connection = true
  busy : execution.handler.state = .eReady →
    (calls.filter (·.run = execution.starts)).length + execution.handler.reads = 1
  incomplete : execution.handler.state = .eReady → execution.handler.reads ≠ 0 → C.Incomplete inBuf
  given : execution.handler.state = .eReady →
    ∀ call ∈ calls.filter (·.run = execution.starts), call.given = inBuf

/-- The buffer of a connection that is up holds what has been received and not been handed over. -/
structure Receiving (C : PrefixCode UInt8) (x : Reception) : Prop where
  shape : Shape C x.execution x.inBuf x.calls
  inOrder : x.execution.handler.ready = true → x.handed.flatten ++ x.inBuf = x.received
  frames : ∀ f ∈ x.handed, f ∈ C.words
  down : x.execution.handler.ready = false → x.received = [] ∧ x.handed = []

/-- A step, by the buffer and the calls of `parse` that it leaves. -/
theorem receiving_follow (hshape : Shape C execution (x.follow execution).inBuf
      (x.follow execution).calls)
    (hcontents : execution.handler.ready = true →
      x.handed.flatten ++ (x.follow execution).inBuf = x.received ∧ ∀ f ∈ x.handed, f ∈ C.words) :
    (x.follow execution).Receiving C := by
  refine ⟨hshape, fun hready ↦ ?_, ?_, fun hdown ↦ ?_⟩
  · have hup : execution.handler.ready = true := hready
    simpa [follow, hup] using (hcontents hup).1
  · cases hup : execution.handler.ready with
    | true => simpa [follow, hup] using (hcontents hup).2
    | false => simp [follow, hup]
  · have hup : execution.handler.ready = false := hdown
    simp [follow, hup]

theorem follow_inBuf (hinBuf : execution.handler.inBuf = x.inBuf.length) :
    (x.follow execution).inBuf = x.inBuf := by
  simp only [follow, hinBuf]
  split
  · next hempty => exact (List.eq_nil_of_length_eq_zero hempty).symm
  · rfl

theorem follow_calls (hcalls : x.calls.length = execution.stack.count .parse) :
    (x.follow execution).calls = x.calls := by
  simp [follow, hcalls]

/-- `parse` is called with what the buffer holds. -/
theorem follow_parse (hcalls : execution.stack.count .parse = x.calls.length + 1)
    (hinBuf : execution.handler.inBuf = x.inBuf.length) :
    (x.follow execution).calls = ⟨execution.starts, x.inBuf⟩ :: x.calls := by
  have hgiven := follow_inBuf hinBuf
  simp only [follow] at hgiven ⊢
  rw [hgiven, hcalls, if_pos (Nat.lt_succ_self _)]

/-- A step that leaves the calls of `parse` under way and the buffer as they are, and does not make
the connection ready. A read may have failed and the connection have come to its end. -/
theorem Receiving.keeps (h : x.Receiving C) (hstarts : execution.starts = x.execution.starts)
    (hcount : execution.stack.count .parse = x.execution.stack.count .parse)
    (hsize : execution.handler.inBuf = x.execution.handler.inBuf)
    (hreads : execution.handler.readReq = x.execution.handler.readReq ∧
        execution.handler.reads = x.execution.handler.reads ∨
      execution.handler.readReq = false ∧
        execution.handler.reads = x.execution.handler.reads - 1 ∧
        execution.handler.state ≠ .eReady)
    (hconnection : x.execution.handler.connection = true → execution.handler.connection = true)
    (hready : execution.handler.state = .eReady → x.execution.handler.state = .eReady)
    (hstate : ¬ execution.handler.state.Reads → ¬ x.execution.handler.state.Reads ∧
      (execution.handler.state ≠ .eNotConnected → x.execution.handler.state ≠ .eNotConnected)) :
    (x.follow execution).Receiving C := by
  have hshape := h.shape
  have hinBuf : (x.follow execution).inBuf = x.inBuf := follow_inBuf (hsize.trans hshape.size)
  have hle : execution.handler.reads ≤ x.execution.handler.reads := by
    rcases hreads with ⟨-, hsame⟩ | ⟨-, hless, -⟩ <;> omega
  refine receiving_follow ?_ fun hup ↦ ⟨?_, h.frames⟩
  · rw [hinBuf, follow_calls (hshape.count.trans hcount.symm)]
    refine ⟨hshape.count.trans hcount.symm, hstarts ▸ hshape.past, hsize.trans hshape.size, ?_, ?_,
      fun hs ↦ ⟨?_, (hshape.idle (hstate hs).1).2⟩,
      fun hs hne ↦ hstarts ▸ hshape.fresh (hstate hs).1 ((hstate hs).2 hne),
      fun hs ↦ hconnection (hshape.connection (hready hs)), fun hs ↦ ?_, fun hs hne ↦ ?_,
      fun hs ↦ hstarts ▸ hshape.given (hready hs)⟩
    · have := hshape.single
      rcases hreads with ⟨hreq, hsame⟩ | ⟨hreq, hless, -⟩
      · rw [hsame, hreq, hshape.reads]
      · simp only [hless, hreq, Bool.toNat_false]
        omega
    · have := hshape.single
      rw [hstarts]
      omega
    · rcases hreads with ⟨hreq, -⟩ | ⟨hreq, -⟩
      · exact hreq.trans (hshape.idle (hstate hs).1).1
      · exact hreq
    · rcases hreads with ⟨-, hsame⟩ | ⟨-, -, hne⟩
      · rw [hstarts, hsame]
        exact hshape.busy (hready hs)
      · exact absurd hs hne
    · exact hshape.incomplete (hready hs) (by omega)
  · rw [hinBuf]
    cases hbefore : x.execution.handler.ready with
    | true => exact h.inOrder hbefore
    | false =>
      -- the connection has just been established
      have hidle : ¬ execution.handler.state.Reads := by
        rintro (hs | hs)
        · simp [ConnectionHandler.ready, hready hs] at hbefore
        · simp [ConnectionHandler.ready, hs] at hup
      obtain ⟨hreceived, hhanded⟩ := h.down hbefore
      simp [hreceived, hhanded, (hshape.idle (hstate hidle).1).2]

/-- The end of `case eShutdown`, with nothing outstanding. -/
theorem Receiving.finish {u : ConnectionHandler} {stack : List Frame} {log : List Observation}
    (h : x.Receiving C) (hcount : stack.count .parse = x.execution.stack.count .parse)
    (hreads : u.reads = u.readReq.toNat) (hwaits : u.waiting = false) :
    (x.follow ⟨u.endShutdown.1, .shutdownCb :: stack, x.execution.starts, log⟩).Receiving C := by
  have hshape := h.shape
  have hsingle := hshape.single
  have hcalls : x.calls.length = (Frame.shutdownCb :: stack).count .parse := by
    simp [hshape.count, hcount]
  have hreq : u.readReq = false := by
    simp only [waiting, Bool.or_eq_false_iff] at hwaits
    exact hwaits.1
  refine receiving_follow ?_ fun hup ↦ ?_
  · rw [follow_calls hcalls]
    exact ⟨hcalls, hshape.past, rfl, hreads, by
        simp only [endShutdown, goto, stateMachine, hreads, hreq, Bool.toNat_false]
        omega,
      fun _ ↦ ⟨hreq, rfl⟩, fun _ hne ↦ absurd rfl hne, by simp [endShutdown, goto, stateMachine],
      by simp [endShutdown, goto, stateMachine], by simp [endShutdown, goto, stateMachine],
      by simp [endShutdown, goto, stateMachine]⟩
  · simp [endShutdown, goto, stateMachine, ConnectionHandler.ready] at hup

/-- A method that neither sends nor reads. -/
theorem Receiving.method {e : ConnectionHandler.Event} {r : ConnectionHandler × Continuation}
    {message : String} (h : x.Receiving C) (hmethod : x.execution.handler.method e = some r)
    (hdata : ∀ size, e ≠ .onData size) (hread : ∀ bytes expected, e ≠ .read none bytes expected) :
    (x.follow (x.execution.perform message r)).Receiving C := by
  have hleaves := leavesInput_method hmethod hdata hread
  have htransition := transition_method hmethod
  have hshape := h.shape
  obtain ⟨v, next⟩ := r
  have hreads : v.reads = v.readReq.toNat := by
    have hsingle := hshape.single
    rcases hleaves.reads with ⟨hreq, hsame⟩ | ⟨hreq, hless, -⟩
    · exact hsame.trans (hshape.reads.trans (congrArg Bool.toNat hreq.symm))
    · have hnone : v.readReq = false := hreq
      have hfewer : v.reads = x.execution.handler.reads - 1 := hless
      rw [hnone, hfewer, Bool.toNat_false]
      omega
  -- the handler goes on without the end of a shutdown
  have hgo (stack : List Frame) (log : List Observation)
      (hcount : stack.count .parse = x.execution.stack.count .parse) :
      (x.follow ⟨v, stack, x.execution.starts, log⟩).Receiving C := by
    refine h.keeps rfl hcount hleaves.inBuf ?_ hleaves.connection hleaves.ready
      htransition.not_reads
    refine hleaves.reads.imp_right fun ⟨hreq, hless, hends⟩ ↦ ⟨hreq, hless, fun hs ↦ ?_⟩
    -- a read that fails ends a connection that is up
    have hup : x.execution.handler.ready = true := by
      simp [ConnectionHandler.ready, hleaves.ready hs]
    rw [hends hup] at htransition
    exact absurd (hs.symm.trans htransition.2) (by simp)
  cases next with
  | done => exact hgo _ _ rfl
  | connectedCb => exact hgo _ _ (by simp)
  | shutdownCb message => exact hgo _ _ (by simp)
  | parse => exact absurd rfl hleaves.parse
  | shutdownLoop =>
    by_cases hwaits : v.waiting = true
    · simpa [Execution.perform, Execution.goOn, hwaits, Execution.suspend] using
        hgo (.shutdownLoop x.execution.starts :: x.execution.stack) _ (by simp)
    · have hfinish (log : List Observation) :
          (x.follow ⟨v.endShutdown.1, .shutdownCb :: x.execution.stack, x.execution.starts,
            log⟩).Receiving C := h.finish rfl hreads (by simpa using hwaits)
      simpa [Execution.perform, Execution.goOn, hwaits, Execution.finish, Execution.callback] using
        hfinish _

/-- The handler sends. The first data arms the first read. -/
theorem Receiving.onData {message : String} (h : x.Receiving C) (size : ℕ) :
    (x.follow (x.execution.perform message (x.execution.handler.onData size))).Receiving C := by
  have hshape := h.shape
  cases hup : x.execution.handler.connected with
  | false =>
    simp only [ConnectionHandler.onData, hup, Bool.not_false, ↓reduceIte]
    exact h.keeps rfl rfl rfl (Or.inl ⟨rfl, rfl⟩) id id fun hs ↦ ⟨hs, id⟩
  | true =>
    by_cases hinit : x.execution.handler.state = .eReceiverInit
    · have hnone : ¬ x.execution.handler.state.Reads := by simp [hinit, State.Reads]
      obtain ⟨hreq, hempty⟩ := hshape.idle hnone
      have hfree := hshape.fresh hnone (by simp [hinit])
      have hreads : x.execution.handler.reads = 0 := by rw [hshape.reads, hreq, Bool.toNat_false]
      have hbefore : x.execution.handler.ready = true := by simp [ConnectionHandler.ready, hinit]
      -- the handler after `async_read_some`, with the data queued
      have hready (v : ConnectionHandler) (log : List Observation)
          (hinput : v.input = (x.execution.handler.inBuf, true, 1)) (hstate : v.state = .eReady)
          (hconnection : v.connection = true) :
          (x.follow ⟨v, x.execution.stack, x.execution.starts, log⟩).Receiving C := by
        simp only [ConnectionHandler.input, Prod.mk.injEq] at hinput
        obtain ⟨hsize, hreq', hone⟩ := hinput
        have hinBuf : (x.follow ⟨v, x.execution.stack, x.execution.starts, log⟩).inBuf = x.inBuf :=
          follow_inBuf (hsize.trans hshape.size)
        refine receiving_follow ?_ fun _ ↦ ⟨hinBuf.symm ▸ h.inOrder hbefore, h.frames⟩
        have hcalls : (x.follow ⟨v, x.execution.stack, x.execution.starts, log⟩).calls = x.calls :=
          follow_calls hshape.count
        rw [hinBuf, hcalls]
        have hreads : State.Reads v.state := Or.inl hstate
        exact ⟨hshape.count, hshape.past, hsize.trans hshape.size, by simp [hone, hreq'],
          by simp [hfree, hone], fun hs ↦ absurd hreads hs, fun hs ↦ absurd hreads hs,
          fun _ ↦ hconnection, fun _ ↦ by simp [hfree, hone],
          fun _ _ ↦ hempty ▸ PrefixCode.incomplete_nil, fun _ ↦ by simp [hfree]⟩
      have hdata : x.execution.handler.onData size =
          (({ x.execution.handler with connection := true }.goto .eReady).1.push size, .done) := by
        simp [ConnectionHandler.onData, connected, hinit]
      rw [hdata]
      refine hready _ _ ((input_push _ size).trans ?_) (state_push _ size) (connection_push _ size)
      simp [ConnectionHandler.input, goto, stateMachine, asyncRead, hreads]
    · have hdata : x.execution.handler.onData size =
          ({ x.execution.handler with connection := true }.push size, .done) := by
        simp [ConnectionHandler.onData, hup, hinit]
      have hinput := input_push { x.execution.handler with connection := true } size
      simp only [ConnectionHandler.input, Prod.mk.injEq] at hinput
      have hstate := state_push { x.execution.handler with connection := true } size
      rw [hdata]
      refine h.keeps rfl rfl hinput.1 (Or.inl hinput.2) (fun _ ↦ connection_push _ size)
        (fun hs ↦ hstate.symm.trans hs) fun hs ↦ ?_
      have hsame : ¬ x.execution.handler.state.Reads := fun hreads ↦ hs (hstate ▸ hreads)
      exact ⟨hsame, fun hne hstopped ↦ hne (hstate.trans hstopped)⟩

/-- The test of the loop, with no read outstanding and no `parse` of the connection under way:
`parse` is called once more, or no complete frame is left and a read is armed. -/
theorem receiving_parseOrRead {v : ConnectionHandler} {stack : List Frame} {again : Bool}
    {expected : ℕ} {message : String} {r : ConnectionHandler × Continuation}
    (hcount : x.calls.length = stack.count .parse)
    (hpast : ∀ call ∈ x.calls, call.run ≤ x.execution.starts) (hown : x.own = [])
    (hstate : v.state.Reads) (hsize : v.inBuf = x.inBuf.length)
    (hnone : v.readReq = false ∧ v.reads = 0)
    (hcontents : v.ready = true → x.handed.flatten ++ x.inBuf = x.received ∧
      ∀ f ∈ x.handed, f ∈ C.words)
    (hawaits : C.Awaits expected x.inBuf)
    (hagain : v.state = .eReady → again = false → C.Incomplete x.inBuf)
    (hmethod : v.parseOrRead again expected = some r) :
    (x.follow ({ x.execution with stack := stack }.perform message r)).Receiving C ∧
      (x.follow ({ x.execution with stack := stack }.perform message r)).inBuf = x.inBuf ∧
      (x.follow ({ x.execution with stack := stack }.perform message r)).execution.handler.state =
        v.state ∧
      ((x.follow ({ x.execution with stack := stack }.perform message r)).Armed ∨
        again = true) := by
  have hown' : x.calls.filter (·.run = x.execution.starts) = [] := hown
  unfold parseOrRead at hmethod
  split_ifs at hmethod with hconnection htest
  · rw [← Option.some.inj hmethod]
    simp only [Bool.and_eq_true, decide_eq_true_eq] at htest
    simp only [Bool.not_eq_true', Bool.not_eq_false] at hconnection
    refine ⟨?_, follow_inBuf hsize, rfl, Or.inr htest.2⟩
    have hgo (log : List Observation) :
        (x.follow ⟨v, .parse :: stack, x.execution.starts, log⟩).Receiving C := by
      have hlength : (Frame.parse :: stack).count .parse = x.calls.length + 1 := by
        rw [List.count_cons_self, hcount]
      have hinBuf : (x.follow ⟨v, .parse :: stack, x.execution.starts, log⟩).inBuf = x.inBuf :=
        follow_inBuf hsize
      have hcalls : (x.follow ⟨v, .parse :: stack, x.execution.starts, log⟩).calls =
          ⟨x.execution.starts, x.inBuf⟩ :: x.calls := follow_parse hlength hsize
      refine receiving_follow ?_ fun hup ↦ hinBuf.symm ▸ hcontents hup
      rw [hinBuf, hcalls]
      exact ⟨hlength.symm, by simpa using hpast, hsize, by simp [hnone], by simp [hown', hnone],
        fun hs ↦ absurd hstate hs, fun hs ↦ absurd hstate hs, fun _ ↦ hconnection,
        fun _ ↦ by simp [hown', hnone], fun _ hne ↦ absurd hnone.2 hne,
        fun _ ↦ by simp [hown']⟩
    exact hgo _
  · rw [← Option.some.inj hmethod]
    simp only [Bool.not_eq_true', Bool.not_eq_false] at hconnection
    refine ⟨?_, follow_inBuf hsize, rfl, Or.inl (Nat.succ_ne_zero _)⟩
    have hgo (log : List Observation) :
        (x.follow ⟨v.asyncRead, stack, x.execution.starts, log⟩).Receiving C := by
      have hinBuf : (x.follow ⟨v.asyncRead, stack, x.execution.starts, log⟩).inBuf = x.inBuf :=
        follow_inBuf hsize
      have hcalls : (x.follow ⟨v.asyncRead, stack, x.execution.starts, log⟩).calls = x.calls :=
        follow_calls hcount
      refine receiving_follow ?_ fun hup ↦ hinBuf.symm ▸ hcontents hup
      rw [hinBuf, hcalls]
      refine ⟨hcount, hpast, hsize, by simp [asyncRead, hnone], by simp [hown', asyncRead, hnone],
        fun hs ↦ absurd hstate hs, fun hs ↦ absurd hstate hs, fun _ ↦ hconnection,
        fun _ ↦ by simp [hown', asyncRead, hnone], fun hs _ ↦ ?_, fun _ ↦ by simp [hown']⟩
      by_cases henough : v.inBuf ≥ expected
      · exact hagain hs (by simpa [henough] using htest)
      · exact hawaits.incomplete (by omega)
    exact hgo _

/-- A read completes: what it has brought is at the end of the buffer. -/
theorem Receiving.read {x' : Reception} {chunk : List UInt8} {expected : ℕ} (h : x.Receiving C)
    (hpromised : Promised C x (.read chunk expected))
    (hstep : x.step (.read chunk expected) = some x') : x'.Receiving C := by
  obtain ⟨execution, hexecution, rfl⟩ := Option.map_eq_some_iff.mp hstep
  obtain ⟨-, hmap⟩ := Option.ite_none_right_eq_some.mp hexecution
  obtain ⟨r, hr, rfl⟩ := Option.map_eq_some_iff.mp hmap
  obtain ⟨hreads, hmethod⟩ := Option.ite_none_left_eq_some.mp hr
  have hshape := h.shape
  have hstate : x.execution.handler.state.Reads := by
    by_contra hidle
    rw [hshape.reads, (hshape.idle hidle).1] at hreads
    exact hreads rfl
  have hup : x.execution.handler.connected = true := by
    rcases hstate with hs | hs <;> simp [connected, hs]
  have hup' : { x.execution.handler with
      readReq := false, reads := x.execution.handler.reads - 1 }.connected = true := hup
  simp only [onRead, hup', Bool.not_true, Bool.false_eq_true, ↓reduceIte] at hmethod
  simp only [hup, ↓reduceIte]
  have hsingle := hshape.single
  have hown : x.own = [] := List.eq_nil_of_length_eq_zero (by
    change (x.calls.filter (·.run = x.execution.starts)).length = 0
    omega)
  refine (receiving_parseOrRead
    (x := { x with inBuf := x.inBuf ++ chunk, received := x.received ++ chunk })
    (v := { x.execution.handler with
      readReq := false
      reads := x.execution.handler.reads - 1
      inBuf := x.execution.handler.inBuf + chunk.length })
    hshape.count hshape.past hown hstate ?_ ⟨rfl, ?_⟩ ?_
    (hpromised hup) (fun _ hnever ↦ absurd hnever (by simp)) hmethod).1
  · simp [hshape.size]
  · change x.execution.handler.reads - 1 = 0
    omega
  · intro hready
    refine ⟨?_, h.frames⟩
    rw [← List.append_assoc, h.inOrder hready]

/-- Away from a connection that is ready, a call of `parse` returns without effect. -/
theorem Shape.pop {inBuf : List UInt8} {calls : List Call} {rest : List Frame}
    (log : List Observation) (hshape : Shape C execution inBuf calls)
    (hstack : execution.stack = .parse :: rest) (hstate : execution.handler.state ≠ .eReady) :
    Shape C ⟨execution.handler, rest, execution.starts, log⟩ inBuf calls.tail := by
  have hcount := hshape.count
  rw [hstack, List.count_cons_self] at hcount
  have hsingle := hshape.single
  have hfewer := ((List.tail_sublist calls).filter (·.run = execution.starts)).length_le
  refine ⟨by simp [hcount], fun call hcall ↦ hshape.past call (List.mem_of_mem_tail hcall),
    hshape.size, hshape.reads, by dsimp only; omega, hshape.idle, fun hs hne ↦ ?_,
    fun hs ↦ absurd hs hstate, fun hs ↦ absurd hs hstate, fun hs ↦ absurd hs hstate,
    fun hs ↦ absurd hs hstate⟩
  rw [hshape.fresh hs hne] at hfewer
  exact List.eq_nil_of_length_eq_zero (Nat.le_zero.mp hfewer)

/-- `parse` returns to its connection, or to a handler without one. The loop of a connection that is
up tests again, or has come to its end. -/
theorem Receiving.parsed {x' : Reception} {frames : List (List UInt8)} {expected : ℕ}
    (h : x.Receiving C) (horderly : Orderly C x (.parsed frames expected))
    (hstep : x.step (.parsed frames expected) = some x') :
    x'.Receiving C ∧ (x.execution.handler.ready = true → x'.execution.handler.ready = true ∧
      (x'.Armed ∨ x'.inBuf.length < x.inBuf.length)) := by
  obtain ⟨⟨hframes, hawaits⟩, hrejoins⟩ := horderly
  obtain ⟨execution, hexecution, rfl⟩ := Option.map_eq_some_iff.mp hstep
  simp only [Execution.step] at hexecution
  split at hexecution
  case h_2 => cases hexecution
  next rest hstack =>
  obtain ⟨r, hmethod, rfl⟩ := Option.map_eq_some_iff.mp hexecution
  have hshape := h.shape
  unfold onParsed at hmethod
  cases hup : x.execution.handler.connected with
  | false =>
    have hdown : x.execution.handler.ready = false := by
      simp only [connected, Bool.or_eq_false_iff] at hup
      simp [ConnectionHandler.ready, hup]
    have hstate : x.execution.handler.state ≠ .eReady := fun hs ↦ by
      simp [ConnectionHandler.ready, hs] at hdown
    simp only [hup, Bool.not_false, ↓reduceIte, Option.some.injEq] at hmethod
    subst hmethod
    refine ⟨?_, fun hready ↦ absurd hready (by simp [hdown])⟩
    have hpopped (handed : List (List UInt8)) (log : List Observation) :
        ({ x with handed := handed, calls := x.calls.tail }.follow
          ⟨x.execution.handler, rest, x.execution.starts, log⟩).Receiving C := by
      have hpop := hshape.pop log hstack hstate
      refine receiving_follow ?_ fun hready ↦ absurd hready (by simp [hdown])
      rw [follow_inBuf (x := { x with handed := handed, calls := x.calls.tail }) hpop.size,
        follow_calls (x := { x with handed := handed, calls := x.calls.tail }) hpop.count]
      exact hpop
    simp only [Bool.false_eq_true, ↓reduceIte]
    exact hpopped _ _
  | true =>
    obtain ⟨call, calls, hcalls, hown⟩ : ∃ call calls, x.calls = call :: calls ∧
        call.run = x.execution.starts := by
      cases hcalls : x.calls with
      | nil => simpa [hcalls] using hrejoins hup
      | cons call calls => exact ⟨call, calls, rfl, by simpa [hcalls] using hrejoins hup⟩
    obtain ⟨hwords, hprefix, hsome⟩ := hframes call (by simp [hcalls])
    have hcount := hshape.count
    have hsingle := hshape.single
    have hfresh := hshape.fresh
    have hgiven := hshape.given
    have hpast := hshape.past
    rw [hstack, List.count_cons_self, hcalls, List.length_cons] at hcount
    rw [hcalls, List.filter_cons_of_pos (by simp [hown])] at hsingle hfresh hgiven
    rw [hcalls] at hpast
    rw [List.length_cons] at hsingle
    have hreads : x.execution.handler.reads = 0 := by omega
    have hreq : x.execution.handler.readReq = false := by
      have := hshape.reads
      rw [hreads] at this
      exact Bool.toNat_eq_zero.mp this.symm
    have hstate : x.execution.handler.state.Reads := by
      by_contra hidle
      have hne : x.execution.handler.state ≠ .eNotConnected := fun hs ↦ by
        simp [connected, hs] at hup
      exact absurd (hfresh hidle hne) (by simp)
    have hready : x.execution.handler.ready = true → x.execution.handler.state = .eReady := by
      intro hready
      rcases hstate with hs | hs
      · exact hs
      · simp [ConnectionHandler.ready, hs] at hready
    simp only [hup, Bool.not_true, Bool.false_eq_true, ↓reduceIte] at hmethod
    simp only [↓reduceIte, hcalls, List.head?_cons, Option.map_some, hown, List.tail_cons]
    have hdrained : calls.filter (·.run = x.execution.starts) = [] :=
      List.eq_nil_of_length_eq_zero (by omega)
    have hcontents (hready' : x.execution.handler.ready = true) :
        (x.handed ++ frames).flatten ++ x.inBuf.drop frames.flatten.length = x.received ∧
          ∀ f ∈ x.handed ++ frames, f ∈ C.words := by
      have hsame := hgiven (hready hready') call List.mem_cons_self
      rw [hsame] at hprefix
      obtain ⟨more, hmore⟩ := hprefix
      have htake : x.inBuf = frames.flatten ++ x.inBuf.drop frames.flatten.length := by
        simp [← hmore]
      refine ⟨?_, fun f hf ↦ (List.mem_append.mp hf).elim (h.frames f) (hwords f)⟩
      rw [List.flatten_append, List.append_assoc, ← htake, h.inOrder hready']
    have hagain (hs : x.execution.handler.state = .eReady)
        (hnothing : (frames.flatten.length ≠ 0 : Bool) = false) :
        C.Incomplete (x.inBuf.drop frames.flatten.length) := by
      have hsame := hgiven hs call List.mem_cons_self
      have hlength : frames.flatten.length = 0 := by simpa using hnothing
      have hnil := PrefixCode.eq_nil_of_flatten hwords (List.eq_nil_of_length_eq_zero hlength)
      rw [hlength, List.drop_zero]
      by_contra hcomplete
      exact hsome (hsame ▸ hcomplete) hnil
    obtain ⟨hreceiving, hinBuf, hkept, hgoes⟩ := receiving_parseOrRead (C := C)
      (x := { x with
        inBuf := x.inBuf.drop frames.flatten.length
        handed := x.handed ++ frames
        calls := calls })
      (v := { x.execution.handler with
        inBuf := x.execution.handler.inBuf - frames.flatten.length })
      (by simpa using hcount) (fun call hcall ↦ hpast call (List.mem_cons_of_mem _ hcall))
      hdrained hstate (by simp [hshape.size]) ⟨hreq, hreads⟩ hcontents (hawaits hup) hagain hmethod
    refine ⟨hreceiving, fun hready' ↦ ⟨?_, hgoes.imp_right fun hparsed ↦ ?_⟩⟩
    · rw [ConnectionHandler.ready, hkept]
      exact hready'
    · rw [hinBuf]
      have hle := (hgiven (hready hready') call List.mem_cons_self ▸ hprefix).length_le
      have hpos : frames.flatten.length ≠ 0 := by simpa using hparsed
      simp only [List.length_drop]
      omega

/-- `start()` is accepted: the calls of `parse` under way belong to earlier connections from now
on. -/
theorem Receiving.start {log : List Observation} {connectedCb : Bool} (h : x.Receiving C)
    (hstopped : x.execution.handler.state = .eNotConnected) :
    (x.follow ⟨(x.execution.handler.start connectedCb).1, x.execution.stack,
      x.execution.starts + 1, log⟩).Receiving C := by
  have hshape := h.shape
  have hidle : ¬ x.execution.handler.state.Reads := by simp [hstopped, State.Reads]
  obtain ⟨hreq, hempty⟩ := hshape.idle hidle
  have hreads : x.execution.handler.reads = 0 := by rw [hshape.reads, hreq, Bool.toNat_false]
  have hearlier : x.calls.filter (·.run = x.execution.starts + 1) = [] := by
    refine List.filter_eq_nil_iff.mpr fun call hcall hown ↦ ?_
    have hpast := hshape.past call hcall
    simp only [decide_eq_true_eq] at hown
    omega
  have hgo (v : ConnectionHandler) (hinput : v.input = x.execution.handler.input)
      (hstate : v.state = .eResolving) :
      (x.follow ⟨v, x.execution.stack, x.execution.starts + 1, log⟩).Receiving C := by
    simp only [ConnectionHandler.input, Prod.mk.injEq] at hinput
    obtain ⟨hsize, hreq', hreads'⟩ := hinput
    have hinBuf : (x.follow ⟨v, x.execution.stack, x.execution.starts + 1, log⟩).inBuf = x.inBuf :=
      follow_inBuf (hsize.trans hshape.size)
    have hcalls : (x.follow ⟨v, x.execution.stack, x.execution.starts + 1, log⟩).calls = x.calls :=
      follow_calls hshape.count
    refine receiving_follow ?_ fun hready ↦ ?_
    · rw [hinBuf, hcalls]
      exact ⟨hshape.count, fun call hcall ↦ (hshape.past call hcall).trans (Nat.le_succ _),
        hsize.trans hshape.size, by simp [hreads', hreads, hreq', hreq],
        by simp [hearlier, hreads', hreads], fun _ ↦ ⟨hreq'.trans hreq, hempty⟩, fun _ _ ↦ hearlier,
        by simp [hstate], by simp [hstate], by simp [hstate], by simp [hstate]⟩
    · simp [ConnectionHandler.ready, hstate] at hready
  simp only [ConnectionHandler.start, hstopped, ne_eq, not_true_eq_false, ↓reduceIte]
  exact hgo _ rfl rfl

/-- Everything else that can happen to a handler. -/
theorem Receiving.other {x' : Reception} {e : ConnectionHandler.Event} (h : x.Receiving C)
    (hstep : x.step (.other e) = some x') : x'.Receiving C := by
  have hshape := h.shape
  have hmethod (hread : ∀ bytes expected, e ≠ .read none bytes expected)
      (hstep : (if x.execution.pausing then (x.execution.handler.method e).map
        (x.execution.perform e.message) else none).map x.follow = some x') : x'.Receiving C := by
    obtain ⟨execution, hexecution, rfl⟩ := Option.map_eq_some_iff.mp hstep
    obtain ⟨-, hmap⟩ := Option.ite_none_right_eq_some.mp hexecution
    obtain ⟨r, hr, rfl⟩ := Option.map_eq_some_iff.mp hmap
    by_cases hdata : ∃ size, e = .onData size
    · obtain ⟨size, rfl⟩ := hdata
      obtain rfl := Option.some.inj hr
      exact h.onData size
    · exact h.method hr (by simpa using hdata) hread
  have hsame : (x.follow x.execution).Receiving C :=
    h.keeps rfl rfl rfl (Or.inl ⟨rfl, rfl⟩) id id fun hs ↦ ⟨hs, id⟩
  cases e with
  | parsed => cases hstep
  | read ec bytes expected =>
    cases ec with
    | none => cases hstep
    | some message => exact hmethod (by simp) hstep
  | start connectedCb =>
    obtain ⟨execution, hexecution, rfl⟩ := Option.map_eq_some_iff.mp hstep
    obtain ⟨-, hexecution⟩ := Option.ite_none_right_eq_some.mp hexecution
    split at hexecution
    · next hstopped =>
      obtain rfl := Option.some.inj hexecution
      have hdone : (x.execution.handler.start connectedCb).2 = .done := by
        simp [ConnectionHandler.start, hstopped, goto, stateMachine]
      simp only [Execution.perform, hdone, Execution.goOn]
      exact h.start hstopped
    · obtain rfl := Option.some.inj hexecution
      exact hsame
  | resume =>
    obtain ⟨execution, hexecution, rfl⟩ := Option.map_eq_some_iff.mp hstep
    simp only [Execution.step] at hexecution
    split at hexecution
    · next rest hstack =>
      obtain rfl := Option.some.inj hexecution
      exact h.keeps rfl (by simp [hstack]) rfl (Or.inl ⟨rfl, rfl⟩) id id fun hs ↦ ⟨hs, id⟩
    · next rest hstack =>
      obtain rfl := Option.some.inj hexecution
      exact h.keeps rfl (by simp [hstack]) rfl (Or.inl ⟨rfl, rfl⟩) id id fun hs ↦ ⟨hs, id⟩
    · next run rest hstack =>
      obtain ⟨hwaits, hexecution⟩ := Option.ite_none_left_eq_some.mp hexecution
      obtain rfl := Option.some.inj hexecution
      exact h.finish (by simp [hstack]) hshape.reads (by simpa using hwaits)
    · cases hexecution
    · cases hexecution
  | _ => exact hmethod (by simp) hstep

/-- The step lemma. -/
theorem receiving_step {x' : Reception} {e : Event} (h : x.Receiving C) (horderly : Orderly C x e)
    (hstep : x.step e = some x') : x'.Receiving C := by
  cases e with
  | read chunk expected => exact h.read horderly.promised hstep
  | parsed frames expected => exact (h.parsed horderly hstep).1
  | other e => exact h.other hstep

theorem receiving_initial : initial.Receiving C := by
  refine ⟨⟨rfl, by simp [initial], rfl, rfl, by decide, fun _ ↦ ⟨rfl, rfl⟩, fun _ _ ↦ rfl, ?_, ?_,
    ?_, ?_⟩, fun _ ↦ rfl, by simp [initial], fun _ ↦ ⟨rfl, rfl⟩⟩ <;> simp [initial, new]

theorem receiving_of_reachedBy (hx : machine.ReachedBy (Orderly C) x) : x.Receiving C :=
  hx.invariant (fun _ hinit ↦ hinit ▸ receiving_initial)
    fun _ _ _ hs horderly hstep ↦ receiving_step hs horderly hstep

theorem connected_of_ready (hready : h.ready = true) : h.connected = true := by
  rw [connected, ← ConnectionHandler.ready, hready, Bool.true_or]

/-- A `parse` that comes back to its connection finds it in `eReady`, with no read armed. -/
theorem Receiving.rejoins {frames : List (List UInt8)} {expected : ℕ} (h : x.Receiving C)
    (hready : x.execution.handler.ready = true) (hrejoins : x.Rejoins (.parsed frames expected)) :
    x.execution.handler.state = .eReady ∧ ¬ x.Armed := by
  obtain ⟨call, calls, hcalls, hown⟩ : ∃ call calls, x.calls = call :: calls ∧
      call.run = x.execution.starts := by
    have hhead := hrejoins (connected_of_ready hready)
    cases hcalls : x.calls with
    | nil => simp [hcalls] at hhead
    | cons call calls => exact ⟨call, calls, rfl, by simpa [hcalls] using hhead⟩
  have hsingle := h.shape.single
  have hfresh := h.shape.fresh
  rw [hcalls, List.filter_cons_of_pos (by simp [hown])] at hsingle hfresh
  simp only [ConnectionHandler.ready, Bool.or_eq_true, decide_eq_true_eq] at hready
  rw [List.length_cons] at hsingle
  refine ⟨hready.resolve_left fun hs ↦ ?_, fun harmed ↦ harmed (by omega)⟩
  exact absurd (hfresh (by simp [hs, State.Reads]) (by simp [hs])) (by simp)

/-- The loop calls `parse` at most once more than there are bytes in the buffer. -/
theorem Receiving.length_le {x' : Reception} {es : List Event} (h : x.Receiving C)
    (hready : x.execution.handler.ready = true)
    (hparsed : ∀ e ∈ es, ∃ frames expected, e = .parsed frames expected)
    (hmeets : machine.Meets (Orderly C) x es) (hrun : machine.run x es = some x') :
    es.length ≤ x.inBuf.length + 1 := by
  induction es generalizing x with
  | nil => simp
  | cons e es ih =>
    obtain ⟨frames, expected, rfl⟩ := hparsed e List.mem_cons_self
    obtain ⟨next, hnext, hrest⟩ := Machine.run_cons_eq_some.mp hrun
    obtain ⟨hreceiving, hgoes⟩ := h.parsed hmeets.1 hnext
    obtain ⟨hready', hgoes⟩ := hgoes hready
    have hlater := fun e he ↦ hparsed e (List.mem_cons_of_mem _ he)
    have hmeets' := hmeets.2 next hnext
    rcases hgoes with harmed | hshorter
    · -- with a read armed the loop has ended
      cases es with
      | nil => simp
      | cons e es =>
        obtain ⟨frames', expected', rfl⟩ := hlater e List.mem_cons_self
        exact absurd harmed (hreceiving.rejoins hready' hmeets'.1.rejoins).2
    · have := ih hreceiving hready' hlater hmeets' hrest
      simp only [List.length_cons]
      omega

/-- While `parse` is under way the loop goes on with whatever it returns. -/
theorem Receiving.answered (h : x.Receiving C) (hready : x.execution.handler.ready = true)
    (htop : x.execution.stack.head? = some .parse) (frames : List (List UInt8)) (expected : ℕ)
    (hrejoins : x.Rejoins (.parsed frames expected)) :
    ∃ x', machine.step x (.parsed frames expected) = some x' := by
  obtain ⟨rest, hstack⟩ : ∃ rest, x.execution.stack = .parse :: rest := by
    cases hs : x.execution.stack with
    | nil => simp [hs] at htop
    | cons f rest => exact ⟨rest, by rw [hs, List.head?_cons] at htop; rw [Option.some.inj htop]⟩
  have hconnection := h.shape.connection (h.rejoins hready hrejoins).1
  obtain ⟨r, hmethod⟩ :
      ∃ r, x.execution.handler.onParsed frames.flatten.length expected = some r := by
    simp only [onParsed, connected_of_ready hready, parseOrRead, hconnection, Bool.not_true,
      Bool.false_eq_true, ↓reduceIte]
    split <;> exact ⟨_, rfl⟩
  simp only [machine_step, step, Execution.step, hstack, hmethod]
  exact ⟨_, rfl⟩

theorem Receiving.incomplete (h : x.Receiving C) (hready : x.execution.handler.ready = true)
    (harmed : x.Armed) : C.Incomplete x.inBuf := by
  simp only [ConnectionHandler.ready, Bool.or_eq_true, decide_eq_true_eq] at hready
  rcases hready with hs | hs
  · have hreq := (h.shape.idle (by simp [hs, State.Reads])).1
    exact absurd (by rw [h.shape.reads, hreq, Bool.toNat_false]) harmed
  · exact h.shape.incomplete hs harmed

/-- In a run in which no `parse` comes back to a later connection than its own, whatever a
connection receives, and however it is cut into reads, AMQP-CPP is handed the same frames, and the
same bytes are left over. -/
theorem received_of_reachedBy (hx : machine.ReachedBy (Orderly C) x)
    (hready : x.execution.handler.ready = true) : x.Received C := by
  have h := receiving_of_reachedBy hx
  refine ⟨h.inOrder hready, h.frames, h.incomplete hready, h.answered hready,
    fun es x' hparsed hmeets hrun ↦ h.length_le hready hparsed hmeets hrun, fun hs hnone ↦ ?_,
    fun y hy hyready hsame hxarmed hyarmed ↦ ?_⟩
  · have hbusy := h.shape.busy hs
    have hown : (x.calls.filter (·.run = x.execution.starts)).length = 0 :=
      congrArg List.length hnone
    change x.execution.handler.reads ≠ 0
    omega
  · have hother := receiving_of_reachedBy hy
    exact PrefixCode.split_unique hother.frames h.frames (hother.incomplete hyready hyarmed)
      (h.incomplete hready hxarmed) (by rw [hother.inOrder hyready, h.inOrder hready, hsame])

/-! ### An instance -/

/-- The length of the payload that the header of a frame announces, from its fourth byte on. -/
def payloadSize (frame : List UInt8) : ℕ :=
  ((frame.drop 3).take 4).foldl (fun n b ↦ 256 * n + b.toNat) 0

/-- The frames of AMQP 0-9-1: a header of seven bytes, the payload and one byte at the end. -/
def amqpFrames : PrefixCode UInt8 where
  words := { f | f.length = 8 + payloadSize f }
  nil_notMem := by simp [payloadSize]
  prefixFree f hf g hg hprefix := by
    obtain ⟨more, rfl⟩ := hprefix
    simp only [Set.mem_ofPred_eq, List.length_append] at hf hg
    have hheader : payloadSize (f ++ more) = payloadSize f := by
      have hdrop : 4 ≤ (f.drop 3).length := by rw [List.length_drop]; omega
      simp only [payloadSize]
      rw [List.drop_append_of_le_length (by omega), List.take_append_of_le_length hdrop]
    have hnone : more = [] := List.eq_nil_of_length_eq_zero (by omega)
    simp [hnone]

theorem amqpFrames_awaits (l : List UInt8) : amqpFrames.Awaits 7 l := by
  intro f hf _
  have hlength : f.length = 8 + payloadSize f := hf
  omega

/-- A heartbeat frame. -/
def heartbeat : List UInt8 := [8, 0, 0, 0, 0, 0, 0, 206]

/-- A connection is established, its first data sent, and `m_connectedCb` returns. -/
def connect : List Event :=
  [.other (.start true), .other (.resolved none), .other (.connectDone none), .other (.onData 8),
    .other .resume, .other (.wrote none 8)]

theorem orderly_connect (x : Reception) : machine.Meets (Orderly C) x connect := by
  refine Machine.meets_of_forall_mem fun e he x ↦ ?_
  simp only [connect, List.mem_cons, List.not_mem_nil, or_false] at he
  rcases he with rfl | rfl | rfl | rfl | rfl | rfl <;> exact ⟨trivial, trivial⟩

theorem promised_read {chunk : List UInt8} : Promised amqpFrames x (.read chunk 7) :=
  fun _ ↦ amqpFrames_awaits _

/-- A call of `parse` that was given a heartbeat frame may return after it. -/
theorem promised_heartbeat (hgiven : x.calls.head?.map Call.given = some heartbeat) :
    Promised amqpFrames x (.parsed [heartbeat] 7) := by
  refine ⟨fun call hcall ↦ ⟨fun f hf ↦ ?_, ?_, by simp⟩, fun _ ↦ amqpFrames_awaits _⟩
  · obtain rfl := List.mem_singleton.mp hf
    exact (by decide : heartbeat.length = 8 + payloadSize heartbeat)
  · rw [Option.mem_def.mp hcall, Option.map_some, Option.some.injEq] at hgiven
    exact ⟨[], by rw [hgiven]; rfl⟩

/-- A heartbeat frame comes in two reads. -/
def cut : List Event := connect ++ [.read [8, 0, 0] 7, .read [0, 0, 0, 0, 206] 7,
  .parsed [heartbeat] 7]

/-- The frame cut into two reads is received as it should be. -/
theorem received_cut :
    ∃ x, machine.run initial cut = some x ∧ x.handed = [heartbeat] ∧ x.inBuf = [] ∧
      x.Received amqpFrames := by
  refine ⟨_, rfl, rfl, rfl, received_of_reachedBy ⟨initial, cut, rfl, rfl, ?_⟩ rfl⟩
  refine Machine.meets_append (orderly_connect _) rfl ?_
  refine Machine.meets_cons ⟨promised_read, trivial⟩ rfl ?_
  refine Machine.meets_cons ⟨promised_read, trivial⟩ rfl ?_
  exact Machine.meets_cons ⟨promised_heartbeat rfl, fun _ ↦ rfl⟩ rfl trivial

/-- Within the `parse` of a heartbeat frame the application stops the handler and starts it again.
The new connection has received four bytes when that `parse` returns. -/
def overtaken : List Event :=
  connect ++ .read heartbeat 7 :: .other .stop :: .other .resume ::
    (connect ++ [.read [8, 0, 0, 0] 7, .parsed [heartbeat] 7])

/-- The bytes of the new connection are gone, and no frame has been handed over for them. -/
theorem not_received_overtaken :
    ∃ x, machine.run initial overtaken = some x ∧
      machine.Meets (Promised amqpFrames) initial overtaken ∧
      x.execution.handler.ready = true ∧ x.received = [8, 0, 0, 0] ∧ x.handed = [] ∧ x.inBuf = [] ∧
      ¬ x.Received amqpFrames := by
  refine ⟨_, rfl, ?_, rfl, rfl, rfl, rfl, fun h ↦ absurd h.inOrder (by decide)⟩
  have hconnect (x : Reception) : machine.Meets (Promised amqpFrames) x connect :=
    (orderly_connect x).mono fun _ _ horderly ↦ horderly.promised
  refine Machine.meets_append (hconnect _) rfl ?_
  refine Machine.meets_cons promised_read rfl ?_
  refine Machine.meets_cons trivial rfl ?_
  refine Machine.meets_cons trivial rfl ?_
  refine Machine.meets_append (hconnect _) rfl ?_
  refine Machine.meets_cons promised_read rfl ?_
  exact Machine.meets_cons (promised_heartbeat rfl) rfl trivial

end Reception

end ConnectionHandler

end AmqpAsio
