import AmqpAsio.ConnectionHandler.Sound

/-!
# What a stopped handler leaves behind

A handler captures itself in every asynchronous operation it begins, so one that has come back to
`eNotConnected` should have none outstanding and its socket closed. `case eShutdown` waits for reads
and writes only, and closes the socket only if `remote_endpoint` still answers: a resolution or a
connection that a `stop()` interrupts stays outstanding, and the next `start()` may take its
completion for its own. Below, an execution is followed with its socket and with the `start()` that
each outstanding operation was begun under; `quiescent_of_reachedBy` says when the handler is quiet.
-/

set_option autoImplicit false
set_option relaxedAutoImplicit false

namespace AmqpAsio

namespace ConnectionHandler

/-! ### Outstanding operations -/

/-- The asynchronous operations of a handler. -/
inductive Operation
  | resolve
  | connect
  | read
  | write
  deriving DecidableEq, Repr

/-- How many operations of a kind are outstanding. -/
def outstanding (h : ConnectionHandler) : Operation → ℕ
  | .resolve => h.resolves
  | .connect => h.connects
  | .read => h.reads
  | .write => h.writes

/-- The operation that an event completes. -/
def Event.completes : Event → Option Operation
  | .resolved _ => some .resolve
  | .connectDone _ => some .connect
  | .read _ _ _ => some .read
  | .wrote _ _ => some .write
  | _ => none

/-- The connection is being established. -/
def State.Establishing (s : State) : Prop := s = .eResolving ∨ s = .eConnecting

/-- What is remembered of a suspended call: the accepted `start()` it was suspended under, and, for
the loop of `case eShutdown`, whether `remote_endpoint` answered when it was entered. -/
structure Mark where
  run : ℕ
  peer : Bool
  deriving DecidableEq, Repr

/-- An execution with its socket: a mark for each suspended call, whether the socket is open, and
the accepted `start()` that each outstanding operation was begun under. -/
structure Lifecycle where
  execution : Execution
  marks : List Mark
  isOpen : Bool
  begun : Operation → List ℕ

/-- An event, with the `start()` that the completed operation was begun under and the answer of
`remote_endpoint` should the event enter `case eShutdown`. -/
structure Lifecycle.Event where
  event : ConnectionHandler.Event
  run : ℕ
  peer : Bool
  deriving DecidableEq, Repr

namespace Lifecycle

variable (x : Lifecycle)

/-- The event enters `case eShutdown`, and with that its loop. -/
def shutsDown (e : ConnectionHandler.Event) : Bool :=
  (x.execution.handler.method e).any (·.2 = .shutdownLoop)

/-- The event runs `case eShutdown` to its end, there having been an answer of `remote_endpoint`. -/
def closes (e : Event) : Bool :=
  match e.event with
  | .resume =>
    match x.execution.stack, x.marks with
    | .shutdownLoop _ :: _, mark :: _ => mark.peer
    | _, _ => false
  | event => e.peer && (x.execution.handler.method event).any fun r ↦
      decide (r.2 = .shutdownLoop) && !r.1.waiting

/-- The operations of a kind that the event leaves outstanding. -/
def remaining (e : Event) (op : Operation) : List ℕ :=
  if e.event.completes = some op then (x.begun op).erase e.run else x.begun op

/-- The handler has taken a step. A newly suspended call is marked, `async_connect` opens the
socket, and operations newly begun belong to the present `start()`. -/
def follow (e : Event) (execution : Execution) : Lifecycle where
  execution := execution
  marks :=
    if x.execution.stack.length < execution.stack.length then
      ⟨execution.starts, e.peer⟩ :: x.marks
    else x.marks.drop (x.execution.stack.length - execution.stack.length)
  isOpen :=
    (x.isOpen || decide (x.execution.handler.connects < execution.handler.connects)) && !x.closes e
  begun op := x.remaining e op ++
    List.replicate (execution.handler.outstanding op - (x.remaining e op).length) execution.starts

/-- One event. The operation it completes is one that is outstanding. -/
def step (e : Event) : Option Lifecycle :=
  if e.event.completes.any fun op ↦ e.run ∉ x.begun op then none
  else (x.execution.step e.event).map (x.follow e)

/-- A handler just constructed. -/
def initial : Lifecycle where
  execution := { handler := new, stack := [], starts := 0, log := [] }
  marks := []
  isOpen := false
  begun _ := []

/-- The life of a handler from its construction on; its destructor calls `stop()`. -/
def machine : Machine Lifecycle Event where
  init x := x = initial
  step := step

@[simp] theorem machine_step (x : Lifecycle) (e : Event) : machine.step x e = x.step e := rfl

/-- A stopped handler has nothing outstanding and its socket is closed, no completion of an earlier
`start()` is to come, and `m_shutdownCb`, and with it a `stop()`, returns to a stopped handler
unless that has been started since. -/
structure Quiescent (x : Lifecycle) : Prop where
  idle : x.execution.handler.state = .eNotConnected → ∀ op, x.begun op = []
  closed : x.execution.handler.state = .eNotConnected → x.isOpen = false
  own : ∀ op, ∀ run ∈ x.begun op, run = x.execution.starts
  stopped : ∀ rest mark marks, x.execution.stack = .shutdownCb :: rest → x.marks = mark :: marks →
    mark.run = x.execution.starts → x.execution.handler.state = .eNotConnected

/-- No `stop()` and no end of a shutdown comes while the connection is being established, no attempt
to connect fails, `remote_endpoint` answers whenever a shutdown begins, and a call of `parse` does
not come back to a later connection than its own. -/
structure Clean (x : Lifecycle) (e : Event) : Prop where
  stop : e.event = .stop → ¬ x.execution.handler.state.Establishing
  resume : e.event = .resume → (∃ run rest, x.execution.stack = .shutdownLoop run :: rest) →
    ¬ x.execution.handler.state.Establishing
  connects : ∀ message, e.event = .connectDone (some message) →
    x.execution.handler.state ≠ .eConnecting
  peer : x.shutsDown e.event = true → e.peer = true
  parsed : ∀ parsed expected, e.event = .parsed parsed expected →
    x.execution.handler.connected = true → (x.marks.head?.map (·.run)) = some x.execution.starts

end Lifecycle

/-! ### What methods do to the operations -/

variable {h : ConnectionHandler} {isOpen : Bool} {parses : ℕ}

/-- What is outstanding in a state, apart from the reads and writes of a connection that is up. -/
def Expects (h : ConnectionHandler) (isOpen : Bool) (parses : ℕ) : State → Prop
  | .eNotConnected =>
    h.resolves = 0 ∧ h.connects = 0 ∧ h.readReq = false ∧ h.writeReq = false ∧ isOpen = false
  | .eResolving =>
    h.resolves = 1 ∧ h.connects = 0 ∧ h.readReq = false ∧ h.writeReq = false ∧ isOpen = false ∧
      parses = 0
  | .eConnecting =>
    h.resolves = 0 ∧ h.connects = 1 ∧ h.readReq = false ∧ h.writeReq = false ∧ parses = 0
  | .eReceiverInit =>
    h.resolves = 0 ∧ h.connects = 0 ∧ h.readReq = false ∧ h.writeReq = false ∧ parses = 0
  | .eReady | .eShutdown => h.resolves = 0 ∧ h.connects = 0

/-- The flags count the reads and writes outstanding, and a read and a call of `parse` under the
present `start()` exclude each other. -/
structure Fits (h : ConnectionHandler) (isOpen : Bool) (parses : ℕ) : Prop where
  reads : h.reads = h.readReq.toNat
  writes : h.writes = h.writeReq.toNat
  single : parses + h.reads ≤ 1
  state : h.Expects isOpen parses h.state

/-- A handler that is neither stopped nor establishing its connection may begin to shut down. -/
theorem Fits.shutdown (h' : ConnectionHandler) (hfits : h.Fits isOpen parses)
    (hstopped : h.state ≠ .eNotConnected) (hestablishing : ¬ h.state.Establishing)
    (hstate : h'.state = .eShutdown) (hsame : h'.outstanding = h.outstanding)
    (hflags : h'.readReq = h.readReq ∧ h'.writeReq = h.writeReq) (isOpen' : Bool) :
    h'.Fits isOpen' parses := by
  have hresolves : h'.resolves = h.resolves := congrFun hsame .resolve
  have hconnects : h'.connects = h.connects := congrFun hsame .connect
  have hreads : h'.reads = h.reads := congrFun hsame .read
  have hwrites : h'.writes = h.writes := congrFun hsame .write
  refine ⟨?_, ?_, hreads ▸ hfits.single, ?_⟩
  · rw [hreads, hflags.1, hfits.reads]
  · rw [hwrites, hflags.2, hfits.writes]
  · have hexpects := hfits.state
    rw [hstate, Expects, hresolves, hconnects]
    cases hs : h.state <;> simp_all [Expects, State.Establishing]

/-- A write is begun while the connection is up and none is outstanding. -/
theorem Fits.asyncWrite (hfits : h.Fits isOpen parses)
    (hstate : h.state = .eReady ∨ h.state = .eShutdown) (hnone : h.writeReq = false) :
    h.asyncWrite.Fits isOpen parses := by
  have hexpects := hfits.state
  refine ⟨hfits.reads,
    by simp [ConnectionHandler.asyncWrite, hfits.writes, hnone], hfits.single, ?_⟩
  rcases hstate with hs | hs <;> simpa [ConnectionHandler.asyncWrite, hs, Expects] using hexpects

/-- Data is queued while the connection is up. -/
theorem Fits.push (hfits : h.Fits isOpen parses) (hstate : h.state = .eReady ∨ h.state = .eShutdown)
    (size : ℕ) : (h.push size).Fits isOpen parses := by
  have hqueued : { h with outBufs := h.outBufs ++ [size] }.Fits isOpen parses :=
    ⟨hfits.reads, hfits.writes, hfits.single, hfits.state⟩
  simp only [ConnectionHandler.push]
  split
  · exact hqueued
  · next hreq => exact hqueued.asyncWrite hstate (by simpa using hreq)

/-- The loop that parses keeps a read and a call of `parse` apart, and opens nothing. -/
theorem Fits.parseOrRead {again : Bool} {expected : ℕ} {r : ConnectionHandler × Continuation}
    (hfits : h.Fits isOpen parses) (hstate : h.state = .eReady ∨ h.state = .eShutdown)
    (hnone : h.readReq = false) (hfree : parses = 0)
    (hmethod : h.parseOrRead again expected = some r) :
    r.1.Fits isOpen (parses + if r.2 = .parse then 1 else 0) ∧ (r.2 = .done ∨ r.2 = .parse) ∧
      r.1.connects = h.connects ∧ r.1.state = h.state := by
  have hexpects := hfits.state
  have hreads : h.reads = 0 := by rw [hfits.reads, hnone]; rfl
  unfold ConnectionHandler.parseOrRead at hmethod
  split_ifs at hmethod
  · rw [← Option.some.inj hmethod]
    refine ⟨⟨hfits.reads, hfits.writes, by simp [hreads, hfree], ?_⟩, Or.inr rfl, rfl, rfl⟩
    rcases hstate with hs | hs <;> simpa [hs, Expects] using hexpects
  · rw [← Option.some.inj hmethod]
    refine ⟨⟨by simp [asyncRead, hreads], hfits.writes, by simp [asyncRead, hreads, hfree], ?_⟩,
      Or.inl rfl, rfl, rfl⟩
    rcases hstate with hs | hs <;> simpa [asyncRead, hs, Expects] using hexpects

/-- A read or a write is outstanding only while the connection is up. -/
theorem Fits.connected (hfits : h.Fits isOpen parses) (hwaits : h.reads ≠ 0 ∨ h.writes ≠ 0) :
    h.state = .eReady ∨ h.state = .eShutdown := by
  have hexpects := hfits.state
  have hreads := hfits.reads
  have hwrites := hfits.writes
  cases hs : h.state <;> simp only [hs, Expects] at hexpects
  case eReady => exact Or.inl rfl
  case eShutdown => exact Or.inr rfl
  all_goals simp [hreads, hwrites, hexpects] at hwaits

/-- The methods keep the operations as the state says. -/
theorem Fits.method {e : Event} {r : ConnectionHandler × Continuation}
    (hfits : h.Fits isOpen parses) (hmethod : h.method e = some r)
    (hstop : e = .stop → ¬ h.state.Establishing)
    (hconnects : ∀ message, e = .connectDone (some message) → h.state ≠ .eConnecting) :
    r.1.Fits (isOpen || decide (h.connects < r.1.connects))
      (parses + if r.2 = .parse then 1 else 0) := by
  have hexpects := hfits.state
  -- a method that does nothing, and one that begins to shut down
  have hsame : h.Fits (isOpen || decide (h.connects < h.connects)) (parses + 0) := by
    simpa using hfits
  have hdown (hup : h.connected = true) (lastError : String) (connection amqpError : Bool) :
      ({ h with
          lastError := lastError
          connection := connection
          amqpError := amqpError }.goto .eShutdown).1.Fits
        (isOpen || decide (h.connects < h.connects)) (parses + 0) := by
    refine hfits.shutdown ({ h with
      lastError := lastError
      connection := connection
      amqpError := amqpError }.goto .eShutdown).1 ?_ ?_ rfl rfl ⟨rfl, rfl⟩ _
    · rintro hs
      simp [ConnectionHandler.connected, hs] at hup
    · rintro (hs | hs) <;> simp [ConnectionHandler.connected, hs] at hup
  cases e with
  | start | parsed | resume => cases hmethod
  | stop =>
    rw [← Option.some.inj hmethod]
    unfold ConnectionHandler.stop
    split
    · exact hsame
    · next hstate =>
      exact hfits.shutdown ({ h with lastError := "" }.goto .eShutdown).1 hstate (hstop rfl) rfl rfl
        ⟨rfl, rfl⟩ _
  | onError message =>
    rw [← Option.some.inj hmethod]
    unfold onError
    split
    · exact hsame
    · next hup => exact hdown (by simpa using hup) _ _ _
  | onClosed =>
    rw [← Option.some.inj hmethod]
    unfold onClosed
    split
    · exact hsame
    · next hup => exact hdown (by simpa using hup) _ _ _
  | onData size =>
    rw [← Option.some.inj hmethod]
    unfold onData
    by_cases hup : h.connected
    case neg => simpa [hup] using hsame
    by_cases hinit : h.state = .eReceiverInit
    · rw [if_neg (by simp [hup]), if_pos hinit]
      simp only [hinit, Expects] at hexpects
      have hready : ({ h with connection := true }.goto .eReady).1.Fits
          (isOpen || decide (h.connects < h.connects)) (parses + 0) := by
        have hreads : h.reads = 0 := by rw [hfits.reads, hexpects.2.2.1]; rfl
        exact ⟨by simp [goto, stateMachine, asyncRead, hreads],
          by simp [goto, stateMachine, asyncRead, hfits.writes],
          by simp [goto, stateMachine, asyncRead, hreads, hexpects],
          by simp [goto, stateMachine, asyncRead, Expects, hexpects]⟩
      have hpush := hready.push (Or.inl rfl) size
      have hconnects : (({ h with connection := true }.goto .eReady).1.push size).connects =
          h.connects := by
        simp only [ConnectionHandler.push]
        split <;> rfl
      simpa [hconnects] using hpush
    · rw [if_neg (by simp [hup]), if_neg hinit]
      have hstate : h.state = .eReady ∨ h.state = .eShutdown := by
        cases hs : h.state <;> simp_all [ConnectionHandler.connected]
      have hpush := Fits.push (h := { h with connection := true })
        ⟨hfits.reads, hfits.writes, hfits.single, hexpects⟩ hstate size
      have hconnects : ({ h with connection := true }.push size).connects = h.connects := by
        simp only [ConnectionHandler.push]
        split <;> rfl
      simpa [hconnects] using hpush
  | resolved ec =>
    obtain ⟨hpending, hmethod⟩ := Option.ite_none_left_eq_some.mp hmethod
    rw [← Option.some.inj hmethod]
    have hstate : h.state = .eResolving := by
      cases hs : h.state <;> simp_all [Expects]
    simp only [hstate, Expects] at hexpects
    obtain ⟨hresolves, hnone, hread, hwrite, hclosed, hfree⟩ := hexpects
    cases ec with
    | some message =>
      simp only [resolved, hstate, ne_eq, not_true_eq_false, ↓reduceIte, goto, stateMachine]
      exact ⟨hfits.reads, hfits.writes, hfits.single, by
        simp [Expects, hresolves, hnone, hread, hwrite, hclosed]⟩
    | none =>
      simp only [resolved, hstate, ne_eq, not_true_eq_false, ↓reduceIte, goto, stateMachine]
      exact ⟨hfits.reads, hfits.writes, hfits.single, by
        simp [Expects, hresolves, hnone, hread, hwrite, hfree]⟩
  | connectDone ec =>
    obtain ⟨hpending, hmethod⟩ := Option.ite_none_left_eq_some.mp hmethod
    rw [← Option.some.inj hmethod]
    have hstate : h.state = .eConnecting := by
      cases hs : h.state <;> simp_all [Expects]
    simp only [hstate, Expects] at hexpects
    obtain ⟨hresolves, hone, hread, hwrite, hfree⟩ := hexpects
    cases ec with
    | some message => exact absurd hstate (hconnects message rfl)
    | none =>
      have hnext : (h.connectDone none).2 ≠ .parse := by
        simp only [connectDone, hstate, ne_eq, not_true_eq_false, ↓reduceIte, goto, stateMachine]
        split <;> simp
      rw [if_neg hnext]
      simp only [connectDone, hstate, ne_eq, not_true_eq_false, ↓reduceIte, goto, stateMachine]
      exact ⟨hfits.reads, hfits.writes, hfits.single, by
        simp [Expects, hresolves, hone, hread, hwrite, hfree]⟩
  | read ec bytes expected =>
    obtain ⟨hpending, hmethod⟩ := Option.ite_none_left_eq_some.mp hmethod
    have hstate := hfits.connected (Or.inl hpending)
    have hup : h.connected = true := by
      rcases hstate with hs | hs <;> simp [ConnectionHandler.connected, hs]
    have hone : h.reads = 1 := by
      have := hfits.single
      omega
    have hfree : parses = 0 := by
      have := hfits.single
      omega
    have hread (inBuf : ℕ) : { h with
        readReq := false, reads := h.reads - 1, inBuf := inBuf }.Fits isOpen parses := by
      refine ⟨by simp [hone], hfits.writes, by simp [hone, hfree], ?_⟩
      rcases hstate with hs | hs <;> simpa [hs, Expects] using hexpects
    have hsame' : { h with readReq := false, reads := h.reads - 1 }.connected = true := hup
    simp only [onRead, hsame', Bool.not_true, Bool.false_eq_true, ↓reduceIte] at hmethod
    cases ec with
    | some message =>
      simp only at hmethod
      split at hmethod
      · next hne =>
        rw [← Option.some.inj hmethod]
        refine (hread h.inBuf).shutdown ({ h with
          readReq := false
          reads := h.reads - 1
          lastError := "read error: " ++ message }.goto .eShutdown).1 ?_ ?_ rfl rfl ⟨rfl, rfl⟩ _
        · rcases hstate with hs | hs <;> simp [hs]
        · rcases hstate with hs | hs <;> simp [hs, State.Establishing]
      · rw [← Option.some.inj hmethod]
        simpa using hread h.inBuf
    | none =>
      obtain ⟨hfits', -, hconnects, -⟩ :=
        (hread (h.inBuf + bytes)).parseOrRead hstate rfl hfree hmethod
      simpa [hconnects] using hfits'
  | wrote ec bytes =>
    obtain ⟨hpending, hmethod⟩ := Option.ite_none_left_eq_some.mp hmethod
    have hstate := hfits.connected (Or.inr hpending)
    have hup : h.connected = true := by
      rcases hstate with hs | hs <;> simp [ConnectionHandler.connected, hs]
    have hone : h.writes = 1 := by
      have hwrites := hfits.writes
      cases hreq : h.writeReq <;> simp [hreq] at hwrites <;> omega
    have hwrite (outBufs : List ℕ) : { h with
        writeReq := false, writes := h.writes - 1, outBufs := outBufs }.Fits isOpen parses := by
      refine ⟨hfits.reads, by simp [hone], hfits.single, ?_⟩
      rcases hstate with hs | hs <;> simpa [hs, Expects] using hexpects
    have hgo (outBufs : List ℕ) :
        let v := { h with writeReq := false, writes := h.writes - 1, outBufs := outBufs }
        (if outBufs = [] then v else v.asyncWrite).Fits
          (isOpen || decide (h.connects < (if outBufs = [] then v else v.asyncWrite).connects))
          (parses + 0) := by
      by_cases hempty : outBufs = []
      · simpa [hempty] using hwrite []
      · simpa [hempty, ConnectionHandler.asyncWrite] using (hwrite outBufs).asyncWrite hstate rfl
    have hsame' : { h with
        writeReq := false, writes := h.writes - 1
        outBufs := h.outBufs.modifyHead (· - bytes) }.connected = true := hup
    simp only [onWrite, hsame', Bool.not_true, Bool.false_eq_true, ↓reduceIte] at hmethod
    cases ec with
    | some message =>
      simp only at hmethod
      split at hmethod
      · rw [← Option.some.inj hmethod]
        refine (hwrite (h.outBufs.modifyHead (· - bytes))).shutdown ({ h with
          writeReq := false
          writes := h.writes - 1
          outBufs := h.outBufs.modifyHead (· - bytes)
          lastError := "write error: " ++ message }.goto .eShutdown).1 ?_ ?_ rfl rfl ⟨rfl, rfl⟩ _
        · rcases hstate with hs | hs <;> simp [hs]
        · rcases hstate with hs | hs <;> simp [hs, State.Establishing]
      · rw [← Option.some.inj hmethod]
        simpa using hwrite (h.outBufs.modifyHead (· - bytes))
    | none =>
      simp only at hmethod
      split at hmethod
      · cases hmethod
      · rw [← Option.some.inj hmethod]
        exact hgo _

/-- Fewer calls of `parse` under way fit as well. -/
theorem Fits.of_le {fewer : ℕ} (hfits : h.Fits isOpen parses) (hle : fewer ≤ parses) :
    h.Fits isOpen fewer := by
  have hsingle := hfits.single
  have hexpects := hfits.state
  refine ⟨hfits.reads, hfits.writes, by omega, ?_⟩
  cases hs : h.state <;> simp only [hs, Expects] at hexpects ⊢ <;> grind

/-- The end of `case eShutdown` leaves nothing outstanding. -/
theorem Fits.finish (hfits : h.Fits isOpen parses) (hestablishing : ¬ h.state.Establishing)
    (hwaits : h.waiting = false) : h.endShutdown.1.Fits false parses := by
  have hexpects := hfits.state
  simp only [waiting, Bool.or_eq_false_iff] at hwaits
  refine ⟨hfits.reads, hfits.writes, hfits.single, ?_⟩
  cases hs : h.state <;>
    simp_all [Expects, State.Establishing, endShutdown, goto, stateMachine]

/-- A stopped handler has nothing outstanding. -/
theorem Fits.stopped (hfits : h.Fits isOpen parses) (hstate : h.state = .eNotConnected) :
    (∀ op, h.outstanding op = 0) ∧ isOpen = false := by
  have hexpects := hfits.state
  simp only [hstate, Expects] at hexpects
  obtain ⟨hresolves, hconnects, hread, hwrite, hclosed⟩ := hexpects
  refine ⟨fun op ↦ ?_, hclosed⟩
  cases op <;> simp [outstanding, hresolves, hconnects, hfits.reads, hfits.writes, hread, hwrite]

theorem outstanding_goto (h : ConnectionHandler) (s : State) (op : Operation) :
    h.outstanding op ≤ (h.goto s).1.outstanding op := by
  cases s <;> cases op <;> simp [goto, stateMachine, asyncRead, outstanding]

theorem outstanding_push (h : ConnectionHandler) (size : ℕ) (op : Operation) :
    h.outstanding op ≤ (h.push size).outstanding op := by
  simp only [push]
  split <;> cases op <;> simp [asyncWrite, outstanding]

theorem outstanding_parseOrRead {again : Bool} {expected : ℕ} {r : ConnectionHandler × Continuation}
    (hmethod : h.parseOrRead again expected = some r) (op : Operation) :
    h.outstanding op ≤ r.1.outstanding op := by
  unfold parseOrRead at hmethod
  split_ifs at hmethod
  · exact Option.some.inj hmethod ▸ Nat.le_refl _
  · rw [← Option.some.inj hmethod]
    cases op <;> simp [asyncRead, outstanding]

/-- An operation leaves only by its completion. -/
theorem outstanding_method {e : Event} {r : ConnectionHandler × Continuation}
    (hmethod : h.method e = some r) (op : Operation) :
    h.outstanding op ≤ r.1.outstanding op + if e.completes = some op then 1 else 0 := by
  cases e with
  | start | parsed | resume => cases hmethod
  | stop =>
    rw [← Option.some.inj hmethod]
    unfold stop
    split
    · exact Nat.le_add_right _ _
    · exact Nat.le_add_right_of_le (outstanding_goto { h with lastError := "" } _ op)
  | onError message =>
    rw [← Option.some.inj hmethod]
    unfold onError
    split
    · exact Nat.le_add_right _ _
    · exact Nat.le_add_right_of_le (outstanding_goto { h with
        connection := true
        lastError := "AMQP-CPP error: " ++ message
        amqpError := true } _ op)
  | onClosed =>
    rw [← Option.some.inj hmethod]
    unfold onClosed
    split
    · exact Nat.le_add_right _ _
    · exact Nat.le_add_right_of_le (outstanding_goto { h with
        connection := true, lastError := "" } _ op)
  | onData size =>
    rw [← Option.some.inj hmethod]
    unfold onData
    have hgoto : h.outstanding op ≤ ({ h with connection := true }.goto .eReady).1.outstanding op :=
      outstanding_goto { h with connection := true } _ op
    split
    · exact Nat.le_add_right _ _
    · split
      · exact Nat.le_add_right_of_le (Nat.le_trans hgoto (outstanding_push _ size op))
      · exact Nat.le_add_right_of_le (outstanding_push { h with connection := true } size op)
  | resolved ec =>
    obtain ⟨hpending, hmethod⟩ := Option.ite_none_left_eq_some.mp hmethod
    rw [← Option.some.inj hmethod]
    simp only [resolved]
    split
    · cases op <;> simp [outstanding, Event.completes]
      omega
    · cases ec <;> cases op <;> simp [goto, stateMachine, outstanding, Event.completes] <;> omega
  | connectDone ec =>
    obtain ⟨hpending, hmethod⟩ := Option.ite_none_left_eq_some.mp hmethod
    rw [← Option.some.inj hmethod]
    simp only [connectDone]
    split
    · cases op <;> simp [outstanding, Event.completes]
      omega
    · cases ec <;> cases op <;> simp [goto, stateMachine, outstanding, Event.completes] <;> omega
  | read ec bytes expected =>
    obtain ⟨hpending, hmethod⟩ := Option.ite_none_left_eq_some.mp hmethod
    have hless (v : ConnectionHandler) (hv : ∀ op, { h with reads := h.reads - 1 }.outstanding op ≤
        v.outstanding op) : h.outstanding op ≤
        v.outstanding op +
          if Event.completes (.read ec bytes expected) = some op then 1 else 0 := by
      have := hv op
      cases op <;> simp [outstanding, Event.completes] at this ⊢ <;> omega
    simp only [onRead] at hmethod
    split at hmethod
    · exact Option.some.inj hmethod ▸ hless _ fun op ↦ by cases op <;> simp [outstanding]
    · cases ec with
      | none => exact hless _ fun op ↦ outstanding_parseOrRead hmethod op
      | some message =>
        simp only at hmethod
        split at hmethod
        · rw [← Option.some.inj hmethod]
          exact hless _ fun op ↦ outstanding_goto { h with
            readReq := false
            reads := h.reads - 1
            lastError := "read error: " ++ message } _ op
        · exact Option.some.inj hmethod ▸ hless _ fun op ↦ by cases op <;> simp [outstanding]
  | wrote ec bytes =>
    obtain ⟨hpending, hmethod⟩ := Option.ite_none_left_eq_some.mp hmethod
    have hless (v : ConnectionHandler)
      (hv : ∀ op, { h with writes := h.writes - 1 }.outstanding op ≤
        v.outstanding op) : h.outstanding op ≤
        v.outstanding op + if Event.completes (.wrote ec bytes) = some op then 1 else 0 := by
      have := hv op
      cases op <;> simp [outstanding, Event.completes] at this ⊢ <;> omega
    simp only [onWrite] at hmethod
    split at hmethod
    · exact Option.some.inj hmethod ▸ hless _ fun op ↦ by cases op <;> simp [outstanding]
    · cases ec with
      | some message =>
        simp only at hmethod
        split at hmethod
        · rw [← Option.some.inj hmethod]
          exact hless _ fun op ↦ outstanding_goto { h with
            writeReq := false
            writes := h.writes - 1
            outBufs := h.outBufs.modifyHead (· - bytes)
            lastError := "write error: " ++ message } _ op
        · exact Option.some.inj hmethod ▸ hless _ fun op ↦ by cases op <;> simp [outstanding]
      | none =>
        simp only at hmethod
        split at hmethod
        · cases hmethod
        · rw [← Option.some.inj hmethod]
          refine hless _ fun op ↦ ?_
          split_ifs <;> cases op <;> simp [asyncWrite, outstanding]

/-! ### The stack and its marks -/

/-- The calls of `parse` under way that were made under a `start()`. -/
def parsesOf (run : ℕ) : List Frame → List Mark → ℕ
  | f :: stack, mark :: marks =>
    (if f = .parse ∧ mark.run = run then 1 else 0) + parsesOf run stack marks
  | _, _ => 0

/-- Every call is marked with a `start()` there has been, `remote_endpoint` has answered for every
loop, and `m_shutdownCb` has been called for the present `start()` only if the handler is
stopped. -/
def Marked (starts : ℕ) (stopped : Prop) : List Frame → List Mark → Prop
  | [], [] => True
  | f :: stack, mark :: marks =>
    mark.run ≤ starts ∧ (∀ run, f = .shutdownLoop run → mark.peer = true) ∧
      (f = .shutdownCb → mark.run = starts → stopped) ∧ Marked starts stopped stack marks
  | _, _ => False

section Marked

variable {starts : ℕ} {stopped : Prop} {stack : List Frame} {marks : List Mark}

theorem Marked.length (hmarked : Marked starts stopped stack marks) :
    marks.length = stack.length := by
  induction stack generalizing marks with
  | nil => cases marks with
    | nil => rfl
    | cons => cases hmarked
  | cons f stack ih => cases marks with
    | nil => cases hmarked
    | cons mark marks => simp [ih hmarked.2.2.2]

/-- A handler that stays stopped, or is stopped now, keeps its marks. -/
theorem Marked.mono {stopped' : Prop} (hmarked : Marked starts stopped stack marks)
    (hstopped : stopped → stopped') : Marked starts stopped' stack marks := by
  induction stack generalizing marks with
  | nil => cases marks with
    | nil => trivial
    | cons => cases hmarked
  | cons f stack ih => cases marks with
    | nil => cases hmarked
    | cons mark marks =>
      obtain ⟨hrun, hloop, hcb, hrest⟩ := hmarked
      exact ⟨hrun, hloop, fun hf hown ↦ hstopped (hcb hf hown), ih hrest⟩

/-- After an accepted `start()` no call is under way that was made under it. -/
theorem Marked.start (hmarked : Marked starts stopped stack marks) (stopped' : Prop) :
    Marked (starts + 1) stopped' stack marks ∧ parsesOf (starts + 1) stack marks = 0 := by
  induction stack generalizing marks with
  | nil => cases marks with
    | nil => exact ⟨trivial, rfl⟩
    | cons => cases hmarked
  | cons f stack ih => cases marks with
    | nil => cases hmarked
    | cons mark marks =>
      obtain ⟨hrun, hloop, -, hrest⟩ := hmarked
      obtain ⟨hmarked', hnone⟩ := ih hrest
      refine ⟨⟨by omega, hloop, fun _ hown ↦ by omega, hmarked'⟩, ?_⟩
      rw [parsesOf, hnone, if_neg (by omega)]

end Marked

/-- A stopped handler stays so, but for `start()`. -/
theorem stopped_method {e : Event} {r : ConnectionHandler × Continuation}
    (hmethod : h.method e = some r) (hstopped : h.state = .eNotConnected) :
    r.1.state = .eNotConnected := by
  have htransition := transition_method hmethod
  obtain ⟨h', next⟩ := r
  cases next <;> simp_all [Transition, State.Advances]

namespace Lifecycle

variable {x : Lifecycle} {e : Event} {execution : Execution}

/-- The operations outstanding all belong to the present `start()`, and the calls of `parse` under
way leave the flags what the state needs. -/
structure Invariant (x : Lifecycle) : Prop where
  fits : x.execution.handler.Fits x.isOpen
    (parsesOf x.execution.starts x.execution.stack x.marks)
  begun : ∀ op, x.begun op =
    List.replicate (x.execution.handler.outstanding op) x.execution.starts
  marked : Marked x.execution.starts (x.execution.handler.state = .eNotConnected)
    x.execution.stack x.marks

theorem Invariant.quiescent (h : x.Invariant) : x.Quiescent := by
  refine ⟨fun hstate op ↦ ?_, fun hstate ↦ (h.fits.stopped hstate).2, fun op run hrun ↦ ?_,
    fun rest mark marks hstack hmarks hown ↦ ?_⟩
  · rw [h.begun op, (h.fits.stopped hstate).1 op]
    rfl
  · rw [h.begun op] at hrun
    exact List.eq_of_mem_replicate hrun
  · have hmarked := h.marked
    rw [hstack, hmarks] at hmarked
    exact hmarked.2.2.1 rfl hown

/-- A completed operation is one of the present `start()`, and so are those newly begun. -/
theorem begun_follow (h : x.Invariant) (hstarts : execution.starts = x.execution.starts)
    (hrun : ∀ op, e.event.completes = some op → e.run ∈ x.begun op)
    (hcounts : ∀ op, x.execution.handler.outstanding op ≤
      execution.handler.outstanding op + if e.event.completes = some op then 1 else 0)
      (op : Operation) :
    (x.follow e execution).begun op =
      List.replicate (execution.handler.outstanding op) execution.starts := by
  have hcount := hcounts op
  have hremaining : x.remaining e op = List.replicate (x.execution.handler.outstanding op -
      if e.event.completes = some op then 1 else 0) x.execution.starts := by
    unfold remaining
    split
    · next hcompletes =>
      have hmem := hrun op hcompletes
      rw [h.begun op] at hmem ⊢
      rw [List.eq_of_mem_replicate hmem, List.erase_replicate_self]
    · exact h.begun op
  simp only [follow, hremaining, hstarts, List.length_replicate, List.replicate_append_replicate]
  congr 1
  omega

/-- A step under the present `start()`, by what it does to the stack: the top call returns, another
takes its place, or one more is suspended. -/
theorem Invariant.follow (h : x.Invariant) (hstarts : execution.starts = x.execution.starts)
    (hrun : ∀ op, e.event.completes = some op → e.run ∈ x.begun op)
    (hcounts : ∀ op, x.execution.handler.outstanding op ≤
      execution.handler.outstanding op + if e.event.completes = some op then 1 else 0)
    (hmarked : Marked x.execution.starts (execution.handler.state = .eNotConnected)
      execution.stack (x.follow e execution).marks)
    (hfits : execution.handler.Fits (x.follow e execution).isOpen
      (parsesOf x.execution.starts execution.stack (x.follow e execution).marks)) :
    (x.follow e execution).Invariant :=
  ⟨hstarts ▸ hfits, begun_follow h hstarts hrun hcounts, hstarts ▸ hmarked⟩

theorem marks_push {f : Frame} (hstack : execution.stack = f :: x.execution.stack) :
    (x.follow e execution).marks = ⟨execution.starts, e.peer⟩ :: x.marks := by
  simp [Lifecycle.follow, hstack]

theorem marks_same (hstack : execution.stack.length = x.execution.stack.length) :
    (x.follow e execution).marks = x.marks := by
  simp [Lifecycle.follow, hstack]

theorem marks_pop {f : Frame} (hstack : x.execution.stack = f :: execution.stack) :
    (x.follow e execution).marks = x.marks.tail := by
  have hlonger : ¬ x.execution.stack.length < execution.stack.length := by
    rw [hstack, List.length_cons]
    omega
  rw [Lifecycle.follow, if_neg hlonger, hstack, List.length_cons, Nat.add_sub_cancel_left,
    List.drop_one]

/-- A call that is suspended has its mark. -/
theorem Invariant.marks_cons {f : Frame} {rest : List Frame} (h : x.Invariant)
    (hstack : x.execution.stack = f :: rest) : ∃ mark marks, x.marks = mark :: marks := by
  have hlength := h.marked.length
  rw [hstack, List.length_cons] at hlength
  exact List.exists_cons_of_length_eq_add_one hlength

/-- The socket is opened by `async_connect` alone, and closed only at the end of `case
eShutdown`. -/
theorem isOpen_follow (hcloses : x.closes e = false) : (x.follow e execution).isOpen =
    (x.isOpen || decide (x.execution.handler.connects < execution.handler.connects)) := by
  simp [Lifecycle.follow, hcloses]

/-- The end of `case eShutdown` closes the socket, `remote_endpoint` having answered. -/
theorem isOpen_finish (hcloses : x.closes e = true) : (x.follow e execution).isOpen = false := by
  simp [Lifecycle.follow, hcloses]

/-- The call on top of the stack goes on. -/
theorem Invariant.resume (h : x.Invariant) (hclean : x.Clean e) (hevent : e.event = .resume)
    (hstep : x.execution.step .resume = some execution) : (x.follow e execution).Invariant := by
  have hrun : ∀ op, e.event.completes = some op → e.run ∈ x.begun op := by
    simp [hevent, Event.completes]
  cases hstack : x.execution.stack with
  | nil => simp [Execution.step, hstack] at hstep
  | cons f rest =>
    obtain ⟨mark, marks, hmarks⟩ := h.marks_cons hstack
    have hmarked := h.marked
    have hfits := h.fits
    rw [hstack, hmarks] at hmarked hfits
    -- a call that returns leaves the handler's operations as they are
    have hreturn (handler : ConnectionHandler) (hloop : ∀ run, f ≠ .shutdownLoop run)
        (hhandler : handler.Fits x.isOpen (parsesOf x.execution.starts (f :: rest) (mark :: marks)))
        (hsame : handler.outstanding = x.execution.handler.outstanding)
        (hstate : handler.state = x.execution.handler.state) :
        (x.follow e { x.execution with handler := handler, stack := rest }).Invariant := by
      have htail : (x.follow e { x.execution with handler := handler, stack := rest }).marks =
          marks := by
        rw [marks_pop (f := f) hstack, hmarks, List.tail_cons]
      have hcloses : x.closes e = false := by
        simp only [closes, hevent, hstack]
        cases f <;> simp_all
      have hconnects : handler.connects = x.execution.handler.connects := congrFun hsame .connect
      refine h.follow rfl hrun (fun op ↦ ?_)
        (htail ▸ hmarked.2.2.2.mono fun hstopped ↦ hstate.trans hstopped) ?_
      · simp [hsame]
      · rw [htail, isOpen_follow hcloses]
        simp only [hconnects, Nat.lt_irrefl, decide_false, Bool.or_false]
        exact hhandler.of_le (Nat.le_add_left _ _)
    cases f with
    | parse => simp [Execution.step, hstack] at hstep
    | connectedCb =>
      simp only [Execution.step, hstack, Option.some.injEq] at hstep
      subst hstep
      exact hreturn x.execution.handler (by simp) hfits rfl rfl
    | shutdownCb =>
      simp only [Execution.step, hstack, Option.some.injEq] at hstep
      subst hstep
      exact hreturn x.execution.handler.endShutdownCb (by simp)
        ⟨hfits.reads, hfits.writes, hfits.single, hfits.state⟩ rfl rfl
    | shutdownLoop run =>
      obtain ⟨hwaits, hstep⟩ : x.execution.handler.waiting = false ∧ _ := by
        simpa [Execution.step, hstack] using hstep
      subst hstep
      have hestablishing := hclean.resume hevent ⟨run, rest, hstack⟩
      have hcloses : x.closes e = true := by
        simpa [closes, hevent, hstack, hmarks] using hmarked.2.1 run rfl
      refine h.follow rfl hrun (fun op ↦ ?_) ?_ ?_
      · exact Nat.le_add_right_of_le (outstanding_goto { x.execution.handler with
          inBuf := 0, outBufs := [], connection := false } _ op)
      · rw [marks_same (by simp [Execution.finish, Execution.callback, hstack]), hmarks]
        exact ⟨hmarked.1, by simp, fun _ _ ↦ rfl, hmarked.2.2.2.mono fun _ ↦ rfl⟩
      · rw [marks_same (by simp [Execution.finish, Execution.callback, hstack]), hmarks,
          isOpen_finish hcloses]
        exact (hfits.finish hestablishing hwaits).of_le (by
          simp [Execution.finish, Execution.callback, parsesOf])

/-- A method is called. It may go on to a call that is suspended, or to the end of a shutdown that
has nothing to wait for. -/
theorem Invariant.method {r : ConnectionHandler × Continuation} (h : x.Invariant)
    (hclean : x.Clean e) (hmethod : x.execution.handler.method e.event = some r)
    (hrun : ∀ op, e.event.completes = some op → e.run ∈ x.begun op) :
    (x.follow e (x.execution.perform e.event.message r)).Invariant := by
  have hfits := h.fits.method hmethod hclean.stop hclean.connects
  have hcounts := outstanding_method hmethod
  have hkeeps := h.marked.mono (stopped_method hmethod)
  have hcloses : x.closes e =
      (e.peer && (decide (r.2 = .shutdownLoop) && !r.1.waiting)) := by
    unfold closes
    split
    · next hevent => simp [hevent, ConnectionHandler.method] at hmethod
    · simp [hmethod]
  -- a call that is suspended after the method
  have hpush (f : Frame) (log : List Observation) (hopen : x.closes e = false)
      (hloop : ∀ run, f = .shutdownLoop run → e.peer = true)
      (hparse : (if r.2 = .parse then 1 else 0) = if f = .parse then 1 else 0)
      (hcb : f = .shutdownCb → r.1.state = .eNotConnected) :
      (x.follow e ⟨r.1, f :: x.execution.stack, x.execution.starts, log⟩).Invariant := by
    have hmarks : (x.follow e ⟨r.1, f :: x.execution.stack, x.execution.starts, log⟩).marks =
        ⟨x.execution.starts, e.peer⟩ :: x.marks := marks_push rfl
    refine h.follow rfl hrun hcounts (hmarks ▸ ⟨Nat.le_refl _, hloop, fun hf _ ↦ hcb hf, hkeeps⟩)
      ?_
    rw [hmarks, isOpen_follow hopen, parsesOf, Nat.add_comm]
    simpa [hparse] using hfits
  obtain ⟨h', next⟩ := r
  cases next with
  | done =>
    have hopen : x.closes e = false := by simp [hcloses]
    have hmarks : (x.follow e (x.execution.perform e.event.message (h', .done))).marks = x.marks :=
      marks_same rfl
    refine h.follow rfl hrun hcounts (hmarks ▸ hkeeps) ?_
    rw [hmarks, isOpen_follow hopen]
    simp only [reduceCtorEq, ↓reduceIte, Nat.add_zero] at hfits
    exact hfits
  | connectedCb => exact hpush .connectedCb _ (by simp [hcloses]) (by simp) (by simp) (by simp)
  | parse => exact hpush .parse _ (by simp [hcloses]) (by simp) (by simp) (by simp)
  | shutdownCb message =>
    have hstate : h'.state = .eNotConnected := (transition_method hmethod).2.1
    exact hpush .shutdownCb _ (by simp [hcloses]) (by simp) (by simp) fun _ ↦ hstate
  | shutdownLoop =>
    have hpeer : e.peer = true := hclean.peer (by simp [shutsDown, hmethod])
    have hstate : h'.state = .eShutdown := (transition_method hmethod).2
    by_cases hwaits : h'.waiting = true
    · have hloop := hpush (.shutdownLoop x.execution.starts)
      simpa [Execution.perform, Execution.goOn, hwaits, Execution.suspend] using
        hloop _ (by simp [hcloses, hwaits]) (fun _ _ ↦ hpeer) (by simp) (by simp)
    · have hwaits' : h'.waiting = false := by simpa using hwaits
      have hopen : x.closes e = true := by simp [hcloses, hpeer, hwaits']
      have hperform (log : List Observation) : (x.follow e ⟨h'.endShutdown.1,
          .shutdownCb :: x.execution.stack, x.execution.starts, log⟩).Invariant := by
        have hmarks : (x.follow e ⟨h'.endShutdown.1, .shutdownCb :: x.execution.stack,
            x.execution.starts, log⟩).marks = ⟨x.execution.starts, e.peer⟩ :: x.marks :=
          marks_push rfl
        refine h.follow rfl hrun (fun op ↦ ?_) (hmarks ▸
          ⟨Nat.le_refl _, by simp, fun _ _ ↦ rfl, h.marked.mono fun _ ↦ rfl⟩) ?_
        · exact Nat.le_trans (hcounts op) (Nat.add_le_add_right (outstanding_goto { h' with
            inBuf := 0, outBufs := [], connection := false } _ op) _)
        · rw [hmarks, isOpen_finish hopen]
          simpa [parsesOf] using hfits.finish (by simp [State.Establishing, hstate]) hwaits'
      simpa [Execution.perform, Execution.goOn, hwaits', Execution.finish, Execution.callback] using
        hperform _

/-- `start()` is called. -/
theorem Invariant.start {connectedCb : Bool} (h : x.Invariant)
    (hevent : e.event = .start connectedCb)
    (hstep : x.execution.step (.start connectedCb) = some execution) :
    (x.follow e execution).Invariant := by
  have hrun : ∀ op, e.event.completes = some op → e.run ∈ x.begun op := by
    simp [hevent, Event.completes]
  have hcloses : x.closes e = false := by
    simp [closes, hevent, ConnectionHandler.method]
  simp only [Execution.step, Option.ite_none_right_eq_some] at hstep
  obtain ⟨-, hstep⟩ := hstep
  split at hstep
  · next hstate =>
    obtain rfl := Option.some.inj hstep
    obtain ⟨hnone, hclosed⟩ := h.fits.stopped hstate
    obtain ⟨-, hfree⟩ := h.marked.start True
    have hbegun (op : Operation) : x.remaining e op = [] := by
      simp [remaining, hevent, Event.completes, h.begun, hnone]
    have hresolving (v : ConnectionHandler) (log : List Observation)
        (hstate' : v.state = .eResolving) (hresolves : v.resolves = 1) (hconnects : v.connects = 0)
        (hreads : v.reads = 0 ∧ v.readReq = false) (hwrites : v.writes = 0 ∧ v.writeReq = false) :
        (x.follow e ⟨v, x.execution.stack, x.execution.starts + 1, log⟩).Invariant := by
      have hmarks : (x.follow e ⟨v, x.execution.stack, x.execution.starts + 1, log⟩).marks =
          x.marks := marks_same rfl
      refine ⟨?_, fun op ↦ by simp [Lifecycle.follow, hbegun], hmarks ▸ (h.marked.start _).1⟩
      have hopen : (x.follow e ⟨v, x.execution.stack, x.execution.starts + 1, log⟩).isOpen =
          false := by simp [isOpen_follow hcloses, hclosed, hconnects]
      rw [hopen, hmarks]
      change v.Fits false (parsesOf (x.execution.starts + 1) x.execution.stack x.marks)
      rw [hfree]
      exact ⟨by simp [hreads], by simp [hwrites], by simp [hreads],
        by simp [hstate', Expects, hresolves, hconnects, hreads, hwrites]⟩
    have hreads := h.fits.reads
    have hwrites := h.fits.writes
    have hnoread : x.execution.handler.reads = 0 := hnone .read
    have hnowrite : x.execution.handler.writes = 0 := hnone .write
    have hnoresolve : x.execution.handler.resolves = 0 := hnone .resolve
    simp only [ConnectionHandler.start, hstate, ne_eq, not_true_eq_false, ↓reduceIte, goto,
      stateMachine]
    exact hresolving _ _ rfl (by simp [hnoresolve])
      (hnone .connect) ⟨hnoread, by simpa [hnoread] using hreads.symm⟩
      ⟨hnowrite, by simpa [hnowrite] using hwrites.symm⟩
  · obtain rfl := Option.some.inj hstep
    have hmarks : (x.follow e x.execution).marks = x.marks := marks_same rfl
    refine h.follow rfl hrun (fun op ↦ Nat.le_add_right _ _) (hmarks ▸ h.marked) ?_
    rw [hmarks, isOpen_follow hcloses]
    simpa using h.fits

/-- `parse` returns. -/
theorem Invariant.parsed {parsed expected : ℕ} (h : x.Invariant) (hclean : x.Clean e)
    (hevent : e.event = .parsed parsed expected)
    (hstep : x.execution.step (.parsed parsed expected) = some execution) :
    (x.follow e execution).Invariant := by
  have hrun : ∀ op, e.event.completes = some op → e.run ∈ x.begun op := by
    simp [hevent, Event.completes]
  have hcloses : x.closes e = false := by
    simp [closes, hevent, ConnectionHandler.method]
  simp only [Execution.step] at hstep
  split at hstep
  · next rest hstack =>
    obtain ⟨r, hmethod, rfl⟩ := Option.map_eq_some_iff.mp hstep
    obtain ⟨mark, marks, hmarks⟩ := h.marks_cons hstack
    have hmarked := h.marked
    have hfits := h.fits
    rw [hstack, hmarks] at hmarked hfits
    -- the call is over
    have hreturn (v : ConnectionHandler) (log : List Observation)
        (hv : v.Fits x.isOpen (parsesOf x.execution.starts rest marks))
        (hcounts : ∀ op, x.execution.handler.outstanding op ≤ v.outstanding op)
        (hconnects : v.connects = x.execution.handler.connects)
        (hstate : v.state = x.execution.handler.state) :
        (x.follow e ⟨v, rest, x.execution.starts, log⟩).Invariant := by
      have htail : (x.follow e ⟨v, rest, x.execution.starts, log⟩).marks = marks := by
        rw [marks_pop (f := .parse) hstack, hmarks, List.tail_cons]
      refine h.follow rfl hrun (fun op ↦ Nat.le_add_right_of_le (hcounts op))
        (htail ▸ hmarked.2.2.2.mono fun hstopped ↦ hstate.trans hstopped) ?_
      rw [htail, isOpen_follow hcloses]
      simpa [hconnects] using hv
    unfold onParsed at hmethod
    split at hmethod
    · obtain rfl := Option.some.inj hmethod
      exact hreturn _ _ (hfits.of_le (Nat.le_add_left _ _)) (fun op ↦ Nat.le_refl _) rfl rfl
    · next hup =>
      have hup' : x.execution.handler.connected = true := by simpa using hup
      have hown : mark.run = x.execution.starts := by
        simpa [hmarks] using hclean.parsed parsed expected hevent hup'
      have hsingle := hfits.single
      have hexpects := hfits.state
      simp only [parsesOf, hown, and_self, ↓reduceIte] at hsingle hexpects
      have hnone : x.execution.handler.readReq = false := by
        have hreads := hfits.reads
        cases hreq : x.execution.handler.readReq <;> simp [hreq] at hreads ⊢
        omega
      have hstate : x.execution.handler.state = .eReady ∨
        x.execution.handler.state = .eShutdown := by
        cases hs : x.execution.handler.state <;> simp_all [Expects, ConnectionHandler.connected]
      have hbefore : { x.execution.handler with
          inBuf := x.execution.handler.inBuf - parsed }.Fits x.isOpen 0 :=
        have hzero := hfits.of_le (Nat.zero_le _)
        ⟨hzero.reads, hzero.writes, hzero.single, hzero.state⟩
      obtain ⟨hafter, hnext, hconnects, hsame⟩ := hbefore.parseOrRead hstate hnone rfl hmethod
      have hcounts := outstanding_parseOrRead hmethod
      have hrest : parsesOf x.execution.starts rest marks = 0 := by omega
      obtain ⟨v, next⟩ := r
      rcases hnext with rfl | rfl
      · exact hreturn v _ (hrest ▸ hafter) hcounts hconnects hsame
      · have hopened : v.connects = x.execution.handler.connects := hconnects
        have hagain (log : List Observation) :
            (x.follow e ⟨v, .parse :: rest, x.execution.starts, log⟩).Invariant := by
          have htop : (x.follow e ⟨v, .parse :: rest, x.execution.starts, log⟩).marks =
              mark :: marks := by
            rw [marks_same (by simp [hstack]), hmarks]
          refine h.follow rfl hrun (fun op ↦ Nat.le_add_right_of_le (hcounts op))
            (htop ▸ hmarked.mono fun hstopped ↦ hsame.trans hstopped) ?_
          rw [htop, isOpen_follow hcloses]
          simpa [hopened, parsesOf, hown, hrest] using hafter
        exact hagain _
  · cases hstep

/-- One event that comes at a clean moment. -/
theorem Invariant.step {y : Lifecycle} (h : x.Invariant) (hclean : x.Clean e)
    (hstep : x.step e = some y) : y.Invariant := by
  obtain ⟨hany, hstep⟩ := Option.ite_none_left_eq_some.mp hstep
  obtain ⟨execution, hexecution, rfl⟩ := Option.map_eq_some_iff.mp hstep
  have hrun : ∀ op, e.event.completes = some op → e.run ∈ x.begun op := by
    intro op hop
    simpa [hop] using hany
  have hmethod (hother : (if x.execution.pausing then (x.execution.handler.method e.event).map
      (x.execution.perform e.event.message) else none) = some execution) :
      (x.follow e execution).Invariant := by
    obtain ⟨-, hother⟩ := Option.ite_none_right_eq_some.mp hother
    obtain ⟨r, hmethod, rfl⟩ := Option.map_eq_some_iff.mp hother
    exact h.method hclean hmethod hrun
  cases hevent : e.event with
  | resume => exact h.resume hclean hevent (hevent ▸ hexecution)
  | parsed parsed expected => exact h.parsed hclean hevent (hevent ▸ hexecution)
  | start connectedCb => exact h.start hevent (hevent ▸ hexecution)
  | stop | onData | onError | onClosed | resolved | connectDone | read | wrote =>
    refine hmethod ?_
    rw [hevent] at hexecution ⊢
    exact hexecution

/-- In every run whose events come at clean moments, a stopped handler is quiet. -/
theorem quiescent_of_reachedBy (hreachable : machine.ReachedBy Clean x) : x.Quiescent := by
  refine (hreachable.invariant (I := Invariant) ?_ fun x e y h hclean hstep ↦
    h.step hclean hstep).quiescent
  rintro x rfl
  exact ⟨⟨rfl, rfl, by decide, ⟨rfl, rfl, rfl, rfl, rfl⟩⟩, fun op ↦ by cases op <;> rfl, trivial⟩

/-- A handler is started, sends its first data and is stopped. -/
def session : List Event :=
  [⟨.start false, 0, true⟩, ⟨.resolved none, 1, true⟩, ⟨.connectDone none, 1, true⟩,
    ⟨.onData 8, 1, true⟩, ⟨.stop, 1, true⟩, ⟨.wrote (some "canceled") 0, 1, true⟩,
    ⟨.read (some "canceled") 0 7, 1, true⟩, ⟨.resume, 1, true⟩, ⟨.resume, 1, true⟩]

/-- When its `stop()` has returned, nothing is outstanding. -/
theorem quiescent_session :
    ∃ x, machine.run initial session = some x ∧ x.execution.stack = [] ∧
      x.execution.handler.state = .eNotConnected ∧ x.Quiescent := by
  refine ⟨_, rfl, rfl, rfl, quiescent_of_reachedBy ⟨initial, session, rfl, rfl, ?_⟩⟩
  refine Machine.meets_cons ⟨by simp, by simp, by simp, fun _ ↦ rfl, by simp⟩ rfl ?_
  refine Machine.meets_cons ⟨by simp, by simp, by simp, fun _ ↦ rfl, by simp⟩ rfl ?_
  refine Machine.meets_cons ⟨by simp, by simp, by simp, fun _ ↦ rfl, by simp⟩ rfl ?_
  refine Machine.meets_cons ⟨by simp, by simp, by simp, fun _ ↦ rfl, by simp⟩ rfl ?_
  refine Machine.meets_cons ⟨fun _ ↦ ?_, by simp, by simp, fun _ ↦ rfl, by simp⟩ rfl ?_
  · rintro (hs | hs) <;> cases hs
  refine Machine.meets_cons ⟨by simp, by simp, by simp, fun _ ↦ rfl, by simp⟩ rfl ?_
  refine Machine.meets_cons ⟨by simp, by simp, by simp, fun _ ↦ rfl, by simp⟩ rfl ?_
  refine Machine.meets_cons ⟨by simp, fun _ _ ↦ ?_, by simp, fun _ ↦ rfl, by simp⟩ rfl ?_
  · rintro (hs | hs) <;> cases hs
  refine Machine.meets_cons ⟨by simp, fun _ hloop ↦ ?_, by simp, fun _ ↦ rfl, by simp⟩ rfl trivial
  obtain ⟨run, rest, hstack⟩ := hloop
  cases hstack

/-- A handler is stopped while the name of the host is being resolved, and started again. The first
resolution is taken for the second. -/
def restarted : List Event :=
  [⟨.start false, 0, true⟩, ⟨.stop, 0, false⟩, ⟨.resume, 0, true⟩, ⟨.start false, 0, true⟩,
    ⟨.resolved none, 1, true⟩]

/-- After the `stop()` the handler is stopped with the resolution outstanding, and the second
`start()` connects with the completion of the first. -/
theorem not_quiescent_restarted :
    (∃ x, machine.run initial (restarted.take 3) = some x ∧
      x.execution.handler.state = .eNotConnected ∧ x.begun .resolve = [1] ∧ ¬ x.Quiescent) ∧
    ∃ x, machine.run initial restarted = some x ∧ x.execution.starts = 2 ∧
      x.execution.handler.state = .eConnecting ∧ x.begun .resolve = [2] := by
  refine ⟨⟨_, rfl, rfl, rfl, fun h ↦ ?_⟩, ⟨_, rfl, rfl, rfl, rfl⟩⟩
  exact absurd (h.idle rfl .resolve) (by decide)

end Lifecycle

end ConnectionHandler

end AmqpAsio
