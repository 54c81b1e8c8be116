import Mathlib.Algebra.GroupWithZero.Nat
import AmqpAsio.Inevitable
import AmqpAsio.ConnectionHandler.Execution

/-!
# Whether stop() returns

`stop()` runs the event loop while a read or a write is outstanding. What it runs may parse what has
been received, queue new data and begin new reads and writes, so that the loop goes on. Each of
these uses up something of which there is finitely much: the bytes that are still to be received or
to be parsed, the buffers queued, the operations outstanding, the calls suspended, and what foreign
code still has to say. But `run_one()` on a service that has been stopped returns at once, and then
the loop spins.
-/

set_option autoImplicit false
set_option relaxedAutoImplicit false

namespace AmqpAsio

namespace ConnectionHandler

variable {h : ConnectionHandler} {e : Event} {r : ConnectionHandler × Continuation}

/-! ### What is outstanding while the connection is up -/

/-- There is a connection only while it is up, a flag that is set stands for an operation, and a
write for a buffer. -/
structure Steady (h : ConnectionHandler) : Prop where
  connection : h.connection = true → h.state = .eReady ∨ h.state = .eShutdown
  read : h.readReq = true → h.connection = true ∧ h.reads ≠ 0
  write : h.writeReq = true → h.connection = true ∧ h.outBufs ≠ []
  writes : h.writes = h.writeReq.toNat

/-- Nothing is outstanding without a connection. -/
theorem Steady.connection_of_waiting (hsteady : h.Steady) (hwaits : h.waiting = true) :
    h.connection = true := by
  rcases Bool.or_eq_true_iff.mp hwaits with hread | hwrite
  · exact (hsteady.read hread).1
  · exact (hsteady.write hwrite).1

theorem Steady.shutdown (v : ConnectionHandler) (hsteady : h.Steady) (hstate : v.state = .eShutdown)
    (hconnection : h.connection = true → v.connection = true) (hreads : v.reads = h.reads)
    (hread : v.readReq = h.readReq) (hwrite : v.writeReq = h.writeReq)
    (hwrites : v.writes = h.writes) (hbufs : v.outBufs = h.outBufs) : v.Steady where
  connection _ := Or.inr hstate
  read hreq := (hsteady.read (hread ▸ hreq)).imp hconnection fun hne ↦ hreads ▸ hne
  write hreq := (hsteady.write (hwrite ▸ hreq)).imp hconnection fun hne ↦ hbufs ▸ hne
  writes := by rw [hwrites, hwrite, hsteady.writes]

theorem Steady.push (hsteady : h.Steady) (hconnection : h.connection = true) (size : ℕ) :
    (h.push size).Steady := by
  obtain ⟨hup, hread, hwrite, hwrites⟩ := hsteady
  simp only [ConnectionHandler.push]
  split
  · exact ⟨hup, hread, fun _ ↦ ⟨hconnection, by simp⟩, hwrites⟩
  · next hreq =>
    have hnone : h.writeReq = false := by simpa using hreq
    exact ⟨hup, hread, fun _ ↦ ⟨hconnection, by simp [asyncWrite]⟩,
      by simp [asyncWrite, hwrites, hnone]⟩

theorem Steady.parseOrRead {again : Bool} {expected : ℕ} (hsteady : h.Steady)
    (hmethod : h.parseOrRead again expected = some r) : r.1.Steady := by
  obtain ⟨hup, hread, hwrite, hwrites⟩ := hsteady
  unfold ConnectionHandler.parseOrRead at hmethod
  split_ifs at hmethod with hnone hmore
  · exact Option.some.inj hmethod ▸ ⟨hup, hread, hwrite, hwrites⟩
  · have hconnection : h.connection = true := by simpa using hnone
    rw [← Option.some.inj hmethod]
    exact ⟨hup, fun _ ↦ ⟨hconnection, by simp [asyncRead]⟩, hwrite, hwrites⟩

/-- The methods keep a handler steady. -/
theorem Steady.method (hsteady : h.Steady) (hmethod : h.method e = some r) : r.1.Steady := by
  have hdown (lastError : String) (connection amqpError : Bool)
      (hconnection : h.connection = true → connection = true) :
      ({ h with
          lastError := lastError
          connection := connection
          amqpError := amqpError }.goto .eShutdown).1.Steady :=
    hsteady.shutdown ({ h with
      lastError := lastError
      connection := connection
      amqpError := amqpError }.goto .eShutdown).1 rfl hconnection rfl rfl rfl rfl rfl
  obtain ⟨hup, hread, hwrite, hwrites⟩ := id hsteady
  cases e with
  | start | parsed | resume => cases hmethod
  | stop =>
    rw [← Option.some.inj hmethod]
    unfold stop
    split
    · exact hsteady
    · exact hdown _ _ _ id
  | onError message =>
    rw [← Option.some.inj hmethod]
    unfold onError
    split
    · exact hsteady
    · exact hdown _ _ _ fun _ ↦ rfl
  | onClosed =>
    rw [← Option.some.inj hmethod]
    unfold onClosed
    split
    · exact hsteady
    · exact hdown _ _ _ fun _ ↦ rfl
  | onData size =>
    rw [← Option.some.inj hmethod]
    unfold onData
    split_ifs with hnot hinit
    · exact hsteady
    · have hready : ({ h with connection := true }.goto .eReady).1.Steady :=
        ⟨fun _ ↦ Or.inl rfl, fun _ ↦ ⟨rfl, by simp [goto, stateMachine, asyncRead]⟩,
          fun hreq ↦ ⟨rfl, (hwrite hreq).2⟩, hwrites⟩
      exact hready.push rfl size
    · have hconnected := connected_iff.mp (by simpa using hnot)
      exact Steady.push (h := { h with connection := true })
        ⟨fun _ ↦ hconnected.resolve_left hinit, fun hreq ↦ ⟨rfl, (hread hreq).2⟩,
          fun hreq ↦ ⟨rfl, (hwrite hreq).2⟩, hwrites⟩ rfl size
  | resolved ec =>
    obtain ⟨-, hmethod⟩ := Option.ite_none_left_eq_some.mp hmethod
    rw [← Option.some.inj hmethod]
    simp only [resolved]
    split
    · exact ⟨hup, hread, hwrite, hwrites⟩
    · next hstate =>
      have hnone : h.connection = true → False := fun hc ↦ by
        rcases hup hc with hs | hs <;> simp [hs] at hstate
      cases ec with
      | none => exact ⟨fun hc ↦ (hnone hc).elim, hread, hwrite, hwrites⟩
      | some message => exact ⟨fun hc ↦ (hnone hc).elim, hread, hwrite, hwrites⟩
  | connectDone ec =>
    obtain ⟨-, hmethod⟩ := Option.ite_none_left_eq_some.mp hmethod
    rw [← Option.some.inj hmethod]
    simp only [connectDone]
    split
    · exact ⟨hup, hread, hwrite, hwrites⟩
    · next hstate =>
      have hnone : h.connection = true → False := fun hc ↦ by
        rcases hup hc with hs | hs <;> simp [hs] at hstate
      cases ec with
      | none => exact ⟨fun hc ↦ (hnone hc).elim, hread, hwrite, hwrites⟩
      | some message => exact ⟨fun hc ↦ (hnone hc).elim, hread, hwrite, hwrites⟩
  | read ec bytes expected =>
    obtain ⟨-, hmethod⟩ := Option.ite_none_left_eq_some.mp hmethod
    simp only [onRead] at hmethod
    have hcleared (inBuf : ℕ) :
        { h with readReq := false, reads := h.reads - 1, inBuf := inBuf }.Steady :=
      ⟨hup, (fun h ↦ by cases h), hwrite, hwrites⟩
    split at hmethod
    · exact Option.some.inj hmethod ▸ hcleared _
    · cases ec with
      | none => exact (hcleared (h.inBuf + bytes)).parseOrRead hmethod
      | some message =>
        simp only at hmethod
        split at hmethod
        · rw [← Option.some.inj hmethod]
          exact ⟨fun _ ↦ Or.inr rfl, (fun h ↦ by cases h), hwrite, hwrites⟩
        · exact Option.some.inj hmethod ▸ hcleared _
  | wrote ec bytes =>
    obtain ⟨hpending, hmethod⟩ := Option.ite_none_left_eq_some.mp hmethod
    have hreq : h.writeReq = true := by
      by_contra hnone
      simp [hwrites, hnone] at hpending
    obtain ⟨hconnection, hbufs⟩ := hwrite hreq
    have hlast : h.writes - 1 = 0 := by simp [hwrites, hreq]
    simp only [onWrite] at hmethod
    have hcleared (outBufs : List ℕ) :
        { h with writeReq := false, writes := h.writes - 1, outBufs := outBufs }.Steady :=
      ⟨hup, hread, (fun h ↦ by cases h), hlast⟩
    have hnext (outBufs : List ℕ) : (if outBufs = [] then
        { h with writeReq := false, writes := h.writes - 1, outBufs := outBufs }
        else { h with
          writeReq := false, writes := h.writes - 1, outBufs := outBufs }.asyncWrite).Steady := by
      split
      · exact hcleared outBufs
      · next hmore =>
        exact ⟨hup, hread, fun _ ↦ ⟨hconnection, hmore⟩, by simp [asyncWrite, hlast]⟩
    split at hmethod
    · exact Option.some.inj hmethod ▸ hcleared _
    · cases ec with
      | some message =>
        simp only at hmethod
        split at hmethod
        · rw [← Option.some.inj hmethod]
          exact ⟨fun _ ↦ Or.inr rfl, hread, (fun h ↦ by cases h), hlast⟩
        · exact Option.some.inj hmethod ▸ hcleared _
      | none =>
        simp only at hmethod
        split at hmethod
        · cases hmethod
        · rw [← Option.some.inj hmethod]
          exact hnext _

/-! ### The handlers of executions -/

namespace Execution

variable {x x' : Execution}

/-- What the methods and the ends of shutdowns keep, a step keeps. -/
theorem handler_step {P : ConnectionHandler → Prop} (hstep : x.step e = some x')
    (hmethod : ∀ h e r, P h → method h e = some r → P r.1)
    (hstart : ∀ h cb, P h → P (h.start cb).1)
    (hparsed : ∀ h parsed expected r, P h → h.onParsed parsed expected = some r → P r.1)
    (hend : ∀ h, P h → h.waiting = false → P h.endShutdown.1)
    (hendCb : ∀ h, P h → P h.endShutdownCb) (hP : P x.handler) : P x'.handler := by
  have hperform {r : ConnectionHandler × Continuation} (z : Execution) (message : String)
      (hr : P r.1) : P (z.perform message r).handler := by
    simp only [perform]
    cases hnext : r.2 <;> simp only [goOn]
    case shutdownLoop =>
      split
      · exact hr
      · next hwaits => exact hend _ hr (by simpa using hwaits)
    all_goals exact hr
  cases e with
  | resume =>
    simp only [step] at hstep
    split at hstep
    · exact Option.some.inj hstep ▸ hP
    · exact Option.some.inj hstep ▸ hendCb _ hP
    · obtain ⟨hwaits, hstep⟩ := Option.ite_none_left_eq_some.mp hstep
      exact Option.some.inj hstep ▸ hend _ hP (Bool.not_eq_true _ ▸ hwaits)
    · cases hstep
    · cases hstep
  | parsed parsed expected =>
    simp only [step] at hstep
    split at hstep
    · obtain ⟨r, hr, rfl⟩ := Option.map_eq_some_iff.mp hstep
      exact hperform _ _ (hparsed _ _ _ _ hP hr)
    · cases hstep
  | start connectedCb =>
    obtain ⟨-, hstep⟩ := Option.ite_none_right_eq_some.mp hstep
    split at hstep
    · exact Option.some.inj hstep ▸ hperform _ _ (hstart _ _ hP)
    · exact Option.some.inj hstep ▸ hP
  | _ =>
    obtain ⟨-, hstep⟩ := Option.ite_none_right_eq_some.mp hstep
    obtain ⟨r, hr, rfl⟩ := Option.map_eq_some_iff.mp hstep
    exact hperform _ _ (hmethod _ _ _ hP hr)

end Execution

theorem Steady.start (hsteady : h.Steady) (connectedCb : Bool) :
    (h.start connectedCb).1.Steady := by
  unfold ConnectionHandler.start
  split
  · exact hsteady
  · next hstate =>
    refine ⟨fun hc ↦ ?_, hsteady.read, hsteady.write, hsteady.writes⟩
    rcases hsteady.connection hc with hs | hs <;> simp [hs] at hstate

theorem Steady.onParsed {parsed expected : ℕ} (hsteady : h.Steady)
    (hmethod : h.onParsed parsed expected = some r) : r.1.Steady := by
  unfold ConnectionHandler.onParsed at hmethod
  split at hmethod
  · exact Option.some.inj hmethod ▸ hsteady
  · exact Steady.parseOrRead (h := { h with inBuf := h.inBuf - parsed })
      ⟨hsteady.connection, hsteady.read, hsteady.write, hsteady.writes⟩ hmethod

theorem Steady.endShutdown (hsteady : h.Steady) (hwaits : h.waiting = false) :
    h.endShutdown.1.Steady := by
  obtain ⟨hread, hwrite⟩ := Bool.or_eq_false_iff.mp hwaits
  refine ⟨nofun, fun hreq ↦ ?_, fun hreq ↦ ?_, hsteady.writes⟩
  · exact absurd (hread.symm.trans hreq) Bool.false_ne_true
  · exact absurd (hwrite.symm.trans hreq) Bool.false_ne_true

theorem steady_of_reachable {x : Execution} (hx : Execution.machine.Reachable x) :
    x.handler.Steady := by
  refine hx.invariant (I := fun x ↦ x.handler.Steady) (fun x hinit ↦ ?_)
    fun x e x' hsteady hstep ↦ ?_
  · rw [show x = _ from hinit]
    exact ⟨nofun, nofun, nofun, rfl⟩
  · exact Execution.handler_step hstep (fun _ _ _ hs hr ↦ hs.method hr) (fun _ cb hs ↦ hs.start cb)
      (fun _ _ _ _ hs hr ↦ hs.onParsed hr) (fun _ hs hw ↦ hs.endShutdown hw)
      (fun _ hs ↦ ⟨hs.connection, hs.read, hs.write, hs.writes⟩) hsteady

/-! ### A handler that is being stopped -/

/-- A handler inside `stop()`: it shuts down, with a connection, or has done so. -/
structure Shut (h : ConnectionHandler) : Prop where
  steady : h.Steady
  state : h.state = .eShutdown ∧ h.connection = true ∨ h.state = .eNotConnected

/-- How much a handler still has to do: data to be parsed, buffers to be written, and operations to
be completed. -/
def load (h : ConnectionHandler) : ℕ :=
  h.inBuf + h.outBufs.length + h.resolves + h.connects + h.reads + h.writes

/-- What a suspended call weighs. A `parse` may leave a read behind, and the loop a callback. -/
def Frame.load : Frame → ℕ
  | .connectedCb | .shutdownCb => 1
  | .parse | .shutdownLoop _ => 2

/-- What the way a method goes on weighs. -/
def Continuation.load : Continuation → ℕ
  | .done => 0
  | .connectedCb | .shutdownCb _ => 1
  | .parse | .shutdownLoop => 2

/-- The bytes that an event takes from the socket. -/
def Event.received : Event → ℕ
  | .read none bytes _ => bytes
  | _ => 0

/-- The event is a call made by foreign code: by AMQP-CPP, or by the owner of the handler. -/
def Event.isCall : Event → Bool
  | .stop | .onData _ | .onError _ | .onClosed => true
  | _ => false

/-- What completes an operation, once the socket has been shut down and holds the given number of
bytes: a read takes some of them or fails, and a write has sent the buffer in front or fails. -/
def Completes (h : ConnectionHandler) (unread : ℕ) : Event → Prop
  | .resolved _ => h.resolves ≠ 0
  | .connectDone _ => h.connects ≠ 0
  | .read ec bytes _ => h.reads ≠ 0 ∧ (ec = none → bytes ≠ 0 ∧ bytes ≤ unread)
  | .wrote ec bytes => h.writes ≠ 0 ∧ (ec = none → h.outBufs.head? = some bytes)
  | _ => False

/-- What can come of a method of a handler that is being stopped. -/
structure Unwinds (h : ConnectionHandler) (budget : ℕ) (r : ConnectionHandler × Continuation) :
    Prop where
  shut : r.1.Shut
  next : r.2 = .done ∨ r.2 = .parse ∨ r.2 = .shutdownLoop
  still : h.state = .eNotConnected → r.1.state = .eNotConnected ∧ r.2 = .done
  load : r.1.load + r.2.load < h.load + budget

/-- The effect of a method of a handler that is shutting down, and of one that is stopped. -/
theorem Shut.unwinds {budget : ℕ} (hshut : h.Shut) (hmethod : h.method e = some r)
    (hshutdown : h.state = .eShutdown → h.connected = true → h.connection = true →
      (r.1.state = .eShutdown ∧ r.1.connection = true) ∧
        (r.2 = .done ∨ r.2 = .parse ∨ r.2 = .shutdownLoop) ∧
          r.1.load + r.2.load < h.load + budget)
    (hstopped : h.state = .eNotConnected → h.connected = false →
      r.1.state = .eNotConnected ∧ r.2 = .done ∧ r.1.load < h.load + budget) :
    Unwinds h budget r := by
  have hsteady := hshut.steady.method hmethod
  rcases hshut.state with ⟨hs, hc⟩ | hs
  · obtain ⟨hstate, hnext, hload⟩ := hshutdown hs (by simp [connected, hs]) hc
    exact ⟨⟨hsteady, Or.inl hstate⟩, hnext, fun hs' ↦ by simp [hs] at hs', hload⟩
  · obtain ⟨hstate, hnext, hload⟩ := hstopped hs (by simp [connected, hs])
    refine ⟨⟨hsteady, Or.inr hstate⟩, Or.inl hnext, fun _ ↦ ⟨hstate, hnext⟩, ?_⟩
    simpa [hnext, Continuation.load] using hload

theorem load_push (h : ConnectionHandler) (size : ℕ) : (h.push size).load ≤ h.load + 2 := by
  simp only [push]
  split <;> simp [asyncWrite, load] <;> omega

/-- Foreign code may shut down once more, queue data, or say something to a stopped handler. -/
theorem Shut.call (hshut : h.Shut) (hcall : e.isCall = true) :
    ∃ r, h.method e = some r ∧ Unwinds h 3 r := by
  cases e with
  | start | parsed | resume | resolved | connectDone | read | wrote => cases hcall
  | stop =>
    refine ⟨_, rfl, hshut.unwinds (e := .stop) rfl (fun hs _ hc ↦ ?_) fun hs _ ↦ ?_⟩
    · simp [stop, hs, hc, goto, stateMachine, load, Continuation.load]
    · simp [stop, hs]
  | onError message =>
    refine ⟨_, rfl, hshut.unwinds (e := .onError message) rfl (fun hs hup hc ↦ ?_) fun hs hup ↦ ?_⟩
    · simp [onError, hup, goto, stateMachine, load, Continuation.load]
    · simp [onError, hs, hup]
  | onClosed =>
    refine ⟨_, rfl, hshut.unwinds (e := .onClosed) rfl (fun hs hup hc ↦ ?_) fun hs hup ↦ ?_⟩
    · simp [onClosed, hup, goto, stateMachine, load, Continuation.load]
    · simp [onClosed, hs, hup]
  | onData size =>
    refine ⟨_, rfl, hshut.unwinds (e := .onData size) rfl (fun hs hup hc ↦ ?_) fun hs hup ↦ ?_⟩
    · have hdata : h.onData size = ({ h with connection := true }.push size, .done) := by
        simp [onData, hup, hs]
      have hload := load_push { h with connection := true } size
      have hsame : { h with connection := true }.load = h.load := rfl
      simp only [hdata, Continuation.load]
      refine ⟨⟨?_, connection_push _ _⟩, Or.inl trivial, by omega⟩
      rw [state_push]
      exact hs
    · simp [onData, hs, hup]

theorem onRead_of_stopped (hs : h.state = .eNotConnected) (ec : Option String)
    (bytes expected : ℕ) : h.onRead ec bytes expected =
      some ({ h with readReq := false, reads := h.reads - 1 }, .done) := by
  simp [onRead, connected, hs]

theorem onRead_error_of_shutdown (hs : h.state = .eShutdown) (message : String)
    (bytes expected : ℕ) : h.onRead (some message) bytes expected =
      some ({ h with readReq := false, reads := h.reads - 1 }, .done) := by
  simp [onRead, connected, hs]

/-- A read that succeeds during the shutdown is parsed, or followed by another. -/
theorem onRead_of_shutdown (hs : h.state = .eShutdown) (hc : h.connection = true)
    (bytes expected : ℕ) :
    let v := { h with readReq := false, reads := h.reads - 1, inBuf := h.inBuf + bytes }
    h.onRead none bytes expected = some (v, .parse) ∨
      h.onRead none bytes expected = some (v.asyncRead, .done) := by
  simp only [onRead, connected, hs, parseOrRead, hc]
  by_cases hmore : expected ≤ h.inBuf + bytes <;> simp [hmore]

theorem onWrite_error_of_shutdown (hs : h.state = .eShutdown) (message : String) (bytes : ℕ) :
    h.onWrite (some message) bytes = some ({ h with
      writeReq := false
      writes := h.writes - 1
      outBufs := h.outBufs.modifyHead (· - bytes) }, .done) := by
  simp [onWrite, connected, hs]

/-- A write that succeeds during the shutdown is followed by the next. -/
theorem onWrite_of_shutdown (hs : h.state = .eShutdown) {bytes : ℕ} {rest : List ℕ}
    (hbufs : h.outBufs = bytes :: rest) :
    let v := { h with writeReq := false, writes := h.writes - 1, outBufs := rest }
    h.onWrite none bytes = some (if rest = [] then v else v.asyncWrite, .done) := by
  simp [onWrite, connected, hs, hbufs]

/-- An operation completes: the socket delivers some of the bytes it holds or an error, a write has
sent its buffer or failed. -/
theorem Shut.complete {unread : ℕ} (hshut : h.Shut) (hcompletes : Completes h unread e) :
    ∃ r, h.method e = some r ∧ Unwinds h (3 * e.received) r := by
  cases e with
  | start | parsed | resume | stop | onData | onError | onClosed => cases hcompletes
  | resolved ec =>
    have hpending : h.resolves ≠ 0 := hcompletes
    refine ⟨_, if_neg hpending, hshut.unwinds (e := .resolved ec) (if_neg hpending)
      (fun hs _ hc ↦ ?_) fun hs _ ↦ ?_⟩
    · simp [resolved, hs, hc, load, Continuation.load]
      omega
    · simp [resolved, hs, load]
      omega
  | connectDone ec =>
    have hpending : h.connects ≠ 0 := hcompletes
    refine ⟨_, if_neg hpending, hshut.unwinds (e := .connectDone ec) (if_neg hpending)
      (fun hs _ hc ↦ ?_) fun hs _ ↦ ?_⟩
    · simp [connectDone, hs, hc, load, Continuation.load]
      omega
    · simp [connectDone, hs, load]
      omega
  | read ec bytes expected =>
    obtain ⟨hpending, hbytes⟩ := hcompletes
    have hmethod : h.method (.read ec bytes expected) = h.onRead ec bytes expected :=
      if_neg hpending
    rcases hshut.state with ⟨hs, hc⟩ | hs
    · cases ec with
      | some message =>
        have hr := hmethod.trans (onRead_error_of_shutdown hs message bytes expected)
        refine ⟨_, hr, hshut.unwinds hr (fun _ _ _ ↦ ?_) fun hs' _ ↦ by simp [hs] at hs'⟩
        simp [hs, hc, load, Continuation.load]
        omega
      | none =>
        have hsome := (hbytes rfl).1
        rcases onRead_of_shutdown hs hc bytes expected with hr | hr
        all_goals
          refine ⟨_, hmethod.trans hr, hshut.unwinds (hmethod.trans hr) (fun _ _ _ ↦ ?_)
            fun hs' _ ↦ by simp [hs] at hs'⟩
          simp [hs, hc, asyncRead, load, Continuation.load, Event.received]
          omega
    · have hr := hmethod.trans (onRead_of_stopped hs ec bytes expected)
      refine ⟨_, hr, hshut.unwinds hr (fun hs' ↦ by simp [hs] at hs') fun _ _ ↦ ?_⟩
      simp [hs, load]
      omega
  | wrote ec bytes =>
    obtain ⟨hpending, hbytes⟩ := hcompletes
    have hmethod : h.method (.wrote ec bytes) = h.onWrite ec bytes := if_neg hpending
    have hreq : h.writeReq = true := by
      by_contra hnone
      simp [hshut.steady.writes, hnone] at hpending
    obtain ⟨hconnection, hbufs⟩ := hshut.steady.write hreq
    have hs : h.state = .eShutdown := by
      rcases hshut.state with ⟨hs, -⟩ | hs
      · exact hs
      · rcases hshut.steady.connection hconnection with hs' | hs' <;> simp [hs] at hs'
    cases ec with
    | some message =>
      have hr := hmethod.trans (onWrite_error_of_shutdown hs message bytes)
      refine ⟨_, hr, hshut.unwinds hr (fun _ _ hc ↦ ?_) fun hs' _ ↦ by simp [hs] at hs'⟩
      simp [hs, hc, load, Continuation.load]
      omega
    | none =>
      obtain ⟨rest, hfront⟩ : ∃ rest, h.outBufs = bytes :: rest := by
        obtain ⟨front, rest, hcons⟩ := List.exists_cons_of_ne_nil hbufs
        exact ⟨rest, by simpa [hcons] using hbytes rfl⟩
      have hr := hmethod.trans (onWrite_of_shutdown hs hfront)
      refine ⟨_, hr, hshut.unwinds hr (fun _ _ hc ↦ ?_) fun hs' _ ↦ by simp [hs] at hs'⟩
      by_cases hrest : rest = []
      all_goals
        simp [hs, hc, hrest, hfront, asyncWrite, load, Continuation.load]
        omega

/-- `parse` returns. -/
theorem Shut.parsed {parsed : ℕ} (expected : ℕ) (hshut : h.Shut) (hparsed : parsed ≤ h.inBuf) :
    ∃ r, h.onParsed parsed expected = some r ∧ Unwinds h 2 r := by
  rcases hshut.state with ⟨hs, hc⟩ | hs
  · by_cases hmore : expected ≤ h.inBuf - parsed ∧ parsed ≠ 0
    · have hr : h.onParsed parsed expected =
          some ({ h with inBuf := h.inBuf - parsed }, .parse) := by
        simp [onParsed, connected, hs, parseOrRead, hc, hmore]
      refine ⟨_, hr, ⟨hshut.steady.onParsed hr, Or.inl ⟨hs, hc⟩⟩, Or.inr (Or.inl rfl),
        fun hs' ↦ by simp [hs] at hs', ?_⟩
      simp only [load, Continuation.load]
      omega
    · have hr : h.onParsed parsed expected =
          some ({ h with inBuf := h.inBuf - parsed }.asyncRead, .done) := by
        simp only [onParsed, connected, hs, parseOrRead, hc]
        simp only [not_and_or] at hmore
        rcases hmore with hmore | hmore <;> simp [hmore]
      refine ⟨_, hr, ⟨hshut.steady.onParsed hr, Or.inl ⟨hs, hc⟩⟩, Or.inl rfl,
        fun hs' ↦ by simp [hs] at hs', ?_⟩
      simp only [asyncRead, load, Continuation.load]
      omega
  · have hr : h.onParsed parsed expected = some (h, .done) := by simp [onParsed, connected, hs]
    exact ⟨_, hr, hshut, Or.inl rfl, fun _ ↦ ⟨hs, rfl⟩, by simp [Continuation.load]⟩

/-! ### The run of stop() -/

/-- The loop of `case eShutdown` is on top of the stack, and calls `run_one()`. -/
def Execution.looping (x : Execution) : Bool :=
  match x.stack with
  | .shutdownLoop _ :: _ => true
  | _ => false

/-- What a handler and the calls suspended in it weigh. -/
def Execution.load (x : Execution) : ℕ := x.handler.load + (x.stack.map Frame.load).sum

/-- A handler that is being stopped, the number of bytes that the socket still holds, and how many
calls of the handler foreign code has yet to make. -/
structure Stopping where
  execution : Execution
  unread : ℕ
  calls : ℕ
  deriving DecidableEq, Repr

/-- Something happens to the handler, or `run_one()` returns without having run anything. -/
inductive Stopping.Event
  | handler (e : ConnectionHandler.Event)
  | idle
  deriving DecidableEq, Repr

namespace Stopping

variable (s : Stopping)

/-- One event. -/
def step : Event → Option Stopping
  | .idle => some s
  | .handler e => (s.execution.step e).map fun x ↦
    { execution := x
      unread := s.unread - e.received
      calls := if e.isCall then s.calls - 1 else s.calls }

/-- A handler from a call of `stop()` on. -/
def machine : Machine Stopping Event where
  init s := ∃ x, Execution.machine.Reachable x ∧ x.step .stop = some s.execution
  step := step

/-- What may happen while the `io_service` is running, or while it is stopped. Foreign code runs
when the handler has called it or when `run_one()` runs it, and it does not start the handler again.
`run_one()` on a running service runs a handler, and on a stopped service it returns. -/
def May (stopped : Bool) : Event → Prop
  | .idle => stopped = true ∧ s.execution.looping = true ∧ s.execution.handler.waiting = true
  | .handler (.start _) => False
  | .handler (.parsed parsed _) =>
    s.execution.stack.head? = some .parse ∧ parsed ≤ s.execution.handler.inBuf
  | .handler .resume => s.execution.step .resume ≠ none
  | .handler e => s.execution.pausing = true ∧
    if e.isCall then s.calls ≠ 0 ∧ (stopped = true → s.execution.looping = false)
    else stopped = false ∧ s.execution.handler.Completes s.unread e

/-- Control is back where `stop()` was called. -/
def Returned (stack : List Frame) : Prop := s.execution.stack = stack

/-- Whatever happens, `stop()` returns. -/
def Returns (stopped : Bool) (stack : List Frame) : Prop :=
  machine.Inevitable (fun s e ↦ s.May stopped e) (fun s ↦ s.Returned stack) s

/-- How much there is still to do. -/
def measure : ℕ := s.execution.load + 3 * s.unread + 3 * s.calls

/-- What holds inside `stop()`. On a stopped service the handler has shut down already. -/
structure Unwinding (stopped : Bool) (stack : List Frame) (s : Stopping) : Prop where
  shut : s.execution.handler.Shut
  calm : stopped = true → s.execution.handler.state = .eNotConnected
  above : ∃ frames, s.execution.stack = frames ++ stack

variable {s}

/-- What a step does to an execution inside `stop()`. -/
structure Effect (x x' : Execution) (stack : List Frame) : Prop where
  shut : x'.handler.Shut
  still : x.handler.state = .eNotConnected → x'.handler.state = .eNotConnected
  stack : x'.stack = stack ∨ ∃ f, x'.stack = f :: stack

/-- The loop comes to its end. -/
theorem effect_finish {x : Execution} (hshut : x.handler.Shut) (hwaits : x.handler.waiting = false)
    (run : ℕ) : Effect x (x.finish run) x.stack ∧ (x.finish run).load ≤ x.load + 1 := by
  refine ⟨⟨⟨hshut.steady.endShutdown hwaits, Or.inr rfl⟩, fun _ ↦ rfl, Or.inr ⟨.shutdownCb, rfl⟩⟩,
    ?_⟩
  simp [Execution.finish, Execution.callback, Execution.load, Frame.load, endShutdown, goto,
    stateMachine, ConnectionHandler.load]
  omega

/-- A method is called. -/
theorem effect_perform {x : Execution} {budget : ℕ} {r : ConnectionHandler × Continuation}
    (hr : Unwinds x.handler budget r) (message : String) :
    Effect x (x.perform message r) x.stack ∧ (x.perform message r).load < x.load + budget := by
  obtain ⟨h', next⟩ := r
  obtain ⟨hshut, hnext, hstill, hload⟩ := hr
  have hstate := fun hs ↦ (hstill hs).1
  rcases hnext with rfl | rfl | rfl
  · refine ⟨⟨hshut, hstate, Or.inl rfl⟩, ?_⟩
    simp only [Execution.perform, Execution.goOn, Execution.load, Continuation.load] at hload ⊢
    omega
  · refine ⟨⟨hshut, hstate, Or.inr ⟨_, rfl⟩⟩, ?_⟩
    simp only [Execution.perform, Execution.goOn, Execution.suspend, Execution.load,
      Continuation.load, Frame.load, List.map_cons, List.sum_cons] at hload ⊢
    omega
  · have hwaiting (hs : x.handler.state = .eNotConnected) : False := by simpa using (hstill hs).2
    simp only [Execution.perform, Execution.goOn]
    split
    · refine ⟨⟨hshut, hstate, Or.inr ⟨_, rfl⟩⟩, ?_⟩
      simp only [Execution.suspend, Execution.load, Continuation.load, Frame.load, List.map_cons,
        List.sum_cons] at hload ⊢
      omega
    · next hwaits =>
      obtain ⟨heffect, hfinish⟩ := effect_finish (x := { x with
        handler := h'
        log := x.log ++
          if Begins x.handler h' then [Observation.began x.starts message] else [] })
        hshut (by simpa using hwaits) x.starts
      refine ⟨⟨heffect.shut, fun hs ↦ (hwaiting hs).elim, heffect.stack⟩, ?_⟩
      simp only [Execution.load, Continuation.load] at hload hfinish ⊢
      omega

variable {stopped : Bool} {stack : List Frame}

theorem Unwinding.of_effect {x' : Execution} {rest : List Frame} (h : s.Unwinding stopped stack)
    (heffect : Effect s.execution x' rest) (hrest : ∃ frames, rest = frames ++ stack)
    (unread calls : ℕ) : (Stopping.mk x' unread calls).Unwinding stopped stack := by
  refine ⟨heffect.shut, fun hstopped ↦ heffect.still (h.calm hstopped), ?_⟩
  obtain ⟨frames, rfl⟩ := hrest
  rcases heffect.stack with hsame | ⟨f, hpushed⟩
  · exact ⟨frames, hsame⟩
  · exact ⟨f :: frames, hpushed⟩

/-- What is below the call on top of the stack. -/
theorem Unwinding.below {f : Frame} {rest : List Frame} (h : s.Unwinding stopped stack)
    (hnot : ¬ s.Returned stack) (hstack : s.execution.stack = f :: rest) :
    ∃ frames, rest = frames ++ stack := by
  obtain ⟨frames, habove⟩ := h.above
  cases frames with
  | nil => exact absurd habove hnot
  | cons g frames =>
    rw [hstack] at habove
    exact ⟨frames, (List.cons.inj habove).2⟩

/-- On a stopped service no loop waits. -/
theorem Unwinding.waiting_eq_false (h : s.Unwinding stopped stack) (hstopped : stopped = true) :
    s.execution.handler.waiting = false := by
  by_contra hwaits
  have hconnection := h.shut.steady.connection_of_waiting (by simpa using hwaits)
  rcases h.shut.steady.connection hconnection with hs | hs <;> simp [h.calm hstopped] at hs

/-- The call on top of the stack goes on. -/
theorem Unwinding.resume (h : s.Unwinding stopped stack) (hnot : ¬ s.Returned stack)
    (hmay : s.May stopped (.handler .resume)) :
    ∃ s', s.step (.handler .resume) = some s' ∧ s'.measure < s.measure ∧
      s'.Unwinding stopped stack := by
  obtain ⟨x', hstep⟩ := Option.ne_none_iff_exists'.mp hmay
  have hpop (f : Frame) (rest : List Frame) (hstack : s.execution.stack = f :: rest)
      (heffect : Effect s.execution x' rest) (hload : x'.load < s.execution.load) :
      ∃ s', s.step (.handler .resume) = some s' ∧ s'.measure < s.measure ∧
        s'.Unwinding stopped stack := by
    refine ⟨⟨x', s.unread, s.calls⟩, by simp [step, hstep, ConnectionHandler.Event.received,
      ConnectionHandler.Event.isCall], ?_, h.of_effect heffect (h.below hnot hstack) _ _⟩
    simp only [measure]
    omega
  simp only [Execution.step] at hstep
  split at hstep
  · next rest hstack =>
    refine hpop _ rest hstack ?_ ?_
    · exact Option.some.inj hstep ▸ ⟨h.shut, id, Or.inl rfl⟩
    · simp [← Option.some.inj hstep, Execution.load, hstack, Frame.load]
  · next rest hstack =>
    refine hpop _ rest hstack ?_ ?_
    · rw [← Option.some.inj hstep]
      have hsteady := h.shut.steady
      exact ⟨⟨⟨hsteady.connection, hsteady.read, hsteady.write, hsteady.writes⟩, h.shut.state⟩, id,
        Or.inl rfl⟩
    · simp [← Option.some.inj hstep, Execution.load, hstack, Frame.load, endShutdownCb,
        ConnectionHandler.load]
  · next run rest hstack =>
    obtain ⟨hwaits, hstep⟩ := Option.ite_none_left_eq_some.mp hstep
    obtain ⟨heffect, hload⟩ := effect_finish (x := { s.execution with stack := rest }) h.shut
      (Bool.not_eq_true _ ▸ hwaits) run
    refine hpop _ rest hstack ?_ ?_
    · exact Option.some.inj hstep ▸ ⟨heffect.shut, heffect.still, heffect.stack⟩
    · rw [← Option.some.inj hstep]
      simp only [Execution.load, hstack, Frame.load, List.map_cons, List.sum_cons] at hload ⊢
      omega
  · cases hstep
  · cases hstep

/-- Whatever may happen takes the stopping on. -/
theorem Unwinding.step {e : Event} (h : s.Unwinding stopped stack) (hnot : ¬ s.Returned stack)
    (hmay : s.May stopped e) :
    ∃ s', s.step e = some s' ∧ s'.measure < s.measure ∧ s'.Unwinding stopped stack := by
  have hmethod {e : ConnectionHandler.Event} (hmay : s.May stopped (.handler e))
      (hstep : s.execution.step e =
        if s.execution.pausing then
          (s.execution.handler.method e).map (s.execution.perform e.message)
        else none)
      (hrest : s.execution.pausing = true ∧
        if e.isCall then s.calls ≠ 0 ∧ (stopped = true → s.execution.looping = false)
        else stopped = false ∧ s.execution.handler.Completes s.unread e) :
      ∃ s', s.step (.handler e) = some s' ∧ s'.measure < s.measure ∧
        s'.Unwinding stopped stack := by
    obtain ⟨hpausing, hrest⟩ := hrest
    rw [if_pos hpausing] at hstep
    by_cases hcall : e.isCall = true
    · rw [if_pos hcall] at hrest
      obtain ⟨r, hr, hunwinds⟩ := h.shut.call hcall
      obtain ⟨heffect, hload⟩ := effect_perform hunwinds e.message
      have hnone : e.received = 0 := by cases e <;> first | rfl | cases hcall
      refine ⟨_, by rw [Stopping.step, hstep, hr]; rfl, ?_, h.of_effect heffect h.above _ _⟩
      simp only [measure, hcall, hnone, ↓reduceIte]
      omega
    · rw [if_neg hcall] at hrest
      obtain ⟨r, hr, hunwinds⟩ := h.shut.complete hrest.2
      obtain ⟨heffect, hload⟩ := effect_perform hunwinds e.message
      have hbytes : e.received ≤ s.unread := by
        cases e <;> try exact Nat.zero_le _
        case read ec bytes expected =>
          cases ec with
          | none => exact (hrest.2.2 rfl).2
          | some message => exact Nat.zero_le _
      refine ⟨_, by rw [Stopping.step, hstep, hr]; rfl, ?_, h.of_effect heffect h.above _ _⟩
      simp only [measure, hcall, Bool.false_eq_true, ↓reduceIte]
      omega
  cases e with
  | idle =>
    obtain ⟨hstopped, -, hwaits⟩ := hmay
    simp [h.waiting_eq_false hstopped] at hwaits
  | handler e =>
    cases e with
    | start => exact hmay.elim
    | resume => exact h.resume hnot hmay
    | parsed parsed expected =>
      obtain ⟨htop, hparsed⟩ := hmay
      obtain ⟨rest, hstack⟩ := List.head?_eq_some_iff.mp htop
      obtain ⟨r, hr, hunwinds⟩ := h.shut.parsed expected hparsed
      obtain ⟨heffect, hload⟩ := effect_perform (x := { s.execution with stack := rest }) hunwinds
        (ConnectionHandler.Event.message (.parsed parsed expected))
      refine ⟨_, ?_, ?_, h.of_effect ⟨heffect.shut, heffect.still, heffect.stack⟩
        (h.below hnot hstack) s.unread s.calls⟩
      · simp [Stopping.step, Execution.step, hstack, hr, ConnectionHandler.Event.received,
          ConnectionHandler.Event.isCall]
      · simp only [measure, Execution.load, hstack, Frame.load, List.map_cons, List.sum_cons]
          at hload ⊢
        omega
    | stop | onData | onError | onClosed | resolved | connectDone | read | wrote =>
      exact hmethod hmay rfl hmay

/-- Until `stop()` returns something may happen: the call on top goes on, or what a loop on a
running service waits for fails. -/
theorem Unwinding.exists_may (h : s.Unwinding stopped stack) (hnot : ¬ s.Returned stack) :
    ∃ e, s.May stopped e := by
  obtain ⟨frames, habove⟩ := h.above
  rcases frames with _ | ⟨f, frames⟩
  · exact absurd habove hnot
  have hstack : s.execution.stack = f :: (frames ++ stack) := habove
  cases f with
  | connectedCb => exact ⟨.handler .resume, by simp [May, Execution.step, hstack]⟩
  | shutdownCb => exact ⟨.handler .resume, by simp [May, Execution.step, hstack]⟩
  | parse => exact ⟨.handler (.parsed 0 0), by simp [May, hstack]⟩
  | shutdownLoop run =>
    by_cases hwaits : s.execution.handler.waiting = true
    · have hrunning : stopped = false := by
        by_contra hstopped
        simp [h.waiting_eq_false (by simpa using hstopped)] at hwaits
      have hpausing : s.execution.pausing = true := by simp [Execution.pausing, hstack, hwaits]
      rcases Bool.or_eq_true_iff.mp hwaits with hread | hwrite
      · exact ⟨.handler (.read (some "") 0 0), hpausing, hrunning, (h.shut.steady.read hread).2,
          nofun⟩
      · refine ⟨.handler (.wrote (some "") 0), hpausing, hrunning, ?_, nofun⟩
        simp [h.shut.steady.writes, hwrite]
    · exact ⟨.handler .resume, by simp [May, Execution.step, hstack, hwaits]⟩

/-- What a call of `stop()` does at once. -/
theorem stop_cases {x y : Execution} (hstop : x.step .stop = some y) :
    x.handler.state = .eNotConnected ∧ y.stack = x.stack ∨
      x.handler.state ≠ .eNotConnected ∧
        y = x.perform ""
          ({ x.handler with lastError := "", state := .eShutdown }, .shutdownLoop) := by
  have hy : x.perform "" x.handler.stop = y := by
    simp only [Execution.step] at hstop
    obtain ⟨-, hsome⟩ := Option.ite_none_right_eq_some.mp hstop
    exact Option.some.inj hsome
  by_cases hstate : x.handler.state = .eNotConnected
  · refine Or.inl ⟨hstate, ?_⟩
    rw [← hy, ConnectionHandler.stop, if_pos hstate]
    rfl
  · refine Or.inr ⟨hstate, ?_⟩
    rw [← hy, ConnectionHandler.stop, if_neg hstate]
    rfl

/-- On a stopped service the loop spins: `run_one()` returns and nothing has changed. -/
theorem not_returns_of_stopped {x y : Execution} (hx : Execution.machine.Reachable x)
    (hstop : x.step .stop = some y) (hwaits : x.handler.waiting = true) (unread calls : ℕ) :
    ¬ (Stopping.mk y unread calls).Returns true x.stack := by
  have hsteady := steady_of_reachable hx
  have hconnection := hsteady.connection_of_waiting hwaits
  obtain ⟨-, hy⟩ := (stop_cases hstop).resolve_left fun h ↦ by
    rcases hsteady.connection hconnection with hs | hs <;> simp [h.1] at hs
  have hloop : y.handler.waiting = true ∧ y.stack = .shutdownLoop x.starts :: x.stack := by
    have hsame : { x.handler with lastError := "", state := .eShutdown }.waiting = true := hwaits
    rw [hy]
    simp [Execution.perform, Execution.goOn, Execution.suspend, hsame]
  refine Machine.not_inevitable (I := fun s ↦ s = ⟨y, unread, calls⟩) ?_ ?_ rfl
  · rintro s rfl hreturned
    simp [Returned, hloop.2] at hreturned
  · rintro s rfl
    refine ⟨.idle, _, ⟨rfl, ?_, hloop.1⟩, rfl, rfl⟩
    simp [Execution.looping, hloop.2]

/-- On a running service, or with nothing to wait for, everything that `stop()` waits for comes. -/
theorem returns_of_running {x y : Execution} (hx : Execution.machine.Reachable x)
    (hstop : x.step .stop = some y) {stopped : Bool}
    (hrunning : stopped = true → x.handler.waiting = false) (unread calls : ℕ) :
    (Stopping.mk y unread calls).Returns stopped x.stack := by
  have hsteady := steady_of_reachable hx
  rcases stop_cases hstop with ⟨-, hstack⟩ | ⟨-, hy⟩
  · exact .now hstack
  refine Machine.inevitable_of_measure (I := Unwinding stopped x.stack) measure
    (fun s h hnot ↦ h.exists_may hnot) (fun s e h hnot hmay ↦ ?_) ?_
  · obtain ⟨s', hs', hless, hkeep⟩ := h.step hnot hmay
    exact ⟨s', hs', hless, Or.inr hkeep⟩
  · have hshutdown : { x.handler with lastError := "", state := .eShutdown }.Steady :=
      hsteady.shutdown { x.handler with lastError := "", state := .eShutdown } rfl id rfl rfl rfl
        rfl rfl
    rw [hy]
    simp only [Execution.perform, Execution.goOn]
    split
    · next hwaits =>
      have hconnection := hsteady.connection_of_waiting hwaits
      refine ⟨⟨hshutdown, Or.inl ⟨rfl, hconnection⟩⟩, fun hstopped ↦ ?_, ⟨[_], rfl⟩⟩
      exact absurd ((hrunning hstopped).symm.trans hwaits) Bool.false_ne_true
    · next hwaits =>
      exact ⟨⟨hshutdown.endShutdown (by simpa using hwaits), Or.inr rfl⟩, fun _ ↦ rfl, ⟨[_], rfl⟩⟩

/-- `stop()` returns from every state of the handler, whatever is unread and in whatever order the
operations complete, unless there is something to wait for and the service is stopped. -/
theorem returns_iff {x y : Execution} (hx : Execution.machine.Reachable x)
    (hstop : x.step .stop = some y) (stopped : Bool) (unread calls : ℕ) :
    (Stopping.mk y unread calls).Returns stopped x.stack ↔
      (stopped = true → x.handler.waiting = false) := by
  refine ⟨fun hreturns hstopped ↦ ?_, fun hrunning ↦ returns_of_running hx hstop hrunning _ _⟩
  by_contra hwaits
  rw [Bool.not_eq_false] at hwaits
  subst hstopped
  exact not_returns_of_stopped hx hstop hwaits unread calls hreturns

/-- A handler connects and sends its first data. A read and a write are outstanding. -/
def established : List ConnectionHandler.Event :=
  [.start false, .resolved none, .connectDone none, .onData 8]

/-- With the service running, a `stop()` then returns whatever the broker has sent. -/
theorem returns_established :
    ∃ x y, Execution.machine.Reachable x ∧ x.handler.waiting = true ∧ x.step .stop = some y ∧
      (Stopping.mk y 1000 10).Returns false x.stack := by
  obtain ⟨x, hrun, hwaits, y, hstop⟩ : ∃ x,
      Execution.machine.run ⟨new, [], 0, []⟩ established = some x ∧ x.handler.waiting = true ∧
        ∃ y, x.step .stop = some y :=
    ⟨_, rfl, rfl, _, rfl⟩
  have hx : Execution.machine.Reachable x := ⟨_, established, rfl, hrun⟩
  exact ⟨x, y, hx, hwaits, hstop, (returns_iff hx hstop false 1000 10).mpr (by simp)⟩

/-- With the service stopped it does not return. -/
theorem not_returns_established :
    ∃ x y, Execution.machine.run ⟨new, [], 0, []⟩ established = some x ∧
      x.step .stop = some y ∧ ¬ (Stopping.mk y 0 0).Returns true x.stack := by
  obtain ⟨x, hrun, hwaits, y, hstop⟩ : ∃ x,
      Execution.machine.run ⟨new, [], 0, []⟩ established = some x ∧ x.handler.waiting = true ∧
        ∃ y, x.step .stop = some y :=
    ⟨_, rfl, rfl, _, rfl⟩
  exact ⟨x, y, hrun, hstop, not_returns_of_stopped ⟨_, established, rfl, hrun⟩ hstop hwaits 0 0⟩

end Stopping

end ConnectionHandler

end AmqpAsio
