import AmqpAsio.Connector.ConnectionLoss
import AmqpAsio.Connector.Sessions

/-!
# Waits inside callbacks

`open()`, `close()`, `run()` and the handler posted by `stop()` run the event loop until the broker
has answered a transceiver. `onRead` begins the next read only after `AMQP::Connection::parse` and
everything that it calls have returned, so while a call of `parse` is suspended no read is
outstanding: a wait that is entered from a message callback, or from any other code that `parse`
calls, never sees the answer. Below, the reads of every connection are counted together with the
calls of `parse` for it, and the waits are placed on the stack above or below these calls.
-/

set_option autoImplicit false
set_option relaxedAutoImplicit false

namespace AmqpAsio

namespace ConnectionHandler

variable {h h' : ConnectionHandler} {parses : ℕ}

/-! ### The reads of a connection -/

/-- The handler of a connection with so many suspended calls of `parse`. A read and a call of
`parse` exclude each other, and once the first data has been sent there is one of them. -/
structure Reads (h : ConnectionHandler) (parses : ℕ) : Prop where
  established : h.state ≠ .eReceiverInit
  single : h.reads + parses ≤ 1
  ready : h.state = .eReady → h.reads + parses = 1
  begun : h.state = .eResolving ∨ h.state = .eConnecting → h.reads + parses = 0

/-- How many calls of `parse` a method leaves suspended. -/
def Continuation.parsing : Continuation → ℕ
  | .parse => 1
  | _ => 0

/-- A handler that shuts down, or has done so, reads no more. -/
theorem Reads.over (hreads : h.Reads parses)
    (hover : h'.state = .eShutdown ∨ h'.state = .eNotConnected) (hfewer : h'.reads ≤ h.reads) :
    h'.Reads parses := by
  have hsingle := hreads.single
  refine ⟨?_, by omega, ?_, ?_⟩ <;> rcases hover with hs | hs <;> simp [hs]

/-- A handler that has not changed its reads reads as before. -/
theorem Reads.same (hreads : h.Reads parses) (hstate : h'.state = h.state)
    (hsame : h'.reads = h.reads) : h'.Reads parses := by
  obtain ⟨hestablished, hsingle, hready, hbegun⟩ := hreads
  constructor
  all_goals
    rw [hstate] at *
    try rw [hsame]
    assumption

theorem reads_push (h : ConnectionHandler) (size : ℕ) : (h.push size).reads = h.reads := by
  simp only [push]
  split <;> rfl

/-- The loop that parses begins a read or another call of `parse`. -/
theorem Reads.parseOrRead {again : Bool} {expected : ℕ} {r : ConnectionHandler × Continuation}
    (hnone : h.reads + parses = 0) (hup : h.state = .eReady ∨ h.state = .eShutdown)
    (hmethod : h.parseOrRead again expected = some r) : r.1.Reads (parses + r.2.parsing) := by
  unfold ConnectionHandler.parseOrRead at hmethod
  split_ifs at hmethod
  · obtain rfl := Option.some.inj hmethod
    refine ⟨?_, ?_, ?_, ?_⟩ <;> rcases hup with hs | hs <;>
      simp [hs, Continuation.parsing] <;> omega
  · obtain rfl := Option.some.inj hmethod
    refine ⟨?_, ?_, ?_, ?_⟩ <;> rcases hup with hs | hs <;>
      simp [hs, asyncRead, Continuation.parsing] <;> omega

variable {e : Event} {r : ConnectionHandler × Continuation}

/-- A connection that is up and has an operation of reading is in `eReady` or shutting down. -/
theorem Reads.up (hreads : h.Reads parses) (hconnected : h.connected = true) :
    h.state = .eReady ∨ h.state = .eShutdown := by
  rcases connected_iff.mp hconnected with hs | hs
  · exact absurd hs hreads.established
  · exact hs

/-- A handler that reads or parses, without being connected, has been stopped. -/
theorem Reads.stopped (hreads : h.Reads parses) (hconnected : h.connected = false)
    (hsome : h.reads + parses ≠ 0) : h.state = .eNotConnected := by
  cases hs : h.state with
  | eNotConnected => rfl
  | eResolving => exact absurd (hreads.begun (Or.inl hs)) hsome
  | eConnecting => exact absurd (hreads.begun (Or.inr hs)) hsome
  | eReceiverInit | eReady | eShutdown => simp [connected, hs] at hconnected

/-- A method keeps the count, unless it has connected and calls `m_connectedCb`. -/
theorem Reads.method (hreads : h.Reads parses) (hcb : h.connectedCb = true)
    (hmethod : h.method e = some r) (hnext : r.2 ≠ .connectedCb) :
    r.1.Reads (parses + r.2.parsing) := by
  have hdown (v : ConnectionHandler) (hstate : v.state = .eShutdown) (hsame : v.reads = h.reads) :
      v.Reads (parses + 0) := hreads.over (Or.inl hstate) (Nat.le_of_eq hsame)
  cases e with
  | start | parsed | resume => cases hmethod
  | stop =>
    obtain rfl := Option.some.inj hmethod
    unfold stop
    split
    · exact hreads
    · exact hdown _ rfl rfl
  | onError message =>
    obtain rfl := Option.some.inj hmethod
    unfold onError
    split
    · exact hreads
    · exact hdown _ rfl rfl
  | onClosed =>
    obtain rfl := Option.some.inj hmethod
    unfold onClosed
    split
    · exact hreads
    · exact hdown _ rfl rfl
  | onData size =>
    obtain rfl := Option.some.inj hmethod
    unfold onData
    split_ifs with hnot hinit
    · exact hreads
    · exact absurd hinit hreads.established
    · exact hreads.same (state_push _ size) (reads_push _ size)
  | resolved ec =>
    obtain ⟨-, hmethod⟩ := Option.ite_none_left_eq_some.mp hmethod
    obtain rfl := Option.some.inj hmethod
    simp only [resolved]
    split
    · exact hreads.same rfl rfl
    · next hstate =>
      have hnone := hreads.begun (Or.inl (not_not.mp hstate))
      cases ec with
      | some message => exact hreads.over (Or.inr rfl) (Nat.le_refl _)
      | none => exact ⟨(fun h ↦ by cases h), hreads.single, (fun h ↦ by cases h), fun _ ↦ hnone⟩
  | connectDone ec =>
    obtain ⟨-, hmethod⟩ := Option.ite_none_left_eq_some.mp hmethod
    obtain rfl := Option.some.inj hmethod
    simp only [connectDone] at hnext ⊢
    split at hnext
    · next hstate =>
      rw [if_pos hstate]
      exact hreads.same rfl rfl
    · next hstate =>
      rw [if_neg hstate]
      cases ec with
      | some message => exact hreads.over (Or.inr rfl) (Nat.le_refl _)
      | none => simp [goto, stateMachine, hcb] at hnext
  | read ec bytes expected =>
    obtain ⟨hpending, hmethod⟩ := Option.ite_none_left_eq_some.mp hmethod
    have hsingle := hreads.single
    simp only [onRead] at hmethod
    split at hmethod
    · next hnot =>
      rw [Bool.not_eq_true'] at hnot
      have hstate := hreads.stopped hnot (by omega)
      exact Option.some.inj hmethod ▸ hreads.over (Or.inr hstate) (Nat.sub_le _ _)
    · next hconnected =>
      rw [Bool.not_eq_true', Bool.not_eq_false] at hconnected
      have hup := hreads.up hconnected
      have hnone : h.reads - 1 + parses = 0 := by omega
      cases ec with
      | none => exact Reads.parseOrRead (h := { h with
          readReq := false, reads := h.reads - 1, inBuf := h.inBuf + bytes }) hnone hup hmethod
      | some message =>
        simp only at hmethod
        split at hmethod
        · exact Option.some.inj hmethod ▸ hreads.over (Or.inl rfl) (Nat.sub_le _ _)
        · next hstate =>
          exact Option.some.inj hmethod ▸ hreads.over (Or.inl (not_not.mp hstate)) (Nat.sub_le _ _)
  | wrote ec bytes =>
    obtain ⟨-, hmethod⟩ := Option.ite_none_left_eq_some.mp hmethod
    simp only [onWrite] at hmethod
    split at hmethod
    · exact Option.some.inj hmethod ▸ hreads.same rfl rfl
    · cases ec with
      | some message =>
        simp only at hmethod
        split at hmethod
        · exact Option.some.inj hmethod ▸ hreads.over (Or.inl rfl) (Nat.le_refl _)
        · exact Option.some.inj hmethod ▸ hreads.same rfl rfl
      | none =>
        simp only at hmethod
        split at hmethod
        · cases hmethod
        · obtain rfl := Option.some.inj hmethod
          simp only
          split_ifs <;> exact hreads.same rfl rfl

/-- Only the completion of the connection goes on to `m_connectedCb`. -/
theorem connectDone_of_connectedCb (hmethod : h.method e = some r) (hnext : r.2 = .connectedCb) :
    e = .connectDone none ∧ h.state = .eConnecting := by
  have htransition := transition_method hmethod
  rw [hnext] at htransition
  obtain ⟨hs, -⟩ := htransition
  refine ⟨?_, hs⟩
  cases e with
  | connectDone ec =>
    obtain ⟨-, hmethod⟩ := Option.ite_none_left_eq_some.mp hmethod
    obtain rfl := Option.some.inj hmethod
    cases ec with
    | none => rfl
    | some message => simp [connectDone, hs, goto, stateMachine] at hnext
  | start | parsed | resume => cases hmethod
  | stop =>
    obtain rfl := Option.some.inj hmethod
    simp [stop, hs, goto, stateMachine] at hnext
  | onData size =>
    obtain rfl := Option.some.inj hmethod
    simp [onData, connected, hs] at hnext
  | onError message =>
    obtain rfl := Option.some.inj hmethod
    simp [onError, connected, hs] at hnext
  | onClosed =>
    obtain rfl := Option.some.inj hmethod
    simp [onClosed, connected, hs] at hnext
  | resolved ec =>
    obtain ⟨-, hmethod⟩ := Option.ite_none_left_eq_some.mp hmethod
    obtain rfl := Option.some.inj hmethod
    simp [resolved, hs] at hnext
  | read ec bytes expected =>
    obtain ⟨-, hmethod⟩ := Option.ite_none_left_eq_some.mp hmethod
    simp only [onRead, connected, hs] at hmethod
    obtain rfl := Option.some.inj hmethod
    cases hnext
  | wrote ec bytes =>
    obtain ⟨-, hmethod⟩ := Option.ite_none_left_eq_some.mp hmethod
    simp only [onWrite, connected, hs] at hmethod
    obtain rfl := Option.some.inj hmethod
    cases hnext

/-- The completion of the connection reads nothing. -/
theorem connectDone_of_eConnecting (hstate : h.state = .eConnecting) (hcb : h.connectedCb = true)
    (hmethod : h.method (.connectDone none) = some r) :
    r = ({ h with connects := h.connects - 1, state := .eReceiverInit }, .connectedCb) := by
  obtain ⟨-, hmethod⟩ := Option.ite_none_left_eq_some.mp hmethod
  obtain rfl := Option.some.inj hmethod
  simp [connectDone, hstate, goto, stateMachine, hcb]

/-- A method that goes on to `m_connectedCb` has connected, and read nothing. -/
theorem reads_of_connectedCb (hmethod : h.method e = some r) (hnext : r.2 = .connectedCb) :
    h.state = .eConnecting ∧ r.1.state = .eReceiverInit ∧ r.1.reads = h.reads := by
  have htransition := transition_method hmethod
  rw [hnext] at htransition
  obtain ⟨rfl, hs⟩ := connectDone_of_connectedCb hmethod hnext
  refine ⟨hs, htransition.2, ?_⟩
  obtain ⟨-, hmethod⟩ := Option.ite_none_left_eq_some.mp hmethod
  obtain rfl := Option.some.inj hmethod
  simp [connectDone, hs, goto, stateMachine]

/-- A handler that is ready was so before a method that has not connected it. -/
theorem ready_of_transition {next : Continuation} (htransition : Transition h h' next)
    (hcb : h.connectedCb = true) (hnext : next ≠ .connectedCb) (hready : h'.ready = true) :
    h.ready = true := by
  unfold ready at hready ⊢
  cases next <;> simp only [Transition, State.Advances] at htransition
  case done =>
    rcases htransition with hsame | ⟨⟨hs, hs'⟩ | ⟨hs, hs'⟩ | ⟨hs, hs'⟩, hnone⟩
    · rwa [hsame] at hready
    · simp [hs'] at hready
    · simp [hnone hs'] at hcb
    · simp [hs]
  case connectedCb => exact absurd rfl hnext
  case shutdownLoop => simp [htransition.2] at hready
  case shutdownCb => simp [htransition.2.1] at hready
  case parse => rwa [htransition.2] at hready

/-- `parse` returns. -/
theorem Reads.onParsed {parsed expected : ℕ} (hreads : h.Reads (parses + 1))
    (hmethod : h.onParsed parsed expected = some r) : r.1.Reads (parses + r.2.parsing) := by
  have hsingle := hreads.single
  unfold ConnectionHandler.onParsed at hmethod
  split at hmethod
  · next hnot =>
    have hstate := hreads.stopped (by simpa using hnot) (by omega)
    obtain rfl := Option.some.inj hmethod
    refine ⟨?_, ?_, ?_, ?_⟩ <;> simp [hstate, Continuation.parsing]
    omega
  · next hconnected =>
    have hnone : h.reads + parses = 0 := by omega
    exact Reads.parseOrRead (h := { h with inBuf := h.inBuf - parsed }) hnone
      (hreads.up (by simpa using hconnected)) hmethod

/-- The protocol header begins the first read. -/
theorem reads_of_protocolHeader (hstate : h.state = .eReceiverInit) (hnone : h.reads + parses = 0)
    (size : ℕ) : (h.onData size).1.Reads parses := by
  have hready := state_onData hstate size
  have hone : (h.onData size).1.reads = h.reads + 1 := by
    simp [onData, connected, hstate, reads_push, goto, stateMachine, asyncRead]
  refine ⟨?_, ?_, ?_, ?_⟩ <;> simp [hready, hone] <;> omega

end ConnectionHandler

namespace Connector

variable {c c₁ c' : Connector} {fair : Prop}

/-! ### Waits and calls of parse on the stack -/

/-- The call waits for transceivers, or may go on to: those of `open`, `close`, `run` and of the
handler posted by `stop()`, and the end of `AutoReconnect::started`. -/
def Frame.waits : Frame → Bool
  | .openLoop _ | .closeLoop _ | .started => true
  | .forEach .start _ | .forEach .ready _ | .forEach (.stopHandler _) _ => true
  | _ => false

/-- The call is one of `parse`. -/
def Frame.isParse : Frame → Bool
  | .parse _ => true
  | _ => false

/-- The call is neither. -/
def Frame.isPlain (f : Frame) : Bool := !f.waits && !f.isParse

/-- No call that waits is above a call of `parse` for the session. -/
def Unnested (session : ℕ) : List Frame → Prop
  | [] => True
  | f :: below => (f.waits = true → .parse session ∉ below) ∧ Unnested session below

theorem unnested_of_notMem {session : ℕ} {stack : List Frame} (hnot : .parse session ∉ stack) :
    Unnested session stack := by
  induction stack with
  | nil => trivial
  | cons f below ih =>
    rw [List.mem_cons, not_or] at hnot
    exact ⟨fun _ ↦ hnot.2, ih hnot.2⟩

/-- Calls that do not wait may be put on top. -/
theorem Unnested.append {session : ℕ} {new stack : List Frame} (h : Unnested session stack)
    (hnew : ∀ f ∈ new, f.waits = false) : Unnested session (new ++ stack) := by
  induction new with
  | nil => exact h
  | cons f new ih =>
    obtain ⟨hf, hnew⟩ := List.forall_mem_cons.mp hnew
    exact ⟨fun hwaits ↦ by simp [hf] at hwaits, ih hnew⟩

/-- The reads of all connections fit the calls of `parse`. -/
structure Nested (c : Connector) : Prop where
  reads : ∀ i, (c.handler i).Reads (c.stack.count (.parse i))
  lt : ∀ i, .parse i ∈ c.stack → i < c.handlers.length

/-- The waits of a connector whose connection is up are not inside a call of `parse` for it. -/
def WaitsOutside (c : Connector) : Prop :=
  c.connectionHandler.ready = true → Unnested c.session c.stack

/-! ### Plain calls -/

/-- Some calls have been suspended that neither wait nor parse, the handlers being as before. -/
structure Plain (c c' : Connector) : Prop where
  handlers : c'.handlers = c.handlers
  stack : ∃ new, c'.stack = new ++ c.stack ∧ ∀ f ∈ new, f.isPlain = true

theorem Plain.refl (c : Connector) : Plain c c := ⟨rfl, [], rfl, by simp⟩

/-- More calls have been suspended after some. -/
theorem Plain.after (hsecond : Plain c₁ c') (hfirst : Plain c c₁) : Plain c c' := by
  obtain ⟨hhandlers, new, hstack, hnew⟩ := hfirst
  obtain ⟨hhandlers', new', hstack', hnew'⟩ := hsecond
  refine ⟨hhandlers'.trans hhandlers, new' ++ new, by rw [hstack', hstack, List.append_assoc], ?_⟩
  exact fun f hf ↦ (List.mem_append.mp hf).elim (hnew' f) (hnew f)

/-- Nothing has been suspended. -/
theorem plain_of_eq (hhandlers : c'.handlers = c.handlers) (hstack : c'.stack = c.stack) :
    Plain c c' := ⟨hhandlers, [], hstack, by simp⟩

theorem plain_push (c : Connector) {f : Frame} (hf : f.isPlain = true) : Plain c (c.push f) :=
  ⟨rfl, [f], rfl, by simpa using hf⟩

theorem Calls.plain (h : Calls c c') : Plain c c' := by
  cases h with
  | intro hstack hlog =>
    obtain ⟨added, rfl, hadded⟩ := hstack
    refine ⟨rfl, added, rfl, fun f hf ↦ ?_⟩
    have hkind := hadded f hf
    cases f with
    | client | backup | restart => rfl
    | _ => cases hkind

theorem plain_exit (c : Connector) (session : ℕ) (code : ExitCode) :
    Plain c (c.exit session code) := by
  rcases exit_cases c session code with ⟨-, heq⟩ | ⟨-, hcalls⟩
  · rw [heq]
    exact Plain.refl c
  · exact hcalls.plain.after (plain_of_eq rfl rfl)

theorem plain_disconnected_exit (c : Connector) (session : ℕ) (code : ExitCode) :
    Plain c (c.disconnected.exit session code) :=
  (plain_exit c.disconnected session code).after (plain_of_eq rfl rfl)

theorem plain_stop (c : Connector) : Plain c c.stop := by
  rcases stop_cases c with ⟨-, heq⟩ | ⟨-, heq⟩ <;> rw [heq]
  · exact Plain.refl c
  · exact plain_push c rfl

theorem plain_onShutdown (c : Connector) (session : ℕ) : Plain c (c.onShutdown session) := by
  rcases onShutdown_cases c session with ⟨code, -, heq⟩ | ⟨loop, rfl | rfl, -, heq⟩ <;> rw [heq]
  · exact plain_disconnected_exit c session code
  · exact plain_push c rfl
  · exact plain_push c rfl

/-! ### What a step does to the waits -/

/-- What a step does: the reads fit the calls of `parse`, and, if the step is fair, the waits stay
outside of these. -/
structure Goes (fair : Prop) (c c' : Connector) : Prop where
  nested : c'.Nested
  outside : fair → c.WaitsOutside → c'.WaitsOutside

theorem Goes.after (hsecond : Goes fair c₁ c') (hfirst : Goes fair c c₁) : Goes fair c c' :=
  ⟨hsecond.nested, fun hfair h ↦ hsecond.outside hfair (hfirst.outside hfair h)⟩

theorem isPlain_iff {f : Frame} : f.isPlain = true ↔ f.waits = false ∧ f.isParse = false := by
  simp [Frame.isPlain]

theorem count_append_of_plain {new stack : List Frame} (hnew : ∀ f ∈ new, f.isPlain = true)
    (i : ℕ) : (new ++ stack).count (.parse i) = stack.count (.parse i) := by
  have hnone : new.count (.parse i) = 0 := by
    rw [List.count_eq_zero]
    intro hmem
    simpa [Frame.isParse] using (isPlain_iff.mp (hnew _ hmem)).2
  rw [List.count_append, hnone, Nat.zero_add]

/-- Plain calls are suspended. -/
theorem Plain.goes (hplain : Plain c c') (h : c.Nested) : Goes fair c c' := by
  obtain ⟨hhandlers, new, hstack, hnew⟩ := hplain
  have hhandler : c'.handler = c.handler := by
    funext i
    simp only [handler, hhandlers]
  have hsession : c'.session = c.session := by simp only [Connector.session, hhandlers]
  have hpresent : c'.connectionHandler = c.connectionHandler := by
    simp only [connectionHandler, hhandler, hsession]
  refine ⟨⟨fun i ↦ ?_, fun i hi ↦ ?_⟩, fun _ houtside hready ↦ ?_⟩
  · rw [hhandler, hstack, count_append_of_plain hnew]
    exact h.reads i
  · rw [hhandlers]
    refine h.lt i ?_
    rw [← List.count_pos_iff] at hi ⊢
    rwa [hstack, count_append_of_plain hnew] at hi
  · rw [hsession, hstack]
    refine (houtside (hpresent ▸ hready)).append fun f hf ↦ ?_
    exact (isPlain_iff.mp (hnew f hf)).1

/-- All but the connection of one session fit. -/
structure NestedBut (session : ℕ) (c : Connector) : Prop where
  reads : ∀ i, i ≠ session → (c.handler i).Reads (c.stack.count (.parse i))
  lt : ∀ i, .parse i ∈ c.stack → i < c.handlers.length

/-- The handler of a session changes, so that it fits. -/
theorem NestedBut.setHandler {session : ℕ} {v : ConnectionHandler} (h : c.NestedBut session)
    (hlt : session < c.handlers.length) (hreads : v.Reads (c.stack.count (.parse session)))
    (hready : v.ready = true → (c.handler session).ready = true ∨ .parse session ∉ c.stack) :
    Goes fair c (c.setHandler session v) := by
  refine ⟨⟨fun i ↦ ?_, fun i hi ↦ ?_⟩, fun _ houtside hup ↦ ?_⟩
  · by_cases heq : i = session
    · subst heq
      rw [handler_setHandler c i v hlt]
      exact hreads
    · rw [handler_setHandler_of_ne c v heq]
      exact h.reads i heq
  · rw [length_setHandler]
    exact h.lt i hi
  · rw [session_setHandler]
    rw [connectionHandler, session_setHandler] at hup
    by_cases heq : c.session = session
    · subst heq
      rw [handler_setHandler c c.session v hlt] at hup
      rcases hready hup with hup | hnot
      · exact houtside hup
      · exact unnested_of_notMem hnot
    · rw [handler_setHandler_of_ne c v heq] at hup
      exact houtside hup

theorem Nested.but (h : c.Nested) (session : ℕ) : c.NestedBut session :=
  ⟨fun i _ ↦ h.reads i, h.lt⟩

theorem Nested.setHandler {session : ℕ} {v : ConnectionHandler} (h : c.Nested)
    (hreads : v.Reads (c.stack.count (.parse session)))
    (hready : v.ready = true → (c.handler session).ready = true ∨ .parse session ∉ c.stack) :
    Goes fair c (c.setHandler session v) := by
  by_cases hlt : session < c.handlers.length
  · exact (h.but session).setHandler hlt hreads hready
  · rw [setHandler_of_le (Nat.not_lt.mp hlt)]
    exact ⟨h, fun _ ↦ id⟩

/-- A handler finishes its shutdown. -/
theorem Nested.finish (h : c.Nested) (session : ℕ) : Goes fair c (c.finish session) := by
  have hover : (c.handler session).endShutdown.1.Reads (c.stack.count (.parse session)) :=
    (h.reads session).over (Or.inr rfl) (Nat.le_refl _)
  have hset : Goes fair _ _ := h.setHandler (v := (c.handler session).endShutdown.1) hover nofun
  have hpush : Goes fair _ _ := (plain_push _ (f := .shutdownCb session) rfl).goes hset.nested
  exact ((plain_onShutdown _ session).goes hpush.nested).after (hpush.after hset)

/-- Calls other than of `parse` are suspended, while no call of `parse` for the present connection
is. -/
theorem goes_of_notMem (new : List Frame) (h : c.Nested) (hhandlers : c'.handlers = c.handlers)
    (hstack : c'.stack = new ++ c.stack) (hnew : ∀ f ∈ new, f.isParse = false)
    (hnot : .parse c.session ∉ c.stack) : Goes fair c c' := by
  have hsession : c'.session = c.session := by simp only [Connector.session, hhandlers]
  have hmem (i : ℕ) : .parse i ∉ new := fun hi ↦ by simpa [Frame.isParse] using hnew _ hi
  have hcount (i : ℕ) : (new ++ c.stack).count (.parse i) = c.stack.count (.parse i) := by
    rw [List.count_append, List.count_eq_zero.mpr (hmem i), Nat.zero_add]
  refine ⟨⟨fun i ↦ ?_, fun i hi ↦ ?_⟩, fun _ _ _ ↦ unnested_of_notMem ?_⟩
  · have hhandler : c'.handler i = c.handler i := by simp only [handler, hhandlers]
    rw [hhandler, hstack, hcount]
    exact h.reads i
  · rw [hhandlers]
    rw [hstack, List.mem_append] at hi
    exact h.lt i (hi.resolve_left (hmem i))
  · rw [hsession, hstack, List.mem_append, not_or]
    exact ⟨hmem _, hnot⟩

/-- The connection has been established, and nothing of it has been parsed yet. -/
theorem Nested.callStartedCb (h : c.Nested) (hnot : .parse c.session ∉ c.stack) :
    Goes fair c c.callStartedCb := by
  unfold Connector.callStartedCb
  split
  · exact (Plain.refl c).goes h
  · exact (plain_push c rfl).goes h
  · unfold started
    split
    · refine Plain.goes ?_ h
      exact (plain_stop _).after (plain_of_eq rfl rfl)
    · split
      · exact goes_of_notMem [.client, .started] h rfl rfl (by simp [Frame.isParse]) hnot
      · simp only [endStarted, run]
        split_ifs
        · refine Plain.goes ?_ h
          exact plain_of_eq rfl rfl
        · exact goes_of_notMem [.forEach .start _] h rfl rfl (by simp [Frame.isParse]) hnot
        · refine Plain.goes ?_ h
          exact plain_of_eq rfl rfl

/-- A method of a handler goes on, so that the handler fits. -/
theorem NestedBut.handle {session : ℕ} {r : ConnectionHandler × ConnectionHandler.Continuation}
    (h : c.NestedBut session) (hlt : session < c.handlers.length) (hnext : r.2 ≠ .connectedCb)
    (hreads : r.1.Reads (c.stack.count (.parse session) + r.2.parsing))
    (hready : r.1.ready = true → (c.handler session).ready = true) :
    Goes fair c (c.handle session r) := by
  obtain ⟨v, next⟩ := r
  have hset (hparse : next.parsing = 0) : Goes fair c (c.setHandler session v) :=
    h.setHandler hlt (by simpa [hparse] using hreads) fun hv ↦ Or.inl (hready hv)
  cases next with
  | done => exact hset rfl
  | connectedCb => exact absurd rfl hnext
  | shutdownCb message =>
    have hpush : Goes fair _ _ :=
      (plain_push _ (f := .shutdownCb session) rfl).goes (hset rfl).nested
    exact ((plain_onShutdown _ session).goes hpush.nested).after (hpush.after (hset rfl))
  | shutdownLoop =>
    simp only [Connector.handle]
    split
    · exact ((plain_push _ rfl).goes (hset rfl).nested).after (hset rfl)
    · exact ((hset rfl).nested.finish session).after (hset rfl)
  | parse =>
    have hhandler {i : ℕ} (hne : i ≠ session) :
        ((c.setHandler session v).push (.parse session)).handler i = c.handler i :=
      handler_setHandler_of_ne c v hne
    refine ⟨⟨fun i ↦ ?_, fun i hi ↦ ?_⟩, fun _ houtside hup ↦ ?_⟩
    · change (((c.setHandler session v).push (.parse session)).handler i).Reads
        ((.parse session :: c.stack).count (.parse i))
      by_cases heq : i = session
      · subst heq
        rw [List.count_cons_self, handler_push, handler_setHandler c i v hlt]
        exact hreads
      · rw [List.count_cons_of_ne (by simpa using fun hs ↦ heq hs.symm), hhandler heq]
        exact h.reads i heq
    · change i < (c.setHandler session v).handlers.length
      rw [length_setHandler]
      rcases List.mem_cons.mp hi with hi | hi
      · cases hi
        exact hlt
      · exact h.lt i hi
    · have hup' : (c.setHandler session v).connectionHandler.ready = true := hup
      change Unnested (c.setHandler session v).session (.parse session :: c.stack)
      rw [session_setHandler]
      rw [connectionHandler, session_setHandler] at hup'
      refine ⟨(fun h ↦ by cases h), houtside ?_⟩
      by_cases heq : c.session = session
      · subst heq
        rw [handler_setHandler c c.session v hlt] at hup'
        exact hready hup'
      · rwa [handler_setHandler_of_ne c v heq] at hup'

/-- The present handler has connected. -/
theorem Nested.connected {r : ConnectionHandler × ConnectionHandler.Continuation}
    {e : ConnectionHandler.Event} (h : c.Nested) (hlt : c.session < c.handlers.length)
    (hmethod : c.connectionHandler.method e = some r) (hnext : r.2 = .connectedCb) :
    Goes fair c (c.handle c.session r) := by
  obtain ⟨v, next⟩ := r
  obtain rfl : next = .connectedCb := hnext
  obtain ⟨hconnecting, hinit, hsame⟩ := ConnectionHandler.reads_of_connectedCb hmethod rfl
  have hnone := (h.reads c.session).begun (Or.inr hconnecting)
  have hnot : .parse c.session ∉ c.stack := by
    rw [← List.count_eq_zero]
    omega
  have hreads : (v.onData protocolHeader).1.Reads (c.stack.count (.parse c.session)) :=
    ConnectionHandler.reads_of_protocolHeader hinit (by rw [hsame]; exact hnone) protocolHeader
  have hset : Goes fair _ _ := h.setHandler hreads fun _ ↦ Or.inr hnot
  change Goes fair c (c.setHandler c.session v).onConnected
  rw [onConnected_setHandler v hlt]
  refine Goes.after (Nested.callStartedCb ?_ ?_) ⟨?_, hset.outside⟩
  · exact ⟨hset.nested.reads, hset.nested.lt⟩
  · change .parse (c.setHandler c.session (v.onData protocolHeader).1).session ∉ c.stack
    rwa [session_setHandler]
  · exact ⟨hset.nested.reads, hset.nested.lt⟩

/-- A method of a handler is called. -/
theorem Nested.method {session : ℕ} {r : ConnectionHandler × ConnectionHandler.Continuation}
    {e : ConnectionHandler.Event} {spent : ℕ → Prop} (h : c.Nested) (hwf : c.WellFormed spent)
    (hlt : session < c.handlers.length) (hmethod : (c.handler session).method e = some r) :
    Goes fair c (c.handle session r) := by
  have hcb := (hwf.sound _ (handler_mem hlt)).connectedCb
  by_cases hnext : r.2 = .connectedCb
  · obtain ⟨hconnecting, -, -⟩ := ConnectionHandler.reads_of_connectedCb hmethod hnext
    have hpresent : session = c.session := by
      by_contra hne
      rcases hwf.over hlt hne with hs | hs <;> simp [hconnecting] at hs
    subst hpresent
    exact h.connected hlt hmethod hnext
  · refine (h.but session).handle hlt hnext ((h.reads session).method hcb hmethod hnext) ?_
    exact ConnectionHandler.ready_of_transition (ConnectionHandler.transition_method hmethod) hcb
      hnext

/-- A new session reads nothing. -/
theorem Nested.begun (h : c.Nested) (callback : Option StartedCallback) :
    Goes fair c (c.begun callback c.handlers) := by
  refine ⟨⟨fun i ↦ ?_, fun i hi ↦ ?_⟩, fun _ _ hready ↦ ?_⟩
  · change ((c.begun callback c.handlers).handler i).Reads (c.stack.count (.parse i))
    by_cases hlt : i < c.handlers.length
    · rw [handler_begun c callback hlt]
      exact h.reads i
    · have hnone : c.stack.count (.parse i) = 0 := List.count_eq_zero.mpr fun hi ↦ hlt (h.lt i hi)
      rw [hnone]
      by_cases heq : i = c.handlers.length
      · have hlast : (c.begun callback c.handlers).handler i =
            (ConnectionHandler.new.start true).1 := by
          simp [Connector.begun, handler, heq]
        rw [hlast]
        exact ⟨(fun h ↦ by cases h), by decide, (fun h ↦ by cases h), fun _ ↦ rfl⟩
      · rw [handler_of_le]
        · exact ⟨(fun h ↦ by cases h), by decide, (fun h ↦ by cases h), fun _ ↦ rfl⟩
        · rw [Connector.begun, List.length_append, List.length_singleton]
          omega
  · exact Nat.lt_of_lt_of_le (h.lt i hi) (by simp [Connector.begun])
  · rw [ConnectionHandler.ready, state_begun] at hready
    cases hready

/-- The handler of a session is stopped. -/
theorem Nested.stopped {session : ℕ} (h : c.Nested) (hlt : session < c.handlers.length)
    (hcb : (c.handler session).connectedCb = true) :
    Goes fair c (c.handle session (c.handler session).stop) := by
  have hmethod : (c.handler session).method .stop = some (c.handler session).stop := rfl
  have hnext := ConnectionHandler.stop_ne_connectedCb (c.handler session)
  exact (h.but session).handle hlt hnext ((h.reads session).method hcb hmethod hnext)
    (ConnectionHandler.ready_of_transition (ConnectionHandler.transition_stop _) hcb hnext)

theorem Nested.asyncStart (h : c.Nested) (hsound : ∀ v ∈ c.handlers, v.Sound)
    (callback : Option StartedCallback) : Goes fair c (c.asyncStart callback) := by
  unfold Connector.asyncStart
  split
  · exact (Plain.refl c).goes h
  · have hbegun : Goes fair _ _ := h.begun callback
    cases hlast : c.handlers.getLast? with
    | none => exact hbegun
    | some old =>
      obtain ⟨hlt, rfl⟩ := connectionHandler_of_getLast? hlast
      have hsame : (c.begun callback c.handlers).handler c.session = c.connectionHandler :=
        handler_begun c callback hlt
      have hlt' : c.session < (c.begun callback c.handlers).handlers.length := by
        rw [Connector.begun, List.length_append]
        exact Nat.lt_add_right _ hlt
      have hstopped : Goes fair _ _ := hbegun.nested.stopped hlt' (by
        rw [hsame]
        exact (hsound _ (handler_mem hlt)).connectedCb)
      rw [hsame] at hstopped
      exact hstopped.after hbegun

theorem Nested.stopHandler (h : c.Nested) (hsound : ∀ v ∈ c.handlers, v.Sound) (issued : ℕ) :
    Goes fair c (c.stopHandler issued) := by
  unfold Connector.stopHandler
  split
  · split
    · refine Plain.goes ?_ h
      exact (plain_disconnected_exit _ _ _).after (plain_of_eq rfl rfl)
    · exact (Plain.refl c).goes h
  · next hstopped =>
    have hstate : c.connectionHandler.state ≠ .eNotConnected := by
      simpa [ConnectionHandler.stopped] using hstopped
    have hlt := session_lt_of_state hstate
    have hrecord : Goes fair c { c.record (.acted issued c.session) with exiting := true } := by
      refine Plain.goes ?_ h
      exact plain_of_eq rfl rfl
    refine Goes.after ?_ hrecord
    exact hrecord.nested.stopped hlt (hsound _ (handler_mem hlt)).connectedCb

/-! ### Entering a wait -/

/-- The event enters a wait for transceivers: `run()` on a connection, or the handler posted by
`stop()`. -/
def EntersWait (c : Connector) : Event → Prop
  | .run => c.connectionHandlerReady = true
  | .posted _ => True
  | _ => False

/-- A call that waits is suspended outside of `parse`. -/
theorem Nested.push {f : Frame} (h : c.Nested) (hf : f.isParse = false) : (c.push f).Nested := by
  have hne (i : ℕ) : Frame.parse i ≠ f := fun hi ↦ by simp [← hi, Frame.isParse] at hf
  refine ⟨fun i ↦ ?_, fun i hi ↦ ?_⟩
  · change (c.handler i).Reads ((f :: c.stack).count (.parse i))
    rw [List.count_cons_of_ne fun hi ↦ hne i hi.symm]
    exact h.reads i
  · exact h.lt i ((List.mem_cons.mp hi).resolve_left (hne i))

theorem Goes.wait {f : Frame} (h : c.Nested) (hf : f.isParse = false)
    (houtside : fair → c.connectionHandler.ready = true → .parse c.session ∉ c.stack) :
    Goes fair c (c.push f) :=
  ⟨h.push hf, fun hfair hclear hready ↦ ⟨fun _ ↦ houtside hfair hready, hclear hready⟩⟩

theorem Nested.occur {e : Event} {spent : ℕ → Prop} (h : c.Nested) (hwf : c.WellFormed spent)
    (hoccur : c.occur e = some c')
    (houtside : fair → c.EntersWait e → c.connectionHandler.ready = true →
      .parse c.session ∉ c.stack) : Goes fair c c' := by
  have hsame {c' : Connector} (hhandlers : c'.handlers = c.handlers) (hstack : c'.stack = c.stack) :
      Goes fair c c' := (plain_of_eq hhandlers hstack).goes h
  cases e with
  | remove | onExit => exact Option.some.inj hoccur ▸ hsame rfl rfl
  | run =>
    obtain rfl := Option.some.inj hoccur
    unfold Connector.run
    split
    · exact hsame rfl rfl
    · next hready =>
      have hset : Goes fair c { c with sentinel := true } := hsame rfl rfl
      refine (Goes.wait hset.nested rfl ?_).after hset
      exact fun hfair ↦ houtside hfair (by simpa [EntersWait] using hready)
  | asyncStart callback => exact Option.some.inj hoccur ▸ h.asyncStart hwf.sound _
  | start =>
    obtain rfl := Option.some.inj hoccur
    unfold Connector.start
    split
    · exact hsame rfl rfl
    · have hpush : Goes fair _ _ := (plain_push c (f := .startLoop false) rfl).goes h
      exact (hpush.nested.asyncStart hwf.sound none).after hpush
  | stop => exact Option.some.inj hoccur ▸ (plain_stop c).goes h
  | autoStart callback =>
    obtain rfl := Option.some.inj hoccur
    simp only [Connector.autoStart]
    split
    · exact hsame rfl rfl
    · set auto : AutoReconnect := { c.auto with
        needStop := false
        rerun := false
        backupExitCallback := c.exitCb
        startedCallback := callback }
      have hset : Goes fair c
          ({ c with auto := auto, exitCb := some .restart }.record .startAccepted) := hsame rfl rfl
      have hpush : Goes fair _ _ := (plain_push _ (f := .autoStart) rfl).goes hset.nested
      exact (hpush.nested.asyncStart hwf.sound _).after (hpush.after hset)
  | autoStop =>
    obtain rfl := Option.some.inj hoccur
    simp only [Connector.autoStop]
    split
    · exact hsame rfl rfl
    · split
      · refine Plain.goes ?_ h
        exact (plain_stop _).after ((plain_push _ rfl).after (plain_of_eq rfl rfl))
      · exact hsame rfl rfl
  | handler session e =>
    obtain ⟨⟨hlt, -⟩, hoccur⟩ := Option.ite_none_right_eq_some.mp hoccur
    obtain ⟨r, hmethod, rfl⟩ := Option.map_eq_some_iff.mp hoccur
    exact h.method hwf hlt hmethod
  | posted k =>
    obtain ⟨issued, -, rfl⟩ := Option.map_eq_some_iff.mp hoccur
    have hset : Goes fair c { c with posted := c.posted.eraseIdx k } := hsame rfl rfl
    exact Goes.after (Goes.wait hset.nested rfl fun hfair ↦ houtside hfair trivial) hset
  | timerExpires =>
    obtain ⟨-, hoccur⟩ := Option.ite_none_right_eq_some.mp hoccur
    exact Option.some.inj hoccur ▸ hsame rfl rfl
  | timerHandler =>
    obtain ⟨-, hoccur⟩ := Option.ite_none_left_eq_some.mp hoccur
    obtain rfl := Option.some.inj hoccur
    have hset : Goes fair c { c with auto := { c.auto with expired := c.auto.expired - 1 } } :=
      hsame rfl rfl
    exact (hset.nested.asyncStart hwf.sound _).after hset

/-! ### Returns -/

/-- The call on top makes way for another, which waits only if the first did. -/
theorem Nested.replace {f g : Frame} {rest : List Frame} (h : c.Nested)
    (hstack : c.stack = f :: rest) (hf : f.isParse = false) (hg : g.isParse = false)
    (hwaits : g.waits = true → f.waits = true) :
    Goes fair c { c with stack := g :: rest } := by
  have hcount (i : ℕ) : (g :: rest).count (.parse i) = c.stack.count (.parse i) := by
    rw [hstack, List.count_cons_of_ne, List.count_cons_of_ne] <;> rintro rfl
    · cases hf
    · cases hg
  refine ⟨⟨fun i ↦ ?_, fun i hi ↦ ?_⟩, fun _ houtside hready ↦ ?_⟩
  · change (c.handler i).Reads ((g :: rest).count (.parse i))
    rw [hcount]
    exact h.reads i
  · refine h.lt i ?_
    rwa [← List.count_pos_iff, ← hcount, List.count_pos_iff]
  · have hunnested := houtside hready
    rw [hstack] at hunnested
    exact ⟨fun hg ↦ hunnested.1 (hwaits hg), hunnested.2⟩

/-- A call other than of `parse` returns. -/
theorem Nested.pop {f : Frame} {rest : List Frame} (h : c.Nested) (hstack : c.stack = f :: rest)
    (hf : f.isParse = false) : Goes fair c { c with stack := rest } := by
  have hcount (i : ℕ) : rest.count (.parse i) = c.stack.count (.parse i) := by
    rw [hstack, List.count_cons_of_ne]
    rintro rfl
    cases hf
  refine ⟨⟨fun i ↦ ?_, fun i hi ↦ ?_⟩, fun _ houtside hready ↦ ?_⟩
  · change (c.handler i).Reads (rest.count (.parse i))
    rw [hcount]
    exact h.reads i
  · exact h.lt i (hstack ▸ List.mem_cons_of_mem f hi)
  · have hunnested := houtside hready
    rw [hstack] at hunnested
    exact hunnested.2

/-- `parse` returns. -/
theorem Nested.parsed {session parsed expected : ℕ} {rest : List Frame} {spent : ℕ → Prop}
    {r : ConnectionHandler × ConnectionHandler.Continuation} (h : c.Nested)
    (hwf : c.WellFormed spent) (hstack : c.stack = .parse session :: rest)
    (hparsed : (c.handler session).onParsed parsed expected = some r) :
    Goes fair c ({ c with stack := rest }.handle session r) := by
  have hlt := h.lt session (hstack ▸ List.mem_cons_self)
  have hreads : (c.handler session).Reads (rest.count (.parse session) + 1) := by
    have hreads := h.reads session
    rwa [hstack, List.count_cons_self] at hreads
  have htransition := ConnectionHandler.transition_onParsed hparsed
  have hnext : r.2 ≠ .connectedCb := fun hnext ↦ by
    rw [hnext] at htransition
    have hnone := hreads.begun (Or.inr htransition.1)
    omega
  have hpopped : { c with stack := rest }.NestedBut session := by
    refine ⟨fun i hi ↦ ?_, fun i hi ↦ h.lt i (hstack ▸ List.mem_cons_of_mem _ hi)⟩
    have hothers := h.reads i
    rwa [hstack, List.count_cons_of_ne (by simpa using fun hs ↦ hi hs.symm)] at hothers
  have hgoes : Goes fair _ _ := hpopped.handle hlt hnext (hreads.onParsed hparsed)
    (ConnectionHandler.ready_of_transition htransition
      (hwf.sound _ (handler_mem hlt)).connectedCb hnext)
  refine ⟨hgoes.nested, fun hfair houtside ↦ hgoes.outside hfair fun hready ↦ ?_⟩
  have hunnested := houtside hready
  rw [hstack] at hunnested
  exact hunnested.2

/-- `AutoReconnect::started` goes on, perhaps to `run()`. -/
theorem Nested.started {rest : List Frame} (h : c.Nested) (hstack : c.stack = .started :: rest) :
    Goes fair c { c with stack := rest }.endStarted := by
  have hpop : Goes fair c { c with stack := rest } := h.pop hstack rfl
  simp only [endStarted, Connector.run]
  split_ifs
  · refine Goes.after (Plain.goes ?_ hpop.nested) hpop
    exact plain_of_eq rfl rfl
  · have hreplace : Goes fair c { c with stack := .forEach .start c.transceivers :: rest } :=
      h.replace hstack rfl rfl fun _ ↦ rfl
    refine Goes.after (Plain.goes ?_ hreplace.nested) hreplace
    exact plain_of_eq rfl rfl
  · refine Goes.after (Plain.goes ?_ hpop.nested) hpop
    exact plain_of_eq rfl rfl

/-- A loop over the transceivers comes to its end. -/
theorem Nested.loopEnds {loop : Loop} {ids : List ℕ} {rest : List Frame} (h : c.Nested)
    (hsound : ∀ v ∈ c.handlers, v.Sound) (hstack : c.stack = .forEach loop ids :: rest) :
    Goes fair c (loop.after { c with stack := rest }) := by
  have hpop : Goes fair c { c with stack := rest } := h.pop hstack (by cases loop <;> rfl)
  cases loop with
  | stop issued =>
    refine Goes.after (Plain.goes ?_ hpop.nested) hpop
    exact plain_of_eq rfl rfl
  | stopHandler issued => exact (hpop.nested.stopHandler hsound issued).after hpop
  | drop session => exact ((plain_disconnected_exit _ _ _).goes hpop.nested).after hpop
  | start => exact h.replace hstack rfl rfl fun _ ↦ rfl
  | ready => exact hpop

/-- Any other suspended call goes on. -/
theorem Nested.goOn {f : Frame} {rest : List Frame} (h : c.Nested) (hstack : c.stack = f :: rest)
    (hgoOn : f.goOn { c with stack := rest } = some c') : Goes fair c c' := by
  have hpop (hf : f.isParse = false) : Goes fair c { c with stack := rest } := h.pop hstack hf
  have hplain (hf : f.isParse = false) (hplain : Plain { c with stack := rest } c') :
      Goes fair c c' :=
    (hplain.goes (hpop hf).nested).after (hpop hf)
  cases f with
  | client => exact Option.some.inj hgoOn ▸ hpop rfl
  | shutdownLoop session =>
    obtain ⟨-, hgoOn⟩ := Option.ite_none_left_eq_some.mp hgoOn
    exact Option.some.inj hgoOn ▸ ((hpop rfl).nested.finish session).after (hpop rfl)
  | shutdownCb session =>
    have hended : (c.handler session).endShutdownCb.Reads (rest.count (.parse session)) :=
      ((hpop rfl).nested.reads session).same rfl rfl
    have hset : Goes fair _ _ := (hpop rfl).nested.setHandler hended fun hready ↦ Or.inl hready
    exact Option.some.inj hgoOn ▸ hset.after (hpop rfl)
  | startLoop ran =>
    obtain ⟨-, hgoOn⟩ := Option.ite_none_right_eq_some.mp hgoOn
    exact Option.some.inj hgoOn ▸ hpop rfl
  | started => exact Option.some.inj hgoOn ▸ h.started hstack
  | restart code => exact hplain rfl (Option.some.inj hgoOn ▸ (calls_restart _ code).plain)
  | backup | autoStart | autoStop =>
    exact hplain rfl (Option.some.inj hgoOn ▸ plain_of_eq rfl rfl)
  | parse | forEach | openLoop | closeLoop => cases hgoOn

theorem nested_new : Connector.new.Nested :=
  ⟨fun _ ↦ ⟨nofun, Nat.zero_le _, nofun, fun _ ↦ rfl⟩, nofun⟩

end Connector

namespace Program

open Connector

variable {τ ε : Type} [TransceiverImpl τ ε] {p p' : Program τ} {e : Event ε} {fair : Prop}

/-! ### Steps of a program -/

theorem plain_operate (p : Program τ) (i : ℕ) (f : τ → τ) :
    Plain p.connector (p.operate i f).connector :=
  operate_rule (P := Plain p.connector) p i f (Plain.refl _) (plain_push _ rfl)

theorem plain_body (p : Program τ) (loop : Loop) (i : ℕ) :
    Plain p.connector (p.body loop i).connector :=
  body_rule (P := Plain p.connector) p loop i (Plain.refl _) (plain_push _ rfl)

theorem goes_entered (h : p.connector.Nested) : Goes fair p.connector p.entered.connector := by
  unfold entered
  split
  · next ran rest hstack => exact h.replace hstack rfl rfl fun hwaits ↦ by cases hwaits
  · exact (Plain.refl _).goes h

/-- The event enters a wait for transceivers: an `open()` or a `close()` that is not over at once,
`run()` on a connection, or the handler posted by `stop()`. -/
def EntersWait (p : Program τ) : Event ε → Prop
  | .connector e => p.connector.EntersWait e
  | .open i => p.isRunning i = false ∧ p.connector.connectionHandlerReady = true
  | .close i => p.isRunning i = true
  | _ => False

/-- No wait is entered inside a call of `parse` for the present connection, while that is up. -/
def EntersOutside (p : Program τ) (e : Event ε) : Prop :=
  p.EntersWait e → p.connector.connectionHandler.ready = true →
    .parse p.connector.session ∉ p.connector.stack

theorem goes_occur {spent : ℕ → Prop} (h : p.connector.Nested) (hwf : p.connector.WellFormed spent)
    (hoccur : p.entered.occur e = some p') :
    Goes (p.EntersOutside e) p.connector p'.connector := by
  have hentered : Goes (p.EntersOutside e) _ _ := p.goes_entered h
  have hquiet := p.quiet_entered
  have hsession : p.entered.connector.session = p.connector.session := by
    simp only [Connector.session, hquiet.handlers]
  have hpresent : p.entered.connector.connectionHandler = p.connector.connectionHandler := by
    simp only [connectionHandler, handler, hsession, hquiet.handlers]
  have hparse (i : ℕ) : .parse i ∈ p.entered.connector.stack ↔ .parse i ∈ p.connector.stack := by
    unfold entered
    split
    · next ran rest hstack => simp [hstack]
    · rfl
  have hwait (houtside : p.EntersOutside e) (hwaits : p.EntersWait e)
      (hready : p.entered.connector.connectionHandler.ready = true) :
      .parse p.entered.connector.session ∉ p.entered.connector.stack := by
    rw [hparse, hsession]
    exact houtside hwaits (hpresent ▸ hready)
  have hrunning (i : ℕ) : p.entered.isRunning i = p.isRunning i := by
    have hpool : p.entered.pool = p.pool := by
      unfold entered
      split <;> rfl
    simp only [isRunning, hpool]
  have hcall {f : Frame} (hf : f.isParse = false) (hwaits : p.EntersWait e) :
      Goes (p.EntersOutside e) p.connector (p.entered.connector.push f) :=
    (Goes.wait hentered.nested hf fun houtside ↦ hwait houtside hwaits).after hentered
  cases e with
  | connector e =>
    obtain ⟨c', hc', rfl⟩ := Option.map_eq_some_iff.mp hoccur
    refine Goes.after (hentered.nested.occur (hwf.alike hquiet.alike) hc'
      fun houtside hwaits ↦ hwait houtside ?_) hentered
    cases e <;> first | exact hwaits | exact hquiet.ready.symm.trans hwaits
  | transceiver exchange queue routeIn listener =>
    obtain rfl := Option.some.inj hoccur
    refine Goes.after (Plain.goes ?_ hentered.nested) hentered
    exact plain_of_eq rfl rfl
  | «open» i =>
    obtain ⟨-, hoccur⟩ := Option.ite_none_right_eq_some.mp hoccur
    obtain rfl := Option.some.inj hoccur
    unfold Program.open
    split
    · next haccepted =>
      rw [Bool.and_eq_true, Bool.not_eq_true', hrunning, hquiet.ready] at haccepted
      have hpush := hcall (f := .openLoop i) rfl haccepted
      exact ((plain_operate { p.entered with connector := _ } i _).goes hpush.nested).after hpush
    · exact hentered
  | close i =>
    obtain ⟨-, hoccur⟩ := Option.ite_none_right_eq_some.mp hoccur
    obtain rfl := Option.some.inj hoccur
    unfold close
    split
    · next haccepted =>
      rw [hrunning] at haccepted
      have hpush := hcall (f := .closeLoop i) rfl haccepted
      exact ((plain_operate { p.entered with connector := _ } i _).goes hpush.nested).after hpush
    · exact hentered
  | call i e =>
    obtain ⟨t, -, hcall⟩ := Option.bind_eq_some_iff.mp hoccur
    obtain ⟨t', -, rfl⟩ := Option.map_eq_some_iff.mp hcall
    rcases p.entered.connector_update i t t' with heq | heq <;> rw [heq]
    · exact hentered
    · exact ((plain_push _ rfl).goes hentered.nested).after hentered
  | parsed | resume => cases hoccur

theorem goes_resume {spent : ℕ → Prop} (h : p.connector.Nested) (hwf : p.connector.WellFormed spent)
    (hresume : p.resume = some p') : Goes fair p.connector p'.connector := by
  unfold resume at hresume
  split at hresume
  · cases hresume
  · next f rest hstack =>
    simp only at hresume
    split at hresume
    · next loop ids =>
      split at hresume
      · obtain rfl := Option.some.inj hresume
        exact h.loopEnds hwf.sound hstack
      · next i others _ =>
        obtain ⟨-, hresume⟩ := Option.ite_none_left_eq_some.mp hresume
        obtain rfl := Option.some.inj hresume
        have hreplace : Goes fair p.connector
            { p.connector with stack := .forEach loop others :: rest } :=
          h.replace hstack (by cases loop <;> rfl) (by cases loop <;> rfl) fun hwaits ↦ by
            cases loop <;> exact hwaits
        exact ((plain_body _ loop i).goes hreplace.nested).after hreplace
    · obtain ⟨-, hresume⟩ := Option.ite_none_left_eq_some.mp hresume
      obtain rfl := Option.some.inj hresume
      exact h.pop hstack rfl
    · obtain ⟨-, hresume⟩ := Option.ite_none_left_eq_some.mp hresume
      obtain rfl := Option.some.inj hresume
      exact h.pop hstack rfl
    · obtain ⟨c', hgoOn, rfl⟩ := Option.map_eq_some_iff.mp hresume
      exact h.goOn hstack hgoOn

theorem goes_step {spent : ℕ → Prop} (h : p.connector.Nested) (hwf : p.connector.WellFormed spent)
    (hstep : p.step e = some p') : Goes (p.EntersOutside e) p.connector p'.connector := by
  cases e with
  | resume => exact goes_resume h hwf hstep
  | parsed parsed expected =>
    simp only [step] at hstep
    split at hstep
    · next session rest hstack =>
      obtain ⟨r, hparsed, rfl⟩ := Option.map_eq_some_iff.mp hstep
      exact h.parsed hwf hstack hparsed
    · cases hstep
  | _ => exact goes_occur h hwf (Option.ite_none_right_eq_some.mp hstep).2

/-- Control is in a loop that runs the event loop until a transceiver is ready, or has ended. -/
def AwaitsTransceiver (p : Program τ) : Prop :=
  p.pausing = true ∧ match p.connector.stack with
    | .openLoop _ :: _ | .closeLoop _ :: _ | .forEach _ _ :: _ => True
    | _ => False

/-- The call on top is then one that waits. -/
theorem AwaitsTransceiver.exists_frame (h : p.AwaitsTransceiver) :
    ∃ f rest, p.connector.stack = f :: rest ∧ f.waits = true := by
  obtain ⟨hpausing, hwait⟩ := h
  unfold pausing at hpausing
  cases hstack : p.connector.stack with
  | nil => simp [hstack] at hwait
  | cons f rest =>
    rw [hstack] at hwait hpausing
    refine ⟨f, rest, rfl, ?_⟩
    cases f with
    | openLoop | closeLoop => rfl
    | forEach loop ids =>
      cases loop with
      | start | ready | stopHandler => rfl
      | stop | drop =>
        simp only at hpausing
        split at hpausing <;> cases hpausing
    | _ => exact hwait.elim

/-- A wait for a transceiver on a connection that is up can be answered: a read is outstanding. -/
def Answerable (p : Program τ) : Prop :=
  p.AwaitsTransceiver → p.connector.connectionHandler.ready = true →
    p.connector.connectionHandler.reads ≠ 0

theorem nested (h : (machine τ).Reachable p) : p.connector.Nested := by
  refine (h.invariant (I := fun q ↦ q.connector.Nested ∧ q.connector.WellFormed fun _ ↦ False)
    (fun q hq ↦ ?_) fun q e q' hq hstep ↦ ?_).1
  · obtain rfl : q = _ := hq
    exact ⟨nested_new, wellFormed_new⟩
  · exact ⟨(goes_step hq.1 hq.2 hstep).nested, wellFormed_step hq.2 hstep⟩

/-- Of a connection that is up a read is outstanding exactly while no call of `parse` for it is
suspended. -/
theorem reads_iff (h : (machine τ).Reachable p)
    (hready : p.connector.connectionHandler.ready = true) :
    p.connector.connectionHandler.reads ≠ 0 ↔
      .parse p.connector.session ∉ p.connector.stack := by
  have hreads := (nested h).reads p.connector.session
  have hstate : (p.connector.handler p.connector.session).state = .eReady := by
    have hup : p.connector.connectionHandler.state = .eReceiverInit ∨
        p.connector.connectionHandler.state = .eReady := by
      simpa [ConnectionHandler.ready] using hready
    exact hup.resolve_left hreads.established
  have hone := hreads.ready hstate
  rw [← List.count_eq_zero]
  unfold connectionHandler
  omega

/-- In every run that enters no wait inside a call of `parse`, every wait can be answered. -/
theorem answerable_of_entersOutside (h : (machine τ).ReachedBy EntersOutside p) :
    p.Answerable := by
  have houtside : p.connector.WaitsOutside := by
    refine (h.invariant (I := fun q ↦ q.connector.WaitsOutside ∧ q.connector.Nested ∧
      q.connector.WellFormed fun _ ↦ False) (fun q hq ↦ ?_) fun q e q' hq hfair hstep ↦ ?_).1
    · obtain rfl : q = _ := hq
      exact ⟨fun _ ↦ trivial, nested_new, wellFormed_new⟩
    · obtain ⟨houtside, hnested, hwf⟩ := hq
      have hgoes := goes_step hnested hwf hstep
      exact ⟨hgoes.outside hfair houtside, hgoes.nested, wellFormed_step hwf hstep⟩
  intro hawaits hready
  rw [reads_iff h.reachable hready]
  obtain ⟨f, rest, hstack, hwaits⟩ := hawaits.exists_frame
  have hunnested := houtside hready
  rw [hstack] at hunnested ⊢
  rw [List.mem_cons, not_or]
  refine ⟨?_, hunnested.1 hwaits⟩
  rintro rfl
  cases hwaits

/-- The application opens a sender, while it is not in a callback. -/
def waiting : List (Event Transceiver.Event) :=
  .transceiver "exchange" "" "route" false :: connecting ++ [.open 0]

/-- A read is outstanding while `open()` waits. -/
theorem answerable_waiting :
    ∃ p, (machine Transceiver).run (initial Transceiver) waiting = some p ∧ p.AwaitsTransceiver ∧
      p.connector.connectionHandler.ready = true ∧ p.Answerable := by
  refine ⟨_, rfl, ⟨by decide, trivial⟩, by decide, answerable_of_entersOutside ?_⟩
  refine ⟨_, waiting, rfl, rfl, ?_⟩
  have hnever {p : Program Transceiver} {e : Event Transceiver.Event} (h : ¬ p.EntersWait e) :
      p.EntersOutside e := fun hwaits ↦ absurd hwaits h
  refine Machine.meets_cons (hnever id) rfl (Machine.meets_cons (hnever id) rfl ?_)
  refine Machine.meets_cons (hnever id) rfl (Machine.meets_cons (hnever id) rfl ?_)
  refine Machine.meets_cons (hnever id) rfl (Machine.meets_cons (hnever id) rfl ?_)
  exact Machine.meets_cons (fun _ _ ↦ by decide) rfl trivial

/-- The broker closes the channel of a sender, whose exit callback opens it again. -/
def reopened : List (Event Transceiver.Event) :=
  opening ++ [.call 0 (.install false false true), .connector (.handler 0 (.read none 40 8)),
    .call 0 (.callback 0 (.readyError "not found")), .open 0]

/-- The exit callback is called by `parse`, so `open()` waits without a read. -/
theorem not_answerable_reopened :
    ∃ p, (machine Transceiver).run (initial Transceiver) reopened = some p ∧
      p.AwaitsTransceiver ∧ p.connector.connectionHandlerReady = true ∧
        p.connector.connectionHandler.ready = true ∧ p.connector.connectionHandler.reads = 0 ∧
          ¬ p.Answerable := by
  refine ⟨_, rfl, ⟨by decide, trivial⟩, by decide, by decide, by decide, fun h ↦ ?_⟩
  exact h ⟨by decide, trivial⟩ (by decide) (by decide)

end Program

end AmqpAsio
