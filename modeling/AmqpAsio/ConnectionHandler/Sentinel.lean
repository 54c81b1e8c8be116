import AmqpAsio.ConnectionHandler.ShutdownCallback
import AmqpAsio.ConnectionHandler.Sound

/-!
# How long a handler holds the event loop

`m_sentinel` keeps the event loop from ending for want of work. `case eResolving` takes it, and
`case eNotConnected` gives it back after `m_shutdownCb`. So it is held as long as the handler is
under way, and no longer, unless `m_shutdownCb` starts the handler again: what the inner call of
`start()` has taken, the outer one gives back when `m_shutdownCb` returns.
-/

set_option autoImplicit false
set_option relaxedAutoImplicit false

namespace AmqpAsio

namespace ConnectionHandler

variable {h h' : ConnectionHandler} {e : Event} {r : ConnectionHandler × Continuation}

/-! ### The methods -/

theorem sentinel_goto (h : ConnectionHandler) {s : State} (hs : s ≠ .eResolving) :
    (h.goto s).1.sentinel = h.sentinel := by
  cases s with
  | eResolving => exact absurd rfl hs
  | eNotConnected | eConnecting | eReceiverInit | eReady | eShutdown => rfl

theorem sentinel_push (h : ConnectionHandler) (size : ℕ) :
    (h.push size).sentinel = h.sentinel := by
  simp only [push]
  split <;> rfl

theorem sentinel_parseOrRead {again : Bool} {expected : ℕ}
    (hmethod : h.parseOrRead again expected = some r) : r.1.sentinel = h.sentinel := by
  unfold parseOrRead at hmethod
  split_ifs at hmethod
  · exact Option.some.inj hmethod ▸ rfl
  · exact Option.some.inj hmethod ▸ rfl

theorem sentinel_onParsed {parsed expected : ℕ} (hmethod : h.onParsed parsed expected = some r) :
    r.1.sentinel = h.sentinel := by
  unfold onParsed at hmethod
  split at hmethod
  · exact Option.some.inj hmethod ▸ rfl
  · exact sentinel_parseOrRead (h := { h with inBuf := h.inBuf - parsed }) hmethod

/-- Only `start()` takes `m_sentinel`. -/
theorem sentinel_method (hmethod : h.method e = some r) : r.1.sentinel = h.sentinel := by
  cases e with
  | start | parsed | resume => cases hmethod
  | stop =>
    rw [← Option.some.inj hmethod]
    unfold ConnectionHandler.stop
    split
    · rfl
    · exact sentinel_goto { h with lastError := "" } (by simp)
  | onData size =>
    rw [← Option.some.inj hmethod]
    unfold ConnectionHandler.onData
    split
    · rfl
    · split
      · exact (sentinel_push _ size).trans (sentinel_goto { h with connection := true } (by simp))
      · exact sentinel_push { h with connection := true } size
  | onError message =>
    rw [← Option.some.inj hmethod]
    unfold ConnectionHandler.onError
    split <;> rfl
  | onClosed =>
    rw [← Option.some.inj hmethod]
    unfold ConnectionHandler.onClosed
    split <;> rfl
  | resolved ec =>
    obtain ⟨-, hmethod⟩ := Option.ite_none_left_eq_some.mp hmethod
    rw [← Option.some.inj hmethod]
    simp only [resolved]
    split
    · rfl
    · cases ec <;> rfl
  | connectDone ec =>
    obtain ⟨-, hmethod⟩ := Option.ite_none_left_eq_some.mp hmethod
    rw [← Option.some.inj hmethod]
    simp only [connectDone]
    split
    · rfl
    · cases ec <;> rfl
  | read ec bytes expected =>
    obtain ⟨-, hmethod⟩ := Option.ite_none_left_eq_some.mp hmethod
    simp only [onRead] at hmethod
    split at hmethod
    · exact Option.some.inj hmethod ▸ rfl
    · cases ec with
      | none =>
        exact sentinel_parseOrRead (h := { h with
          readReq := false, reads := h.reads - 1, inBuf := h.inBuf + bytes }) hmethod
      | some message =>
        simp only at hmethod
        split at hmethod <;> exact Option.some.inj hmethod ▸ rfl
  | wrote ec bytes =>
    obtain ⟨-, hmethod⟩ := Option.ite_none_left_eq_some.mp hmethod
    simp only [onWrite] at hmethod
    split at hmethod
    · exact Option.some.inj hmethod ▸ rfl
    · cases ec with
      | none =>
        simp only at hmethod
        split at hmethod
        · cases hmethod
        · rw [← Option.some.inj hmethod]
          split_ifs <;> rfl
      | some message =>
        simp only at hmethod
        split at hmethod <;> exact Option.some.inj hmethod ▸ rfl

/-- A method leaves a stopped handler stopped, and only one that goes on to `m_shutdownCb` stops
another. -/
theorem Transition.stopped_iff {next : Continuation} (htransition : Transition h h' next)
    (hnext : ∀ message, next ≠ .shutdownCb message) :
    h'.state = .eNotConnected ↔ h.state = .eNotConnected := by
  cases next with
  | done =>
    rcases htransition with hsame | ⟨⟨hs, hs'⟩ | ⟨hs, hs'⟩ | ⟨hs, hs'⟩, -⟩
    · rw [hsame]
    all_goals simp [hs, hs']
  | connectedCb => simp [htransition.1, htransition.2]
  | shutdownLoop => simp [htransition.1, htransition.2]
  | shutdownCb message => exact absurd rfl (hnext message)
  | parse => rw [htransition.2]

/-! ### The execution -/

namespace Execution

variable {x x' : Execution}

/-- `start()` is not called from inside of `m_shutdownCb`. -/
def StartsOutside (x : Execution) (e : Event) : Prop :=
  ∀ connectedCb, e = .start connectedCb → .shutdownCb ∉ x.stack

instance (x : Execution) : ∀ e, Decidable (x.StartsOutside e)
  | .start connectedCb => decidable_of_iff (.shutdownCb ∉ x.stack)
      ⟨fun h _ _ ↦ h, fun h ↦ h connectedCb rfl⟩
  | .stop | .onData _ | .onError _ | .onClosed | .resolved _ | .connectDone _ | .read _ _ _
  | .wrote _ _ | .parsed _ _ | .resume => isTrue (by simp [StartsOutside])

/-- The event loop is held while the handler is under way, and released once it is stopped and
`m_shutdownCb` has returned. -/
structure HoldsLoop (x : Execution) : Prop where
  held : x.handler.state ≠ .eNotConnected → x.handler.sentinel = true
  released : x.handler.state = .eNotConnected → .shutdownCb ∉ x.stack →
    x.handler.sentinel = false

/-- While `m_shutdownCb` is under way, the handler is stopped. -/
structure Holding (x : Execution) : Prop where
  holdsLoop : x.HoldsLoop
  stopped : .shutdownCb ∈ x.stack → x.handler.state = .eNotConnected

/-- A step that keeps `m_sentinel`: it suspends no `m_shutdownCb` and keeps the handler stopped or
not, or it stops the handler and calls `m_shutdownCb`. -/
theorem Holding.keep (hholding : x.Holding) (hsentinel : x'.handler.sentinel = x.handler.sentinel)
    (hcases : (.shutdownCb ∈ x'.stack ↔ .shutdownCb ∈ x.stack) ∧
        (x'.handler.state = .eNotConnected ↔ x.handler.state = .eNotConnected) ∨
      .shutdownCb ∈ x'.stack ∧ x'.handler.state = .eNotConnected) : x'.Holding := by
  rcases hcases with ⟨hstack, hstate⟩ | ⟨hstack, hstate⟩
  · refine ⟨⟨fun hs ↦ ?_, fun hs hnone ↦ ?_⟩, fun hmem ↦ ?_⟩
    · rw [hsentinel]
      exact hholding.holdsLoop.held (mt hstate.mpr hs)
    · rw [hsentinel]
      exact hholding.holdsLoop.released (hstate.mp hs) (mt hstack.mpr hnone)
    · exact hstate.mpr (hholding.stopped (hstack.mp hmem))
  · exact ⟨⟨fun hs ↦ absurd hstate hs, fun _ hnone ↦ absurd hstack hnone⟩, fun _ ↦ hstate⟩

/-- A method is performed that leaves `m_sentinel` alone. -/
theorem Holding.perform (hholding : x.Holding) (message : String)
    (htransition : Transition x.handler r.1 r.2) (hsentinel : r.1.sentinel = x.handler.sentinel) :
    (x.perform message r).Holding := by
  obtain ⟨handler, next⟩ := r
  cases next with
  | done =>
    exact hholding.keep hsentinel (Or.inl ⟨Iff.rfl, htransition.stopped_iff (by simp)⟩)
  | connectedCb | parse =>
    refine hholding.keep hsentinel (Or.inl ⟨?_, htransition.stopped_iff (by simp)⟩)
    simp [Execution.perform, goOn, suspend]
  | shutdownCb text =>
    exact hholding.keep hsentinel (Or.inr ⟨List.mem_cons_self, htransition.2.1⟩)
  | shutdownLoop =>
    by_cases hwaits : handler.waiting = true
    · refine hholding.keep ?_ (Or.inl ⟨?_, ?_⟩)
      · simpa [Execution.perform, goOn, hwaits, suspend] using hsentinel
      · simp [Execution.perform, goOn, hwaits, suspend]
      · simpa [Execution.perform, goOn, hwaits, suspend] using htransition.stopped_iff (by simp)
    · refine hholding.keep ?_ (Or.inr ⟨?_, ?_⟩)
      · simpa [Execution.perform, goOn, hwaits, finish, callback, endShutdown, goto, stateMachine]
          using hsentinel
      · simp [Execution.perform, goOn, hwaits, finish, callback]
      · simp [Execution.perform, goOn, hwaits, finish, callback, endShutdown, goto, stateMachine]

/-- One event. -/
theorem Holding.step (hholding : x.Holding) (houtside : x.StartsOutside e)
    (hstep : x.step e = some x') : x'.Holding := by
  have hmethod
      (hcalls : (if x.pausing then (x.handler.method e).map (x.perform e.message) else none) =
        some x') : x'.Holding := by
    obtain ⟨-, hcalls⟩ := Option.ite_none_right_eq_some.mp hcalls
    obtain ⟨r, hr, rfl⟩ := Option.map_eq_some_iff.mp hcalls
    exact hholding.perform _ (transition_method hr) (sentinel_method hr)
  cases e with
  | resume =>
    simp only [Execution.step] at hstep
    split at hstep
    · next rest hstack =>
      obtain rfl := Option.some.inj hstep
      exact hholding.keep rfl (Or.inl ⟨by simp [hstack], Iff.rfl⟩)
    · next rest hstack =>
      -- `m_shutdownCb` returns to a handler that is stopped
      obtain rfl := Option.some.inj hstep
      have hstopped := hholding.stopped (by simp [hstack])
      exact ⟨⟨fun hs ↦ absurd hstopped hs, fun _ _ ↦ rfl⟩, fun _ ↦ hstopped⟩
    · next run rest hstack =>
      obtain ⟨-, hstep⟩ := Option.ite_none_left_eq_some.mp hstep
      obtain rfl := Option.some.inj hstep
      exact hholding.keep rfl (Or.inr ⟨List.mem_cons_self, rfl⟩)
    · cases hstep
    · cases hstep
  | parsed parsed expected =>
    simp only [Execution.step] at hstep
    split at hstep
    · next rest hstack =>
      obtain ⟨r, hr, rfl⟩ := Option.map_eq_some_iff.mp hstep
      have hpop : ({ x with stack := rest } : Execution).Holding :=
        hholding.keep rfl (Or.inl ⟨by simp [hstack], Iff.rfl⟩)
      exact hpop.perform _ (transition_onParsed hr) (sentinel_onParsed hr)
    · cases hstep
  | start connectedCb =>
    obtain ⟨-, hstep⟩ := Option.ite_none_right_eq_some.mp hstep
    split at hstep
    · next hstate =>
      obtain rfl := Option.some.inj hstep
      have hnone := houtside connectedCb rfl
      refine ⟨⟨fun _ ↦ ?_, fun hs ↦ ?_⟩, fun hmem ↦ ?_⟩
      · simp [Execution.perform, goOn, ConnectionHandler.start, hstate, goto, stateMachine]
      · simp [Execution.perform, goOn, ConnectionHandler.start, hstate, goto, stateMachine] at hs
      · simp [Execution.perform, goOn, ConnectionHandler.start, hstate, goto, stateMachine, hnone]
          at hmem
    · exact Option.some.inj hstep ▸ hholding
  | _ => exact hmethod hstep

/-- As long as `start()` is not called from inside of `m_shutdownCb`, a handler holds the event loop
while it is under way, and has released it when it is stopped and no `m_shutdownCb` is under way,
whatever else is called and however calls are nested. -/
theorem holdsLoop_of_reachedBy (h : machine.ReachedBy StartsOutside x) : x.HoldsLoop := by
  have hholding : x.Holding := by
    refine h.invariant (I := Holding) ?_ fun x e x' hx houtside hstep ↦ hx.step houtside hstep
    rintro x rfl
    exact ⟨⟨fun hs ↦ absurd rfl hs, fun _ _ ↦ rfl⟩, fun hmem ↦ by cases hmem⟩
  exact hholding.holdsLoop

/-- A handler stopped twice at once releases the event loop in the end. -/
theorem holdsLoop_stoppedTwice :
    ∃ x, machine.run initial (connecting ++ stoppedTwice ++ [.resume]) = some x ∧
      x.handler.sentinel = false ∧ x.HoldsLoop :=
  ⟨_, rfl, rfl, holdsLoop_of_reachedBy
    ⟨initial, connecting ++ stoppedTwice ++ [.resume], rfl, rfl, by decide⟩⟩

end Execution

end ConnectionHandler

end AmqpAsio
