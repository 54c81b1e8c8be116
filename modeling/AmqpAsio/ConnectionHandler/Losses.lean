import AmqpAsio.ConnectionHandler.ShutdownCallback
import AmqpAsio.ConnectionHandler.Sound

/-!
# What shuts a handler down

A handler that is ready is shut down by a `stop()`, by a read or a write that fails, or by AMQP-CPP
with `onError()` or `onClosed()`; only `onError()` sets `m_amqpError`, from which a connector learns
that its connection is lost.
-/

set_option autoImplicit false
set_option relaxedAutoImplicit false

namespace AmqpAsio

namespace ConnectionHandler

variable {h : ConnectionHandler} {e : Event} {r : ConnectionHandler × Continuation}

/-- A read or a write ends with an error. -/
def Event.isFailure : Event → Bool
  | .read (some _) _ _ | .wrote (some _) _ => true
  | _ => false

theorem ready_iff : h.ready = true ↔ h.state = .eReceiverInit ∨ h.state = .eReady := by
  simp [ready]

/-- A failed read or write shuts down a handler that is ready. -/
theorem shutdownLoop_of_isFailure (hready : h.ready = true) (he : e.isFailure = true)
    (hmethod : h.method e = some r) :
    r.2 = .shutdownLoop ∧ r.1.state = .eShutdown ∧ r.1.amqpError = h.amqpError := by
  have hstate := ready_iff.mp hready
  have hup : h.connected = true := connected_iff.mpr (hstate.imp_right Or.inl)
  have hdown : ¬ (!h.connected) = true := by simp [hup]
  have hends : r.2 = .shutdownLoop ∧ r.1.state = .eShutdown := by
    match e, he with
    | .read (some message) bytes expected, _ =>
      obtain ⟨-, hmethod⟩ := Option.ite_none_left_eq_some.mp hmethod
      simp only [onRead] at hmethod
      split_ifs at hmethod with hdown' hrunning
      · exact absurd hdown' hdown
      · exact Option.some.inj hmethod ▸ ⟨rfl, rfl⟩
      · rcases hstate with hs | hs <;> simp [hs] at hrunning
    | .wrote (some message) bytes, _ =>
      obtain ⟨-, hmethod⟩ := Option.ite_none_left_eq_some.mp hmethod
      simp only [onWrite] at hmethod
      split_ifs at hmethod with hdown' hrunning
      · exact absurd hdown' hdown
      · exact Option.some.inj hmethod ▸ ⟨rfl, rfl⟩
      · rcases hstate with hs | hs <;> simp [hs] at hrunning
  refine ⟨hends.1, hends.2, (kept_method hmethod).2 fun message heq ↦ ?_⟩
  rw [heq] at he
  cases he

/-- What begins a shutdown, other than a `stop()`, comes from a connection. -/
theorem connected_of_shutdownLoop (hmethod : h.method e = some r) (hloop : r.2 = .shutdownLoop)
    (hstop : e ≠ .stop) : h.connected = true ∧
      (e.isFailure = true ∨ e = .onClosed ∨ (∃ message, e = .onError message) ∧
      r.1.amqpError = true) := by
  have hdone {v : ConnectionHandler × Continuation} (hv : v.2 ≠ .shutdownLoop) (hsame : v = r) :
      False := hv (hsame ▸ hloop)
  cases e with
  | start | parsed | resume => cases hmethod
  | stop => exact absurd rfl hstop
  | onData size =>
    refine (hdone ?_ (Option.some.inj hmethod)).elim
    unfold onData
    split_ifs <;> simp
  | onError message =>
    have hsame := Option.some.inj hmethod
    by_cases hup : h.connected = true
    · refine ⟨hup, Or.inr (Or.inr ⟨⟨message, rfl⟩, ?_⟩)⟩
      rw [← hsame, onError, hup]
      rfl
    · exact (hdone (by simp [onError, hup]) hsame).elim
  | onClosed =>
    by_cases hup : h.connected = true
    · exact ⟨hup, Or.inr (Or.inl rfl)⟩
    · exact (hdone (by simp [onClosed, hup]) (Option.some.inj hmethod)).elim
  | resolved ec =>
    obtain ⟨-, hmethod⟩ := Option.ite_none_left_eq_some.mp hmethod
    refine (hdone ?_ (Option.some.inj hmethod)).elim
    simp only [resolved]
    split
    · simp
    · cases ec <;> simp [goto, stateMachine]
  | connectDone ec =>
    obtain ⟨-, hmethod⟩ := Option.ite_none_left_eq_some.mp hmethod
    refine (hdone ?_ (Option.some.inj hmethod)).elim
    simp only [connectDone]
    split
    · simp
    · cases ec
      · simp only [goto, stateMachine]
        split <;> simp
      · simp [goto, stateMachine]
  | read ec bytes expected =>
    obtain ⟨-, hmethod⟩ := Option.ite_none_left_eq_some.mp hmethod
    simp only [onRead] at hmethod
    split at hmethod
    · exact (hdone (by simp) (Option.some.inj hmethod)).elim
    · next hup =>
      have hup' : ¬ (!h.connected) = true := hup
      cases ec with
      | some message => exact ⟨by simpa using hup', Or.inl rfl⟩
      | none => exact absurd hloop (parseOrRead_ne_shutdownLoop hmethod)
  | wrote ec bytes =>
    obtain ⟨-, hmethod⟩ := Option.ite_none_left_eq_some.mp hmethod
    simp only [onWrite] at hmethod
    split at hmethod
    · exact (hdone (by simp) (Option.some.inj hmethod)).elim
    · next hup =>
      have hup' : ¬ (!h.connected) = true := hup
      cases ec with
      | some message => exact ⟨by simpa using hup', Or.inl rfl⟩
      | none =>
        simp only at hmethod
        split at hmethod
        · cases hmethod
        · exact (hdone (by simp) (Option.some.inj hmethod)).elim

/-- Where neither a failed read or write nor `onClosed()` reaches a handler that is ready, and
nothing disturbs a shutdown, only `onError()` begins one. -/
theorem amqpError_of_shutdownLoop (hmethod : h.method e = some r) (hloop : r.2 = .shutdownLoop)
    (hstop : e ≠ .stop) (hundisturbed : h.Undisturbed e)
    (hreported : h.ready = true → e.isFailure = false ∧ e ≠ .onClosed) : r.1.amqpError = true := by
  obtain ⟨hup, hcause⟩ := connected_of_shutdownLoop hmethod hloop hstop
  have hstate : h.state ≠ .eShutdown := fun hs ↦
    ((Execution.tells_method hundisturbed hmethod).during hs).2 hloop
  have hready : h.ready = true := by
    rcases connected_iff.mp hup with hs | hs | hs
    · exact ready_iff.mpr (Or.inl hs)
    · exact ready_iff.mpr (Or.inr hs)
    · exact absurd hs hstate
  obtain ⟨hfailure, hclosed⟩ := hreported hready
  rcases hcause with hcause | hcause | hcause
  · simp [hcause] at hfailure
  · exact absurd hcause hclosed
  · exact hcause.2

end ConnectionHandler

end AmqpAsio
