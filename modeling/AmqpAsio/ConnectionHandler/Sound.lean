import AmqpAsio.ConnectionHandler.Execution

/-!
# The handlers of a connector

A connector starts each handler once, with a callback for the connection. What holds of such a
handler whatever is called: the callback stays installed, nothing is outstanding before the
connection, and `m_amqpError` is set only by `onError()`, which ends the connection.
-/

set_option autoImplicit false
set_option relaxedAutoImplicit false

namespace AmqpAsio

namespace ConnectionHandler

variable {h h' : ConnectionHandler}

/-- What holds of a handler that was started once, with a callback. -/
structure Sound (h : ConnectionHandler) : Prop where
  connectedCb : h.connectedCb = true
  idle : h.Idle
  amqpError : h.state ≠ .eNotConnected → h.state ≠ .eShutdown → h.amqpError = false

/-! ### What methods leave alone -/

/-- The callback is the same, and `m_amqpError` too, unless the event is an `onError()`. -/
def Kept (h : ConnectionHandler) (e : Event) (h' : ConnectionHandler) : Prop :=
  h'.connectedCb = h.connectedCb ∧ ((∀ message, e ≠ .onError message) → h'.amqpError = h.amqpError)

theorem connectedCb_goto (h : ConnectionHandler) (s : State) :
    (h.goto s).1.connectedCb = h.connectedCb := by
  cases s <;> rfl

theorem amqpError_goto (h : ConnectionHandler) (s : State) :
    (h.goto s).1.amqpError = h.amqpError := by
  cases s <;> rfl

theorem connectedCb_push (h : ConnectionHandler) (size : ℕ) :
    (h.push size).connectedCb = h.connectedCb := by
  simp only [push]
  split <;> rfl

theorem amqpError_push (h : ConnectionHandler) (size : ℕ) :
    (h.push size).amqpError = h.amqpError := by
  simp only [push]
  split <;> rfl

theorem kept_parseOrRead {v : ConnectionHandler} {e : Event} {again : Bool} {expected : ℕ}
    {r : ConnectionHandler × Continuation} (hv : Kept h e v)
    (hmethod : v.parseOrRead again expected = some r) : Kept h e r.1 := by
  unfold parseOrRead at hmethod
  split_ifs at hmethod
  · exact Option.some.inj hmethod ▸ hv
  · exact Option.some.inj hmethod ▸ hv

theorem kept_goto {v : ConnectionHandler} {e : Event} (hv : Kept h e v) (s : State) :
    Kept h e (v.goto s).1 := by
  unfold Kept
  rw [connectedCb_goto, amqpError_goto]
  exact hv

theorem kept_method {e : Event} {r : ConnectionHandler × Continuation}
    (hmethod : h.method e = some r) : Kept h e r.1 := by
  have hrefl : Kept h e h := ⟨rfl, fun _ ↦ rfl⟩
  cases e with
  | start | parsed | resume => cases hmethod
  | stop =>
    rw [← Option.some.inj hmethod]
    unfold stop
    split
    · exact hrefl
    · exact kept_goto (v := { h with lastError := "" }) hrefl .eShutdown
  | onData size =>
    rw [← Option.some.inj hmethod]
    unfold onData
    split_ifs
    · exact hrefl
    · exact ⟨(connectedCb_push _ size).trans (connectedCb_goto _ _),
        fun _ ↦ (amqpError_push _ size).trans (amqpError_goto _ _)⟩
    · exact ⟨connectedCb_push _ size, fun _ ↦ amqpError_push _ size⟩
  | onError message =>
    rw [← Option.some.inj hmethod]
    unfold onError
    split
    · exact hrefl
    · exact ⟨connectedCb_goto _ _, fun hne ↦ absurd rfl (hne message)⟩
  | onClosed =>
    rw [← Option.some.inj hmethod]
    unfold onClosed
    split
    · exact hrefl
    · exact kept_goto (v := { h with connection := true, lastError := "" }) hrefl .eShutdown
  | resolved ec =>
    obtain ⟨-, hmethod⟩ := Option.ite_none_left_eq_some.mp hmethod
    rw [← Option.some.inj hmethod]
    simp only [resolved]
    split
    · exact hrefl
    · cases ec <;> exact hrefl
  | connectDone ec =>
    obtain ⟨-, hmethod⟩ := Option.ite_none_left_eq_some.mp hmethod
    rw [← Option.some.inj hmethod]
    simp only [connectDone]
    split
    · exact hrefl
    · cases ec <;> exact hrefl
  | read ec bytes expected =>
    obtain ⟨-, hmethod⟩ := Option.ite_none_left_eq_some.mp hmethod
    simp only [onRead] at hmethod
    split at hmethod
    · exact Option.some.inj hmethod ▸ hrefl
    · cases ec with
      | none =>
        refine kept_parseOrRead ?_ hmethod
        exact hrefl
      | some message =>
        simp only at hmethod
        split at hmethod
        · exact Option.some.inj hmethod ▸ hrefl
        · exact Option.some.inj hmethod ▸ hrefl
  | wrote ec bytes =>
    obtain ⟨-, hmethod⟩ := Option.ite_none_left_eq_some.mp hmethod
    simp only [onWrite] at hmethod
    split at hmethod
    · exact Option.some.inj hmethod ▸ hrefl
    · cases ec with
      | none =>
        simp only at hmethod
        split at hmethod
        · cases hmethod
        · rw [← Option.some.inj hmethod]
          split_ifs <;> exact hrefl
      | some message =>
        simp only at hmethod
        split at hmethod
        · exact Option.some.inj hmethod ▸ hrefl
        · exact Option.some.inj hmethod ▸ hrefl

/-! ### What every method does -/

theorem transition_method {e : Event} {r : ConnectionHandler × Continuation}
    (hmethod : h.method e = some r) : Transition h r.1 r.2 := by
  cases e with
  | start | parsed | resume => cases hmethod
  | stop => exact Option.some.inj hmethod ▸ transition_stop h
  | onData size => exact Option.some.inj hmethod ▸ transition_onData h size
  | onError message => exact Option.some.inj hmethod ▸ transition_onError h message
  | onClosed => exact Option.some.inj hmethod ▸ transition_onClosed h
  | resolved ec =>
    obtain ⟨-, hmethod⟩ := Option.ite_none_left_eq_some.mp hmethod
    exact Option.some.inj hmethod ▸ transition_resolved h ec
  | connectDone ec =>
    obtain ⟨-, hmethod⟩ := Option.ite_none_left_eq_some.mp hmethod
    exact Option.some.inj hmethod ▸ transition_connectDone h ec
  | read ec bytes expected =>
    exact transition_onRead (Option.ite_none_left_eq_some.mp hmethod).2
  | wrote ec bytes => exact transition_onWrite (Option.ite_none_left_eq_some.mp hmethod).2

theorem idle_method {e : Event} {r : ConnectionHandler × Continuation} (hidle : h.Idle)
    (hmethod : h.method e = some r) : r.1.Idle := by
  cases e with
  | start | parsed | resume => cases hmethod
  | stop => exact Option.some.inj hmethod ▸ idle_stop hidle
  | onData size => exact Option.some.inj hmethod ▸ idle_onData hidle size
  | onError message => exact Option.some.inj hmethod ▸ idle_onError hidle message
  | onClosed => exact Option.some.inj hmethod ▸ idle_onClosed hidle
  | resolved ec =>
    obtain ⟨-, hmethod⟩ := Option.ite_none_left_eq_some.mp hmethod
    exact Option.some.inj hmethod ▸ idle_resolved hidle ec
  | connectDone ec =>
    obtain ⟨-, hmethod⟩ := Option.ite_none_left_eq_some.mp hmethod
    exact Option.some.inj hmethod ▸ idle_connectDone hidle ec
  | read ec bytes expected =>
    exact idle_onRead hidle (Option.ite_none_left_eq_some.mp hmethod).2
  | wrote ec bytes => exact idle_onWrite hidle (Option.ite_none_left_eq_some.mp hmethod).2

/-- A method that does not end up in `eNotConnected` or `eShutdown` was called in neither. -/
theorem Transition.running {next : Continuation} (htransition : Transition h h' next)
    (hconnected : h'.state ≠ .eNotConnected) (hshutdown : h'.state ≠ .eShutdown) :
    h.state ≠ .eNotConnected ∧ h.state ≠ .eShutdown := by
  cases next <;> simp only [Transition, State.Advances] at htransition
  case done =>
    rcases htransition with hsame | ⟨⟨hs, -⟩ | ⟨hs, -⟩ | ⟨hs, -⟩, -⟩
    · exact hsame ▸ ⟨hconnected, hshutdown⟩
    all_goals simp [hs]
  case connectedCb => simp [htransition.1]
  case shutdownLoop => exact absurd htransition.2 hshutdown
  case shutdownCb => exact absurd htransition.2.1 hconnected
  case parse => exact htransition.2 ▸ ⟨hconnected, hshutdown⟩

theorem Sound.method {e : Event} {r : ConnectionHandler × Continuation} (hsound : h.Sound)
    (hmethod : h.method e = some r) : r.1.Sound := by
  have hkept := kept_method hmethod
  have htransition := transition_method hmethod
  refine ⟨hkept.1.trans hsound.connectedCb, idle_method hsound.idle hmethod, ?_⟩
  intro hconnected hshutdown
  obtain ⟨hc, hs⟩ := htransition.running hconnected hshutdown
  by_cases herror : ∃ message, e = .onError message
  · obtain ⟨message, rfl⟩ := herror
    have hstate : h.onError message = r := Option.some.inj hmethod
    by_cases hup : h.connected
    · refine absurd ?_ hshutdown
      rw [← hstate, onError, hup]
      rfl
    · have hdown : h.connected = false := by simpa using hup
      rw [← hstate, onError, hdown]
      exact hsound.amqpError hc hs
  · push Not at herror
    exact (hkept.2 herror).trans (hsound.amqpError hc hs)

theorem kept_onParsed {parsed expected : ℕ} {r : ConnectionHandler × Continuation}
    (hmethod : h.onParsed parsed expected = some r) : Kept h .resume r.1 := by
  have hrefl : Kept h .resume h := ⟨rfl, fun _ ↦ rfl⟩
  unfold ConnectionHandler.onParsed at hmethod
  split at hmethod
  · exact Option.some.inj hmethod ▸ hrefl
  · refine kept_parseOrRead ?_ hmethod
    exact hrefl

theorem Sound.onParsed {parsed expected : ℕ} {r : ConnectionHandler × Continuation}
    (hsound : h.Sound) (hmethod : h.onParsed parsed expected = some r) : r.1.Sound := by
  have hkept := kept_onParsed hmethod
  refine ⟨hkept.1.trans hsound.connectedCb, idle_onParsed hsound.idle hmethod, ?_⟩
  intro hconnected hshutdown
  obtain ⟨hc, hs⟩ := (transition_onParsed hmethod).running hconnected hshutdown
  exact (hkept.2 (by simp)).trans (hsound.amqpError hc hs)

/-- Before the connection nothing is waited for when the handler shuts down. -/
theorem connected_of_waiting {e : Event} {r : ConnectionHandler × Continuation} (hidle : h.Idle)
    (hmethod : h.method e = some r) (hloop : r.2 = .shutdownLoop) (hwaits : r.1.waiting = true) :
    h.connected = true := by
  by_contra hup
  have hdown : h.connected = false := by simpa using hup
  have hdone {v : ConnectionHandler × Continuation} (hv : v.2 = .done) (hsame : v = r) : False := by
    rw [hsame, hloop] at hv
    cases hv
  cases e with
  | start | parsed | resume => cases hmethod
  | stop =>
    rw [← Option.some.inj hmethod] at hwaits hloop
    unfold stop at hwaits hloop
    split at hloop
    · cases hloop
    · next hstate =>
      rw [if_neg hstate] at hwaits
      have hstill : h.waiting = true := hwaits
      rw [hidle] at hstill
      · cases hstill
      · cases hs : h.state <;> simp [connected, hs] at hdown hstate ⊢
  | onData size =>
    refine hdone ?_ (Option.some.inj hmethod)
    simp [onData, hdown]
  | onError message =>
    refine hdone ?_ (Option.some.inj hmethod)
    simp [onError, hdown]
  | onClosed =>
    refine hdone ?_ (Option.some.inj hmethod)
    simp [onClosed, hdown]
  | resolved ec =>
    have htransition := transition_method hmethod
    obtain ⟨-, hmethod⟩ := Option.ite_none_left_eq_some.mp hmethod
    rw [← Option.some.inj hmethod] at hloop
    simp only [resolved] at hloop
    split at hloop
    · cases hloop
    · cases ec <;> cases hloop
  | connectDone ec =>
    obtain ⟨-, hmethod⟩ := Option.ite_none_left_eq_some.mp hmethod
    rw [← Option.some.inj hmethod] at hloop
    simp only [connectDone] at hloop
    split at hloop
    · cases hloop
    · cases ec with
      | some message => cases hloop
      | none =>
        simp only [goto, stateMachine] at hloop
        split at hloop <;> cases hloop
  | read ec bytes expected =>
    obtain ⟨-, hmethod⟩ := Option.ite_none_left_eq_some.mp hmethod
    have hsame : { h with readReq := false, reads := h.reads - 1 }.connected = false := hdown
    simp only [onRead, hsame, Bool.not_false, ↓reduceIte, Option.some.injEq] at hmethod
    exact hdone rfl hmethod
  | wrote ec bytes =>
    obtain ⟨-, hmethod⟩ := Option.ite_none_left_eq_some.mp hmethod
    have hsame : { h with
        writeReq := false, writes := h.writes - 1
        outBufs := h.outBufs.modifyHead (· - bytes) }.connected = false := hdown
    simp only [onWrite, hsame, Bool.not_false, ↓reduceIte, Option.some.injEq] at hmethod
    exact hdone rfl hmethod

/-- What a connector may assume of a method of its handler. -/
structure Acts (h : ConnectionHandler) (r : ConnectionHandler × Continuation) : Prop where
  sound : h.Sound → r.1.Sound
  transition : Transition h r.1 r.2
  waits : h.Sound → r.2 = .shutdownLoop → r.1.waiting = true → h.connected = true

theorem acts_method {e : Event} {r : ConnectionHandler × Continuation}
    (hmethod : h.method e = some r) : Acts h r :=
  ⟨fun hsound ↦ hsound.method hmethod, transition_method hmethod,
    fun hsound hloop hwaits ↦ connected_of_waiting hsound.idle hmethod hloop hwaits⟩

theorem acts_stop (h : ConnectionHandler) : Acts h h.stop := acts_method (e := .stop) rfl

theorem parseOrRead_ne_shutdownLoop {v : ConnectionHandler} {again : Bool} {expected : ℕ}
    {r : ConnectionHandler × Continuation} (hmethod : v.parseOrRead again expected = some r) :
    r.2 ≠ .shutdownLoop := by
  unfold parseOrRead at hmethod
  split_ifs at hmethod
  all_goals
    rw [← Option.some.inj hmethod]
    simp

/-- The loop that parses does not begin a shutdown. -/
theorem onParsed_ne_shutdownLoop {parsed expected : ℕ} {r : ConnectionHandler × Continuation}
    (hmethod : h.onParsed parsed expected = some r) : r.2 ≠ .shutdownLoop := by
  unfold ConnectionHandler.onParsed at hmethod
  split at hmethod
  · rw [← Option.some.inj hmethod]
    simp
  · exact parseOrRead_ne_shutdownLoop hmethod

theorem onParsed_ne_connectedCb {parsed expected : ℕ} {r : ConnectionHandler × Continuation}
    (hmethod : h.onParsed parsed expected = some r) : r.2 ≠ .connectedCb := by
  unfold onParsed parseOrRead at hmethod
  split_ifs at hmethod <;> cases hmethod <;> exact nofun

theorem acts_onParsed {parsed expected : ℕ} {r : ConnectionHandler × Continuation}
    (hmethod : h.onParsed parsed expected = some r) : Acts h r :=
  ⟨fun hsound ↦ hsound.onParsed hmethod, transition_onParsed hmethod,
    fun _ hloop _ ↦ absurd hloop (onParsed_ne_shutdownLoop hmethod)⟩

theorem Sound.endShutdown (hsound : h.Sound) : h.endShutdown.1.Sound :=
  ⟨hsound.connectedCb,
    fun hstate ↦
    by simp [ConnectionHandler.endShutdown, goto, stateMachine] at hstate, fun hne ↦ absurd rfl hne⟩

theorem Sound.endShutdownCb (hsound : h.Sound) : h.endShutdownCb.Sound :=
  ⟨hsound.connectedCb, hsound.idle, hsound.amqpError⟩

theorem acts_endShutdownCb (h : ConnectionHandler) : Acts h (h.endShutdownCb, .done) :=
  ⟨fun hsound ↦ hsound.endShutdownCb, Or.inl rfl, fun _ hloop ↦ by cases hloop⟩

theorem sound_start : (new.start true).1.Sound :=
  ⟨rfl, fun _ ↦ rfl, fun _ _ ↦ rfl⟩

end ConnectionHandler

end AmqpAsio
