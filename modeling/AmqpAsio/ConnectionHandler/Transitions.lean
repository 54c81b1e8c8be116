import AmqpAsio.ConnectionHandler.Basic

/-!
# The transitions of a handler

What a method can do to the state of a handler, said once for all methods. A method that goes on to
the loop of `case eShutdown` has entered `eShutdown`, one that goes on to `m_shutdownCb` has failed
to connect, and in every other case the handler stays where it is or goes one step towards `eReady`.
-/

set_option autoImplicit false
set_option relaxedAutoImplicit false

namespace AmqpAsio

namespace ConnectionHandler

variable {h h' : ConnectionHandler} {next : Continuation}

/-- The steps from `eResolving` to `eReady`. -/
def State.Advances (s s' : State) : Prop :=
  s = .eResolving ∧ s' = .eConnecting ∨ s = .eConnecting ∧ s' = .eReceiverInit ∨
    s = .eReceiverInit ∧ s' = .eReady

/-- What a method other than `start()` does to the state, by how it goes on. -/
def Transition (h h' : ConnectionHandler) : Continuation → Prop
  | .done => h'.state = h.state ∨
      h.state.Advances h'.state ∧ (h'.state = .eReceiverInit → h.connectedCb = false)
  | .connectedCb => h.state = .eConnecting ∧ h'.state = .eReceiverInit
  | .shutdownLoop => h.state ≠ .eNotConnected ∧ h'.state = .eShutdown
  | .shutdownCb message =>
    (h.state = .eResolving ∨ h.state = .eConnecting) ∧ h'.state = .eNotConnected ∧
      message = h'.lastError
  | .parse => h.connected ∧ h'.state = h.state

theorem connected_iff :
    h.connected = true ↔ h.state = .eReceiverInit ∨ h.state = .eReady ∨ h.state = .eShutdown := by
  simp [connected, or_assoc]

/-- Before the connection is established nothing is read or written. -/
def Idle (h : ConnectionHandler) : Prop :=
  h.state = .eResolving ∨ h.state = .eConnecting → h.waiting = false

theorem connected_eq_false_of_idle (hstate : h.state = .eResolving ∨ h.state = .eConnecting) :
    h.connected = false := by
  rcases hstate with hstate | hstate <;> simp [connected, hstate]

/-! ### The methods -/

theorem transition_stop (h : ConnectionHandler) : Transition h h.stop.1 h.stop.2 := by
  unfold stop
  split
  · exact Or.inl rfl
  · next hstate => exact ⟨hstate, rfl⟩

@[simp] theorem state_push (h : ConnectionHandler) (size : ℕ) : (h.push size).state = h.state := by
  simp only [push]
  split <;> rfl

theorem connection_push (h : ConnectionHandler) (size : ℕ) :
    (h.push size).connection = h.connection := by
  simp only [push]
  split <;> rfl

theorem transition_onData (h : ConnectionHandler) (size : ℕ) :
    Transition h (h.onData size).1 (h.onData size).2 := by
  simp only [onData]
  split
  · exact Or.inl rfl
  · split
    · next hinit =>
      have hready := state_push ({ h with connection := true }.goto .eReady).1 size
      refine Or.inr ⟨Or.inr (Or.inr ⟨hinit, hready⟩), fun hs ↦ ?_⟩
      cases hready.symm.trans hs
    · exact Or.inl (state_push _ size)

/-- The first data makes the handler ready. -/
theorem state_onData (hstate : h.state = .eReceiverInit) (size : ℕ) :
    (h.onData size).1.state = .eReady := by
  simp [onData, connected, hstate, goto, stateMachine, asyncRead]

theorem transition_onError (h : ConnectionHandler) (message : String) :
    Transition h (h.onError message).1 (h.onError message).2 := by
  unfold onError
  split
  · exact Or.inl rfl
  · next hconnected =>
    refine ⟨fun hstate ↦ hconnected ?_, rfl⟩
    simp [connected, hstate]

theorem transition_onClosed (h : ConnectionHandler) :
    Transition h h.onClosed.1 h.onClosed.2 := by
  unfold onClosed
  split
  · exact Or.inl rfl
  · next hconnected =>
    refine ⟨fun hstate ↦ hconnected ?_, rfl⟩
    simp [connected, hstate]

theorem transition_resolved (h : ConnectionHandler) (ec : Option String) :
    Transition h (h.resolved ec).1 (h.resolved ec).2 := by
  simp only [resolved]
  split
  · exact Or.inl rfl
  · next hstate =>
    have hresolving : h.state = .eResolving := not_not.mp hstate
    cases ec with
    | none => exact Or.inr ⟨Or.inl ⟨hresolving, rfl⟩, fun hs ↦ by cases hs⟩
    | some message => exact ⟨Or.inl hresolving, rfl, rfl⟩

theorem transition_connectDone (h : ConnectionHandler) (ec : Option String) :
    Transition h (h.connectDone ec).1 (h.connectDone ec).2 := by
  simp only [connectDone]
  split
  · exact Or.inl rfl
  · next hstate =>
    have hconnecting : h.state = .eConnecting := not_not.mp hstate
    cases ec with
    | none =>
      simp only [goto, stateMachine]
      split
      · exact ⟨hconnecting, rfl⟩
      · next hcb =>
        exact Or.inr ⟨Or.inr (Or.inl ⟨hconnecting, rfl⟩), fun _ ↦ Bool.not_eq_true _ ▸ hcb⟩
    | some message => exact ⟨Or.inr hconnecting, rfl, rfl⟩

theorem transition_parseOrRead {again : Bool} {expected : ℕ} (hconnected : h.connected)
    (hmethod : h.parseOrRead again expected = some (h', next)) : Transition h h' next := by
  unfold parseOrRead at hmethod
  split_ifs at hmethod
  · obtain ⟨rfl, rfl⟩ := Prod.mk.inj (Option.some.inj hmethod)
    exact ⟨hconnected, rfl⟩
  · obtain ⟨rfl, rfl⟩ := Prod.mk.inj (Option.some.inj hmethod)
    exact Or.inl rfl

theorem transition_onRead {ec : Option String} {bytes expected : ℕ}
    (hmethod : h.onRead ec bytes expected = some (h', next)) : Transition h h' next := by
  simp only [onRead] at hmethod
  split at hmethod
  · obtain ⟨rfl, rfl⟩ := Prod.mk.inj (Option.some.inj hmethod)
    exact Or.inl rfl
  · next hconnected =>
    rw [Bool.not_eq_true', Bool.not_eq_false] at hconnected
    have hconnected' : h.connected = true := hconnected
    cases ec with
    | none => exact transition_parseOrRead (h := { h with
        readReq := false, reads := h.reads - 1, inBuf := h.inBuf + bytes }) hconnected' hmethod
    | some message =>
      simp only at hmethod
      split at hmethod
      · obtain ⟨rfl, rfl⟩ := Prod.mk.inj (Option.some.inj hmethod)
        exact ⟨fun hstate ↦ by simp [connected, hstate] at hconnected', rfl⟩
      · obtain ⟨rfl, rfl⟩ := Prod.mk.inj (Option.some.inj hmethod)
        exact Or.inl rfl

theorem transition_onParsed {parsed expected : ℕ}
    (hmethod : h.onParsed parsed expected = some (h', next)) : Transition h h' next := by
  unfold onParsed at hmethod
  split at hmethod
  · obtain ⟨rfl, rfl⟩ := Prod.mk.inj (Option.some.inj hmethod)
    exact Or.inl rfl
  · next hconnected =>
    exact transition_parseOrRead (h := { h with inBuf := h.inBuf - parsed })
      (by rwa [Bool.not_eq_true', Bool.not_eq_false] at hconnected) hmethod

theorem transition_onWrite {ec : Option String} {bytes : ℕ}
    (hmethod : h.onWrite ec bytes = some (h', next)) : Transition h h' next := by
  simp only [onWrite] at hmethod
  split at hmethod
  · obtain ⟨rfl, rfl⟩ := Prod.mk.inj (Option.some.inj hmethod)
    exact Or.inl rfl
  · next hconnected =>
    rw [Bool.not_eq_true', Bool.not_eq_false] at hconnected
    have hconnected' : h.connected = true := hconnected
    cases ec with
    | none =>
      simp only at hmethod
      split at hmethod
      · cases hmethod
      · obtain ⟨rfl, rfl⟩ := Prod.mk.inj (Option.some.inj hmethod)
        refine Or.inl ?_
        split_ifs <;> rfl
    | some message =>
      simp only at hmethod
      split at hmethod
      · obtain ⟨rfl, rfl⟩ := Prod.mk.inj (Option.some.inj hmethod)
        exact ⟨fun hstate ↦ by simp [connected, hstate] at hconnected', rfl⟩
      · obtain ⟨rfl, rfl⟩ := Prod.mk.inj (Option.some.inj hmethod)
        exact Or.inl rfl

/-! ### Idle handlers stay idle -/

/-- A method that leaves the handler before its connection, if it was there, without a read or a
write, keeps it idle. -/
theorem Transition.idle (htransition : Transition h h' next) (hidle : h.Idle)
    (hwaiting : h.connected = false → h'.waiting = true → h.waiting = true) : h'.Idle := by
  intro hstate'
  have hstate : h.state = .eResolving ∨ h.state = .eConnecting := by
    cases next <;> simp only [Transition, State.Advances] at htransition
    case done =>
      rcases htransition with hsame | ⟨⟨hr, -⟩ | ⟨hc, -⟩ | ⟨-, hready⟩, -⟩
      · rwa [hsame] at hstate'
      · exact Or.inl hr
      · exact Or.inr hc
      · simp [hready] at hstate'
    case parse => rwa [htransition.2] at hstate'
    case connectedCb => exact Or.inr htransition.1
    case shutdownLoop => simp [htransition.2] at hstate'
    case shutdownCb => simp [htransition.2.1] at hstate'
  by_contra hwaits
  have := hwaiting (connected_eq_false_of_idle hstate) (by simpa using hwaits)
  simp [hidle hstate] at this

theorem idle_stop (hidle : h.Idle) : h.stop.1.Idle := by
  refine (transition_stop h).idle hidle fun _ hwaits ↦ ?_
  unfold stop at hwaits
  split at hwaits <;> exact hwaits

theorem idle_onData (hidle : h.Idle) (size : ℕ) : (h.onData size).1.Idle := by
  refine (transition_onData h size).idle hidle fun hconnected hwaits ↦ ?_
  simpa [onData, hconnected] using hwaits

theorem idle_onError (hidle : h.Idle) (message : String) : (h.onError message).1.Idle := by
  refine (transition_onError h message).idle hidle fun hconnected hwaits ↦ ?_
  simpa [onError, hconnected] using hwaits

theorem idle_onClosed (hidle : h.Idle) : h.onClosed.1.Idle := by
  refine (transition_onClosed h).idle hidle fun hconnected hwaits ↦ ?_
  simpa [onClosed, hconnected] using hwaits

theorem idle_resolved (hidle : h.Idle) (ec : Option String) : (h.resolved ec).1.Idle := by
  refine (transition_resolved h ec).idle hidle fun _ hwaits ↦ ?_
  simp only [resolved] at hwaits
  split at hwaits
  · exact hwaits
  · cases ec <;> exact hwaits

theorem idle_connectDone (hidle : h.Idle) (ec : Option String) : (h.connectDone ec).1.Idle := by
  refine (transition_connectDone h ec).idle hidle fun _ hwaits ↦ ?_
  simp only [connectDone] at hwaits
  split at hwaits
  · exact hwaits
  · cases ec <;> exact hwaits

theorem idle_onRead {ec : Option String} {bytes expected : ℕ} (hidle : h.Idle)
    (hmethod : h.onRead ec bytes expected = some (h', next)) : h'.Idle := by
  refine (transition_onRead hmethod).idle hidle fun hconnected hwaits ↦ ?_
  have hsame : { h with readReq := false, reads := h.reads - 1 }.connected = false := hconnected
  simp only [onRead, hsame, Bool.not_false, ↓reduceIte, Option.some.injEq, Prod.mk.injEq] at hmethod
  obtain ⟨rfl, -⟩ := hmethod
  simp only [waiting, Bool.false_or] at hwaits ⊢
  simp [hwaits]

theorem idle_onParsed {parsed expected : ℕ} (hidle : h.Idle)
    (hmethod : h.onParsed parsed expected = some (h', next)) : h'.Idle := by
  refine (transition_onParsed hmethod).idle hidle fun hconnected hwaits ↦ ?_
  simp only [onParsed, hconnected, Bool.not_false, ↓reduceIte, Option.some.injEq,
    Prod.mk.injEq] at hmethod
  exact hmethod.1 ▸ hwaits

theorem idle_onWrite {ec : Option String} {bytes : ℕ} (hidle : h.Idle)
    (hmethod : h.onWrite ec bytes = some (h', next)) : h'.Idle := by
  refine (transition_onWrite hmethod).idle hidle fun hconnected hwaits ↦ ?_
  have hsame : { h with
      writeReq := false, writes := h.writes - 1
      outBufs := h.outBufs.modifyHead (· - bytes) }.connected = false := hconnected
  simp only [onWrite, hsame, Bool.not_false, ↓reduceIte, Option.some.injEq,
    Prod.mk.injEq] at hmethod
  obtain ⟨rfl, -⟩ := hmethod
  simp only [waiting, Bool.or_false] at hwaits ⊢
  simp [hwaits]

end ConnectionHandler

end AmqpAsio
