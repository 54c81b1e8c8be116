import AmqpAsio.ConnectionHandler.Quiescence
import AmqpAsio.Connector.Nesting

/-!
# Attempts to reach the broker

`async_start()` looks only at whether a connection is ready. Called while an earlier attempt is
still resolving or connecting, it begins the next one and then destroys the handler of the earlier
one, whose shutdown comes to `onShutdown`: the connector, which is just starting, reports
`eBrokerConnectError` and gives up `m_sentinel`. The same happens when an earlier session that was
still shutting down, or dropping its transceivers, comes to its end while an attempt is in progress.
Below it is shown that nothing else does.
-/

set_option autoImplicit false
set_option relaxedAutoImplicit false

namespace AmqpAsio

namespace ConnectionHandler

variable {h h' : ConnectionHandler}

/-- A handler that is establishing its connection has been doing so, and goes on to nothing else. -/
theorem Transition.establishing {next : Continuation} (htransition : Transition h h' next)
    (hstate : h'.state.Establishing) :
    h.state.Establishing ∧ (next = .done ∨ next = .parse) := by
  cases next <;> simp only [Transition, State.Advances] at htransition
  case done =>
    refine ⟨?_, Or.inl rfl⟩
    rcases htransition with hsame | ⟨⟨hs, -⟩ | ⟨hs, -⟩ | ⟨-, hs'⟩, -⟩
    · rwa [hsame] at hstate
    · exact Or.inl hs
    · exact Or.inr hs
    · rcases hstate with hs | hs <;> cases hs'.symm.trans hs
  case parse =>
    refine ⟨?_, Or.inr rfl⟩
    rwa [htransition.2] at hstate
  case connectedCb | shutdownLoop =>
    rcases hstate with hs | hs <;> cases htransition.2.symm.trans hs
  case shutdownCb =>
    rcases hstate with hs | hs <;> cases htransition.2.1.symm.trans hs

theorem not_establishing_of_over (hover : h.Over) : ¬ h.state.Establishing := by
  rintro (hs | hs) <;> rcases hover with hs' | hs' <;> cases hs.symm.trans hs'

/-- A handler that begins another shutdown waits for what it has waited for. -/
theorem waiting_of_shutdownLoop {e : Event} {r : ConnectionHandler × Continuation}
    (hmethod : h.method e = some r) (hstate : h.state = .eShutdown) (hloop : r.2 = .shutdownLoop) :
    ¬ h.Undisturbed e ∧ r.1.waiting = h.waiting := by
  refine ⟨fun hundisturbed ↦ ?_, ?_⟩
  · exact ((Execution.tells_method hundisturbed hmethod).during hstate).2 hloop
  · by_contra hne
    have hundisturbed : h.Undisturbed e := by
      refine fun _ ↦ ⟨?_, ?_, fun message ↦ ?_⟩
      all_goals
        rintro rfl
        obtain rfl := Option.some.inj hmethod
        simp [stop, onClosed, onError, connected, hstate, goto, stateMachine, waiting] at hne
    exact ((Execution.tells_method hundisturbed hmethod).during hstate).2 hloop

/-- An `onError()` or `onClosed()` during a shutdown begins another one. -/
theorem shutdownLoop_of_disturbed {e : Event} {r : ConnectionHandler × Continuation}
    (hmethod : h.method e = some r) (hdisturbed : ¬ h.Undisturbed e) : r.2 = .shutdownLoop := by
  rw [Undisturbed, Classical.not_imp] at hdisturbed
  obtain ⟨hstate, hdisturbed⟩ := hdisturbed
  by_contra hloop
  refine hdisturbed ⟨?_, ?_, fun message ↦ ?_⟩
  all_goals
    rintro rfl
    obtain rfl := Option.some.inj hmethod
    simp [stop, onClosed, onError, connected, hstate, goto, stateMachine] at hloop

/-- `stop()` shuts down a handler that is not stopped. -/
theorem stop_of_ne (hstate : h.state ≠ .eNotConnected) :
    h.stop.2 = .shutdownLoop ∧ h.stop.1.waiting = h.waiting := by
  unfold stop
  rw [if_neg hstate]
  exact ⟨rfl, rfl⟩

theorem stop_of_stopped (hstate : h.state = .eNotConnected) : h.stop.2 = .done := by
  unfold stop
  rw [if_pos hstate]

end ConnectionHandler

namespace Connector

variable {c c₁ c' : Connector} {spent : ℕ → Prop}

/-- An attempt to reach the broker is in progress: the present handler is resolving the address or
connecting. -/
def Attempting (c : Connector) : Prop := c.connectionHandler.state.Establishing

/-- The connector is not ready during an attempt. -/
def Unready (c : Connector) : Prop := c.Attempting → c.connectionHandlerReady = false

/-- `m_sentinel` is held during an attempt. -/
def Guarded (c : Connector) : Prop := c.Attempting → c.sentinel = true

/-- An attempt that is in progress has been so before, and has been left alone. -/
structure LeftAlone (c c' : Connector) : Prop where
  attempting : c.Attempting
  sentinel : c.sentinel = true → c'.sentinel = true
  ready : c'.connectionHandlerReady = c.connectionHandlerReady
  exits : ∀ s, exitCodes s c'.log = exitCodes s c.log

/-- What has happened begins no attempt, and leaves one that is in progress alone or ends it. -/
def Spares (c c' : Connector) : Prop := c'.Attempting → LeftAlone c c'

theorem Spares.trans (hfirst : Spares c c₁) (hsecond : Spares c₁ c') : Spares c c' := by
  intro hattempting
  obtain ⟨hattempting₁, hsentinel, hready, hexits⟩ := hsecond hattempting
  obtain ⟨hattempting', hsentinel', hready', hexits'⟩ := hfirst hattempting₁
  exact ⟨hattempting', fun h ↦ hsentinel (hsentinel' h), hready.trans hready',
    fun s ↦ (hexits s).trans (hexits' s)⟩

/-- If an attempt is in progress, then the connector is not ready, `m_sentinel` is still held, and
no session has been answered. -/
structure Spared (c c' : Connector) : Prop where
  unready : c.Unready → c'.Unready
  kept : c.Guarded → c'.Attempting →
    c'.sentinel = true ∧ ∀ s, exitCodes s c'.log = exitCodes s c.log

theorem Spares.spared (hspares : Spares c c') : Spared c c' where
  unready h hattempting :=
    (hspares hattempting).ready.trans (h (hspares hattempting).attempting)
  kept h hattempting :=
    ⟨(hspares hattempting).sentinel (h (hspares hattempting).attempting),
      (hspares hattempting).exits⟩

theorem attempting_of_handlers (hhandlers : c'.handlers = c.handlers) :
    c'.Attempting ↔ c.Attempting := by
  simp only [Attempting, connectionHandler, Connector.session, handler, hhandlers]

/-- What does not concern the connector itself spares the attempt. -/
theorem Alike.spares (halike : Alike c c') (hsentinel : c'.sentinel = c.sentinel) :
    Spares c c' := by
  intro hattempting
  refine ⟨?_, fun h ↦ hsentinel.trans h, halike.ready, halike.exits⟩
  rwa [Attempting, halike.state] at hattempting

theorem Quiet.spares (hquiet : Quiet c c') : Spares c c' := by
  intro hattempting
  refine ⟨(attempting_of_handlers hquiet.handlers).mp hattempting, hquiet.sentinel, hquiet.ready,
    fun s ↦ by rw [hquiet.log]⟩

theorem Quiet.spared (hquiet : Quiet c c₁) (h : Spared c₁ c') : Spared c c' where
  unready hunready := h.unready (hquiet.spares.spared.unready hunready)
  kept hguarded hattempting := by
    rw [← hquiet.log]
    refine h.kept (fun hattempting₁ ↦ ?_) hattempting
    exact (hquiet.spares.spared.kept hguarded hattempting₁).1

/-- What records nothing about a session. -/
theorem spares_of_aside (new : List Observation) (hhandlers : c'.handlers = c.handlers)
    (hsentinel : c'.sentinel = c.sentinel)
    (hready : c'.connectionHandlerReady = c.connectionHandlerReady) (hlog : c'.log = c.log ++ new)
    (hnew : ∀ o ∈ new, o.isAside = true) : Spares c c' :=
  fun hattempting ↦ ⟨(attempting_of_handlers hhandlers).mp hattempting, fun h ↦ hsentinel.trans h,
    hready, fun s ↦ hlog ▸ exitCodes_append_aside hnew s c.log⟩

theorem spares_of_eq (hhandlers : c'.handlers = c.handlers) (hsentinel : c'.sentinel = c.sentinel)
    (hready : c'.connectionHandlerReady = c.connectionHandlerReady) (hlog : c'.log = c.log) :
    Spares c c' :=
  spares_of_aside [] hhandlers hsentinel hready (by simp [hlog]) (by simp)

/-! ### What the exit callback leaves -/

theorem Calls.sentinel (h : Calls c c') : c'.sentinel = c.sentinel := by
  cases h
  rfl

@[simp] theorem sentinel_exit (c : Connector) (session : ℕ) (code : ExitCode) :
    (c.exit session code).sentinel = c.sentinel := by
  rcases exit_cases c session code with ⟨-, heq⟩ | ⟨-, hcalls⟩
  · rw [heq]
  · exact hcalls.sentinel

/-- The connector has been told that a session is over, while an attempt goes on. -/
structure Disturbed (c : Connector) : Prop where
  attempting : c.Attempting
  sentinel : c.sentinel = false
  ready : c.connectionHandlerReady = false

/-- An attempt that is disturbed loses `m_sentinel`. -/
theorem disturbed_onShutdown (hattempting : c.Attempting) (hexiting : c.exiting = false)
    (hready : c.connectionHandlerReady = false) (session : ℕ) :
    (c.onShutdown session).Disturbed := by
  have hhandlers := (plain_onShutdown c session).handlers
  refine ⟨(attempting_of_handlers hhandlers).mpr hattempting, ?_, ?_⟩
  · simp [onShutdown, hexiting, hready]
  · rw [onShutdown, if_neg (by simp [hexiting]), if_pos (by simp [hready])]
    rcases alike_exit { c with amqpConnection := none, sentinel := false } session
      .eBrokerConnectError with halike | halike <;> exact halike.ready.trans hready

/-- A loop that drops the transceivers takes `m_sentinel` away at its end. -/
theorem disturbed_drop (hattempting : c.Attempting) (session : ℕ) :
    (c.disconnected.exit session .eAmqpError).Disturbed := by
  have hhandlers := (plain_disconnected_exit c session .eAmqpError).handlers
  refine ⟨(attempting_of_handlers hhandlers).mpr hattempting, ?_, ?_⟩
  · simp [disconnected]
  · rcases alike_exit c.disconnected session .eAmqpError with halike | halike <;>
      exact halike.ready

/-! ### The handlers -/

theorem handlers_callStartedCb (c : Connector) : c.callStartedCb.handlers = c.handlers := by
  unfold callStartedCb
  split
  · rfl
  · rfl
  · by_cases hstop : c.auto.needStop
    · unfold started
      rw [if_pos hstop]
      exact (plain_stop _).handlers
    · exact (quiet_started (by simpa using hstop)).handlers

theorem attempting_setHandler_of_ne {session : ℕ} (v : ConnectionHandler)
    (hne : session ≠ c.session) : (c.setHandler session v).Attempting ↔ c.Attempting := by
  unfold Attempting connectionHandler
  rw [session_setHandler, handler_setHandler_of_ne c v hne.symm]

theorem attempting_setHandler (v : ConnectionHandler) (hlt : c.session < c.handlers.length) :
    (c.setHandler c.session v).Attempting ↔ v.state.Establishing := by
  rw [Attempting, connectionHandler_setHandler c v hlt]

/-- No attempt of this handler is in progress once it has finished its shutdown. -/
theorem attempting_finish {session : ℕ} (hlt : session < c.handlers.length)
    (hattempting : (c.finish session).Attempting) : session ≠ c.session ∧ c.Attempting := by
  have hhandlers := (plain_onShutdown ((c.setHandler session (c.handler session).endShutdown.1).push
    (.shutdownCb session)) session).handlers
  have hset : (c.setHandler session (c.handler session).endShutdown.1).Attempting :=
    (attempting_of_handlers hhandlers).mp hattempting
  by_cases heq : session = c.session
  · subst heq
    rw [attempting_setHandler _ hlt] at hset
    rcases hset with hs | hs <;> cases hs
  · exact ⟨heq, (attempting_setHandler_of_ne _ heq).mp hset⟩

/-- The handler of another session finishes its shutdown during an attempt. -/
theorem disturbed_finish {session : ℕ} (hattempting : c.Attempting) (hexiting : c.exiting = false)
    (hready : c.connectionHandlerReady = false) (hne : session ≠ c.session) :
    (c.finish session).Disturbed := by
  refine disturbed_onShutdown (c := (c.setHandler session _).push (.shutdownCb session)) ?_ hexiting
    hready session
  exact (attempting_setHandler_of_ne _ hne).mpr hattempting

/-- The handler of another session changes. -/
theorem spares_setHandler_of_ne {session : ℕ} (v : ConnectionHandler) (hne : session ≠ c.session) :
    Spares c (c.setHandler session v) := fun hattempting ↦
  ⟨(attempting_setHandler_of_ne v hne).mp hattempting, id, rfl, fun _ ↦ rfl⟩

/-- A method of the present handler is called. -/
theorem spares_handle_session {r : ConnectionHandler × ConnectionHandler.Continuation}
    (hlt : c.session < c.handlers.length) (htransition : c.connectionHandler.Transition r.1 r.2) :
    Spares c (c.handle c.session r) := by
  obtain ⟨v, next⟩ := r
  have hset : Spares c (c.setHandler c.session v) := fun hattempting ↦
    ⟨(htransition.establishing ((attempting_setHandler v hlt).mp hattempting)).1, id, rfl,
      fun _ ↦ rfl⟩
  have hnever (hover : v.Over) {c' : Connector}
      (hhandlers : c'.handlers = (c.setHandler c.session v).handlers) : Spares c c' := by
    intro hattempting
    rw [attempting_of_handlers hhandlers, attempting_setHandler v hlt] at hattempting
    exact absurd hattempting (ConnectionHandler.not_establishing_of_over hover)
  simp only [Connector.handle]
  cases next with
  | done => exact hset
  | parse => exact hset.trans (quiet_push _ rfl).spares
  | shutdownCb message => exact hnever (Or.inl htransition.2.1) (plain_onShutdown _ _).handlers
  | connectedCb =>
    have hready := ConnectionHandler.state_onData htransition.2 protocolHeader
    intro hattempting
    change (c.setHandler c.session v).onConnected.Attempting at hattempting
    rw [onConnected_setHandler v hlt,
      attempting_of_handlers (handlers_callStartedCb _)] at hattempting
    have hattempting' : (c.setHandler c.session (v.onData protocolHeader).1).Attempting :=
      hattempting
    rw [attempting_setHandler _ hlt] at hattempting'
    rcases hattempting' with hs | hs <;> cases hready.symm.trans hs
  | shutdownLoop =>
    simp only
    split
    · exact hnever (Or.inr htransition.2) rfl
    · intro hattempting
      have hne := (attempting_finish (by rwa [length_setHandler]) hattempting).1
      exact absurd (session_setHandler c c.session v).symm hne

/-- A method of a handler is called, which does not finish the shutdown of an earlier session. -/
theorem spares_handle {session : ℕ} {r : ConnectionHandler × ConnectionHandler.Continuation}
    (hwf : c.WellFormed spent) (hlt : session < c.handlers.length)
    (htransition : (c.handler session).Transition r.1 r.2)
    (hwaits : session ≠ c.session → r.2 = .shutdownLoop → r.1.waiting = true) :
    Spares c (c.handle session r) := by
  by_cases heq : session = c.session
  · subst heq
    exact spares_handle_session hlt htransition
  · have hover := hwf.over hlt heq
    have hset := spares_setHandler_of_ne r.1 heq
    by_cases hloop : r.2 = .shutdownLoop
    · simp only [Connector.handle, hloop, hwaits heq hloop, if_true]
      exact hset.trans (spares_of_eq rfl rfl rfl rfl)
    · simp only [Connector.handle]
      rcases (htransition.still hover hloop).1 with hnext | hnext <;> rw [hnext]
      · exact hset
      · exact hset.trans (quiet_push _ rfl).spares

/-- Another handler that finishes its shutdown has been in it. -/
theorem attempting_handle_finish {session : ℕ}
    {r : ConnectionHandler × ConnectionHandler.Continuation} (hwf : c.WellFormed spent)
    (hlt : session < c.handlers.length) (htransition : (c.handler session).Transition r.1 r.2)
    (hne : session ≠ c.session) (hloop : r.2 = .shutdownLoop) (hidle : r.1.waiting = false)
    (hattempting : (c.handle session r).Attempting) :
    c.Attempting ∧ (c.handler session).state = .eShutdown := by
  rw [hloop] at htransition
  refine ⟨?_, (hwf.over hlt hne).resolve_left htransition.1⟩
  simp only [Connector.handle, hloop, hidle, Bool.false_eq_true, if_false] at hattempting
  have hset := (attempting_finish (by rwa [length_setHandler]) hattempting).2
  exact (attempting_setHandler_of_ne _ hne).mp hset

/-! ### Starting -/

theorem attempting_begun (c : Connector) (callback : Option StartedCallback) :
    (c.begun callback c.handlers).Attempting := Or.inl (state_begun c callback c.handlers)

/-- `async_start()` of a connector that is not ready begins a session, and then stops the handler of
the last one. -/
theorem asyncStart_eq (callback : Option StartedCallback)
    (hready : c.connectionHandlerReady = false) :
    c.handlers = [] ∧ c.asyncStart callback = c.begun callback c.handlers ∨
      c.session < c.handlers.length ∧ c.session ≠ (c.begun callback c.handlers).session ∧
        c.asyncStart callback =
          (c.begun callback c.handlers).handle c.session c.connectionHandler.stop := by
  unfold Connector.asyncStart
  rw [if_neg (by simp [hready])]
  cases hlast : c.handlers.getLast? with
  | none => exact Or.inl ⟨List.getLast?_eq_none_iff.mp hlast, rfl⟩
  | some old =>
    obtain ⟨hlt, rfl⟩ := connectionHandler_of_getLast? hlast
    refine Or.inr ⟨hlt, ?_, rfl⟩
    rw [session_begun]
    exact Nat.ne_of_lt hlt

/-- `async_start()` of a connector whose last session is over, or waits for its own end. -/
theorem spares_asyncStart (callback : Option StartedCallback)
    (hready : c.connectionHandlerReady = false)
    (hover : c.connectionHandler.state = .eNotConnected ∨ c.connectionHandler.waiting = true) :
    Spares (c.begun callback c.handlers) (c.asyncStart callback) := by
  rcases asyncStart_eq callback hready with ⟨-, heq⟩ | ⟨-, hne, heq⟩
  · exact heq ▸ (Quiet.refl _).spares
  · rw [heq]
    have hset := spares_setHandler_of_ne (c := c.begun callback c.handlers)
      c.connectionHandler.stop.1 hne
    simp only [Connector.handle]
    by_cases hstate : c.connectionHandler.state = .eNotConnected
    · rw [ConnectionHandler.stop_of_stopped hstate]
      exact hset
    · obtain ⟨hloop, hwaits⟩ := ConnectionHandler.stop_of_ne hstate
      simp only [hloop, hwaits, hover.resolve_left hstate, if_true]
      exact hset.trans (spares_of_eq rfl rfl rfl rfl)

/-- `async_start()` of a connector whose last session is ended by it. -/
theorem disturbed_asyncStart (callback : Option StartedCallback)
    (hready : c.connectionHandlerReady = false)
    (hstate : c.connectionHandler.state ≠ .eNotConnected)
    (hwaits : c.connectionHandler.waiting = false) : (c.asyncStart callback).Disturbed := by
  have hlt := session_lt_of_state hstate
  rcases asyncStart_eq callback hready with ⟨hnil, -⟩ | ⟨-, hne, heq⟩
  · simp [hnil] at hlt
  · rw [heq]
    obtain ⟨hloop, hwaits'⟩ := ConnectionHandler.stop_of_ne hstate
    simp only [Connector.handle, hloop, hwaits', hwaits, Bool.false_eq_true, if_false]
    refine disturbed_finish (c := (c.begun callback c.handlers).setHandler c.session _) ?_ rfl
      hready ?_
    · exact (attempting_setHandler_of_ne _ hne).mpr (attempting_begun c callback)
    · rwa [session_setHandler]

/-- An event that begins a session comes to `async_start()`. -/
theorem exists_asyncStart {e : Event} (hstarts : c.StartsSession e)
    (hoccur : c.occur e = some c') : ∃ (c₀ : Connector) (callback : Option StartedCallback),
      c' = c₀.asyncStart callback ∧ c₀.handlers = c.handlers ∧
        c₀.connectionHandlerReady = false ∧ ∀ s, exitCodes s c₀.log = exitCodes s c.log := by
  cases e with
  | asyncStart callback =>
    obtain rfl := Option.some.inj hoccur
    exact ⟨c, _, rfl, rfl, hstarts, fun _ ↦ rfl⟩
  | start =>
    obtain rfl := Option.some.inj hoccur
    have hready : c.connectionHandlerReady = false := hstarts
    refine ⟨c.push (.startLoop false), none, ?_, rfl, hready, fun _ ↦ rfl⟩
    rw [Connector.start, if_neg (by simp [hready])]
  | autoStart callback =>
    obtain rfl := Option.some.inj hoccur
    obtain ⟨hstarted, hready⟩ := hstarts
    simp only [Connector.autoStart]
    rw [if_neg (by simp [hstarted])]
    refine ⟨_, _, rfl, rfl, hready, fun s ↦ ?_⟩
    change exitCodes s (c.log ++ [.startAccepted]) = _
    rw [exitCodes_append]
    exact List.append_nil _
  | timerHandler =>
    obtain ⟨-, hoccur⟩ := Option.ite_none_left_eq_some.mp hoccur
    obtain rfl := Option.some.inj hoccur
    exact ⟨_, _, rfl, rfl, hstarts, fun _ ↦ rfl⟩
  | _ => exact hstarts.elim

/-! ### The condition -/

/-- If the event begins a session, the last one is over or waits for a read or a write to end; and
no `onError()` or `onClosed()` ends the shutdown of an earlier session during an attempt. -/
def SparesAttempt (c : Connector) (e : Event) : Prop :=
  (c.StartsSession e →
    c.connectionHandler.state = .eNotConnected ∨ c.connectionHandler.waiting = true) ∧
  (c.Attempting → ∀ session e', e = .handler session e' →
    (c.handler session).waiting = true ∨ (c.handler session).Undisturbed e')

theorem Quiet.sparesAttempt_iff {e : Event} (hquiet : Quiet c c') :
    c'.SparesAttempt e ↔ c.SparesAttempt e := by
  unfold SparesAttempt
  rw [hquiet.startsSession_iff, attempting_of_handlers hquiet.handlers]
  simp only [connectionHandler, handler, Connector.session, hquiet.handlers]

/-- An event that begins no session. -/
theorem spares_occur {e : Event} (hwf : c.WellFormed spent) (hspares : c.SparesAttempt e)
    (hstarts : ¬ c.StartsSession e) (hoccur : c.occur e = some c') : Spares c c' := by
  have hready {c₀ : Connector} (callback : Option StartedCallback)
      (hnot : ¬ c.connectionHandlerReady = false)
      (hsame : c₀.connectionHandlerReady = c.connectionHandlerReady) :
      c₀.asyncStart callback = c₀ := by
    rw [Bool.not_eq_false] at hnot
    exact asyncStart_of_ready (hsame.trans hnot)
  cases e with
  | remove =>
    obtain rfl := Option.some.inj hoccur
    exact spares_of_eq rfl rfl rfl rfl
  | run => exact Option.some.inj hoccur ▸ (quiet_run c).spares
  | asyncStart callback =>
    obtain rfl := Option.some.inj hoccur
    rw [hready _ hstarts rfl]
    exact (Quiet.refl c).spares
  | start =>
    obtain rfl := Option.some.inj hoccur
    rw [Connector.start, if_pos (by simpa [StartsSession] using hstarts)]
    exact (Quiet.refl c).spares
  | stop =>
    obtain rfl := Option.some.inj hoccur
    unfold Connector.stop
    split <;> exact spares_of_eq rfl rfl rfl rfl
  | onExit f =>
    obtain rfl := Option.some.inj hoccur
    exact spares_of_aside [.installed f] rfl rfl rfl rfl (by simp [Observation.isAside])
  | autoStart callback =>
    obtain rfl := Option.some.inj hoccur
    simp only [Connector.autoStart]
    split
    · exact (Quiet.refl c).spares
    · next hstarted =>
      rw [hready _ (fun hready ↦ hstarts ⟨by simpa using hstarted, hready⟩) (by rfl)]
      exact spares_of_aside [.startAccepted] rfl rfl rfl rfl (by simp [Observation.isAside])
  | autoStop =>
    obtain rfl := Option.some.inj hoccur
    have hcalled : Spares c (c.record .stopCalled) :=
      spares_of_aside [.stopCalled] rfl rfl rfl rfl (by simp [Observation.isAside])
    simp only [Connector.autoStop]
    split
    · exact hcalled
    · split
      · refine hcalled.trans ?_
        unfold Connector.stop
        split <;> exact spares_of_eq rfl rfl rfl rfl
      · exact hcalled.trans (spares_of_eq rfl rfl rfl rfl)
  | handler session e =>
    obtain ⟨⟨hlt, -⟩, hoccur⟩ := Option.ite_none_right_eq_some.mp hoccur
    obtain ⟨r, hmethod, rfl⟩ := Option.map_eq_some_iff.mp hoccur
    have htransition := ConnectionHandler.transition_method hmethod
    intro hattempting
    by_cases hwaits : session ≠ c.session → r.2 = .shutdownLoop → r.1.waiting = true
    · exact spares_handle hwf hlt htransition hwaits hattempting
    · simp only [Classical.not_imp, Bool.not_eq_true] at hwaits
      obtain ⟨hne, hloop, hidle⟩ := hwaits
      obtain ⟨hattempting', hstate⟩ := attempting_handle_finish hwf hlt htransition hne hloop hidle
        hattempting
      obtain ⟨hdisturbed, hsame⟩ := ConnectionHandler.waiting_of_shutdownLoop hmethod hstate hloop
      rcases hspares.2 hattempting' session e rfl with hwaits | hundisturbed
      · simp [hsame, hwaits] at hidle
      · exact absurd hundisturbed hdisturbed
  | posted k =>
    obtain ⟨issued, -, rfl⟩ := Option.map_eq_some_iff.mp hoccur
    exact spares_of_eq rfl rfl rfl rfl
  | timerExpires =>
    obtain ⟨-, hoccur⟩ := Option.ite_none_right_eq_some.mp hoccur
    obtain rfl := Option.some.inj hoccur
    exact spares_of_eq rfl rfl rfl rfl
  | timerHandler =>
    obtain ⟨-, hoccur⟩ := Option.ite_none_left_eq_some.mp hoccur
    obtain rfl := Option.some.inj hoccur
    rw [hready _ hstarts (by rfl)]
    exact spares_of_eq rfl rfl rfl rfl

/-- A session begins, and spares what has been in progress. -/
theorem spared_of_starts {e : Event} (hspares : c.SparesAttempt e) (hstarts : c.StartsSession e)
    (hoccur : c.occur e = some c') : Spared c c' := by
  have hover := hspares.1 hstarts
  obtain ⟨c₀, callback, rfl, hhandlers, hready, hexits⟩ := exists_asyncStart hstarts hoccur
  have hsame : c₀.connectionHandler = c.connectionHandler := by
    simp only [connectionHandler, handler, Connector.session, hhandlers]
  have hbegins := (spares_asyncStart callback hready (hsame ▸ hover)).spared
  refine ⟨fun _ ↦ hbegins.unready fun _ ↦ hready, fun _ hattempting ↦ ?_⟩
  obtain ⟨hsentinel, hexits'⟩ := hbegins.kept (fun _ ↦ rfl) hattempting
  exact ⟨hsentinel, fun s ↦ (hexits' s).trans (hexits s)⟩

/-- An event that does not spare the attempt disturbs the one that is in progress after it. -/
theorem disturbed_occur {e : Event} (h : c.Unready) (hwf : c.WellFormed spent)
    (hspares : ¬ c.SparesAttempt e) (hoccur : c.occur e = some c') : c'.Disturbed := by
  by_cases hstarts : c.StartsSession e ∧
      ¬ (c.connectionHandler.state = .eNotConnected ∨ c.connectionHandler.waiting = true)
  · obtain ⟨hstarts, hnot⟩ := hstarts
    rw [not_or, Bool.not_eq_true] at hnot
    obtain ⟨c₀, callback, rfl, hhandlers, hready, -⟩ := exists_asyncStart hstarts hoccur
    have hsame : c₀.connectionHandler = c.connectionHandler := by
      simp only [connectionHandler, handler, Connector.session, hhandlers]
    exact disturbed_asyncStart callback hready (hsame ▸ hnot.1) (hsame ▸ hnot.2)
  · rw [Classical.not_and_iff_not_or_not, not_not, or_iff_not_imp_left, not_not] at hstarts
    have hrest : ¬ _ := fun hrest ↦ hspares ⟨hstarts, hrest⟩
    simp only [Classical.not_imp, not_forall, not_or, Bool.not_eq_true] at hrest
    obtain ⟨hattempting, session, e', rfl, hidle, hdisturbed⟩ := hrest
    obtain ⟨⟨hlt, -⟩, hoccur⟩ := Option.ite_none_right_eq_some.mp hoccur
    obtain ⟨r, hmethod, rfl⟩ := Option.map_eq_some_iff.mp hoccur
    have hloop := ConnectionHandler.shutdownLoop_of_disturbed hmethod hdisturbed
    have hstate : (c.handler session).state = .eShutdown := by
      by_contra hstate
      exact hdisturbed fun hs ↦ absurd hs hstate
    have hne : session ≠ c.session := by
      rintro rfl
      exact ConnectionHandler.not_establishing_of_over (Or.inr hstate) hattempting
    have hsame := (ConnectionHandler.waiting_of_shutdownLoop hmethod hstate hloop).2
    have hexiting : c.exiting = false := by
      by_contra hexiting
      exact ConnectionHandler.not_establishing_of_over (hwf.exiting (by simpa using hexiting))
        hattempting
    simp only [Connector.handle, hloop, hsame, hidle, Bool.false_eq_true, if_false]
    refine disturbed_finish (c := c.setHandler session r.1) ?_ hexiting (h hattempting) ?_
    · exact (attempting_setHandler_of_ne r.1 hne).mpr hattempting
    · rwa [session_setHandler]

/-! ### Tasks -/

theorem spares_stopHandler (c : Connector) (issued : ℕ) : Spares c (c.stopHandler issued) := by
  unfold Connector.stopHandler
  split
  · next hstopped =>
    have hover : c.connectionHandler.Over :=
      Or.inl (by simpa [ConnectionHandler.stopped] using hstopped)
    split
    · intro hattempting
      have hhandlers := (plain_disconnected_exit (c.record (.acted issued c.session)) c.session
        .eNormal).handlers
      rw [attempting_of_handlers hhandlers] at hattempting
      exact absurd hattempting (ConnectionHandler.not_establishing_of_over hover)
    · exact (Quiet.refl c).spares
  · next hstopped =>
    have hlt : c.session < c.handlers.length := by
      refine session_lt_of_state ?_
      simpa [ConnectionHandler.stopped] using hstopped
    have hacted : Spares c { c.record (.acted issued c.session) with exiting := true } :=
      fun hattempting ↦ ⟨hattempting, id, rfl, fun s ↦ exitCodes_record_acted c s issued c.session⟩
    refine hacted.trans (spares_handle_session ?_ ?_)
    · exact hlt
    · exact ConnectionHandler.transition_stop c.connectionHandler

/-- The task ends no session. -/
def Task.isEnd : Task → Bool
  | .shutdown _ | .drop _ => true
  | _ => false

theorem spares_perform {task : Task} {stack : List Frame} (hwf : c.WellFormed spent)
    (htasks : c.tasks = task :: { c with stack := stack }.tasks)
    (hspares : c.Attempting → task.isEnd = false) :
    Spares c (task.perform { c with stack := stack }) := by
  have hwork := work_of_tasks htasks
  have hpop : Spares c { c with stack := stack } := spares_of_eq rfl rfl rfl rfl
  cases task with
  | shutdown session =>
    obtain ⟨hlt, -⟩ := hwf.loops session (by simp [hwork, Task.isWork])
    intro hattempting
    have hbefore : c.Attempting :=
      (attempting_finish (c := { c with stack := stack }) hlt hattempting).2
    exact absurd (hspares hbefore) (by simp [Task.isEnd])
  | drop session =>
    intro hattempting
    have hhandlers := (plain_disconnected_exit { c with stack := stack } session
      .eAmqpError).handlers
    have hbefore : c.Attempting := (attempting_of_handlers hhandlers).mp hattempting
    exact absurd (hspares hbefore) (by simp [Task.isEnd])
  | stopHandler issued => exact hpop.trans (spares_stopHandler _ issued)
  | restart code => exact hpop.trans ((alike_restart _ code).spares (calls_restart _ code).sentinel)
  | stop | backup | autoStop => exact spares_of_eq rfl rfl rfl rfl
  | autoStart =>
    exact spares_of_aside [.startReturned] rfl rfl rfl rfl (by simp [Observation.isAside])

/-- A session that ends during an attempt disturbs it. -/
theorem disturbed_perform {task : Task} {stack : List Frame} (h : c.Unready)
    (hwf : c.WellFormed spent) (htasks : c.tasks = task :: { c with stack := stack }.tasks)
    (hattempting : c.Attempting) (hend : task.isEnd = true) :
    (task.perform { c with stack := stack }).Disturbed := by
  have hwork := work_of_tasks htasks
  cases task with
  | shutdown session =>
    have hover := (hwf.loops session (by simp [hwork, Task.isWork])).2.1
    refine disturbed_finish (c := { c with stack := stack }) hattempting ?_ (h hattempting) ?_
    · by_contra hexiting
      exact ConnectionHandler.not_establishing_of_over (hwf.exiting (by simpa using hexiting))
        hattempting
    · rintro rfl
      exact ConnectionHandler.not_establishing_of_over hover hattempting
  | drop session => exact disturbed_drop (c := { c with stack := stack }) hattempting session
  | stop | stopHandler | restart | backup | autoStart | autoStop => cases hend

end Connector

namespace Program

open Connector

variable {τ ε : Type} [TransceiverImpl τ ε] {p p' : Program τ} {e : Event ε} {spent : ℕ → Prop}

/-- An attempt in progress holds `m_sentinel` after the event, and the event has not reported
`eBrokerConnectError`. -/
def KeepsAttempt (p : Program τ) (e : Event ε) : Prop :=
  ∀ p', p.step e = some p' → p'.connector.Attempting → p'.connector.sentinel = true ∧
    ∀ s, (exitCodes s p'.connector.log).count .eBrokerConnectError ≤
      (exitCodes s p.connector.log).count .eBrokerConnectError

/-- No event ends an earlier session while an attempt is in progress, and none begins an attempt by
ending one. -/
def SparesAttempt (p : Program τ) : Event ε → Prop
  | .connector e => p.connector.SparesAttempt e
  | .resume => p.connector.Attempting → ∀ task, p.connector.due = some task → task.isEnd = false
  | _ => True

/-- The event begins a session. -/
def StartsSession (p : Program τ) (e : Event ε) : Prop :=
  ∃ e', e = .connector e' ∧ p.connector.StartsSession e'

/-- An event that spares the attempt, and begins none. -/
theorem spares_step (hwf : p.connector.WellFormed spent) (hspares : p.SparesAttempt e)
    (hstarts : ¬ p.StartsSession e) (hstep : p.step e = some p') :
    Spares p.connector p'.connector := by
  have hmoves := moves_of_step hstep
  generalize p'.connector = c' at hmoves
  cases hmoves with
  | quiet he hquiet => exact hquiet.spares
  | @occur e _ _ hquiet hoccur =>
    refine hquiet.spares.trans (spares_occur (hwf.alike hquiet.alike) ?_ ?_ hoccur)
    · exact hquiet.sparesAttempt_iff.mpr hspares
    · exact fun h ↦ hstarts ⟨e, rfl, hquiet.startsSession_iff.mp h⟩
  | @parsed parsed expected session c₁ r hquiet hparsed =>
    have hloop := ConnectionHandler.onParsed_ne_shutdownLoop hparsed
    have htransition := ConnectionHandler.transition_onParsed hparsed
    refine hquiet.spares.trans ?_
    by_cases hlt : session < c₁.handlers.length
    · exact spares_handle (hwf.alike hquiet.alike) hlt htransition fun _ h ↦ absurd h hloop
    · rw [handler_of_le (Nat.not_lt.mp hlt)] at hparsed
      obtain rfl := Option.some.inj hparsed
      rw [Connector.handle, setHandler_of_le (Nat.not_lt.mp hlt)]
      exact (Quiet.refl c₁).spares
  | @shutdownCb session c₁ hquiet =>
    refine hquiet.spares.trans ?_
    by_cases hlt : session < c₁.handlers.length
    · exact (alike_setHandler hlt (fun hsound ↦ hsound.endShutdownCb) rfl).spares rfl
    · rw [setHandler_of_le (Nat.not_lt.mp hlt)]
      exact (Quiet.refl c₁).spares
  | perform hdue hwaits htasks =>
    exact spares_perform hwf htasks fun hattempting ↦ hspares hattempting _ hdue

/-- After an event that spares the attempt, the one that is in progress has been spared. -/
theorem spared_step (hwf : p.connector.WellFormed spent) (hspares : p.SparesAttempt e)
    (hstep : p.step e = some p') : Spared p.connector p'.connector := by
  by_cases hstarts : p.StartsSession e
  · obtain ⟨e', rfl, hstarts⟩ := hstarts
    have hmoves := moves_of_step hstep
    generalize p'.connector = c' at hmoves
    cases hmoves with
    | quiet he hquiet => exact absurd rfl (he e')
    | occur hquiet hoccur =>
      refine hquiet.spared (spared_of_starts ?_ ?_ hoccur)
      · exact hquiet.sparesAttempt_iff.mpr hspares
      · exact hquiet.startsSession_iff.mpr hstarts
  · exact (spares_step hwf hspares hstarts hstep).spared

/-- Only `async_start()` begins an attempt. -/
theorem attempting_step (hwf : p.connector.WellFormed spent) (hstarts : ¬ p.StartsSession e)
    (hstep : p.step e = some p') (hattempting : p'.connector.Attempting) :
    p.connector.Attempting := by
  by_contra hnot
  have hspares : p.SparesAttempt e := by
    cases e with
    | connector e => exact ⟨fun h ↦ absurd ⟨e, rfl, h⟩ hstarts, fun h ↦ absurd h hnot⟩
    | resume => exact fun h ↦ absurd h hnot
    | _ => trivial
  exact hnot (spares_step hwf hspares hstarts hstep hattempting).attempting

/-- An event that does not spare the attempt disturbs the one that is in progress after it. -/
theorem disturbed_step (hwf : p.connector.WellFormed spent) (hunready : p.connector.Unready)
    (hspares : ¬ p.SparesAttempt e) (hstep : p.step e = some p') : p'.connector.Disturbed := by
  cases e with
  | resume =>
    simp only [SparesAttempt, Classical.not_imp, not_forall, Bool.not_eq_false] at hspares
    obtain ⟨hattempting, task, hdue, hend⟩ := hspares
    obtain ⟨rest, htasks, hperform⟩ := perform_of_due hdue hstep
    exact hperform ▸ disturbed_perform hunready hwf htasks hattempting hend
  | connector e =>
    have hmoves := moves_of_step hstep
    generalize p'.connector = c' at hmoves
    cases hmoves with
    | quiet he hquiet => exact absurd rfl (he e)
    | occur hquiet hoccur =>
      refine disturbed_occur (hquiet.spares.spared.unready hunready) (hwf.alike hquiet.alike) ?_
        hoccur
      exact fun h ↦ hspares (hquiet.sparesAttempt_iff.mp h)
  | _ => exact absurd trivial hspares

/-- No step makes a connector ready while an attempt is in progress. -/
theorem unready_step (hwf : p.connector.WellFormed spent) (hunready : p.connector.Unready)
    (hstep : p.step e = some p') : p'.connector.Unready := by
  by_cases hspares : p.SparesAttempt e
  · exact (spared_step hwf hspares hstep).unready hunready
  · exact fun _ ↦ (disturbed_step hwf hunready hspares hstep).ready

theorem not_attempting_new : ¬ Connector.new.Attempting := by
  rintro (hs | hs) <;> cases hs

/-- What holds of a connector after a run that has spared every attempt. -/
structure Attended (p : Program τ) : Prop where
  wellFormed : p.connector.WellFormed fun _ ↦ False
  unready : p.connector.Unready
  guarded : p.connector.Guarded

/-- An event keeps the attempt exactly when it spares it. -/
theorem keepsAttempt_iff_spares (h : p.Attended) (hstep : p.step e = some p') :
    p.KeepsAttempt e ↔ p.SparesAttempt e := by
  constructor
  · intro hkeeps
    by_contra hspares
    obtain ⟨hattempting, hsentinel, -⟩ := disturbed_step h.wellFormed h.unready hspares hstep
    simp [(hkeeps p' hstep hattempting).1] at hsentinel
  · intro hspares other hother hattempting
    obtain ⟨hsentinel, hexits⟩ := (spared_step h.wellFormed hspares hother).kept h.guarded
      hattempting
    exact ⟨hsentinel, fun s ↦ Nat.le_of_eq (by rw [hexits s])⟩

theorem Attended.spares (h : p.Attended) (hspares : p.SparesAttempt e)
    (hstep : p.step e = some p') : p'.Attended where
  wellFormed := wellFormed_step h.wellFormed hstep
  unready := unready_step h.wellFormed h.unready hstep
  guarded hattempting :=
    ((spared_step h.wellFormed hspares hstep).kept h.guarded hattempting).1

theorem attended_initial : (initial τ).Attended where
  wellFormed := wellFormed_new
  unready hattempting := absurd hattempting not_attempting_new
  guarded hattempting := absurd hattempting not_attempting_new

/-- A run keeps every attempt exactly when each of its events spares the attempt in progress. -/
theorem keepsAttempts_iff {es : List (Event ε)} (hrun : (machine τ).run (initial τ) es = some p) :
    (machine τ).Meets KeepsAttempt (initial τ) es ↔
      (machine τ).Meets SparesAttempt (initial τ) es :=
  Machine.meets_congr (J := Attended) (fun _ _ _ h hspares hstep ↦ h.spares hspares hstep)
    (fun _ _ _ h hstep ↦ keepsAttempt_iff_spares h hstep) hrun attended_initial

/-- An attempt that fails is over before the next one begins. -/
theorem keepsAttempts_unreachable :
    ∃ p, (machine Transceiver).run (initial Transceiver) unreachable = some p ∧
      p.connector.Attempting ∧ p.connector.sentinel = true ∧
        exitCodes 0 p.connector.log = [.eBrokerConnectError] ∧
          (machine Transceiver).Meets KeepsAttempt (initial Transceiver) unreachable := by
  obtain ⟨p, hrun, hattempting, hsentinel, hexits⟩ :
      ∃ p, (machine Transceiver).run (initial Transceiver) unreachable = some p ∧
        p.connector.Attempting ∧ p.connector.sentinel = true ∧
          exitCodes 0 p.connector.log = [.eBrokerConnectError] :=
    ⟨_, rfl, Or.inl rfl, rfl, by decide⟩
  refine ⟨p, hrun, hattempting, hsentinel, hexits, (keepsAttempts_iff hrun).mpr ?_⟩
  have hspares {p : Program Transceiver} {e : Connector.Event}
      (hover : p.connector.connectionHandler.state = .eNotConnected)
      (hhandler : ∀ session e', e ≠ .handler session e') :
      p.SparesAttempt (.connector e : Event Transceiver.Event) :=
    ⟨fun _ ↦ Or.inl hover, fun _ session e' he ↦ absurd he (hhandler session e')⟩
  refine Machine.meets_cons (hspares rfl (by simp)) rfl ?_
  refine Machine.meets_cons (hspares rfl (by simp)) rfl ?_
  refine Machine.meets_cons ⟨fun hstarts ↦ hstarts.elim, ?_⟩ rfl ?_
  · rintro - session e ⟨⟩
    exact Or.inr (by simp [ConnectionHandler.Undisturbed])
  · refine Machine.meets_cons (fun _ _ hdue ↦ by cases hdue) rfl ?_
    refine Machine.meets_cons (fun _ _ hdue ↦ by cases hdue) rfl ?_
    exact Machine.meets_cons (hspares rfl (by simp)) rfl trivial

/-- The application starts again while the address is still being resolved. -/
def startedTwice : List (Event Transceiver.Event) :=
  [.connector (.onExit (some 7)), .connector (.asyncStart false), .connector (.asyncStart false)]

/-- The first attempt is reported to have failed while the second is in progress, which does not
hold `m_sentinel`. -/
theorem not_keepsAttempts_startedTwice :
    ∃ p, (machine Transceiver).run (initial Transceiver) startedTwice = some p ∧
      p.connector.Attempting ∧ p.connector.sentinel = false ∧
        exitCodes 0 p.connector.log = [.eBrokerConnectError] ∧
          ¬ (machine Transceiver).Meets KeepsAttempt (initial Transceiver) startedTwice := by
  refine ⟨_, rfl, Or.inl rfl, rfl, by decide, fun hkeeps ↦ ?_⟩
  have hlast := ((hkeeps.2 _ rfl).2 _ rfl).1 _ rfl (Or.inl rfl)
  cases hlast.1

end Program

end AmqpAsio
