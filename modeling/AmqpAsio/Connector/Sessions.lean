import AmqpAsio.ConnectionHandler.ShutdownCallback
import AmqpAsio.Connector.Work

/-!
# Sessions of a connector

The exit callback should be called at most once per session, and a `stop()` of one session should
not shut down another. Both can fail: the handlers that `stop()` posts do not know the session they
were posted in, a `stop()` that reaches a handler in the middle of a shutdown shuts it down a second
time, and one that acts while the transceivers are being dropped ends the session a second time. As
long as none of this happens, the sessions are kept apart.
-/

set_option autoImplicit false
set_option relaxedAutoImplicit false

namespace AmqpAsio

namespace Connector

variable {c c' : Connector}

/-- The exit callback has been called at most once per session, and no `stop()` has ended a session
later than the one it was issued in. -/
structure SessionsApart (c : Connector) : Prop where
  exits : ∀ session, (exitCodes session c.log).length ≤ 1
  acted : ∀ issued session, .acted issued session ∈ c.log → session ≤ issued

/-- No call of `stop()` is under way, and no handler posted by one is queued or running. -/
def NoStop (c : Connector) : Prop :=
  c.posted = [] ∧ ∀ issued, .stop issued ∉ c.tasks ∧ .stopHandler issued ∉ c.tasks

/-- The event calls `async_start()`, which is accepted unless the connector is ready. -/
def StartsSession (c : Connector) : Event → Prop
  | .asyncStart _ | .start | .timerHandler => c.connectionHandlerReady = false
  | .autoStart _ => c.auto.started = false ∧ c.connectionHandlerReady = false
  | _ => False

/-- No `onError()` or `onClosed()` reaches a handler that is shutting down, and no session begins
while a `stop()` is outstanding. -/
def InOrder (c : Connector) (e : Event) : Prop :=
  (∀ session e', e = .handler session e' → (c.handler session).Undisturbed e') ∧
    (c.StartsSession e → c.NoStop)

/-- The handler posted by a `stop()` does not act while the connection is being shut down or the
transceivers are being dropped. -/
def ActsInOrder (c : Connector) : Prop :=
  ∀ issued, c.due = some (.stopHandler issued) →
    c.connectionHandler.state ≠ .eShutdown ∧ ∀ session, .drop session ∉ c.tasks

/-! ### The invariant -/

/-- The handlers of the earlier sessions are stopped, a connected connector is ready, the present
handler is in one loop while it shuts down, at most one loop drops the transceivers, of a session
that has ended and not been answered, every outstanding `stop()` is of the present session, and the
present session has not been answered as long as it is not over. -/
structure Orderly (c : Connector) : Prop where
  sound : ∀ h ∈ c.handlers, h.Sound
  others : ∀ i, i < c.session → (c.handler i).state = .eNotConnected
  ready : c.connectionHandler.connected = true → c.connectionHandlerReady = true
  nonempty : c.connectionHandlerReady = true → c.session < c.handlers.length
  loops : ∀ i, c.work.count (.shutdown i) =
    if i = c.session ∧ c.connectionHandler.state = .eShutdown then 1 else 0
  drops : ∀ i, .drop i ∈ c.work →
    i = c.session ∧ c.connectionHandlerReady = true ∧ c.connectionHandler.state = .eNotConnected
  dropsOnce : ∀ i, c.work.count (.drop i) ≤ 1
  posted : ∀ issued ∈ c.posted, issued = c.session
  issued : ∀ issued, .stop issued ∈ c.work ∨ .stopHandler issued ∈ c.work → issued = c.session
  exits : ∀ i, (exitCodes i c.log).length ≤ 1
  unanswered : ∀ i, c.handlers.length ≤ i ∨ i = c.session ∧
    (c.connectionHandlerReady = true ∨ c.connectionHandler.state ≠ .eNotConnected) →
      exitCodes i c.log = []
  acted : ∀ issued session, .acted issued session ∈ c.log → issued = session

theorem Orderly.alike (h : c.Orderly) (halike : Alike c c') : c'.Orderly where
  sound := halike.sound h.sound
  others i hi := by
    rw [halike.states]
    exact h.others i (halike.session ▸ hi)
  ready hconnected := by
    rw [halike.ready]
    refine h.ready ?_
    rwa [ConnectionHandler.connected_iff, halike.state, ← ConnectionHandler.connected_iff]
    at hconnected
  nonempty hready := by
    rw [halike.session, halike.length]
    exact h.nonempty (halike.ready ▸ hready)
  loops i := by
    rw [halike.work, halike.session, halike.state]
    exact h.loops i
  drops i hi := by
    rw [halike.work] at hi
    rw [halike.session, halike.ready, halike.state]
    exact h.drops i hi
  dropsOnce i := by
    rw [halike.work]
    exact h.dropsOnce i
  posted := by
    rw [halike.posted, halike.session]
    exact h.posted
  issued := by
    rw [halike.work, halike.session]
    exact h.issued
  exits i := by
    rw [halike.exits]
    exact h.exits i
  unanswered i hi := by
    rw [halike.exits]
    rw [halike.length, halike.session, halike.ready, halike.state] at hi
    exact h.unanswered i hi
  acted issued session hacted := h.acted issued session ((halike.acts issued session).mp hacted)

/-! ### Ending a session -/

/-- A session that is over and has not been answered is answered. -/
theorem Orderly.exit {session : ℕ} (h : c.Orderly) (hlt : session < c.handlers.length)
    (hexits : exitCodes session c.log = [])
    (hover : session = c.session →
      c.connectionHandlerReady = false ∧ c.connectionHandler.state = .eNotConnected)
    (code : ExitCode) : (c.exit session code).Orderly := by
  rcases alike_exit c session code with halike | halike
  · exact h.alike halike
  · refine Orderly.alike ?_ halike
    have hlog (i : ℕ) := exitCodes_record_exit c i session code
    refine { h with exits := fun i ↦ ?_, unanswered := fun i hi ↦ ?_, acted := ?_ }
    · rw [hlog]
      by_cases hi : session = i
      · subst hi
        simp [hexits]
      · simpa [hi] using h.exits i
    · have hne : session ≠ i := by
        rintro rfl
        rcases hi with hle | ⟨hcurrent, hopen⟩
        · exact absurd hlt (Nat.not_lt.mpr hle)
        · obtain ⟨hready, hstate⟩ := hover hcurrent
          exact hopen.elim (fun h ↦ by simp [record, hready] at h) fun h ↦ h hstate
      rw [hlog, if_neg hne, List.append_nil]
      exact h.unanswered i hi
    · intro issued i hacted
      rw [record, List.mem_append] at hacted
      exact h.acted issued i (hacted.resolve_right (by simp))

/-- The connection is over, and no loop is dropping the transceivers. -/
theorem Orderly.disconnected (h : c.Orderly) (hstate : c.connectionHandler.state = .eNotConnected)
    (hdrops : ∀ i, .drop i ∉ c.work) : c.disconnected.Orderly :=
  { h with
    ready := fun hconnected ↦ by
      have hstate' : c.disconnected.connectionHandler.state = .eNotConnected := hstate
      simp [ConnectionHandler.connected, hstate'] at hconnected
    nonempty := fun hready ↦ by cases hready
    drops := fun i hi ↦ absurd hi (hdrops i)
    unanswered := fun i hi ↦ h.unanswered i (hi.imp_right fun ⟨hi, hopen⟩ ↦
      ⟨hi, Or.inr (hopen.resolve_left (by simp [Connector.disconnected]))⟩) }

/-- A `stop()` of the present session, or its handler, begins to wait for the transceivers. -/
theorem Orderly.pushStop {f : Frame} {task : Task} (h : c.Orderly) (hf : f.task = some task)
    (htask : task = .stop c.session ∨ task = .stopHandler c.session) : (c.push f).Orderly := by
  have hwork : (c.push f).work = task :: c.work := by
    rw [work_push, hf]
    rcases htask with rfl | rfl <;> rfl
  have hne (other : Task) (hstop : ∀ k, other ≠ .stop k) (hhandler : ∀ k, other ≠ .stopHandler k) :
      task ≠ other := by
    rintro rfl
    exact htask.elim (hstop _) (hhandler _)
  refine { h with
    loops := fun i ↦ ?_, drops := fun i hi ↦ ?_, dropsOnce := fun i ↦ ?_, issued := fun k hk ↦ ?_ }
  · rw [hwork, List.count_cons_of_ne (hne _ (by simp) (by simp))]
    exact h.loops i
  · rw [hwork, List.mem_cons] at hi
    exact h.drops i (hi.resolve_left (hne _ (by simp) (by simp)).symm)
  · rw [hwork, List.count_cons_of_ne (hne _ (by simp) (by simp))]
    exact h.dropsOnce i
  · rw [hwork, List.mem_cons, List.mem_cons] at hk
    rcases hk with (hk | hk) | hk | hk
    · rcases htask with rfl | rfl
      exacts [Task.stop.inj hk, absurd hk (by simp)]
    · exact h.issued k (Or.inl hk)
    · rcases htask with rfl | rfl
      exacts [absurd hk (by simp), Task.stopHandler.inj hk]
    · exact h.issued k (Or.inr hk)

theorem Orderly.stop (h : c.Orderly) : c.stop.Orderly := by
  unfold Connector.stop
  split
  · exact h
  · exact h.pushStop rfl (Or.inl rfl)

/-- A session that is over, not answered and not being dropped comes to `onShutdown`. -/
theorem Orderly.onShutdown {session : ℕ} (h : c.Orderly) (hlt : session < c.handlers.length)
    (hexits : exitCodes session c.log = []) (hdrops : ∀ i, .drop i ∉ c.work)
    (hcurrent : session = c.session ∧ c.connectionHandler.state = .eNotConnected ∨
      session ≠ c.session ∧ c.exiting = false ∧ c.connectionHandlerReady = false) :
    (c.onShutdown session).Orderly := by
  unfold Connector.onShutdown
  split
  · next hexiting =>
    obtain ⟨-, hstate⟩ := hcurrent.resolve_right fun h ↦ by simp [h.2.1] at hexiting
    exact (h.disconnected hstate hdrops).exit hlt hexits (fun _ ↦ ⟨rfl, hstate⟩) _
  · split
    · next hready =>
      have hready' : c.connectionHandlerReady = false := by simpa using hready
      have hover : session = c.session →
          c.connectionHandlerReady = false ∧ c.connectionHandler.state = .eNotConnected := by
        rintro rfl
        exact ⟨hready', (hcurrent.resolve_right fun h ↦ h.1 rfl).2⟩
      refine Orderly.exit (c := { c with amqpConnection := none, sentinel := false }) ?_ hlt hexits
        hover _
      exact { h with }
    · next hready =>
      have hready' : c.connectionHandlerReady = true := by simpa using hready
      obtain ⟨rfl, hstate⟩ := hcurrent.resolve_right fun h ↦ by simp [h.2.2] at hready'
      split
      · have hwork : (c.push (.forEach (.drop c.session) c.transceivers)).work =
            .drop c.session :: c.work := rfl
        refine { h with
          loops := fun i ↦ ?_, drops := fun i hi ↦ ?_, dropsOnce := fun i ↦ ?_, issued := ?_ }
        · rw [hwork, List.count_cons_of_ne (by simp)]
          exact h.loops i
        · rw [hwork, List.mem_cons] at hi
          obtain rfl : i = c.session := by simpa using hi.resolve_right (hdrops i)
          exact ⟨rfl, hready', hstate⟩
        · rw [hwork, List.count_cons, List.count_eq_zero.mpr (hdrops i)]
          split <;> simp
        · intro k hk
          rw [hwork] at hk
          exact h.issued k (by simpa using hk)
      · exact h.stop

/-- The connection of the present session is over: its handler is back in `eNotConnected`, out of
its loop, and calls `m_shutdownCb`. -/
theorem Orderly.shutdownCb {v : ConnectionHandler} (stack : List Frame) (h : c.Orderly)
    (hstate : c.connectionHandler.state ≠ .eNotConnected) (hsound : v.Sound)
    (hv : v.state = .eNotConnected) (hsub : ∀ task ∈ { c with stack := stack }.work, task ∈ c.work)
    (hloops : ∀ i, .shutdown i ∉ { c with stack := stack }.work) :
    ((({ c with stack := stack }.setHandler c.session v).push
      (.shutdownCb c.session)).onShutdown c.session).Orderly := by
  have hlt := session_lt_of_state hstate
  have hdrops (i : ℕ) : .drop i ∉ { c with stack := stack }.work :=
    fun hi ↦ hstate (h.drops i (hsub _ hi)).2.2
  have hself : ({ c with stack := stack }.setHandler c.session v).connectionHandler = v :=
    connectionHandler_setHandler { c with stack := stack } v hlt
  have hexits := h.unanswered c.session (Or.inr ⟨rfl, Or.inr hstate⟩)
  have hover : ({ c with stack := stack }.setHandler c.session v).Orderly := by
    refine { h with
      sound := forall_mem_setHandler (c := { c with stack := stack }) h.sound hsound
      others := fun i hi ↦ ?_, ready := fun hconnected ↦ ?_, nonempty := fun _ ↦ ?_
      loops := fun i ↦ ?_, drops := fun i hi ↦ absurd hi (hdrops i), dropsOnce := fun i ↦ ?_,
      posted := fun k hk ↦ ?_
      issued := fun k hk ↦ ?_, unanswered := fun i hi ↦ ?_ }
    · rw [session_setHandler] at hi
      have hne : i ≠ c.session := Nat.ne_of_lt hi
      rw [handler_setHandler_of_ne _ v hne]
      exact h.others i hi
    · rw [hself] at hconnected
      simp [ConnectionHandler.connected, hv] at hconnected
    · rw [session_setHandler, length_setHandler]
      exact hlt
    · rw [hself, hv, if_neg (by simp)]
      exact List.count_eq_zero.mpr (hloops i)
    · exact Nat.le_trans (Nat.le_of_eq (List.count_eq_zero.mpr (hdrops i))) (Nat.zero_le 1)
    · rw [session_setHandler]
      exact h.posted k hk
    · rw [session_setHandler]
      exact h.issued k (hk.imp (hsub _) (hsub _))
    · rw [length_setHandler, session_setHandler] at hi
      rcases hi with hle | ⟨rfl, -⟩
      exacts [h.unanswered i (Or.inl hle), hexits]
  refine (hover.alike (quiet_push _ rfl).alike).onShutdown ?_ hexits hdrops (Or.inl ⟨?_, ?_⟩)
  · exact (length_setHandler _ _ _).symm ▸ hlt
  · exact (session_setHandler _ _ _).symm
  · rw [connectionHandler_push, hself, hv]

/-! ### Beginning one -/

theorem Orderly.started (h : c.Orderly) : c.started.Orderly := by
  by_cases hstop : c.auto.needStop
  · unfold Connector.started
    rw [if_pos hstop]
    exact Orderly.stop (h.alike (alike_of_eq [] rfl rfl rfl rfl rfl (by simp) (by simp)))
  · exact h.alike (quiet_started (by simpa using hstop)).alike

/-- The present handler has changed to another one in a state of the connection, or before it. -/
theorem Orderly.setHandler {v : ConnectionHandler} (h : c.Orderly)
    (hstate : c.connectionHandler.state ≠ .eNotConnected)
    (hshutdown : c.connectionHandler.state ≠ .eShutdown) (hsound : v.Sound)
    (hv : v.state ≠ .eShutdown)
    (hready : v.connected = true → c.connectionHandlerReady = true) :
    (c.setHandler c.session v).Orderly := by
  have hlt := session_lt_of_state hstate
  have hself := connectionHandler_setHandler c v hlt
  refine { h with
    sound := forall_mem_setHandler h.sound hsound, others := fun i hi ↦ ?_
    ready := fun hconnected ↦ ?_, nonempty := fun _ ↦ ?_, loops := fun i ↦ ?_
    drops := fun i hi ↦ ?_, posted := fun k hk ↦ ?_, issued := fun k hk ↦ ?_
    unanswered := fun i hi ↦ ?_ }
  · rw [session_setHandler] at hi
    rw [handler_setHandler_of_ne _ v (Nat.ne_of_lt hi)]
    exact h.others i hi
  · rw [hself] at hconnected
    exact hready hconnected
  · rw [session_setHandler, length_setHandler]
    exact hlt
  · have hloops := h.loops i
    rw [if_neg fun hi ↦ hshutdown hi.2] at hloops
    rw [hself, if_neg fun hi ↦ hv hi.2]
    exact hloops
  · exact absurd (h.drops i hi).2.2 hstate
  · rw [session_setHandler]
    exact h.posted k hk
  · rw [session_setHandler]
    exact h.issued k hk
  · rw [length_setHandler, session_setHandler] at hi
    refine h.unanswered i (hi.imp_right fun ⟨hi, _⟩ ↦ ⟨hi, Or.inr hstate⟩)

/-- While the connection is neither over nor shut down, the connector may become ready. -/
theorem Orderly.becomeReady (h : c.Orderly) (hstate : c.connectionHandler.state ≠ .eNotConnected)
    (connection : Option ConnectionId) (sentinel : Bool) :
    { c with
      connectionHandlerReady := true, amqpConnection := connection,
      sentinel := sentinel }.Orderly :=
  { h with
    ready := fun _ ↦ rfl
    nonempty := fun _ ↦ session_lt_of_state hstate
    drops := fun i hi ↦ absurd (h.drops i hi).2.2 hstate
    unanswered := fun i hi ↦ h.unanswered i (hi.imp_right fun ⟨hi, _⟩ ↦ ⟨hi, Or.inr hstate⟩) }

/-- `onConnected` for a present handler that has been changed. -/
theorem onConnected_setHandler (v : ConnectionHandler) (hlt : c.session < c.handlers.length) :
    (c.setHandler c.session v).onConnected =
      { c.setHandler c.session (v.onData protocolHeader).1 with
        connectionHandlerReady := true, amqpConnection := some c.session
        sentinel := false }.callStartedCb := by
  have hself := connectionHandler_setHandler c v hlt
  simp only [onConnected, hself, session_setHandler]
  simp only [setHandler, List.set_set]

theorem Orderly.callStartedCb (h : c.Orderly) : c.callStartedCb.Orderly := by
  unfold Connector.callStartedCb
  split
  · exact h
  · exact h.alike (quiet_push c rfl).alike
  · exact h.started

/-- The present handler has been connected. -/
theorem Orderly.onConnected {v : ConnectionHandler} (h : c.Orderly)
    (hstate : c.connectionHandler.state = .eConnecting) (hsound : v.Sound)
    (hv : v.state = .eReceiverInit) : (c.setHandler c.session v).onConnected.Orderly := by
  have hne : c.connectionHandler.state ≠ .eNotConnected := by simp [hstate]
  have hne' : c.connectionHandler.state ≠ .eShutdown := by simp [hstate]
  have hu : (v.onData protocolHeader).1.state = .eReady := ConnectionHandler.state_onData hv _
  have husound : (v.onData protocolHeader).1.Sound := hsound.method (e := .onData protocolHeader)
    rfl
  rw [onConnected_setHandler v (session_lt_of_state hne)]
  have hready := h.becomeReady hne (some c.session) false
  exact (hready.setHandler hne hne' husound (by simp [hu]) fun _ ↦ rfl).callStartedCb

/-- A loop waits only for the shutdown of the present handler. -/
theorem Orderly.shutdown_mem {i : ℕ} (h : c.Orderly) (hmem : .shutdown i ∈ c.work) :
    i = c.session ∧ c.connectionHandler.state = .eShutdown := by
  by_contra hnot
  have hloops := h.loops i
  rw [if_neg hnot] at hloops
  exact List.count_eq_zero.mp hloops hmem

/-- Outside of a shutdown no loop waits for one. -/
theorem Orderly.shutdown_notMem (h : c.Orderly) (hshutdown : c.connectionHandler.state ≠ .eShutdown)
    (i : ℕ) : .shutdown i ∉ c.work := fun hmem ↦ hshutdown (h.shutdown_mem hmem).2

/-- The present handler begins to shut down and waits. -/
theorem Orderly.shutdownLoop {v : ConnectionHandler} (h : c.Orderly)
    (hstate : c.connectionHandler.state ≠ .eNotConnected)
    (hshutdown : c.connectionHandler.state ≠ .eShutdown) (hsound : v.Sound)
    (hv : v.state = .eShutdown) (hready : c.connectionHandlerReady = true) :
    ((c.setHandler c.session v).push (.shutdownLoop c.session)).Orderly := by
  have hlt := session_lt_of_state hstate
  have hself := connectionHandler_setHandler c v hlt
  have hwork : ((c.setHandler c.session v).push (.shutdownLoop c.session)).work =
      .shutdown c.session :: c.work := rfl
  refine { h with
    sound := forall_mem_setHandler h.sound hsound, others := fun i hi ↦ ?_, ready := fun _ ↦ hready
    nonempty := fun _ ↦ ?_, loops := fun i ↦ ?_, drops := fun i hi ↦ ?_, dropsOnce := fun i ↦ ?_
    posted := fun k hk ↦ ?_, issued := fun k hk ↦ ?_, unanswered := fun i hi ↦ ?_ }
  · rw [session_push, session_setHandler] at hi
    rw [handler_push, handler_setHandler_of_ne _ v (Nat.ne_of_lt hi)]
    exact h.others i hi
  · rw [session_push, session_setHandler]
    exact (length_setHandler c c.session v).symm ▸ hlt
  · rw [hwork, connectionHandler_push, hself, session_push, session_setHandler, List.count_cons,
      List.count_eq_zero.mpr (h.shutdown_notMem hshutdown i)]
    by_cases hi : i = c.session
    · simp [hi, hv]
    · simp [hi, Ne.symm hi]
  · rw [hwork] at hi
    exact absurd (h.drops i (by simpa using hi)).2.2 hstate
  · rw [hwork, List.count_cons_of_ne (by simp)]
    exact h.dropsOnce i
  · rw [session_push, session_setHandler]
    exact h.posted k hk
  · rw [hwork] at hk
    rw [session_push, session_setHandler]
    exact h.issued k (by simpa using hk)
  · rw [session_push, session_setHandler] at hi
    refine h.unanswered i (Or.imp (fun hle ↦ ?_) (fun hi ↦ ⟨hi.1, Or.inr hstate⟩) hi)
    exact (length_setHandler c c.session v) ▸ hle

/-- A method of a handler is called, which does not shut it down again. -/
theorem Orderly.handle {session : ℕ} {r : ConnectionHandler × ConnectionHandler.Continuation}
    (h : c.Orderly) (hlt : session < c.handlers.length) (hacts : (c.handler session).Acts r)
    (hundisturbed : (c.handler session).state = .eShutdown → r.2 ≠ .shutdownLoop) :
    (c.handle session r).Orderly := by
  have hold := h.sound _ (handler_mem hlt)
  have hsound := hacts.sound hold
  have hwaits := hacts.waits hold
  have htransition := hacts.transition
  obtain ⟨v, next⟩ := r
  have hcurrent (hstate : (c.handler session).state ≠ .eNotConnected) : session = c.session := by
    by_contra hne
    refine hstate (h.others session ?_)
    unfold Connector.session at hne ⊢
    omega
  have hsame (hstate : v.state = (c.handler session).state) : (c.setHandler session v).Orderly :=
    h.alike (alike_setHandler hlt (fun _ ↦ hsound) hstate)
  simp only [Connector.handle]
  cases next <;> simp only [ConnectionHandler.Transition] at htransition
  case done =>
    rcases htransition with hstate | ⟨⟨hstate, hv⟩ | ⟨hstate, hv⟩ | ⟨hstate, hv⟩, hcb⟩
    · exact hsame hstate
    all_goals obtain rfl := hcurrent (by simp [hstate])
    · refine h.setHandler (by simp [connectionHandler, hstate])
        (by simp [connectionHandler, hstate]) hsound (by simp [hv]) fun hconnected ↦ ?_
      simp [ConnectionHandler.connected, hv] at hconnected
    · have hset := hold.connectedCb
      simp [hcb hv] at hset
    · refine h.setHandler (by simp [connectionHandler, hstate])
        (by simp [connectionHandler, hstate]) hsound (by simp [hv]) fun _ ↦ h.ready ?_
      simp [connectionHandler, ConnectionHandler.connected, hstate]
  case connectedCb =>
    obtain ⟨hstate, hv⟩ := htransition
    obtain rfl := hcurrent (by simp [hstate])
    exact h.onConnected hstate hsound hv
  case parse => exact (hsame htransition.2).alike (quiet_push _ rfl).alike
  case shutdownLoop =>
    obtain ⟨hstate, hv⟩ := htransition
    have hshutdown : (c.handler session).state ≠ .eShutdown := fun hs ↦ hundisturbed hs rfl
    obtain rfl := hcurrent hstate
    change (if v.waiting then (c.setHandler c.session v).push (.shutdownLoop c.session)
      else (c.setHandler c.session v).finish c.session).Orderly
    split
    · next hwaiting =>
      exact h.shutdownLoop hstate hshutdown hsound hv (h.ready (hwaits rfl hwaiting))
    · rw [finish_setHandler v hlt]
      exact h.shutdownCb c.stack hstate hsound.endShutdown rfl (fun _ htask ↦ htask)
        (h.shutdown_notMem hshutdown)
  case shutdownCb message =>
    obtain ⟨hstate, hv, -⟩ := htransition
    have hne : (c.handler session).state ≠ .eNotConnected ∧
        (c.handler session).state ≠ .eShutdown := by
      rcases hstate with hs | hs <;> simp [hs]
    obtain rfl := hcurrent hne.1
    exact h.shutdownCb c.stack hne.1 hsound hv (fun _ htask ↦ htask)
      (h.shutdown_notMem hne.2)

/-! ### The next session -/

/-- A session begins once the handlers of all others are stopped. -/
theorem Orderly.begin {l : List ConnectionHandler} (h : c.Orderly)
    (hready : c.connectionHandlerReady = false) (hnone : c.NoStop)
    (hlength : l.length = c.handlers.length)
    (hl : ∀ v ∈ l, v.Sound ∧ v.state = .eNotConnected) (callback : Option StartedCallback) :
    (c.begun callback l).Orderly := by
  have hshutdown : c.connectionHandler.state ≠ .eShutdown := fun hs ↦ by
    have hup := h.ready (by simp [ConnectionHandler.connected, hs])
    simp [hready] at hup
  have hsession := session_begun c callback l
  have hself := state_begun c callback l
  refine { h with
    sound := fun v hv ↦ ?_, others := fun i hi ↦ ?_, ready := fun hconnected ↦ ?_
    nonempty := fun hup ↦ absurd (hready.symm.trans hup) Bool.false_ne_true, loops := fun i ↦ ?_
    drops := fun i hi ↦ ?_, posted := fun k hk ↦ ?_, issued := fun k hk ↦ ?_
    unanswered := fun i hi ↦ ?_ }
  · rw [begun, List.mem_append, List.mem_singleton] at hv
    rcases hv with hv | rfl
    exacts [(hl v hv).1, ConnectionHandler.sound_start]
  · rw [hsession] at hi
    rw [handler_begun c callback hi]
    simpa [hi] using (hl _ (List.getElem_mem hi)).2
  · rw [ConnectionHandler.connected_iff, hself] at hconnected
    simp at hconnected
  · rw [if_neg fun hi ↦ by simp [hself] at hi]
    exact List.count_eq_zero.mpr (h.shutdown_notMem hshutdown i)
  · have hup := (h.drops i hi).2.1
    simp [hready] at hup
  · exact absurd (hnone.1 ▸ hk : k ∈ []) List.not_mem_nil
  · have hnone' := hnone.2 k
    rw [mem_work rfl, mem_work rfl] at hk
    exact absurd hk (not_or.mpr hnone')
  · refine h.unanswered i (Or.inl ?_)
    rw [hsession] at hi
    rcases hi with hle | ⟨rfl, -⟩
    · rw [begun, List.length_append, hlength] at hle
      exact Nat.le_trans (Nat.le_add_right _ _) hle
    · exact Nat.le_of_eq hlength.symm

/-- The handlers are all stopped once the present one is. -/
theorem Orderly.forall_stopped {v : ConnectionHandler} (h : c.Orderly)
    (hsound : v.Sound) (hv : v.state = .eNotConnected) :
    ∀ u ∈ c.handlers.set c.session v, u.Sound ∧ u.state = .eNotConnected := by
  refine forall_mem_handlers (c := c.setHandler c.session v) fun i hi ↦ ?_
  rw [length_setHandler] at hi
  rcases Nat.lt_or_ge i c.session with hi' | hi'
  · rw [handler_setHandler_of_ne c v (Nat.ne_of_lt hi')]
    exact ⟨h.sound _ (handler_mem hi), h.others i hi'⟩
  · obtain rfl : i = c.session := by unfold Connector.session at hi' ⊢; omega
    rw [handler_setHandler c c.session v hi]
    exact ⟨hsound, hv⟩

/-- `async_start()`, called while no `stop()` is outstanding. -/
theorem Orderly.asyncStart (h : c.Orderly) (callback : Option StartedCallback)
    (hnone : c.connectionHandlerReady = false → c.NoStop) : (c.asyncStart callback).Orderly := by
  by_cases hready : c.connectionHandlerReady = true
  · rwa [asyncStart_of_ready hready]
  · have hready' : c.connectionHandlerReady = false := by simpa using hready
    have hdown : c.connectionHandler.connected = false := by
      by_contra hup
      exact hready (h.ready (by simpa using hup))
    rcases asyncStart_cases callback hready' h.sound hdown with
      ⟨hstate, heq⟩ | ⟨hstate, v, hsound, hv, heq⟩
    · rw [heq]
      refine h.begin hready' (hnone hready') rfl (forall_mem_handlers fun i hi ↦ ?_) callback
      refine ⟨h.sound _ (handler_mem hi), ?_⟩
      rcases Nat.lt_or_ge i c.session with hi' | hi'
      · exact h.others i hi'
      · obtain rfl : i = c.session := by unfold Connector.session at hi' ⊢; omega
        exact hstate
    · rw [heq]
      have hbegin := h.begin hready' (hnone hready') List.length_set (h.forall_stopped hsound hv)
        callback
      have hlt := session_lt_of_state hstate
      have hsession := session_begun c callback (c.handlers.set c.session v)
      refine (hbegin.alike (quiet_push _ rfl).alike).onShutdown ?_ ?_ (fun i hi ↦ ?_)
        (Or.inr ⟨?_, rfl, hready'⟩)
      · simpa [push, begun] using Nat.lt_succ_of_lt hlt
      · exact h.unanswered c.session (Or.inr ⟨rfl, Or.inr hstate⟩)
      · exact hready (h.drops i hi).2.1
      · rw [session_push, hsession, List.length_set]
        exact Nat.ne_of_lt hlt

/-! ### The handler of a stop, and the tasks -/

/-- The handler of a `stop()` acts while the connection is neither being shut down nor dropped. -/
theorem Orderly.stopHandler {issued : ℕ} (h : c.Orderly) (hissued : issued = c.session)
    (hshutdown : c.connectionHandler.state ≠ .eShutdown) (hdrops : ∀ i, .drop i ∉ c.work) :
    (c.stopHandler issued).Orderly := by
  have hrecord : (c.record (.acted issued c.session)).Orderly := by
    have hlog (i : ℕ) := exitCodes_record_acted c i issued c.session
    refine { h with exits := fun i ↦ ?_, unanswered := fun i hi ↦ ?_, acted := fun k i hk ↦ ?_ }
    · rw [hlog]
      exact h.exits i
    · rw [hlog]
      exact h.unanswered i hi
    · rw [record, List.mem_append, List.mem_singleton] at hk
      rcases hk with hk | hk
      · exact h.acted k i hk
      · obtain ⟨rfl, rfl⟩ := Observation.acted.inj hk
        exact hissued
  unfold Connector.stopHandler
  split
  · next hstopped =>
    have hstate : c.connectionHandler.state = .eNotConnected := by
      simpa [ConnectionHandler.stopped] using hstopped
    split
    · next hready =>
      have hexits := hrecord.unanswered c.session (Or.inr ⟨rfl, Or.inl hready⟩)
      exact (hrecord.disconnected hstate hdrops).exit (h.nonempty hready) hexits
        (fun _ ↦ ⟨rfl, hstate⟩) .eNormal
    · exact h
  · next hstopped =>
    have hstate : c.connectionHandler.state ≠ .eNotConnected := by
      simpa [ConnectionHandler.stopped] using hstopped
    refine Orderly.handle (c := { c.record (.acted issued c.session) with exiting := true }) ?_
      (session_lt_of_state hstate) (ConnectionHandler.acts_stop _) fun hs ↦ absurd hs hshutdown
    exact { hrecord with }

/-- A task other than the end of a shutdown is taken from the stack. -/
theorem Orderly.pop {task : Task} {stack : List Frame} (h : c.Orderly)
    (hwork : c.work = task :: { c with stack := stack }.work) (htask : ∀ i, task ≠ .shutdown i) :
    { c with stack := stack }.Orderly := by
  have hmem {other : Task} (hother : other ∈ { c with stack := stack }.work) : other ∈ c.work :=
    hwork ▸ List.mem_cons_of_mem task hother
  refine { h with
    loops := fun i ↦ ?_, drops := fun i hi ↦ h.drops i (hmem hi), dropsOnce := fun i ↦ ?_
    issued := fun k hk ↦ h.issued k (hk.imp hmem hmem) }
  · have hloops := h.loops i
    rw [hwork, List.count_cons_of_ne (htask i)] at hloops
    exact hloops
  · have hdrops := h.dropsOnce i
    rw [hwork] at hdrops
    exact Nat.le_trans List.count_le_count_cons hdrops

/-- A task is performed. -/
theorem Orderly.perform {task : Task} {stack : List Frame} (h : c.Orderly)
    (htasks : c.tasks = task :: { c with stack := stack }.tasks)
    (hacts : ∀ issued, task = .stopHandler issued →
      c.connectionHandler.state ≠ .eShutdown ∧ ∀ i, .drop i ∉ c.tasks) :
    (task.perform { c with stack := stack }).Orderly := by
  have hwork := work_of_tasks htasks
  have haside (hnone : task.isWork = false) : { c with stack := stack }.Orderly := by
    refine h.alike (alike_of_eq [] rfl rfl rfl rfl ?_ (by simp) (by simp))
    simpa [hnone] using hwork.symm
  have hcons (hsome : task.isWork = true) :
      c.work = task :: ({ c with stack := stack } : Connector).work := by
    simpa [hsome] using hwork
  have hmem {other : Task} (hother : other ∈ { c with stack := stack }.work) : other ∈ c.work :=
    hwork ▸ List.mem_append_right _ hother
  cases task with
  | shutdown session =>
    have hcount := h.loops session
    rw [hcons rfl, List.count_cons_self] at hcount
    split at hcount
    · next hcurrent =>
      obtain ⟨rfl, hstate⟩ := hcurrent
      have hne : c.connectionHandler.state ≠ .eNotConnected := by simp [hstate]
      have hlt := session_lt_of_state hne
      refine h.shutdownCb stack hne (h.sound _ (handler_mem hlt)).endShutdown rfl (fun _ ↦ hmem) ?_
      intro i
      by_cases hi : i = c.session
      · subst hi
        exact List.count_eq_zero.mp (Nat.succ.inj hcount)
      · have hother := h.loops i
        rw [if_neg fun hcurrent ↦ hi hcurrent.1] at hother
        exact fun hmem' ↦ List.count_eq_zero.mp hother (hmem hmem')
    · omega
  | stop issued =>
    have hissued := h.issued issued (Or.inl (by simp [hwork, Task.isWork]))
    have hpop := h.pop hwork (by simp)
    refine { hpop with posted := fun k hk ↦ ?_ }
    rw [Task.perform, List.mem_append, List.mem_singleton] at hk
    rcases hk with hk | rfl
    exacts [h.posted k hk, hissued]
  | stopHandler issued =>
    obtain ⟨hstate, hdrops⟩ := hacts issued rfl
    have hissued := h.issued issued (Or.inr (by simp [hwork, Task.isWork]))
    refine (h.pop hwork (by simp)).stopHandler hissued hstate fun i hi ↦ hdrops i ?_
    exact (mem_work rfl).mp (hmem hi)
  | drop session =>
    obtain ⟨rfl, hready, hstate⟩ := h.drops session (by simp [hwork, Task.isWork])
    have hpop := h.pop hwork (by simp)
    have hdrops (i : ℕ) : .drop i ∉ { c with stack := stack }.work := by
      intro hi
      obtain ⟨rfl, -⟩ := h.drops i (hmem hi)
      have hcount := h.dropsOnce c.session
      rw [hcons rfl, List.count_cons_self] at hcount
      have hpos := List.count_pos_iff.mpr hi
      omega
    have hexits := hpop.unanswered c.session (Or.inr ⟨rfl, Or.inl hready⟩)
    exact (hpop.disconnected hstate hdrops).exit (h.nonempty hready) hexits
      (fun _ ↦ ⟨rfl, hstate⟩) .eAmqpError
  | restart code => exact (haside rfl).alike (alike_restart _ code)
  | backup | autoStop => exact { haside rfl with }
  | autoStart =>
    refine (haside rfl).alike ?_
    exact alike_of_eq [.startReturned] rfl rfl rfl rfl rfl rfl (by simp [Observation.isAside])

/-! ### The step -/

theorem Orderly.occur {e : Event} (h : c.Orderly) (horder : c.InOrder e)
    (hoccur : c.occur e = some c') : c'.Orderly := by
  obtain ⟨hundisturbed, hnone⟩ := horder
  cases e with
  | remove =>
    rw [← Option.some.inj hoccur]
    exact { h with }
  | run => exact Option.some.inj hoccur ▸ h.alike (quiet_run c).alike
  | asyncStart callback => exact Option.some.inj hoccur ▸ h.asyncStart _ hnone
  | start =>
    rw [← Option.some.inj hoccur]
    unfold Connector.start
    split
    · exact h
    · exact (h.alike (quiet_push c rfl).alike).asyncStart none hnone
  | stop => exact Option.some.inj hoccur ▸ h.stop
  | onExit f =>
    rw [← Option.some.inj hoccur]
    exact h.alike
      (alike_of_eq [.installed f] rfl rfl rfl rfl rfl rfl (by simp [Observation.isAside]))
  | autoStart callback =>
    rw [← Option.some.inj hoccur]
    simp only [Connector.autoStart]
    split
    · exact h
    · next hstarted =>
      refine Orderly.asyncStart ?_ _ fun hready ↦ ?_
      · refine h.alike ?_
        exact alike_of_eq [.startAccepted] rfl rfl rfl rfl rfl rfl (by simp [Observation.isAside])
      · obtain ⟨hposted, htasks⟩ := hnone ⟨by simpa using hstarted, hready⟩
        refine ⟨hposted, fun k ↦ ?_⟩
        change .stop k ∉ .autoStart :: c.tasks ∧ .stopHandler k ∉ .autoStart :: c.tasks
        simpa using htasks k
  | autoStop =>
    rw [← Option.some.inj hoccur]
    have hcalled : (c.record .stopCalled).Orderly :=
      h.alike (alike_of_eq [.stopCalled] rfl rfl rfl rfl rfl rfl (by simp [Observation.isAside]))
    simp only [Connector.autoStop]
    split
    · exact hcalled
    · split
      · refine Orderly.stop ?_
        exact { hcalled with }
      · exact { hcalled with }
  | handler session e =>
    obtain ⟨⟨hlt, -⟩, hoccur⟩ := Option.ite_none_right_eq_some.mp hoccur
    obtain ⟨r, hmethod, rfl⟩ := Option.map_eq_some_iff.mp hoccur
    refine h.handle hlt (ConnectionHandler.acts_method hmethod) fun hstate ↦ ?_
    have htells := ConnectionHandler.Execution.tells_method (hundisturbed session e rfl) hmethod
    exact (htells.during hstate).2
  | posted k =>
    obtain ⟨issued, hk, rfl⟩ := Option.map_eq_some_iff.mp hoccur
    have hissued := h.posted issued (List.mem_of_getElem? hk)
    obtain rfl := h.posted issued (List.mem_of_getElem? hk)
    refine Orderly.pushStop (c := { c with posted := c.posted.eraseIdx k }) ?_ rfl (Or.inr rfl)
    exact { h with posted := fun j hj ↦ h.posted j (List.mem_of_mem_eraseIdx hj) }
  | timerExpires =>
    obtain ⟨-, hoccur⟩ := Option.ite_none_right_eq_some.mp hoccur
    rw [← Option.some.inj hoccur]
    exact { h with }
  | timerHandler =>
    obtain ⟨-, hoccur⟩ := Option.ite_none_left_eq_some.mp hoccur
    rw [← Option.some.inj hoccur]
    refine Orderly.asyncStart ?_ _ hnone
    exact { h with }

theorem orderly_new : Connector.new.Orderly where
  sound := by simp [Connector.new]
  others := by simp [Connector.new, Connector.session]
  ready := by simp [Connector.new, connectionHandler, handler, ConnectionHandler.new,
    ConnectionHandler.connected]
  nonempty := by simp [Connector.new]
  loops := by simp [Connector.new, work, tasks, connectionHandler, handler, ConnectionHandler.new]
  drops := by simp [Connector.new, work, tasks]
  dropsOnce := by simp [Connector.new, work, tasks]
  posted := by simp [Connector.new]
  issued := by simp [Connector.new, work, tasks]
  exits := by simp [Connector.new, exitCodes]
  unanswered := by simp [Connector.new, exitCodes]
  acted := by simp [Connector.new]

theorem Quiet.startsSession_iff {e : Event} (hquiet : Quiet c c') :
    c'.StartsSession e ↔ c.StartsSession e := by
  cases e <;> simp only [StartsSession, hquiet.ready, hquiet.started]

theorem Quiet.inOrder {e : Event} (hquiet : Quiet c c') (h : c.InOrder e) : c'.InOrder e := by
  refine ⟨fun session e' he ↦ ?_, fun hstart ↦ ?_⟩
  · simp only [handler, hquiet.handlers]
    exact h.1 session e' he
  · unfold NoStop
    rw [hquiet.posted, hquiet.tasks]
    exact h.2 (hquiet.startsSession_iff.mp hstart)

theorem Orderly.sessionsApart (h : c.Orderly) : c.SessionsApart :=
  ⟨h.exits, fun issued session hacted ↦ Nat.le_of_eq (h.acted issued session hacted).symm⟩

end Connector

namespace Program

open Connector

variable {τ ε : Type} [TransceiverImpl τ ε] {p p' : Program τ}

/-- No `onError()` or `onClosed()` reaches a handler that is shutting down, no handler posted by a
`stop()` acts while the connection is being shut down or the transceivers are being dropped, and no
session begins while a `stop()` is outstanding. -/
def InOrder (p : Program τ) : Event ε → Prop
  | .connector e => p.connector.InOrder e
  | .resume => p.connector.ActsInOrder
  | _ => True

theorem orderly_step {e : Event ε} (h : p.connector.Orderly) (horder : p.InOrder e)
    (hstep : p.step e = some p') : p'.connector.Orderly := by
  have hmoves := moves_of_step hstep
  generalize p'.connector = c' at hmoves
  cases hmoves with
  | quiet he hquiet => exact h.alike hquiet.alike
  | @occur e c₁ _ hquiet hoccur =>
    exact (h.alike hquiet.alike).occur (hquiet.inOrder horder) hoccur
  | @parsed parsed expected session c₁ r hquiet hparsed =>
    have h₁ := h.alike hquiet.alike
    by_cases hlt : session < c₁.handlers.length
    · exact h₁.handle hlt (ConnectionHandler.acts_onParsed hparsed)
        fun _ ↦ ConnectionHandler.onParsed_ne_shutdownLoop hparsed
    · rw [handler_of_le (Nat.not_lt.mp hlt)] at hparsed
      obtain rfl := Option.some.inj hparsed
      rw [Connector.handle, setHandler_of_le (Nat.not_lt.mp hlt)]
      exact h₁
  | @shutdownCb session c₁ hquiet =>
    have h₁ := h.alike hquiet.alike
    by_cases hlt : session < c₁.handlers.length
    · exact h₁.alike (alike_setHandler hlt (fun hsound ↦ hsound.endShutdownCb) rfl)
    · rw [setHandler_of_le (Nat.not_lt.mp hlt)]
      exact h₁
  | perform hdue hwaits htasks =>
    refine h.perform htasks fun issued hissued ↦ ?_
    exact horder issued (hissued ▸ hdue)

/-- As long as a run is in order, the exit callback is called at most once per session, and no
`stop()` ends a session later than its own. -/
theorem sessionsApart_of_inOrder (h : (machine τ).ReachedBy InOrder p) :
    p.connector.SessionsApart := by
  have horderly : p.connector.Orderly := by
    refine h.invariant (I := fun q ↦ q.connector.Orderly) (fun q hq ↦ ?_)
      fun q e q' hq horder hstep ↦ orderly_step hq horder hstep
    obtain rfl : q = _ := hq
    exact orderly_new
  exact horderly.sessionsApart

/-- The application starts, and the broker is not reached. -/
def unreachable : List (Event Transceiver.Event) :=
  [.connector (.onExit (some 7)), .connector (.asyncStart false),
    .connector (.handler 0 (.resolved (some "host not found"))), .resume, .resume,
    .connector (.asyncStart false)]

/-- An attempt that fails is answered once, before the next session begins. -/
theorem sessionsApart_unreachable :
    ∃ p, (machine Transceiver).run (initial Transceiver) unreachable = some p ∧
      exitCodes 0 p.connector.log = [.eBrokerConnectError] ∧ p.connector.session = 1 ∧
      p.connector.SessionsApart := by
  have hnone {c : Connector} (hposted : c.posted = []) (htasks : c.tasks = []) : c.NoStop :=
    ⟨hposted, fun _ ↦ by simp [htasks]⟩
  have hresume {c : Connector} (htasks : c.due = none) : c.ActsInOrder :=
    fun _ h ↦ by simp [htasks] at h
  refine ⟨_, rfl, by decide, by decide, sessionsApart_of_inOrder ?_⟩
  refine ⟨initial Transceiver, unreachable, rfl, rfl, ?_⟩
  refine Machine.meets_cons ⟨by simp, fun h ↦ h.elim⟩ rfl ?_
  refine Machine.meets_cons ⟨by simp, fun _ ↦ hnone rfl rfl⟩ rfl ?_
  refine Machine.meets_cons ⟨?_, fun h ↦ h.elim⟩ rfl ?_
  · rintro session e ⟨⟩
    simp [ConnectionHandler.Undisturbed]
  · refine Machine.meets_cons (hresume rfl) rfl (Machine.meets_cons (hresume rfl) rfl ?_)
    exact Machine.meets_cons ⟨by simp, fun _ ↦ hnone rfl rfl⟩ rfl trivial

/-- The application stops twice once it is connected. The second handler runs while the first waits
for the read and the write. -/
def stoppedTwice : List (Event Transceiver.Event) :=
  [.connector (.onExit (some 7)), .connector (.asyncStart false),
    .connector (.handler 0 (.resolved none)), .connector (.handler 0 (.connectDone none)),
    .connector .stop, .resume, .connector .stop, .resume,
    .connector (.posted 0), .resume, .connector (.posted 0), .resume,
    .connector (.handler 0 (.wrote (some "aborted") 0)),
    .connector (.handler 0 (.read (some "aborted") 0 8)), .resume, .resume, .resume, .resume]

/-- Two calls of `stop()` call the exit callback twice in one session. -/
theorem exits_twice_of_stoppedTwice :
    ∃ p, (machine Transceiver).run (initial Transceiver) stoppedTwice = some p ∧
      exitCodes 0 p.connector.log = [.eNormal, .eNormal] ∧ ¬ p.connector.SessionsApart := by
  refine ⟨_, rfl, by decide, fun h ↦ ?_⟩
  have htwice := h.exits 0
  revert htwice
  decide

end Program

end AmqpAsio
