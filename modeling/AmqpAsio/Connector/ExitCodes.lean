import AmqpAsio.ConnectionHandler.Diagram
import AmqpAsio.Connector.Nesting
import AmqpAsio.Connector.Sessions

/-!
# What the exit code tells

`Connector::ExitCode` has three values. As long as the sessions of a connector are kept apart, the
code that the exit callback gets tells how the session has ended: `eNormal` if a `stop()` of it has
acted, `eBrokerConnectError` if no connection was ever established in it, and otherwise
`eAmqpError`, which is only told when `amqp_error()` holds of the handler of the session.

A session whose connection is established leaves no trace of that once it is over, so a program is
watched, and the sessions in which `async_connect` has succeeded are noted beside it.
-/

set_option autoImplicit false
set_option relaxedAutoImplicit false

namespace AmqpAsio

namespace ConnectionHandler

variable {h : ConnectionHandler} {e : Event} {r : ConnectionHandler × Continuation}

/-- `m_connectedCb` is called when `async_connect` succeeds, and by nothing else. -/
theorem connectedCb_iff_of_method (hcb : h.connectedCb = true) (hmethod : h.method e = some r) :
    r.2 = .connectedCb ↔ e = .connectDone none ∧ h.state = .eConnecting := by
  constructor
  · intro hnext
    exact connectDone_of_connectedCb hmethod hnext
  · rintro ⟨rfl, hstate⟩
    rw [connectDone_of_eConnecting hstate hcb hmethod]

/-- Once it is set, `m_amqpError` stays set in a session. -/
theorem amqpError_method (hmethod : h.method e = some r) (herror : h.amqpError = true) :
    r.1.amqpError = true := by
  by_cases honError : ∃ message, e = .onError message
  · obtain ⟨message, rfl⟩ := honError
    rw [← Option.some.inj hmethod]
    unfold onError
    split
    · exact herror
    · exact amqpError_goto _ _
  · push Not at honError
    exact ((kept_method hmethod).2 honError).trans herror

end ConnectionHandler

namespace Connector

variable {c c' : Connector} {established : List ℕ} {session : ℕ}

/-- What there is to tell of a session that is over. -/
def verdict (established : List ℕ) (log : List Observation) (session : ℕ) : ExitCode :=
  if .acted session session ∈ log then .eNormal
  else if session ∈ established then .eAmqpError
  else .eBrokerConnectError

/-- The sessions that have been connected are noted: not the present one as long as it is being
connected, but the one that is ready, and each that a `stop()` was issued in. What has ended the
present session is remembered until the next one begins, the transceivers are dropped because of an
error of AMQP-CPP, and each exit code tells how its session has ended. -/
structure Told (established : List ℕ) (c : Connector) : Prop where
  attempt : c.connectionHandler.state = .eResolving ∨ c.connectionHandler.state = .eConnecting →
    c.session ∉ established
  ready : c.connectionHandlerReady = true → c.session ∈ established
  known : ∀ i ∈ established, i < c.handlers.length
  issued : ∀ i, i ∈ c.posted ∨ .stop i ∈ c.work ∨ .stopHandler i ∈ c.work → i ∈ established
  exiting : c.exiting = true → .acted c.session c.session ∈ c.log
  acted : ∀ i, .acted i i ∈ c.log → i ∈ established ∧
    (i = c.session → c.connectionHandlerReady = true → c.exiting = true)
  drops : ∀ i, .drop i ∈ c.work → .acted i i ∉ c.log ∧ (c.handler i).amqpError = true
  codes : ∀ i, ∀ code ∈ exitCodes i c.log, code = verdict established c.log i ∧
    (code = .eAmqpError → (c.handler i).amqpError = true)

theorem verdict_congr {log log' : List Observation}
    (hacted : .acted session session ∈ log' ↔ .acted session session ∈ log) :
    verdict established log' session = verdict established log session := by
  simp only [verdict, hacted]

theorem Told.alike (h : Told established c) (halike : Alike c c')
    (herror : ∀ i, (c.handler i).amqpError = true → (c'.handler i).amqpError = true) :
    Told established c' where
  attempt hstate := by
    rw [halike.state] at hstate
    rw [halike.session]
    exact h.attempt hstate
  ready hready := by
    rw [halike.session]
    exact h.ready (halike.ready ▸ hready)
  known i hi := by
    rw [halike.length]
    exact h.known i hi
  issued i hi := by
    rw [halike.posted, halike.work] at hi
    exact h.issued i hi
  exiting hexiting := by
    rw [halike.session, halike.acts]
    exact h.exiting (halike.exiting ▸ hexiting)
  acted i hi := by
    rw [halike.session, halike.ready, halike.exiting]
    exact h.acted i ((halike.acts i i).mp hi)
  drops i hi := by
    rw [halike.work] at hi
    rw [halike.acts]
    exact (h.drops i hi).imp_right (herror i)
  codes i code hcode := by
    rw [halike.exits] at hcode
    rw [verdict_congr (halike.acts i i)]
    exact (h.codes i code hcode).imp_right fun hamqp hcode ↦ herror i (hamqp hcode)

/-- What leaves the handlers alone leaves their errors alone. -/
theorem Told.alike_of_handlers (h : Told established c) (halike : Alike c c')
    (hhandlers : c'.handlers = c.handlers) : Told established c' :=
  h.alike halike fun i herror ↦ by
    unfold handler at herror ⊢
    rwa [hhandlers]

theorem Told.quiet (h : Told established c) (hquiet : Quiet c c') : Told established c' :=
  h.alike_of_handlers hquiet.alike hquiet.handlers

/-- A method of a handler leaves the errors of the handlers. -/
theorem amqpError_setHandler {v : ConnectionHandler}
    (herror : (c.handler session).amqpError = true → v.amqpError = true) (i : ℕ)
    (hi : (c.handler i).amqpError = true) :
    ((c.setHandler session v).handler i).amqpError = true := by
  by_cases hlt : session < c.handlers.length
  · by_cases hne : i = session
    · subst hne
      rw [handler_setHandler c i v hlt]
      exact herror hi
    · rw [handler_setHandler_of_ne c v hne]
      exact hi
  · rw [setHandler_of_le (Nat.not_lt.mp hlt)]
    exact hi

/-! ### Ending a session -/

/-- The exit callback is called with what there is to tell. -/
theorem Told.exit {code : ExitCode} (h : Told established c)
    (hcode : code = verdict established c.log session)
    (herror : code = .eAmqpError → (c.handler session).amqpError = true) :
    Told established (c.exit session code) := by
  rcases alike_exit c session code with halike | halike
  · exact h.alike_of_handlers halike (plain_exit c session code).handlers
  · refine Told.alike_of_handlers ?_ halike (plain_exit c session code).handlers
    have hacts (i : ℕ) : .acted i i ∈ (c.record (.exit session code)).log ↔ .acted i i ∈ c.log := by
      simp [record]
    refine { h with
      exiting := fun hexiting ↦ (hacts _).mpr (h.exiting hexiting)
      acted := fun i hi ↦ h.acted i ((hacts i).mp hi)
      drops := fun i hi ↦ (h.drops i hi).imp_left fun hnot ↦ mt (hacts i).mp hnot
      codes := fun i other hother ↦ ?_ }
    rw [verdict_congr (hacts i)]
    rw [exitCodes_record_exit, List.mem_append] at hother
    rcases hother with hother | hother
    · exact h.codes i other hother
    · obtain ⟨rfl, rfl⟩ : session = i ∧ other = code := by simpa using hother
      exact ⟨hcode, herror⟩

theorem Told.disconnected (h : Told established c) : Told established c.disconnected :=
  { h with
    ready := fun hready ↦ by cases hready
    acted := fun i hi ↦ (h.acted i hi).imp_right fun _ _ hready ↦ by cases hready }

/-- A `stop()` of a session that was connected, or its handler, begins to wait. -/
theorem Told.pushStop {f : Frame} {task : Task} {issued : ℕ} (h : Told established c)
    (hf : f.task = some task) (htask : task = .stop issued ∨ task = .stopHandler issued)
    (hissued : issued ∈ established) : Told established (c.push f) := by
  have hwork : (c.push f).work = task :: c.work := by
    rw [work_push, hf]
    rcases htask with rfl | rfl <;> rfl
  refine { h with issued := fun i hi ↦ ?_, drops := fun i hi ↦ ?_ }
  · rw [hwork, List.mem_cons, List.mem_cons] at hi
    rcases hi with hi | (hi | hi) | hi | hi
    · exact h.issued i (Or.inl hi)
    · rcases htask with rfl | rfl
      exacts [Task.stop.inj hi ▸ hissued, absurd hi (by simp)]
    · exact h.issued i (Or.inr (Or.inl hi))
    · rcases htask with rfl | rfl
      exacts [absurd hi (by simp), Task.stopHandler.inj hi ▸ hissued]
    · exact h.issued i (Or.inr (Or.inr hi))
  · rw [hwork, List.mem_cons] at hi
    refine h.drops i (hi.resolve_left ?_)
    rcases htask with rfl | rfl <;> simp

theorem Told.stop (h : Told established c) : Told established c.stop := by
  unfold Connector.stop
  split
  · exact h
  · next hready => exact h.pushStop rfl (Or.inl rfl) (h.ready (by simpa using hready))

/-- A session that is over comes to `onShutdown`: the present one, or the one before it, which has
not been connected. -/
theorem Told.onShutdown (h : Told established c)
    (hcurrent : session = c.session ∨ c.exiting = false ∧ c.connectionHandlerReady = false)
    (hfailed : c.exiting = false → c.connectionHandlerReady = false → session ∉ established) :
    Told established (c.onShutdown session) := by
  unfold Connector.onShutdown
  split
  · next hexiting =>
    obtain rfl := hcurrent.resolve_right fun h ↦ by simp [h.1] at hexiting
    refine h.disconnected.exit ?_ (by simp)
    have hacted : .acted c.session c.session ∈ c.disconnected.log := h.exiting hexiting
    simp [verdict, hacted]
  · next hexiting =>
    have hexiting' : c.exiting = false := by simpa using hexiting
    split
    · next hready =>
      have hnot := hfailed hexiting' (by simpa using hready)
      have hacted : .acted session session ∉ c.log := fun hacted ↦ hnot (h.acted session hacted).1
      refine Told.exit (c := { c with amqpConnection := none, sentinel := false }) { h with } ?_
        (by simp)
      simp [verdict, hacted, hnot]
    · next hready =>
      have hready' : c.connectionHandlerReady = true := by simpa using hready
      obtain rfl := hcurrent.resolve_right fun h ↦ by simp [h.2] at hready'
      split
      · next herror =>
        have hwork : (c.push (.forEach (.drop c.session) c.transceivers)).work =
            .drop c.session :: c.work := rfl
        refine { h with issued := fun i hi ↦ ?_, drops := fun i hi ↦ ?_ }
        · rw [hwork] at hi
          exact h.issued i (hi.imp_right fun hi ↦ by simpa using hi)
        · rw [hwork, List.mem_cons] at hi
          rcases hi with hi | hi
          · obtain rfl := Task.drop.inj hi
            refine ⟨fun hacted ↦ ?_, herror⟩
            have hexiting := (h.acted _ hacted).2 rfl hready'
            simp [hexiting'] at hexiting
          · exact h.drops i hi
      · exact h.stop

/-- Some calls are no longer suspended. -/
theorem Told.pop {stack : List Frame} (h : Told established c)
    (hsub : ∀ task ∈ { c with stack := stack }.work, task ∈ c.work) :
    Told established { c with stack := stack } :=
  { h with
    issued := fun i hi ↦ h.issued i (hi.imp_right (Or.imp (hsub _) (hsub _)))
    drops := fun i hi ↦ h.drops i (hsub _ hi) }

/-- The present handler has changed, and is not being connected unless it was before. -/
theorem Told.setHandler {v : ConnectionHandler} (h : Told established c)
    (hlt : c.session < c.handlers.length)
    (herror : c.connectionHandler.amqpError = true → v.amqpError = true)
    (hattempt : v.state = .eResolving ∨ v.state = .eConnecting → c.session ∉ established) :
    Told established (c.setHandler c.session v) := by
  have hkeep := amqpError_setHandler (c := c) (v := v) herror
  have hsession := session_setHandler c c.session v
  refine { h with
    attempt := fun hstate ↦ ?_, ready := fun hready ↦ ?_, known := fun i hi ↦ ?_
    exiting := fun hexiting ↦ ?_, acted := fun i hi ↦ ?_
    drops := fun i hi ↦ (h.drops i hi).imp_right (hkeep i)
    codes := fun i code hcode ↦ (h.codes i code hcode).imp_right fun hamqp hcode ↦
      hkeep i (hamqp hcode) }
  · rw [connectionHandler_setHandler c v hlt] at hstate
    rw [hsession]
    exact hattempt hstate
  · rw [hsession]
    exact h.ready hready
  · rw [length_setHandler]
    exact h.known i hi
  · rw [hsession]
    exact h.exiting hexiting
  · rw [hsession]
    exact h.acted i hi

/-- The connection of the present session is over, and `m_shutdownCb` is called. -/
theorem Told.shutdownCb {v : ConnectionHandler} (stack : List Frame) (h : Told established c)
    (horderly : c.Orderly) (hstate : c.connectionHandler.state ≠ .eNotConnected)
    (herror : c.connectionHandler.amqpError = true → v.amqpError = true)
    (hv : v.state = .eNotConnected)
    (hsub : ∀ task ∈ { c with stack := stack }.work, task ∈ c.work) :
    Told established ((({ c with stack := stack }.setHandler c.session v).push
      (.shutdownCb c.session)).onShutdown c.session) := by
  have hover : Told established ({ c with stack := stack }.setHandler c.session v) := by
    refine (h.pop hsub).setHandler (session_lt_of_state hstate) herror fun hv' ↦ ?_
    simp [hv] at hv'
  refine (hover.quiet (quiet_push _ rfl)).onShutdown ?_ fun _ hready ↦ ?_
  · exact Or.inl (session_setHandler { c with stack := stack } c.session v).symm
  · -- A connected session is ready, so the present one was still being connected.
    refine h.attempt ?_
    have hready' : c.connectionHandlerReady = false := hready
    by_contra hnot
    have hup : c.connectionHandler.connected = true := by
      rw [ConnectionHandler.connected_iff]
      cases hs : c.connectionHandler.state <;> simp [hs] at hstate hnot ⊢
    simp [horderly.ready hup] at hready'

/-! ### A method of a handler -/

theorem Told.started (h : Told established c) : Told established c.started := by
  by_cases hstop : c.auto.needStop
  · unfold Connector.started
    rw [if_pos hstop]
    exact Told.stop { h with }
  · exact h.quiet (quiet_started (by simpa using hstop))

theorem Told.callStartedCb (h : Told established c) : Told established c.callStartedCb := by
  unfold Connector.callStartedCb
  split
  · exact h
  · exact h.quiet (quiet_push c rfl)
  · exact h.started

theorem verdict_append_of_ne {log : List Observation} {i : ℕ} (hne : i ≠ session) :
    verdict (established ++ [session]) log i = verdict established log i := by
  simp [verdict, hne]

/-- The present session is connected, and noted. -/
theorem Told.onConnected {v : ConnectionHandler} (h : Told established c) (horderly : c.Orderly)
    (hstate : c.connectionHandler.state = .eConnecting) (hv : v.state = .eReceiverInit)
    (herror : c.connectionHandler.amqpError = true → v.amqpError = true) :
    Told (established ++ [c.session]) (c.setHandler c.session v).onConnected := by
  have hne : c.connectionHandler.state ≠ .eNotConnected := by simp [hstate]
  have hlt := session_lt_of_state hne
  have hnot := h.attempt (Or.inr hstate)
  have hu : (v.onData protocolHeader).1.state = .eReady := ConnectionHandler.state_onData hv _
  have hset : Told established (c.setHandler c.session (v.onData protocolHeader).1) := by
    refine h.setHandler hlt (fun hc ↦ ?_) fun hconnecting ↦ by simp [hu] at hconnecting
    exact ConnectionHandler.amqpError_method (e := .onData protocolHeader) rfl (herror hc)
  rw [onConnected_setHandler v hlt]
  refine Told.callStartedCb ?_
  have hsession := session_setHandler c c.session (v.onData protocolHeader).1
  refine { hset with
    attempt := fun hconnecting ↦ ?_, ready := fun _ ↦ ?_, known := fun i hi ↦ ?_
    issued := fun i hi ↦ List.mem_append_left _ (hset.issued i hi), acted := fun i hi ↦ ?_
    codes := fun i code hcode ↦ ?_ }
  · have hready : (c.setHandler c.session (v.onData protocolHeader).1).connectionHandler.state =
        .eReady := by
      rw [connectionHandler_setHandler c _ hlt, hu]
    have hstates := Or.imp hready.symm.trans hready.symm.trans hconnecting
    simp at hstates
  · exact List.mem_append_right _ (List.mem_singleton.mpr hsession)
  · rcases List.mem_append.mp hi with hi | hi
    · exact hset.known i hi
    · obtain rfl := List.mem_singleton.mp hi
      exact (length_setHandler c c.session _).symm ▸ hlt
  · have hi' := (h.acted i hi).1
    refine ⟨List.mem_append_left _ hi', ?_⟩
    rintro rfl
    exact absurd (hsession ▸ hi') hnot
  · have hi : i ≠ c.session := by
      rintro rfl
      have hnone := horderly.unanswered c.session (Or.inr ⟨rfl, Or.inr hne⟩)
      have hcode' : code ∈ exitCodes c.session c.log := hcode
      simp [hnone] at hcode'
    rw [verdict_append_of_ne hi]
    exact hset.codes i code hcode

/-- A method of a handler is called, which may establish the connection of its session. -/
theorem Told.handle {r : ConnectionHandler × ConnectionHandler.Continuation}
    (h : Told established c) (horderly : c.Orderly) (hlt : session < c.handlers.length)
    (hacts : (c.handler session).Acts r)
    (herror : (c.handler session).amqpError = true → r.1.amqpError = true) :
    Told (established ++ if r.2 = .connectedCb then [session] else []) (c.handle session r) := by
  have hsound := hacts.sound (horderly.sound _ (handler_mem hlt))
  have htransition := hacts.transition
  obtain ⟨v, next⟩ := r
  have hcurrent (hstate : (c.handler session).state ≠ .eNotConnected) : session = c.session := by
    by_contra hne
    refine hstate (horderly.others session ?_)
    unfold Connector.session at hne ⊢
    omega
  have hsame (hstate : v.state = (c.handler session).state) :
      Told established (c.setHandler session v) :=
    h.alike (alike_setHandler hlt (fun _ ↦ hsound) hstate) (amqpError_setHandler herror)
  simp only [Connector.handle]
  cases next <;> simp only [ConnectionHandler.Transition] at htransition <;>
    simp only [reduceCtorEq, ↓reduceIte, List.append_nil]
  case done =>
    rcases htransition with hstate | ⟨⟨hstate, hv⟩ | ⟨hstate, hv⟩ | ⟨hstate, hv⟩, -⟩
    · exact hsame hstate
    · obtain rfl := hcurrent (by simp [hstate])
      exact h.setHandler hlt herror fun _ ↦ h.attempt (Or.inl hstate)
    all_goals
      obtain rfl := hcurrent (by simp [hstate])
      refine h.setHandler hlt herror fun hv' ↦ ?_
      simp [hv] at hv'
  case connectedCb =>
    obtain ⟨hstate, hv⟩ := htransition
    obtain rfl := hcurrent (by simp [hstate])
    exact h.onConnected horderly hstate hv herror
  case parse => exact (hsame htransition.2).quiet (quiet_push _ rfl)
  case shutdownLoop =>
    obtain ⟨hstate, hv⟩ := htransition
    obtain rfl := hcurrent hstate
    change Told established (if v.waiting then
      (c.setHandler c.session v).push (.shutdownLoop c.session)
      else (c.setHandler c.session v).finish c.session)
    split
    · have hset : Told established (c.setHandler c.session v) := by
        refine h.setHandler hlt herror fun hv' ↦ ?_
        simp [hv] at hv'
      have hwork : ((c.setHandler c.session v).push (.shutdownLoop c.session)).work =
          .shutdown c.session :: (c.setHandler c.session v).work := rfl
      refine { hset with issued := fun i hi ↦ ?_, drops := fun i hi ↦ ?_ }
      · rw [hwork] at hi
        exact hset.issued i (hi.imp_right fun hi ↦ by simpa using hi)
      · rw [hwork] at hi
        exact hset.drops i (by simpa using hi)
    · rw [finish_setHandler v hlt]
      exact h.shutdownCb (v := v.endShutdown.1) c.stack horderly hstate herror rfl
        fun _ htask ↦ htask
  case shutdownCb message =>
    obtain ⟨hstate, hv, -⟩ := htransition
    have hne : (c.handler session).state ≠ .eNotConnected := by
      rcases hstate with hs | hs <;> simp [hs]
    obtain rfl := hcurrent hne
    exact h.shutdownCb c.stack horderly hne herror hv fun _ htask ↦ htask

/-! ### The next session -/

/-- A session begins, which has not been connected yet. -/
theorem Told.begin {l : List ConnectionHandler} (h : Told established c) (horderly : c.Orderly)
    (hready : c.connectionHandlerReady = false) (hlength : l.length = c.handlers.length)
    (hkeep : ∀ i, exitCodes i c.log ≠ [] → (c.handler i).amqpError = true →
      (l.getD i ConnectionHandler.new).amqpError = true) (callback : Option StartedCallback) :
    Told established (c.begun callback l) := by
  have hsession := session_begun c callback l
  have hdown : c.connectionHandlerReady ≠ true := by simp [hready]
  refine { h with
    attempt := fun _ hmem ↦ ?_, ready := fun hup ↦ absurd hup hdown, known := fun i hi ↦ ?_
    exiting := fun hexiting ↦ by cases hexiting
    acted := fun i hi ↦ ⟨(h.acted i hi).1, fun _ hup ↦ absurd hup hdown⟩
    drops := fun i hi ↦ absurd (horderly.drops i hi).2.1 hdown, codes := fun i code hcode ↦ ?_ }
  · rw [hsession, hlength] at hmem
    exact Nat.lt_irrefl _ (h.known _ hmem)
  · rw [begun, List.length_append, hlength]
    exact Nat.lt_add_right _ (h.known i hi)
  · refine (h.codes i code hcode).imp_right fun hamqp hcode' ↦ ?_
    have herror := hamqp hcode'
    have hlt : i < l.length := by
      rw [hlength]
      by_contra hle
      rw [handler_of_le (Nat.not_lt.mp hle)] at herror
      cases herror
    rw [handler_begun c callback hlt]
    exact hkeep i (List.ne_nil_of_mem hcode) herror

theorem Told.asyncStart (h : Told established c) (horderly : c.Orderly)
    (callback : Option StartedCallback) : Told established (c.asyncStart callback) := by
  by_cases hready : c.connectionHandlerReady = true
  · rwa [asyncStart_of_ready hready]
  · have hready' : c.connectionHandlerReady = false := by simpa using hready
    have hdown : c.connectionHandler.connected = false := by
      by_contra hup
      exact hready (horderly.ready (by simpa using hup))
    rcases asyncStart_cases callback hready' horderly.sound hdown with
      ⟨-, heq⟩ | ⟨hstate, v, -, -, heq⟩
    · rw [heq]
      exact h.begin horderly hready' rfl (fun _ _ herror ↦ herror) callback
    · rw [heq]
      have hlt := session_lt_of_state hstate
      have hbegin := h.begin (l := c.handlers.set c.session v) horderly hready' List.length_set
        (fun i hcodes herror ↦ ?_) callback
      · refine (hbegin.quiet (quiet_push _ rfl)).onShutdown (Or.inr ⟨rfl, hready'⟩) fun _ _ ↦ ?_
        refine h.attempt ?_
        revert hdown hstate
        unfold ConnectionHandler.connected
        cases c.connectionHandler.state <;> simp
      · -- The session that is ended here has not been answered yet.
        have hne : i ≠ c.session := by
          rintro rfl
          exact hcodes (horderly.unanswered c.session (Or.inr ⟨rfl, Or.inr hstate⟩))
        rw [List.getD_eq_getElem?_getD, List.getElem?_set_ne hne.symm]
        rwa [handler, List.getD_eq_getElem?_getD] at herror

/-! ### The handler of a stop, and the tasks -/

/-- The handler of a `stop()` ends the present session. -/
theorem Told.recordActed (h : Told established c) (hissued : c.session ∈ established)
    (hcodes : exitCodes c.session c.log = []) (hdrops : ∀ i, .drop i ∉ c.work) :
    Told established { c.record (.acted c.session c.session) with exiting := true } := by
  have hacts (i : ℕ) : .acted i i ∈ (c.record (.acted c.session c.session)).log ↔
      .acted i i ∈ c.log ∨ i = c.session := by
    simp [record]
  refine { h with
    exiting := fun _ ↦ (hacts _).mpr (Or.inr rfl), acted := fun i hi ↦ ⟨?_, fun _ _ ↦ rfl⟩
    drops := fun i hi ↦ absurd hi (hdrops i), codes := fun i code hcode ↦ ?_ }
  · rcases (hacts i).mp hi with hi | rfl
    exacts [(h.acted i hi).1, hissued]
  · have hcode' : code ∈ exitCodes i c.log := by
      rwa [exitCodes_record_acted] at hcode
    have hne : i ≠ c.session := by
      rintro rfl
      simp [hcodes] at hcode'
    rw [verdict_congr ((hacts i).trans (or_iff_left hne))]
    exact h.codes i code hcode'

theorem Orderly.recordActed (h : c.Orderly) :
    { c.record (.acted c.session c.session) with exiting := true }.Orderly := by
  refine { h with exits := fun i ↦ ?_, unanswered := fun i hi ↦ ?_, acted := fun k i hk ↦ ?_ }
  · rw [exitCodes_record_acted]
    exact h.exits i
  · rw [exitCodes_record_acted]
    exact h.unanswered i hi
  · rw [record, List.mem_append, List.mem_singleton] at hk
    rcases hk with hk | hk
    · exact h.acted k i hk
    · obtain ⟨rfl, rfl⟩ := Observation.acted.inj hk
      rfl

theorem Told.stopHandler (h : Told established c) (horderly : c.Orderly)
    (hissued : c.session ∈ established) (hdrops : ∀ i, .drop i ∉ c.work) :
    Told established (c.stopHandler c.session) := by
  unfold Connector.stopHandler
  split
  · split
    · next hready =>
      have hcodes := horderly.unanswered c.session (Or.inr ⟨rfl, Or.inl hready⟩)
      have hrecord := h.recordActed hissued hcodes hdrops
      have hover : Told established (c.record (.acted c.session c.session)).disconnected :=
        { hrecord.disconnected with
          exiting := fun _ ↦ hrecord.exiting rfl
          acted := fun i hi ↦ ⟨(hrecord.acted i hi).1, fun _ hup ↦ by cases hup⟩ }
      refine hover.exit ?_ (by simp)
      have hacted : .acted c.session c.session ∈
          (c.record (.acted c.session c.session)).disconnected.log := hrecord.exiting rfl
      simp [verdict, hacted]
    · exact h
  · next hstopped =>
    have hstate : c.connectionHandler.state ≠ .eNotConnected := by
      simpa [ConnectionHandler.stopped] using hstopped
    have hcodes := horderly.unanswered c.session (Or.inr ⟨rfl, Or.inr hstate⟩)
    have hrecord := h.recordActed hissued hcodes hdrops
    have hhandle := hrecord.handle horderly.recordActed (session_lt_of_state hstate)
      (ConnectionHandler.acts_stop _) (ConnectionHandler.amqpError_method (e := .stop) rfl)
    have hnext : c.connectionHandler.stop.2 ≠ .connectedCb := by
      unfold ConnectionHandler.stop
      split <;> simp [ConnectionHandler.goto, ConnectionHandler.stateMachine]
    have hnone : (if c.connectionHandler.stop.2 = .connectedCb then [c.session] else []) = [] :=
      if_neg hnext
    exact List.append_nil established ▸ hnone ▸ hhandle

/-- A task is performed. -/
theorem Told.perform {task : Task} {stack : List Frame} (h : Told established c)
    (horderly : c.Orderly) (htasks : c.tasks = task :: { c with stack := stack }.tasks)
    (hacts : ∀ issued, task = .stopHandler issued → ∀ i, .drop i ∉ c.tasks) :
    Told established (task.perform { c with stack := stack }) := by
  have hwork := work_of_tasks htasks
  have hsub (other : Task) (hother : other ∈ { c with stack := stack }.work) : other ∈ c.work :=
    hwork ▸ List.mem_append_right _ hother
  have hpop := h.pop hsub
  cases task with
  | shutdown session =>
    obtain ⟨rfl, hstate⟩ := horderly.shutdown_mem (i := session) (by simp [hwork, Task.isWork])
    have hne : c.connectionHandler.state ≠ .eNotConnected := by simp [hstate]
    exact h.shutdownCb (v := c.connectionHandler.endShutdown.1) stack horderly hne id rfl hsub
  | stop issued =>
    have hissued := h.issued issued (Or.inr (Or.inl (by simp [hwork, Task.isWork])))
    refine { hpop with issued := fun i hi ↦ ?_ }
    rw [Task.perform, List.mem_append, List.mem_singleton] at hi
    rcases hi with (hi | rfl) | hi
    exacts [hpop.issued i (Or.inl hi), hissued, hpop.issued i (Or.inr hi)]
  | stopHandler issued =>
    have hmem : .stopHandler issued ∈ c.work := by simp [hwork, Task.isWork]
    have hissued := h.issued issued (Or.inr (Or.inr hmem))
    obtain rfl := horderly.issued issued (Or.inr hmem)
    refine hpop.stopHandler ?_ hissued fun i hi ↦ hacts c.session rfl i ?_
    · exact horderly.pop hwork (by simp)
    · exact (mem_work rfl).mp (hsub _ hi)
  | drop session =>
    have hmem : .drop session ∈ c.work := by simp [hwork, Task.isWork]
    obtain ⟨rfl, hready, -⟩ := horderly.drops session hmem
    obtain ⟨hacted, herror⟩ := h.drops c.session hmem
    refine hpop.disconnected.exit ?_ fun _ ↦ herror
    have hacted' : .acted c.session c.session ∉ { c with stack := stack }.disconnected.log := hacted
    simp [verdict, hacted', h.ready hready]
  | restart code =>
    exact hpop.alike_of_handlers (alike_restart _ code) (calls_restart _ code).plain.handlers
  | backup | autoStop => exact { hpop with }
  | autoStart =>
    refine hpop.alike_of_handlers ?_ rfl
    exact alike_of_eq [.startReturned] rfl rfl rfl rfl rfl rfl (by simp [Observation.isAside])

/-! ### The step -/

/-- The session whose connection an event establishes. -/
def establishes (c : Connector) : Event → List ℕ
  | .handler session (.connectDone none) =>
    if (c.handler session).state = .eConnecting then [session] else []
  | _ => []

theorem establishes_handler (c : Connector) (session : ℕ) (e : ConnectionHandler.Event) :
    c.establishes (.handler session e) =
      if e = .connectDone none ∧ (c.handler session).state = .eConnecting then [session]
      else [] := by
  cases e with
  | connectDone ec => cases ec <;> simp [establishes]
  | _ => simp [establishes]

theorem Quiet.establishes (h : Quiet c c') (e : Event) : c'.establishes e = c.establishes e := by
  unfold Connector.establishes handler
  rw [h.handlers]

theorem Told.occur {e : Event} (h : Told established c) (horderly : c.Orderly)
    (hoccur : c.occur e = some c') : Told (established ++ c.establishes e) c' := by
  have hsame (he : c.establishes e = []) (htold : Told established c') :
      Told (established ++ c.establishes e) c' := by
    rwa [he, List.append_nil]
  cases e with
  | remove =>
    rw [← Option.some.inj hoccur] at hsame ⊢
    exact hsame rfl { h with }
  | run => exact hsame rfl (Option.some.inj hoccur ▸ h.quiet (quiet_run c))
  | asyncStart callback => exact hsame rfl (Option.some.inj hoccur ▸ h.asyncStart horderly _)
  | start =>
    rw [← Option.some.inj hoccur] at hsame ⊢
    refine hsame rfl ?_
    unfold Connector.start
    split
    · exact h
    · have hquiet := quiet_push c (f := .startLoop false) rfl
      exact (h.quiet hquiet).asyncStart (horderly.alike hquiet.alike) none
  | stop => exact hsame rfl (Option.some.inj hoccur ▸ h.stop)
  | onExit f =>
    rw [← Option.some.inj hoccur] at hsame ⊢
    refine hsame rfl (h.alike_of_handlers ?_ rfl)
    exact alike_of_eq [.installed f] rfl rfl rfl rfl rfl rfl (by simp [Observation.isAside])
  | autoStart callback =>
    rw [← Option.some.inj hoccur] at hsame ⊢
    refine hsame rfl ?_
    simp only [Connector.autoStart]
    split
    · exact h
    · have halike : Alike c (({ c with
          auto := { c.auto with
            needStop := false
            rerun := false
            backupExitCallback := c.exitCb
            startedCallback := callback }, exitCb := some .restart }.record .startAccepted).push
          .autoStart) :=
        alike_of_eq [.startAccepted] rfl rfl rfl rfl rfl rfl (by simp [Observation.isAside])
      exact (h.alike_of_handlers halike rfl).asyncStart (horderly.alike halike) _
  | autoStop =>
    rw [← Option.some.inj hoccur] at hsame ⊢
    refine hsame rfl ?_
    have hcalled : Told established (c.record .stopCalled) := h.alike_of_handlers
      (alike_of_eq [.stopCalled] rfl rfl rfl rfl rfl rfl (by simp [Observation.isAside])) rfl
    simp only [Connector.autoStop]
    split
    · exact hcalled
    · split
      · refine Told.stop ?_
        exact { hcalled with }
      · exact { hcalled with }
  | handler session e =>
    obtain ⟨⟨hlt, -⟩, hoccur⟩ := Option.ite_none_right_eq_some.mp hoccur
    obtain ⟨r, hmethod, rfl⟩ := Option.map_eq_some_iff.mp hoccur
    have hhandle := h.handle horderly hlt (ConnectionHandler.acts_method hmethod)
      (ConnectionHandler.amqpError_method hmethod)
    have hcb := (horderly.sound _ (handler_mem hlt)).connectedCb
    simp only [ConnectionHandler.connectedCb_iff_of_method hcb hmethod] at hhandle
    rw [establishes_handler]
    exact hhandle
  | posted k =>
    obtain ⟨issued, hk, rfl⟩ := Option.map_eq_some_iff.mp hoccur
    have hissued := h.issued issued (Or.inl (List.mem_of_getElem? hk))
    refine hsame rfl ?_
    refine Told.pushStop (c := { c with posted := c.posted.eraseIdx k }) ?_ rfl (Or.inr rfl) hissued
    exact { h with issued := fun j hj ↦ h.issued j (hj.imp_left List.mem_of_mem_eraseIdx) }
  | timerExpires =>
    obtain ⟨-, hoccur⟩ := Option.ite_none_right_eq_some.mp hoccur
    rw [← Option.some.inj hoccur] at hsame ⊢
    exact hsame rfl { h with }
  | timerHandler =>
    obtain ⟨-, hoccur⟩ := Option.ite_none_left_eq_some.mp hoccur
    rw [← Option.some.inj hoccur] at hsame ⊢
    refine hsame rfl (Told.asyncStart ?_ ?_ _)
    · exact { h with }
    · exact { horderly with }

theorem told_new : Told [] Connector.new where
  attempt := by simp
  ready := by simp [Connector.new]
  known := by simp
  issued := by simp [Connector.new, work, tasks]
  exiting := by simp [Connector.new]
  acted := by simp [Connector.new]
  drops := by simp [Connector.new, work, tasks]
  codes := by simp [Connector.new, exitCodes]

/-! ### Whether a run is in order can be decided -/

/-- The task is what is left of a `stop()`, or of its handler. -/
def Task.isStop : Task → Bool
  | .stop _ | .stopHandler _ => true
  | _ => false

/-- The task is to drop the connection of a session. -/
def Task.isDrop : Task → Bool
  | .drop _ => true
  | _ => false

theorem noStop_iff : c.NoStop ↔ c.posted = [] ∧ ∀ task ∈ c.tasks, task.isStop = false := by
  constructor
  · rintro ⟨hposted, htasks⟩
    refine ⟨hposted, fun task htask ↦ ?_⟩
    cases task with
    | stop issued => exact absurd htask (htasks issued).1
    | stopHandler issued => exact absurd htask (htasks issued).2
    | _ => rfl
  · rintro ⟨hposted, htasks⟩
    refine ⟨hposted, fun issued ↦ ⟨fun htask ↦ ?_, fun htask ↦ ?_⟩⟩
    · simpa [Task.isStop] using htasks _ htask
    · simpa [Task.isStop] using htasks _ htask

theorem forall_drop_notMem_iff :
    (∀ i, .drop i ∉ c.tasks) ↔ ∀ task ∈ c.tasks, task.isDrop = false := by
  constructor
  · intro hdrops task htask
    cases task with
    | drop i => exact absurd htask (hdrops i)
    | _ => rfl
  · intro hdrops i htask
    simpa [Task.isDrop] using hdrops _ htask

instance (c : Connector) : Decidable c.NoStop := decidable_of_iff _ noStop_iff.symm

instance (c : Connector) : Decidable (∀ i, .drop i ∉ c.tasks) :=
  decidable_of_iff _ forall_drop_notMem_iff.symm

instance (c : Connector) : ∀ e, Decidable (c.StartsSession e)
  | .asyncStart _ | .start | .timerHandler =>
    inferInstanceAs (Decidable (c.connectionHandlerReady = false))
  | .autoStart _ =>
    inferInstanceAs (Decidable (c.auto.started = false ∧ c.connectionHandlerReady = false))
  | .remove _ | .run | .stop | .onExit _ | .autoStop | .handler _ _ | .posted _ | .timerExpires =>
    isFalse id

instance (c : Connector) : ∀ e, Decidable (c.InOrder e)
  | .handler session e => decidable_of_iff ((c.handler session).Undisturbed e)
      ⟨fun h ↦ ⟨fun _ _ he ↦ (Event.handler.inj he).1 ▸ (Event.handler.inj he).2 ▸ h, False.elim⟩,
        fun h ↦ h.1 session e rfl⟩
  | .asyncStart callback => decidable_of_iff (c.StartsSession (.asyncStart callback) → c.NoStop)
      ⟨fun h ↦ ⟨by simp, h⟩, And.right⟩
  | .start => decidable_of_iff (c.StartsSession .start → c.NoStop)
      ⟨fun h ↦ ⟨by simp, h⟩, And.right⟩
  | .timerHandler => decidable_of_iff (c.StartsSession .timerHandler → c.NoStop)
      ⟨fun h ↦ ⟨by simp, h⟩, And.right⟩
  | .autoStart callback => decidable_of_iff (c.StartsSession (.autoStart callback) → c.NoStop)
      ⟨fun h ↦ ⟨by simp, h⟩, And.right⟩
  | .remove _ | .run | .stop | .onExit _ | .autoStop | .posted _ | .timerExpires =>
    isTrue ⟨by simp, False.elim⟩

instance (c : Connector) : Decidable c.ActsInOrder :=
  match h : c.due with
  | some (.stopHandler issued) =>
    decidable_of_iff (c.connectionHandler.state ≠ .eShutdown ∧ ∀ i, .drop i ∉ c.tasks)
      ⟨fun hacts _ _ ↦ hacts, fun hacts ↦ hacts issued h⟩
  | none | some (.shutdown _) | some (.stop _) | some (.drop _) | some (.restart _) | some .backup
  | some .autoStart | some .autoStop => isTrue (by simp [ActsInOrder, h])

end Connector

/-- A program, and the sessions in which a connection has been established. -/
structure Connections (τ : Type) where
  program : Program τ
  established : List ℕ

namespace Connections

open Connector

variable {τ ε : Type}

/-- The session whose connection an event establishes. -/
def establishes (p : Program τ) : Program.Event ε → List ℕ
  | .connector e => p.connector.establishes e
  | _ => []

theorem establishes_eq_nil {p : Program τ} {e : Program.Event ε} (he : ∀ e', e ≠ .connector e') :
    establishes p e = [] := by
  cases e with
  | connector e => exact absurd rfl (he e)
  | _ => rfl

variable [TransceiverImpl τ ε] {x y : Connections τ}

/-- One event. -/
def step (x : Connections τ) (e : Program.Event ε) : Option (Connections τ) :=
  (x.program.step e).map fun p ↦ ⟨p, x.established ++ establishes x.program e⟩

/-- A program at the construction of its connector. -/
def initial (τ : Type) : Connections τ := ⟨Program.initial τ, []⟩

/-- The runs of a program from the construction of its connector on. -/
def machine (τ : Type) {ε : Type} [TransceiverImpl τ ε] :
    Machine (Connections τ) (Program.Event ε) where
  init x := x = initial τ
  step := step

/-- The sessions are kept apart. -/
def InOrder (x : Connections τ) (e : Program.Event ε) : Prop := x.program.InOrder e

instance (x : Connections τ) : ∀ e : Program.Event ε, Decidable (x.InOrder e)
  | .connector e => inferInstanceAs (Decidable (x.program.connector.InOrder e))
  | .resume => inferInstanceAs (Decidable x.program.connector.ActsInOrder)
  | .transceiver _ _ _ _ | .open _ | .close _ | .call _ _ | .parsed _ _ => isTrue trivial

/-- What the exit callback is told of a session is so: a `stop()` of it has acted; its connection
was not established; or its connection was established, no `stop()` of it has acted, and AMQP-CPP
has reported an error. -/
structure Truthful (x : Connections τ) (session : ℕ) (code : ExitCode) : Prop where
  eNormal : code = .eNormal ↔ .acted session session ∈ x.program.connector.log
  eBrokerConnectError : code = .eBrokerConnectError ↔ session ∉ x.established
  eAmqpError : code = .eAmqpError ↔
    session ∈ x.established ∧ .acted session session ∉ x.program.connector.log
  amqpError : code = .eAmqpError → (x.program.connector.handler session).amqpError = true

theorem told_step {e : Program.Event ε} (h : Told x.established x.program.connector)
    (horderly : x.program.connector.Orderly) (horder : x.InOrder e)
    (hstep : step x e = some y) : Told y.established y.program.connector := by
  obtain ⟨p, hp, rfl⟩ := Option.map_eq_some_iff.mp hstep
  have hmoves := Program.moves_of_step hp
  simp only
  generalize p.connector = c' at hmoves
  cases hmoves with
  | quiet he hquiet =>
    rw [establishes_eq_nil he, List.append_nil]
    exact h.quiet hquiet
  | @occur e c₁ _ hquiet hoccur =>
    have h₁ := (h.quiet hquiet).occur (horderly.alike hquiet.alike) hoccur
    rwa [hquiet.establishes] at h₁
  | @parsed parsed expected session c₁ r hquiet hparsed =>
    have h₁ := h.quiet hquiet
    rw [establishes_eq_nil (by simp), List.append_nil]
    by_cases hlt : session < c₁.handlers.length
    · have hhandle := h₁.handle (horderly.alike hquiet.alike) hlt
        (ConnectionHandler.acts_onParsed hparsed)
        fun herror ↦ ((ConnectionHandler.kept_onParsed hparsed).2 (by simp)).trans herror
      rwa [if_neg (ConnectionHandler.onParsed_ne_connectedCb hparsed), List.append_nil] at hhandle
    · rw [handler_of_le (Nat.not_lt.mp hlt)] at hparsed
      obtain rfl := Option.some.inj hparsed
      rw [Connector.handle, setHandler_of_le (Nat.not_lt.mp hlt)]
      exact h₁
  | @shutdownCb session c₁ hquiet =>
    have h₁ := h.quiet hquiet
    rw [establishes_eq_nil (by simp), List.append_nil]
    by_cases hlt : session < c₁.handlers.length
    · exact h₁.alike (alike_setHandler hlt (fun hsound ↦ hsound.endShutdownCb) rfl)
        (amqpError_setHandler id)
    · rw [setHandler_of_le (Nat.not_lt.mp hlt)]
      exact h₁
  | perform hdue hwaits htasks =>
    rw [establishes_eq_nil (by simp), List.append_nil]
    refine h.perform horderly htasks fun issued hissued ↦ ?_
    exact (horder issued (hissued ▸ hdue)).2

/-- A session is told what there is to tell of it. -/
theorem truthful_of_told {session : ℕ} {code : ExitCode}
    (h : Told x.established x.program.connector)
    (hcode : code ∈ exitCodes session x.program.connector.log) : x.Truthful session code := by
  obtain ⟨rfl, herror⟩ := h.codes session code hcode
  have hacted := h.acted session
  by_cases hact : .acted session session ∈ x.program.connector.log
  · have hmem := (hacted hact).1
    constructor <;> simp_all [verdict]
  · by_cases hmem : session ∈ x.established
    · constructor <;> simp_all [verdict]
    · constructor <;> simp_all [verdict]

/-- As long as a run is in order, the exit callback is told how each session has ended. -/
theorem truthful_of_reachedBy (h : (machine τ).ReachedBy InOrder x) (session : ℕ) :
    ∀ code ∈ exitCodes session x.program.connector.log, x.Truthful session code := by
  have hinv : x.program.connector.Orderly ∧ Told x.established x.program.connector := by
    refine h.invariant
      (I := fun y ↦ y.program.connector.Orderly ∧ Told y.established y.program.connector)
      (fun y hy ↦ ?_) fun y e z hy horder hstep ↦ ?_
    · obtain rfl : y = initial τ := hy
      exact ⟨orderly_new, told_new⟩
    · refine ⟨?_, told_step hy.2 hy.1 horder hstep⟩
      obtain ⟨p, hp, rfl⟩ := Option.map_eq_some_iff.mp hstep
      exact Program.orderly_step hy.1 horder hp
  exact fun code hcode ↦ truthful_of_told hinv.2 hcode

/-- The first connection is lost by an error of AMQP-CPP, the second is stopped, and the third is
not established. -/
def threeSessions : List (Program.Event Transceiver.Event) :=
  [.connector (.onExit (some 7)), .connector (.asyncStart false),
    .connector (.handler 0 (.resolved none)), .connector (.handler 0 (.connectDone none)),
    .connector (.handler 0 (.onError "frame error")),
    .connector (.handler 0 (.wrote (some "aborted") 0)),
    .connector (.handler 0 (.read (some "aborted") 0 8)), .resume, .resume, .resume, .resume,
    .connector (.asyncStart false), .connector (.handler 1 (.resolved none)),
    .connector (.handler 1 (.connectDone none)), .connector .stop, .resume, .connector (.posted 0),
    .resume, .connector (.handler 1 (.wrote (some "aborted") 0)),
    .connector (.handler 1 (.read (some "aborted") 0 8)), .resume, .resume, .resume,
    .connector (.asyncStart false), .connector (.handler 2 (.resolved (some "host not found")))]

/-- The three ways in which a session can end, each told by its code. -/
theorem truthful_threeSessions :
    ∃ x, (machine Transceiver).run (initial Transceiver) threeSessions = some x ∧
      x.established = [0, 1] ∧ x.Truthful 0 .eAmqpError ∧ x.Truthful 1 .eNormal ∧
      x.Truthful 2 .eBrokerConnectError := by
  have hcodes : ((machine Transceiver).run (initial Transceiver) threeSessions).map (fun x ↦
      (x.established, exitCodes 0 x.program.connector.log, exitCodes 1 x.program.connector.log,
        exitCodes 2 x.program.connector.log)) =
      some ([0, 1], [.eAmqpError], [.eNormal], [.eBrokerConnectError]) := by decide
  obtain ⟨x, hrun, hx⟩ := Option.map_eq_some_iff.mp hcodes
  obtain ⟨hestablished, hcodes⟩ := Prod.mk.inj hx
  obtain ⟨hlost, hcodes⟩ := Prod.mk.inj hcodes
  obtain ⟨hstopped, hfailed⟩ := Prod.mk.inj hcodes
  have htold := truthful_of_reachedBy ⟨initial Transceiver, threeSessions, rfl, hrun, by decide⟩
  exact ⟨x, hrun, hestablished, htold 0 _ (by simp [hlost]), htold 1 _ (by simp [hstopped]),
    htold 2 _ (by simp [hfailed])⟩

end Connections

end AmqpAsio
