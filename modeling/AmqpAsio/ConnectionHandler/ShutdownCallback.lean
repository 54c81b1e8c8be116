import AmqpAsio.ConnectionHandler.Execution

/-!
# How often the shutdown callback is invoked

An accepted `start()` that comes back to `eNotConnected` should be answered by one call of
`m_shutdownCb`, with the message of the event that ended it. The loop of `case eShutdown` runs
whatever the event loop holds, and `stop()`, `onError()` and `onClosed()` do not test for it: called
then, each begins a second shutdown inside the first and rewrites `m_lastError`. As long as none of
them comes, the callback is invoked once, with the right message.
-/

set_option autoImplicit false
set_option relaxedAutoImplicit false

namespace AmqpAsio

namespace ConnectionHandler

/-- The frame is the loop of `case eShutdown`. -/
def Frame.isLoop : Frame → Bool
  | .shutdownLoop _ => true
  | _ => false

/-- The accepted `start()` that an observation is about. -/
def Observation.run : Observation → ℕ
  | .began n _ | .shutdownCb n _ => n

/-- The event is no `stop()`, `onError()` or `onClosed()` that comes during the shutdown. -/
def Undisturbed (h : ConnectionHandler) (e : Event) : Prop :=
  h.state = .eShutdown → e ≠ .stop ∧ e ≠ .onClosed ∧ ∀ message, e ≠ .onError message

namespace Execution

variable {x x' : Execution}

/-! ### What the callback is told -/

/-- The messages of the events that have ended an accepted `start()`. -/
def begun (run : ℕ) (log : List Observation) : List String :=
  log.filterMap fun
    | .began n message => if n = run then some message else none
    | _ => none

/-- The messages that `m_shutdownCb` has been called with for an accepted `start()`. -/
def called (run : ℕ) (log : List Observation) : List String :=
  log.filterMap fun
    | .shutdownCb n message => if n = run then some message else none
    | _ => none

@[simp] theorem begun_append (run : ℕ) (first second : List Observation) :
    begun run (first ++ second) = begun run first ++ begun run second := by
  simp [begun]

@[simp] theorem called_append (run : ℕ) (first second : List Observation) :
    called run (first ++ second) = called run first ++ called run second := by
  simp [called]

@[simp] theorem begun_began (run n : ℕ) (message : String) :
    begun run [.began n message] = if n = run then [message] else [] := by
  by_cases h : n = run <;> simp [begun, h]

@[simp] theorem begun_shutdownCb (run n : ℕ) (message : String) :
    begun run [.shutdownCb n message] = [] := rfl

@[simp] theorem called_began (run n : ℕ) (message : String) :
    called run [.began n message] = [] := rfl

@[simp] theorem called_shutdownCb (run n : ℕ) (message : String) :
    called run [.shutdownCb n message] = if n = run then [message] else [] := by
  by_cases h : n = run <;> simp [called, h]

/-- One event has ended the accepted `start()`, and the callback has been called once, with its
message. -/
def Answered (x : Execution) (run : ℕ) : Prop :=
  ∃ message, begun run x.log = [message] ∧ called run x.log = [message]

/-- Every accepted `start()` that has come back to `eNotConnected` has been answered. -/
def AllAnswered (x : Execution) : Prop :=
  ∀ run, 1 ≤ run → run < x.starts ∨ run = x.starts ∧ x.handler.state = .eNotConnected →
    x.Answered run

/-! ### The invariant -/

/-- The stack while the handler shuts down: one loop, of the present `start()`, and no
`m_shutdownCb` above it. -/
def Looping (run : ℕ) (stack : List Frame) : Prop :=
  ∃ above below, stack = above ++ .shutdownLoop run :: below ∧
    (∀ f ∈ above, f ≠ .shutdownCb ∧ f.isLoop = false) ∧
    ∀ f ∈ below, f.isLoop = false

/-- What has been recorded of the present `start()`, and the loops on the stack, in a state. -/
def Present (x : Execution) : State → Prop
  | .eNotConnected =>
    (1 ≤ x.starts → x.Answered x.starts) ∧ ∀ f ∈ x.stack, f.isLoop = false
  | .eShutdown =>
    begun x.starts x.log = [x.handler.lastError] ∧ called x.starts x.log = [] ∧
      Looping x.starts x.stack
  | _ =>
    begun x.starts x.log = [] ∧ called x.starts x.log = [] ∧
      ∀ f ∈ x.stack, f.isLoop = false

/-- Every earlier `start()` has been answered, none to come has, and the present one is as its state
says. -/
structure Invariant (x : Execution) : Prop where
  earlier : ∀ run, 1 ≤ run → run < x.starts → x.Answered run
  toCome : ∀ run, x.starts < run → begun run x.log = [] ∧ called run x.log = []
  present : x.Present x.handler.state

theorem begun_eq_nil {run : ℕ} {log : List Observation} (h : ∀ o ∈ log, o.run ≠ run) :
    begun run log = [] := by
  refine List.filterMap_eq_nil_iff.mpr fun o ho ↦ ?_
  have hne := h o ho
  cases o <;> simp_all [Observation.run]

theorem called_eq_nil {run : ℕ} {log : List Observation} (h : ∀ o ∈ log, o.run ≠ run) :
    called run log = [] := by
  refine List.filterMap_eq_nil_iff.mpr fun o ho ↦ ?_
  have hne := h o ho
  cases o <;> simp_all [Observation.run]

/-- Observations about the present `start()` change nothing about the others. -/
theorem Invariant.of_present (h : x.Invariant) (new : List Observation)
    (hstarts : x'.starts = x.starts) (hlog : x'.log = x.log ++ new)
    (hnew : ∀ o ∈ new, o.run = x.starts) (hpresent : x'.Present x'.handler.state) :
    x'.Invariant := by
  have hother {run : ℕ} (hrun : run ≠ x.starts) :
      begun run x'.log = begun run x.log ∧ called run x'.log = called run x.log := by
    have hne : ∀ o ∈ new, o.run ≠ run := fun o ho ↦ (hnew o ho).symm ▸ hrun.symm
    simp [hlog, begun_eq_nil hne, called_eq_nil hne]
  refine ⟨fun run hpos hlt ↦ ?_, fun run hlt ↦ ?_, hpresent⟩
  · rw [hstarts] at hlt
    obtain ⟨message, hbegun, hcalled⟩ := h.earlier run hpos hlt
    obtain ⟨hb, hc⟩ := hother (Nat.ne_of_lt hlt)
    exact ⟨message, hb.trans hbegun, hc.trans hcalled⟩
  · rw [hstarts] at hlt
    obtain ⟨hb, hc⟩ := hother (Nat.ne_of_gt hlt)
    obtain ⟨hbegun, hcalled⟩ := h.toCome run hlt
    exact ⟨hb.trans hbegun, hc.trans hcalled⟩

/-! ### A method -/

/-- What a method does to `m_lastError`: it leaves it alone during a shutdown, and has set it to the
message when it begins one. -/
structure Tells (h : ConnectionHandler) (message : String)
    (r : ConnectionHandler × Continuation) : Prop where
  transition : Transition h r.1 r.2
  during : h.state = .eShutdown → r.1.lastError = h.lastError ∧ r.2 ≠ .shutdownLoop
  loop : r.2 = .shutdownLoop → r.1.lastError = message
  failed : ∀ text, r.2 = .shutdownCb text → text = message

theorem not_begins_of_state {h h' : ConnectionHandler} (hstate : h'.state = h.state) :
    ¬ Begins h h' := by
  rintro ⟨⟨hconnected, hshutdown⟩, hend | hend⟩
  exacts [hconnected (hstate ▸ hend), hshutdown (hstate ▸ hend)]

/-- While the handler is under way, nothing has been recorded and no loop is on the stack. -/
theorem present_iff {s : State} (hconnected : s ≠ .eNotConnected) (hshutdown : s ≠ .eShutdown) :
    x.Present s ↔ begun x.starts x.log = [] ∧ called x.starts x.log = [] ∧
      ∀ f ∈ x.stack, f.isLoop = false := by
  cases s <;> first | exact absurd rfl hconnected | exact absurd rfl hshutdown | exact Iff.rfl

/-- A call other than the loop and the callback may be suspended at any time. -/
theorem Present.suspend {s : State} (h : x.Present s) {f : Frame} (hf : f ≠ .shutdownCb)
    (hloop : f.isLoop = false) : (x.suspend f).Present s := by
  have hall (hstack : ∀ g ∈ x.stack, g.isLoop = false) :
      ∀ g ∈ f :: x.stack, g.isLoop = false := List.forall_mem_cons.mpr ⟨hloop, hstack⟩
  cases s with
  | eNotConnected => exact ⟨h.1, hall h.2⟩
  | eShutdown =>
    obtain ⟨hbegun, hcalled, above, below, hstack, habove, hbelow⟩ := h
    exact ⟨hbegun, hcalled, f :: above, below, by simp [Execution.suspend, hstack],
      List.forall_mem_cons.mpr ⟨⟨hf, hloop⟩, habove⟩, hbelow⟩
  | _ => exact ⟨h.1, h.2.1, hall h.2.2⟩

/-- A handler under way that begins to shut down, or has failed to connect, is answered by one call
of the callback with the message of what ended it. -/
theorem present_callback {message : String} (hbegun : begun x.starts x.log = [message])
    (hcalled : called x.starts x.log = []) (hstack : ∀ f ∈ x.stack, f.isLoop = false) :
    (x.callback x.starts message).Present .eNotConnected :=
  ⟨fun _ ↦ ⟨message, by simp [callback, hbegun], by simp [callback, hcalled]⟩,
    List.forall_mem_cons.mpr ⟨rfl, hstack⟩⟩

/-- The end of the loop of the present `start()` answers it. -/
theorem present_finish (hbegun : begun x.starts x.log = [x.handler.lastError])
    (hcalled : called x.starts x.log = []) (hstack : ∀ f ∈ x.stack, f.isLoop = false) :
    (x.finish x.starts).Present (x.finish x.starts).handler.state :=
  present_callback (x := { x with handler := x.handler.endShutdown.1 }) hbegun hcalled hstack

/-- Changing the handler changes nothing that is recorded, as long as `m_lastError` is kept during a
shutdown. -/
theorem Present.handler {s : State} (h : x.Present s) (handler : ConnectionHandler)
    (hkept : s = .eShutdown → handler.lastError = x.handler.lastError) :
    { x with handler := handler }.Present s := by
  cases s with
  | eShutdown => exact ⟨(hkept rfl).symm ▸ h.1, h.2⟩
  | _ => exact h

/-- The end of an accepted `start()` that was under way: the message is recorded, and the handler
waits in its loop or calls back. -/
theorem Invariant.perform_of_begins {message : String} {handler : ConnectionHandler}
    {next : Continuation} (h : x.Invariant) (htells : Tells x.handler message (handler, next))
    (hbegins : Begins x.handler handler) : (x.perform message (handler, next)).Invariant := by
  obtain ⟨htransition, -, hloop, hfailed⟩ := htells
  obtain ⟨⟨hconnected, hshutdown⟩, hend⟩ := hbegins
  obtain ⟨hbegun, hcalled, hstack⟩ := (present_iff hconnected hshutdown).mp h.present
  have hlog : (if Begins x.handler handler then
      [Observation.began x.starts message] else []) = [.began x.starts message] :=
    if_pos ⟨⟨hconnected, hshutdown⟩, hend⟩
  have hbegun' : begun x.starts (x.log ++ [.began x.starts message]) = [message] := by simp [hbegun]
  have hcalled' : called x.starts (x.log ++ [.began x.starts message]) = [] := by simp [hcalled]
  cases next <;> simp only [Transition, State.Advances] at htransition
  case shutdownLoop =>
    have herror : handler.lastError = message := hloop rfl
    simp only [Execution.perform, goOn, hlog]
    split
    · refine h.of_present [.began x.starts message] rfl rfl (by simp [Observation.run]) ?_
      simp only [suspend, htransition.2]
      exact ⟨herror.symm ▸ hbegun', hcalled', [], x.stack, rfl, by simp, hstack⟩
    · refine h.of_present [.began x.starts message, .shutdownCb x.starts message] rfl
        ?_ (by simp [Observation.run]) ?_
      · simp [finish, callback, endShutdown, goto, stateMachine, herror]
      · exact present_finish (x := { x with
          handler := handler, log := x.log ++ [.began x.starts message] })
          (herror.symm ▸ hbegun') hcalled' hstack
  case shutdownCb text =>
    obtain rfl : text = message := hfailed text rfl
    simp only [Execution.perform, goOn, hlog]
    refine h.of_present [.began x.starts text, .shutdownCb x.starts text] rfl
      (by simp [callback]) (by simp [Observation.run]) ?_
    have hpresent := present_callback (x := { x with
      handler := handler, log := x.log ++ [.began x.starts text] }) hbegun' hcalled' hstack
    simpa [callback, htransition.2.1] using hpresent
  case done =>
    rcases htransition with hsame | ⟨⟨-, hs⟩ | ⟨-, hs⟩ | ⟨-, hs⟩, -⟩
    · exact absurd ⟨⟨hconnected, hshutdown⟩, hend⟩ (not_begins_of_state hsame)
    all_goals simp [hs] at hend
  case connectedCb => simp [htransition.2] at hend
  case parse =>
    exact absurd ⟨⟨hconnected, hshutdown⟩, hend⟩ (not_begins_of_state htransition.2)

/-- A method that ends nothing keeps the record. -/
theorem Invariant.perform_of_not_begins {message : String} {handler : ConnectionHandler}
    {next : Continuation} (h : x.Invariant) (htells : Tells x.handler message (handler, next))
    (hbegins : ¬ Begins x.handler handler) : (x.perform message (handler, next)).Invariant := by
  obtain ⟨htransition, hduring, -, -⟩ := htells
  have hsame (hstate : handler.state = x.handler.state) :
      { x with handler := handler }.Present handler.state :=
    hstate ▸ h.present.handler handler fun hs ↦ (hduring hs).1
  have hadvance (hstate : x.handler.state.Advances handler.state) :
      { x with handler := handler }.Present handler.state := by
    have hrunning : ∀ s s' : State, s.Advances s' →
        (s ≠ .eNotConnected ∧ s ≠ .eShutdown) ∧ s' ≠ .eNotConnected ∧ s' ≠ .eShutdown := by
      rintro s s' (⟨rfl, rfl⟩ | ⟨rfl, rfl⟩ | ⟨rfl, rfl⟩) <;> decide
    obtain ⟨⟨hconnected, hshutdown⟩, hconnected', hshutdown'⟩ := hrunning _ _ hstate
    have hnothing := (present_iff hconnected hshutdown).mp h.present
    exact (present_iff hconnected' hshutdown').mpr hnothing
  simp only [Execution.perform, if_neg hbegins, List.append_nil]
  cases next <;> simp only [Transition] at htransition
  case done =>
    exact h.of_present [] rfl (by simp [goOn]) (by simp) 
      (htransition.elim hsame fun h ↦ hadvance h.1)
  case connectedCb =>
    have hpresent := hadvance (Or.inr (Or.inl htransition))
    exact h.of_present [] rfl (by simp [goOn, suspend]) (by simp)
      (hpresent.suspend (by simp) rfl)
  case parse =>
    exact h.of_present [] rfl (by simp [goOn, suspend]) (by simp)
      ((hsame htransition.2).suspend (by simp) rfl)
  case shutdownLoop =>
    by_cases hs : x.handler.state = .eShutdown
    · exact absurd rfl (hduring hs).2
    · exact absurd ⟨⟨htransition.1, hs⟩, Or.inr htransition.2⟩ hbegins
  case shutdownCb =>
    refine absurd ⟨?_, Or.inl htransition.2.1⟩ hbegins
    rcases htransition.1 with hs | hs <;> simp [hs]

/-- A method keeps the invariant. -/
theorem Invariant.perform {message : String} {r : ConnectionHandler × Continuation}
    (h : x.Invariant) (htells : Tells x.handler message r) : (x.perform message r).Invariant := by
  by_cases hbegins : Begins x.handler r.1
  exacts [h.perform_of_begins htells hbegins, h.perform_of_not_begins htells hbegins]

/-! ### The methods tell what they should -/

/-- A method that changes nothing but the buffers, the flags and the state of a handler under way
tells nothing. -/
theorem tells_of_done {h : ConnectionHandler} {message : String}
    {r : ConnectionHandler × Continuation} (htransition : Transition h r.1 r.2)
    (hnext : r.2 = .done ∨ r.2 = .connectedCb ∨ r.2 = .parse)
    (herror : r.1.lastError = h.lastError) : Tells h message r := by
  refine ⟨htransition, fun _ ↦ ⟨herror, ?_⟩, ?_, ?_⟩ <;>
    rcases hnext with hnext | hnext | hnext <;> simp [hnext]

theorem lastError_push (h : ConnectionHandler) (size : ℕ) :
    (h.push size).lastError = h.lastError := by
  simp only [push]
  split <;> rfl

theorem tells_onData (h : ConnectionHandler) (size : ℕ) (message : String) :
    Tells h message (h.onData size) := by
  refine tells_of_done (transition_onData h size) ?_ ?_
  · unfold onData
    split_ifs <;> exact Or.inl rfl
  · unfold onData
    split_ifs
    · rfl
    all_goals exact lastError_push _ size

/-- A method that sets `m_lastError` and begins the shutdown tells the message. -/
theorem tells_goto_eShutdown {h v : ConnectionHandler} {message : String}
    (hconnected : h.state ≠ .eNotConnected) (hshutdown : h.state ≠ .eShutdown)
    (herror : v.lastError = message) : Tells h message (v.goto .eShutdown) :=
  ⟨⟨hconnected, rfl⟩, fun hs ↦ absurd hs hshutdown, fun _ ↦ herror, fun _ hnext ↦ by cases hnext⟩

/-- A method that sets `m_lastError` and gives up the attempt tells the message. -/
theorem tells_goto_eNotConnected {h v : ConnectionHandler} {message : String}
    (hstate : h.state = .eResolving ∨ h.state = .eConnecting) (herror : v.lastError = message) :
    Tells h message (v.goto .eNotConnected) :=
  ⟨⟨hstate, rfl, rfl⟩, fun hs ↦ by simp [hs] at hstate, fun hnext ↦ (by cases hnext),
    fun _ hnext ↦ (Continuation.shutdownCb.inj hnext).symm.trans herror⟩

theorem tells_resolved (h : ConnectionHandler) (ec : Option String) :
    Tells h (Event.message (.resolved ec)) (h.resolved ec) := by
  have htransition := transition_resolved h ec
  simp only [resolved] at htransition ⊢
  split
  · next hstate =>
    rw [if_pos hstate] at htransition
    exact tells_of_done htransition (Or.inl rfl) rfl
  · next hstate =>
    rw [if_neg hstate] at htransition
    cases ec with
    | none => exact tells_of_done htransition (Or.inl rfl) rfl
    | some message => exact tells_goto_eNotConnected (Or.inl (not_not.mp hstate)) rfl

theorem tells_connectDone (h : ConnectionHandler) (ec : Option String) :
    Tells h (Event.message (.connectDone ec)) (h.connectDone ec) := by
  have htransition := transition_connectDone h ec
  simp only [connectDone] at htransition ⊢
  split
  · next hstate =>
    rw [if_pos hstate] at htransition
    exact tells_of_done htransition (Or.inl rfl) rfl
  · next hstate =>
    rw [if_neg hstate] at htransition
    cases ec with
    | none =>
      refine tells_of_done htransition ?_ rfl
      simp only [goto, stateMachine]
      split <;> simp
    | some message => exact tells_goto_eNotConnected (Or.inr (not_not.mp hstate)) rfl

theorem tells_parseOrRead {h v h' : ConnectionHandler} {next : Continuation} {again : Bool}
    {expected : ℕ} {message : String} (htransition : Transition h h' next)
    (hmethod : v.parseOrRead again expected = some (h', next))
    (herror : v.lastError = h.lastError) :
    Tells h message (h', next) := by
  unfold parseOrRead at hmethod
  split_ifs at hmethod
  · obtain ⟨rfl, rfl⟩ := Prod.mk.inj (Option.some.inj hmethod)
    exact tells_of_done htransition (Or.inr (Or.inr rfl)) herror
  · obtain ⟨rfl, rfl⟩ := Prod.mk.inj (Option.some.inj hmethod)
    exact tells_of_done htransition (Or.inl rfl) herror

theorem tells_onRead {h h' : ConnectionHandler} {next : Continuation} {ec : Option String}
    {bytes expected : ℕ} (hmethod : h.onRead ec bytes expected = some (h', next)) :
    Tells h (Event.message (.read ec bytes expected)) (h', next) := by
  have htransition := transition_onRead hmethod
  simp only [onRead] at hmethod
  split at hmethod
  · obtain ⟨rfl, rfl⟩ := Prod.mk.inj (Option.some.inj hmethod)
    exact tells_of_done htransition (Or.inl rfl) rfl
  · next hconnected =>
    cases ec with
    | none => exact tells_parseOrRead htransition hmethod rfl
    | some message =>
      simp only at hmethod
      split at hmethod
      · next hshutdown =>
        rw [← Option.some.inj hmethod]
        exact tells_goto_eShutdown (fun hs ↦ by simp [connected, hs] at hconnected) hshutdown rfl
      · obtain ⟨rfl, rfl⟩ := Prod.mk.inj (Option.some.inj hmethod)
        exact tells_of_done htransition (Or.inl rfl) rfl

theorem tells_onParsed {h h' : ConnectionHandler} {next : Continuation} {parsed expected : ℕ}
    (hmethod : h.onParsed parsed expected = some (h', next)) (message : String) :
    Tells h message (h', next) := by
  have htransition := transition_onParsed hmethod
  unfold onParsed at hmethod
  split at hmethod
  · obtain ⟨rfl, rfl⟩ := Prod.mk.inj (Option.some.inj hmethod)
    exact tells_of_done htransition (Or.inl rfl) rfl
  · exact tells_parseOrRead htransition hmethod rfl

theorem tells_onWrite {h h' : ConnectionHandler} {next : Continuation} {ec : Option String}
    {bytes : ℕ} (hmethod : h.onWrite ec bytes = some (h', next)) :
    Tells h (Event.message (.wrote ec bytes)) (h', next) := by
  have htransition := transition_onWrite hmethod
  simp only [onWrite] at hmethod
  split at hmethod
  · obtain ⟨rfl, rfl⟩ := Prod.mk.inj (Option.some.inj hmethod)
    exact tells_of_done htransition (Or.inl rfl) rfl
  · next hconnected =>
    cases ec with
    | none =>
      simp only at hmethod
      split at hmethod
      · cases hmethod
      · obtain ⟨rfl, rfl⟩ := Prod.mk.inj (Option.some.inj hmethod)
        refine tells_of_done htransition (Or.inl rfl) ?_
        split_ifs <;> rfl
    | some message =>
      simp only at hmethod
      split at hmethod
      · next hshutdown =>
        rw [← Option.some.inj hmethod]
        exact tells_goto_eShutdown (fun hs ↦ by simp [connected, hs] at hconnected) hshutdown rfl
      · obtain ⟨rfl, rfl⟩ := Prod.mk.inj (Option.some.inj hmethod)
        exact tells_of_done htransition (Or.inl rfl) rfl

/-- A `stop()`, an `onError()` or an `onClosed()` that does not come during the shutdown, and every
completion, tells its message. -/
theorem tells_method {h : ConnectionHandler} {e : Event} {r : ConnectionHandler × Continuation}
    (hundisturbed : h.Undisturbed e) (hmethod : h.method e = some r) : Tells h e.message r := by
  have hno {v w : ConnectionHandler × Continuation} {c : Bool}
      (hthen : c = true → Tells h e.message v)
      (helse : c = false → Tells h e.message w) :
      Tells h e.message (if c then v else w) := by
    cases c
    exacts [helse rfl, hthen rfl]
  obtain ⟨h', next⟩ := r
  cases e with
  | start | parsed | resume => cases hmethod
  | stop =>
    rw [← Option.some.inj hmethod]
    have htransition := transition_stop h
    unfold ConnectionHandler.stop at htransition ⊢
    split
    · next hstate => exact tells_of_done (Or.inl rfl) (Or.inl rfl) rfl
    · next hstate =>
      exact tells_goto_eShutdown hstate (fun hs ↦ (hundisturbed hs).1 rfl) rfl
  | onData size =>
    rw [← Option.some.inj hmethod]
    exact tells_onData h size _
  | onError message =>
    rw [← Option.some.inj hmethod]
    refine hno (fun _ ↦ tells_of_done (Or.inl rfl) (Or.inl rfl) rfl) fun hconnected ↦ ?_
    refine tells_goto_eShutdown (fun hs ↦ ?_) (fun hs ↦ (hundisturbed hs).2.2 message rfl) rfl
    simp [connected, hs] at hconnected
  | onClosed =>
    rw [← Option.some.inj hmethod]
    refine hno (fun _ ↦ tells_of_done (Or.inl rfl) (Or.inl rfl) rfl) fun hconnected ↦ ?_
    refine tells_goto_eShutdown (fun hs ↦ ?_) (fun hs ↦ (hundisturbed hs).2.1 rfl) rfl
    simp [connected, hs] at hconnected
  | resolved ec =>
    obtain ⟨-, hmethod⟩ := Option.ite_none_left_eq_some.mp hmethod
    exact Option.some.inj hmethod ▸ tells_resolved h ec
  | connectDone ec =>
    obtain ⟨-, hmethod⟩ := Option.ite_none_left_eq_some.mp hmethod
    exact Option.some.inj hmethod ▸ tells_connectDone h ec
  | read ec bytes expected =>
    exact tells_onRead (Option.ite_none_left_eq_some.mp hmethod).2
  | wrote ec bytes => exact tells_onWrite (Option.ite_none_left_eq_some.mp hmethod).2

/-! ### The run -/

theorem invariant_init (h : machine.init x) : x.Invariant := by
  obtain rfl : x = _ := h
  exact ⟨fun run hpos hlt ↦ absurd hlt (by simp), fun _ _ ↦ ⟨rfl, rfl⟩, fun hpos ↦ absurd hpos
    (by simp), by simp⟩

/-- An accepted `start()` begins a run of its own, and leaves the last one answered. -/
theorem Invariant.start (h : x.Invariant) (hstate : x.handler.state = .eNotConnected)
    (connectedCb : Bool) (message : String) :
    ({ x with starts := x.starts + 1 }.perform message
    (x.handler.start connectedCb)).Invariant := by
  obtain ⟨hanswered, hstack⟩ : x.Present .eNotConnected := hstate ▸ h.present
  have hbegins (h' : ConnectionHandler) : ¬ Begins x.handler h' := fun hb ↦ hb.1.1 hstate
  obtain ⟨hbegun, hcalled⟩ := h.toCome (x.starts + 1) (Nat.lt_succ_self _)
  simp only [Execution.perform, if_neg (hbegins _), List.append_nil, ConnectionHandler.start,
    hstate, goto, stateMachine, goOn]
  refine ⟨fun run hpos hlt ↦ ?_, fun run hlt ↦ h.toCome run (Nat.lt_of_succ_lt hlt),
    hbegun, hcalled, hstack⟩
  rcases Nat.lt_or_eq_of_le (Nat.le_of_lt_succ hlt) with hlt | rfl
  exacts [h.earlier run hpos hlt, hanswered hpos]

/-- The call on top of the stack, other than a loop, returns. -/
theorem Present.pop {s : State} {f : Frame} {rest : List Frame} (h : x.Present s)
    (hstack : x.stack = f :: rest) (hloop : f.isLoop = false) :
    { x with stack := rest }.Present s := by
  have hall (h : ∀ g ∈ x.stack, g.isLoop = false) : ∀ g ∈ rest, g.isLoop = false := by
    rw [hstack] at h
    exact (List.forall_mem_cons.mp h).2
  cases s with
  | eNotConnected => exact ⟨h.1, hall h.2⟩
  | eShutdown =>
    obtain ⟨hbegun, hcalled, above, below, hsplit, habove, hbelow⟩ := h
    refine ⟨hbegun, hcalled, ?_⟩
    rw [hstack] at hsplit
    cases above with
    | nil => simp [(List.cons.inj hsplit).1, Frame.isLoop] at hloop
    | cons g above =>
      exact ⟨above, below, (List.cons.inj hsplit).2, (List.forall_mem_cons.mp habove).2, hbelow⟩
  | _ => exact ⟨h.1, h.2.1, hall h.2.2⟩

theorem Invariant.pop {f : Frame} {rest : List Frame} (h : x.Invariant)
    (hstack : x.stack = f :: rest) (hloop : f.isLoop = false) :
    { x with stack := rest }.Invariant :=
  ⟨h.earlier, h.toCome, h.present.pop hstack hloop⟩

/-- While the handler shuts down, `m_shutdownCb` does not return. -/
theorem Present.not_shutdownCb {rest : List Frame} (h : x.Present .eShutdown) :
    x.stack ≠ .shutdownCb :: rest := by
  intro hstack
  obtain ⟨-, -, above, below, hsplit, habove, -⟩ := h
  rw [hstack] at hsplit
  cases above with
  | nil => cases (List.cons.inj hsplit).1
  | cons g above => exact (habove g List.mem_cons_self).1 (List.cons.inj hsplit).1.symm

/-- A loop on top of the stack is the one of the present `start()`, which is being shut down. -/
theorem Invariant.loop {run : ℕ} {rest : List Frame} (h : x.Invariant)
    (hstack : x.stack = .shutdownLoop run :: rest) :
    run = x.starts ∧ x.handler.state = .eShutdown ∧ ∀ f ∈ rest, f.isLoop = false := by
  have hpresent := h.present
  have htop : ¬ ∀ f ∈ x.stack, f.isLoop = false := fun hall ↦ by simp [hstack, Frame.isLoop] at hall
  by_cases hshutdown : x.handler.state = .eShutdown
  · rw [hshutdown] at hpresent
    obtain ⟨-, -, above, below, hsplit, habove, hbelow⟩ := hpresent
    rw [hstack] at hsplit
    cases above with
    | nil =>
      obtain ⟨hframe, rfl⟩ := List.cons.inj hsplit
      exact ⟨Frame.shutdownLoop.inj hframe, hshutdown, hbelow⟩
    | cons g above =>
      have hg := (habove g List.mem_cons_self).2
      simp [← (List.cons.inj hsplit).1, Frame.isLoop] at hg
  · by_cases hconnected : x.handler.state = .eNotConnected
    · rw [hconnected] at hpresent
      exact absurd hpresent.2 htop
    · exact absurd ((present_iff hconnected hshutdown).mp hpresent).2.2 htop

/-- The call on top of the stack goes on. -/
theorem Invariant.resume (h : x.Invariant) (hstep : x.step .resume = some x') : x'.Invariant := by
  simp only [Execution.step] at hstep
  split at hstep
  · next rest hstack =>
    rw [← Option.some.inj hstep]
    exact h.pop hstack rfl
  · next rest hstack =>
    rw [← Option.some.inj hstep]
    refine ⟨h.earlier, h.toCome, ?_⟩
    have hpop := (h.pop hstack rfl).present
    refine hpop.handler x.handler.endShutdownCb fun hshutdown ↦ ?_
    have hpresent := h.present
    rw [show x.handler.state = .eShutdown from hshutdown] at hpresent
    exact absurd hstack hpresent.not_shutdownCb
  · next run rest hstack =>
    obtain ⟨-, hstep⟩ := Option.ite_none_left_eq_some.mp hstep
    rw [← Option.some.inj hstep]
    obtain ⟨rfl, hshutdown, hrest⟩ := h.loop hstack
    have hpresent := h.present
    rw [hshutdown] at hpresent
    refine h.of_present [.shutdownCb x.starts _] rfl rfl (by simp [Observation.run]) ?_
    exact present_finish (x := { x with stack := rest }) hpresent.1 hpresent.2.1 hrest
  · cases hstep
  · cases hstep

theorem Invariant.step {e : Event} (h : x.Invariant) (hundisturbed : x.handler.Undisturbed e)
    (hstep : machine.step x e = some x') : x'.Invariant := by
  have hmethod
    (hcalls : (if x.pausing then (x.handler.method e).map (x.perform e.message) else none) =
      some x') : x'.Invariant := by
    obtain ⟨-, hcalls⟩ := Option.ite_none_right_eq_some.mp hcalls
    obtain ⟨r, hr, rfl⟩ := Option.map_eq_some_iff.mp hcalls
    exact h.perform (tells_method hundisturbed hr)
  cases e with
  | resume => exact h.resume hstep
  | parsed parsed expected =>
    simp only [machine_step, Execution.step] at hstep
    split at hstep
    · next rest hstack =>
      obtain ⟨⟨h', next⟩, hr, rfl⟩ := Option.map_eq_some_iff.mp hstep
      exact (h.pop hstack rfl).perform (tells_onParsed hr _)
    · cases hstep
  | start connectedCb =>
    simp only [machine_step, Execution.step] at hstep
    obtain ⟨-, hstep⟩ := Option.ite_none_right_eq_some.mp hstep
    split at hstep
    · next hstate => exact Option.some.inj hstep ▸ h.start hstate connectedCb _
    · exact Option.some.inj hstep ▸ h
  | _ => exact hmethod hstep

/-- As long as no `stop()`, `onError()` or `onClosed()` comes during a shutdown, every accepted
`start()` that has come back to `eNotConnected` has been answered by exactly one call of
`m_shutdownCb`, with the message of the event that ended it. -/
theorem answered_of_undisturbed (h : machine.ReachedBy (fun x e ↦ x.handler.Undisturbed e) x) :
    x.AllAnswered := by
  have hinv : x.Invariant :=
    h.invariant (fun _ ↦ invariant_init) fun _ _ _ hi hu hs ↦ hi.step hu hs
  rintro run hpos (hlt | ⟨rfl, hstate⟩)
  · exact hinv.earlier run hpos hlt
  · have hpresent := hinv.present
    rw [hstate] at hpresent
    exact hpresent.1 hpos

/-- A handler at its construction. -/
def initial : Execution := { handler := new, stack := [], starts := 0, log := [] }

/-- The events of a connection that is established and used for the first data. -/
def connecting : List Event :=
  [.start true, .resolved none, .connectDone none, .resume, .onData 8]

/-- A read error, the write that is given up for it, and the rest of the shutdown. -/
def lost : List Event :=
    [.read (some "end of file") 0 8, .wrote (some "aborted") 0, .resume, .resume]

/-- A connection lost by a read error is answered once, with the error. -/
theorem answered_lost :
    ∃ x, machine.run initial (connecting ++ lost) = some x ∧ x.starts = 1 ∧
      called 1 x.log = ["read error: end of file"] ∧ x.AllAnswered := by
  refine ⟨_, rfl, rfl, by decide, answered_of_undisturbed ?_⟩
  refine ⟨initial, connecting ++ lost, rfl, rfl, Machine.meets_of_forall_mem fun e he x _ ↦ ?_⟩
  simp only [connecting, lost, List.cons_append, List.nil_append, List.mem_cons, List.not_mem_nil,
    or_false] at he
  rcases he with rfl | rfl | rfl | rfl | rfl | rfl | rfl | rfl | rfl <;> simp

/-- Two calls of `stop()`, the second while the first waits for the read and the write, and the rest
of both shutdowns. -/
def stoppedTwice : List Event :=
  [.stop, .stop, .wrote (some "aborted") 0, .read (some "aborted") 0 8, .resume, .resume, .resume]

/-- A second `stop()` during the shutdown calls the callback a second time. -/
theorem called_twice_of_stoppedTwice :
    ∃ x, machine.run initial (connecting ++ stoppedTwice) = some x ∧
      called 1 x.log = ["", ""] ∧ ¬ x.AllAnswered := by
  refine ⟨_, rfl, by decide, fun hanswered ↦ ?_⟩
  obtain ⟨message, -, hcalled⟩ := hanswered 1 (Nat.le_refl 1) (Or.inr ⟨rfl, rfl⟩)
  cases show ["", ""] = [message] from hcalled

end Execution

end ConnectionHandler

end AmqpAsio
