import Mathlib.Data.List.Chain
import AmqpAsio.Refinement
import AmqpAsio.ConnectionHandler.ShutdownCallback
import AmqpAsio.ConnectionHandler.Sound

/-!
# The documented diagram of a handler

The class comment of `ConnectionHandler` draws its states, and the comments of its callbacks say
when they are called: `m_connectedCb` when the connection is established, `m_shutdownCb` when the
work of the handler is over. The drawing leaves out that a handler may be stopped before it is
ready, and some of the errors. Completed with these, it is what a handler does, calls suspended in
one another included, as long as nothing shuts it down while it shuts down.

Whatever is called, also from inside of the callbacks, `m_connectedCb` is called at most once for
every accepted `start()`.
-/

set_option autoImplicit false
set_option relaxedAutoImplicit false

namespace AmqpAsio

namespace ConnectionHandler

/-- A call that the handler makes, for an accepted `start()`. -/
inductive Call
  | connectedCb (run : ℕ)
  | shutdownCb (run : ℕ)
  deriving DecidableEq, Repr

/-! ### The diagram -/

/-- What an arrow is labelled with. `done` is the end of the shutdown, which has no label in the
drawing. -/
inductive Label
  | start (connectedCb : Bool)
  | success
  | fail
  | firstData
  | stop
  | onError
  | onClosed
  | readError
  | writeError
  | done
  deriving DecidableEq, Repr

/-- The arrows of the class comment. -/
def drawn : State → Label → Option State
  | .eNotConnected, .start _ => some .eResolving
  | .eResolving, .success => some .eConnecting
  | .eResolving, .fail => some .eNotConnected
  | .eConnecting, .success => some .eReceiverInit
  | .eConnecting, .fail => some .eNotConnected
  | .eReceiverInit, .firstData => some .eReady
  | .eReceiverInit, .readError => some .eShutdown
  | .eReady, .stop | .eReady, .onError | .eReady, .onClosed | .eReady, .writeError =>
    some .eShutdown
  | .eShutdown, .done => some .eNotConnected
  | _, _ => none

/-- The arrows that it leaves out. -/
def undrawn : State → Label → Option State
  | .eResolving, .stop | .eConnecting, .stop | .eReceiverInit, .stop => some .eShutdown
  | .eReceiverInit, .onError | .eReceiverInit, .onClosed | .eReceiverInit, .writeError =>
    some .eShutdown
  | .eReady, .readError => some .eShutdown
  | _, _ => none

/-- Where an arrow leads. -/
def target (s : State) (l : Label) : Option State := (drawn s l).or (undrawn s l)

/-- A handler as the diagram shows it: its state, whether the last `start()` has brought a callback,
how many there have been, and the callbacks called. -/
structure Diagram where
  state : State
  connectedCb : Bool
  starts : ℕ
  calls : List Call
  deriving DecidableEq, Repr

namespace Diagram

variable (d : Diagram)

/-- The callback that belongs to entering a state. -/
def callsIn : State → List Call
  | .eReceiverInit => if d.connectedCb then [.connectedCb d.starts] else []
  | .eNotConnected => [.shutdownCb d.starts]
  | _ => []

/-- A state is entered. -/
def enter (s : State) : Diagram := { d with state := s, calls := d.calls ++ d.callsIn s }

/-- What an arrow brings, other than the state it leads to. -/
def accept : Label → Diagram
  | .start connectedCb => { d with connectedCb := connectedCb, starts := d.starts + 1 }
  | _ => d

/-- Going along an arrow. -/
def step (l : Label) : Option Diagram := (target d.state l).map (d.accept l).enter

/-- The ways through the diagram. -/
def machine : Machine Diagram Label where
  init d := d = ⟨.eNotConnected, false, 0, []⟩
  step := step

@[simp] theorem machine_step (l : Label) : machine.step d l = d.step l := rfl

end Diagram

/-- What has happened, if it can take a handler along an arrow. -/
def Event.label : Event → Option Label
  | .start connectedCb => some (.start connectedCb)
  | .stop => some .stop
  | .onData _ => some .firstData
  | .onError _ => some .onError
  | .onClosed => some .onClosed
  | .resolved none | .connectDone none => some .success
  | .resolved (some _) | .connectDone (some _) => some .fail
  | .read (some _) _ _ => some .readError
  | .wrote (some _) _ => some .writeError
  | .read none _ _ | .wrote none _ | .parsed _ _ | .resume => none

/-- The event takes a handler along its arrow, and on to the end of the shutdown if there is nothing
to wait for; or it is the end of the wait; or it leaves the handler where it is. -/
def Event.Along (e : Event) (labels : List Label) : Prop :=
  labels = [] ∨ e = .resume ∧ labels = [.done] ∨
    ∃ l, e.label = some l ∧ (labels = [l] ∨ labels = [l, .done])

instance (h : ConnectionHandler) : ∀ e, Decidable (h.Undisturbed e)
  | .onError message => decidable_of_iff (h.state ≠ .eShutdown)
      ⟨fun hstate hshutdown ↦ absurd hshutdown hstate, fun h hs ↦ (h hs).2.2 message rfl⟩
  | .stop => decidable_of_iff (h.state ≠ .eShutdown)
      ⟨fun hstate hshutdown ↦ absurd hshutdown hstate, fun h hs ↦ (h hs).1 rfl⟩
  | .onClosed => decidable_of_iff (h.state ≠ .eShutdown)
      ⟨fun hstate hshutdown ↦ absurd hshutdown hstate, fun h hs ↦ (h hs).2.1 rfl⟩
  | .start _ | .onData _ | .resolved _ | .connectDone _ | .read _ _ _ | .wrote _ _ | .parsed _ _
  | .resume => isTrue (by simp [Undisturbed])

/-! ### A method -/

variable {h h' : ConnectionHandler} {e : Event} {r : ConnectionHandler × Continuation} {s : State}
  {l : Label}

theorem target_stop (hstopped : s ≠ .eNotConnected) (hshutdown : s ≠ .eShutdown) :
    target s .stop = some .eShutdown := by
  cases s with
  | eNotConnected => exact absurd rfl hstopped
  | eShutdown => exact absurd rfl hshutdown
  | eResolving | eConnecting | eReceiverInit | eReady => rfl

/-- An established connection can be lost in four ways. -/
theorem target_lost (hconnected : h.connected = true) (hshutdown : h.state ≠ .eShutdown)
    (hl : l = .onError ∨ l = .onClosed ∨ l = .readError ∨ l = .writeError) :
    target h.state l = some .eShutdown := by
  rcases connected_iff.mp hconnected with hs | hs | hs
  · rw [hs]
    rcases hl with rfl | rfl | rfl | rfl <;> rfl
  · rw [hs]
    rcases hl with rfl | rfl | rfl | rfl <;> rfl
  · exact absurd hs hshutdown

/-- After `m_state = s; StateMachine();` a method goes on as the new state says. -/
theorem goto_snd (h : ConnectionHandler) (s : State) :
    (h.goto s).2 = (h.goto s).1.stateMachine.2 := by
  cases s <;> rfl

@[simp] theorem state_goto (h : ConnectionHandler) (s : State) : (h.goto s).1.state = s := by
  cases s <;> rfl

/-- A method stays where it is and does not call back, or it takes an arrow of the event. -/
def Follows (h : ConnectionHandler) (label : Option Label)
    (r : ConnectionHandler × Continuation) : Prop :=
  r.1.state = h.state ∧ (r.2 = .done ∨ r.2 = .parse) ∨
    ∃ l, label = some l ∧ target h.state l = some r.1.state ∧ r.2 = r.1.stateMachine.2

theorem follows_goto (v : ConnectionHandler) (htarget : target h.state l = some s) :
    h.Follows (some l) (v.goto s) :=
  Or.inr ⟨l, rfl, by rw [state_goto, htarget], goto_snd v s⟩

theorem follows_done (label : Option Label) (hstate : h'.state = h.state) :
    h.Follows label (h', .done) := Or.inl ⟨hstate, Or.inl rfl⟩

theorem follows_parseOrRead {again : Bool} {expected : ℕ} (v : ConnectionHandler)
    (label : Option Label) (hstate : v.state = h.state)
    (hmethod : v.parseOrRead again expected = some r) : h.Follows label r := by
  unfold parseOrRead at hmethod
  split_ifs at hmethod
  · exact Option.some.inj hmethod ▸ Or.inl ⟨hstate, Or.inr rfl⟩
  · exact Option.some.inj hmethod ▸ Or.inl ⟨hstate, Or.inl rfl⟩

theorem follows_onData (h : ConnectionHandler) (size : ℕ) :
    h.Follows (some .firstData) (h.onData size) := by
  unfold onData
  split
  · exact follows_done _ rfl
  · split
    · next hinit =>
      refine Or.inr ⟨.firstData, rfl, ?_, ?_⟩
      · rw [state_push, state_goto, hinit]
        rfl
      · have hready : (({ h with connection := true }.goto .eReady).1.push size).state = .eReady :=
          (state_push _ size).trans (state_goto _ _)
        unfold stateMachine
        rw [hready]
    · exact follows_done _ (state_push _ size)

theorem follows_onWrite {ec : Option String} {bytes : ℕ} (hmethod : h.onWrite ec bytes = some r) :
    h.Follows (Event.wrote ec bytes).label r := by
  simp only [onWrite] at hmethod
  split at hmethod
  · exact Option.some.inj hmethod ▸ follows_done _ rfl
  · next hconnected =>
    rw [Bool.not_eq_true', Bool.not_eq_false] at hconnected
    have hconnected' : h.connected = true := hconnected
    cases ec with
    | some message =>
      simp only at hmethod
      split at hmethod
      · next hshutdown =>
        exact Option.some.inj hmethod ▸
          follows_goto _ (target_lost hconnected' hshutdown (by simp))
      · exact Option.some.inj hmethod ▸ follows_done _ rfl
    | none =>
      simp only at hmethod
      split at hmethod
      · cases hmethod
      · refine Option.some.inj hmethod ▸ follows_done _ ?_
        split_ifs <;> rfl

theorem follows_onRead {ec : Option String} {bytes expected : ℕ}
    (hmethod : h.onRead ec bytes expected = some r) :
    h.Follows (Event.read ec bytes expected).label r := by
  simp only [onRead] at hmethod
  split at hmethod
  · exact Option.some.inj hmethod ▸ follows_done _ rfl
  · next hconnected =>
    rw [Bool.not_eq_true', Bool.not_eq_false] at hconnected
    have hconnected' : h.connected = true := hconnected
    cases ec with
    | some message =>
      simp only at hmethod
      split at hmethod
      · next hshutdown =>
        exact Option.some.inj hmethod ▸
          follows_goto _ (target_lost hconnected' hshutdown (by simp))
      · exact Option.some.inj hmethod ▸ follows_done _ rfl
    | none =>
      exact follows_parseOrRead
        { h with readReq := false, reads := h.reads - 1, inBuf := h.inBuf + bytes } _ rfl hmethod

/-- Where nothing shuts down a handler that is shutting down, every method takes an arrow of its
event or leaves the handler where it is. -/
theorem follows_method (hundisturbed : h.Undisturbed e) (hmethod : h.method e = some r) :
    h.Follows e.label r := by
  cases e with
  | start | parsed | resume => cases hmethod
  | stop =>
    rw [← Option.some.inj hmethod]
    unfold ConnectionHandler.stop
    split
    · exact follows_done _ rfl
    · next hstate => exact follows_goto _ (target_stop hstate fun hs ↦ (hundisturbed hs).1 rfl)
  | onData size => exact Option.some.inj hmethod ▸ follows_onData h size
  | onError message =>
    rw [← Option.some.inj hmethod]
    unfold ConnectionHandler.onError
    split
    · exact follows_done _ rfl
    · next hconnected =>
      exact follows_goto _ (target_lost (by simpa using hconnected)
        (fun hs ↦ (hundisturbed hs).2.2 message rfl) (by simp))
  | onClosed =>
    rw [← Option.some.inj hmethod]
    unfold ConnectionHandler.onClosed
    split
    · exact follows_done _ rfl
    · next hconnected =>
      exact follows_goto _ (target_lost (by simpa using hconnected)
        (fun hs ↦ (hundisturbed hs).2.1 rfl) (by simp))
  | resolved ec =>
    obtain ⟨-, hmethod⟩ := Option.ite_none_left_eq_some.mp hmethod
    rw [← Option.some.inj hmethod]
    simp only [resolved]
    split
    · exact follows_done _ rfl
    · next hstate =>
      have hresolving : h.state = .eResolving := not_not.mp hstate
      cases ec with
      | none => exact follows_goto _ (by rw [hresolving]; rfl)
      | some message => exact follows_goto _ (by rw [hresolving]; rfl)
  | connectDone ec =>
    obtain ⟨-, hmethod⟩ := Option.ite_none_left_eq_some.mp hmethod
    rw [← Option.some.inj hmethod]
    simp only [connectDone]
    split
    · exact follows_done _ rfl
    · next hstate =>
      have hconnecting : h.state = .eConnecting := not_not.mp hstate
      cases ec with
      | none => exact follows_goto _ (by rw [hconnecting]; rfl)
      | some message => exact follows_goto _ (by rw [hconnecting]; rfl)
  | read ec bytes expected =>
    exact follows_onRead (Option.ite_none_left_eq_some.mp hmethod).2
  | wrote ec bytes => exact follows_onWrite (Option.ite_none_left_eq_some.mp hmethod).2

/-- The callback that an observation is a call of. -/
def Observation.call : Observation → Option Call
  | .shutdownCb run _ => some (.shutdownCb run)
  | .began _ _ => none

/-! ### An execution -/

/-- An execution with the callbacks that have been called, oldest first. -/
structure Calling where
  execution : Execution
  calls : List Call
  deriving DecidableEq, Repr

namespace Execution

variable {x x' : Execution} {calls : List Call}

/-- The callbacks that a step calls. -/
def newCalls (x x' : Execution) : List Call :=
  (x'.log.drop x.log.length).filterMap Observation.call ++
    if x'.stack = .connectedCb :: x.stack then [.connectedCb x'.starts] else []

/-- An execution as the diagram shows it. -/
def shown (x : Execution) (calls : List Call) : Diagram :=
  ⟨x.handler.state, x.handler.connectedCb, x.starts, calls⟩

/-- The callback that a method goes on to. -/
def callsOf (x : Execution) (r : ConnectionHandler × Continuation) : List Call :=
  match r.2 with
  | .connectedCb => [.connectedCb x.starts]
  | .shutdownCb _ => [.shutdownCb x.starts]
  | .shutdownLoop => if r.1.waiting then [] else [.shutdownCb x.starts]
  | .done | .parse => []

theorem newCalls_perform (x : Execution) (message : String) (r : ConnectionHandler × Continuation) :
    newCalls x (x.perform message r) = x.callsOf r := by
  have hbegan : (if Begins x.handler r.1 then [Observation.began x.starts message]
      else []).filterMap Observation.call = [] := by
    split <;> rfl
  obtain ⟨handler, next⟩ := r
  cases next with
  | shutdownLoop =>
    simp only [newCalls, perform, goOn, callsOf]
    split <;> simp [suspend, finish, callback, hbegan, Observation.call]
  | done | connectedCb | shutdownCb | parse =>
    simp [newCalls, perform, goOn, callsOf, suspend, callback, hbegan, Observation.call]

/-- Where a method goes on as the new state says, the diagram goes along the arrow, and on to the
end of the shutdown if there is nothing to wait for. -/
theorem shown_perform (x : Execution) (message : String) {d : Diagram}
    (haccept : d.accept l = ⟨d.state, r.1.connectedCb, x.starts, calls⟩)
    (htarget : target d.state l = some r.1.state) (hnext : r.2 = r.1.stateMachine.2) :
    ∃ labels, (labels = [l] ∨ labels = [l, .done]) ∧ Diagram.machine.run d labels =
      some ((x.perform message r).shown (calls ++ newCalls x (x.perform message r))) := by
  have hone : Diagram.machine.run d [l] = some ((d.accept l).enter r.1.state) := by
    simp [Diagram.step, htarget]
  rw [newCalls_perform]
  obtain ⟨handler, next⟩ := r
  simp only at haccept hnext
  subst hnext
  rw [haccept] at hone
  cases hs : handler.state with
  | eShutdown =>
    rw [hs] at hone
    by_cases hwaits : handler.waiting = true
    · refine ⟨[l], Or.inl rfl, hone.trans ?_⟩
      simp [Diagram.enter, Diagram.callsIn, shown, perform, goOn, callsOf, stateMachine, hs, hwaits,
        suspend]
    · refine ⟨[l, .done], Or.inr rfl, ?_⟩
      rw [← List.singleton_append, Machine.run_append, hone]
      simp [Diagram.enter, Diagram.callsIn, Diagram.step, Diagram.accept, target, drawn, shown,
        perform, goOn, callsOf, stateMachine, hs, hwaits, finish, callback, endShutdown, goto]
  | eReceiverInit =>
    rw [hs] at hone
    refine ⟨[l], Or.inl rfl, hone.trans ?_⟩
    cases hcb : handler.connectedCb <;>
      simp [Diagram.enter, Diagram.callsIn, shown, perform, goOn, callsOf, stateMachine, hs, hcb,
        suspend]
  | eNotConnected | eResolving | eConnecting | eReady =>
    rw [hs] at hone
    refine ⟨[l], Or.inl rfl, hone.trans ?_⟩
    simp [Diagram.enter, Diagram.callsIn, shown, perform, goOn, callsOf, stateMachine, hs, callback]

/-- Nothing is shown of a call that returns. -/
theorem newCalls_eq_nil (hlog : x'.log = x.log) (hstack : x'.stack.length ≤ x.stack.length) :
    newCalls x x' = [] := by
  have hne : x'.stack ≠ .connectedCb :: x.stack := by
    intro heq
    rw [heq, List.length_cons] at hstack
    omega
  simp [newCalls, hlog, hne]

/-- The call on top of the stack goes on: a loop comes to the end of the shutdown, and anything else
is nothing the diagram shows. -/
theorem shown_resume (h : x.Invariant) (hstep : x.step .resume = some x') :
    ∃ labels, (labels = [] ∨ labels = [.done]) ∧ Diagram.machine.run (x.shown calls) labels =
      some (x'.shown (calls ++ newCalls x x')) := by
  simp only [Execution.step] at hstep
  split at hstep
  · next rest hstack =>
    have hcalls : newCalls x x' = [] := by
      obtain rfl := Option.some.inj hstep
      exact newCalls_eq_nil rfl (by simp [hstack])
    rw [hcalls, List.append_nil, ← Option.some.inj hstep]
    exact ⟨[], Or.inl rfl, rfl⟩
  · next rest hstack =>
    have hcalls : newCalls x x' = [] := by
      obtain rfl := Option.some.inj hstep
      exact newCalls_eq_nil rfl (by simp [hstack])
    rw [hcalls, List.append_nil, ← Option.some.inj hstep]
    exact ⟨[], Or.inl rfl, rfl⟩
  · next run rest hstack =>
    obtain ⟨-, hstep⟩ := Option.ite_none_left_eq_some.mp hstep
    obtain rfl := Option.some.inj hstep
    obtain ⟨rfl, hshutdown, -⟩ := h.loop hstack
    refine ⟨[.done], Or.inr rfl, ?_⟩
    have hcalls : newCalls x ({ x with stack := rest }.finish x.starts) =
        [.shutdownCb x.starts] := by
      simp [newCalls, finish, callback, Observation.call]
    rw [hcalls]
    simp [Diagram.step, Diagram.accept, Diagram.enter, Diagram.callsIn, target, drawn, shown,
      hshutdown, finish, callback, endShutdown, goto, stateMachine]
  · cases hstep
  · cases hstep

/-- A method that leaves the handler where it is, called for an execution with a call more on its
stack or with the same. -/
theorem shown_still (x₀ : Execution) (message : String)
    (hx₀ : x₀ = x ∨ ∃ f, x₀ = x.suspend f) (hstate : r.1.state = x.handler.state)
    (hcb : r.1.connectedCb = x.handler.connectedCb) (hnext : r.2 = .done ∨ r.2 = .parse) :
    (x.perform message r).shown (calls ++ newCalls x₀ (x.perform message r)) = x.shown calls := by
  have hbegins : ¬ Begins x.handler r.1 := not_begins_of_state hstate
  obtain ⟨handler, next⟩ := r
  have hlog : (x.perform message (handler, next)).log = x₀.log := by
    rcases hx₀ with rfl | ⟨f, rfl⟩ <;> rcases hnext with rfl | rfl <;>
      simp [perform, goOn, suspend, hbegins]
  have hstack : (x.perform message (handler, next)).stack ≠ .connectedCb :: x₀.stack := by
    rcases hnext with rfl | rfl <;> intro heq
    · have hlength := congrArg List.length heq
      rcases hx₀ with rfl | ⟨f, rfl⟩
      · simp [perform, goOn] at hlength
      · simp [perform, goOn, suspend] at hlength
        omega
    · simp [perform, goOn, suspend] at heq
  have hcalls : newCalls x₀ (x.perform message (handler, next)) = [] := by
    simp [newCalls, hlog, hstack]
  rw [hcalls, List.append_nil]
  rcases hnext with rfl | rfl <;> simp_all [shown, perform, goOn, suspend]

/-- `parse` returns to a loop that shuts nothing down. -/
theorem shown_parsed {parsed expected : ℕ} (calls : List Call)
    (hstep : x.step (.parsed parsed expected) = some x') :
    x'.shown (calls ++ newCalls x x') = x.shown calls := by
  simp only [Execution.step] at hstep
  split at hstep
  · next rest hstack =>
    obtain ⟨r, hr, rfl⟩ := Option.map_eq_some_iff.mp hstep
    have hstill : r.1.state = x.handler.state ∧ (r.2 = .done ∨ r.2 = .parse) := by
      unfold onParsed at hr
      split at hr
      · exact Option.some.inj hr ▸ ⟨rfl, Or.inl rfl⟩
      · unfold parseOrRead at hr
        split_ifs at hr
        · exact Option.some.inj hr ▸ ⟨rfl, Or.inr rfl⟩
        · exact Option.some.inj hr ▸ ⟨rfl, Or.inl rfl⟩
    refine shown_still (x := { x with stack := rest }) x _ (Or.inr ⟨.parse, ?_⟩) hstill.1
      (kept_onParsed hr).1 hstill.2
    simp [suspend, ← hstack]
  · cases hstep

/-- A method other than `start()`. -/
theorem shown_method {e : Event} (hundisturbed : x.handler.Undisturbed e)
    (hmethod : x.handler.method e = some r) :
    ∃ labels, e.Along labels ∧ Diagram.machine.run (x.shown calls) labels =
      some ((x.perform e.message r).shown (calls ++ newCalls x (x.perform e.message r))) := by
  have hcb : r.1.connectedCb = x.handler.connectedCb := (kept_method hmethod).1
  rcases follows_method hundisturbed hmethod with ⟨hstate, hnext⟩ | ⟨l, hl, htarget, hnext⟩
  · refine ⟨[], Or.inl rfl, ?_⟩
    rw [shown_still x e.message (Or.inl rfl) hstate hcb hnext]
    rfl
  · have haccept : (x.shown calls).accept l =
        ⟨(x.shown calls).state, r.1.connectedCb, x.starts, calls⟩ := by
      rw [hcb]
      cases l with
      | start connectedCb =>
        cases e with
        | start => cases hmethod
        | resolved ec | connectDone ec => cases ec <;> cases hl
        | read ec | wrote ec => cases ec <;> cases hl
        | stop | onData | onError | onClosed | parsed | resume => cases hl
      | _ => rfl
    obtain ⟨labels, hlabels, hrun⟩ := shown_perform x e.message haccept htarget hnext
    exact ⟨labels, Or.inr (Or.inr ⟨l, hl, hlabels⟩), hrun⟩

/-- Every event takes the diagram along its arrow, or on to the end of the shutdown, or nowhere. -/
theorem shown_step {e : Event} (h : x.Invariant) (hundisturbed : x.handler.Undisturbed e)
    (hstep : x.step e = some x') :
    ∃ labels, e.Along labels ∧ Diagram.machine.run (x.shown calls) labels =
      some (x'.shown (calls ++ newCalls x x')) := by
  have hmethod
      (hcalls : (if x.pausing then (x.handler.method e).map (x.perform e.message) else none) =
        some x') : ∃ labels, e.Along labels ∧ Diagram.machine.run (x.shown calls) labels =
          some (x'.shown (calls ++ newCalls x x')) := by
    obtain ⟨-, hcalls⟩ := Option.ite_none_right_eq_some.mp hcalls
    obtain ⟨r, hr, rfl⟩ := Option.map_eq_some_iff.mp hcalls
    exact shown_method hundisturbed hr
  cases e with
  | resume =>
    obtain ⟨labels, hlabels, hrun⟩ := shown_resume h hstep
    exact ⟨labels, hlabels.imp_right fun hdone ↦ Or.inl ⟨rfl, hdone⟩, hrun⟩
  | parsed parsed expected =>
    refine ⟨[], Or.inl rfl, ?_⟩
    rw [shown_parsed calls hstep]
    rfl
  | start connectedCb =>
    obtain ⟨-, hstep⟩ := Option.ite_none_right_eq_some.mp hstep
    split at hstep
    · next hstate =>
      obtain rfl := Option.some.inj hstep
      have hstart : x.handler.start connectedCb =
          { x.handler with connectedCb := connectedCb, amqpError := false }.goto .eResolving := by
        simp [ConnectionHandler.start, hstate]
      have haccept : (x.shown calls).accept (.start connectedCb) =
          ⟨(x.shown calls).state, (x.handler.start connectedCb).1.connectedCb, x.starts + 1,
            calls⟩ := by
        rw [hstart, connectedCb_goto]
        rfl
      have htarget : target (x.shown calls).state (.start connectedCb) =
          some (x.handler.start connectedCb).1.state := by
        rw [hstart, state_goto, shown, hstate]
        rfl
      obtain ⟨labels, hlabels, hrun⟩ := shown_perform { x with starts := x.starts + 1 }
        (Event.start connectedCb).message haccept htarget (by rw [hstart, goto_snd])
      exact ⟨labels, Or.inr (Or.inr ⟨_, rfl, hlabels⟩), hrun⟩
    · next hstate =>
      obtain rfl := Option.some.inj hstep
      refine ⟨[], Or.inl rfl, ?_⟩
      have hcalls : newCalls x x = [] := newCalls_eq_nil rfl (Nat.le_refl _)
      rw [hcalls, List.append_nil]
      rfl
  | _ => exact hmethod hstep

end Execution

namespace Calling

variable {x y : Calling} {e : Event}

/-- One event. -/
def step (x : Calling) (e : Event) : Option Calling :=
  (x.execution.step e).map fun execution ↦
    ⟨execution, x.calls ++ x.execution.newCalls execution⟩

/-- A handler at its construction. -/
def initial : Calling := ⟨Execution.initial, []⟩

/-- The executions of a handler from its construction on. -/
def machine : Machine Calling Event where
  init x := x = initial
  step := step

@[simp] theorem machine_step (x : Calling) (e : Event) : machine.step x e = x.step e := rfl

/-- Nothing shuts down the handler while it shuts down. -/
def Undisturbed (x : Calling) (e : Event) : Prop := x.execution.handler.Undisturbed e

instance (x : Calling) (e : Event) : Decidable (x.Undisturbed e) :=
  inferInstanceAs (Decidable (x.execution.handler.Undisturbed e))

/-- As long as nothing shuts a handler down while it shuts down, it goes along the arrows. -/
theorem refines_diagram : machine.Refines Diagram.machine Undisturbed Event.Along
    fun x d ↦ x.execution.Invariant ∧ d = x.execution.shown x.calls where
  init x hx := by
    obtain rfl : x = initial := hx
    exact ⟨_, rfl, Execution.invariant_init rfl, rfl⟩
  step x d e y := by
    rintro ⟨hinv, rfl⟩ hundisturbed hstep
    obtain ⟨execution, hexecution, rfl⟩ := Option.map_eq_some_iff.mp hstep
    obtain ⟨labels, halong, hrun⟩ := Execution.shown_step hinv hundisturbed hexecution
    exact ⟨labels, _, halong, hrun, hinv.step hundisturbed hexecution, rfl⟩

/-- As long as nothing shuts a handler down while it shuts down, the events of a run stand for a
way through the diagram, which comes to the state of the handler and on which the same callbacks
are called. -/
theorem walks_diagram (es : List Event) (hrun : machine.run initial es = some x)
    (hmeets : machine.Meets Undisturbed initial es) :
    ∃ labels, List.Forall₂ Event.Along es labels ∧
      Diagram.machine.run ⟨.eNotConnected, false, 0, []⟩ labels.flatten =
        some ⟨x.execution.handler.state, x.execution.handler.connectedCb, x.execution.starts,
          x.calls⟩ := by
  have hinv : Execution.initial.Invariant := Execution.invariant_init rfl
  obtain ⟨labels, d, halong, hd, -, rfl⟩ := refines_diagram.run ⟨hinv, rfl⟩ hrun hmeets
  exact ⟨labels, halong, hd⟩

/-- A handler that is ready is stopped, and calls back when its read and its write have ended. -/
def closing : List Event :=
  Execution.connecting ++ [.onClosed, .wrote (some "aborted") 0, .read (some "aborted") 0 8,
    .resume, .resume]

/-- The way of a connection that the broker closes, with its two callbacks. -/
theorem walks_diagram_closing :
    ∃ x labels, machine.run initial closing = some x ∧
      x.calls = [.connectedCb 1, .shutdownCb 1] ∧ List.Forall₂ Event.Along closing labels ∧
      Diagram.machine.run ⟨.eNotConnected, false, 0, []⟩ labels.flatten =
        some ⟨.eNotConnected, true, 1, x.calls⟩ := by
  obtain ⟨labels, hlabels⟩ := walks_diagram closing rfl (by decide)
  exact ⟨_, labels, rfl, rfl, hlabels⟩

end Calling

/-! ### The callbacks -/

/-- A call may come right after another one: the handler calls `m_shutdownCb` once for each
accepted `start()`, and before that `m_connectedCb` at most once. -/
def Call.Before : Call → Call → Prop
  | .connectedCb n, .shutdownCb k => k = n
  | .shutdownCb n, .connectedCb k => k = n + 1
  | .shutdownCb n, .shutdownCb k => k = n + 1
  | .connectedCb _, .connectedCb _ => False

/-- The last call, in a state. -/
inductive Diagram.Last (d : Diagram) : Call → Prop
  | stopped (hstate : d.state = .eNotConnected) : Last d (.shutdownCb d.starts)
  | unanswered (n : ℕ) (hstarts : d.starts = n + 1) (hstate : d.state ≠ .eNotConnected)
      (hcb : d.state = .eReceiverInit ∨ d.state = .eReady → d.connectedCb = false) :
      Last d (.shutdownCb n)
  | connected (hcb : d.connectedCb = true)
      (hstate : d.state = .eReceiverInit ∨ d.state = .eReady ∨ d.state = .eShutdown) :
      Last d (.connectedCb d.starts)

/-- The calls have come in turn, one `start()` after the other. -/
def Diagram.InTurn (d : Diagram) : Prop :=
  List.IsChain Call.Before (.shutdownCb 0 :: d.calls) ∧
    ∃ last, (.shutdownCb 0 :: d.calls).getLast? = some last ∧ d.Last last

/-- The states that a handler comes back to, and leaves again. -/
theorem target_cases {s s' : State} (htarget : target s l = some s') :
    s = .eNotConnected ∧ s' = .eResolving ∧ (∃ connectedCb, l = .start connectedCb) ∨
      s ≠ .eNotConnected ∧ (∀ connectedCb, l ≠ .start connectedCb) ∧
        (s' = .eConnecting ∧ s = .eResolving ∨ s' = .eReceiverInit ∧ s = .eConnecting ∨
          s' = .eReady ∧ s = .eReceiverInit ∨ s' = .eShutdown ∧ s ≠ .eShutdown ∨
          s' = .eNotConnected) := by
  cases s <;> cases l <;> simp [target, drawn, undrawn] at htarget <;> subst htarget <;> simp

/-- One more call in turn. -/
theorem isChain_append_call {calls : List Call} {last call : Call}
    (hchain : List.IsChain Call.Before (.shutdownCb 0 :: calls))
    (hlast : (Call.shutdownCb 0 :: calls).getLast? = some last) (hbefore : last.Before call) :
    List.IsChain Call.Before (.shutdownCb 0 :: (calls ++ [call])) ∧
      (Call.shutdownCb 0 :: (calls ++ [call])).getLast? = some call := by
  rw [← List.cons_append]
  constructor
  · rw [List.isChain_append]
    refine ⟨hchain, List.isChain_singleton _, ?_⟩
    intro a ha b hb
    obtain rfl : last = a := Option.some.inj (hlast.symm.trans ha)
    obtain rfl : call = b := Option.some.inj hb
    exact hbefore
  · exact List.getLast?_concat

/-- Entering a state keeps the calls in turn. -/
theorem Diagram.InTurn.step {d d' : Diagram} (h : d.InTurn) (hstep : d.step l = some d') :
    d'.InTurn := by
  obtain ⟨hchain, last, hlast, hd⟩ := h
  obtain ⟨s, htarget, rfl⟩ := Option.map_eq_some_iff.mp hstep
  rcases target_cases htarget with ⟨hs, rfl, connectedCb, rfl⟩ | ⟨hs, hl, hcases⟩
  · -- an accepted `start()` finds the last one answered
    have hlast' : last = .shutdownCb d.starts := by
      cases hd with
      | stopped => rfl
      | unanswered n hstarts hstate => exact absurd hs hstate
      | connected hcb hstate => simp [hs] at hstate
    subst hlast'
    simp only [Diagram.accept, Diagram.enter, Diagram.callsIn, List.append_nil]
    exact ⟨hchain, _, hlast, .unanswered d.starts rfl (by simp) (by simp)⟩
  · have haccept : d.accept l = d := by
      cases l with
      | start connectedCb => exact absurd rfl (hl connectedCb)
      | _ => rfl
    rw [haccept]
    have hstill (hnone : d.callsIn s = []) (hlast' : { d with state := s }.Last last) :
        (d.enter s).InTurn := by
      refine ⟨?_, last, ?_, ?_⟩ <;> simp only [Diagram.enter, hnone, List.append_nil]
      exacts [hchain, hlast, by cases hlast' with
        | stopped hstate => exact .stopped hstate
        | unanswered n hstarts hstate hcb => exact .unanswered n hstarts hstate hcb
        | connected hcb hstate => exact .connected hcb hstate]
    rcases hcases with ⟨rfl, hs'⟩ | ⟨rfl, hs'⟩ | ⟨rfl, hs'⟩ | ⟨rfl, hs'⟩ | rfl
    · refine hstill rfl ?_
      cases hd with
      | stopped hstate => exact absurd hstate hs
      | unanswered n hstarts hstate hcb => exact .unanswered n hstarts (by simp) (by simp)
      | connected hcb hstate => simp [hs'] at hstate
    · -- the connection is established, and the handler calls back if it has been asked to
      obtain ⟨n, rfl, hstarts⟩ : ∃ n, last = .shutdownCb n ∧ d.starts = n + 1 := by
        cases hd with
        | stopped hstate => exact absurd hstate hs
        | unanswered n hstarts => exact ⟨n, rfl, hstarts⟩
        | connected hcb hstate => simp [hs'] at hstate
      cases hcb : d.connectedCb with
      | false =>
        exact hstill (by simp [Diagram.callsIn, hcb])
          (.unanswered n hstarts (by simp) (by simp [hcb]))
      | true =>
        have hbefore : (Call.shutdownCb n).Before (.connectedCb d.starts) := hstarts
        obtain ⟨hchain', hlast'⟩ := isChain_append_call hchain hlast hbefore
        have hcalls : d.callsIn .eReceiverInit = [.connectedCb d.starts] := by
          simp [Diagram.callsIn, hcb]
        refine ⟨?_, .connectedCb d.starts, ?_, .connected hcb (Or.inl rfl)⟩
        · simpa only [Diagram.enter, hcalls] using hchain'
        · simpa only [Diagram.enter, hcalls] using hlast'
    · refine hstill rfl ?_
      cases hd with
      | stopped hstate => exact absurd hstate hs
      | unanswered n hstarts hstate hcb =>
        exact .unanswered n hstarts (by simp) fun _ ↦ hcb (Or.inl hs')
      | connected hcb hstate => exact .connected hcb (Or.inr (Or.inl rfl))
    · refine hstill rfl ?_
      cases hd with
      | stopped hstate => exact absurd hstate hs
      | unanswered n hstarts hstate hcb => exact .unanswered n hstarts (by simp) (by simp)
      | connected hcb hstate => exact .connected hcb (Or.inr (Or.inr rfl))
    · -- the handler is back, and answers
      have hbefore : last.Before (.shutdownCb d.starts) := by
        cases hd with
        | stopped hstate => exact absurd hstate hs
        | unanswered n hstarts => exact hstarts
        | connected => rfl
      obtain ⟨hchain', hlast'⟩ := isChain_append_call hchain hlast hbefore
      exact ⟨hchain', _, hlast', .stopped rfl⟩

namespace Calling

variable {x y : Calling} {e : Event}

/-- As long as nothing shuts a handler down while it shuts down, its callbacks come in turn: for
each accepted `start()`, in order, `m_connectedCb` at most once and then `m_shutdownCb` once. -/
theorem callsInTurn_of_reachedBy (h : machine.ReachedBy Undisturbed x) :
    (x.execution.shown x.calls).InTurn := by
  refine refines_diagram.invariant (I := Diagram.InTurn)
    (J := fun x ↦ (x.execution.shown x.calls).InTurn) ?_ (fun d l d' hd hstep ↦ hd.step hstep) ?_ h
  · rintro d rfl
    exact ⟨List.isChain_singleton _, _, rfl, .stopped rfl⟩
  · rintro x d ⟨-, rfl⟩ hd
    exact hd

/-- A handler is used for three connections: one that is established and closed, one whose host is
not found, and one that is stopped without a callback for it. -/
def reused : List Event :=
  closing ++ [.start true, .resolved (some "host not found"), .resume, .start false,
    .resolved none, .connectDone none, .stop]

/-- Its callbacks come in turn. -/
theorem callsInTurn_reused :
    ∃ x, machine.run initial reused = some x ∧
      x.calls = [.connectedCb 1, .shutdownCb 1, .shutdownCb 2, .shutdownCb 3] ∧
      (x.execution.shown x.calls).InTurn :=
  ⟨_, rfl, rfl, callsInTurn_of_reachedBy ⟨initial, reused, rfl, rfl, by decide⟩⟩

end Calling

/-! ### Whatever is called -/

/-- The accepted `start()` of a call of `m_connectedCb`. -/
def Call.connection : Call → Option ℕ
  | .connectedCb run => some run
  | .shutdownCb _ => none

/-- The handler is establishing its connection. -/
def State.Establishes (s : State) : Prop := s = .eResolving ∨ s = .eConnecting

/-- Only `start()` begins to establish a connection. -/
theorem Transition.establishes {next : Continuation} (htransition : Transition h h' next)
    (hs : h'.state.Establishes) : h.state.Establishes := by
  cases next with
  | done =>
    rcases htransition with hsame | ⟨⟨hresolving, -⟩ | ⟨hconnecting, -⟩ | ⟨-, hready⟩, -⟩
    · exact hsame ▸ hs
    · exact Or.inl hresolving
    · exact Or.inr hconnecting
    · rcases hs with hs | hs <;> cases hready.symm.trans hs
  | connectedCb => exact Or.inr htransition.1
  | shutdownLoop => rcases hs with hs | hs <;> cases htransition.2.symm.trans hs
  | shutdownCb message => exact htransition.1
  | parse => exact htransition.2 ▸ hs

namespace Execution

variable {x x' : Execution}

theorem connection_callsOf (x : Execution) (r : ConnectionHandler × Continuation) :
    (x.callsOf r).filterMap Call.connection = if r.2 = .connectedCb then [x.starts] else [] := by
  unfold callsOf
  split <;> (try split) <;> simp_all [Call.connection]

/-- A method is performed, which may be the end of a shutdown. -/
theorem perform_spec (x : Execution) (message : String) (r : ConnectionHandler × Continuation) :
    ((x.perform message r).handler.state = r.1.state ∨
      (x.perform message r).handler.state = .eNotConnected) ∧
      (x.perform message r).starts = x.starts := by
  obtain ⟨handler, next⟩ := r
  cases next with
  | shutdownLoop =>
    simp only [perform, goOn]
    split
    · exact ⟨Or.inl rfl, rfl⟩
    · exact ⟨Or.inr rfl, rfl⟩
  | done | connectedCb | shutdownCb | parse => exact ⟨Or.inl rfl, rfl⟩

/-- A step calls `m_connectedCb` only for the present `start()`, at the end of establishing the
connection, and only an accepted `start()` begins to establish one. -/
theorem connection_step {e : Event} (hstep : x.step e = some x') :
    (newCalls x x').filterMap Call.connection = [] ∧
      (x'.starts = x.starts ∧ (x'.handler.state.Establishes → x.handler.state.Establishes) ∨
        x'.starts = x.starts + 1) ∨
    (newCalls x x').filterMap Call.connection = [x.starts] ∧ x'.starts = x.starts ∧
      x.handler.state.Establishes ∧ ¬ x'.handler.state.Establishes := by
  have hmethod
      (hcalls : (if x.pausing then (x.handler.method e).map (x.perform e.message) else none) =
        some x') :
      (newCalls x x').filterMap Call.connection = [] ∧
        (x'.starts = x.starts ∧ (x'.handler.state.Establishes → x.handler.state.Establishes) ∨
          x'.starts = x.starts + 1) ∨
      (newCalls x x').filterMap Call.connection = [x.starts] ∧ x'.starts = x.starts ∧
        x.handler.state.Establishes ∧ ¬ x'.handler.state.Establishes := by
    obtain ⟨-, hcalls⟩ := Option.ite_none_right_eq_some.mp hcalls
    obtain ⟨r, hr, rfl⟩ := Option.map_eq_some_iff.mp hcalls
    have htransition := transition_method hr
    obtain ⟨hstate, hstarts⟩ := x.perform_spec e.message r
    rw [newCalls_perform, connection_callsOf]
    by_cases hnext : r.2 = .connectedCb
    · rw [hnext] at htransition
      refine Or.inr ⟨if_pos hnext, hstarts, Or.inr htransition.1, ?_⟩
      rintro (hs | hs) <;> rcases hstate with hstate | hstate <;>
        simp [hstate, htransition.2] at hs
    · refine Or.inl ⟨if_neg hnext, Or.inl ⟨hstarts, fun hs ↦ ?_⟩⟩
      rcases hstate with hstate | hstate
      · exact htransition.establishes (hstate ▸ hs)
      · rcases hs with hs | hs <;> cases hstate.symm.trans hs
  cases e with
  | resume =>
    left
    simp only [Execution.step] at hstep
    split at hstep
    · next rest hstack =>
      obtain rfl := Option.some.inj hstep
      have hcalls : newCalls x { x with stack := rest } = [] :=
        newCalls_eq_nil rfl (by simp [hstack])
      exact ⟨by rw [hcalls]; rfl, Or.inl ⟨rfl, id⟩⟩
    · next rest hstack =>
      obtain rfl := Option.some.inj hstep
      have hcalls : newCalls x { x with handler := x.handler.endShutdownCb, stack := rest } = [] :=
        newCalls_eq_nil rfl (by simp [hstack])
      exact ⟨by rw [hcalls]; rfl, Or.inl ⟨rfl, id⟩⟩
    · next run rest hstack =>
      obtain ⟨-, hstep⟩ := Option.ite_none_left_eq_some.mp hstep
      obtain rfl := Option.some.inj hstep
      refine ⟨?_, Or.inl ⟨rfl, ?_⟩⟩
      · simp [newCalls, finish, callback, Observation.call, Call.connection]
      · rintro (hs | hs) <;> cases hs
    · cases hstep
    · cases hstep
  | parsed parsed expected =>
    left
    have hshown := shown_parsed [] hstep
    have hcalls : newCalls x x' = [] := congrArg Diagram.calls hshown
    have hstate : x'.handler.state = x.handler.state := congrArg Diagram.state hshown
    have hstarts : x'.starts = x.starts := congrArg Diagram.starts hshown
    exact ⟨by rw [hcalls]; rfl, Or.inl ⟨hstarts, fun hs ↦ hstate ▸ hs⟩⟩
  | start connectedCb =>
    left
    obtain ⟨-, hstep⟩ := Option.ite_none_right_eq_some.mp hstep
    split at hstep
    · next hstate =>
      obtain rfl := Option.some.inj hstep
      refine ⟨?_, Or.inr (perform_spec { x with starts := x.starts + 1 } _ _).2⟩
      have hcalls := newCalls_perform { x with starts := x.starts + 1 }
        (Event.start connectedCb).message (x.handler.start connectedCb)
      refine (congrArg _ hcalls).trans ((connection_callsOf _ _).trans (if_neg ?_))
      simp [ConnectionHandler.start, hstate, goto, stateMachine]
    · obtain rfl := Option.some.inj hstep
      have hcalls : newCalls x x = [] := newCalls_eq_nil rfl (Nat.le_refl _)
      exact ⟨by rw [hcalls]; rfl, Or.inl ⟨rfl, id⟩⟩
  | _ => exact hmethod hstep

end Execution

namespace Calling

variable {x y : Calling} {e : Event}

/-- Whatever is called, and in whatever order, `m_connectedCb` is called at most once for every
accepted `start()`, and for the later ones later. -/
theorem connectsOnce_of_reachable (h : machine.Reachable x) :
    (x.calls.filterMap Call.connection).Pairwise (· < ·) ∧
      ∀ run ∈ x.calls.filterMap Call.connection, run ≤ x.execution.starts := by
  suffices hinv : (x.calls.filterMap Call.connection).Pairwise (· < ·) ∧
      ∀ run ∈ x.calls.filterMap Call.connection, run ≤ x.execution.starts ∧
        (x.execution.handler.state.Establishes → run < x.execution.starts) from
    ⟨hinv.1, fun run hrun ↦ (hinv.2 run hrun).1⟩
  refine h.invariant (I := fun x ↦ (x.calls.filterMap Call.connection).Pairwise (· < ·) ∧
    ∀ run ∈ x.calls.filterMap Call.connection, run ≤ x.execution.starts ∧
      (x.execution.handler.state.Establishes → run < x.execution.starts)) ?_ ?_
  · rintro x rfl
    exact ⟨.nil, fun run hrun ↦ by cases hrun⟩
  · rintro x e y ⟨hsorted, hruns⟩ hstep
    obtain ⟨execution, hexecution, rfl⟩ := Option.map_eq_some_iff.mp hstep
    rw [List.filterMap_append]
    rcases Execution.connection_step hexecution with ⟨hnone, hstarts⟩ | ⟨hone, hstarts, hs, hs'⟩
    · rw [hnone, List.append_nil]
      refine ⟨hsorted, fun run hrun ↦ ?_⟩
      obtain ⟨hle, hlt⟩ := hruns run hrun
      rcases hstarts with ⟨hsame, hback⟩ | hnext
      · exact hsame ▸ ⟨hle, fun hs ↦ hlt (hback hs)⟩
      · exact hnext ▸ ⟨Nat.le_succ_of_le hle, fun _ ↦ Nat.lt_succ_of_le hle⟩
    · rw [hone, hstarts]
      constructor
      · refine List.pairwise_append.mpr ⟨hsorted, List.pairwise_singleton _ _, ?_⟩
        intro run hrun last hlast
        obtain rfl := List.mem_singleton.mp hlast
        exact (hruns run hrun).2 hs
      · intro run hrun
        rcases List.mem_append.mp hrun with hrun | hrun
        · exact ⟨(hruns run hrun).1, fun hs ↦ absurd hs hs'⟩
        · exact ⟨Nat.le_of_eq (List.mem_singleton.mp hrun), fun hs ↦ absurd hs hs'⟩

/-- A handler that is stopped twice at once, and started again by the first of its two calls of
`m_shutdownCb`. -/
def restarted : List Event :=
  Execution.connecting ++ [.stop, .stop, .wrote (some "aborted") 0, .read (some "aborted") 0 8,
    .resume, .start true, .resolved none, .connectDone none]

/-- It calls `m_connectedCb` once for each `start()`. -/
theorem connectsOnce_restarted :
    ∃ x, machine.run initial restarted = some x ∧
      x.calls = [.connectedCb 1, .shutdownCb 1, .connectedCb 2] ∧
      (x.calls.filterMap Call.connection).Pairwise (· < ·) ∧
      ∀ run ∈ x.calls.filterMap Call.connection, run ≤ x.execution.starts :=
  ⟨_, rfl, rfl, connectsOnce_of_reachable ⟨initial, restarted, rfl, rfl⟩⟩

end Calling

end ConnectionHandler

end AmqpAsio
