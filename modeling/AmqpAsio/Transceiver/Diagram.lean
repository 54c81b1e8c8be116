import Mathlib.Data.List.Chain
import AmqpAsio.Refinement
import AmqpAsio.Transceiver.ExitCallback
import AmqpAsio.Transceiver.Ordering
import AmqpAsio.Transceiver.Outstanding

/-!
# The documented state diagram

The class comment of `Transceiver` draws its states and the arrows between them, each with what has
to happen for it, or with what the transceiver has to find for it to go on at once. The diagram
below is that drawing, completed with the table of `stop()` and with `drop()`, which the drawing
leaves to the text. As long as only lambdas of the current channel are called and `stop()` is not
called while the channel is replaced, a transceiver goes along the arrows and nowhere else.

No arrow but that of a `start()` leads backwards, so every state is entered at most once from one
`start()` to the next.
-/

set_option autoImplicit false
set_option relaxedAutoImplicit false

namespace AmqpAsio

namespace Transceiver

/-- What has to happen for an arrow, or has to be found. -/
inductive Label
  | start
  | success
  | fail
  | stop
  | drop
  | noConnection
  | noQueueName
  | queueExists
  | noConsumerTag
  | notListener
  | noReceivedName
  deriving DecidableEq, Repr

/-- The transceiver goes along the arrow at once, by what it finds. -/
def Label.found : Label → Bool
  | .noConnection | .noQueueName | .queueExists | .noConsumerTag | .notListener
  | .noReceivedName => true
  | .start | .success | .fail | .stop | .drop => false

/-- An arrow of the diagram, with the role it is restricted to, `true` for a listener. -/
structure Arrow where
  source : State
  label : Label
  target : State
  role : Option Bool
  deriving DecidableEq, Repr

/-- The arrows of the class comment. -/
def drawn : List Arrow :=
  [⟨.eEnd, .start, .eCreateChannel, none⟩,
   ⟨.eCreateChannel, .success, .eCheckQueue, some true⟩,
   ⟨.eCreateChannel, .success, .eCreateExchange, some false⟩,
   ⟨.eCreateChannel, .fail, .eEnd, none⟩,
   ⟨.eCreateChannel, .noConnection, .eEnd, none⟩,
   ⟨.eCheckQueue, .noQueueName, .eCreateExchange, none⟩,
   ⟨.eCheckQueue, .success, .eCreateExchange, none⟩,
   ⟨.eCheckQueue, .fail, .eRecreateChannel, none⟩,
   ⟨.eRecreateChannel, .success, .eCreateExchange, none⟩,
   ⟨.eRecreateChannel, .fail, .eEnd, none⟩,
   ⟨.eCreateExchange, .success, .eCreateQueue, some true⟩,
   ⟨.eCreateExchange, .success, .eReady, some false⟩,
   ⟨.eCreateExchange, .fail, .eCloseChannel, none⟩,
   ⟨.eCreateQueue, .queueExists, .eBindQueue, none⟩,
   ⟨.eCreateQueue, .success, .eBindQueue, none⟩,
   ⟨.eCreateQueue, .fail, .eCloseChannel, none⟩,
   ⟨.eBindQueue, .success, .eCreateConsumer, none⟩,
   ⟨.eBindQueue, .fail, .eRemoveQueue, none⟩,
   ⟨.eCreateConsumer, .success, .eReady, none⟩,
   ⟨.eCreateConsumer, .fail, .eUnbindQueue, none⟩,
   ⟨.eReady, .stop, .eShutdown, none⟩,
   ⟨.eReady, .fail, .eEnd, none⟩,
   ⟨.eShutdown, .noConsumerTag, .eUnbindQueue, none⟩,
   ⟨.eShutdown, .success, .eUnbindQueue, none⟩,
   ⟨.eShutdown, .fail, .eUnbindQueue, none⟩,
   ⟨.eShutdown, .notListener, .eCloseChannel, some false⟩,
   ⟨.eUnbindQueue, .noReceivedName, .eCloseChannel, none⟩,
   ⟨.eUnbindQueue, .success, .eCloseChannel, none⟩,
   ⟨.eUnbindQueue, .fail, .eEnd, none⟩,
   ⟨.eRemoveQueue, .queueExists, .eCloseChannel, none⟩,
   ⟨.eRemoveQueue, .success, .eCloseChannel, none⟩,
   ⟨.eRemoveQueue, .fail, .eEnd, none⟩,
   ⟨.eCloseChannel, .success, .eEnd, none⟩,
   ⟨.eCloseChannel, .fail, .eEnd, none⟩]

/-- The arrows of `stop()`, by its table. -/
def stopArrows : List Arrow :=
  [⟨.eCreateChannel, .stop, .eEnd, none⟩,
   ⟨.eCreateExchange, .stop, .eCloseChannel, none⟩,
   ⟨.eCheckQueue, .stop, .eCloseChannel, none⟩,
   ⟨.eCreateQueue, .stop, .eCloseChannel, none⟩,
   ⟨.eBindQueue, .stop, .eRemoveQueue, none⟩,
   ⟨.eCreateConsumer, .stop, .eUnbindQueue, none⟩]

/-- The arrows of `drop()`. -/
def dropArrows : List Arrow :=
  [.eCreateChannel, .eCheckQueue, .eRecreateChannel, .eCreateExchange, .eCreateQueue, .eBindQueue,
    .eCreateConsumer, .eReady, .eShutdown, .eUnbindQueue, .eRemoveQueue, .eCloseChannel].map
    (⟨·, .drop, .eEnd, none⟩)

/-- All arrows. -/
def arrows : List Arrow := drawn ++ stopArrows ++ dropArrows

/-- The arrow may be taken by a transceiver of this role in this state. -/
def Arrow.leaves (a : Arrow) (listener : Bool) (s : State) (l : Label) : Bool :=
  decide (a.source = s) && decide (a.label = l) && a.role.all (· = listener)

/-- A transceiver as the diagram shows it, with the states it has entered. -/
structure Diagram where
  listener : Bool
  state : State
  entered : List State
  deriving DecidableEq, Repr

namespace Diagram

/-- Going along an arrow. -/
def step (d : Diagram) (l : Label) : Option Diagram :=
  (arrows.find? (·.leaves d.listener d.state l)).map fun a ↦
    { d with state := a.target, entered := d.entered ++ [a.target] }

/-- The ways through the diagram. -/
def machine : Machine Diagram Label where
  init d := d.state = .eEnd ∧ d.entered = []
  step := step

@[simp] theorem machine_step (d : Diagram) (l : Label) : machine.step d l = d.step l := rfl

/-- Where an arrow leads, from a state of its source. -/
def target (listener : Bool) (s : State) (l : Label) : Option State :=
  (arrows.find? (·.leaves listener s l)).map (·.target)

theorem step_eq (d : Diagram) (l : Label) :
    d.step l = (target d.listener d.state l).map fun s ↦
      { d with state := s, entered := d.entered ++ [s] } := by
  simp only [step, target, Option.map_map]
  rfl

end Diagram

/-! ### What the events of a transceiver stand for -/

/-- The lambda is for a success or for a failure, messages apart. -/
def Callback.label : Callback → Option Label
  | .createChannelReady | .checkQueueSuccess _ | .recreateChannelReady | .createExchangeSuccess
  | .createQueueSuccess _ | .bindQueueSuccess | .createConsumerSuccess _ | .shutdownSuccess _
  | .unbindQueueReady | .unbindQueueSuccess | .removeQueueReady | .removeQueueSuccess
  | .closeChannelSuccess => some .success
  | .createChannelError _ | .checkQueueError _ | .recreateChannelError _ | .createExchangeError _
  | .createQueueError _ | .bindQueueError _ | .createConsumerError _ | .readyError _
  | .shutdownError _ | .unbindQueueError _ | .unbindQueueChannelError _ | .removeQueueError _
  | .removeQueueChannelError _ | .closeChannelError _ => some .fail
  | .createConsumerReceived _ _ _ | .sendReturned _ _ _ => none

/-- What has happened, if it can take a transceiver along an arrow. -/
def Event.label : Event → Option Label
  | .start _ => some .start
  | .stop => some .stop
  | .drop => some .drop
  | .callback _ cb => cb.label
  | .install _ _ _ | .send _ _ _ => none

/-- The event takes a transceiver along an arrow for what has happened, and on along arrows for what
is found, or it leaves the transceiver where it is. -/
def Event.Along (e : Event) (labels : List Label) : Prop :=
  labels = [] ∨ ∃ first rest, e.label = some first ∧ labels = first :: rest ∧
    ∀ l ∈ rest, l.found = true

variable {t t' u : Transceiver} {c : Channel} {n : ℕ} {cb : Callback} {s : State} {listener : Bool}

/-! ### One step -/

/-- From a state, the diagram has a way by what is found there to where `StateMachine()` comes to
rest, through the states that it enters. -/
def Finds (u : Transceiver) (s : State) : Prop :=
  ∀ entered, ∃ labels, (∀ l ∈ labels, l.found = true) ∧
    Diagram.machine.run ⟨u.listener, s, entered ++ [s]⟩ labels =
      some ⟨u.listener, u.landing s, entered ++ u.path s⟩

theorem finds_of_rest (hpath : u.path s = [s]) : Finds u s := by
  intro entered
  exact ⟨[], by simp, by simp [landing, hpath]⟩

theorem finds_of_path (s' : State) (l : Label) (hfound : l.found = true)
    (htarget : Diagram.target u.listener s l = some s') (hpath : u.path s = s :: u.path s')
    (h : Finds u s') : Finds u s := by
  intro entered
  obtain ⟨labels, hlabels, hrun⟩ := h (entered ++ [s])
  have hlanding : u.landing s = u.landing s' := by
    apply Option.some.inj
    rw [← getLast?_path, hpath, List.getLast?_cons, getLast?_path, Option.getD_some]
  refine ⟨l :: labels, ?_, ?_⟩
  · intro l' hl'
    rcases List.mem_cons.mp hl' with rfl | hl'
    · exact hfound
    · exact hlabels l' hl'
  · rw [Machine.run_cons, Diagram.machine_step, Diagram.step_eq, htarget, Option.map_some,
      Option.bind_some, hrun, hlanding, hpath, List.append_assoc, List.singleton_append]

/-- What a call of `StateMachine()` goes on to is in the diagram. -/
theorem finds (u : Transceiver) (s : State) : Finds u s := by
  have hunbind : Finds u .eUnbindQueue := by
    by_cases hqueue : u.recvQueue = ""
    · exact finds_of_path .eCloseChannel .noReceivedName rfl
        (by cases u.listener <;> rfl) (by simp [path, hqueue]) (finds_of_rest rfl)
    · exact finds_of_rest (by simp [path, hqueue])
  cases s with
  | eCreateChannel =>
    by_cases hconnection : u.connection.isSome
    · exact finds_of_rest (by simp [path, hconnection])
    · exact finds_of_path .eEnd .noConnection rfl (by cases u.listener <;> rfl)
        (by simp [path, hconnection]) (finds_of_rest rfl)
  | eCheckQueue =>
    by_cases hqueue : u.queue = ""
    · exact finds_of_path .eCreateExchange .noQueueName rfl (by cases u.listener <;> rfl)
        (by simp [path, hqueue]) (finds_of_rest rfl)
    · exact finds_of_rest (by simp [path, hqueue])
  | eCreateQueue =>
    by_cases hexist : u.queueExist
    · exact finds_of_path .eBindQueue .queueExists rfl (by cases u.listener <;> rfl)
        (by simp [path, hexist]) (finds_of_rest rfl)
    · exact finds_of_rest (by simp [path, hexist])
  | eShutdown =>
    by_cases hlistener : u.listener = true
    · by_cases htag : u.consumerTag = ""
      · refine finds_of_path .eUnbindQueue .noConsumerTag rfl
          (by cases u.listener <;> rfl) ?_ hunbind
        simp only [path, hlistener, htag, ↓reduceIte]
        split <;> rfl
      · exact finds_of_rest (by simp [path, hlistener, htag])
    · exact finds_of_path .eCloseChannel .notListener rfl (by simp [hlistener]; rfl)
        (by simp [path, hlistener]) (finds_of_rest rfl)
  | eUnbindQueue => exact hunbind
  | eRemoveQueue =>
    by_cases hexist : u.queueExist
    · exact finds_of_path .eCloseChannel .queueExists rfl (by cases u.listener <;> rfl)
        (by simp [path, hexist]) (finds_of_rest rfl)
    · exact finds_of_rest (by simp [path, hexist])
  | eRecreateChannel | eCreateExchange | eBindQueue | eCreateConsumer | eReady | eCloseChannel
  | eEnd => exact finds_of_rest rfl

/-- An `onError` lambda is installed in the state that has opened the channel, or it is that of a
sender that is ready or has been. -/
theorem Outstanding.state_of_onError {handler : ErrorHandler} (h : Outstanding listener c s)
    (hhandler : c.onError = some handler) :
    handler.state = some s ∨ handler = .ready ∧ (s = .eReady ∨ s = .eCloseChannel) := by
  cases h with
  | opening ready hstate h =>
    obtain rfl : ready.error = handler := Option.some.inj (h.onError.symm.trans hhandler)
    exact Or.inl (by cases ready <;> simp [hstate, ReadyHandler.error, ReadyHandler.state,
      ErrorHandler.state])
  | operation o hstate hclose hcancel h => simp [h.onError] at hhandler
  | nothing hstate h =>
    have hready := h.onError.symm.trans hhandler
    cases listener with
    | true => simp [readyHandler] at hready
    | false =>
      obtain rfl : .ready = handler := by simpa [readyHandler] using hready
      exact Or.inr ⟨rfl, Or.inl (by simpa using hstate)⟩
  | closing abandoned handler' hstate hready hall h =>
    have hsame := h.onError.symm.trans hhandler
    rcases hready with rfl | rfl
    · simp at hsame
    · exact Or.inr ⟨(Option.some.inj hsame).symm, Or.inr hstate⟩

/-- The lambda of an operation goes, in the state of the operation, where the diagram says. -/
theorem target_of_reports {operation : Operation} (hreports : operation.reports cb = true)
    (hstate : t.state = operation.state) (hreaction : t.reaction cb = some (u, s)) :
    ∃ l, cb.label = some l ∧ Diagram.target t.listener t.state l = some s := by
  cases operation <;> cases cb <;> simp only [Operation.reports, Bool.false_eq_true] at hreports
  all_goals
    simp only [Operation.state] at hstate
    simp only [reaction, hstate, ↓reduceIte, Option.ite_none_right_eq_some, Option.some.injEq,
      Prod.mk.injEq] at hreaction
    refine ⟨_, rfl, ?_⟩
    rw [hstate]
    first
    | obtain ⟨-, rfl⟩ := hreaction
      cases t.listener <;> rfl
    | obtain ⟨-, -, rfl⟩ := hreaction
      rfl

/-! ### Whole runs -/

/-- The events that the diagram speaks of: only lambdas of the current channel are called, and
`stop()` is not called while the channel is replaced. -/
def Plain (t : Transceiver) (e : Event) : Prop :=
  Prompt t e ∧ (e = .stop → t.state ≠ .eRecreateChannel)

instance (t : Transceiver) (e : Event) : Decidable (Plain t e) :=
  inferInstanceAs (Decidable (Prompt t e ∧ (e = .stop → t.state ≠ .eRecreateChannel)))

/-- A lambda of the current channel goes where the diagram says. -/
theorem Outstanding.target (h : Outstanding t.listener c t.state)
    (hregistered : c.registered cb = true)
    (hreaction : (t.delivering n cb).reaction cb = some (u, s)) :
    ∃ l, cb.label = some l ∧ Diagram.target t.listener t.state l = some s := by
  rcases registered_cases hregistered with ⟨ready, hready, rfl⟩ | ⟨handler, hhandler, hreports⟩ |
    ⟨o, ho, hreports⟩ | ⟨_, _, _, rfl⟩ | ⟨_, _, _, rfl⟩
  · obtain ⟨hstate, -⟩ := h.opening_of_onReady hready
    refine ⟨.success, by cases ready <;> rfl, ?_⟩
    rw [hstate]
    cases ready with
    | createChannel =>
      obtain ⟨-, hreaction⟩ := Option.ite_none_right_eq_some.mp hreaction
      obtain ⟨-, rfl⟩ := Prod.mk.inj (Option.some.inj hreaction)
      show Diagram.target t.listener .eCreateChannel .success =
        some (if t.listener then .eCheckQueue else .eCreateExchange)
      cases t.listener <;> rfl
    | recreateChannel =>
      obtain ⟨-, hreaction⟩ := Option.ite_none_right_eq_some.mp hreaction
      obtain ⟨-, rfl⟩ := Prod.mk.inj (Option.some.inj hreaction)
      cases t.listener <;> rfl
    | unbindQueue | removeQueue => cases hreaction
  · obtain rfl := eq_eEnd_of_reports hreports hreaction
    have hlabel : cb.label = some .fail := by
      cases handler <;> cases cb <;> first | rfl | cases hreports
    refine ⟨.fail, hlabel, ?_⟩
    rcases h.state_of_onError hhandler with hstate | ⟨rfl, hstate | hstate⟩
    · have hown (s : State) (hs : t.state = s) (hhandler : handler.state = some s) :
          Diagram.target t.listener t.state .fail = some .eEnd := by
        rw [hs]
        cases handler <;> cases hhandler <;> cases t.listener <;> rfl
      exact hown t.state rfl hstate
    · rw [hstate]
      cases t.listener <;> rfl
    · rw [hstate]
      cases t.listener <;> rfl
  · rcases h.state_of_mem ho with hstate | ⟨hclose, hsetsUp⟩
    · exact target_of_reports (t := t.delivering n cb) hreports hstate.symm hreaction
    · have hnone : t.reaction cb = none :=
        reaction_eq_none_of_setsUp hreports hsetsUp (by simp [hclose, State.beforeShutdown])
      simp [reaction_delivering_eq_none.mpr hnone] at hreaction
  · cases hreaction
  · cases hreaction

/-- A move goes where the diagram says. -/
theorem Attended.target_of_move {e : Event} (h : t.Attended) (hplain : Plain t e)
    (hstep : t.step e = some t') (hmove : t.move e = some (u, s)) :
    ∃ l, e.label = some l ∧ Diagram.target t.listener t.state l = some s := by
  cases e with
  | install | send => cases hmove
  | start connection =>
    obtain ⟨hstate, hmove⟩ := Option.ite_none_right_eq_some.mp hmove
    obtain ⟨-, rfl⟩ := Prod.mk.inj (Option.some.inj hmove)
    refine ⟨.start, rfl, ?_⟩
    rw [hstate]
    cases t.listener <;> rfl
  | stop =>
    obtain ⟨hbefore, hmove⟩ := Option.ite_none_right_eq_some.mp hmove
    obtain ⟨-, rfl⟩ := Prod.mk.inj (Option.some.inj hmove)
    refine ⟨.stop, rfl, ?_⟩
    have hstate := hplain.2 rfl
    cases hs : t.state <;> simp [hs, State.beforeShutdown] at hbefore hstate <;>
      cases t.listener <;> rfl
  | drop =>
    obtain ⟨hrunning, hmove⟩ := Option.ite_none_left_eq_some.mp hmove
    obtain ⟨-, rfl⟩ := Prod.mk.inj (Option.some.inj hmove)
    refine ⟨.drop, rfl, ?_⟩
    cases hs : t.state <;> first | exact absurd hs hrunning | cases t.listener <;> rfl
  | callback n cb =>
    have hn := hplain.1 n cb rfl
    have hrunning : t.state ≠ .eEnd := by
      intro hstate
      simp [(h.well.ended hstate).channel] at hn
    obtain ⟨c, hc, houtstanding⟩ := h.held hrunning
    obtain ⟨c', hc', hregistered⟩ := (step_callback hstep).1
    obtain rfl : c = c' := by
      have hsame : t.currentChannel = t.channels[n]? := by simp [currentChannel, hn]
      exact Option.some.inj (hc.symm.trans (hsame.trans hc'))
    exact houtstanding.target hregistered hmove

/-- Where the state machine stays, no state is entered. -/
theorem Stays.statesEntered (h : Stays t t') :
    Transceiver.statesEntered t'.log = Transceiver.statesEntered t.log := by
  obtain ⟨new, hlog, hnew⟩ := h.log
  have hnone : Transceiver.statesEntered new = [] := by
    rw [Transceiver.statesEntered, List.filterMap_eq_nil_iff]
    intro o ho
    cases o <;> first | rfl | cases hnew _ ho
  rw [hlog, statesEntered_append, hnone, List.append_nil]

/-- The transceiver as the diagram shows it. -/
def shown (t : Transceiver) : Diagram := ⟨t.listener, t.state, statesEntered t.log⟩

/-- A step goes along the arrows of the diagram. -/
theorem Attended.run_shown {e : Event} (h : t.Attended) (hplain : Plain t e)
    (hstep : t.step e = some t') :
    ∃ labels, e.Along labels ∧ Diagram.machine.run t.shown labels = some t'.shown := by
  have hlistener : t'.listener = t.listener := congrArg (·.2.2.2) (config_step hstep)
  cases hmove : t.move e with
  | none =>
    have hstays := step_of_no_move hstep hmove
    exact ⟨[], Or.inl rfl, by simp [shown, hlistener, hstays.state, hstays.statesEntered]⟩
  | some next =>
    obtain ⟨u, s⟩ := next
    obtain ⟨l, hl, htarget⟩ := h.target_of_move hplain hstep hmove
    obtain ⟨labels, hfound, hrun⟩ := finds u s (statesEntered t.log)
    obtain rfl := step_of_move hstep hmove
    have hu : u.listener = t.listener := listener_move hmove
    have hlog : u.log = t.log := (move_spec hmove).2.1
    refine ⟨l :: labels, Or.inr ⟨l, labels, hl, rfl, hfound⟩, ?_⟩
    rw [Machine.run_cons, Diagram.machine_step, Diagram.step_eq]
    simp only [shown, htarget, Option.map_some, Option.bind_some]
    rw [← hu, hrun, state_goto, statesEntered_goto, hlog, hu, hlistener]

/-- The diagram follows every plain run. -/
theorem refines_diagram :
    Machine.Refines machine Diagram.machine Plain Event.Along
      (fun t d ↦ t.Attended ∧ d = t.shown) where
  init := by
    rintro t ⟨exchange, queue, routeIn, listener, rfl⟩
    exact ⟨_, ⟨rfl, rfl⟩, attended_new exchange queue routeIn listener, rfl⟩
  step := by
    rintro t d e t' ⟨hattended, rfl⟩ hplain hstep
    obtain ⟨labels, halong, hrun⟩ := hattended.run_shown hplain hstep
    exact ⟨labels, t'.shown, halong, hrun, hattended.step hplain.1 hstep, rfl⟩

/-- A run in which only lambdas of the current channel are called, and `stop()` not while the
channel is replaced, goes along the arrows of the documented diagram: each event takes the
transceiver along an arrow for what has happened and then along arrows for what is found, or leaves
it where it is, and the states it enters are those on the way. -/
theorem follows_diagram (exchange queue routeIn : String) (listener : Bool) (es : List Event)
    (hrun : machine.run (new exchange queue routeIn listener) es = some t)
    (hplain : machine.Meets Plain (new exchange queue routeIn listener) es) :
    ∃ labels, List.Forall₂ Event.Along es labels ∧
      Diagram.machine.run ⟨listener, .eEnd, []⟩ labels.flatten =
        some ⟨listener, t.state, statesEntered t.log⟩ := by
  obtain ⟨labels, d, halong, hd, -, rfl⟩ :=
    refines_diagram.run ⟨attended_new exchange queue routeIn listener, rfl⟩ hrun hplain
  have hconfig : t.config = (new exchange queue routeIn listener).config :=
    Machine.run_invariant (M := machine) (I := fun t ↦ t.config = (new exchange queue routeIn
      listener).config) (fun _ _ _ h hstep ↦ (config_step hstep).trans h) hrun rfl
  have hlistener : t.listener = listener := congrArg (·.2.2.2) hconfig
  refine ⟨labels, halong, hd.trans ?_⟩
  rw [shown, hlistener]

/-- A listener on a queue that is missing, up to the removal of the queue that it cannot bind. -/
def removing : List Event :=
  [.start (some 0), .callback 0 .createChannelReady,
    .callback 0 (.checkQueueError "NOT_FOUND - no queue 'orders'"),
    .callback 1 .recreateChannelReady, .callback 1 .createExchangeSuccess,
    .callback 1 (.createQueueSuccess "orders"), .callback 1 (.bindQueueError "ACCESS_REFUSED"),
    .callback 2 .removeQueueReady]

/-- It goes along the arrows. -/
theorem follows_diagram_removing :
    ∃ t labels, machine.run (new "exchange" "orders" "orders" true) removing = some t ∧
      t.state = .eRemoveQueue ∧ List.Forall₂ Event.Along removing labels ∧
      Diagram.machine.run ⟨true, .eEnd, []⟩ labels.flatten =
        some ⟨true, t.state, statesEntered t.log⟩ := by
  obtain ⟨labels, hlabels⟩ :=
    follows_diagram "exchange" "orders" "orders" true removing rfl (by decide)
  exact ⟨_, labels, rfl, rfl, hlabels⟩

/-! ### No way back -/

/-- How far a transceiver has come, the teardown coming after the set-up. -/
def State.rank : State → ℕ
  | .eCreateChannel => 0
  | .eCheckQueue => 1
  | .eRecreateChannel => 2
  | .eCreateExchange => 3
  | .eCreateQueue => 4
  | .eBindQueue => 5
  | .eCreateConsumer => 6
  | .eReady => 7
  | .eShutdown => 8
  | .eUnbindQueue => 9
  | .eRemoveQueue => 10
  | .eCloseChannel => 11
  | .eEnd => 12

/-- The way from one state to another starts over, or leads further. -/
def State.Precedes (s s' : State) : Prop := s' = .eCreateChannel ∨ s.rank < s'.rank

/-- Every arrow but that of a `start()` leads further. -/
theorem precedes_of_target {l : Label} {s' : State}
    (h : Diagram.target listener s l = some s') :
    s.Precedes s' ∧ (s' = .eCreateChannel → l = .start) := by
  have hall : ∀ a ∈ arrows, (a.target = .eCreateChannel ∨ a.source.rank < a.target.rank) ∧
      (a.target = .eCreateChannel → a.label = .start) := by decide
  obtain ⟨a, ha, rfl⟩ := Option.map_eq_some_iff.mp h
  have hleaves := List.find?_some ha
  simp only [Arrow.leaves, Bool.and_eq_true, decide_eq_true_eq] at hleaves
  obtain ⟨⟨rfl, rfl⟩, -⟩ := hleaves
  exact hall a (List.mem_of_find?_eq_some ha)

/-- The states entered follow one another along the arrows. -/
def Diagram.Chained (d : Diagram) : Prop :=
  List.IsChain State.Precedes (.eEnd :: d.entered) ∧ (.eEnd :: d.entered).getLast? = some d.state

theorem Diagram.Chained.step {d d' : Diagram} {l : Label} (h : d.Chained)
    (hstep : d.step l = some d') : d'.Chained := by
  rw [step_eq, Option.map_eq_some_iff] at hstep
  obtain ⟨s', htarget, rfl⟩ := hstep
  constructor
  · rw [← List.cons_append, List.isChain_append]
    refine ⟨h.1, List.isChain_singleton _, ?_⟩
    intro s hs s'' hs''
    rw [h.2, Option.mem_some_iff] at hs
    obtain rfl : s' = s'' := by simpa using hs''
    exact hs ▸ (precedes_of_target htarget).1
  · rw [← List.cons_append, List.getLast?_concat]

/-- From one `start()` to the next no state is entered twice: the states entered start over as often
as `start()` has been accepted, and a stretch of them that does not start over has none twice. -/
structure EntersOnce (t : Transceiver) : Prop where
  starts : (statesEntered t.log).count .eCreateChannel = t.runs
  once : ∀ first states last, statesEntered t.log = first ++ states ++ last →
    .eCreateChannel ∉ states.tail → states.Nodup

/-- A stretch of a way that does not start over leads on and on. -/
theorem nodup_of_isChain {states : List State} (h : List.IsChain State.Precedes states)
    (hstart : .eCreateChannel ∉ states.tail) : states.Nodup := by
  have hfurther : List.IsChain (fun s s' : State ↦ s.rank < s'.rank) states :=
    h.imp_of_mem_tail_imp fun s s' _ hs' hprecedes ↦
      hprecedes.resolve_left fun hback ↦ hstart (hback ▸ hs')
  have htrans : IsTrans State fun s s' ↦ s.rank < s'.rank := ⟨fun _ _ _ ↦ Nat.lt_trans⟩
  have hpairwise := hfurther.pairwise
  refine hpairwise.imp ?_
  rintro s s' hlt rfl
  exact Nat.lt_irrefl _ hlt

/-- A call of `StateMachine()` starts over only where it is told to. -/
theorem count_path (u : Transceiver) (s : State) :
    (u.path s).count .eCreateChannel = if s = .eCreateChannel then 1 else 0 := by
  cases s <;> simp only [path] <;> (repeat' split) <;> first | rfl | contradiction

/-- The states entered start over as often as `start()` has been accepted. -/
theorem count_eq_runs (h : machine.ReachedBy Plain t) :
    t.Attended ∧ (statesEntered t.log).count .eCreateChannel = t.runs := by
  refine h.invariant (I := fun t ↦ t.Attended ∧ (statesEntered t.log).count .eCreateChannel =
    t.runs) ?_ ?_
  · rintro t ⟨exchange, queue, routeIn, listener, rfl⟩
    exact ⟨attended_new exchange queue routeIn listener, rfl⟩
  · rintro t e t' ⟨hattended, hcount⟩ hplain hstep
    refine ⟨hattended.step hplain.1 hstep, ?_⟩
    cases hmove : t.move e with
    | none =>
      have hstays := step_of_no_move hstep hmove
      rw [hstays.statesEntered, hcount, hstays.runs]
    | some next =>
      obtain ⟨u, s⟩ := next
      obtain ⟨l, hl, htarget⟩ := hattended.target_of_move hplain hstep hmove
      obtain rfl := step_of_move hstep hmove
      obtain ⟨-, hlog, -, hruns⟩ := move_spec hmove
      rw [statesEntered_goto, List.count_append, hlog, hcount, count_path, runs_goto]
      rcases hruns with ⟨-, -, rfl, hruns⟩ | ⟨hstart, hruns⟩
      · simp [hruns]
      · have hs : s ≠ .eCreateChannel := by
          intro hs
          have hlabel := (precedes_of_target htarget).2 hs
          subst hlabel
          cases e with
          | start connection => exact hstart connection rfl
          | callback n cb => cases cb <;> cases hl
          | install | stop | drop | send => cases hl
        simp [hs, hruns]

/-- In a run in which only lambdas of the current channel are called, and `stop()` not while the
channel is replaced, no state is entered twice from one accepted `start()` to the next. -/
theorem entersOnce_of_reachedBy (h : machine.ReachedBy Plain t) : EntersOnce t where
  starts := (count_eq_runs h).2
  once := by
    have hchained : t.shown.Chained := by
      refine refines_diagram.invariant (I := Diagram.Chained) (J := fun t ↦ t.shown.Chained) ?_
        (fun d l d' hd hstep ↦ hd.step hstep) ?_ h
      · rintro ⟨listener, state, entered⟩ ⟨rfl, rfl⟩
        exact ⟨List.isChain_singleton _, rfl⟩
      · rintro t d ⟨-, rfl⟩ hd
        exact hd
    intro first states last hentered hstart
    have hchain : List.IsChain State.Precedes ((.eEnd :: first) ++ states ++ last) := by
      simpa [shown, hentered] using hchained.1
    exact nodup_of_isChain hchain.left_of_append.right_of_append hstart

/-- So does the listener above. -/
theorem entersOnce_removing :
    ∃ t, machine.run (new "exchange" "orders" "orders" true) removing = some t ∧
      (statesEntered t.log).length = 7 ∧ EntersOnce t :=
  ⟨_, rfl, rfl, entersOnce_of_reachedBy ⟨new "exchange" "orders" "orders" true, removing,
    ⟨_, _, _, _, rfl⟩, rfl, by decide⟩⟩

/-! ### Two arrows that are never taken -/

/-- The name of a queue or of a consumer that the lambda is told. -/
def Callback.told : Callback → Option String
  | .checkQueueSuccess name | .createQueueSuccess name | .createConsumerSuccess name => some name
  | _ => none

namespace Transcript

variable {x y : Transcript} {e : Event}

/-- No lambda of a channel already replaced or reset is called, and what the broker confirms has a
name. -/
def Ordinary (x : Transcript) (e : Event) : Prop :=
  x.Timely e ∧ ∀ n cb, e = .callback n cb → cb.told ≠ some ""

instance (x : Transcript) : ∀ e, Decidable (x.Ordinary e)
  | .callback n cb =>
    decidable_of_iff (x.transceiver.channel = some n ∧ cb.told ≠ some "")
      (by simp [Ordinary, Timely])
  | .install _ _ _ | .start _ | .stop | .drop | .send _ _ _ =>
    isTrue (by simp [Ordinary, Timely])

/-- What has been told so far had names. -/
def Told (replies : Replies) : Prop := ∀ r ∈ replies, r.2.told ≠ some ""

theorem Told.after (h : Told x.replies) (hordinary : x.Ordinary e) : Told (x.after e) := by
  cases e with
  | start connection =>
    intro r hr
    simp only [Transcript.after] at hr
    split at hr
    · cases hr
    · exact h r hr
  | callback n cb =>
    intro r hr
    rcases List.mem_append.mp hr with hr | hr
    · exact h r hr
    · exact List.mem_singleton.mp hr ▸ hordinary.2 n cb rfl
  | install | stop | drop | send => exact h

theorem sound_new (exchange queue routeIn : String) (listener : Bool) :
    Sound ⟨new exchange queue routeIn listener, []⟩ where
  well := wellFormed_new exchange queue routeIn listener
  tracked := fun hrunning ↦ absurd rfl hrunning
  crashed := rfl
  confirmed := fun hrunning ↦ absurd rfl hrunning
  connection := fun hrunning ↦ absurd rfl hrunning
  cancels := fun n c _ hn ↦ by cases hn

/-- A move goes to a state whose requirements have been met. -/
theorem Sound.confirmed_move (h : x.Sound) (htimely : x.Timely e)
    (hstep : x.transceiver.step e = some (u.goto s)) (hmove : x.transceiver.move e = some (u, s)) :
    s = .eRemoveQueue ∧ u.queueExist = true ∨ Confirmed (x.after e) u s := by
  cases e with
  | install | send => cases hmove
  | start connection =>
    obtain ⟨hstate, hmove⟩ := Option.ite_none_right_eq_some.mp hmove
    obtain ⟨rfl, rfl⟩ := Prod.mk.inj (Option.some.inj hmove)
    exact Or.inr (h.well.ended hstate).queueExist
  | stop =>
    obtain ⟨hstate, hmove⟩ := Option.ite_none_right_eq_some.mp hmove
    obtain ⟨rfl, rfl⟩ := Prod.mk.inj (Option.some.inj hmove)
    have hrunning : x.transceiver.state ≠ .eEnd := by
      intro hend
      simp [hend, State.beforeShutdown] at hstate
    exact (h.confirmed hrunning).stop hstate
  | drop =>
    obtain ⟨-, hmove⟩ := Option.ite_none_left_eq_some.mp hmove
    obtain ⟨rfl, rfl⟩ := Prod.mk.inj (Option.some.inj hmove)
    exact Or.inr trivial
  | callback n cb =>
    have hn := htimely n cb rfl
    have hrunning : x.transceiver.state ≠ .eEnd := by
      intro hend
      cases (h.well.ended hend).channel.symm.trans hn
    obtain ⟨⟨c, hc, hregistered⟩, -⟩ := step_callback hstep
    have hconfirmed : Confirmed x.replies (x.transceiver.delivering n cb)
        (x.transceiver.delivering n cb).state := (h.confirmed hrunning).congr rfl rfl rfl rfl rfl
    exact hconfirmed.reaction hn (fun hcancel ↦ h.cancels.reported hn hc hregistered hcancel) hmove

/-- A step comes to rest where it sets about unbinding the queue, and, for a listener, where it sets
about cancelling the consumer. -/
def Rests (t t' : Transceiver) : Prop :=
  ∃ new, statesEntered t'.log = statesEntered t.log ++ new ∧
    (.eUnbindQueue ∈ new → t'.state = .eUnbindQueue) ∧
    (.eShutdown ∈ new → t'.listener = true → t'.state = .eShutdown)

theorem name_of_named {replies : Replies} {n : ℕ} {name : String}
    (htold : Told replies) (h : Transceiver.Named replies n name) : name ≠ "" := by
  rintro rfl
  rcases h with h | h
  · exact htold _ h rfl
  · exact htold _ h rfl

/-- Where the queue to unbind and the consumer to cancel have names, `StateMachine()` does not go
on from the states for that. -/
theorem rests_of_confirmed {replies : Replies} (htold : Told replies)
    (hconfirmed : s = .eRemoveQueue ∧ u.queueExist = true ∨ Confirmed replies u s) :
    (.eUnbindQueue ∈ u.path s → u.landing s = .eUnbindQueue) ∧
      (.eShutdown ∈ u.path s → u.listener = true → u.landing s = .eShutdown) := by
  cases s with
  | eUnbindQueue =>
    obtain ⟨k, -, hnamed⟩ := hconfirmed.resolve_left (by simp)
    have hqueue := name_of_named htold hnamed
    constructor
    · intro _
      simp [landing, path, hqueue]
    · intro hmem
      simp [path, hqueue] at hmem
  | eShutdown =>
    by_cases hlistener : u.listener = true
    · obtain ⟨-, n, -, hreply⟩ := hconfirmed.resolve_left (by simp) hlistener
      have htag : u.consumerTag ≠ "" := fun hempty ↦ htold _ hreply (congrArg some hempty)
      constructor
      · intro hmem
        simp [path, hlistener, htag] at hmem
      · intro _ _
        simp [landing, path, hlistener, htag]
    · constructor
      · intro hmem
        simp [path, hlistener] at hmem
      · intro _ hlistener'
        exact absurd hlistener' hlistener
  | _ =>
    constructor <;> intro hmem <;> simp only [path] at hmem <;> (try split at hmem) <;>
      simp at hmem

/-- As long as no lambda of a channel already replaced or reset is called, and the broker confirms
queues and consumers by names that are not empty, a listener has a consumer to cancel whenever it is
being stopped, and every transceiver a queue to unbind. -/
theorem rests_of_reachedBy (hreachable : machine.ReachedBy Ordinary x) (hordinary : x.Ordinary e)
    (hstep : machine.step x e = some y) : Rests x.transceiver y.transceiver := by
  obtain ⟨hsound, htold⟩ : x.Sound ∧ Told x.replies := by
    refine hreachable.invariant (I := fun x ↦ x.Sound ∧ Told x.replies) ?_ ?_
    · rintro ⟨t, replies⟩ ⟨⟨exchange, queue, routeIn, listener, rfl⟩, rfl⟩
      exact ⟨sound_new exchange queue routeIn listener, fun r hr ↦ by cases hr⟩
    · rintro x e y ⟨hsound, htold⟩ hordinary hstep
      refine ⟨(hsound.step hordinary.1 hstep).2, ?_⟩
      obtain ⟨t', -, rfl⟩ := Option.map_eq_some_iff.mp hstep
      exact htold.after hordinary
  obtain ⟨t', ht', rfl⟩ := Option.map_eq_some_iff.mp hstep
  cases hmove : x.transceiver.move e with
  | none =>
    have hstays := step_of_no_move ht' hmove
    exact ⟨[], by simp [hstays.statesEntered], by simp, by simp⟩
  | some next =>
    obtain ⟨u, s⟩ := next
    obtain rfl := step_of_move ht' hmove
    have hconfirmed := hsound.confirmed_move hordinary.1 ht' hmove
    obtain ⟨hunbind, hshutdown⟩ := rests_of_confirmed (htold.after hordinary) hconfirmed
    have hlog : u.log = x.transceiver.log := (move_spec hmove).2.1
    have hlistener : (u.goto s).listener = u.listener := congrArg (·.2.2.2) (config_goto u s)
    refine ⟨u.path s, by rw [statesEntered_goto, hlog], ?_, ?_⟩
    · intro hmem
      rw [state_goto]
      exact hunbind hmem
    · intro hmem hl
      rw [state_goto]
      exact hshutdown hmem (hlistener ▸ hl)

/-- A listener that has been stopped unbinds its queue. -/
theorem rests_session :
    ∃ x y, machine.run ⟨new "exchange" "queue" "route" true, []⟩ (session.take 6) = some x ∧
      machine.step x .stop = some y ∧ y.transceiver.state = .eShutdown ∧
      Rests x.transceiver y.transceiver := by
  have hstop (x : Transcript) : x.Ordinary .stop := by simp [Ordinary, Timely]
  refine ⟨_, _, rfl, rfl, rfl, ?_⟩
  exact rests_of_reachedBy ⟨⟨new "exchange" "queue" "route" true, []⟩, session.take 6,
    ⟨⟨_, _, _, _, rfl⟩, rfl⟩, rfl, by decide⟩ (hstop _) rfl

end Transcript

end Transceiver

end AmqpAsio
