import AmqpAsio.Broker.Client

/-!
# A listener among the clients of a broker

The broker serves one listener and any number of other clients, which declare, remove, bind and
unbind what they like at any time. A binding made by the listener carries the number of the channel
on which it was asked for, one made by another client carries no number; so the bindings of the
present run are those with the numbers of its channels. `created` lists the queues that the present
run has brought into being.
-/

set_option autoImplicit false
set_option relaxedAutoImplicit false

namespace AmqpAsio

namespace Transceiver

/-- A listener, the broker, and the queues that did not exist when the broker carried out the
`declareQueue` of the present run. -/
structure World where
  client : Client
  broker : Broker String (String × String) (Option ℕ)
  created : List String

/-- What can happen: an action of the listener, or a command of another client. -/
inductive Happening
  | own (a : Action)
  | foreign (c : Command)
  deriving DecidableEq, Repr

namespace World

variable (x : World)

/-- The broker after an action of the listener. -/
def brokerAfter (a : Action) : Broker String (String × String) (Option ℕ) :=
  match x.client.command a with
  | some (n, c) => x.broker.apply (some n) c
  | none => x.broker

/-- The queues created, after an action of the listener. -/
def createdAfter (a : Action) : List String :=
  if x.client.begins a then []
  else
    match x.client.command a with
    | some (n, .declare q) =>
      if x.client.first ≤ n ∧ x.broker.queue q = false then q :: x.created else x.created
    | _ => x.created

/-- One happening. -/
def step : Happening → Option World
  | .own a =>
    if x.client.admits x.broker a then
      (x.client.step a).map (⟨·, x.brokerAfter a, x.createdAfter a⟩)
    else none
  | .foreign c => some { x with broker := x.broker.apply none c }

/-- The runs of a listener from its construction on, on a broker that already serves others. -/
def machine : Machine World Happening where
  init x := ∃ exchange queue routeIn, x.client = Client.new exchange queue routeIn ∧
    (∀ q r n, x.broker.binding q r ≠ some (some n)) ∧ x.created = []
  step := step

@[simp] theorem machine_step (x : World) (h : Happening) : machine.step x h = x.step h := rfl

/-- The happening is no lambda of an earlier run that calls `StateMachine()` in the present one. -/
def Undisturbed (h : Happening) : Prop := ∀ a, h = .own a → x.client.Undisturbed a

/-- The command that a happening makes the broker carry out for anyone but the present run. -/
def othersCommand : Happening → Option Command
  | .own a => (x.client.command a).bind fun c ↦ if c.1 < x.client.first then some c.2 else none
  | .foreign c => some c

variable {x} {y : World} {a : Action} {h : Happening}

theorem step_own (hstep : x.step (.own a) = some y) :
    x.client.admits x.broker a = true ∧ ∃ client, x.client.step a = some client ∧
      y = ⟨client, x.brokerAfter a, x.createdAfter a⟩ := by
  obtain ⟨hadmits, hmap⟩ := Option.ite_none_right_eq_some.mp hstep
  obtain ⟨client, hclient, rfl⟩ := Option.map_eq_some_iff.mp hmap
  exact ⟨hadmits, client, hclient, rfl⟩

/-- Only a verdict of the broker has it carry out a command. -/
theorem brokerAfter_of_event {e : Event} (hevent : x.client.event a = some e) :
    x.brokerAfter a = x.broker := by
  cases a <;> first | rfl | cases hevent

/-- A happening is an event of the listener's transceiver or leaves the transceiver as it is. -/
theorem transceiver_step (hstep : x.step h = some y) :
    (∃ e, x.client.transceiver.step e = some y.client.transceiver) ∨
      y.client.transceiver = x.client.transceiver := by
  cases h with
  | foreign c =>
    obtain rfl := Option.some.inj hstep
    exact Or.inr rfl
  | own a =>
    obtain ⟨-, client, hclient, rfl⟩ := step_own hstep
    rcases Client.step_cases hclient with ⟨n, verdict, operation, -, -, rfl⟩ | ⟨e, t', -, ht', rfl⟩
    · exact Or.inr rfl
    · exact Or.inl ⟨e, ht'⟩

theorem config_world_step (hstep : x.step h = some y) :
    y.client.transceiver.config = x.client.transceiver.config := by
  rcases transceiver_step hstep with ⟨e, he⟩ | heq
  · exact config_step he
  · rw [heq]

end World

end Transceiver

end AmqpAsio
