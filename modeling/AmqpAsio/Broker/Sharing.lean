import Mathlib.Logic.Function.Basic
import AmqpAsio.Broker.Naming

/-!
# Listeners that share a queue

Any number of listeners with the same exchange, queue and route serve on one broker. Declaring and
binding are shared between them, but so are unbinding and removing: a listener that is stopped
undoes the binding for all. What one can rely on, as long as none is refused what it then undoes or
removes without having been stopped, is that a listener that is ready has had its own `bindQueue`
carried out, and that the broker has the queue and the binding from then on until a listener that
has been stopped has it undo the binding or remove the queue.
-/

set_option autoImplicit false
set_option relaxedAutoImplicit false

namespace AmqpAsio

namespace Transceiver

/-- The action is a `stop()` that ends the set-up or the service of the listener. -/
def Client.stops (x : Client) (a : Action) : Bool :=
  x.event a = some .stop && x.transceiver.state.beforeShutdown &&
    x.transceiver.state ≠ .eRecreateChannel

/-- The action tells the listener that it is refused its consumer, or the binding of a queue that it
had not found. -/
def Client.refused (x : Client) (a : Action) : Bool :=
  match x.event a with
  | some (.callback _ (.createConsumerError _)) => x.transceiver.state = .eCreateConsumer
  | some (.callback _ (.bindQueueError _)) =>
    x.transceiver.state = .eBindQueue && !x.transceiver.queueExist
  | _ => false

/-- Listeners, the broker, for each channel of a listener whether the run it belongs to has been
stopped, and for each listener what the broker has carried out since it carried out the `bindQueue`
of the listener's present run, or `none` where it has not done so yet. Each command comes with
whether the run that has asked for it has been stopped. -/
structure Sharing (ι : Type*) where
  member : ι → Client
  broker : Broker String (String × String) ι
  stopped : ι → ℕ → Bool
  since : ι → Option (List (Bool × Command))

namespace Sharing

variable {ι : Type*} (x : Sharing ι)

/-- The action is no lambda of an earlier run of its listener that calls `StateMachine()` in the
present one, and does not refuse the listener what it then gives up for all. -/
def Unrefused (e : ι × Action) : Prop :=
  (x.member e.1).Undisturbed e.2 ∧ (x.member e.1).refused e.2 = false

/-- The broker has the queue of a listener, bound to the exchange by its route. -/
def Served (i : ι) : Prop :=
  x.broker.queue (x.member i).transceiver.queue = true ∧
    (x.broker.binding (x.member i).transceiver.queue
      ((x.member i).transceiver.exchange, (x.member i).transceiver.routeIn)).isSome = true

/-- The broker has carried out the `bindQueue` of the present run of a listener, and has the queue
and its binding unless it has undone the binding or removed the queue since, for a listener that had
been stopped. -/
def Bound (i : ι) : Prop :=
  ∃ commands, x.since i = some commands ∧
    ((true, .unbind (x.member i).transceiver.queue
      ((x.member i).transceiver.exchange, (x.member i).transceiver.routeIn)) ∉ commands →
    (true, .remove (x.member i).transceiver.queue) ∉ commands → x.Served i)

/-- What a listener in `eReady` can rely on. -/
def Serves (i : ι) : Prop := (x.member i).transceiver.state = .eReady → x.Bound i

/-- What is known of the binding of a listener. -/
def Binds (i : ι) : Prop :=
  match (x.member i).transceiver.state with
  | .eBindQueue =>
      (∃ n, (x.member i).first ≤ n ∧ .bindQueueSuccess ∈ (x.member i).answers n) → x.Bound i
  | .eCreateConsumer | .eReady => x.Bound i
  | _ => True

/-- A listener gives up its consumer, its binding or its queue only when its run has been
stopped. -/
structure Obedient (i : ι) : Prop where
  sound : (x.member i).Sound
  uniform : ∀ n, (x.member i).first ≤ n → x.stopped i n = x.stopped i (x.member i).first
  undoes : (x.member i).transceiver.state.undoes = true →
    x.stopped i (x.member i).first = true
  pending : ∀ n, ∀ operation ∈ (x.member i).transceiver.pendingOn n,
    operation.state.undoes = true → x.stopped i n = true

/-- The invariant of a listener on a named queue. -/
structure Partner (i : ι) : Prop where
  sound : (x.member i).Sound
  listener : (x.member i).transceiver.listener = true
  queue : (x.member i).transceiver.queue ≠ ""
  named : (x.member i).Named (· = (x.member i).transceiver.queue)
  binds : x.Binds i

section Bound

variable {x} {y : Sharing ι} {i j : ι}

/-- What is known of a binding outlasts what happens to its listener alone. -/
theorem Bound.congr (hbound : x.Bound j)
    (hconfig : (y.member j).transceiver.config = (x.member j).transceiver.config)
    (hbroker : y.broker = x.broker) (hsince : y.since j = x.since j) : y.Bound j := by
  simp only [config, Prod.mk.injEq] at hconfig
  simpa only [Bound, Served, hconfig, hbroker, hsince] using hbound

/-- It outlasts a command that is not the `bindQueue` of the listener. -/
theorem Bound.apply {c : Command} {b : Bool} (hbound : x.Bound j)
    (hconfig : (y.member j).transceiver.config = (x.member j).transceiver.config)
    (hbroker : y.broker = x.broker.apply i c)
    (hsince : y.since j = (x.since j).map (· ++ [(b, c)]))
    (hstopped : b = true ∨ (∀ q r, c ≠ .unbind q r) ∧ ∀ q, c ≠ .remove q) : y.Bound j := by
  obtain ⟨commands, hcommands, hserved⟩ := hbound
  refine ⟨commands ++ [(b, c)], by simp [hsince, hcommands], fun hunbind hremove ↦ ?_⟩
  simp only [config, Prod.mk.injEq] at hconfig
  simp only [hconfig, List.mem_append, List.mem_singleton, not_or] at hunbind hremove
  simp only [Served, hconfig, hbroker]
  obtain ⟨hqueue, hbinding⟩ := hserved hunbind.1 hremove.1
  rcases hstopped with rfl | ⟨hnotUnbind, hnotRemove⟩
  · exact Broker.bound_apply hqueue hbinding (fun hc ↦ hunbind.2 (hc ▸ rfl))
      fun hc ↦ hremove.2 (hc ▸ rfl)
  · exact Broker.bound_apply hqueue hbinding (hnotUnbind _ _) (hnotRemove _)

/-- Where the listener stays as it is, so does what is known of its binding. -/
theorem Binds.mono (hbinds : x.Binds j) (hmember : y.member j = x.member j)
    (hbound : x.Bound j → y.Bound j) : y.Binds j := by
  unfold Binds at hbinds ⊢
  rw [hmember]
  cases hs : (x.member j).transceiver.state <;> simp only [hs] at hbinds ⊢
  case eBindQueue => exact fun hanswer ↦ hbound (hbinds hanswer)
  case eCreateConsumer | eReady => exact hbound hbinds

end Bound

variable [DecidableEq ι]

/-- The broker after an action of a listener. -/
def brokerAfter (i : ι) (a : Action) : Broker String (String × String) ι :=
  match (x.member i).command a with
  | some (_, c) => x.broker.apply i c
  | none => x.broker

/-- Whether the run of a channel of the listener `j` has been stopped, after an action of the
listener `i`. -/
def stoppedAfter (i : ι) (a : Action) (j : ι) (n : ℕ) : Bool :=
  if j = i then
    if (x.member i).begins a && (x.member i).transceiver.channels.length ≤ n then false
    else x.stopped i n || (x.member i).stops a && (x.member i).first ≤ n
  else x.stopped j n

/-- What the broker has carried out for the listener `j`, after an action of the listener `i`. -/
def sinceAfter (i : ι) (a : Action) (j : ι) : Option (List (Bool × Command)) :=
  if j = i ∧ (x.member i).begins a then none
  else
    match (x.member i).command a with
    | some (n, .bind q r) =>
      if j = i ∧ (x.member i).first ≤ n then some []
      else (x.since j).map (· ++ [(x.stopped i n, .bind q r)])
    | some (n, c) => (x.since j).map (· ++ [(x.stopped i n, c)])
    | none => x.since j

/-- After an action of one of the listeners, which is another one then. -/
def acted (i : ι) (a : Action) (client : Client) : Sharing ι :=
  ⟨Function.update x.member i client, x.brokerAfter i a, x.stoppedAfter i a, x.sinceAfter i a⟩

/-- An action of one of the listeners. -/
def step (e : ι × Action) : Option (Sharing ι) :=
  if (x.member e.1).admits x.broker e.2 then
    ((x.member e.1).step e.2).map fun client ↦ x.acted e.1 e.2 client
  else none

/-- The runs of listeners with the same exchange, named queue and route, on any broker. -/
def machine : Machine (Sharing ι) (ι × Action) where
  init x := ∃ exchange queue routeIn, queue ≠ "" ∧
    ∀ i, x.member i = Client.new exchange queue routeIn ∧ (∀ n, x.stopped i n = false) ∧
      x.since i = none
  step x e := x.step e

@[simp] theorem machine_step (x : Sharing ι) (e : ι × Action) : machine.step x e = x.step e := rfl

variable {x} {y : Sharing ι} {i j : ι} {a : Action} {e : Event} {t' : Transceiver}

theorem step_eq_some (hstep : x.step (i, a) = some y) :
    (x.member i).admits x.broker a = true ∧ ∃ client, (x.member i).step a = some client ∧
      y = x.acted i a client := by
  obtain ⟨hadmits, hmap⟩ := Option.ite_none_right_eq_some.mp hstep
  obtain ⟨client, hclient, rfl⟩ := Option.map_eq_some_iff.mp hmap
  exact ⟨hadmits, client, hclient, rfl⟩

@[simp] theorem member_acted (x : Sharing ι) (i : ι) (a : Action) (client : Client) :
    (x.acted i a client).member i = client := Function.update_self _ _ _

theorem member_acted_of_ne (x : Sharing ι) (a : Action) (client : Client) (hne : j ≠ i) :
    (x.acted i a client).member j = x.member j := Function.update_of_ne hne _ _

/-! ### Giving up -/

/-- An operation that has the broker undo a binding or remove a queue is one of those states. -/
theorem undoes_of_command {operation : Operation} {verdict : Verdict} {c : Command}
    (hc : operation.command verdict = some c) :
    operation.state.undoes = true ∨ (∀ q r, c ≠ .unbind q r) ∧ ∀ q, c ≠ .remove q := by
  cases operation <;> cases verdict <;> cases hc
  case declareQueue | bindQueue => exact Or.inr ⟨by simp, by simp⟩
  case unbindQueue | removeQueue => exact Or.inl rfl

omit [DecidableEq ι] in
theorem Obedient.command (h : x.Obedient i) {n : ℕ} {c : Command}
    (hc : (x.member i).command a = some (n, c)) :
    x.stopped i n = true ∨ (∀ q r, c ≠ .unbind q r) ∧ ∀ q, c ≠ .remove q := by
  cases a with
  | call | deliver => cases hc
  | execute m verdict =>
    obtain ⟨c', hnext, heq⟩ := Option.map_eq_some_iff.mp hc
    obtain ⟨rfl, rfl⟩ := Prod.mk.inj heq
    obtain ⟨operation, hoperation, hcommand⟩ := Option.bind_eq_some_iff.mp hnext
    exact (undoes_of_command hcommand).imp_left
      (h.pending m operation (h.sound.matched.next_mem hoperation))

/-- A run that has been stopped stays so, until another one begins. -/
theorem stoppedAfter_of_stopped {n : ℕ} (hstopped : x.stopped i n = true)
    (hn : (x.member i).begins a = true → n < (x.member i).transceiver.channels.length) :
    x.stoppedAfter i a i n = true := by
  unfold stoppedAfter
  rw [if_pos rfl, if_neg, hstopped, Bool.true_or]
  simpa using hn

/-- Whatever happens to another listener. -/
theorem Obedient.other (h : x.Obedient j) (client : Client) (hne : j ≠ i) :
    (x.acted i a client).Obedient j := by
  have hmember := x.member_acted_of_ne a client hne
  have hstopped (n : ℕ) : (x.acted i a client).stopped j n = x.stopped j n := if_neg hne
  refine ⟨?_, ?_, ?_, ?_⟩ <;> simp only [hmember, hstopped]
  · exact h.sound
  · exact h.uniform
  · exact h.undoes
  · exact h.pending

/-- Before another run begins, the channels of a run are stopped with it. -/
theorem stoppedAfter_of_le {n : ℕ} (hbegins : (x.member i).begins a = false)
    (huniform : x.stopped i n = x.stopped i (x.member i).first) (hn : (x.member i).first ≤ n) :
    x.stoppedAfter i a i n = x.stoppedAfter i a i (x.member i).first := by
  simp [stoppedAfter, hbegins, huniform, hn]

/-- A listener that has not been stopped comes to giving up nothing. -/
theorem Obedient.undoes_event (h : x.Obedient i) (hunrefused : x.Unrefused (i, a))
    (hevent : (x.member i).event a = some e) (hbegins : (x.member i).transceiver.begins e = false)
    (hstep : (x.member i).transceiver.step e = some t') (hundoes : t'.state.undoes = true) :
    x.stoppedAfter i a i (x.member i).first = true := by
  have hrefused := hunrefused.2
  have hbegins' : (x.member i).begins a = false := by simp [Client.begins, hevent, hbegins]
  have hold (hstopped : x.stopped i (x.member i).first = true) :
      x.stoppedAfter i a i (x.member i).first = true :=
    stoppedAfter_of_stopped hstopped (by simp [hbegins'])
  cases hmove : (x.member i).transceiver.move e with
  | none => exact hold (h.undoes ((step_of_no_move hstep hmove).state ▸ hundoes))
  | some next =>
    obtain ⟨u, s⟩ := next
    rw [step_of_move hstep hmove, state_goto] at hundoes
    have hway := way_of_move (hunrefused.1 e hevent) hbegins hmove
    rcases hway.undoing hundoes with ⟨rfl, hbefore, rfl⟩ | ⟨n, cb, rfl, hn, hundoing⟩
    · have hrecreate : (x.member i).transceiver.state ≠ .eRecreateChannel := by
        intro hs
        rw [hs] at hundoes
        cases undoes_of_landing hundoes
      simp [stoppedAfter, hbegins', Client.stops, hevent, hbefore, hrecreate]
    · have hgivenUp (hanswers : cb.answers = true)
          (hreports : ∀ operation : Operation, operation.reports cb = true →
            operation.state = .eShutdown) :
          x.stoppedAfter i a i (x.member i).first = true := by
        have hcb := (Client.mem_of_event hevent hanswers).2
        obtain ⟨operation, hmem, hreport⟩ := h.sound.matched.exists_of_mem hcb
        refine hold ((h.uniform n hn).symm.trans (h.pending n operation hmem ?_))
        rw [hreports operation hreport]
        rfl
      cases hundoing with
      | consumer message hs => simp [Client.refused, hevent, hs] at hrefused
      | binding message hs hexist => simp [Client.refused, hevent, hs, hexist] at hrefused
      | cancelled | uncancelled =>
        refine hgivenUp rfl fun operation hreports ↦ ?_
        cases operation <;> first | rfl | cases hreports

/-- Whatever happens to the listener itself. -/
theorem Obedient.own {client : Client} (h : x.Obedient i) (hunrefused : x.Unrefused (i, a))
    (hclient : (x.member i).step a = some client) : (x.acted i a client).Obedient i := by
  have hsound := h.sound.step hunrefused.1 hclient
  rcases Client.step_cases hclient with
    ⟨n, verdict, operation, rfl, hnext, rfl⟩ | ⟨e, t', hevent, ht', rfl⟩
  · have hsame (m : ℕ) : (x.acted i (.execute n verdict) { x.member i with
        answers := (x.member i).answersWith n (operation.answer verdict) }).stopped i m =
        x.stopped i m := by
      simp [acted, stoppedAfter, Client.begins, Client.event, Client.stops]
    refine ⟨by rwa [member_acted], ?_, ?_, ?_⟩ <;> simp only [member_acted, hsame]
    · exact h.uniform
    · exact h.undoes
    · exact h.pending
  have hold {m : ℕ} {operation : Operation}
      (hmem : operation ∈ (x.member i).transceiver.remaining m e)
      (hundoes : operation.state.undoes = true) : x.stoppedAfter i a i m = true := by
    have hpending := remaining_subset _ m e hmem
    refine stoppedAfter_of_stopped (h.pending m operation hpending hundoes) fun _ ↦ ?_
    by_contra hlt
    simp [pendingOn_of_length_le (Nat.not_lt.mp hlt)] at hpending
  cases hbegins : (x.member i).transceiver.begins e with
  | true =>
    have hstate : t'.state.undoes = false := by
      rcases state_of_begins hbegins ht' with hs | hs <;> rw [hs] <;> rfl
    have hbegins' : (x.member i).begins a = true := by simp [Client.begins, hevent, hbegins]
    have hfirst : (x.member i).transceiver.firstAfter (x.member i).first e =
        (x.member i).transceiver.channels.length := by simp [firstAfter_eq, hbegins]
    refine ⟨by rwa [member_acted], fun m hm ↦ ?_, fun hundoes ↦ ?_,
      fun m operation hmem hundoes ↦ ?_⟩
    · simp only [member_acted, hfirst] at hm ⊢
      simp [acted, stoppedAfter, hbegins', hm]
    · rw [member_acted] at hundoes
      cases hstate.symm.trans hundoes
    · rw [member_acted] at hmem
      rcases mem_pendingOn_step ht' hmem with hmem | ⟨-, hrequest⟩
      · exact hold hmem hundoes
      · rw [request_state hrequest, hstate] at hundoes
        cases hundoes
  | false =>
    have hbegins' : (x.member i).begins a = false := by simp [Client.begins, hevent, hbegins]
    have hfirst : (x.member i).transceiver.firstAfter (x.member i).first e =
        (x.member i).first := by
      simp [firstAfter_eq, hbegins]
    have huniform (m : ℕ) (hm : (x.member i).first ≤ m) :
        x.stoppedAfter i a i m = x.stoppedAfter i a i (x.member i).first :=
      stoppedAfter_of_le hbegins' (h.uniform m hm) hm
    have hundoes := h.undoes_event hunrefused hevent hbegins ht'
    refine ⟨by rwa [member_acted], ?_, ?_, fun m operation hmem hoperation ↦ ?_⟩
    · simp only [member_acted, hfirst]
      exact huniform
    · simp only [member_acted, hfirst]
      exact hundoes
    · rw [member_acted] at hmem
      rcases mem_pendingOn_step ht' hmem with hmem | ⟨hchannel, hrequest⟩
      · exact hold hmem hoperation
      · rw [request_state hrequest] at hoperation
        have hrunning : t'.state ≠ .eEnd := by
          intro hs
          simp [hs, State.undoes] at hoperation
        have hcrashed : t'.crashed = false := by
          by_contra hcrash
          have hs := hsound.wellFormed.crashed (by simpa using hcrash)
          rw [hs] at hoperation
          cases hoperation
        obtain ⟨k, hk, hle⟩ := hsound.sole.owns hrunning hcrashed
        obtain rfl : m = k := Option.some.inj (hchannel.symm.trans hk)
        exact (huniform m (hfirst ▸ hle)).trans (hundoes hoperation)

theorem Obedient.step {e : ι × Action} (h : x.Obedient j) (hunrefused : x.Unrefused e)
    (hstep : x.step e = some y) : y.Obedient j := by
  obtain ⟨i, a⟩ := e
  obtain ⟨-, client, hclient, rfl⟩ := step_eq_some hstep
  by_cases hne : j = i
  · subst hne
    exact h.own hunrefused hclient
  · exact h.other client hne

/-! ### Steps -/

/-- An action of another listener. -/
theorem Partner.other (h : x.Partner j) (hobedient : x.Obedient i)
    (hstep : x.step (i, a) = some y) (hne : j ≠ i) : y.Partner j := by
  obtain ⟨-, client, -, rfl⟩ := step_eq_some hstep
  have hmember := x.member_acted_of_ne a client hne
  refine ⟨by rw [hmember]; exact h.sound, by rw [hmember]; exact h.listener,
    by rw [hmember]; exact h.queue, by rw [hmember]; exact h.named,
    h.binds.mono hmember fun hbound ↦ ?_⟩
  cases hc : (x.member i).command a with
  | none =>
    exact hbound.congr (by rw [hmember]) (by simp [acted, brokerAfter, hc])
      (by simp [acted, sinceAfter, hne, hc])
  | some nc =>
    obtain ⟨n, c⟩ := nc
    refine hbound.apply (i := i) (c := c) (b := x.stopped i n) (by rw [hmember])
      (by simp [acted, brokerAfter, hc]) ?_ (hobedient.command hc)
    cases c <;> simp [acted, sinceAfter, hne, hc]

/-- The broker gives its verdict on an operation of a listener that is not the `bindQueue` of the
present run. -/
theorem Bound.execute {n : ℕ} {verdict : Verdict} {operation : Operation} {client : Client}
    (hbound : x.Bound i) (hobedient : x.Obedient i)
    (hnext : (x.member i).next n = some operation)
    (hclient : client.transceiver = (x.member i).transceiver)
    (hother : ∀ q r, operation.command verdict = some (.bind q r) → n < (x.member i).first) :
    (x.acted i (.execute n verdict) client).Bound i := by
  have hbegins : (x.member i).begins (.execute n verdict) = false := rfl
  have hcommand : (x.member i).command (.execute n verdict) = (operation.command verdict).map
    (n, ·) := by
    simp [Client.command, hnext]
  cases hc : operation.command verdict with
  | none =>
    refine hbound.congr (by simp [hclient]) ?_ ?_
    · simp [acted, brokerAfter, hcommand, hc]
    · simp [acted, sinceAfter, hbegins, hcommand, hc]
  | some c =>
    have hcommand' : (x.member i).command (.execute n verdict) = some (n, c) := by
      rw [hcommand, hc]
      rfl
    refine hbound.apply (i := i) (c := c) (b := x.stopped i n) (by simp [hclient]) ?_ ?_
      (hobedient.command hcommand')
    · simp [acted, brokerAfter, hcommand, hc]
    · cases c with
      | bind q r => simp [acted, sinceAfter, hbegins, hcommand, hc, Nat.not_le.mpr (hother q r hc)]
      | _ => simp [acted, sinceAfter, hbegins, hcommand, hc]

/-- The broker carries out the `bindQueue` of the present run of a listener. -/
theorem bound_of_executes {n : ℕ} {name : String} {client : Client} (hn : (x.member i).first ≤ n)
    (hnext : (x.member i).next n = some (.bindQueue (x.member i).transceiver.exchange
      (x.member i).transceiver.queue (x.member i).transceiver.routeIn))
    (hqueue : x.broker.queue (x.member i).transceiver.queue = true)
    (hclient : client.transceiver = (x.member i).transceiver) :
    (x.acted i (.execute n (.accept name)) client).Bound i := by
  have hbegins : (x.member i).begins (.execute n (.accept name)) = false := rfl
  have hcommand : (x.member i).command (.execute n (.accept name)) = some (n,
      .bind (x.member i).transceiver.queue
        ((x.member i).transceiver.exchange, (x.member i).transceiver.routeIn)) := by
    simp [Client.command, hnext, Operation.command]
  refine ⟨[], by simp [acted, sinceAfter, hbegins, hcommand, hn], fun _ _ ↦ ?_⟩
  simp only [Served, member_acted, hclient]
  simp only [acted, brokerAfter, hcommand]
  exact ⟨by simpa [Broker.apply, Broker.bind] using hqueue, Broker.isSome_binding_apply_bind hqueue⟩

/-- The broker gives its verdict on an operation of the listener. -/
theorem Partner.execute {n : ℕ} {verdict : Verdict} {operation : Operation} (h : x.Partner i)
    (hobedient : x.Obedient i)
    (hadmits : operation.admits x.broker verdict = true)
    (hnext : (x.member i).next n = some operation) :
    (x.acted i (.execute n verdict) { x.member i with
      answers := (x.member i).answersWith n (operation.answer verdict) }).Binds i := by
  have hbinds := h.binds
  have hnamed := h.named
  have hnone {q : String} {r : String × String} (hs : (x.member i).transceiver.state ≠ .eBindQueue)
      (hsetsUp : (x.member i).transceiver.state.beforeShutdown = true)
      (hc : operation.command verdict = some (.bind q r)) : n < (x.member i).first := by
    by_contra hlt
    have hstate := awaited_state (h.sound.next_setsUp hsetsUp (Nat.not_lt.mp hlt) hnext).1
    cases operation <;> cases verdict <;> cases hc
    exact hs hstate.symm
  unfold Binds at hbinds ⊢
  unfold Client.Named at hnamed
  rw [member_acted]
  cases hs : (x.member i).transceiver.state <;> simp only [hs] at hbinds hnamed ⊢
  case eCreateConsumer | eReady =>
    exact hbinds.execute hobedient hnext rfl fun q r hc ↦ hnone (by simp [hs]) (by rw [hs]; rfl) hc
  case eBindQueue =>
    rintro ⟨m, hm, hcb⟩
    rcases Nat.lt_or_ge n (x.member i).first with hn | hn
    · -- an operation of an earlier run
      refine (hbinds ⟨m, hm, ?_⟩).execute hobedient hnext rfl fun _ _ _ ↦ hn
      exact (Client.mem_answersWith hcb).resolve_right fun hnew ↦ absurd (hnew.1 ▸ hm) (by omega)
    · obtain ⟨hawaited, hnil⟩ := h.sound.next_setsUp (by rw [hs]; rfl) hn hnext
      obtain rfl : .bindQueue (x.member i).transceiver.exchange (x.member i).transceiver.queue
          (x.member i).transceiver.routeIn = operation := by
          simpa [awaited, hs, hnamed] using hawaited
      rcases Client.mem_answersWith hcb with hold | ⟨rfl, hanswer⟩
      · simp [hnil m hm] at hold
      · cases verdict with
        | refuse reason => cases hanswer
        | accept name => exact bound_of_executes hn hnext hadmits rfl

/-- What happens to a listener alone leaves what is known of its binding, unless a run begins. -/
theorem Bound.event (hbound : x.Bound i) (hbegins : (x.member i).transceiver.begins e = false)
    (hevent : (x.member i).event a = some e) (hstep : (x.member i).transceiver.step e = some t')
    {first : ℕ} {answers : ℕ → List Callback} : (x.acted i a ⟨t', first, answers⟩).Bound i := by
  have hcommand : (x.member i).command a = none := by cases a <;> first | rfl | cases hevent
  have hbegins' : (x.member i).begins a = false := by simp [Client.begins, hevent, hbegins]
  refine hbound.congr ?_ (by simp [acted, brokerAfter, hcommand]) ?_
  · rw [member_acted]
    exact config_step hstep
  · simp [acted, sinceAfter, hcommand, hbegins']

/-- The set-up of a listener goes on. -/
theorem Partner.setsUp {u : Transceiver} {s : State} (h : x.Partner i)
    (hundisturbed : (x.member i).Undisturbed a) (hevent : (x.member i).event a = some e)
    (hbegins : (x.member i).transceiver.begins e = false)
    (hstep : (x.member i).transceiver.step e = some (u.goto s))
    (hmove : (x.member i).transceiver.move e = some (u, s))
    (hsetsUp : (u.goto s).state.beforeShutdown = true) :
    (x.acted i a ⟨u.goto s, (x.member i).first, (x.member i).answersAfter a⟩).Binds i := by
  have hbinds := h.binds
  have hbefore := beforeShutdown_of_step h.sound.wellFormed hbegins hstep hsetsUp
  have hfirst : (x.member i).transceiver.firstAfter (x.member i).first e = (x.member i).first := by
    simp [firstAfter_eq, hbegins]
  have hway := way_of_move (hundisturbed e hevent) hbegins hmove
  have hnil (hne : u.landing s ≠ (x.member i).transceiver.state) {n : ℕ}
      (hn : (x.member i).first ≤ n) : (x.member i).answersAfter a n = [] :=
    h.sound.answers_eq_nil (h.sound.event hundisturbed hevent hstep) hfirst
      ((x.member i).answersAfter_subset a) hbefore hsetsUp (by simpa using hne) hn
  have hend : u.landing s ≠ .eEnd := fun hend ↦ by simp [hend, State.beforeShutdown] at hsetsUp
  unfold Binds at hbinds ⊢
  simp only [member_acted, state_goto]
  rcases hway.forward (beforeShutdown_of_landing_setsUp (u.state_goto s ▸ hsetsUp)) with
    ⟨rfl, rfl, rfl, -⟩ | ⟨n, cb, rfl, hn, hforward⟩
  · simp only [landing_eCreateChannel hend]
  · have honward := hforward.onward h.listener
    generalize hlanding : u.landing s = landing at honward hnil ⊢
    cases honward with
    | existing hs | created name hs =>
      simp only [hs] at hnil
      rintro ⟨m, hm, hcb⟩
      simp [hnil (by simp) hm] at hcb
    | bound hs =>
      simp only [hs] at hbinds
      exact (hbinds ⟨n, hn, (Client.mem_of_event hevent rfl).2⟩).event hbegins hevent hstep
    | consuming consumer hs =>
      simp only [hs] at hbinds
      exact hbinds.event hbegins hevent hstep
    | _ => trivial

/-- An event of the listener. -/
theorem Partner.event (h : x.Partner i) (hundisturbed : (x.member i).Undisturbed a)
    (hevent : (x.member i).event a = some e) (hstep : (x.member i).transceiver.step e = some t') :
    (x.acted i a ⟨t', (x.member i).transceiver.firstAfter (x.member i).first e,
      (x.member i).answersAfter a⟩).Binds i := by
  cases hbegins : (x.member i).transceiver.begins e with
  | true =>
    unfold Binds
    rw [member_acted]
    rcases state_of_begins hbegins hstep with hs | hs <;> simp only [hs]
  | false =>
    rw [firstAfter_eq, hbegins]
    cases hmove : (x.member i).transceiver.move e with
    | none =>
      have hbinds := h.binds
      unfold Binds at hbinds ⊢
      simp only [member_acted, (step_of_no_move hstep hmove).state]
      cases hs : (x.member i).transceiver.state <;> simp only [hs] at hbinds ⊢
      case eBindQueue =>
        rintro ⟨n, hn, hcb⟩
        exact (hbinds ⟨n, hn, (x.member i).answersAfter_subset a n hcb⟩).event hbegins hevent hstep
      case eCreateConsumer | eReady => exact hbinds.event hbegins hevent hstep
    | some next =>
      obtain ⟨u, s⟩ := next
      obtain rfl := step_of_move hstep hmove
      cases hsetsUp : (u.goto s).state.beforeShutdown with
      | true => exact h.setsUp hundisturbed hevent hbegins hstep hmove hsetsUp
      | false =>
        unfold Binds
        rw [member_acted]
        cases hs : (u.goto s).state <;> rw [hs] at hsetsUp <;> trivial

/-- An action of the listener itself. -/
theorem Partner.own (h : x.Partner i) (hobedient : x.Obedient i)
    (hundisturbed : (x.member i).Undisturbed a) (hstep : x.step (i, a) = some y) : y.Partner i := by
  obtain ⟨hadmits, client, hclient, rfl⟩ := step_eq_some hstep
  have hconfig : client.transceiver.config = (x.member i).transceiver.config := by
    rcases Client.step_cases hclient with ⟨n, verdict, operation, -, -, rfl⟩ | ⟨e, t', -, ht', rfl⟩
    · rfl
    · exact config_step ht'
  simp only [config, Prod.mk.injEq] at hconfig
  obtain ⟨-, hqueue, -, hlistener⟩ := hconfig
  refine ⟨?_, ?_, ?_, ?_, ?_⟩
  · rw [member_acted]
    exact h.sound.step hundisturbed hclient
  · rw [member_acted]
    exact hlistener.trans h.listener
  · rw [member_acted, hqueue]
    exact h.queue
  · rw [member_acted, hqueue]
    refine h.named.step h.sound h.listener hundisturbed ⟨fun _ ↦ rfl, fun n name flags _ _ _ ↦ ?_⟩
      hclient
    simp [declaredName, h.queue]
  · rcases Client.step_cases hclient with
      ⟨n, verdict, operation, rfl, hnext, rfl⟩ | ⟨e, t', hevent, ht', rfl⟩
    · exact h.execute hobedient (by simpa [Client.admits, hnext] using hadmits) hnext
    · exact h.event hundisturbed hevent ht'

/-! ### Runs -/

/-- The step lemma. -/
theorem Partner.step {e : ι × Action} (h : x.Partner j) (hobedient : ∀ i, x.Obedient i)
    (hunrefused : x.Unrefused e) (hstep : x.step e = some y) : y.Partner j := by
  obtain ⟨i, a⟩ := e
  by_cases hne : j = i
  · subst hne
    exact h.own (hobedient j) hunrefused.1 hstep
  · exact h.other (hobedient i) hstep hne

theorem Obedient.of_reachedBy (hreachable : machine.ReachedBy Unrefused x) (i : ι) :
    x.Obedient i := by
  refine hreachable.invariant (I := fun x ↦ x.Obedient i) ?_
    fun x e y h hunrefused hstep ↦ h.step hunrefused hstep
  rintro x ⟨exchange, queue, routeIn, -, hmember⟩
  obtain ⟨hi, hstopped, -⟩ := hmember i
  refine ⟨?_, fun n _ ↦ by rw [hstopped, hstopped], fun hundoes ↦ ?_, fun n operation hmem ↦ ?_⟩
  · rw [hi]
    exact Client.sound_new _ _ _
  · rw [hi] at hundoes
    cases hundoes
  · rw [hi] at hmem
    simp [Client.new, Transceiver.new, pendingOn] at hmem

theorem Partner.of_reachedBy (hreachable : machine.ReachedBy Unrefused x) (i : ι) :
    x.Partner i := by
  refine (hreachable.invariant (I := fun x ↦ x.Partner i ∧ ∀ j, x.Obedient j) ?_ ?_).1
  · intro x hx
    refine ⟨?_, Obedient.of_reachedBy ⟨x, [], hx, rfl, trivial⟩⟩
    obtain ⟨exchange, queue, routeIn, hqueue, hmember⟩ := hx
    have hi := (hmember i).1
    refine ⟨?_, ?_, ?_, ?_, ?_⟩
    · rw [hi]
      exact Client.sound_new _ _ _
    · rw [hi]
      rfl
    · rw [hi]
      exact hqueue
    · rw [hi]
      exact Client.named_new _ _ _
    · unfold Binds
      rw [hi]
      trivial
  · rintro x e y ⟨h, hobedient⟩ hunrefused hstep
    exact ⟨h.step hobedient hunrefused hstep, fun j ↦ (hobedient j).step hunrefused hstep⟩

/-- In every run of listeners that share a named queue, undisturbed by lambdas of earlier runs and
in which none is refused its consumer or the binding of a queue it has not found, the broker has
carried out the `bindQueue` of every listener that is ready, and has the queue and its binding
unless it has since undone the binding or removed the queue for a listener that had been stopped. -/
theorem serves_of_reachedBy (hreachable : machine.ReachedBy Unrefused x) (i : ι) :
    x.Serves i := by
  intro hready
  have hbinds := (Partner.of_reachedBy hreachable i).binds
  simpa only [Binds, hready] using hbinds

/-- Two listeners on the queue `orders`, which exists. -/
def pair : Sharing Bool :=
  ⟨fun _ ↦ Client.new "exchange" "orders" "orders", Broker.empty.declare "orders",
    fun _ _ ↦ false, fun _ ↦ none⟩

/-- A listener gets ready. -/
def getsReady (i : Bool) : List (Bool × Action) :=
  [(i, .call (.start (some 0))), (i, .call (.callback 0 .createChannelReady)),
    (i, .execute 0 (.accept "")), (i, .deliver 0), (i, .execute 0 (.accept "")), (i, .deliver 0),
    (i, .execute 0 (.accept "")), (i, .deliver 0), (i, .execute 0 (.accept "consumer")),
    (i, .deliver 0)]

/-- A listener is stopped, and the broker undoes its binding. -/
def unbinds (i : Bool) : List (Bool × Action) :=
  [(i, .call .stop), (i, .execute 0 (.accept "")), (i, .deliver 0),
    (i, .call (.callback 1 .unbindQueueReady)), (i, .execute 1 (.accept ""))]

/-- Both get ready, and the broker serves both. -/
theorem serves_getsReady :
    ∃ x, machine.run pair (getsReady false ++ getsReady true) = some x ∧
      ∀ i, (x.member i).transceiver.state = .eReady ∧ x.Serves i ∧ x.Served i := by
  obtain ⟨x, hrun, hready, hserved⟩ : ∃ x, machine.run pair (getsReady false ++ getsReady true) =
      some x ∧ (∀ i, (x.member i).transceiver.state = .eReady) ∧ ∀ i, x.Served i :=
    ⟨_, rfl, by decide, fun i ↦ by cases i <;> exact ⟨by decide, by decide⟩⟩
  refine ⟨x, hrun, fun i ↦ ⟨hready i, serves_of_reachedBy
    ⟨pair, _, ⟨_, _, _, by decide, fun _ ↦ ⟨rfl, fun _ ↦ rfl, rfl⟩⟩, hrun, ?_⟩ i, hserved i⟩⟩
  have hfirst {x : Sharing Bool} {e : Bool × Action} (hfirst : (x.member e.1).first = 0)
      (hrefused : (x.member e.1).refused e.2 = false) : x.Unrefused e :=
    ⟨fun _ _ n _ _ hn ↦ absurd hn (by omega), hrefused⟩
  refine Machine.meets_cons (hfirst rfl rfl) rfl (Machine.meets_cons (hfirst rfl rfl) rfl ?_)
  refine Machine.meets_cons (hfirst rfl rfl) rfl (Machine.meets_cons (hfirst rfl rfl) rfl ?_)
  refine Machine.meets_cons (hfirst rfl rfl) rfl (Machine.meets_cons (hfirst rfl rfl) rfl ?_)
  refine Machine.meets_cons (hfirst rfl rfl) rfl (Machine.meets_cons (hfirst rfl rfl) rfl ?_)
  refine Machine.meets_cons (hfirst rfl rfl) rfl (Machine.meets_cons (hfirst rfl rfl) rfl ?_)
  refine Machine.meets_cons (hfirst rfl rfl) rfl (Machine.meets_cons (hfirst rfl rfl) rfl ?_)
  refine Machine.meets_cons (hfirst rfl rfl) rfl (Machine.meets_cons (hfirst rfl rfl) rfl ?_)
  refine Machine.meets_cons (hfirst rfl rfl) rfl (Machine.meets_cons (hfirst rfl rfl) rfl ?_)
  refine Machine.meets_cons (hfirst rfl rfl) rfl (Machine.meets_cons (hfirst rfl rfl) rfl ?_)
  exact Machine.meets_cons (hfirst rfl rfl) rfl (Machine.meets_cons (hfirst rfl rfl) rfl trivial)

/-- One of two listeners that are ready is stopped. The other is still ready, and has lost its
binding. -/
theorem not_served_unbinds :
    ∃ x, machine.run pair (getsReady false ++ getsReady true ++ unbinds true) = some x ∧
      (x.member false).transceiver.state = .eReady ∧ (x.member false).transceiver.crashed = false ∧
      ¬ x.Served false := by
  obtain ⟨x, hrun, hready, hcrashed, hlost⟩ : ∃ x,
      machine.run pair (getsReady false ++ getsReady true ++ unbinds true) = some x ∧
      (x.member false).transceiver.state = .eReady ∧ (x.member false).transceiver.crashed = false ∧
      (x.broker.binding (x.member false).transceiver.queue
        ((x.member false).transceiver.exchange, (x.member false).transceiver.routeIn)).isSome =
        false :=
    ⟨_, rfl, rfl, rfl, by decide⟩
  exact ⟨x, hrun, hready, hcrashed, fun h ↦ absurd (hlost.symm.trans h.2) Bool.false_ne_true⟩

end Sharing

end Transceiver

end AmqpAsio
