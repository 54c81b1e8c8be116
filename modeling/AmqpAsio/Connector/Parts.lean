import AmqpAsio.ConnectionHandler.Termination
import AmqpAsio.Connector.Attempts
import AmqpAsio.Transceiver.Settlement

/-!
# What holds of the parts of a program

The handlers of a program are called from many places, and its transceivers by the connector, by the
application and by AMQP-CPP. What the methods of a handler keep holds of every handler of a program
(`forall_handlers_of_reachable`), and what the steps of a transceiver keep holds of every
transceiver. So the handlers have outstanding what their flags say, and the transceivers what their
states say.
-/

set_option autoImplicit false
set_option relaxedAutoImplicit false

namespace AmqpAsio

namespace Connector

variable {c c' : Connector} {P : ConnectionHandler → Prop}

/-! ### What holds of every handler -/

/-- What holds of a handler that is started, and is kept by all that is called of it. -/
structure KeptByMethods (P : ConnectionHandler → Prop) : Prop where
  start : P (ConnectionHandler.new.start true).1
  method : ∀ h e r, P h → h.method e = some r → P r.1
  onParsed : ∀ h parsed expected r, P h → h.onParsed parsed expected = some r → P r.1
  endShutdown : ∀ h, P h → h.waiting = false → P h.endShutdown.1
  endShutdownCb : ∀ h, P h → P h.endShutdownCb

theorem forall_setHandler {session : ℕ} {v : ConnectionHandler} (h : ∀ u ∈ c.handlers, P u)
    (hv : session < c.handlers.length → P v) : ∀ u ∈ (c.setHandler session v).handlers, P u := by
  by_cases hlt : session < c.handlers.length
  · exact forall_mem_setHandler h (hv hlt)
  · rw [setHandler_of_le (Nat.not_lt.mp hlt)]
    exact h

/-- A shutdown ends. -/
theorem KeptByMethods.finish {session : ℕ} (hkept : KeptByMethods P) (h : ∀ v ∈ c.handlers, P v)
    (hwaits : (c.handler session).waiting = false) : ∀ v ∈ (c.finish session).handlers, P v := by
  unfold Connector.finish
  rw [(plain_onShutdown _ session).handlers]
  exact forall_setHandler h fun hlt ↦ hkept.endShutdown _ (h _ (handler_mem hlt)) hwaits

/-- The connection is established, and its first data sent. -/
theorem KeptByMethods.onConnected (hkept : KeptByMethods P) (h : ∀ v ∈ c.handlers, P v) :
    ∀ v ∈ c.onConnected.handlers, P v := by
  unfold Connector.onConnected
  rw [handlers_callStartedCb]
  refine forall_setHandler h fun hlt ↦ ?_
  exact hkept.method c.connectionHandler (.onData protocolHeader) _ (h _ (handler_mem hlt)) rfl

/-- A method of a handler has been called. -/
theorem KeptByMethods.handle {session : ℕ} {r : ConnectionHandler × ConnectionHandler.Continuation}
    (hkept : KeptByMethods P) (h : ∀ v ∈ c.handlers, P v)
    (hr : session < c.handlers.length → P r.1) : ∀ v ∈ (c.handle session r).handlers, P v := by
  have hset := forall_setHandler h hr
  obtain ⟨u, next⟩ := r
  simp only [Connector.handle]
  cases next with
  | done | parse => exact hset
  | connectedCb => exact hkept.onConnected hset
  | shutdownLoop =>
    simp only
    split
    · exact hset
    · next hwaits =>
      by_cases hlt : session < c.handlers.length
      · refine hkept.finish hset ?_
        rw [handler_setHandler c session u hlt]
        simpa using hwaits
      · rw [setHandler_of_le (Nat.not_lt.mp hlt)]
        refine hkept.finish h ?_
        rw [handler_of_le (Nat.not_lt.mp hlt)]
        rfl
  | shutdownCb message =>
    simp only
    rw [(plain_onShutdown _ session).handlers]
    exact hset

theorem KeptByMethods.stopped {session : ℕ} {v : ConnectionHandler} (hkept : KeptByMethods P)
    (h : ∀ v ∈ c.handlers, P v) (hv : P v) : ∀ u ∈ (c.handle session v.stop).handlers, P u := by
  refine hkept.handle h fun _ ↦ ?_
  exact hkept.method v .stop v.stop hv rfl

theorem KeptByMethods.asyncStart (hkept : KeptByMethods P) (h : ∀ v ∈ c.handlers, P v)
    (callback : Option StartedCallback) : ∀ v ∈ (c.asyncStart callback).handlers, P v := by
  have hnext : ∀ v ∈ c.handlers ++ [(ConnectionHandler.new.start true).1], P v := by
    intro v hv
    rw [List.mem_append, List.mem_singleton] at hv
    rcases hv with hv | rfl
    exacts [h v hv, hkept.start]
  unfold Connector.asyncStart
  split
  · exact h
  · cases hlast : c.handlers.getLast? with
    | none => exact hnext
    | some old =>
      refine hkept.stopped ?_ (h old (List.mem_of_getLast? hlast))
      exact hnext

theorem KeptByMethods.stopHandler (hkept : KeptByMethods P) (h : ∀ v ∈ c.handlers, P v)
    (issued : ℕ) : ∀ v ∈ (c.stopHandler issued).handlers, P v := by
  unfold Connector.stopHandler
  split
  · split
    · rw [(plain_disconnected_exit _ _ _).handlers]
      exact h
    · exact h
  · next hstopped =>
    have hlt : c.session < c.handlers.length := by
      refine session_lt_of_state ?_
      simpa [ConnectionHandler.stopped] using hstopped
    refine hkept.stopped ?_ (h _ (handler_mem hlt))
    exact h

theorem KeptByMethods.perform {task : Task} (hkept : KeptByMethods P) (h : ∀ v ∈ c.handlers, P v)
    (hwaits : ∀ session, task = .shutdown session → (c.handler session).waiting = false) :
    ∀ v ∈ (task.perform c).handlers, P v := by
  cases task with
  | shutdown session => exact hkept.finish h (hwaits session rfl)
  | stopHandler issued => exact hkept.stopHandler h issued
  | drop session =>
    rw [Task.perform, (plain_disconnected_exit _ _ _).handlers]
    exact h
  | restart code =>
    rw [Task.perform, (calls_restart _ _).plain.handlers]
    exact h
  | stop | backup | autoStart | autoStop => exact h

theorem KeptByMethods.occur {e : Event} (hkept : KeptByMethods P) (h : ∀ v ∈ c.handlers, P v)
    (hoccur : c.occur e = some c') : ∀ v ∈ c'.handlers, P v := by
  cases e with
  | asyncStart callback => exact Option.some.inj hoccur ▸ hkept.asyncStart h _
  | start =>
    rw [← Option.some.inj hoccur]
    unfold Connector.start
    split
    · exact h
    · refine hkept.asyncStart ?_ none
      exact h
  | autoStart callback =>
    rw [← Option.some.inj hoccur]
    unfold Connector.autoStart
    split
    · exact h
    · refine hkept.asyncStart ?_ _
      exact h
  | stop =>
    rw [← Option.some.inj hoccur, (plain_stop c).handlers]
    exact h
  | run =>
    rw [← Option.some.inj hoccur, (quiet_run c).handlers]
    exact h
  | autoStop =>
    rw [← Option.some.inj hoccur]
    unfold Connector.autoStop
    simp only
    split
    · exact h
    · split
      · rw [(plain_stop _).handlers]
        exact h
      · exact h
  | handler session e =>
    obtain ⟨⟨hlt, -⟩, hoccur⟩ := Option.ite_none_right_eq_some.mp hoccur
    obtain ⟨r, hmethod, rfl⟩ := Option.map_eq_some_iff.mp hoccur
    exact hkept.handle h fun hlt ↦ hkept.method _ e r (h _ (handler_mem hlt)) hmethod
  | timerHandler =>
    obtain ⟨-, hoccur⟩ := Option.ite_none_left_eq_some.mp hoccur
    rw [← Option.some.inj hoccur]
    refine hkept.asyncStart ?_ _
    exact h
  | posted k =>
    obtain ⟨issued, -, rfl⟩ := Option.map_eq_some_iff.mp hoccur
    exact h
  | timerExpires =>
    obtain ⟨-, hoccur⟩ := Option.ite_none_right_eq_some.mp hoccur
    exact Option.some.inj hoccur ▸ h
  | remove | onExit => exact Option.some.inj hoccur ▸ h

end Connector

namespace Program

open Connector

section

variable {τ ε : Type} [TransceiverImpl τ ε] {p p' : Program τ} {P : ConnectionHandler → Prop}

theorem forall_handlers_step {e : Event ε} (hkept : KeptByMethods P)
    (h : ∀ v ∈ p.connector.handlers, P v) (hstep : p.step e = some p') :
    ∀ v ∈ p'.connector.handlers, P v := by
  have hmoves := moves_of_step hstep
  generalize p'.connector = c' at hmoves
  cases hmoves with
  | quiet he hquiet => exact hquiet.handlers ▸ h
  | occur hquiet hoccur => exact hkept.occur (hquiet.handlers ▸ h) hoccur
  | @parsed parsed expected session c₁ r hquiet hparsed =>
    have h₁ : ∀ v ∈ c₁.handlers, P v := hquiet.handlers ▸ h
    exact hkept.handle h₁ fun hlt ↦ hkept.onParsed _ _ _ r (h₁ _ (handler_mem hlt)) hparsed
  | @shutdownCb session c₁ hquiet =>
    have h₁ : ∀ v ∈ c₁.handlers, P v := hquiet.handlers ▸ h
    exact forall_setHandler h₁ fun hlt ↦ hkept.endShutdownCb _ (h₁ _ (handler_mem hlt))
  | perform hdue hwaits htasks => exact hkept.perform h hwaits

theorem forall_handlers_of_reachable (hkept : KeptByMethods P) (h : (machine τ).Reachable p) :
    ∀ v ∈ p.connector.handlers, P v := by
  refine h.invariant (I := fun q ↦ ∀ v ∈ q.connector.handlers, P v) (fun q hq ↦ ?_)
    fun q e q' hq hstep ↦ forall_handlers_step hkept hq hstep
  obtain rfl : q = initial τ := hq
  simp [initial, Connector.new]

/-- The handlers of a program have outstanding what their flags say. -/
theorem steady_of_reachable (h : (machine τ).Reachable p) :
    ∀ v ∈ p.connector.handlers, v.Steady := by
  refine forall_handlers_of_reachable ?_ h
  have hnew : ConnectionHandler.new.Steady := by
    constructor <;> simp [ConnectionHandler.new]
  exact {
    start := hnew.start true
    method := fun _ _ _ hv hmethod ↦ hv.method hmethod
    onParsed := fun _ _ _ _ hv hmethod ↦ hv.onParsed hmethod
    endShutdown := fun _ hv hwaits ↦ hv.endShutdown hwaits
    endShutdownCb := fun _ hv ↦ ⟨hv.connection, hv.read, hv.write, hv.writes⟩ }

end

variable {p p' : Program Transceiver} {e : Event Transceiver.Event}

/-! ### What holds of every transceiver -/

/-- AMQP-CPP calls only lambdas of the current channel of a transceiver, and a `cancel` is confirmed
with the tag that was cancelled. -/
def Faithful (p : Program Transceiver) (e : Event Transceiver.Event) : Prop :=
  ∀ i event t, e = .call i event → p.pool[i]? = some t → Transceiver.Faithful t event

theorem faithful_of_not_callback {t : Transceiver} {event : Transceiver.Event}
    (hcallback : ∀ n cb, event ≠ .callback n cb) : Transceiver.Faithful t event :=
  ⟨fun n cb h ↦ absurd h (hcallback n cb), fun n _ _ h ↦ absurd h (hcallback n _)⟩

/-- The connector calls a method of a transceiver. -/
theorem answerable_operate {i : ℕ} {f : Transceiver → Transceiver} (event : Transceiver.Event)
    (h : ∀ t ∈ p.pool, t.Answerable) (hcallback : ∀ n cb, event ≠ .callback n cb)
    (hmethod : ∀ t : Transceiver, t.crashed = false → t.step event = some (f t)) :
    ∀ t ∈ (p.operate i f).pool, t.Answerable := by
  unfold operate
  split
  · exact h
  · next t hget =>
    have ht := h t (List.mem_of_getElem? hget)
    intro u hu
    rcases List.mem_or_eq_of_mem_set hu with hu | rfl
    · exact h u hu
    · exact ht.step (faithful_of_not_callback hcallback) (hmethod t ht.attended.crashed)

theorem answerable_start {i : ℕ} (h : ∀ t ∈ p.pool, t.Answerable)
    (connection : Option ConnectionId) :
    ∀ t ∈ (p.operate i (TransceiverImpl.start · connection)).pool, t.Answerable :=
  answerable_operate (.start connection) h (by simp) fun t ht ↦ if_neg (by simp [ht])

theorem answerable_stop {i : ℕ} (h : ∀ t ∈ p.pool, t.Answerable) :
    ∀ t ∈ (p.operate i TransceiverImpl.stop).pool, t.Answerable :=
  answerable_operate .stop h (by simp) fun t ht ↦ if_neg (by simp [ht])

theorem answerable_body (h : ∀ t ∈ p.pool, t.Answerable) (loop : Loop) (i : ℕ) :
    ∀ t ∈ (p.body loop i).pool, t.Answerable := by
  cases loop with
  | stop => exact answerable_stop h
  | drop => exact answerable_operate .drop h (by simp) fun t ht ↦ if_neg (by simp [ht])
  | start =>
    simp only [body]
    split
    · exact h
    · exact answerable_start h _
  | stopHandler | ready => exact h

theorem answerable_resume (h : ∀ t ∈ p.pool, t.Answerable) (hresume : p.resume = some p') :
    ∀ t ∈ p'.pool, t.Answerable := by
  unfold resume at hresume
  split at hresume
  · cases hresume
  · simp only at hresume
    split at hresume
    · split at hresume
      · exact Option.some.inj hresume ▸ h
      · obtain ⟨-, hresume⟩ := Option.ite_none_left_eq_some.mp hresume
        rw [← Option.some.inj hresume]
        refine answerable_body ?_ _ _
        exact h
    · obtain ⟨-, hresume⟩ := Option.ite_none_left_eq_some.mp hresume
      exact Option.some.inj hresume ▸ h
    · obtain ⟨-, hresume⟩ := Option.ite_none_left_eq_some.mp hresume
      exact Option.some.inj hresume ▸ h
    · obtain ⟨c', -, rfl⟩ := Option.map_eq_some_iff.mp hresume
      exact h

theorem pool_entered (p : Program Transceiver) : p.entered.pool = p.pool := by
  unfold entered
  split <;> rfl

theorem answerable_step (h : ∀ t ∈ p.pool, t.Answerable) (hfaithful : p.Faithful e)
    (hstep : p.step e = some p') : ∀ t ∈ p'.pool, t.Answerable := by
  have hpool := p.pool_entered
  have h₁ : ∀ t ∈ p.entered.pool, t.Answerable := hpool ▸ h
  cases e with
  | resume => exact answerable_resume h hstep
  | parsed parsed expected =>
    simp only [step] at hstep
    split at hstep
    · obtain ⟨r, -, rfl⟩ := Option.map_eq_some_iff.mp hstep
      exact h
    · cases hstep
  | connector e =>
    obtain ⟨c', -, rfl⟩ := Option.map_eq_some_iff.mp (Option.ite_none_right_eq_some.mp hstep).2
    exact h₁
  | transceiver exchange queue routeIn listener =>
    obtain rfl := Option.some.inj (Option.ite_none_right_eq_some.mp hstep).2
    intro t ht
    rw [transceiver, List.mem_append, List.mem_singleton] at ht
    rcases ht with ht | rfl
    · exact h₁ t ht
    · exact Transceiver.answerable_of_reachedBy
        ⟨_, [], ⟨exchange, queue, routeIn, listener, rfl⟩, rfl, trivial⟩
  | «open» i =>
    obtain ⟨-, hoccur⟩ := Option.ite_none_right_eq_some.mp hstep
    obtain ⟨-, hoccur⟩ := Option.ite_none_right_eq_some.mp hoccur
    rw [← Option.some.inj hoccur]
    unfold Program.open
    split
    · refine answerable_start ?_ _
      exact h₁
    · exact h₁
  | close i =>
    obtain ⟨-, hoccur⟩ := Option.ite_none_right_eq_some.mp hstep
    obtain ⟨-, hoccur⟩ := Option.ite_none_right_eq_some.mp hoccur
    rw [← Option.some.inj hoccur]
    unfold close
    split
    · refine answerable_stop ?_
      exact h₁
    · exact h₁
  | call i event =>
    obtain ⟨-, hoccur⟩ := Option.ite_none_right_eq_some.mp hstep
    obtain ⟨t, hget, hcall⟩ := Option.bind_eq_some_iff.mp hoccur
    obtain ⟨t', hstep', rfl⟩ := Option.map_eq_some_iff.mp hcall
    intro u hu
    rcases List.mem_or_eq_of_mem_set hu with hu | rfl
    · exact h₁ u hu
    · exact (h₁ t (List.mem_of_getElem? hget)).step
        (hfaithful i event t rfl (hpool ▸ hget)) hstep'

theorem answerable_of_reachedBy (h : (machine Transceiver).ReachedBy Faithful p) :
    ∀ t ∈ p.pool, t.Answerable := by
  refine h.invariant (I := fun q ↦ ∀ t ∈ q.pool, t.Answerable) (fun q hq ↦ ?_)
    fun q e q' hq hfaithful hstep ↦ answerable_step hq hfaithful hstep
  obtain rfl : q = initial Transceiver := hq
  simp [initial]

theorem faithful_of_not_call (he : ∀ i event, e ≠ .call i event) : p.Faithful e :=
  fun i event _ h ↦ absurd h (he i event)

/-- A call of the only transceiver. -/
theorem faithful_call {t : Transceiver} {event : Transceiver.Event} (hget : p.pool = [t])
    (h : Transceiver.Faithful t event) : p.Faithful (.call 0 event) := by
  intro i event' t' hsame ht'
  cases hsame
  obtain rfl : t = t' := by simpa [hget] using ht'
  exact h

/-- The broker is faithful when a sender is opened. -/
theorem meets_opening : (machine Transceiver).Meets Faithful (initial Transceiver) opening := by
  rw [← List.take_append_drop 7 opening]
  refine Machine.meets_append ?_ rfl ?_
  · refine Machine.meets_of_forall_mem fun e he p ↦ faithful_of_not_call fun i event h ↦ ?_
    subst h
    simp [opening, connecting] at he
  · refine Machine.meets_cons (faithful_call rfl ?_) rfl ?_
    · exact Transceiver.faithful_of_prompt (by decide) (by simp)
    refine Machine.meets_cons (faithful_call rfl ?_) rfl ?_
    · exact Transceiver.faithful_of_prompt (by decide) (by simp)
    exact Machine.meets_cons (faithful_of_not_call (by simp)) rfl trivial

end Program

end AmqpAsio
