import Mathlib.Logic.Relation
import AmqpAsio.Connector.Program

/-!
# What the methods of a connector change

Said once for every method. A call of the exit callback changes `m_exitCb`, what `AutoReconnect`
remembers of the cycle, the suspended calls and the record, and nothing else (`Calls`). The methods
that a handler calls, and `stop()`, are made of a few changes (`Change`): a handler takes a step, a
call is suspended, the connection is given up, and the exit callback is called. So a relation that
holds of these, and can be composed, holds of the methods (`Made.rule`). What the application does
with the transceivers, and what happens to these, only suspends calls (`Program.occur_rule`).
-/

set_option autoImplicit false
set_option relaxedAutoImplicit false

namespace AmqpAsio

namespace Connector

variable {c c' : Connector}

/-! ### The exit callback -/

/-- What may be suspended when the exit callback is called, while `AutoReconnect` has saved another
one. -/
def Frame.OfCallback (backup : Option ExitCallback) : Frame → Prop
  | .client | .backup => True
  | .restart _ => backup = some .restart
  | _ => False

/-- The call of a function of the application as an exit callback is recorded. -/
def Observation.isCalled : Observation → Bool
  | .called _ _ => true
  | _ => false

/-- An exit callback is called: the connector may hold another one, `AutoReconnect` may have set
`m_started`, `m_rerun` and the timer, and calls have been suspended and recorded. Nothing else has
changed. -/
inductive Calls (c : Connector) : Connector → Prop
  | intro {exitCb : Option ExitCallback} {started rerun waiting : Bool} {stack : List Frame}
      {log : List Observation}
      (hstack : ∃ added, stack = added ++ c.stack ∧
        ∀ f ∈ added, f.OfCallback c.auto.backupExitCallback)
      (hlog : ∃ new, log = c.log ++ new ∧ ∀ o ∈ new, o.isCalled = true) :
      Calls c { c with
        exitCb := exitCb
        auto := { c.auto with started := started, rerun := rerun, waiting := waiting }
        stack := stack
        log := log }

theorem calls_restore (c : Connector) (code : ExitCode) : Calls c (c.restore code) := by
  simp only [restore]
  split
  · exact .intro ⟨[], rfl, by simp⟩ ⟨[], by simp, by simp⟩
  · next f _ =>
    exact .intro ⟨[.client, .backup], rfl, by simp [Frame.OfCallback]⟩
      ⟨[.called f code], rfl, by simp [Observation.isCalled]⟩
  · next hbackup =>
    exact .intro ⟨[.restart code, .backup], rfl, by simp [Frame.OfCallback, hbackup]⟩
      ⟨[], by simp [push], by simp⟩

theorem calls_restart (c : Connector) (code : ExitCode) : Calls c (c.restart code) := by
  unfold restart
  split
  · exact calls_restore c code
  · cases code with
    | eNormal =>
      have hcalls := calls_restore { c with auto := { c.auto with started := false } } .eNormal
      simp only
      generalize restore _ _ = c' at hcalls ⊢
      cases hcalls with
      | intro hstack hlog => exact .intro hstack hlog
    | eBrokerConnectError | eAmqpError => exact .intro ⟨[], rfl, by simp⟩ ⟨[], by simp, by simp⟩

/-- Without an exit callback nothing happens. -/
theorem exit_cases (c : Connector) (session : ℕ) (code : ExitCode) :
    c.exitCb = none ∧ c.exit session code = c ∨
      c.exitCb ≠ none ∧ Calls (c.record (.exit session code)) (c.exit session code) := by
  unfold exit
  split
  · next hnone => exact Or.inl ⟨hnone, rfl⟩
  · next f hset =>
    exact Or.inr ⟨by simp [hset], .intro ⟨[.client], rfl, by simp [Frame.OfCallback]⟩
      ⟨[.called f code], rfl, by simp [Observation.isCalled]⟩⟩
  · next hset => exact Or.inr ⟨by simp [hset], calls_restart _ code⟩

/-! ### Stopping -/

theorem stop_cases (c : Connector) : c.connectionHandlerReady = false ∧ c.stop = c ∨
    c.connectionHandlerReady = true ∧
      c.stop = c.push (.forEach (.stop c.session) c.transceivers) := by
  unfold stop
  cases c.connectionHandlerReady <;> simp

/-- A session that has been stopped, or has not connected, is reported at once. Else the
transceivers are dropped or stopped. -/
theorem onShutdown_cases (c : Connector) (session : ℕ) :
    (∃ code, (c.exiting = true ∨ c.connectionHandlerReady = false) ∧
      c.onShutdown session = c.disconnected.exit session code) ∨
    ∃ loop, (loop = .drop session ∨ loop = .stop c.session) ∧ c.connectionHandlerReady = true ∧
      c.onShutdown session = c.push (.forEach loop c.transceivers) := by
  unfold onShutdown
  split
  · next hexiting => exact Or.inl ⟨_, Or.inl hexiting, rfl⟩
  · cases hready : c.connectionHandlerReady with
    | false => exact Or.inl ⟨.eBrokerConnectError, Or.inr rfl, rfl⟩
    | true =>
      simp only [Bool.not_true, Bool.false_eq_true, ↓reduceIte]
      split
      · exact Or.inr ⟨_, Or.inl rfl, trivial, rfl⟩
      · refine Or.inr ⟨_, Or.inr rfl, trivial, ?_⟩
        unfold stop
        rw [hready, if_neg (by simp)]

/-! ### What the methods are made of -/

/-- The call is of a method of a handler. -/
def Frame.isHandlers : Frame → Bool
  | .parse _ | .shutdownLoop _ | .shutdownCb _ => true
  | _ => false

/-- What a method called by a handler does. The connection is given up once the connector is
exiting, or if there has been none. -/
inductive Change (c : Connector) : Connector → Prop
  | handler (session : ℕ) (v : ConnectionHandler) : Change c (c.setHandler session v)
  | push {f : Frame} (hf : f.isHandlers = true) : Change c (c.push f)
  | loop {loop : Loop} (hloop : (∃ session, loop = .drop session) ∨ loop = .stop c.session) :
      Change c (c.push (.forEach loop c.transceivers))
  | disconnected (hdown : c.exiting = true ∨ c.connectionHandlerReady = false) :
      Change c c.disconnected
  | exit (session : ℕ) (code : ExitCode) : Change c (c.exit session code)

/-- The connector has come about by such changes. -/
def Made : Connector → Connector → Prop := Relation.ReflTransGen Change

/-- What holds of every change, and can be composed, holds of what is made of changes. -/
theorem Made.rule {R : Connector → Connector → Prop} (h : Made c c') (hrefl : ∀ c, R c c)
    (htrans : ∀ {c c₁ c'}, R c c₁ → R c₁ c' → R c c') (hchange : ∀ {c c'}, Change c c' → R c c') :
    R c c' := by
  induction h with
  | refl => exact hrefl c
  | tail _ hlast ih => exact htrans ih (hchange hlast)

theorem Change.made (h : Change c c') : Made c c' := Relation.ReflTransGen.single h

theorem Made.trans {c₁ : Connector} (hfirst : Made c c₁) (hsecond : Made c₁ c') : Made c c' :=
  Relation.ReflTransGen.trans hfirst hsecond

theorem made_stop (c : Connector) : Made c c.stop := by
  rcases stop_cases c with ⟨-, heq⟩ | ⟨-, heq⟩
  · rw [heq]
    exact Relation.ReflTransGen.refl
  · exact heq ▸ (Change.loop (Or.inr rfl)).made

theorem made_onShutdown (c : Connector) (session : ℕ) : Made c (c.onShutdown session) := by
  rcases onShutdown_cases c session with ⟨code, hdown, heq⟩ | ⟨loop, hloop, -, heq⟩
  · exact heq ▸ (Change.disconnected hdown).made.trans (Change.exit session code).made
  · exact heq ▸ (Change.loop (hloop.imp_left fun h ↦ ⟨session, h⟩)).made

theorem made_finish (c : Connector) (session : ℕ) : Made c (c.finish session) := by
  have hset := (Change.handler (c := c) session (c.handler session).endShutdown.1).made
  exact hset.trans ((Change.push rfl).made.trans (made_onShutdown _ session))

/-- A method of a handler that does not go on to `m_connectedCb`. -/
theorem made_handle (c : Connector) (session : ℕ)
    {r : ConnectionHandler × ConnectionHandler.Continuation} (hnext : r.2 ≠ .connectedCb) :
    Made c (c.handle session r) := by
  have hset := (Change.handler (c := c) session r.1).made
  simp only [handle]
  split
  · exact hset
  · next hconnected => exact absurd hconnected hnext
  · exact hset.trans (Change.push rfl).made
  · split
    · exact hset.trans (Change.push rfl).made
    · exact hset.trans (made_finish _ session)
  · exact hset.trans ((Change.push rfl).made.trans (made_onShutdown _ session))

/-! ### The transceivers -/

/-- The call is made by an operation on a transceiver, or by the transceiver. -/
inductive Frame.OfTransceiver : Frame → Prop
  | client : OfTransceiver .client
  | openLoop (transceiver : ℕ) : OfTransceiver (.openLoop transceiver)
  | closeLoop (transceiver : ℕ) : OfTransceiver (.closeLoop transceiver)

end Connector

namespace Program

open Connector

variable {τ ε : Type} [TransceiverImpl τ ε] {p' : Program τ} {P : Connector → Prop}

/-- When a transceiver has become another one, the application may be running, and nothing else of
the connector has changed. -/
theorem connector_update (p : Program τ) (i : ℕ) (t t' : τ) :
    (p.update i t t').connector = p.connector ∨
      (p.update i t t').connector = p.connector.push .client := by
  unfold update
  split
  · exact Or.inl rfl
  · exact Or.inr rfl

theorem connector_operate (p : Program τ) (i : ℕ) (f : τ → τ) :
    (p.operate i f).connector = p.connector ∨
      (p.operate i f).connector = p.connector.push .client := by
  unfold operate
  split
  · exact Or.inl rfl
  · exact p.connector_update i _ _

theorem connector_body (p : Program τ) (loop : Loop) (i : ℕ) :
    (p.body loop i).connector = p.connector ∨
      (p.body loop i).connector = p.connector.push .client := by
  cases loop with
  | stop | drop => exact p.connector_operate i _
  | start =>
    simp only [body]
    split
    · exact Or.inl rfl
    · exact p.connector_operate i _
  | stopHandler | ready => exact Or.inl rfl

/-- What is so before the body of a loop, and when the application is then called, is so after. -/
theorem body_rule (p : Program τ) (loop : Loop) (i : ℕ) (h : P p.connector)
    (hcalls : P (p.connector.push .client)) : P (p.body loop i).connector := by
  rcases p.connector_body loop i with heq | heq <;> rwa [heq]

theorem operate_rule (p : Program τ) (i : ℕ) (f : τ → τ) (h : P p.connector)
    (hcalls : P (p.connector.push .client)) : P (p.operate i f).connector := by
  rcases p.connector_operate i f with heq | heq <;> rwa [heq]

/-- What is kept when a call is suspended is kept when a transceiver is opened, closed or called,
and by what happens to one. -/
theorem occur_rule (p : Program τ) {e : Event ε} (h : P p.connector)
    (hmakes : ∀ exchange queue routeIn listener, e = .transceiver exchange queue routeIn listener →
      P (p.transceiver exchange queue routeIn listener).connector)
    (hpush : ∀ {c f}, f.OfTransceiver → P c → P (c.push f)) (he : ∀ e', e ≠ .connector e')
    (hoccur : p.occur e = some p') : P p'.connector := by
  cases e with
  | connector e => exact absurd rfl (he e)
  | transceiver exchange queue routeIn listener => exact Option.some.inj hoccur ▸ hmakes _ _ _ _ rfl
  | «open» i =>
    obtain ⟨-, hoccur⟩ := Option.ite_none_right_eq_some.mp hoccur
    obtain rfl := Option.some.inj hoccur
    have hcalled := hpush (.openLoop i) h
    unfold Program.open
    split
    · exact operate_rule { p with connector := _ } i _ hcalled (hpush .client hcalled)
    · exact h
  | close i =>
    obtain ⟨-, hoccur⟩ := Option.ite_none_right_eq_some.mp hoccur
    obtain rfl := Option.some.inj hoccur
    have hcalled := hpush (.closeLoop i) h
    unfold close
    split
    · exact operate_rule { p with connector := _ } i _ hcalled (hpush .client hcalled)
    · exact h
  | call i e =>
    obtain ⟨t, -, hcall⟩ := Option.bind_eq_some_iff.mp hoccur
    obtain ⟨t', -, rfl⟩ := Option.map_eq_some_iff.mp hcall
    rcases p.connector_update i t t' with heq | heq <;> rw [heq]
    · exact h
    · exact hpush .client h
  | parsed | resume => cases hoccur

end Program

end AmqpAsio
