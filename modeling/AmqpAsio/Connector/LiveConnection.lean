import AmqpAsio.Connector.Attempts
import AmqpAsio.Connector.Finality
import AmqpAsio.Transceiver.Runs

/-!
# The connection that the transceivers use

A transceiver that is running keeps a plain pointer to the connection it was started with. So before
the connector resets its connection, no transceiver may be running any more. The handler of a
`stop()` waits for those in the list, and an error of the connection drops those in the list. But a
transceiver that has been removed from the list is not among them, and one that is started while the
loop is under way, or before the shutdown that follows it is over, has not been waited for.
-/

set_option autoImplicit false
set_option relaxedAutoImplicit false

namespace AmqpAsio

namespace Transceiver

variable {t t' : Transceiver} {e : Event}

/-! ### The connection of a transceiver -/

/-- A transceiver that goes on running, no run beginning, keeps its connection. -/
theorem connection_step (hbegins : t.begins e = false) (hstep : t.step e = some t')
    (hrunning : t'.state ≠ .eEnd) : t'.connection = t.connection := by
  cases hmove : t.move e with
  | none =>
    cases still_of_no_move hstep hmove with
    | idle | install | publish => rfl
    | callback n cb _ haside => cases haside <;> rfl
  | some next =>
    obtain ⟨u, s⟩ := next
    obtain rfl := step_of_move hstep hmove
    rw [connection_goto (by simpa using hrunning)]
    cases e with
    | start connection =>
      obtain ⟨hend, -⟩ := Option.ite_none_right_eq_some.mp hmove
      simp [begins, hend] at hbegins
    | install | send => cases hmove
    | stop =>
      obtain ⟨-, hmove⟩ := Option.ite_none_right_eq_some.mp hmove
      exact (Prod.mk.inj (Option.some.inj hmove)).1 ▸ rfl
    | drop =>
      obtain ⟨-, hmove⟩ := Option.ite_none_left_eq_some.mp hmove
      exact (Prod.mk.inj (Option.some.inj hmove)).1 ▸ rfl
    | callback n cb => exact (reaction_prepared hmove).connection

/-- A run that has begun uses the connection it was given. -/
theorem connection_start {connection : Option ConnectionId} (hend : t.state = .eEnd)
    (hrunning : (t.start connection).state ≠ .eEnd) :
    (t.start connection).connection = connection ∧ connection.isSome := by
  simp only [start, if_pos hend] at hrunning ⊢
  refine ⟨connection_goto (by simpa using hrunning), ?_⟩
  by_contra hnone
  rw [state_goto] at hrunning
  simp [landing, path, Option.not_isSome_iff_eq_none.mp hnone] at hrunning

end Transceiver

namespace Connector

variable {c c₁ c' : Connector}

/-! ### What the methods do to the connection -/

/-- What is left of a loop that waits for the transceivers to end, or drops them. -/
def Frame.sweep : Frame → Option (List ℕ)
  | .forEach (.stopHandler _) rest | .forEach (.drop _) rest => some rest
  | _ => none

/-- What is left of the loops that are under way to a reset of the connection. -/
def sweeps (c : Connector) : List (List ℕ) := c.stack.filterMap Frame.sweep

/-- Nothing has changed of the list, of these loops and of the connection. -/
structure Rests (c c' : Connector) : Prop where
  transceivers : c'.transceivers = c.transceivers
  sweeps : c'.sweeps = c.sweeps
  exiting : c'.exiting = c.exiting
  ready : c'.connectionHandlerReady = c.connectionHandlerReady
  connection : c'.amqpConnection = c.amqpConnection

/-- A method resets the connection only if `m_exiting` is set, makes no new connection, and begins
such loops with all the transceivers in the list. -/
structure Passes (c c' : Connector) : Prop where
  transceivers : c'.transceivers = c.transceivers
  sweeps : ∀ ids ∈ c'.sweeps, ids ∈ c.sweeps ∨ ids = c.transceivers
  exiting : c'.exiting = true → c.exiting = true
  resets : c.connectionHandlerReady = true → c'.connectionHandlerReady = false → c.exiting = true
  ready : c'.connectionHandlerReady = true →
    c.connectionHandlerReady = true ∧ c'.amqpConnection = c.amqpConnection
  live : c.connectionHandlerReady = c.amqpConnection.isSome →
    c'.connectionHandlerReady = c'.amqpConnection.isSome

theorem Rests.refl (c : Connector) : Rests c c := ⟨rfl, rfl, rfl, rfl, rfl⟩

theorem Rests.trans (hfirst : Rests c c₁) (hsecond : Rests c₁ c') : Rests c c' where
  transceivers := hsecond.transceivers.trans hfirst.transceivers
  sweeps := hsecond.sweeps.trans hfirst.sweeps
  exiting := hsecond.exiting.trans hfirst.exiting
  ready := hsecond.ready.trans hfirst.ready
  connection := hsecond.connection.trans hfirst.connection

theorem Rests.passes (h : Rests c c') : Passes c c' where
  transceivers := h.transceivers
  sweeps _ hids := Or.inl (h.sweeps ▸ hids)
  exiting hexiting := h.exiting ▸ hexiting
  resets hup hdown := absurd (hup.symm.trans (h.ready ▸ hdown)) (by simp)
  ready hup := ⟨h.ready ▸ hup, h.connection⟩
  live hlive := by rw [h.ready, h.connection, hlive]

theorem Passes.refl (c : Connector) : Passes c c := (Rests.refl c).passes

theorem Passes.trans (hfirst : Passes c c₁) (hsecond : Passes c₁ c') : Passes c c' where
  transceivers := hsecond.transceivers.trans hfirst.transceivers
  sweeps ids h := by
    rcases hsecond.sweeps ids h with h | h
    · exact hfirst.sweeps ids h
    · exact Or.inr (h.trans hfirst.transceivers)
  exiting h := hfirst.exiting (hsecond.exiting h)
  resets hup hdown := by
    cases hmid : c₁.connectionHandlerReady with
    | false => exact hfirst.resets hup hmid
    | true => exact hfirst.exiting (hsecond.resets hmid hdown)
  ready h := by
    obtain ⟨hmid, hconnection⟩ := hsecond.ready h
    exact ⟨(hfirst.ready hmid).1, hconnection.trans (hfirst.ready hmid).2⟩
  live h := hsecond.live (hfirst.live h)

theorem sweeps_push (c : Connector) (f : Frame) : (c.push f).sweeps = f.sweep.toList ++
    c.sweeps := by
  unfold sweeps push
  cases h : f.sweep <;> simp [h]

theorem rests_push (c : Connector) {f : Frame} (hf : f.sweep = none) : Rests c (c.push f) :=
  ⟨rfl, by simp [sweeps_push, hf], rfl, rfl, rfl⟩

theorem rests_pop {f : Frame} {rest : List Frame} (hstack : c.stack = f :: rest)
    (hf : f.sweep = none) : Rests c { c with stack := rest } :=
  ⟨rfl, by simp [Connector.sweeps, hstack, hf], rfl, rfl, rfl⟩

theorem passes_push (c : Connector) {f : Frame} (hf : f.sweep = none) : Passes c (c.push f) :=
  (rests_push c hf).passes

theorem Calls.passes (h : Calls c c') : Passes c c' := by
  cases h with
  | intro hstack hlog =>
    obtain ⟨added, rfl, hadded⟩ := hstack
    have hnone : added.filterMap Frame.sweep = [] := by
      refine List.filterMap_eq_nil_iff.mpr fun f hf ↦ ?_
      have hkind := hadded f hf
      cases f with
      | forEach => cases hkind
      | _ => rfl
    exact Rests.passes ⟨rfl, by simp [sweeps, List.filterMap_append, hnone], rfl, rfl, rfl⟩

theorem passes_exit (c : Connector) (session : ℕ) (code : ExitCode) :
    Passes c (c.exit session code) := by
  have hrecord : Passes c (c.record (.exit session code)) := Rests.passes ⟨rfl, rfl, rfl, rfl, rfl⟩
  rcases exit_cases c session code with ⟨-, heq⟩ | ⟨-, hcalls⟩
  · rw [heq]
    exact Passes.refl c
  · exact hrecord.trans hcalls.passes

theorem Change.passes (h : Change c c') : Passes c c' := by
  cases h with
  | handler session v => exact Rests.passes ⟨rfl, rfl, rfl, rfl, rfl⟩
  | @push f hf =>
    refine passes_push c ?_
    cases f with
    | forEach => cases hf
    | _ => rfl
  | loop hloop =>
    rcases hloop with ⟨session, rfl⟩ | rfl
    · refine ⟨rfl, fun ids h ↦ ?_, id, fun hup hdown ↦ ?_, fun h ↦ ⟨h, rfl⟩, id⟩
      · rw [sweeps_push] at h
        exact (List.mem_cons.mp h).symm
      · exact absurd (hup.symm.trans hdown) (by simp)
    · exact passes_push c rfl
  | disconnected hdown =>
    exact ⟨rfl, fun _ h ↦ Or.inl h, id, fun hup _ ↦ hdown.resolve_right (by simp [hup]), nofun,
      fun _ ↦ rfl⟩
  | exit session code => exact passes_exit c session code

theorem Made.passes (h : Made c c') : Passes c c' := h.rule Passes.refl Passes.trans Change.passes

theorem passes_run (c : Connector) : Passes c c.run := by
  unfold run
  split
  · exact Passes.refl c
  · have hset : Passes c { c with sentinel := true } := Rests.passes ⟨rfl, rfl, rfl, rfl, rfl⟩
    exact hset.trans (passes_push _ rfl)

theorem passes_setHandler (c : Connector) (session : ℕ) (h : ConnectionHandler) :
    Passes c (c.setHandler session h) := (Change.handler session h).made.passes

theorem passes_asyncStart (c : Connector) (callback : Option StartedCallback) :
    Passes c (c.asyncStart callback) := by
  by_cases hready : c.connectionHandlerReady = true
  · rw [asyncStart_of_ready hready]
    exact Passes.refl c
  · have hdown : c.connectionHandlerReady = false := by simpa using hready
    have hbegun : Passes c (c.begun callback c.handlers) :=
      ⟨rfl, fun _ h ↦ Or.inl h, nofun, fun hup ↦ absurd hup hready, fun hup ↦ absurd hup hready, id⟩
    rcases asyncStart_eq callback hdown with ⟨-, heq⟩ | ⟨-, -, heq⟩
    · exact heq ▸ hbegun
    · exact heq ▸ hbegun.trans (made_handle _ _ (ConnectionHandler.stop_ne_connectedCb _)).passes

theorem passes_endStarted (c : Connector) : Passes c c.endStarted := by
  simp only [endStarted]
  split
  · have hset : Passes c { c with
        auto := { c.auto with startedCallback := false, rerun := false } } :=
      Rests.passes ⟨rfl, rfl, rfl, rfl, rfl⟩
    exact hset.trans (passes_run _)
  · exact Rests.passes ⟨rfl, rfl, rfl, rfl, rfl⟩

theorem passes_callStartedCb (c : Connector) : Passes c c.callStartedCb := by
  unfold callStartedCb
  split
  · exact Passes.refl c
  · exact passes_push c rfl
  · unfold started
    split
    · have hset : Passes c { c with auto := { c.auto with needStop := false } } :=
        Rests.passes ⟨rfl, rfl, rfl, rfl, rfl⟩
      exact hset.trans (made_stop _).passes
    · split
      · exact (passes_push c rfl).trans (passes_push _ rfl)
      · exact passes_endStarted c

/-- The handler posted by a `stop()` resets the connection or sets `m_exiting`. -/
theorem passes_stopHandler (c : Connector) (issued : ℕ) :
    Passes { c with exiting := true } (c.stopHandler issued) := by
  have hset : Passes { c with exiting := true } c :=
    ⟨rfl, fun _ h ↦ Or.inl h, fun _ ↦ rfl, fun _ _ ↦ rfl, fun h ↦ ⟨h, rfl⟩, id⟩
  unfold stopHandler
  split
  · split
    · have hdisconnected : Passes { c with exiting := true }
          (c.record (.acted issued c.session)).disconnected :=
        ⟨rfl, fun _ h ↦ Or.inl h, fun _ ↦ rfl, fun _ _ ↦ rfl, nofun, fun _ ↦ rfl⟩
      exact hdisconnected.trans (passes_exit _ _ _)
    · exact hset
  · have hrecord : Passes { c with exiting := true }
        { c.record (.acted issued c.session) with exiting := true } :=
      Rests.passes ⟨rfl, rfl, rfl, rfl, rfl⟩
    exact hrecord.trans (made_handle _ _ (ConnectionHandler.stop_ne_connectedCb _)).passes

/-- A suspended call other than a loop goes on. -/
theorem passes_goOn {f : Frame} (hgoOn : f.goOn c = some c') : Passes c c' := by
  cases f with
  | client => exact Option.some.inj hgoOn ▸ Passes.refl c
  | shutdownLoop session =>
    obtain ⟨-, hgoOn⟩ := Option.ite_none_left_eq_some.mp hgoOn
    exact Option.some.inj hgoOn ▸ (made_finish c session).passes
  | shutdownCb session => exact Option.some.inj hgoOn ▸ passes_setHandler c session _
  | startLoop ran =>
    obtain ⟨-, hgoOn⟩ := Option.ite_none_right_eq_some.mp hgoOn
    exact Option.some.inj hgoOn ▸ Passes.refl c
  | started => exact Option.some.inj hgoOn ▸ passes_endStarted c
  | restart code => exact Option.some.inj hgoOn ▸ (calls_restart c code).passes
  | backup | autoStart | autoStop =>
    exact Option.some.inj hgoOn ▸ Rests.passes ⟨rfl, rfl, rfl, rfl, rfl⟩
  | parse | forEach | openLoop | closeLoop => cases hgoOn

/-- A loop that drops the transceivers goes on to reset the connection. -/
theorem passes_drop (c : Connector) (session : ℕ) (code : ExitCode) :
    Passes { c with exiting := true } (c.disconnected.exit session code) := by
  have hset : Passes { c with exiting := true } c.disconnected :=
    ⟨rfl, fun _ h ↦ Or.inl h, fun _ ↦ rfl, fun _ _ ↦ rfl, nofun, fun _ ↦ rfl⟩
  exact hset.trans (passes_exit _ session code)

/-- An event that neither establishes a connection nor removes a transceiver. -/
theorem passes_occur {e : Event} (hremove : ∀ i, e ≠ .remove i)
    (hconnects : ∀ session e' r, e = .handler session e' → (c.handler session).method e' = some r →
      r.2 ≠ .connectedCb) (hoccur : c.occur e = some c') : Passes c c' := by
  cases e with
  | remove i => exact absurd rfl (hremove i)
  | run => exact Option.some.inj hoccur ▸ passes_run c
  | asyncStart callback => exact Option.some.inj hoccur ▸ passes_asyncStart c _
  | start =>
    obtain rfl := Option.some.inj hoccur
    unfold start
    split
    · exact Passes.refl c
    · exact (passes_push c rfl).trans (passes_asyncStart _ none)
  | stop => exact Option.some.inj hoccur ▸ (made_stop c).passes
  | onExit f => exact Option.some.inj hoccur ▸ Rests.passes ⟨rfl, rfl, rfl, rfl, rfl⟩
  | autoStart callback =>
    obtain rfl := Option.some.inj hoccur
    simp only [autoStart]
    split
    · exact Passes.refl c
    · refine Passes.trans (Passes.trans (Rests.passes ?_) (passes_push _ rfl))
        (passes_asyncStart _ _)
      exact ⟨rfl, rfl, rfl, rfl, rfl⟩
  | autoStop =>
    obtain rfl := Option.some.inj hoccur
    simp only [autoStop]
    split
    · exact Rests.passes ⟨rfl, rfl, rfl, rfl, rfl⟩
    · split
      · refine Passes.trans ?_ (made_stop _).passes
        refine Passes.trans (Rests.passes ?_) (passes_push _ rfl)
        exact ⟨rfl, rfl, rfl, rfl, rfl⟩
      · exact Rests.passes ⟨rfl, rfl, rfl, rfl, rfl⟩
  | handler session e =>
    obtain ⟨-, hoccur⟩ := Option.ite_none_right_eq_some.mp hoccur
    obtain ⟨r, hmethod, rfl⟩ := Option.map_eq_some_iff.mp hoccur
    exact (made_handle c session (hconnects session e r rfl hmethod)).passes
  | posted k =>
    obtain ⟨issued, -, rfl⟩ := Option.map_eq_some_iff.mp hoccur
    refine ⟨rfl, fun ids h ↦ ?_, id, fun hup hdown ↦ ?_, fun h ↦ ⟨h, rfl⟩, id⟩
    · rw [sweeps_push] at h
      exact (List.mem_cons.mp h).symm
    · exact absurd (hup.symm.trans hdown) (by simp)
  | timerExpires =>
    obtain ⟨-, hoccur⟩ := Option.ite_none_right_eq_some.mp hoccur
    exact Option.some.inj hoccur ▸ Rests.passes ⟨rfl, rfl, rfl, rfl, rfl⟩
  | timerHandler =>
    obtain ⟨-, hoccur⟩ := Option.ite_none_left_eq_some.mp hoccur
    obtain rfl := Option.some.inj hoccur
    refine Passes.trans (Rests.passes ?_) (passes_asyncStart _ _)
    exact ⟨rfl, rfl, rfl, rfl, rfl⟩

end Connector

namespace Program

open Connector

/-! ### The transceivers in a step -/

section

variable {τ ε : Type} [TransceiverImpl τ ε] {p p' : Program τ} {e : Event ε}

theorem rests_body (p : Program τ) (loop : Loop) (i : ℕ) :
    Rests p.connector (p.body loop i).connector :=
  body_rule (P := Rests p.connector) p loop i (Rests.refl _) (rests_push _ rfl)

theorem rests_entered (p : Program τ) : Rests p.connector p.entered.connector := by
  unfold entered
  split
  · next ran rest hstack =>
    exact ⟨rfl, by rw [Connector.sweeps, Connector.sweeps, hstack]; rfl, rfl, rfl, rfl⟩
  · exact Rests.refl p.connector

end

variable {p p' : Program Transceiver} {e : Event Transceiver.Event}

/-- The transceiver is running, and has used no null pointer. -/
def Runs (p : Program Transceiver) (i : ℕ) : Prop :=
  ∃ t, p.pool[i]? = some t ∧ t.crashed = false ∧ t.state ≠ .eEnd

/-- Only the connector, being a friend of the class, may call these methods. -/
def isPrivate : Event Transceiver.Event → Bool
  | .call _ (.start _) | .call _ .stop | .call _ .drop => true
  | _ => false

/-- What a step does to the transceivers: nothing, or it makes one, or one of them takes a step,
which begins a run only where the connector starts it. -/
inductive PoolStep (p : Program Transceiver) (e : Event Transceiver.Event)
    (p' : Program Transceiver) : Prop
  | same (hpool : p'.pool = p.pool)
  | makes {t : Transceiver} (hpool : p'.pool = p.pool ++ [t]) (hwell : t.WellFormed)
      (hend : t.state = .eEnd)
  | operates {i : ℕ} {t t' : Transceiver} {event : Transceiver.Event} (hget : p.pool[i]? = some t)
      (hstep : t.step event = some t') (hpool : p'.pool = p.pool.set i t')
      (hstart : ∀ connection, event = .start connection →
        p.starts e = some i ∧ connection = p.connector.amqpConnection)

/-- The connector calls a method of a transceiver. -/
theorem poolStep_operate {q : Program Transceiver} {i : ℕ} {f : Transceiver → Transceiver}
    (event : Transceiver.Event) (hpool : q.pool = p.pool)
    (huncrashed : ∀ t ∈ p.pool, t.crashed = false)
    (hmethod : ∀ t : Transceiver, t.crashed = false → t.step event = some (f t))
    (hstart : ∀ connection, event = .start connection →
      p.starts e = some i ∧ connection = p.connector.amqpConnection) :
    PoolStep p e (q.operate i f) := by
  unfold operate
  rw [hpool]
  cases hget : p.pool[i]? with
  | none => exact .same hpool
  | some t =>
    have hstep := hmethod t (huncrashed t (List.mem_of_getElem? hget))
    exact .operates hget hstep (congrArg (·.set i (f t)) hpool) hstart

theorem poolStep_resume (huncrashed : ∀ t ∈ p.pool, t.crashed = false)
    (hresume : p.resume = some p') : PoolStep p .resume p' := by
  unfold resume at hresume
  cases hstack : p.connector.stack with
  | nil => simp [hstack] at hresume
  | cons f below =>
    rw [hstack] at hresume
    cases f with
    | forEach loop ids =>
      simp only at hresume
      split at hresume
      · exact .same (Option.some.inj hresume ▸ rfl)
      · next i rest hcons =>
        obtain ⟨-, hresume⟩ := Option.ite_none_left_eq_some.mp hresume
        obtain rfl := Option.some.inj hresume
        cases loop with
        | stop issued =>
          exact poolStep_operate .stop rfl huncrashed (fun t ht ↦ if_neg (by simp [ht])) (by simp)
        | drop session =>
          exact poolStep_operate .drop rfl huncrashed (fun t ht ↦ if_neg (by simp [ht])) (by simp)
        | stopHandler | ready => exact .same rfl
        | start =>
          simp only [body]
          split
          · exact .same rfl
          · next hrunning =>
            have hcons' : p.connector.remaining ids = i :: rest := hcons
            have hrunning' : p.isRunning i = false := Bool.of_not_eq_true hrunning
            have hstarts : p.starts (.resume : Event Transceiver.Event) = some i := by
              simp [starts, hstack, hcons', hrunning']
            refine poolStep_operate (.start p.connector.amqpConnection) rfl huncrashed
              (fun t ht ↦ if_neg (by simp [ht])) fun connection hconnection ↦ ⟨hstarts, ?_⟩
            exact (Transceiver.Event.start.inj hconnection).symm
    | openLoop | closeLoop =>
      obtain ⟨-, hresume⟩ := Option.ite_none_left_eq_some.mp hresume
      exact .same (Option.some.inj hresume ▸ rfl)
    | _ =>
      obtain ⟨c', -, rfl⟩ := Option.map_eq_some_iff.mp hresume
      exact .same rfl

theorem poolStep (huncrashed : ∀ t ∈ p.pool, t.crashed = false) (hprivate : isPrivate e = false)
    (hstep : p.step e = some p') : PoolStep p e p' := by
  obtain ⟨-, htransceivers, hpool, hready⟩ := p.entered_cases
  have hconnection := p.rests_entered.connection
  have hrunning (i : ℕ) : p.entered.isRunning i = p.isRunning i := by
    unfold isRunning
    rw [hpool]
  cases e with
  | resume => exact poolStep_resume huncrashed hstep
  | parsed parsed expected =>
    simp only [step] at hstep
    split at hstep
    · obtain ⟨r, -, rfl⟩ := Option.map_eq_some_iff.mp hstep
      exact .same rfl
    · cases hstep
  | connector e =>
    obtain ⟨c', -, rfl⟩ := Option.map_eq_some_iff.mp (Option.ite_none_right_eq_some.mp hstep).2
    exact .same hpool
  | transceiver exchange queue routeIn listener =>
    obtain rfl := Option.some.inj (Option.ite_none_right_eq_some.mp hstep).2
    exact .makes (congrArg (· ++ [_]) hpool)
      (Transceiver.wellFormed_new exchange queue routeIn listener) rfl
  | «open» i =>
    obtain ⟨-, hoccur⟩ := Option.ite_none_right_eq_some.mp hstep
    obtain ⟨hmem, hoccur⟩ := Option.ite_none_right_eq_some.mp hoccur
    obtain rfl := Option.some.inj hoccur
    unfold Program.open
    split
    · next hopens =>
      rw [hrunning, hready, Bool.and_eq_true, Bool.not_eq_true'] at hopens
      rw [hconnection]
      refine poolStep_operate (.start p.connector.amqpConnection) hpool huncrashed
        (fun t ht ↦ if_neg (by simp [ht])) fun connection hconnection ↦ ⟨?_, ?_⟩
      · exact if_pos ⟨htransceivers ▸ hmem, hopens⟩
      · exact (Transceiver.Event.start.inj hconnection).symm
    · exact .same hpool
  | close i =>
    obtain ⟨-, hoccur⟩ := Option.ite_none_right_eq_some.mp hstep
    obtain ⟨-, hoccur⟩ := Option.ite_none_right_eq_some.mp hoccur
    obtain rfl := Option.some.inj hoccur
    unfold close
    split
    · exact poolStep_operate .stop hpool huncrashed (fun t ht ↦ if_neg (by simp [ht])) (by simp)
    · exact .same hpool
  | call i event =>
    obtain ⟨-, hoccur⟩ := Option.ite_none_right_eq_some.mp hstep
    obtain ⟨t, hget, hcall⟩ := Option.bind_eq_some_iff.mp hoccur
    obtain ⟨t', hstep', rfl⟩ := Option.map_eq_some_iff.mp hcall
    rw [hpool] at hget
    refine .operates hget hstep' (congrArg (·.set i t') hpool) ?_
    rintro connection rfl
    cases hprivate

/-- A transceiver that is running after a step was so before, with the same connection, or it has
been started with the connection of the connector. -/
theorem runs_of_poolStep (h : PoolStep p e p') (hsound : ∀ t ∈ p.pool, t.WellFormed)
    {i : ℕ} {t' : Transceiver} (hget : p'.pool[i]? = some t') (huncrashed : t'.crashed = false)
    (hrunning : t'.state ≠ .eEnd) :
    (∃ t, p.pool[i]? = some t ∧ t.state ≠ .eEnd ∧ t'.connection = t.connection) ∨
      p.starts e = some i ∧ t'.connection = p.connector.amqpConnection ∧
        p.connector.amqpConnection.isSome := by
  cases h with
  | same hpool => exact Or.inl ⟨t', hpool ▸ hget, hrunning, rfl⟩
  | makes hpool hwell hend =>
    rw [hpool, List.getElem?_append] at hget
    split at hget
    · exact Or.inl ⟨t', hget, hrunning, rfl⟩
    · obtain rfl := List.mem_singleton.mp (List.mem_of_getElem? hget)
      exact absurd hend hrunning
  | @operates j t u event hget' hstep hpool hstart =>
    by_cases hij : j = i
    · subst hij
      have hlt := (List.getElem?_eq_some_iff.mp hget').1
      rw [hpool, List.getElem?_set_self hlt] at hget
      obtain rfl := Option.some.inj hget
      cases hbegins : t.begins event with
      | true =>
        cases event with
        | start connection =>
          have hend : t.state = .eEnd := by simpa [Transceiver.begins] using hbegins
          have hcrashed := Transceiver.crashed_eq_false_of_step hstep
          obtain rfl : t.start connection = u := by
            simpa [Transceiver.step, hcrashed] using hstep
          obtain ⟨hconnection, hsome⟩ := Transceiver.connection_start hend hrunning
          obtain ⟨hstarts, rfl⟩ := hstart connection rfl
          exact Or.inr ⟨hstarts, hconnection, hsome⟩
        | _ => cases hbegins
      | false =>
        refine Or.inl ⟨t, hget', fun hend ↦ ?_, Transceiver.connection_step hbegins hstep hrunning⟩
        rcases Transceiver.ended_step (hsound t (List.mem_of_getElem? hget')) hend hbegins hstep
          with hend' | hcrash
        · exact hrunning hend'
        · simp [huncrashed] at hcrash
    · rw [hpool, List.getElem?_set_ne hij] at hget
      exact Or.inl ⟨t', hget, hrunning, rfl⟩

theorem wellFormed_of_poolStep (h : PoolStep p e p') (hsound : ∀ t ∈ p.pool, t.WellFormed) :
    ∀ t ∈ p'.pool, t.WellFormed := by
  cases h with
  | same hpool => exact hpool ▸ hsound
  | makes hpool hwell hend =>
    intro t ht
    rw [hpool, List.mem_append, List.mem_singleton] at ht
    rcases ht with ht | rfl
    exacts [hsound t ht, hwell]
  | operates hget hstep hpool hstart =>
    intro t ht
    rw [hpool] at ht
    rcases List.mem_or_eq_of_mem_set ht with ht | rfl
    · exact hsound t ht
    · exact Transceiver.wellFormed_step (hsound _ (List.mem_of_getElem? hget)) hstep

/-! ### The list and the connection in a step -/

/-- A loop that waits for the transceivers, or drops them, is at its end. -/
def Swept (c : Connector) : Prop := ∃ ids ∈ c.sweeps, ∀ i ∈ c.transceivers, i ∉ ids

/-- What a step does to the list, to these loops and to the connection. A transceiver that such a
loop has passed is not running. -/
structure Leads (p p' : Program Transceiver) : Prop where
  listed : ∀ i ∈ p'.connector.transceivers, i ∈ p.connector.transceivers ∨ ¬ p'.Runs i
  sweeps : ∀ ids' ∈ p'.connector.sweeps, (∀ i ∈ p.connector.transceivers, i ∈ ids') ∨
    ∃ ids ∈ p.connector.sweeps, ∀ i ∈ p.connector.transceivers, p'.Runs i → i ∈ ids → i ∈ ids'
  exiting : p'.connector.exiting = true → p.connector.exiting = true ∨ Swept p.connector
  resets : p.connector.connectionHandlerReady = true → p'.connector.connectionHandlerReady = false →
    p'.pool = p.pool ∧ (p.connector.exiting = true ∨ Swept p.connector)
  ready : p'.connector.connectionHandlerReady = true →
    (p.connector.connectionHandlerReady = true ∧
      p'.connector.amqpConnection = p.connector.amqpConnection) ∨ p.connector.Attempting
  live : p.connector.connectionHandlerReady = p.connector.amqpConnection.isSome →
    p'.connector.connectionHandlerReady = p'.connector.amqpConnection.isSome

theorem leads_of_passes (hpool : p'.pool = p.pool ∨
      p'.connector.connectionHandlerReady = p.connector.connectionHandlerReady)
    (h : Passes p.connector p'.connector) : Leads p p' where
  listed i hi := Or.inl (h.transceivers ▸ hi)
  sweeps ids' hids' := by
    rcases h.sweeps ids' hids' with hmem | rfl
    · exact Or.inr ⟨ids', hmem, fun _ _ _ hi ↦ hi⟩
    · exact Or.inl fun _ hi ↦ hi
  exiting hexiting := Or.inl (h.exiting hexiting)
  resets hup hdown := by
    refine ⟨hpool.resolve_right fun hsame ↦ ?_, Or.inl (h.resets hup hdown)⟩
    exact absurd (hup.symm.trans (hsame ▸ hdown)) (by simp)
  ready hup := Or.inl (h.ready hup)
  live := h.live

/-- Nothing has changed but the list. -/
theorem leads_of_listed
    (hlisted : ∀ i ∈ p'.connector.transceivers, i ∈ p.connector.transceivers ∨ ¬ p'.Runs i)
    {c : Connector} (hrests : Rests p.connector c) (hsweeps : p'.connector.sweeps = c.sweeps)
    (hexiting : p'.connector.exiting = c.exiting)
    (hready : p'.connector.connectionHandlerReady = c.connectionHandlerReady)
    (hconnection : p'.connector.amqpConnection = c.amqpConnection) : Leads p p' := by
  have hready' := hready.trans hrests.ready
  have hconnection' := hconnection.trans hrests.connection
  refine ⟨hlisted, fun ids' hids' ↦ Or.inr ⟨ids', ?_, fun _ _ _ hi ↦ hi⟩, fun h ↦ Or.inl ?_,
    fun hup hdown ↦ ?_, fun hup ↦ Or.inl ⟨hready' ▸ hup, hconnection'⟩, fun hlive ↦ ?_⟩
  · exact hsweeps.trans hrests.sweeps ▸ hids'
  · exact hexiting.trans hrests.exiting ▸ h
  · exact absurd (hup.symm.trans (hready' ▸ hdown)) (by simp)
  · rw [hready', hconnection', hlive]

theorem leads_of_rests (h : Rests p.connector p'.connector) : Leads p p' :=
  leads_of_passes (Or.inr h.ready) h.passes

/-- A loop that is at its end goes on. -/
theorem leads_of_swept (hpool : p'.pool = p.pool) {c : Connector} (hswept : Swept p.connector)
    (htransceivers : c.transceivers = p.connector.transceivers)
    (hsweeps : ∀ ids ∈ c.sweeps, ids ∈ p.connector.sweeps)
    (hready : c.connectionHandlerReady = p.connector.connectionHandlerReady)
    (hconnection : c.amqpConnection = p.connector.amqpConnection)
    (h : Passes { c with exiting := true } p'.connector) : Leads p p' where
  listed i hi := by
    rw [h.transceivers] at hi
    exact Or.inl (htransceivers ▸ hi)
  sweeps ids' hids' := by
    rcases h.sweeps ids' hids' with hmem | rfl
    · exact Or.inr ⟨ids', hsweeps ids' hmem, fun _ _ _ hi ↦ hi⟩
    · exact Or.inl fun _ hi ↦ htransceivers ▸ hi
  exiting _ := Or.inr hswept
  resets _ _ := ⟨hpool, Or.inr hswept⟩
  ready hup := by
    obtain ⟨hup', hsame⟩ := h.ready hup
    exact Or.inl ⟨hready ▸ hup', hsame.trans hconnection⟩
  live hlive := h.live (by simpa [hready, hconnection] using hlive)

/-- A loop has passed a transceiver, which is not running. -/
theorem leads_of_sweep {i : ℕ} {ids rest : List ℕ} {others : List (List ℕ)} (hnot : ¬ p'.Runs i)
    (hsweeps : p.connector.sweeps = ids :: others)
    (hsweeps' : p'.connector.sweeps = rest :: others)
    (hremaining : p.connector.remaining ids = i :: rest)
    (htransceivers : p'.connector.transceivers = p.connector.transceivers)
    (hexiting : p'.connector.exiting = p.connector.exiting)
    (hready : p'.connector.connectionHandlerReady = p.connector.connectionHandlerReady)
    (hconnection : p'.connector.amqpConnection = p.connector.amqpConnection) : Leads p p' where
  listed i hi := Or.inl (htransceivers ▸ hi)
  sweeps ids' hids' := by
    right
    rw [hsweeps']  at hids'
    rcases List.mem_cons.mp hids' with rfl | hmem
    · refine ⟨ids, hsweeps ▸ List.mem_cons_self, fun j hj hruns hmem ↦ ?_⟩
      have hleft : j ∈ p.connector.remaining ids := List.mem_filter.mpr ⟨hmem, by simpa using hj⟩
      rw [hremaining] at hleft
      refine (List.mem_cons.mp hleft).resolve_left ?_
      rintro rfl
      exact hnot hruns
    · exact ⟨ids', hsweeps ▸ List.mem_cons_of_mem ids hmem, fun _ _ _ hi ↦ hi⟩
  exiting h := Or.inl (hexiting ▸ h)
  resets hup hdown := absurd (hup.symm.trans (hready ▸ hdown)) (by simp)
  ready h := Or.inl ⟨hready ▸ h, hconnection⟩
  live h := by rw [hready, hconnection, h]

theorem not_runs_of_isRunning {i : ℕ} (h : p.isRunning i = false) : ¬ p.Runs i := by
  rintro ⟨t, hget, -, hrunning⟩
  simp only [isRunning, hget, Option.any_some] at h
  exact hrunning (by simpa [TransceiverImpl.isRunning, Transceiver.isRunning] using h)

/-- A transceiver that has been dropped is not running. -/
theorem not_runs_operate_drop (p : Program Transceiver) (i : ℕ) :
    ¬ (p.operate i TransceiverImpl.drop).Runs i := by
  rintro ⟨t, hget, -, hrunning⟩
  unfold operate at hget
  cases hp : p.pool[i]? with
  | none => simp [hp] at hget
  | some u =>
    have hlt := (List.getElem?_eq_some_iff.mp hp).1
    simp only [hp, update, List.getElem?_set_self hlt, Option.some.injEq] at hget
    subst hget
    refine hrunning ?_
    change u.drop.state = .eEnd
    unfold Transceiver.drop
    split
    · assumption
    · simp [Transceiver.landing, Transceiver.path]

theorem leads_resume (hresume : p.resume = some p') : Leads p p' := by
  unfold resume at hresume
  cases hstack : p.connector.stack with
  | nil => simp [hstack] at hresume
  | cons f below =>
    rw [hstack] at hresume
    have hpop (hf : f.sweep = none) := rests_pop hstack hf
    cases f with
    | forEach loop ids =>
      have hsweeps : p.connector.sweeps =
          (Frame.forEach loop ids).sweep.toList ++ Connector.sweeps
          { p.connector with stack := below } := by
        simp only [Connector.sweeps, hstack]
        cases loop <;> rfl
      simp only at hresume
      split at hresume
      · next hend =>
        obtain rfl := Option.some.inj hresume
        have hswept (hloop : (Frame.forEach loop ids).sweep = some ids) : Swept p.connector := by
          refine ⟨ids, by simp [hsweeps, hloop], fun i hi hmem ↦ ?_⟩
          have hleft : i ∈ p.connector.remaining ids :=
            List.mem_filter.mpr ⟨hmem, by simpa using hi⟩
          have hend' : p.connector.remaining ids = [] := hend
          simp [hend'] at hleft
        have hbelow (others : List ℕ)
          (hothers : others ∈ Connector.sweeps { p.connector with stack := below }) :
            others ∈ p.connector.sweeps := hsweeps ▸ List.mem_append_right _ hothers
        cases loop with
        | stop issued =>
          exact leads_of_rests ((hpop rfl).trans ⟨rfl, rfl, rfl, rfl, rfl⟩)
        | stopHandler issued =>
          exact leads_of_swept (c := { p.connector with stack := below }) rfl (hswept rfl)
            rfl hbelow rfl rfl (passes_stopHandler _ issued)
        | drop session =>
          exact leads_of_swept (c := { p.connector with stack := below }) rfl (hswept rfl)
            rfl hbelow rfl rfl (passes_drop _ session _)
        | start => exact leads_of_rests ((hpop rfl).trans (rests_push _ rfl))
        | ready => exact leads_of_rests (hpop rfl)
      · next i rest hcons =>
        obtain ⟨hwaits, hresume⟩ := Option.ite_none_left_eq_some.mp hresume
        obtain rfl := Option.some.inj hresume
        set q : Program Transceiver :=
          ⟨Connector.push { p.connector with stack := below } (.forEach loop rest), p.pool⟩ with hq
        have hbody := rests_body q loop i
        cases loop with
        | stop | start | ready =>
          exact leads_of_rests (((hpop rfl).trans (rests_push _ rfl)).trans hbody)
        | stopHandler issued =>
          refine leads_of_sweep (not_runs_of_isRunning ?_) hsweeps
            (hbody.sweeps.trans (sweeps_push _ _))
            hcons rfl rfl rfl rfl
          exact Bool.of_not_eq_true hwaits
        | drop session =>
          exact leads_of_sweep (not_runs_operate_drop q i) hsweeps
            (hbody.sweeps.trans (sweeps_push _ _)) hcons hbody.transceivers hbody.exiting
            hbody.ready hbody.connection
    | openLoop | closeLoop =>
      obtain ⟨-, hresume⟩ := Option.ite_none_left_eq_some.mp hresume
      exact Option.some.inj hresume ▸ leads_of_rests (hpop rfl)
    | _ =>
      obtain ⟨c', hgoOn, rfl⟩ := Option.map_eq_some_iff.mp hresume
      exact leads_of_passes (Or.inl rfl) ((hpop rfl).passes.trans (passes_goOn hgoOn))

/-- The connection is established. -/
theorem leads_of_connected {session : ℕ} {c : Connector} {v : ConnectionHandler}
    (hpool : p'.pool = p.pool) (hrests : Rests p.connector c) (hattempting : p.connector.Attempting)
    (hp' : p'.connector = c.handle session (v, .connectedCb)) : Leads p p' := by
  set c₁ : Connector := { c.setHandler session v with
    connectionHandlerReady := true
    amqpConnection := some (c.setHandler session v).session
    handlers := (c.setHandler session v).handlers.set (c.setHandler session v).session
      ((c.setHandler session v).connectionHandler.onData protocolHeader).1
    sentinel := false } with hc₁
  have hpasses : Passes c₁ p'.connector := hp' ▸ passes_callStartedCb c₁
  have htransceivers : c₁.transceivers = p.connector.transceivers := hrests.transceivers
  have hexiting : c₁.exiting = p.connector.exiting := hrests.exiting
  refine ⟨fun i hi ↦ Or.inl ?_, fun ids' hids' ↦ ?_, fun h ↦ Or.inl ?_, fun _ hdown ↦ ?_,
    fun _ ↦ Or.inr hattempting, fun _ ↦ hpasses.live rfl⟩
  · exact htransceivers ▸ hpasses.transceivers ▸ hi
  · rcases hpasses.sweeps ids' hids' with hmem | rfl
    · have hsweeps : c₁.sweeps = p.connector.sweeps := hrests.sweeps
      exact Or.inr ⟨ids', hsweeps ▸ hmem, fun _ _ _ hi ↦ hi⟩
    · exact Or.inl fun _ hi ↦ htransceivers ▸ hi
  · exact hexiting ▸ hpasses.exiting h
  · exact ⟨hpool, Or.inl (hexiting ▸ hpasses.resets rfl hdown)⟩

theorem leads_of_step (hwf : p.connector.WellFormed fun _ ↦ False) (hstep : p.step e = some p') :
    Leads p p' := by
  have hentered := p.rests_entered
  obtain ⟨-, -, hpool, -⟩ := p.entered_cases
  cases e with
  | resume => exact leads_resume hstep
  | parsed parsed expected =>
    simp only [step] at hstep
    split at hstep
    · next session rest hstack =>
      obtain ⟨r, hparsed, rfl⟩ := Option.map_eq_some_iff.mp hstep
      have hnext := ConnectionHandler.onParsed_ne_connectedCb hparsed
      exact leads_of_passes (Or.inl rfl)
        ((rests_pop hstack rfl).passes.trans (made_handle _ _ hnext).passes)
    · cases hstep
  | connector e =>
    obtain ⟨c', hoccur, rfl⟩ := Option.map_eq_some_iff.mp (Option.ite_none_right_eq_some.mp hstep).2
    by_cases hremove : ∃ i, e = .remove i
    · obtain ⟨i, rfl⟩ := hremove
      obtain rfl := Option.some.inj hoccur
      refine leads_of_listed (fun j hj ↦ Or.inl ?_) hentered rfl rfl rfl rfl
      exact hentered.transceivers ▸ List.mem_of_mem_erase hj
    by_cases hconnects : ∃ session e' r, e = .handler session e' ∧
        (p.entered.connector.handler session).method e' = some r ∧ r.2 = .connectedCb
    · obtain ⟨session, e', ⟨v, next⟩, rfl, hmethod, rfl⟩ := hconnects
      have hstate := (ConnectionHandler.connectDone_of_connectedCb hmethod rfl).2
      obtain ⟨⟨hlt, -⟩, hoccur⟩ := Option.ite_none_right_eq_some.mp hoccur
      rw [hmethod, Option.map_some, Option.some.injEq] at hoccur
      have hhandlers := p.quiet_entered.handlers
      have hstate' : (p.connector.handler session).state = .eConnecting := by
        simpa [handler, hhandlers] using hstate
      have hcurrent : session = p.connector.session := by
        by_contra hne
        rcases hwf.over (hhandlers ▸ hlt) hne with hs | hs <;> simp [hs] at hstate'
      subst hcurrent
      exact leads_of_connected hpool hentered (Or.inr hstate') hoccur.symm
    · refine leads_of_passes (Or.inl hpool) (hentered.passes.trans (passes_occur ?_ ?_ hoccur))
      · exact fun i hi ↦ hremove ⟨i, hi⟩
      · exact fun session e' r he hmethod hnext ↦ hconnects ⟨session, e', r, he, hmethod, hnext⟩
  | transceiver exchange queue routeIn listener =>
    obtain rfl := Option.some.inj (Option.ite_none_right_eq_some.mp hstep).2
    refine leads_of_listed (fun j hj ↦ ?_) hentered rfl rfl rfl rfl
    rcases List.mem_cons.mp hj with rfl | hj
    · right
      rintro ⟨t, hget, -, hrunning⟩
      simp only [transceiver, List.getElem?_concat_length, Option.some.injEq] at hget
      exact hrunning (hget ▸ rfl)
    · exact Or.inl (hentered.transceivers ▸ hj)
  | «open» | close | call =>
    obtain ⟨-, hoccur⟩ := Option.ite_none_right_eq_some.mp hstep
    exact leads_of_rests (occur_rule (P := Rests p.connector) _ hentered (by simp)
      (fun hf h ↦ h.trans (rests_push _ (by cases hf <;> rfl))) (by simp) hoccur)

/-- Every transceiver that is running uses the connection of the connector, and while the connector
is not ready none is running. -/
def UsesConnection (p : Program Transceiver) : Prop :=
  (∀ t ∈ p.pool, t.crashed = false → t.state ≠ .eEnd → ∃ connection,
    p.connector.amqpConnection = some connection ∧ t.connection = some connection) ∧
  (p.connector.connectionHandlerReady = false → ∀ t ∈ p.pool, t.crashed = false → t.state = .eEnd)

end Program

/-- A program together with the transceivers whose last run was begun while the connector was
shutting down. -/
structure Shutting where
  program : Program Transceiver
  late : List ℕ

namespace Shutting

open Connector Program

variable {w w' : Shutting} {e : Event Transceiver.Event}

/-- The connector is shutting down: a loop that waits for the transceivers or drops them is under
way, or has been and the handler is to end. -/
def closing (w : Shutting) : Bool :=
  w.program.connector.exiting || !w.program.connector.sweeps.isEmpty

/-- The transceivers that have been started late, after one event. -/
def lateAfter (w : Shutting) (e : Event Transceiver.Event) : List ℕ :=
  match w.program.starts e with
  | none => w.late
  | some i => if w.closing then i :: w.late else w.late.filter (· ≠ i)

/-- One event. Once a null pointer has been used nothing more happens. -/
def step (w : Shutting) (e : Event Transceiver.Event) : Option Shutting :=
  if isPrivate e || w.program.pool.any (·.crashed) then none
  else (w.program.step e).map fun p ↦ { program := p, late := w.lateAfter e }

/-- The runs of a program, with what has been started late. -/
def machine : Machine Shutting (Event Transceiver.Event) where
  init w := w = { program := initial Transceiver, late := [] }
  step := step

/-- Where the connector ceases to be ready, a transceiver that is running is in the list and has not
been started late. -/
def ResetsInTime (w : Shutting) (e : Event Transceiver.Event) : Prop :=
  ∀ p, w.program.step e = some p → w.program.connector.connectionHandlerReady = true →
    p.connector.connectionHandlerReady = false →
      ∀ i, w.program.Runs i → i ∈ w.program.connector.transceivers ∧ i ∉ w.late

/-- What holds of a connector after every run: a transceiver in the list that is running and has not
been started late is still to come in every loop that is under way to a reset. -/
structure Kept (w : Shutting) : Prop where
  wellFormed : w.program.connector.WellFormed fun _ ↦ False
  unready : w.program.connector.Unready
  sound : ∀ t ∈ w.program.pool, t.WellFormed
  live : w.program.connector.connectionHandlerReady = w.program.connector.amqpConnection.isSome
  sweeps : ∀ ids ∈ w.program.connector.sweeps, ∀ i ∈ w.program.connector.transceivers,
    w.program.Runs i → i ∈ w.late ∨ i ∈ ids
  exiting : w.program.connector.exiting = true → ∀ i ∈ w.program.connector.transceivers,
    w.program.Runs i → i ∈ w.late

theorem exists_step (hstep : w.step e = some w') : isPrivate e = false ∧
    (∀ t ∈ w.program.pool, t.crashed = false) ∧
      ∃ p, w.program.step e = some p ∧ w' = { program := p, late := w.lateAfter e } := by
  obtain ⟨hnot, hmap⟩ := Option.ite_none_left_eq_some.mp hstep
  obtain ⟨p, hp, rfl⟩ := Option.map_eq_some_iff.mp hmap
  simp only [Bool.or_eq_true, List.any_eq_true, not_or, not_exists, not_and,
    Bool.not_eq_true] at hnot
  exact ⟨hnot.1, hnot.2, p, hp, rfl⟩

/-- A transceiver that is running after a step was so before, or is late, if the connector was
shutting down. -/
theorem runs_or_late {p : Program Transceiver} {i : ℕ} (hpool : PoolStep w.program e p)
    (hsound : ∀ t ∈ w.program.pool, t.WellFormed)
    (huncrashed : ∀ t ∈ w.program.pool, t.crashed = false) (hclosing : w.closing = true)
    (hruns : p.Runs i) : w.program.Runs i ∨ i ∈ w.lateAfter e := by
  obtain ⟨t', hget, hcrashed, hrunning⟩ := hruns
  rcases runs_of_poolStep hpool hsound hget hcrashed hrunning with ⟨t, hget', hrunning', -⟩ | h
  · exact Or.inl ⟨t, hget', huncrashed t (List.mem_of_getElem? hget'), hrunning'⟩
  · right
    simp [lateAfter, h.1, hclosing]

theorem late_subset (hclosing : w.closing = true) {i : ℕ} (hi : i ∈ w.late) : i ∈ w.lateAfter
    e := by
  unfold lateAfter
  split
  · exact hi
  · rw [if_pos hclosing]
    exact List.mem_cons_of_mem _ hi

theorem Kept.step (h : w.Kept) (hstep : w.step e = some w') : w'.Kept := by
  obtain ⟨hprivate, huncrashed, p, hp, rfl⟩ := exists_step hstep
  have hpool := poolStep huncrashed hprivate hp
  have hleads := leads_of_step h.wellFormed hp
  have hruns {i : ℕ} (hclosing : w.closing = true) (hi : i ∈ p.connector.transceivers)
      (hrunning : p.Runs i) :
      i ∈ w.lateAfter e ∨ i ∈ w.program.connector.transceivers ∧ w.program.Runs i := by
    refine (runs_or_late hpool h.sound huncrashed hclosing hrunning).symm.imp_right fun hbefore ↦ ?_
    exact ⟨(hleads.listed i hi).resolve_right (not_not.mpr hrunning), hbefore⟩
  have hswept (hclosing : w.closing = true) (hend : Swept w.program.connector) {i : ℕ}
      (hi : i ∈ w.program.connector.transceivers) (hrunning : w.program.Runs i) :
      i ∈ w.lateAfter e := by
    obtain ⟨ids, hids, hnone⟩ := hend
    exact late_subset hclosing ((h.sweeps ids hids i hi hrunning).resolve_right (hnone i hi))
  have hclosing_of_sweeps {ids : List ℕ} (hids : ids ∈ w.program.connector.sweeps) :
      w.closing = true := by
    cases hsweeps : w.program.connector.sweeps with
    | nil => simp [hsweeps] at hids
    | cons => simp [closing, hsweeps]
  refine ⟨wellFormed_step h.wellFormed hp, unready_step h.wellFormed h.unready hp,
    wellFormed_of_poolStep hpool h.sound, hleads.live h.live, fun ids' hids' i hi hrunning ↦ ?_,
    fun hexiting i hi hrunning ↦ ?_⟩
  · rcases hleads.sweeps ids' hids' with hall | ⟨ids, hids, hpasses⟩
    · exact Or.inr (hall i ((hleads.listed i hi).resolve_right (not_not.mpr hrunning)))
    · have hclosing := hclosing_of_sweeps hids
      rcases hruns hclosing hi hrunning with hlate | ⟨hi', hbefore⟩
      · exact Or.inl hlate
      · exact (h.sweeps ids hids i hi' hbefore).imp (late_subset hclosing) (hpasses i hi' hrunning)
  · rcases hleads.exiting hexiting with hbefore | hend
    · have hclosing : w.closing = true := by simp [closing, hbefore]
      rcases hruns hclosing hi hrunning with hlate | ⟨hi', hrunning'⟩
      · exact hlate
      · exact late_subset hclosing (h.exiting hbefore i hi' hrunning')
    · have hclosing := hclosing_of_sweeps hend.choose_spec.1
      rcases hruns hclosing hi hrunning with hlate | ⟨hi', hrunning'⟩
      · exact hlate
      · exact hswept hclosing hend hi' hrunning'

theorem kept_initial : Kept { program := initial Transceiver, late := [] } where
  wellFormed := wellFormed_new
  unready h := absurd h not_attempting_new
  sound t ht := by simp [initial] at ht
  live := rfl
  sweeps ids hids := by simp [initial, Connector.new, Connector.sweeps] at hids
  exiting h := absurd h Bool.false_ne_true

theorem usesConnection_initial : UsesConnection (initial Transceiver) := by
  simp [UsesConnection, initial]

/-- No transceiver is running. -/
theorem forall_ended_iff {p : Program Transceiver} :
    (∀ t ∈ p.pool, t.crashed = false → t.state = .eEnd) ↔ ∀ i, ¬ p.Runs i := by
  constructor
  · rintro h i ⟨t, hget, hcrashed, hrunning⟩
    exact hrunning (h t (List.mem_of_getElem? hget) hcrashed)
  · intro h t ht hcrashed
    by_contra hrunning
    obtain ⟨i, hget⟩ := List.getElem?_of_mem ht
    exact h i ⟨t, hget, hcrashed, hrunning⟩

/-- A step keeps the transceivers on the connection exactly when it resets that in time. -/
theorem Kept.uses_iff (h : w.Kept) (huses : UsesConnection w.program)
    (hstep : w.step e = some w') : UsesConnection w'.program ↔ w.ResetsInTime e := by
  obtain ⟨hprivate, huncrashed, p, hp, rfl⟩ := exists_step hstep
  have hpool := poolStep huncrashed hprivate hp
  have hleads := leads_of_step h.wellFormed hp
  have hother (q : Program Transceiver) (hq : w.program.step e = some q) : q = p :=
    Option.some.inj (hq.symm.trans hp)
  cases hready : w.program.connector.connectionHandlerReady with
  | false =>
    have hnone : ∀ i, ¬ w.program.Runs i := forall_ended_iff.mp (huses.2 hready)
    have hnone' : ∀ i, ¬ p.Runs i := by
      rintro i ⟨t', hget, hcrashed, hrunning⟩
      rcases runs_of_poolStep hpool h.sound hget hcrashed hrunning with ⟨t, hget', hrunning', -⟩ |
        hs
      · exact hnone i ⟨t, hget', huncrashed t (List.mem_of_getElem? hget'), hrunning'⟩
      · simp [← h.live, hready] at hs
    have hended := forall_ended_iff.mpr hnone'
    refine iff_of_true ⟨fun t ht hcrashed hrunning ↦ ?_, fun _ ↦ hended⟩ fun q _ hup ↦ ?_
    · exact absurd (hended t ht hcrashed) hrunning
    · exact absurd (hready.symm.trans hup) (by simp)
  | true =>
    cases hready' : p.connector.connectionHandlerReady with
    | false =>
      obtain ⟨hsame, hreset⟩ := hleads.resets hready hready'
      constructor
      · intro huses' q hq _ _ i hruns
        refine absurd ?_ (forall_ended_iff.mp (huses'.2 hready') i)
        obtain ⟨t, hget, ht⟩ := hruns
        exact ⟨t, hsame ▸ hget, ht⟩
      · intro hintime
        have hnone : ∀ i, ¬ w.program.Runs i := by
          intro i hruns
          obtain ⟨hlisted, hlate⟩ := hintime p hp hready hready' i hruns
          rcases hreset with hexiting | ⟨ids, hids, hend⟩
          · exact hlate (h.exiting hexiting i hlisted hruns)
          · rcases h.sweeps ids hids i hlisted hruns with hlate' | hmem
            · exact hlate hlate'
            · exact hend i hlisted hmem
        have hended : ∀ t ∈ p.pool, t.crashed = false → t.state = .eEnd :=
          hsame ▸ forall_ended_iff.mpr hnone
        exact ⟨fun t ht hcrashed hrunning ↦ absurd (hended t ht hcrashed) hrunning, fun _ ↦ hended⟩
    | true =>
      have hsame : p.connector.amqpConnection = w.program.connector.amqpConnection := by
        refine ((hleads.ready hready').resolve_right fun hattempting ↦ ?_).2
        exact absurd (hready.symm.trans (h.unready hattempting)) (by simp)
      refine iff_of_true ⟨fun t' ht' hcrashed hrunning ↦ ?_, fun hdown ↦ ?_⟩ fun q hq _ hdown ↦ ?_
      · obtain ⟨i, hget⟩ := List.getElem?_of_mem ht'
        simp only [hsame]
        rcases runs_of_poolStep hpool h.sound hget hcrashed hrunning with
          ⟨t, hget', hrunning', hconnection⟩ | ⟨-, hconnection, hsome⟩
        · have ht := List.mem_of_getElem? hget'
          rw [hconnection]
          exact huses.1 t ht (huncrashed t ht) hrunning'
        · obtain ⟨connection, hconnection'⟩ := Option.isSome_iff_exists.mp hsome
          exact ⟨connection, hconnection', hconnection.trans hconnection'⟩
      · exact absurd (hready'.symm.trans hdown) (by simp)
      · exact absurd ((hother q hq ▸ hready').symm.trans hdown) (by simp)

/-- All along a run the transceivers that are running use the connection of the connector, exactly
when the run resets every connection in time. -/
theorem usesConnection_iff {es : List (Event Transceiver.Event)}
    (hrun : machine.run { program := initial Transceiver, late := [] } es = some w) :
    (machine.Meets (fun w _ ↦ UsesConnection w.program)
      { program := initial Transceiver, late := [] } es ∧ UsesConnection w.program) ↔
        machine.Meets ResetsInTime { program := initial Transceiver, late := [] } es := by
  refine Machine.meets_iff_of_invariant (I := fun w ↦ UsesConnection w.program) (J := Kept)
    (fun w e w' hkept _ _ hstep ↦ hkept.step hstep) (fun e _ w w' hkept huses hstep ↦ ?_)
    hrun kept_initial
    usesConnection_initial
  exact hkept.uses_iff huses hstep

/-- The outstanding read of the connection is aborted, and its handler ends. -/
def aborted : List (Event Transceiver.Event) :=
  [.connector (.handler 0 (.read (some "aborted") 0 8)), .resume]

theorem resetsInTime_of_ready {p : Program Transceiver} (hstep : w.program.step e = some p)
    (hready : w.program.connector.connectionHandlerReady = false ∨
      p.connector.connectionHandlerReady = true) : w.ResetsInTime e := by
  intro q hq hup hdown
  obtain rfl : q = p := Option.some.inj (hq.symm.trans hstep)
  rcases hready with h | h
  · exact absurd (h.symm.trans hup) (by simp)
  · exact absurd (h.symm.trans hdown) (by simp)

theorem resetsInTime_of_ended (hended : ∀ t ∈ w.program.pool, t.state = .eEnd) :
    w.ResetsInTime e :=
  fun _ _ _ _ i hruns ↦ absurd hruns (forall_ended_iff.mp (fun t ht _ ↦ hended t ht) i)

/-- A sender that is opened is waited for by the handler of a `stop()`. -/
theorem usesConnection_aborted :
    ∃ w, machine.run { program := initial Transceiver, late := [] }
      (Watched.stopHeeded ++ aborted) =
      some w ∧ w.program.connector.connectionHandlerReady = false ∧
        UsesConnection w.program := by
  refine ⟨_, rfl, rfl, ?_⟩
  have hiff := usesConnection_iff
    (rfl : machine.run _ (Watched.stopHeeded ++ aborted) = some _)
  refine (hiff.mpr ?_).2
  refine Machine.meets_cons (resetsInTime_of_ready rfl (Or.inl rfl)) rfl ?_
  refine Machine.meets_cons (resetsInTime_of_ready rfl (Or.inl rfl)) rfl ?_
  refine Machine.meets_cons (resetsInTime_of_ready rfl (Or.inl rfl)) rfl ?_
  refine Machine.meets_cons (resetsInTime_of_ready rfl (Or.inl rfl)) rfl ?_
  refine Machine.meets_cons (resetsInTime_of_ready rfl (Or.inl rfl)) rfl ?_
  refine Machine.meets_cons (resetsInTime_of_ready rfl (Or.inr rfl)) rfl ?_
  refine Machine.meets_cons (resetsInTime_of_ready rfl (Or.inr rfl)) rfl ?_
  refine Machine.meets_cons (resetsInTime_of_ready rfl (Or.inr rfl)) rfl ?_
  refine Machine.meets_cons (resetsInTime_of_ready rfl (Or.inr rfl)) rfl ?_
  refine Machine.meets_cons (resetsInTime_of_ready rfl (Or.inr rfl)) rfl ?_
  refine Machine.meets_cons (resetsInTime_of_ready rfl (Or.inr rfl)) rfl ?_
  refine Machine.meets_cons (resetsInTime_of_ready rfl (Or.inr rfl)) rfl ?_
  refine Machine.meets_cons (resetsInTime_of_ready rfl (Or.inr rfl)) rfl ?_
  refine Machine.meets_cons (resetsInTime_of_ready rfl (Or.inr rfl)) rfl ?_
  refine Machine.meets_cons (resetsInTime_of_ready rfl (Or.inr rfl)) rfl ?_
  refine Machine.meets_cons (resetsInTime_of_ready rfl (Or.inr rfl)) rfl ?_
  refine Machine.meets_cons (resetsInTime_of_ready rfl (Or.inr rfl)) rfl ?_
  refine Machine.meets_cons (resetsInTime_of_ready rfl (Or.inr rfl)) rfl ?_
  exact Machine.meets_cons (resetsInTime_of_ended (by decide)) rfl trivial

/-- The application removes a sender from the list, keeps using it, and stops the connector. -/
def removed : List (Event Transceiver.Event) :=
  opening ++ [.connector (.remove 0), .connector .stop, .resume, .connector (.posted 0), .resume] ++
    aborted

/-- Of two senders that are stopped, the one that ends first is opened again while the handler of
the `stop()` waits for the other. -/
def reopenedLate : List (Event Transceiver.Event) :=
  .transceiver "other" "" "route" false :: opening ++ [.open 1,
    .call 1 (.callback 0 .createChannelReady), .call 1 (.callback 0 .createExchangeSuccess),
    .resume, .connector .stop, .resume, .resume, .resume, .connector (.posted 0),
    .call 1 (.callback 0 .closeChannelSuccess), .resume, .open 1,
    .call 1 (.callback 1 .createChannelReady), .call 1 (.callback 1 .createExchangeSuccess),
    .resume, .call 0 (.callback 0 .closeChannelSuccess), .resume, .resume] ++ aborted

/-- Either sender is still running when the connection is reset. -/
theorem not_usesConnection_removed :
    (∃ w, machine.run { program := initial Transceiver, late := [] } removed = some w ∧
      w.program.connector.connectionHandlerReady = false ∧
      w.program.connector.amqpConnection = none ∧ w.program.isRunning 0 = true ∧
      ¬ UsesConnection w.program) ∧
    ∃ w, machine.run { program := initial Transceiver, late := [] } reopenedLate = some w ∧
      w.program.connector.connectionHandlerReady = false ∧ w.late = [1] ∧
      w.program.isRunning 1 = true ∧ ¬ UsesConnection w.program := by
  refine ⟨⟨_, rfl, rfl, rfl, by decide, fun h ↦ ?_⟩,
    ⟨_, rfl, rfl, by decide, by decide, fun h ↦ ?_⟩⟩
  · have hended := h.2 rfl
    revert hended
    decide
  · have hended := h.2 rfl
    revert hended
    decide

end Shutting

end AmqpAsio
