import AmqpAsio.AutoReconnect.Callbacks
import AmqpAsio.AutoReconnect.Starting

/-!
# What AutoReconnect has to make up for

A session that is reported to `AutoReconnect::restart` with an error is to be made up for: the next
connection is established by its timer, and the transceivers are restarted then. That is until the
application starts `AutoReconnect` anew, or a call of `started` has come past its callback. The flag
`m_rerun` says so in every state (`rerun_step`).
-/

set_option autoImplicit false
set_option relaxedAutoImplicit false

namespace AmqpAsio

namespace Connector

variable {c c₁ c' : Connector}

/-! ### Methods -/

/-- How many sessions have been reported with an error. -/
def errors (c : Connector) : ℕ :=
  c.log.countP fun
    | .exit _ code => code ≠ .eNormal
    | _ => false

/-- A session is reported to `AutoReconnect::restart` with an error, and it is to try again. -/
def retries (c c' : Connector) : Bool :=
  c.auto.started && c.exitCb = some .restart && c.errors < c'.errors

/-- Nothing has changed of what `AutoReconnect::restart` sees, and no error has been reported. Calls
may have been suspended. -/
structure Still (c c' : Connector) : Prop where
  started : c'.auto.started = c.auto.started
  exitCb : c'.exitCb = c.exitCb
  rerun : c'.auto.rerun = c.auto.rerun
  errors : c'.errors = c.errors
  grows : c.stack <:+ c'.stack

/-- `m_rerun` is set exactly if there is an error to be made up for. -/
structure Heeds (c c' : Connector) : Prop where
  rerun : c'.auto.rerun = (c.auto.rerun || c.retries c')
  grows : c.stack <:+ c'.stack

theorem Still.refl (c : Connector) : Still c c := ⟨rfl, rfl, rfl, rfl, List.suffix_rfl⟩

theorem Still.trans (hfirst : Still c c₁) (hsecond : Still c₁ c') : Still c c' where
  started := hsecond.started.trans hfirst.started
  exitCb := hsecond.exitCb.trans hfirst.exitCb
  rerun := hsecond.rerun.trans hfirst.rerun
  errors := hsecond.errors.trans hfirst.errors
  grows := hfirst.grows.trans hsecond.grows

theorem still_push (c : Connector) (f : Frame) : Still c (c.push f) :=
  ⟨rfl, rfl, rfl, rfl, List.suffix_cons f c.stack⟩

theorem heeds_of_eq (hrerun : c'.auto.rerun = c.auto.rerun) (herrors : c'.errors = c.errors)
    (hgrows : c.stack <:+ c'.stack) : Heeds c c' :=
  ⟨by simp [hrerun, retries, herrors], hgrows⟩

theorem Still.heeds (h : Still c c') : Heeds c c' := heeds_of_eq h.rerun h.errors h.grows

/-- What changes nothing may come first. -/
theorem Heeds.after (hsecond : Heeds c₁ c') (hfirst : Still c c₁) : Heeds c c' where
  rerun := by
    rw [hsecond.rerun, hfirst.rerun]
    simp only [retries, hfirst.started, hfirst.exitCb, hfirst.errors]
  grows := hfirst.grows.trans hsecond.grows

theorem Calls.grows (h : Calls c c') : c.stack <:+ c'.stack := by
  cases h with
  | intro hstack hlog =>
    obtain ⟨added, rfl, -⟩ := hstack
    exact List.suffix_append added c.stack

theorem Calls.errors (h : Calls c c') : c'.errors = c.errors := by
  cases h with
  | intro hstack hlog =>
    obtain ⟨new, rfl, hnew⟩ := hlog
    have hnone : new.countP (fun | .exit _ code => code ≠ .eNormal | _ => false) = 0 := by
      refine List.countP_eq_zero.mpr fun o ho ↦ ?_
      have hcalled := hnew o ho
      cases o with
      | called => simp
      | _ => cases hcalled
    simp only [Connector.errors, List.countP_append]
    rw [hnone, Nat.add_zero]

theorem rerun_restore (c : Connector) (code : ExitCode) :
    (c.restore code).auto.rerun = c.auto.rerun := by
  simp only [restore]
  split <;> rfl

theorem errors_exit (session : ℕ) (code : ExitCode) (hset : c.exitCb ≠ none) :
    (c.exit session code).errors = c.errors + if code = .eNormal then 0 else 1 := by
  rcases exit_cases c session code with ⟨hnone, -⟩ | ⟨-, hcalls⟩
  · exact absurd hnone hset
  · rw [hcalls.errors]
    cases code <;> simp [errors, record]

theorem heeds_exit (c : Connector) (session : ℕ) (code : ExitCode) :
    Heeds c (c.exit session code) := by
  have hgrows : c.stack <:+ (c.exit session code).stack := by
    rcases exit_cases c session code with ⟨-, heq⟩ | ⟨-, hcalls⟩
    · exact (congrArg stack heq).symm ▸ List.suffix_rfl
    · exact hcalls.grows
  refine ⟨?_, hgrows⟩
  cases hexit : c.exitCb with
  | none =>
    have heq : c.exit session code = c := by simp [exit, hexit]
    simp [heq, retries]
  | some f =>
    have herrors := errors_exit session code (c := c) (by simp [hexit])
    cases f with
    | application f => simp [exit, hexit, retries, push, record]
    | restart =>
      simp only [retries, herrors, hexit]
      simp only [exit, hexit, restart, record]
      cases hstarted : c.auto.started with
      | false => simp [rerun_restore]
      | true => cases code <;> simp [rerun_restore]

theorem still_stop (c : Connector) : Still c c.stop := by
  rcases stop_cases c with ⟨-, heq⟩ | ⟨-, heq⟩ <;> rw [heq]
  · exact Still.refl c
  · exact still_push c _

theorem still_disconnected (c : Connector) : Still c c.disconnected :=
  ⟨rfl, rfl, rfl, rfl, List.suffix_rfl⟩

theorem still_setHandler (c : Connector) (session : ℕ) (v : ConnectionHandler) :
    Still c (c.setHandler session v) := ⟨rfl, rfl, rfl, rfl, List.suffix_rfl⟩

theorem heeds_onShutdown (c : Connector) (session : ℕ) : Heeds c (c.onShutdown session) := by
  rcases onShutdown_cases c session with ⟨code, -, heq⟩ | ⟨loop, -, -, heq⟩ <;> rw [heq]
  · exact (heeds_exit c.disconnected session code).after (still_disconnected c)
  · exact (still_push c _).heeds

theorem heeds_finish (c : Connector) (session : ℕ) : Heeds c (c.finish session) :=
  (heeds_onShutdown _ session).after ((still_setHandler c session _).trans (still_push _ _))

/-- A method of a handler that does not go on to `m_connectedCb`. -/
theorem heeds_handle (c : Connector) (session : ℕ)
    {r : ConnectionHandler × ConnectionHandler.Continuation} (hnext : r.2 ≠ .connectedCb) :
    Heeds c (c.handle session r) := by
  have hset := still_setHandler c session r.1
  simp only [handle]
  split
  · exact hset.heeds
  · next hconnected => exact absurd hconnected hnext
  · exact (hset.trans (still_push _ _)).heeds
  · split
    · exact (hset.trans (still_push _ _)).heeds
    · exact (heeds_finish _ session).after hset
  · exact (heeds_onShutdown _ session).after (hset.trans (still_push _ _))

theorem heeds_asyncStart (c : Connector) (callback : Option StartedCallback) :
    Heeds c (c.asyncStart callback) := by
  cases hready : c.connectionHandlerReady with
  | true =>
    rw [asyncStart_of_ready hready]
    exact (Still.refl c).heeds
  | false =>
    have hbegun : Still c (c.begun callback c.handlers) := ⟨rfl, rfl, rfl, rfl, List.suffix_rfl⟩
    rcases asyncStart_eq callback hready with ⟨-, heq⟩ | ⟨-, -, heq⟩ <;> rw [heq]
    · exact hbegun.heeds
    · exact (heeds_handle _ _ (ConnectionHandler.stop_ne_connectedCb _)).after hbegun

theorem heeds_stopHandler (c : Connector) (issued : ℕ) : Heeds c (c.stopHandler issued) := by
  have hacted : Still c (c.record (.acted issued c.session)) :=
    ⟨rfl, rfl, rfl, by simp [errors, record], List.suffix_rfl⟩
  unfold stopHandler
  split
  · split
    · exact (heeds_exit _ _ _).after (hacted.trans (still_disconnected _))
    · exact (Still.refl c).heeds
  · refine (heeds_handle _ _ (ConnectionHandler.stop_ne_connectedCb _)).after (hacted.trans ?_)
    exact ⟨rfl, rfl, rfl, rfl, List.suffix_rfl⟩

theorem heeds_after (loop : Loop) (c : Connector) : Heeds c (loop.after c) := by
  cases loop with
  | stop => exact heeds_of_eq rfl rfl List.suffix_rfl
  | stopHandler issued => exact heeds_stopHandler c issued
  | drop session => exact (heeds_exit _ session _).after (still_disconnected c)
  | start => exact (still_push c _).heeds
  | ready => exact (Still.refl c).heeds

theorem still_run (c : Connector) : Still c c.run := by
  unfold run
  split
  · exact Still.refl c
  · exact ⟨rfl, rfl, rfl, rfl, List.suffix_cons _ _⟩

/-- When `AutoReconnect::started` has come past its callback nothing is left to be made up for. -/
theorem rerun_endStarted (c : Connector) :
    c.endStarted.auto.rerun = false ∧ c.stack <:+ c.endStarted.stack := by
  simp only [endStarted]
  split
  · have hrun := still_run
      { c with auto := { c.auto with startedCallback := false, rerun := false } }
    exact ⟨hrun.rerun, hrun.grows⟩
  · next hrerun => exact ⟨by simpa using hrerun, List.suffix_rfl⟩

/-- A suspended call goes on, other than of `started` and of `restart` by itself. -/
theorem heeds_goOn {f : Frame} (hstarted : f ≠ .started) (hrestart : ∀ code, f ≠ .restart code)
    (hgoOn : f.goOn c = some c') : Heeds c c' := by
  cases f with
  | client => exact Option.some.inj hgoOn ▸ (Still.refl c).heeds
  | shutdownLoop session =>
    obtain ⟨-, hgoOn⟩ := Option.ite_none_left_eq_some.mp hgoOn
    exact Option.some.inj hgoOn ▸ heeds_finish c session
  | shutdownCb session => exact Option.some.inj hgoOn ▸ (still_setHandler c session _).heeds
  | startLoop ran =>
    obtain ⟨-, hgoOn⟩ := Option.ite_none_right_eq_some.mp hgoOn
    exact Option.some.inj hgoOn ▸ (Still.refl c).heeds
  | started => exact absurd rfl hstarted
  | restart code => exact absurd rfl (hrestart code)
  | backup | autoStop => exact Option.some.inj hgoOn ▸ heeds_of_eq rfl rfl List.suffix_rfl
  | autoStart =>
    refine Option.some.inj hgoOn ▸ heeds_of_eq rfl ?_ List.suffix_rfl
    simp [errors, record]
  | parse | forEach | openLoop | closeLoop => cases hgoOn

/-- `restart`, called by itself. -/
theorem rerun_restart (c : Connector) (code : ExitCode) :
    (c.restart code).auto.rerun = (c.auto.rerun || c.auto.started && code ≠ .eNormal) := by
  unfold restart
  cases c.auto.started with
  | false => simp [rerun_restore]
  | true => cases code <;> simp [rerun_restore]

/-- An event other than an accepted `AutoReconnect::start`, and that establishes no connection. -/
theorem heeds_occur {e : Event}
    (hstart : ∀ callback, e = .autoStart callback → c.auto.started = true)
    (hconnects : ¬ c.Connects e) (hoccur : c.occur e = some c') : Heeds c c' := by
  cases e with
  | remove => exact Option.some.inj hoccur ▸ heeds_of_eq rfl rfl List.suffix_rfl
  | run => exact Option.some.inj hoccur ▸ (still_run c).heeds
  | asyncStart => exact Option.some.inj hoccur ▸ heeds_asyncStart c _
  | start =>
    obtain rfl := Option.some.inj hoccur
    unfold start
    split
    · exact (Still.refl c).heeds
    · exact (heeds_asyncStart _ none).after (still_push c _)
  | stop => exact Option.some.inj hoccur ▸ (still_stop c).heeds
  | onExit f =>
    refine Option.some.inj hoccur ▸ heeds_of_eq rfl ?_ List.suffix_rfl
    simp [errors, record]
  | autoStart callback =>
    obtain rfl := Option.some.inj hoccur
    rw [autoStart, if_pos (hstart callback rfl)]
    exact (Still.refl c).heeds
  | autoStop =>
    obtain rfl := Option.some.inj hoccur
    have hcalled : (c.record .stopCalled).errors = c.errors := by simp [errors, record]
    simp only [autoStop]
    split
    · exact heeds_of_eq rfl hcalled List.suffix_rfl
    · split
      · have hstop := still_stop (({ c.record .stopCalled with
          auto := { c.auto with waiting := false } } : Connector).push .autoStop)
        refine heeds_of_eq hstop.rerun (hstop.errors.trans hcalled) ?_
        exact (List.suffix_cons _ c.stack).trans hstop.grows
      · exact heeds_of_eq rfl hcalled List.suffix_rfl
  | handler session e =>
    obtain ⟨-, hoccur⟩ := Option.ite_none_right_eq_some.mp hoccur
    obtain ⟨r, hmethod, rfl⟩ := Option.map_eq_some_iff.mp hoccur
    refine heeds_handle c session fun hnext ↦ hconnects ⟨session, ?_⟩
    obtain ⟨rfl, hstate⟩ := ConnectionHandler.connectDone_of_connectedCb hmethod hnext
    exact ⟨rfl, hstate⟩
  | posted k =>
    obtain ⟨issued, -, rfl⟩ := Option.map_eq_some_iff.mp hoccur
    exact heeds_of_eq rfl rfl (List.suffix_cons _ c.stack)
  | timerExpires =>
    obtain ⟨-, hoccur⟩ := Option.ite_none_right_eq_some.mp hoccur
    exact Option.some.inj hoccur ▸ heeds_of_eq rfl rfl List.suffix_rfl
  | timerHandler =>
    obtain ⟨-, hoccur⟩ := Option.ite_none_left_eq_some.mp hoccur
    obtain rfl := Option.some.inj hoccur
    refine (heeds_asyncStart _ _).after ?_
    exact ⟨rfl, rfl, rfl, rfl, List.suffix_rfl⟩

/-- An accepted `AutoReconnect::start` begins with nothing to be made up for. -/
theorem rerun_autoStart (callback : Bool) (hstarted : c.auto.started = false) :
    (c.autoStart callback).auto.rerun = false ∧ c.stack <:+ (c.autoStart callback).stack := by
  simp only [autoStart]
  rw [if_neg (by simp [hstarted])]
  set c₁ := (record _ .startAccepted).push .autoStart with hc₁
  have hasync := heeds_asyncStart c₁ (some .started)
  refine ⟨hasync.rerun.trans ?_, (List.suffix_cons _ c.stack).trans hasync.grows⟩
  simp [hc₁, push, record, retries, hstarted]

theorem errors_callStartedCb (c : Connector) : c.callStartedCb.errors = c.errors := by
  have hended (c : Connector) : c.endStarted.errors = c.errors := by
    simp only [endStarted]
    split
    · exact (still_run _).errors
    · rfl
  unfold callStartedCb
  split
  · rfl
  · rfl
  · unfold started
    split
    · exact (still_stop _).errors
    · split
      · rfl
      · exact hended c

/-- What `m_startedCb` does to what is to be made up for. -/
theorem rerun_callStartedCb (c : Connector) :
    c.callStartedCb.auto.rerun = (c.auto.rerun && !(c.startedCb = some .started &&
      !c.auto.needStop && !c.auto.startedCallback)) ∧ c.stack <:+ c.callStartedCb.stack := by
  unfold callStartedCb
  cases hcb : c.startedCb with
  | none => simp
  | some callback =>
    cases callback with
    | application => simp [push]
    | started =>
      unfold started
      cases hstop : c.auto.needStop with
      | true =>
        have hstill := still_stop { c with auto := { c.auto with needStop := false } }
        exact ⟨by simp [hstill.rerun], hstill.grows⟩
      | false =>
        cases hslot : c.auto.startedCallback with
        | true => exact ⟨by simp [push], ⟨[.client, .started], rfl⟩⟩
        | false =>
          have hended := rerun_endStarted c
          exact ⟨by simp [hended.1], hended.2⟩

end Connector

namespace Program

open Connector

variable {τ ε : Type} [TransceiverImpl τ ε] {p p' : Program τ} {e : Event ε}

/-! ### Steps of a program -/

theorem still_body (p : Program τ) (loop : Loop) (i : ℕ) :
    Still p.connector (p.body loop i).connector :=
  body_rule (P := Still p.connector) p loop i (Still.refl _) (still_push _ _)

theorem still_of_occur (he : ∀ e', e ≠ .connector e') (hoccur : p.occur e = some p') :
    Still p.connector p'.connector :=
  occur_rule (P := Still p.connector) p (Still.refl _)
    (fun _ _ _ _ _ ↦ ⟨rfl, rfl, rfl, rfl, List.suffix_rfl⟩)
    (fun _ h ↦ h.trans (still_push _ _)) he hoccur

/-- An error is to be made up for: a session is reported with it, or `restart`, called by itself,
goes on with it. -/
def fails (p : Program τ) (e : Event ε) (p' : Program τ) : Bool :=
  p.connector.retries p'.connector ||
    match e, p.connector.stack with
    | .resume, .restart code :: _ => p.connector.auto.started && code ≠ .eNormal
    | _, _ => false

/-- `AutoReconnect::start` is accepted, or a call of `started` comes past its callback. -/
def beginsAnew (p : Program τ) : Event ε → Bool
  | .connector (.autoStart _) => !p.connector.auto.started
  | .connector (.handler session (.connectDone none)) =>
    (p.connector.handler session).state = .eConnecting && p.connector.startedCb = some .started &&
      !p.connector.auto.needStop && !p.connector.auto.startedCallback
  | .resume => p.connector.stack.head? = some .started
  | _ => false

/-- Whether there is something to be made up for after a step. -/
def failedAfter (failed : Bool) (p : Program τ) (e : Event ε) (p' : Program τ) : Bool :=
  (failed || p.fails e p') && !p.beginsAnew e

/-- The suspended calls that are there after a step. -/
def kept (p : Program τ) : Event ε → List Frame
  | .resume | .parsed _ _ => p.connector.stack.tail
  | _ => p.entered.connector.stack

omit [TransceiverImpl τ ε] in
/-- What heeds the errors after the calls that have been kept, in a step that begins nothing anew
and in which `restart` does not call itself. -/
theorem rerun_of_heeds {stack : List Frame}
    (h : Heeds { p.connector with stack := stack } p'.connector) (hanew : p.beginsAnew e = false)
    (hself : p.fails e p' = p.connector.retries p'.connector) :
    p'.connector.auto.rerun = failedAfter p.connector.auto.rerun p e p' := by
  rw [h.rerun, failedAfter, hanew, hself]
  simp only [retries, Bool.not_false, Bool.and_true]
  rfl

theorem heeds_resume {f : Frame} {rest : List Frame} (hstack : p.connector.stack = f :: rest)
    (hstarted : f ≠ .started) (hrestart : ∀ code, f ≠ .restart code)
    (hresume : p.resume = some p') : Heeds { p.connector with stack := rest } p'.connector := by
  simp only [resume, hstack] at hresume
  split at hresume
  · next loop ids =>
    split at hresume
    · exact Option.some.inj hresume ▸ heeds_after loop _
    · next i others _ =>
      obtain ⟨-, hresume⟩ := Option.ite_none_left_eq_some.mp hresume
      obtain rfl := Option.some.inj hresume
      exact ((still_push _ (.forEach loop others)).trans
        (Program.still_body { p with connector := _ } loop i)).heeds
  · obtain ⟨-, hresume⟩ := Option.ite_none_left_eq_some.mp hresume
    exact Option.some.inj hresume ▸ (Still.refl _).heeds
  · obtain ⟨-, hresume⟩ := Option.ite_none_left_eq_some.mp hresume
    exact Option.some.inj hresume ▸ (Still.refl _).heeds
  · obtain ⟨c', hgoOn, rfl⟩ := Option.map_eq_some_iff.mp hresume
    exact heeds_goOn hstarted hrestart hgoOn

theorem rerun_resume (hresume : p.resume = some p') :
    p'.connector.auto.rerun = failedAfter p.connector.auto.rerun p (.resume : Event ε) p' ∧
      p.connector.stack.tail <:+ p'.connector.stack := by
  cases hstack : p.connector.stack with
  | nil => simp [resume, hstack] at hresume
  | cons f rest =>
    by_cases hstarted : f = .started
    · subst hstarted
      simp only [resume, hstack, Frame.goOn, Option.map_some, Option.some.injEq] at hresume
      have hended := rerun_endStarted { p.connector with stack := rest }
      subst hresume
      exact ⟨by simp [failedAfter, beginsAnew, hstack, hended.1], hended.2⟩
    by_cases hrestart : ∃ code, f = .restart code
    · obtain ⟨code, rfl⟩ := hrestart
      simp only [resume, hstack, Frame.goOn, Option.map_some, Option.some.injEq] at hresume
      have hcalls := calls_restart { p.connector with stack := rest } code
      have herrors : p'.connector.errors = p.connector.errors := hresume ▸ hcalls.errors
      refine ⟨?_, hresume ▸ hcalls.grows⟩
      simp only [failedAfter, fails, beginsAnew, hstack, retries, herrors]
      rw [← hresume, rerun_restart]
      simp
    · have hheeds := heeds_resume hstack hstarted (fun code h ↦ hrestart ⟨code, h⟩) hresume
      refine ⟨rerun_of_heeds hheeds ?_ ?_, hheeds.grows⟩
      · simpa [beginsAnew, hstack] using hstarted
      · cases f <;> simp_all [fails]

/-- An event of the connector does not touch the transceivers. -/
theorem occur_of_step {e : Connector.Event} (hstep : p.step (.connector e) = some p') :
    { p.connector with stack := p.entered.connector.stack }.occur e = some p'.connector ∧
      p'.pool = p.pool := by
  obtain ⟨stack, heq, -⟩ := p.entered_eq
  have hoccur := (Option.ite_none_right_eq_some.mp hstep).2
  rw [heq] at hoccur ⊢
  simp only [occur] at hoccur
  obtain ⟨c', hc', rfl⟩ := Option.map_eq_some_iff.mp hoccur
  exact ⟨hc', rfl⟩

/-- A connection is established. -/
theorem rerun_connects {e : Connector.Event} (hwf : p.connector.WellFormed fun _ ↦ False)
    (hconnects : p.connector.Connects e) (hstep : p.step (.connector e : Event ε) = some p') :
    p'.connector.auto.rerun = failedAfter p.connector.auto.rerun p (.connector e : Event ε) p' ∧
      p.entered.connector.stack <:+ p'.connector.stack := by
  obtain ⟨-, c₁, hp', hauto, hcb, hstack, -, -, hlog⟩ :=
    exists_callStartedCb (c := { p.connector with stack := p.entered.connector.stack }) hwf.sound
      hwf.others hconnects (occur_of_step hstep).1
  obtain ⟨hrerun, hgrows⟩ := rerun_callStartedCb c₁
  have herrors : p'.connector.errors = p.connector.errors := by
    rw [hp', errors_callStartedCb, errors, hlog]
    rfl
  rw [← hp', hauto, hcb] at hrerun
  rw [← hp', hstack] at hgrows
  obtain ⟨session, rfl, hstate⟩ := hconnects
  refine ⟨hrerun.trans ?_, hgrows⟩
  simp [failedAfter, fails, beginsAnew, retries, herrors, hstate]

/-- `m_rerun` says, in every state, whether there is something to be made up for; and the calls that
are suspended stay so until they are reached again. -/
theorem rerun_step (hwf : p.connector.WellFormed fun _ ↦ False) (hstep : p.step e = some p') :
    p'.connector.auto.rerun = failedAfter p.connector.auto.rerun p e p' ∧
      p.kept e <:+ p'.connector.stack := by
  obtain ⟨stack, heq, -⟩ := p.entered_eq
  have hentered (h : Heeds p.entered.connector p'.connector) (hanew : p.beginsAnew e = false)
      (hself : p.fails e p' = p.connector.retries p'.connector) :
      p'.connector.auto.rerun = failedAfter p.connector.auto.rerun p e p' ∧
        p.entered.connector.stack <:+ p'.connector.stack := by
    rw [heq] at h
    exact ⟨rerun_of_heeds h hanew hself, heq ▸ h.grows⟩
  cases e with
  | resume => exact rerun_resume hstep
  | parsed parsed expected =>
    simp only [step] at hstep
    split at hstep
    · next session rest hstack =>
      obtain ⟨r, hparsed, rfl⟩ := Option.map_eq_some_iff.mp hstep
      have hheeds := heeds_handle { p.connector with stack := rest } session
        (ConnectionHandler.onParsed_ne_connectedCb hparsed)
      have hself : p.fails (.parsed parsed expected : Event ε)
          { p with connector := { p.connector with stack := rest }.handle session r } =
          p.connector.retries ({ p.connector with stack := rest }.handle session r) := by
        simp [fails]
      exact ⟨rerun_of_heeds hheeds rfl hself, by simpa [kept, hstack] using hheeds.grows⟩
    · cases hstep
  | connector e =>
    by_cases hconnects : p.connector.Connects e
    · exact rerun_connects hwf hconnects hstep
    · have hoccur := (occur_of_step hstep).1
      have hself : p.fails (.connector e : Event ε) p' = p.connector.retries p'.connector := by
        simp [fails]
      by_cases hstart : ∃ callback, e = .autoStart callback ∧ p.connector.auto.started = false
      · obtain ⟨callback, rfl, hstarted⟩ := hstart
        have hbegun := rerun_autoStart (c := { p.connector with
          stack := p.entered.connector.stack }) callback hstarted
        rw [Option.some.inj hoccur] at hbegun
        exact ⟨by simp [failedAfter, beginsAnew, hstarted, hbegun.1], hbegun.2⟩
      · have hheeds := heeds_occur (c := { p.connector with stack := p.entered.connector.stack })
          (fun callback he ↦ ?_) hconnects hoccur
        · refine ⟨rerun_of_heeds hheeds ?_ hself, hheeds.grows⟩
          cases e with
          | autoStart callback =>
            simpa [beginsAnew] using fun h ↦ hstart ⟨callback, rfl, h⟩
          | handler session e =>
            cases e with
            | connectDone error =>
              cases error with
              | none =>
                have hstate : (p.connector.handler session).state ≠ .eConnecting :=
                  fun h ↦ hconnects ⟨session, rfl, h⟩
                simp [beginsAnew, hstate]
              | some => rfl
            | _ => rfl
          | _ => rfl
        · exact Bool.of_not_eq_false fun h ↦ hstart ⟨callback, he, h⟩
  | transceiver | «open» | close | call =>
    obtain ⟨-, hoccur⟩ := Option.ite_none_right_eq_some.mp hstep
    exact hentered (still_of_occur (by simp) hoccur).heeds rfl (by simp [fails])

end Program

end AmqpAsio
