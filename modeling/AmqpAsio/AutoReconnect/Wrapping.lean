import AmqpAsio.Connector.Keeps

/-!
# Whether AutoReconnect wraps itself

`AutoReconnect::start` saves whatever exit callback the connector has and installs `restart` in its
place. When the last cycle has not been answered yet, what it saves is `restart` itself, and from
then on `restart` calls itself without end. A cycle is answered when the connector calls the exit
callback after `stop()`, or with `eNormal`: `restart` has then given the callback back to the
connector. So in a run `AutoReconnect` wraps itself exactly if a `start()` is accepted while the
last cycle has not been answered, and the application has installed no callback since.
-/

set_option autoImplicit false
set_option relaxedAutoImplicit false

namespace AmqpAsio

namespace Connector

variable {c c' : Connector}

/-- How many functions of the application have been called as exit callbacks. -/
def calls (c : Connector) : ℕ := c.log.countP (· matches .called _ _)

/-- `m_backupExitCallback` is not `AutoReconnect::restart`, no call of `restart` has been made by
itself, and one made now neither calls itself nor calls more than one saved callback. -/
structure NeverWraps (c : Connector) : Prop where
  backup : c.auto.backupExitCallback ≠ some .restart
  frames : ∀ code, .restart code ∉ c.stack
  terminates : ∀ code code', .restart code' ∉ (c.restart code).stack
  callsOne : ∀ code, (c.restart code).calls ≤ c.calls + 1

/-- The saved callback is another one, and no task is a call of `restart` by itself. -/
def Unwrapped (c : Connector) : Prop :=
  c.auto.backupExitCallback ≠ some .restart ∧ ∀ code, .restart code ∉ c.tasks

theorem mem_tasks_restart {code : ExitCode} :
    Task.restart code ∈ c.tasks ↔ Frame.restart code ∈ c.stack := by
  unfold tasks
  rw [List.mem_filterMap]
  constructor
  · rintro ⟨f, hf, htask⟩
    cases f with
    | restart other =>
      obtain rfl : other = code := by simpa [Frame.task] using htask
      exact hf
    | forEach loop ids => cases loop <;> simp [Frame.task, Loop.task] at htask
    | _ => simp [Frame.task] at htask
  · intro hf
    exact ⟨.restart code, hf, rfl⟩

/-! ### The step -/

theorem Keeps.unwrapped (h : Keeps c c') (hunwrapped : c.Unwrapped) : c'.Unwrapped := by
  obtain ⟨added, htasks, hadded⟩ := h.tasks
  refine ⟨h.backup ▸ hunwrapped.1, fun code hcode ↦ ?_⟩
  rw [htasks, List.mem_append] at hcode
  exact hcode.elim (fun hmem ↦ hunwrapped.1 (hadded _ hmem)) (hunwrapped.2 code)

theorem Unwrapped.perform {task : Task} {rest : List Frame} (h : c.Unwrapped)
    (htasks : c.tasks = task :: { c with stack := rest }.tasks) :
    (task.perform { c with stack := rest }).Unwrapped := by
  have hrest : { c with stack := rest }.Unwrapped :=
    ⟨h.1, fun code hcode ↦ h.2 code (htasks ▸ List.mem_cons_of_mem _ hcode)⟩
  cases task with
  | backup => exact ⟨by simp [Task.perform], hrest.2⟩
  | autoStart | autoStop => exact ⟨hrest.1, hrest.2⟩
  | _ => exact (keeps_perform _ rfl).unwrapped hrest

/-- The event is no call of `AutoReconnect::start` that is accepted while the connector holds the
wrapper. -/
def SavesOther (c : Connector) : Event → Prop
  | .autoStart _ => c.auto.started = false → c.exitCb ≠ some .restart
  | _ => True

theorem unwrapped_autoStart_iff (h : c.Unwrapped) (callback : Bool) :
    (c.autoStart callback).Unwrapped ↔ c.SavesOther (.autoStart callback) := by
  simp only [autoStart]
  split
  · next hstarted => exact iff_of_true h (by simp [SavesOther, hstarted])
  · next hstarted =>
    have hkeeps := keeps_asyncStart (({ c with
      auto := { c.auto with
        needStop := false, rerun := false
        backupExitCallback := c.exitCb, startedCallback := callback }
      exitCb := some .restart }.record .startAccepted).push .autoStart) (some .started)
    constructor
    · intro hunwrapped _ hexit
      exact hunwrapped.1 (hkeeps.backup.trans hexit)
    · intro hother
      refine hkeeps.unwrapped ⟨hother (by simpa using hstarted), fun code hcode ↦ ?_⟩
      rw [tasks_push, List.mem_append] at hcode
      exact h.2 code (hcode.resolve_left (by simp [Frame.task]))

theorem Unwrapped.autoStop (h : c.Unwrapped) : c.autoStop.Unwrapped := by
  simp only [Connector.autoStop]
  split
  · exact ⟨h.1, h.2⟩
  · split
    · refine (made_stop _).keeps.unwrapped ⟨h.1, fun code hcode ↦ h.2 code ?_⟩
      rw [tasks_push, List.mem_append] at hcode
      exact hcode.resolve_left (by simp [Frame.task])
    · exact ⟨h.1, h.2⟩

theorem unwrapped_occur_iff {e : Event} (h : c.Unwrapped) (hoccur : c.occur e = some c') :
    c'.Unwrapped ↔ c.SavesOther e := by
  cases e with
  | autoStart callback =>
    rw [← Option.some.inj hoccur]
    exact unwrapped_autoStart_iff h callback
  | autoStop => exact iff_of_true (Option.some.inj hoccur ▸ h.autoStop) trivial
  | onExit =>
    refine iff_of_true ?_ trivial
    rw [← Option.some.inj hoccur]
    exact ⟨h.1, h.2⟩
  | _ => exact iff_of_true ((keeps_occur rfl hoccur).unwrapped h) trivial

/-- A call of `restart` calls at most one function of the application. -/
theorem calls_restart_le (c : Connector) (code : ExitCode) :
    (c.restart code).calls ≤ c.calls + 1 := by
  have hrestore (c : Connector) : (c.restore code).calls ≤ c.calls + 1 := by
    simp only [restore]
    split
    · exact Nat.le_succ _
    · simp [calls, push, record]
    · exact Nat.le_succ _
  unfold restart
  split
  · exact hrestore c
  · split
    · exact hrestore _
    · exact Nat.le_succ _
    · exact Nat.le_succ _

theorem neverWraps_iff_unwrapped : c.NeverWraps ↔ c.Unwrapped := by
  constructor
  · intro h
    exact ⟨h.backup, fun code hcode ↦ h.frames code (mem_tasks_restart.mp hcode)⟩
  · intro h
    refine ⟨h.1, fun code hcode ↦ h.2 code (mem_tasks_restart.mpr hcode), ?_, calls_restart_le c⟩
    intro code code' hcode
    exact ((calls_restart c code).keeps.unwrapped h).2 code' (mem_tasks_restart.mpr hcode)

/-! ### Cycles

Whether a cycle is under way is told from what the application and the connector call. -/

/-- Whether a cycle is under way once something has been recorded, `m_started` being as given. An
accepted `start()` begins one. It is over when the application installs an exit callback of its own,
and when the exit callback is called, unless `AutoReconnect` is to try again. -/
def Observation.cycleAfter (started cycle : Bool) : Observation → Bool
  | .startAccepted => true
  | .installed _ => false
  | .exit _ code => cycle && started && code ≠ .eNormal
  | _ => cycle

/-- `AutoReconnect` has not saved itself, and if the connector has the wrapper then `m_started` is
as given. -/
def Tracked (started : Bool) (c : Connector) : Prop :=
  c.auto.backupExitCallback ≠ some .restart ∧ (c.exitCb = some .restart → c.auto.started = started)

/-- What is recorded tells whether the connector still has the wrapper. -/
def Tells (started : Bool) (c c' : Connector) : Prop :=
  ∃ new, c'.log = c.log ++ new ∧
    new.foldl (Observation.cycleAfter started) (c.exitCb = some .restart : Bool) =
      (c'.exitCb = some .restart : Bool)

/-- A method tells so, and may be followed by another one. -/
def Follows (started : Bool) (c c' : Connector) : Prop :=
  Tracked started c → Tracked started c' ∧ Tells started c c'

variable {started : Bool}

theorem Tells.trans {c₁ : Connector} (hfirst : Tells started c c₁) (hsecond : Tells started c₁ c') :
    Tells started c c' := by
  obtain ⟨new, hlog, htells⟩ := hfirst
  obtain ⟨new', hlog', htells'⟩ := hsecond
  exact ⟨new ++ new', by rw [hlog', hlog, List.append_assoc],
    by rw [List.foldl_append, htells, htells']⟩

theorem Follows.trans {c₁ : Connector} (hfirst : Follows started c c₁)
    (hsecond : Follows started c₁ c') : Follows started c c' := by
  intro htracked
  obtain ⟨htracked₁, htells⟩ := hfirst htracked
  obtain ⟨htracked', htells'⟩ := hsecond htracked₁
  exact ⟨htracked', htells.trans htells'⟩

theorem tells_of_eq (hexitCb : c'.exitCb = c.exitCb) (hlog : c'.log = c.log) :
    Tells started c c' := ⟨[], by simp [hlog], by simp [hexitCb]⟩

theorem follows_of_eq (hbackup : c'.auto.backupExitCallback = c.auto.backupExitCallback)
    (hexitCb : c'.exitCb = c.exitCb) (hstarted : c'.auto.started = c.auto.started)
    (hlog : c'.log = c.log) : Follows started c c' := fun htracked ↦
  ⟨⟨hbackup ▸ htracked.1, fun h ↦ hstarted ▸ htracked.2 (hexitCb ▸ h)⟩, tells_of_eq hexitCb hlog⟩

theorem Quiet.follows (h : Quiet c c') : Follows started c c' :=
  follows_of_eq h.backup h.exitCb h.started h.log

/-- `AutoReconnect::restart` gives the saved callback back, unless it tries again. -/
theorem exitCb_restart (c : Connector) (code : ExitCode) : (c.restart code).exitCb =
    if c.auto.started = true ∧ code ≠ .eNormal then c.exitCb else c.auto.backupExitCallback := by
  have hrestore (c : Connector) : (c.restore code).exitCb = c.auto.backupExitCallback := by
    simp only [restore]
    split <;> simp_all [push, record]
  unfold restart
  cases hstarted : c.auto.started with
  | false => simp [hrestore]
  | true => cases code <;> simp [hrestore]

/-- The calls of exit callbacks that are recorded say nothing. -/
theorem foldl_cycleAfter_called {new : List Observation} (hnew : ∀ o ∈ new, o.isCalled = true)
    (cycle : Bool) : new.foldl (Observation.cycleAfter started) cycle = cycle := by
  induction new with
  | nil => rfl
  | cons o new ih =>
    obtain ⟨ho, hrest⟩ := List.forall_mem_cons.mp hnew
    cases o with
    | called => exact ih hrest
    | _ => cases ho

theorem follows_exit (c : Connector) (session : ℕ) (code : ExitCode) :
    Follows started c (c.exit session code) := by
  rintro ⟨hbackup, hstarted⟩
  unfold exit
  split
  · exact follows_of_eq rfl rfl rfl rfl ⟨hbackup, hstarted⟩
  · next f hexit =>
    refine ⟨⟨hbackup, fun h ↦ absurd (hexit.symm.trans h) (by simp)⟩, [.exit session code,
      .called f code], by simp [record, push], ?_⟩
    simp [Observation.cycleAfter, record, push, hexit]
  · next hexit =>
    have hsame := hstarted hexit
    by_cases htries : c.auto.started = true ∧ code ≠ .eNormal
    · have heq : (c.record (.exit session code)).restart code =
          { c.record (.exit session code) with
            auto := { c.auto with rerun := true, waiting := true } } := by
        unfold restart
        cases code <;> simp_all [record]
      rw [heq]
      refine ⟨⟨hbackup, fun _ ↦ hsame⟩, [.exit session code], rfl, ?_⟩
      simp [Observation.cycleAfter, record, hexit, ← hsame, htries]
    · have hcalls := calls_restart (c.record (.exit session code)) code
      have hgives : ((c.record (.exit session code)).restart code).exitCb =
          c.auto.backupExitCallback := (exitCb_restart _ code).trans (if_neg htries)
      have hother : ((c.record (.exit session code)).restart code).exitCb ≠ some .restart :=
        fun h ↦ hbackup (hgives.symm.trans h)
      have hkept := hcalls.keeps.backup
      generalize (c.record (.exit session code)).restart code = c' at hcalls hother hkept ⊢
      refine ⟨⟨hkept ▸ hbackup, fun h ↦ absurd h hother⟩, ?_⟩
      cases hcalls with
      | intro hstack hlog =>
        obtain ⟨new, rfl, hnew⟩ := hlog
        refine ⟨.exit session code :: new, by simp [record], ?_⟩
        have hover : Observation.cycleAfter started true (.exit session code) = false := by
          simpa [Observation.cycleAfter, ← hsame] using htries
        rw [List.foldl_cons, hexit]
        simp only [decide_true, hover, foldl_cycleAfter_called hnew]
        simpa using hother

theorem Change.follows (h : Change c c') : Follows started c c' := by
  cases h with
  | handler | push | loop | disconnected => exact follows_of_eq rfl rfl rfl rfl
  | exit session code => exact follows_exit c session code

theorem Made.follows (h : Made c c') : Follows started c c' :=
  h.rule (fun _ ↦ follows_of_eq rfl rfl rfl rfl) Follows.trans Change.follows

theorem follows_handle (c : Connector) (session : ℕ)
    (r : ConnectionHandler × ConnectionHandler.Continuation) :
    Follows started c (c.handle session r) := by
  by_cases hnext : r.2 = .connectedCb
  · have hstarted (c : Connector) : Follows started c c.started := by
      by_cases hstop : c.auto.needStop
      · unfold Connector.started
        rw [if_pos hstop]
        refine Follows.trans ?_ (made_stop _).follows
        exact follows_of_eq rfl rfl rfl rfl
      · exact (quiet_started (Bool.not_eq_true _ ▸ hstop)).follows
    have hcall (c : Connector) : Follows started c c.callStartedCb := by
      unfold callStartedCb
      split
      · exact follows_of_eq rfl rfl rfl rfl
      · exact follows_of_eq rfl rfl rfl rfl
      · exact hstarted c
    simp only [handle, hnext, onConnected]
    refine Follows.trans ?_ (hcall _)
    exact follows_of_eq rfl rfl rfl rfl
  · exact (made_handle c session hnext).follows

theorem follows_asyncStart (c : Connector) (callback : Option StartedCallback) :
    Follows started c (c.asyncStart callback) := by
  simp only [asyncStart]
  split
  · exact follows_of_eq rfl rfl rfl rfl
  · split
    · exact follows_of_eq rfl rfl rfl rfl
    · refine Follows.trans ?_ (follows_handle _ c.session _)
      exact follows_of_eq rfl rfl rfl rfl

theorem follows_stopHandler (c : Connector) (issued : ℕ) :
    Follows started c (c.stopHandler issued) := by
  have hacted : Follows started c (c.record (.acted issued c.session)) := fun htracked ↦
    ⟨htracked, [.acted issued c.session], rfl, rfl⟩
  unfold stopHandler
  split
  · split
    · refine hacted.trans (Follows.trans ?_ (follows_exit _ c.session _))
      exact follows_of_eq rfl rfl rfl rfl
    · exact follows_of_eq rfl rfl rfl rfl
  · refine hacted.trans (Follows.trans ?_ (follows_handle _ c.session _))
    exact follows_of_eq rfl rfl rfl rfl

/-- A task is performed, other than a call of `restart` by itself. -/
theorem tells_perform {task : Task} (htask : ∀ code, task ≠ .restart code)
    (htracked : Tracked started c) : Tells started c (task.perform c) := by
  cases task with
  | shutdown session => exact ((made_finish c session).follows htracked).2
  | stopHandler issued => exact (follows_stopHandler c issued htracked).2
  | drop session =>
    have hset : Follows started c c.disconnected := follows_of_eq rfl rfl rfl rfl
    exact (hset.trans (follows_exit _ session _) htracked).2
  | restart code => exact absurd rfl (htask code)
  | autoStart => exact ⟨[.startReturned], rfl, rfl⟩
  | stop | backup | autoStop => exact tells_of_eq rfl rfl

/-- An event of the connector, if it does not save the wrapper. -/
theorem tells_occur {e : Event} (htracked : Tracked c.auto.started c) (hsaves : c.SavesOther e)
    (hoccur : c.occur e = some c') : Tells c.auto.started c c' := by
  cases e with
  | remove =>
    rw [← Option.some.inj hoccur]
    exact tells_of_eq rfl rfl
  | run => exact Option.some.inj hoccur ▸ ((quiet_run c).follows htracked).2
  | asyncStart => exact Option.some.inj hoccur ▸ (follows_asyncStart c _ htracked).2
  | start =>
    rw [← Option.some.inj hoccur]
    unfold start
    split
    · exact tells_of_eq rfl rfl
    · exact ((quiet_push c rfl).follows.trans (follows_asyncStart _ none) htracked).2
  | stop => exact Option.some.inj hoccur ▸ ((made_stop c).follows htracked).2
  | onExit f =>
    rw [← Option.some.inj hoccur]
    refine ⟨[.installed f], rfl, ?_⟩
    cases f <;> rfl
  | autoStart callback =>
    rw [← Option.some.inj hoccur]
    simp only [autoStart]
    split
    · exact tells_of_eq rfl rfl
    · next hstarted =>
      rw [Bool.not_eq_true] at hstarted
      have hbegun : Tells c.auto.started c (({ c with
          auto := { c.auto with
            needStop := false, rerun := false
            backupExitCallback := c.exitCb, startedCallback := callback }
          exitCb := some .restart }.record .startAccepted).push .autoStart) :=
        ⟨[.startAccepted], rfl, rfl⟩
      exact hbegun.trans (follows_asyncStart _ _ ⟨hsaves hstarted, fun _ ↦ rfl⟩).2
  | autoStop =>
    have hcalled : Follows c.auto.started c (c.record .stopCalled) := fun htracked ↦
      ⟨htracked, [.stopCalled], rfl, rfl⟩
    rw [← Option.some.inj hoccur]
    simp only [autoStop]
    split
    · exact (hcalled htracked).2
    · split
      · refine (hcalled.trans (Follows.trans ?_ (made_stop _).follows) htracked).2
        exact follows_of_eq rfl rfl rfl rfl
      · exact ⟨[.stopCalled], rfl, rfl⟩
  | handler session e =>
    obtain ⟨-, hoccur⟩ := Option.ite_none_right_eq_some.mp hoccur
    obtain ⟨r, -, rfl⟩ := Option.map_eq_some_iff.mp hoccur
    exact (follows_handle c session r htracked).2
  | posted k =>
    obtain ⟨issued, -, rfl⟩ := Option.map_eq_some_iff.mp hoccur
    exact tells_of_eq rfl rfl
  | timerExpires =>
    obtain ⟨-, hoccur⟩ := Option.ite_none_right_eq_some.mp hoccur
    rw [← Option.some.inj hoccur]
    exact tells_of_eq rfl rfl
  | timerHandler =>
    obtain ⟨-, hoccur⟩ := Option.ite_none_left_eq_some.mp hoccur
    rw [← Option.some.inj hoccur]
    refine (Follows.trans ?_ (follows_asyncStart _ _) htracked).2
    exact follows_of_eq rfl rfl rfl rfl

end Connector

namespace Program

open Connector

variable {τ ε : Type} [TransceiverImpl τ ε] {p p₀ p' : Program τ} {es : List (Event ε)}

/-- The event is no call of `AutoReconnect::start` that is accepted while the connector holds the
wrapper. -/
def SavesOther (p : Program τ) : Event ε → Prop
  | .connector e => p.connector.SavesOther e
  | _ => True

/-- A step keeps the wrapper from being saved exactly when no `start()` saves it. -/
theorem unwrapped_step_iff {e : Event ε} (h : p.connector.Unwrapped) (hstep : p.step e = some p') :
    p'.connector.Unwrapped ↔ p.SavesOther e := by
  have hmoves := moves_of_step hstep
  generalize p'.connector = c' at hmoves
  have hquiets {c : Connector} (hquiet : Quiet p.connector c) : c.Unwrapped :=
    hquiet.keeps.unwrapped h
  cases hmoves with
  | quiet he hquiet =>
    refine iff_of_true (hquiets hquiet) ?_
    cases e with
    | connector e => exact absurd rfl (he e)
    | _ => trivial
  | @occur e c₁ _ hquiet hoccur =>
    rw [unwrapped_occur_iff (hquiets hquiet) hoccur]
    cases e <;> simp only [SavesOther, Connector.SavesOther, hquiet.started, hquiet.exitCb]
  | parsed hquiet hparsed =>
    exact iff_of_true ((keeps_handle _ _ _).unwrapped (hquiets hquiet)) trivial
  | @shutdownCb session c₁ hquiet =>
    exact iff_of_true ((keeps_setHandler _ _ _).unwrapped (hquiets hquiet)) trivial
  | perform hdue hwaits htasks => exact iff_of_true (h.perform htasks) trivial

/-- What a step records tells whether the connector still has the wrapper, as long as `start()` does
not save it. -/
theorem tells_step {e : Event ε} (h : p.connector.Unwrapped)
    (hsaves : p.SavesOther e) (hstep : p.step e = some p') :
    Tells p.connector.auto.started p.connector p'.connector := by
  have htracked : Tracked p.connector.auto.started p.connector := ⟨h.1, fun _ ↦ rfl⟩
  have hmoves := moves_of_step hstep
  generalize p'.connector = c' at hmoves
  cases hmoves with
  | quiet he hquiet => exact (hquiet.follows htracked).2
  | @occur e c₁ _ hquiet hoccur =>
    obtain ⟨htracked₁, htells⟩ := hquiet.follows htracked
    have hsaves₁ : c₁.SavesOther e := by
      cases e <;> simp only [Connector.SavesOther, hquiet.started, hquiet.exitCb]
      exact hsaves
    exact htells.trans (hquiet.started ▸ tells_occur (hquiet.started ▸ htracked₁) hsaves₁ hoccur)
  | parsed hquiet hparsed =>
    exact (hquiet.follows.trans (follows_handle _ _ _) htracked).2
  | @shutdownCb session c₁ hquiet =>
    exact (hquiet.follows.trans (follows_of_eq rfl rfl rfl rfl) htracked).2
  | @perform task rest hdue hwaits htasks =>
    have hpop : Follows p.connector.auto.started p.connector
      { p.connector with stack := rest } := follows_of_eq rfl rfl rfl rfl
    obtain ⟨htracked', htells⟩ := hpop htracked
    have hother : ∀ code, task ≠ .restart code :=
      fun code hcode ↦ h.2 code (htasks ▸ hcode ▸ List.mem_cons_self)
    exact htells.trans (tells_perform hother htracked')

/-- Once `restart` has called itself, it does so again and again. -/
theorem restart_forever {code : ExitCode} {rest : List Frame}
    (hstack : p.connector.stack = .restart code :: rest)
    (hstarted : p.connector.auto.started = false)
    (hbackup : p.connector.auto.backupExitCallback = some .restart) (n : ℕ) :
    ∃ q, (machine τ).run p (List.replicate n .resume) = some q ∧
      q.connector.stack = .restart code :: (List.replicate n .backup ++ rest) := by
  induction n generalizing p rest with
  | zero => exact ⟨p, rfl, hstack⟩
  | succ n ih =>
    have hstep : p.step (.resume : Event ε) = some { p with
        connector := { p.connector with
          exitCb := some .restart, stack := .restart code :: .backup :: rest } } := by
      simp [step, resume, hstack, Frame.goOn, Connector.restart, restore, hstarted, hbackup, push]
    obtain ⟨q, hrun, hq⟩ := ih (p := { p with connector := { p.connector with
      exitCb := some .restart, stack := .restart code :: .backup :: rest } }) rfl hstarted hbackup
    refine ⟨q, ?_, ?_⟩
    · rw [List.replicate_succ, Machine.run_cons, machine_step, hstep]
      exact hrun
    · rw [hq, List.replicate_succ', List.append_assoc]
      rfl

end Program

/-! ### Runs -/

/-- A program with whether a cycle of `AutoReconnect` is under way. -/
structure Wrapping (τ : Type) where
  program : Program τ
  underway : Bool

namespace Wrapping

open Connector Program

variable {τ ε : Type} [TransceiverImpl τ ε] {w w₀ w' : Wrapping τ} {e : Event ε}
  {es : List (Event ε)}

/-- One event. Whether a cycle is under way is told from what the event records. -/
def step (w : Wrapping τ) (e : Event ε) : Option (Wrapping τ) :=
  (w.program.step e).map fun p ↦ {
    program := p
    underway := (p.connector.log.drop w.program.connector.log.length).foldl
      (Observation.cycleAfter w.program.connector.auto.started) w.underway }

/-- The runs of a program with its cycles. -/
def machine (τ : Type) {ε : Type} [TransceiverImpl τ ε] : Machine (Wrapping τ) (Event ε) where
  init w := w = { program := initial τ, underway := false }
  step := step

/-- The event is no `start()` that is accepted while a cycle is under way. -/
def AfterCycle (w : Wrapping τ) (e : Event ε) : Prop :=
  ∀ callback, e = .connector (.autoStart callback) → w.program.connector.auto.started = false →
    w.underway = false

/-- A cycle is under way exactly while the connector has the wrapper. -/
def Holds (w : Wrapping τ) : Prop :=
  w.underway = (w.program.connector.exitCb = some .restart : Bool)

omit [TransceiverImpl τ ε] in
theorem Holds.savesOther_iff (h : w.Holds) : w.program.SavesOther e ↔ w.AfterCycle e := by
  cases e with
  | connector e =>
    cases e with
    | autoStart callback =>
      rw [Holds] at h
      simp [Program.SavesOther, Connector.SavesOther, AfterCycle, h]
    | _ => simp [Program.SavesOther, Connector.SavesOther, AfterCycle]
  | _ => simp [Program.SavesOther, AfterCycle]

/-- A step that keeps `AutoReconnect` from wrapping itself keeps its cycles and the wrapper
together. -/
theorem Holds.step (h : w.Holds) (hbefore : w.program.connector.Unwrapped)
    (hafter : w'.program.connector.Unwrapped) (hstep : w.step e = some w') : w'.Holds := by
  obtain ⟨p, hp, rfl⟩ := Option.map_eq_some_iff.mp hstep
  have hsaves := (unwrapped_step_iff hbefore hp).mp hafter
  obtain ⟨new, hlog, htells⟩ := tells_step hbefore hsaves hp
  rw [Holds] at h
  simpa [Holds, hlog, h] using htells

/-- All along a run AutoReconnect never wraps itself, exactly when no `start()` of the run is
accepted while a cycle is under way. -/
theorem neverWraps_iff (hinit : (machine τ).init w₀) (hrun : (machine τ).run w₀ es = some w) :
    ((machine τ).Meets (fun v _ ↦ v.program.connector.NeverWraps) w₀ es ∧
        w.program.connector.NeverWraps) ↔ (machine τ).Meets AfterCycle w₀ es := by
  obtain rfl : w₀ = _ := hinit
  refine Machine.meets_iff_of_invariant (J := Holds)
    (I := fun v ↦ v.program.connector.NeverWraps) ?_ ?_ hrun rfl ?_
  · intro v e v' hholds hbefore hafter hstep
    rw [neverWraps_iff_unwrapped] at hbefore hafter
    exact hholds.step hbefore hafter hstep
  · intro e _ v v' hholds hbefore hstep
    obtain ⟨p, hp, rfl⟩ := Option.map_eq_some_iff.mp hstep
    rw [neverWraps_iff_unwrapped] at hbefore ⊢
    exact (unwrapped_step_iff hbefore hp).trans hholds.savesOther_iff
  · exact neverWraps_iff_unwrapped.mpr ⟨by simp [initial, Connector.new, AutoReconnect.new],
      fun code ↦ by simp [initial, Connector.new, tasks]⟩

/-- An application with an exit callback starts, the broker is not reached, and the timer
expires. -/
def retrying : List (Event Transceiver.Event) :=
  [.connector (.onExit (some 7)), .connector (.autoStart false), .resume,
    .connector (.handler 0 (.resolved (some "host not found"))), .resume,
    .connector .timerExpires, .connector .timerHandler]

/-- A first `start()` and a retry save the application's callback. -/
theorem neverWraps_retrying :
    ∃ w, (machine Transceiver).run { program := initial Transceiver, underway := false } retrying =
        some w ∧ w.program.connector.auto.backupExitCallback = some (.application 7) ∧
      w.program.connector.NeverWraps := by
  refine ⟨_, rfl, rfl, ((neverWraps_iff rfl (show (machine Transceiver).run
    { program := initial Transceiver, underway := false } retrying = some _ from rfl)).mpr ?_).2⟩
  refine Machine.meets_cons (fun callback he ↦ by simp at he) rfl
    (Machine.meets_cons (fun _ _ _ ↦ rfl) rfl ?_)
  refine Machine.meets_of_forall_mem fun e he v callback hstart ↦ ?_
  subst hstart
  simp at he

/-- The application starts, stops once it is connected, and starts again at once. -/
def startedAgain : List (Event Transceiver.Event) :=
  [.connector (.onExit (some 7)), .connector (.autoStart false), .resume,
    .connector (.handler 0 (.resolved none)), .connector (.handler 0 (.connectDone none)),
    .connector .autoStop, .resume, .resume, .connector (.autoStart false)]

/-- A `start()` between a `stop()` and the exit callback saves the wrapper. -/
theorem wraps_startedAgain :
    ∃ w, (machine Transceiver).run { program := initial Transceiver, underway := false }
        startedAgain = some w ∧
      w.program.connector.auto.backupExitCallback = some .restart ∧
      ¬ w.program.connector.NeverWraps :=
  ⟨_, rfl, rfl, fun h ↦ h.backup rfl⟩

end Wrapping

end AmqpAsio
