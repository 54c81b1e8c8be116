import AmqpAsio.Connector.Moves

/-!
# What a connector leaves to its wrapper

The methods of a connector suspend calls and record what they do, and never touch the callback that
`AutoReconnect` has saved. What they suspend is no call of the wrapper's `start` or `stop`, and none
of its `restart` by itself as long as the saved callback is another one (`Keeps`).
-/

set_option autoImplicit false
set_option relaxedAutoImplicit false

namespace AmqpAsio

namespace Connector

variable {c c' : Connector}

/-- Something the connector records of itself, not of a call by the application. -/
def Observation.isInner : Observation → Bool
  | .exit _ _ | .acted _ _ | .called _ _ => true
  | .installed _ | .startAccepted | .startReturned | .stopCalled => false

/-- A task that the connector may add while `AutoReconnect` has saved this callback. -/
def Task.Inner (backup : Option ExitCallback) : Task → Prop
  | .autoStart | .autoStop => False
  | .restart _ => backup = some .restart
  | _ => True

/-- The saved callback is the same, and calls of the connector's own have been suspended and
recorded. -/
structure Keeps (c c' : Connector) : Prop where
  backup : c'.auto.backupExitCallback = c.auto.backupExitCallback
  tasks : ∃ added, c'.tasks = added ++ c.tasks ∧
    ∀ task ∈ added, task.Inner c.auto.backupExitCallback
  log : ∃ new, c'.log = c.log ++ new ∧ ∀ o ∈ new, o.isInner = true

theorem Keeps.trans {c₁ : Connector} (hfirst : Keeps c c₁) (hsecond : Keeps c₁ c') :
    Keeps c c' := by
  obtain ⟨added, htasks, hadded⟩ := hfirst.tasks
  obtain ⟨added', htasks', hadded'⟩ := hsecond.tasks
  obtain ⟨new, hlog, hnew⟩ := hfirst.log
  obtain ⟨new', hlog', hnew'⟩ := hsecond.log
  refine ⟨hsecond.backup.trans hfirst.backup, ⟨added' ++ added, ?_, fun task htask ↦ ?_⟩,
    ⟨new ++ new', ?_, fun o ho ↦ ?_⟩⟩
  · rw [htasks', htasks, List.append_assoc]
  · rcases List.mem_append.mp htask with htask | htask
    exacts [hfirst.backup ▸ hadded' task htask, hadded task htask]
  · rw [hlog', hlog, List.append_assoc]
  · exact (List.mem_append.mp ho).elim (hnew o) (hnew' o)

/-- What suspends one inner call, or none, and records only what is inner, keeps the callback. -/
theorem keeps_of_append (added : List Task) (new : List Observation)
    (hbackup : c'.auto.backupExitCallback = c.auto.backupExitCallback)
    (htasks : c'.tasks = added ++ c.tasks)
    (hadded : ∀ task ∈ added, task.Inner c.auto.backupExitCallback)
    (hlog : c'.log = c.log ++ new) (hnew : ∀ o ∈ new, o.isInner = true) : Keeps c c' :=
  ⟨hbackup, ⟨added, htasks, hadded⟩, new, hlog, hnew⟩

theorem keeps_of_eq (hbackup : c'.auto.backupExitCallback = c.auto.backupExitCallback)
    (htasks : c'.tasks = c.tasks) (hlog : c'.log = c.log) : Keeps c c' :=
  keeps_of_append [] [] hbackup htasks (by simp) (by simp [hlog]) (by simp)

/-- A suspended call with an inner task. -/
theorem keeps_push (c : Connector) {f : Frame}
    (hf : ∀ task, f.task = some task → task.Inner c.auto.backupExitCallback) : Keeps c (c.push f) :=
  keeps_of_append f.task.toList [] rfl (tasks_push c f) (by simpa using hf) (by simp [push])
    (by simp)

theorem keeps_record (c : Connector) {o : Observation} (ho : o.isInner = true) :
    Keeps c (c.record o) :=
  keeps_of_append [] [o] rfl rfl (by simp) rfl (by simpa using ho)

theorem Quiet.keeps (h : Quiet c c') : Keeps c c' := keeps_of_eq h.backup h.tasks h.log

/-! ### The methods -/

theorem Calls.keeps (h : Calls c c') : Keeps c c' := by
  cases h with
  | intro hstack hlog =>
    obtain ⟨added, rfl, hadded⟩ := hstack
    obtain ⟨new, rfl, hnew⟩ := hlog
    refine keeps_of_append (added.filterMap Frame.task) new rfl ?_ (fun task htask ↦ ?_) rfl
      fun o ho ↦ ?_
    · exact List.filterMap_append
    · obtain ⟨f, hf, htask⟩ := List.mem_filterMap.mp htask
      have hkind := hadded f hf
      cases f <;> simp_all [Frame.OfCallback, Frame.task, Task.Inner] <;> simp [← htask]
    · have hcalled := hnew o ho
      cases o with
      | called => rfl
      | _ => cases hcalled

theorem keeps_exit (c : Connector) (session : ℕ) (code : ExitCode) :
    Keeps c (c.exit session code) := by
  rcases exit_cases c session code with ⟨-, heq⟩ | ⟨-, hcalls⟩
  · rw [heq]
    exact keeps_of_eq rfl rfl rfl
  · exact (keeps_record c (o := .exit session code) rfl).trans hcalls.keeps

theorem keeps_setHandler (c : Connector) (session : ℕ) (h : ConnectionHandler) :
    Keeps c (c.setHandler session h) := keeps_of_eq rfl rfl rfl

theorem Change.keeps (h : Change c c') : Keeps c c' := by
  cases h with
  | handler session v => exact keeps_setHandler c session v
  | @push f hf =>
    refine keeps_push c fun task htask ↦ ?_
    cases f <;> simp_all [Frame.isHandlers, Frame.task]
    simp [← htask, Task.Inner]
  | loop hloop =>
    refine keeps_push c fun task htask ↦ ?_
    rcases hloop with ⟨session, rfl⟩ | rfl <;>
      simp_all [Frame.task, Loop.task] <;> simp [← htask, Task.Inner]
  | disconnected => exact keeps_of_eq rfl rfl rfl
  | exit session code => exact keeps_exit c session code

theorem Made.keeps (h : Made c c') : Keeps c c' :=
  h.rule (fun c ↦ (Quiet.refl c).keeps) Keeps.trans Change.keeps

theorem keeps_started (c : Connector) : Keeps c c.started := by
  by_cases hstop : c.auto.needStop
  · unfold started
    rw [if_pos hstop]
    refine Keeps.trans ?_ (made_stop _).keeps
    exact keeps_of_eq rfl rfl rfl
  · exact (quiet_started (Bool.not_eq_true _ ▸ hstop)).keeps

theorem keeps_callStartedCb (c : Connector) : Keeps c c.callStartedCb := by
  unfold callStartedCb
  split
  · exact keeps_of_eq rfl rfl rfl
  · exact (quiet_push c rfl).keeps
  · exact keeps_started c

theorem keeps_onConnected (c : Connector) : Keeps c c.onConnected := by
  refine Keeps.trans ?_ (keeps_callStartedCb _)
  exact keeps_of_eq rfl rfl rfl

theorem keeps_handle (c : Connector) (session : ℕ)
    (r : ConnectionHandler × ConnectionHandler.Continuation) : Keeps c (c.handle session r) := by
  by_cases hnext : r.2 = .connectedCb
  · simp only [handle, hnext]
    exact (keeps_setHandler c session r.1).trans (keeps_onConnected _)
  · exact (made_handle c session hnext).keeps

theorem keeps_asyncStart (c : Connector) (callback : Option StartedCallback) :
    Keeps c (c.asyncStart callback) := by
  simp only [asyncStart]
  split
  · exact keeps_of_eq rfl rfl rfl
  · split
    · exact keeps_of_eq rfl rfl rfl
    · refine Keeps.trans ?_ (keeps_handle _ c.session _)
      exact keeps_of_eq rfl rfl rfl

theorem keeps_start (c : Connector) : Keeps c c.start := by
  unfold start
  split
  · exact keeps_of_eq rfl rfl rfl
  · exact (quiet_push c rfl).keeps.trans (keeps_asyncStart _ none)

theorem keeps_stopHandler (c : Connector) (issued : ℕ) : Keeps c (c.stopHandler issued) := by
  have hrecord := keeps_record c (o := .acted issued c.session) rfl
  unfold stopHandler
  split
  · split
    · refine hrecord.trans (Keeps.trans ?_ (keeps_exit _ c.session _))
      exact keeps_of_eq rfl rfl rfl
    · exact keeps_of_eq rfl rfl rfl
  · refine hrecord.trans (Keeps.trans ?_ (keeps_handle _ c.session _))
    exact keeps_of_eq rfl rfl rfl

/-! ### The events -/

/-- The event is no call of the wrapper, and does not install an exit callback. -/
def Event.isInner : Event → Bool
  | .onExit _ | .autoStart _ | .autoStop => false
  | _ => true

theorem keeps_occur {e : Event} (he : e.isInner = true) (hoccur : c.occur e = some c') :
    Keeps c c' := by
  cases e with
  | remove =>
    rw [← Option.some.inj hoccur]
    exact keeps_of_eq rfl rfl rfl
  | run => exact Option.some.inj hoccur ▸ (quiet_run c).keeps
  | asyncStart => exact Option.some.inj hoccur ▸ keeps_asyncStart c _
  | start => exact Option.some.inj hoccur ▸ keeps_start c
  | stop => exact Option.some.inj hoccur ▸ (made_stop c).keeps
  | onExit | autoStart | autoStop => cases he
  | handler session e =>
    obtain ⟨-, hoccur⟩ := Option.ite_none_right_eq_some.mp hoccur
    obtain ⟨r, -, rfl⟩ := Option.map_eq_some_iff.mp hoccur
    exact keeps_handle c session r
  | posted k =>
    obtain ⟨issued, -, rfl⟩ := Option.map_eq_some_iff.mp hoccur
    have hpush := keeps_push { c with posted := c.posted.eraseIdx k }
      (f := .forEach (.stopHandler issued) c.transceivers)
      (by simp [Frame.task, Loop.task, Task.Inner])
    refine Keeps.trans ?_ hpush
    exact keeps_of_eq rfl rfl rfl
  | timerExpires =>
    obtain ⟨-, hoccur⟩ := Option.ite_none_right_eq_some.mp hoccur
    rw [← Option.some.inj hoccur]
    exact keeps_of_eq rfl rfl rfl
  | timerHandler =>
    obtain ⟨-, hoccur⟩ := Option.ite_none_left_eq_some.mp hoccur
    rw [← Option.some.inj hoccur]
    refine Keeps.trans ?_ (keeps_asyncStart _ _)
    exact keeps_of_eq rfl rfl rfl

/-- The task is no end of a call of the wrapper. -/
def Task.isInner : Task → Bool
  | .backup | .autoStart | .autoStop => false
  | _ => true

theorem keeps_perform (c : Connector) {task : Task} (htask : task.isInner = true) :
    Keeps c (task.perform c) := by
  cases task with
  | shutdown session => exact (made_finish c session).keeps
  | stop issued => exact keeps_of_eq rfl rfl rfl
  | stopHandler issued => exact keeps_stopHandler c issued
  | drop session =>
    refine Keeps.trans ?_ (keeps_exit _ session _)
    exact keeps_of_eq rfl rfl rfl
  | restart code => exact (calls_restart c code).keeps
  | backup | autoStart | autoStop => cases htask

/-! ### The record -/

theorem Keeps.log_grows (h : Keeps c c') : c.log <+: c'.log := by
  obtain ⟨new, hlog, -⟩ := h.log
  exact ⟨new, hlog.symm⟩

theorem log_prefix_occur {e : Event} (hoccur : c.occur e = some c') : c.log <+: c'.log := by
  cases e with
  | onExit f =>
    rw [← Option.some.inj hoccur]
    exact List.prefix_append _ _
  | autoStart callback =>
    rw [← Option.some.inj hoccur]
    simp only [autoStart]
    split
    · exact List.prefix_rfl
    · refine List.IsPrefix.trans ?_ (keeps_asyncStart _ _).log_grows
      exact List.prefix_append _ _
  | autoStop =>
    rw [← Option.some.inj hoccur]
    have hcalled : c.log <+: (c.record .stopCalled).log := List.prefix_append _ _
    simp only [autoStop]
    split
    · exact hcalled
    · split
      · refine List.IsPrefix.trans ?_ (made_stop _).keeps.log_grows
        exact hcalled
      · exact hcalled
  | _ => exact (keeps_occur rfl hoccur).log_grows

theorem log_prefix_perform (c : Connector) (task : Task) : c.log <+: (task.perform c).log := by
  cases task with
  | backup | autoStop => exact List.prefix_rfl
  | autoStart => exact List.prefix_append _ _
  | _ => exact (keeps_perform c rfl).log_grows

end Connector

namespace Program

variable {τ ε : Type} [TransceiverImpl τ ε] {p p' : Program τ}

/-- What has been recorded stays recorded. -/
theorem log_prefix_step {e : Event ε} (hstep : p.step e = some p') :
    p.connector.log <+: p'.connector.log := by
  have hmoves := moves_of_step hstep
  generalize p'.connector = c' at hmoves
  cases hmoves with
  | quiet he hquiet => exact hquiet.keeps.log_grows
  | occur hquiet hoccur => exact hquiet.log ▸ Connector.log_prefix_occur hoccur
  | parsed hquiet hparsed => exact hquiet.log ▸ (Connector.keeps_handle _ _ _).log_grows
  | shutdownCb hquiet => exact hquiet.keeps.log_grows
  | @perform task rest hdue hwaits htasks =>
    exact Connector.log_prefix_perform { p.connector with stack := rest } task

end Program

end AmqpAsio
