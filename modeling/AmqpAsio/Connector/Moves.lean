import AmqpAsio.Connector.Changes
import AmqpAsio.Connector.Program

/-!
# What a step of a program does to its connector

Most of what a program does concerns its transceivers, or calls that will do nothing but return. A
suspended call that still has something to do is a `Task`; a step that leaves the tasks and the
fields they depend on as they are is `Quiet`. Every other step of a program is an event of its
connector, the return of `parse`, the end of `m_shutdownCb`, or the task on top being performed
(`moves_of_step`), which is what the invariants of connectors are proved from.
-/

set_option autoImplicit false
set_option relaxedAutoImplicit false

namespace AmqpAsio

namespace Connector

/-! ### Tasks -/

/-- What a suspended call still has to do: to end a shutdown, to post the handler of a `stop()`, to
act as that handler, to drop the connection of a session, and to go on in `AutoReconnect::restart`,
`start` and `stop`. -/
inductive Task
  | shutdown (session : ℕ)
  | stop (issued : ℕ)
  | stopHandler (issued : ℕ)
  | drop (session : ℕ)
  | restart (code : ExitCode)
  | backup
  | autoStart
  | autoStop
  deriving DecidableEq, Repr

/-- The task of a loop over the transceivers. -/
def Loop.task : Loop → Option Task
  | .stop issued => some (.stop issued)
  | .stopHandler issued => some (.stopHandler issued)
  | .drop session => some (.drop session)
  | .start | .ready => none

/-- The task of a suspended call. -/
def Frame.task : Frame → Option Task
  | .shutdownLoop session => some (.shutdown session)
  | .forEach loop _ => loop.task
  | .restart code => some (.restart code)
  | .backup => some .backup
  | .autoStart => some .autoStart
  | .autoStop => some .autoStop
  | .client | .parse _ | .shutdownCb _ | .openLoop _ | .closeLoop _ | .startLoop _ | .started =>
    none

/-- What is done when a task is reached. -/
def Task.perform : Task → Connector → Connector
  | .shutdown session, c => c.finish session
  | .stop issued, c => { c with posted := c.posted ++ [issued] }
  | .stopHandler issued, c => c.stopHandler issued
  | .drop session, c => c.disconnected.exit session .eAmqpError
  | .restart code, c => c.restart code
  | .backup, c => { c with auto := { c.auto with backupExitCallback := none } }
  | .autoStart, c => { c with auto := { c.auto with started := true } }.record .startReturned
  | .autoStop, c => { c with auto := { c.auto with started := false } }

/-- The tasks on the stack, the topmost first. -/
def tasks (c : Connector) : List Task := c.stack.filterMap Frame.task

/-- The task that is performed when the topmost suspended call goes on, if it is not waiting. -/
def due (c : Connector) : Option Task :=
  match c.stack with
  | [] => none
  | .forEach loop rest :: _ => if c.remaining rest = [] then loop.task else none
  | f :: _ => f.task

variable {c c' : Connector}

@[simp] theorem tasks_push (c : Connector) (f : Frame) :
    (c.push f).tasks = f.task.toList ++ c.tasks := by
  unfold tasks push
  cases h : f.task <;> simp [h]

/-! ### Quiet steps -/

/-- Nothing has changed but the transceivers, what is told to AMQP-CPP, the calls without a task,
and what `AutoReconnect::started` is to do; and `run()` may have set `m_sentinel`. -/
structure Quiet (c c' : Connector) : Prop where
  handlers : c'.handlers = c.handlers
  exiting : c'.exiting = c.exiting
  ready : c'.connectionHandlerReady = c.connectionHandlerReady
  startedCb : c'.startedCb = c.startedCb
  exitCb : c'.exitCb = c.exitCb
  started : c'.auto.started = c.auto.started
  needStop : c'.auto.needStop = c.auto.needStop
  backup : c'.auto.backupExitCallback = c.auto.backupExitCallback
  waiting : c'.auto.waiting = c.auto.waiting
  expired : c'.auto.expired = c.auto.expired
  posted : c'.posted = c.posted
  tasks : c'.tasks = c.tasks
  log : c'.log = c.log
  connection : c'.amqpConnection = c.amqpConnection
  sentinel : c.sentinel = true → c'.sentinel = true

/-- Nothing has changed but the calls without a task. -/
theorem quiet_of_tasks {stack : List Frame} (htasks : stack.filterMap Frame.task = c.tasks) :
    Quiet c { c with stack := stack } :=
  ⟨rfl, rfl, rfl, rfl, rfl, rfl, rfl, rfl, rfl, rfl, rfl, htasks, rfl, rfl, id⟩

theorem Quiet.refl (c : Connector) : Quiet c c := quiet_of_tasks rfl

theorem Quiet.trans {c₁ : Connector} (hfirst : Quiet c c₁) (hsecond : Quiet c₁ c') :
    Quiet c c' where
  handlers := hsecond.handlers.trans hfirst.handlers
  exiting := hsecond.exiting.trans hfirst.exiting
  ready := hsecond.ready.trans hfirst.ready
  startedCb := hsecond.startedCb.trans hfirst.startedCb
  exitCb := hsecond.exitCb.trans hfirst.exitCb
  started := hsecond.started.trans hfirst.started
  needStop := hsecond.needStop.trans hfirst.needStop
  backup := hsecond.backup.trans hfirst.backup
  waiting := hsecond.waiting.trans hfirst.waiting
  expired := hsecond.expired.trans hfirst.expired
  posted := hsecond.posted.trans hfirst.posted
  tasks := hsecond.tasks.trans hfirst.tasks
  log := hsecond.log.trans hfirst.log
  connection := hsecond.connection.trans hfirst.connection
  sentinel h := hsecond.sentinel (hfirst.sentinel h)

/-- A suspended call without a task is quiet. -/
theorem quiet_push (c : Connector) {f : Frame} (hf : f.task = none) : Quiet c (c.push f) :=
  quiet_of_tasks (by simp [Connector.tasks, hf])

/-- The return of a call without a task is quiet. -/
theorem quiet_pop {f : Frame} {rest : List Frame} (hstack : c.stack = f :: rest)
    (hf : f.task = none) : Quiet c { c with stack := rest } :=
  quiet_of_tasks (by simp [Connector.tasks, hstack, hf])

theorem quiet_run (c : Connector) : Quiet c c.run := by
  unfold run
  split
  · exact Quiet.refl c
  · exact ⟨rfl, rfl, rfl, rfl, rfl, rfl, rfl, rfl, rfl, rfl, rfl, rfl, rfl, rfl, fun _ ↦ rfl⟩

theorem quiet_endStarted (c : Connector) : Quiet c c.endStarted := by
  have hset (rerun : Bool) : Quiet c { c with
      auto := { c.auto with startedCallback := false, rerun := rerun } } :=
    ⟨rfl, rfl, rfl, rfl, rfl, rfl, rfl, rfl, rfl, rfl, rfl, rfl, rfl, rfl, id⟩
  simp only [endStarted]
  split
  · exact (hset false).trans (quiet_run _)
  · exact hset c.auto.rerun

/-- `AutoReconnect::started` stops the connector if it has to, and is quiet otherwise. -/
theorem quiet_started (hstop : c.auto.needStop = false) : Quiet c c.started := by
  unfold started
  rw [hstop, if_neg Bool.false_ne_true]
  split
  · exact (quiet_push c rfl).trans (quiet_push _ rfl)
  · exact quiet_endStarted c

end Connector

namespace Program

open Connector

variable {τ ε : Type} [TransceiverImpl τ ε] {p p' : Program τ} {e : Event ε}

theorem quiet_body (p : Program τ) (loop : Loop) (i : ℕ) :
    Quiet p.connector (p.body loop i).connector :=
  body_rule (P := Quiet p.connector) p loop i (Quiet.refl _) (quiet_push _ rfl)

theorem quiet_of_occur (he : ∀ e', e ≠ .connector e') (hoccur : p.occur e = some p') :
    Quiet p.connector p'.connector := by
  refine occur_rule (P := Quiet p.connector) p (Quiet.refl _) (fun _ _ _ _ _ ↦ ?_)
    (fun hf h ↦ h.trans (quiet_push _ (by cases hf <;> rfl))) he hoccur
  exact ⟨rfl, rfl, rfl, rfl, rfl, rfl, rfl, rfl, rfl, rfl, rfl, rfl, rfl, rfl, id⟩

theorem quiet_entered (p : Program τ) : Quiet p.connector p.entered.connector := by
  unfold entered
  split
  · next ran rest hstack =>
    exact quiet_of_tasks (by rw [Connector.tasks, hstack]; rfl)
  · exact Quiet.refl p.connector

/-! ### The moves of a connector -/

/-- What an event of a program does to its connector. -/
inductive Moves (c : Connector) : Event ε → Connector → Prop
  | quiet {e : Event ε} {c' : Connector} (he : ∀ e', e ≠ .connector e') (hquiet : Quiet c c') :
      Moves c e c'
  | occur {e : Connector.Event} {c₁ c' : Connector} (hquiet : Quiet c c₁)
      (hoccur : c₁.occur e = some c') : Moves c (.connector e) c'
  | parsed {parsed expected session : ℕ} {c₁ : Connector}
      {r : ConnectionHandler × ConnectionHandler.Continuation} (hquiet : Quiet c c₁)
      (hparsed : (c₁.handler session).onParsed parsed expected = some r) :
      Moves c (.parsed parsed expected) (c₁.handle session r)
  | shutdownCb {session : ℕ} {c₁ : Connector} (hquiet : Quiet c c₁) :
      Moves c .resume (c₁.setHandler session (c₁.handler session).endShutdownCb)
  | perform {task : Task} {rest : List Frame} (hdue : c.due = some task)
      (hwaits : ∀ session, task = .shutdown session → (c.handler session).waiting = false)
      (htasks : c.tasks = task :: { c with stack := rest }.tasks) :
      Moves c .resume (task.perform { c with stack := rest })

/-- A loop over the transceivers that has come to its end performs its task, if it has one. -/
theorem moves_after {c : Connector} {loop : Loop} {ids : List ℕ} {rest : List Frame}
    (hstack : c.stack = .forEach loop ids :: rest) (hend : c.remaining ids = []) :
    Moves (ε := ε) c .resume (loop.after { c with stack := rest }) := by
  have hperform (task : Task) (hloop : loop.task = some task)
      (hkind : ∀ session, task ≠ .shutdown session)
      (hafter : loop.after { c with stack := rest } = task.perform { c with stack := rest }) :
      Moves (ε := ε) c .resume (loop.after { c with stack := rest }) := by
    rw [hafter]
    refine Moves.perform ?_ (fun session h ↦ absurd h (hkind session)) ?_
    · simp [due, hstack, hend, hloop]
    · simp [Connector.tasks, hstack, Frame.task, hloop]
  cases loop with
  | stop issued => exact hperform (.stop issued) rfl (by simp) rfl
  | stopHandler issued => exact hperform (.stopHandler issued) rfl (by simp) rfl
  | drop session => exact hperform (.drop session) rfl (by simp) rfl
  | start => exact Moves.quiet (by simp) ((quiet_pop hstack rfl).trans (quiet_push _ rfl))
  | ready => exact Moves.quiet (by simp) (quiet_pop hstack rfl)

/-- A suspended call other than a loop over the transceivers goes on. -/
theorem moves_goOn {c c' : Connector} {f : Frame} {rest : List Frame} (hstack : c.stack = f :: rest)
    (hgoOn : f.goOn { c with stack := rest } = some c') : Moves (ε := ε) c .resume c' := by
  have hperform (task : Task) (hf : f.task = some task) (hdue : c.due = f.task)
      (hwaits : ∀ session, task = .shutdown session → (c.handler session).waiting = false)
      (hsame : task.perform { c with stack := rest } = c') : Moves (ε := ε) c .resume c' := by
    rw [← hsame]
    refine Moves.perform (hdue.trans hf) hwaits ?_
    simp [Connector.tasks, hstack, hf]
  have hnever {session : ℕ} (task : Task) (h : ∀ session, task ≠ .shutdown session)
      (hs : task = .shutdown session) : (c.handler session).waiting = false :=
    absurd hs (h session)
  cases f with
  | client => exact Moves.quiet (by simp) (Option.some.inj hgoOn ▸ quiet_pop hstack rfl)
  | shutdownLoop session =>
    obtain ⟨hwaits, hgoOn⟩ := Option.ite_none_left_eq_some.mp hgoOn
    refine hperform (.shutdown session) rfl (by simp [due, hstack]) ?_ (Option.some.inj hgoOn)
    rintro _ ⟨⟩
    exact Bool.not_eq_true _ ▸ hwaits
  | shutdownCb session =>
    rw [← Option.some.inj hgoOn]
    exact Moves.shutdownCb (quiet_pop hstack rfl)
  | startLoop ran =>
    obtain ⟨-, hgoOn⟩ := Option.ite_none_right_eq_some.mp hgoOn
    exact Moves.quiet (by simp) (Option.some.inj hgoOn ▸ quiet_pop hstack rfl)
  | started =>
    rw [← Option.some.inj hgoOn]
    exact Moves.quiet (by simp) ((quiet_pop hstack rfl).trans (quiet_endStarted _))
  | restart code =>
    exact hperform (.restart code) rfl (by simp [due, hstack]) (fun _ ↦ hnever _ (by simp))
      (Option.some.inj hgoOn)
  | backup =>
    exact hperform .backup rfl (by simp [due, hstack]) (fun _ ↦ hnever _ (by simp))
      (Option.some.inj hgoOn)
  | autoStart =>
    exact hperform .autoStart rfl (by simp [due, hstack]) (fun _ ↦ hnever _ (by simp))
      (Option.some.inj hgoOn)
  | autoStop =>
    exact hperform .autoStop rfl (by simp [due, hstack]) (fun _ ↦ hnever _ (by simp))
      (Option.some.inj hgoOn)
  | parse | forEach | openLoop | closeLoop => cases hgoOn

theorem moves_resume (hresume : p.resume = some p') :
    Moves (ε := ε) p.connector .resume p'.connector := by
  unfold resume at hresume
  split at hresume
  · cases hresume
  · next f rest hstack =>
    simp only at hresume
    split at hresume
    · next loop ids =>
      split at hresume
      · next hend =>
        rw [← Option.some.inj hresume]
        exact moves_after hstack hend
      · next i others hcons =>
        obtain ⟨-, hresume⟩ := Option.ite_none_left_eq_some.mp hresume
        rw [← Option.some.inj hresume]
        refine Moves.quiet (by simp) (Quiet.trans ?_ (quiet_body _ loop i))
        exact quiet_of_tasks (by rw [Connector.tasks, hstack]; rfl)
    · obtain ⟨-, hresume⟩ := Option.ite_none_left_eq_some.mp hresume
      exact Moves.quiet (by simp) (Option.some.inj hresume ▸ quiet_pop hstack rfl)
    · obtain ⟨-, hresume⟩ := Option.ite_none_left_eq_some.mp hresume
      exact Moves.quiet (by simp) (Option.some.inj hresume ▸ quiet_pop hstack rfl)
    · obtain ⟨c', hgoOn, rfl⟩ := Option.map_eq_some_iff.mp hresume
      exact moves_goOn hstack hgoOn

/-- When a task is due and the suspended call goes on, the task is performed. -/
theorem perform_of_due {task : Task} (hdue : p.connector.due = some task)
    (hresume : p.resume = some p') : ∃ rest,
      p.connector.tasks = task :: { p.connector with stack := rest }.tasks ∧
        p'.connector = task.perform { p.connector with stack := rest } := by
  unfold due at hdue
  unfold resume at hresume
  cases hstack : p.connector.stack with
  | nil => simp [hstack] at hdue
  | cons f rest =>
    rw [hstack] at hdue hresume
    refine ⟨rest, ?_⟩
    have htasks (htask : f.task = some task) :
        p.connector.tasks = task :: { p.connector with stack := rest }.tasks := by
      simp [Connector.tasks, hstack, htask]
    cases f with
    | forEach loop ids =>
      obtain ⟨hend, htask⟩ := Option.ite_none_right_eq_some.mp hdue
      have hend' : { p.connector with stack := rest }.remaining ids = [] := hend
      simp only [hend'] at hresume
      refine ⟨htasks htask, ?_⟩
      obtain rfl := Option.some.inj hresume
      cases loop <;> cases htask <;> rfl
    | shutdownLoop session =>
      obtain ⟨c', hgoOn, rfl⟩ := Option.map_eq_some_iff.mp hresume
      obtain ⟨-, hgoOn⟩ := Option.ite_none_left_eq_some.mp hgoOn
      cases hdue
      exact ⟨htasks rfl, (Option.some.inj hgoOn).symm⟩
    | restart | backup | autoStart | autoStop =>
      obtain ⟨c', hgoOn, rfl⟩ := Option.map_eq_some_iff.mp hresume
      cases hdue
      exact ⟨htasks rfl, (Option.some.inj hgoOn).symm⟩
    | client | parse | shutdownCb | openLoop | closeLoop | startLoop | started => cases hdue

theorem moves_occur {e : Event ε} (hoccur : p.entered.occur e = some p') :
    Moves p.connector e p'.connector := by
  have hquiet := p.quiet_entered
  cases e with
  | connector e =>
    obtain ⟨c', hc', rfl⟩ := Option.map_eq_some_iff.mp hoccur
    exact Moves.occur hquiet hc'
  | transceiver | «open» | close | call | parsed | resume =>
    exact Moves.quiet (by simp) (hquiet.trans (quiet_of_occur (by simp) hoccur))

/-- The inversion of a step. -/
theorem moves_of_step (hstep : p.step e = some p') : Moves p.connector e p'.connector := by
  cases e with
  | resume => exact moves_resume hstep
  | parsed parsed expected =>
    simp only [step] at hstep
    split at hstep
    · next session rest hstack =>
      obtain ⟨r, hparsed, rfl⟩ := Option.map_eq_some_iff.mp hstep
      exact Moves.parsed (quiet_pop hstack rfl) hparsed
    · cases hstep
  | _ => exact moves_occur (Option.ite_none_right_eq_some.mp hstep).2

end Program

end AmqpAsio
