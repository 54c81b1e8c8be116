import AmqpAsio.AutoReconnect.Rerun
import AmqpAsio.Connector.Finality

/-!
# The first connection of AutoReconnect

When a connection is first established after `AutoReconnect::start`, only the callback is to be
invoked, however many attempts have failed before. But `m_rerun`, which makes `started` go on to
`run()` after a connection has been lost, is also set by an attempt that fails. So when an attempt
has failed, the transceivers that the callback has not started are started after it.
-/

set_option autoImplicit false
set_option relaxedAutoImplicit false

namespace AmqpAsio

namespace Connector

variable {c c' : Connector} {callback : Bool} {before : ℕ}

/-! ### Attempts that fail -/

/-- How many attempts to connect have failed. -/
def failures (c : Connector) : ℕ := c.log.countP (· matches .exit _ .eBrokerConnectError)

/-- `AutoReconnect::start` has returned and no connection has been established since. The flag
`m_rerun` is set once an attempt has failed; so many had failed before. -/
structure Trying (callback : Bool) (before : ℕ) (c : Connector) : Prop where
  started : c.auto.started = true
  needStop : c.auto.needStop = false
  startedCallback : c.auto.startedCallback = callback
  exitCb : c.exitCb = some .restart
  exiting : c.exiting = false
  ready : c.connectionHandlerReady = false
  startedCb : c.startedCb = some .started
  le : before ≤ c.failures
  rerun : c.auto.rerun = true ↔ before < c.failures

/-- No attempt has failed, and nothing has changed of what decides about the first connection. -/
structure Level (c c' : Connector) : Prop where
  started : c'.auto.started = c.auto.started
  needStop : c'.auto.needStop = c.auto.needStop
  startedCallback : c'.auto.startedCallback = c.auto.startedCallback
  rerun : c'.auto.rerun = c.auto.rerun
  exitCb : c'.exitCb = c.exitCb
  exiting : c'.exiting = c.exiting
  ready : c'.connectionHandlerReady = c.connectionHandlerReady
  startedCb : c'.startedCb = c.startedCb
  failures : c'.failures = c.failures

theorem Trying.level (h : Trying callback before c) (hlevel : Level c c') :
    Trying callback before c' where
  started := hlevel.started.trans h.started
  needStop := hlevel.needStop.trans h.needStop
  startedCallback := hlevel.startedCallback.trans h.startedCallback
  exitCb := hlevel.exitCb.trans h.exitCb
  exiting := hlevel.exiting.trans h.exiting
  ready := hlevel.ready.trans h.ready
  startedCb := hlevel.startedCb.trans h.startedCb
  le := hlevel.failures ▸ h.le
  rerun := by rw [hlevel.rerun, hlevel.failures, h.rerun]

theorem Trying.push {f : Frame} (h : Trying callback before c) :
    Trying callback before (c.push f) :=
  h.level ⟨rfl, rfl, rfl, rfl, rfl, rfl, rfl, rfl, rfl⟩

theorem Trying.withStack (h : Trying callback before c) (stack : List Frame) :
    Trying callback before { c with stack := stack } :=
  h.level ⟨rfl, rfl, rfl, rfl, rfl, rfl, rfl, rfl, rfl⟩

theorem Trying.setHandler (h : Trying callback before c) (session : ℕ) (v : ConnectionHandler) :
    Trying callback before (c.setHandler session v) :=
  h.level ⟨rfl, rfl, rfl, rfl, rfl, rfl, rfl, rfl, rfl⟩

/-- A handler that shuts down ends its attempt, which has failed. -/
theorem Trying.onShutdown (h : Trying callback before c) (session : ℕ) :
    Trying callback before (c.onShutdown session) := by
  set c₁ : Connector := { c with amqpConnection := none, sentinel := false } with hc₁
  have hexit : c.onShutdown session = c₁.exit session .eBrokerConnectError := by
    simp [Connector.onShutdown, h.exiting, h.ready, hc₁]
  have hfailed : (c₁.exit session .eBrokerConnectError).failures = c.failures + 1 := by
    rw [exit_of_started (c := c₁) h.exitCb h.started (by simp)]
    simp [failures, record, hc₁]
  have hle := h.le
  rw [hexit]
  refine ⟨?_, ?_, ?_, ?_, ?_, ?_, ?_, by omega, ⟨fun _ ↦ by omega, fun _ ↦ ?_⟩⟩
  all_goals rw [exit_of_started (c := c₁) h.exitCb h.started (by simp)]
  exacts [h.started, h.needStop, h.startedCallback, h.exitCb, h.exiting, h.ready, h.startedCb]

theorem Trying.finish (h : Trying callback before c) (session : ℕ) :
    Trying callback before (c.finish session) :=
  ((h.setHandler session _).push).onShutdown session

/-- A method of a handler that does not go on to `m_connectedCb`. -/
theorem Trying.handle {session : ℕ} {r : ConnectionHandler × ConnectionHandler.Continuation}
    (h : Trying callback before c) (hnext : r.2 ≠ .connectedCb) :
    Trying callback before (c.handle session r) := by
  have hset := h.setHandler session r.1
  simp only [Connector.handle]
  split
  · exact hset
  · next hconnected => exact absurd hconnected hnext
  · exact hset.push
  · split
    · exact hset.push
    · exact hset.finish session
  · exact hset.push.onShutdown session

/-- The timer begins the next attempt. -/
theorem Trying.asyncStart (h : Trying callback before c) :
    Trying callback before (c.asyncStart (some .started)) := by
  have hbegun : Trying callback before (c.begun (some .started) c.handlers) :=
    h.level ⟨rfl, rfl, rfl, rfl, rfl, h.exiting.symm, rfl, h.startedCb.symm, rfl⟩
  rcases asyncStart_eq (some .started) h.ready with ⟨-, heq⟩ | ⟨-, -, heq⟩
  · exact heq ▸ hbegun
  · exact heq ▸ hbegun.handle (ConnectionHandler.stop_ne_connectedCb _)

/-- `AutoReconnect` is left to itself: the application neither stops it, nor replaces the exit
callback, nor has the connector connect by a call of its own. -/
def LeavesAlone : Event → Prop
  | .asyncStart _ | .start | .onExit _ | .autoStop => False
  | _ => True

theorem Trying.occur {e : Event} (h : Trying callback before c) (hleaves : LeavesAlone e)
    (hconnects : ¬ c.Connects e) (hoccur : c.occur e = some c') : Trying callback before c' := by
  cases e with
  | asyncStart | start | onExit | autoStop => exact hleaves.elim
  | remove => exact Option.some.inj hoccur ▸ h.level ⟨rfl, rfl, rfl, rfl, rfl, rfl, rfl, rfl, rfl⟩
  | run =>
    obtain rfl := Option.some.inj hoccur
    rwa [run, if_pos (by simp [h.ready])]
  | stop =>
    obtain rfl := Option.some.inj hoccur
    rwa [stop, if_pos (by simp [h.ready])]
  | autoStart callback' =>
    obtain rfl := Option.some.inj hoccur
    rwa [autoStart, if_pos h.started]
  | handler session e =>
    obtain ⟨-, hoccur⟩ := Option.ite_none_right_eq_some.mp hoccur
    obtain ⟨r, hmethod, rfl⟩ := Option.map_eq_some_iff.mp hoccur
    refine h.handle fun hnext ↦ hconnects ⟨session, ?_⟩
    obtain ⟨rfl, hstate⟩ := ConnectionHandler.connectDone_of_connectedCb hmethod hnext
    exact ⟨rfl, hstate⟩
  | posted k =>
    obtain ⟨issued, -, rfl⟩ := Option.map_eq_some_iff.mp hoccur
    exact (h.level ⟨rfl, rfl, rfl, rfl, rfl, rfl, rfl, rfl, rfl⟩ :
      Trying callback before { c with posted := c.posted.eraseIdx k }).push
  | timerExpires =>
    obtain ⟨-, hoccur⟩ := Option.ite_none_right_eq_some.mp hoccur
    exact Option.some.inj hoccur ▸ h.level ⟨rfl, rfl, rfl, rfl, rfl, rfl, rfl, rfl, rfl⟩
  | timerHandler =>
    obtain ⟨-, hoccur⟩ := Option.ite_none_left_eq_some.mp hoccur
    obtain rfl := Option.some.inj hoccur
    exact Trying.asyncStart (c := { c with auto := { c.auto with expired := c.auto.expired - 1 } })
      (h.level ⟨rfl, rfl, rfl, rfl, rfl, rfl, rfl, rfl, rfl⟩)

/-- What is left to do of an earlier call does not end a session or a cycle. -/
def Task.LeavesAlone : Task → Prop
  | .stopHandler _ | .drop _ | .restart _ | .autoStop => False
  | _ => True

theorem Trying.perform {task : Task} (h : Trying callback before c) (hleaves : task.LeavesAlone) :
    Trying callback before (task.perform c) := by
  cases task with
  | stopHandler | drop | restart | autoStop => exact hleaves.elim
  | shutdown session => exact h.finish session
  | stop issued => exact h.level ⟨rfl, rfl, rfl, rfl, rfl, rfl, rfl, rfl, rfl⟩
  | backup => exact h.level ⟨rfl, rfl, rfl, rfl, rfl, rfl, rfl, rfl, rfl⟩
  | autoStart =>
    exact h.level ⟨h.started.symm, rfl, rfl, rfl, rfl, rfl, rfl, rfl, by
      simp [Task.perform, failures, record]⟩

end Connector

namespace Program

open Connector

variable {τ ε : Type} [TransceiverImpl τ ε] {p p' : Program τ} {e : Event ε} {callback : Bool}
  {before : ℕ}

/-- Between `AutoReconnect::start` and the first connection: no connection is established, and
neither the application nor a call suspended before interferes. -/
def Awaits (p : Program τ) : Event ε → Prop
  | .connector e => LeavesAlone e ∧ ¬ p.connector.Connects e
  | .resume => (∀ rest, p.connector.stack ≠ .started :: rest) ∧
      ∀ task ∈ p.connector.due, task.LeavesAlone
  | _ => True

theorem trying_resume (h : Trying callback before p.connector)
    (hawaits : p.Awaits (.resume : Event ε)) (hresume : p.resume = some p') :
    Trying callback before p'.connector := by
  obtain ⟨hstarted, hleaves⟩ := hawaits
  cases hdue : p.connector.due with
  | some task =>
    obtain ⟨rest, -, heq⟩ := perform_of_due hdue hresume
    exact heq ▸ (h.withStack rest).perform (hleaves task hdue)
  | none =>
    unfold due at hdue
    unfold resume at hresume
    cases hstack : p.connector.stack with
    | nil => simp [hstack] at hresume
    | cons f rest =>
      have hpop := h.withStack rest
      rw [hstack] at hdue hresume
      cases f with
      | forEach loop ids =>
        simp only at hresume
        split at hresume
        · next hend =>
          obtain rfl := Option.some.inj hresume
          have htask := (if_pos hend).symm.trans hdue
          cases loop with
          | stop | stopHandler | drop => cases htask
          | start => exact hpop.push
          | ready => exact hpop
        · next i others _ =>
          obtain ⟨-, hresume⟩ := Option.ite_none_left_eq_some.mp hresume
          obtain rfl := Option.some.inj hresume
          exact body_rule { p with connector := _ } loop i hpop.push hpop.push.push
      | openLoop | closeLoop =>
        obtain ⟨-, hresume⟩ := Option.ite_none_left_eq_some.mp hresume
        exact Option.some.inj hresume ▸ hpop
      | started => exact absurd hstack (hstarted rest)
      | shutdownLoop | restart | backup | autoStart | autoStop => cases hdue
      | parse => simp [Frame.goOn] at hresume
      | client =>
        obtain ⟨c', hgoOn, rfl⟩ := Option.map_eq_some_iff.mp hresume
        exact Option.some.inj hgoOn ▸ hpop
      | shutdownCb session =>
        obtain ⟨c', hgoOn, rfl⟩ := Option.map_eq_some_iff.mp hresume
        exact Option.some.inj hgoOn ▸ hpop.setHandler session _
      | startLoop ran =>
        obtain ⟨c', hgoOn, rfl⟩ := Option.map_eq_some_iff.mp hresume
        obtain ⟨-, hgoOn⟩ := Option.ite_none_right_eq_some.mp hgoOn
        exact Option.some.inj hgoOn ▸ hpop

theorem trying_step (h : Trying callback before p.connector) (hawaits : p.Awaits e)
    (hstep : p.step e = some p') : Trying callback before p'.connector := by
  obtain ⟨stack, heq, -⟩ := p.entered_eq
  have hentered : Trying callback before p.entered.connector := heq ▸ h.withStack stack
  cases e with
  | resume => exact trying_resume h hawaits hstep
  | parsed parsed expected =>
    simp only [step] at hstep
    split at hstep
    · next session rest hstack =>
      obtain ⟨r, hparsed, rfl⟩ := Option.map_eq_some_iff.mp hstep
      exact (h.withStack rest).handle (ConnectionHandler.onParsed_ne_connectedCb hparsed)
    · cases hstep
  | connector e =>
    exact (h.withStack p.entered.connector.stack).occur hawaits.1 hawaits.2 (occur_of_step hstep).1
  | transceiver | «open» | close | call =>
    obtain ⟨-, hoccur⟩ := Option.ite_none_right_eq_some.mp hstep
    refine occur_rule (P := Trying callback before) _ hentered (fun _ _ _ _ _ ↦ ?_)
      (fun _ h ↦ h.push) (by simp) hoccur
    exact hentered.level ⟨rfl, rfl, rfl, rfl, rfl, rfl, rfl, rfl, rfl⟩

/-- The program awaits its first connection after an accepted `AutoReconnect::start`, no session
being under way at that time, and so many attempts have failed since. -/
inductive Awaiting (callback : Bool) (n : ℕ) (p : Program τ) : Prop
  | intro {p₀ p₁ p₂ : Program τ} {es : List (Event ε)} (hreachable : (machine τ).Reachable p₀)
      (hstarted : p₀.connector.auto.started = false)
      (hready : p₀.connector.connectionHandlerReady = false)
      (hstopped : p₀.connector.connectionHandler.state = .eNotConnected)
      (hstart : p₀.step (.connector (.autoStart callback)) = some p₁)
      (hreturn : p₁.step .resume = some p₂) (hawaits : (machine τ).Meets Awaits p₂ es)
      (hrun : (machine τ).run p₂ es = some p)
      (hfailures : p.connector.failures = p₂.connector.failures + n)

/-- `AutoReconnect::start` has been accepted and has returned. -/
theorem trying_started (hwf : p.connector.WellFormed fun _ ↦ False)
    (hstarted : p.connector.auto.started = false)
    (hready : p.connector.connectionHandlerReady = false)
    (hstopped : p.connector.connectionHandler.state = .eNotConnected)
    (hstart : p.step (.connector (.autoStart callback)) = some p')
    {p₂ : Program τ} (hreturn : p'.step .resume = some p₂) :
    Trying callback p₂.connector.failures p₂.connector := by
  have hbegun := (Option.some.inj (occur_of_step hstart).1).symm.trans
    (autoStart_of_stopped callback hstarted hready hstopped hwf.sound)
  have hstack : p'.connector.stack = .autoStart :: p.entered.connector.stack := by
    rw [hbegun]
    rfl
  have hp₂ := step_of_autoStart hstack hreturn
  rw [hp₂, hbegun]
  refine ⟨rfl, rfl, rfl, rfl, rfl, hready, rfl, Nat.le_refl _, ?_⟩
  simp [Task.perform, record, begun, push]

/-- What is known of a program that awaits its first connection. -/
theorem Awaiting.trying {n : ℕ} (h : p.Awaiting callback n) :
    p.connector.WellFormed (fun _ ↦ False) ∧
      ∃ before, Trying callback before p.connector ∧ p.connector.failures = before + n := by
  obtain ⟨hreachable, hstarted, hready, hstopped, hstart, hreturn, hawaits, hrun, hfailures⟩ := h
  have hwf := wellFormed hreachable
  have htrying := trying_started hwf hstarted hready hstopped hstart hreturn
  have hwf₂ := wellFormed_step (wellFormed_step hwf hstart) hreturn
  refine ⟨?_, _, ?_, hfailures⟩
  · exact Machine.run_invariant (I := fun p ↦ p.connector.WellFormed fun _ ↦ False)
      (fun p e p' hp hstep ↦ wellFormed_step hp hstep) hrun hwf₂
  · exact hawaits.invariant (fun p e p' hp hawaits hstep ↦ trying_step hp hawaits hstep) hrun
      htrying

/-! ### What is done when the connection is established -/

/-- What `AutoReconnect::started` does: it invokes the callback, and its `run()` starts a
transceiver. -/
inductive Action
  | callback
  | start (transceiver : ℕ)
  deriving DecidableEq, Repr

/-- One of the transceivers is not running. -/
def Idle (p : Program τ) : Prop := ∃ i ∈ p.connector.transceivers, p.isRunning i = false

/-- What the call of `started` made above these calls does in a step: it comes to the callback, or
the loop of its `run()` starts a transceiver. -/
def acts (below : List Frame) (p : Program τ) (e : Event ε) (p' : Program τ) : List Action :=
  (if p.connector.stack.length ≤ below.length + 1 ∧
    p'.connector.stack = .client :: .started :: below then [.callback] else []) ++
  match p.connector.stack with
  | .forEach .start _ :: rest =>
    if rest = below then (p.starts e).toList.map Action.start else []
  | _ => []

/-- The connection is established, and `AutoReconnect::started` finds the flags as the attempts have
left them. -/
theorem Awaiting.started {n : ℕ} {e : Connector.Event} (h : p.Awaiting callback n)
    (hconnects : p.connector.Connects e) (hstep : p.step (.connector e) = some p') :
    ∃ c : Connector, p'.connector = c.started ∧ c.stack = p.entered.connector.stack ∧
      c.callbacks = p.connector.callbacks ∧ c.connectionHandlerReady = true ∧
      c.transceivers = p.connector.transceivers ∧ c.auto.needStop = false ∧
      c.auto.startedCallback = callback ∧ (c.auto.rerun = true ↔ n ≠ 0) := by
  obtain ⟨hwf, before, htrying, hfailures⟩ := h.trying
  obtain ⟨-, c, hp', hauto, hcb, hstack, hready, hlisted, -⟩ :=
    exists_callStartedCb (c := { p.connector with stack := p.entered.connector.stack }) hwf.sound
      hwf.others hconnects (occur_of_step hstep).1
  obtain ⟨stack, heq, hcount⟩ := p.entered_eq
  refine ⟨c, ?_, hstack, ?_, hready, hlisted, ?_, ?_, ?_⟩
  · rw [hp', callStartedCb, hcb]
    simp only [htrying.startedCb]
  · simp only [callbacks, hstack, heq, hcount]
  · exact hauto ▸ htrying.needStop
  · exact hauto ▸ htrying.startedCallback
  · have hrerun := htrying.rerun
    rw [hauto]
    exact hrerun.trans (by omega)

end Program

/-- A program in which a connection is first established, from that event on: the calls above which
`started` is called, whether that call has returned, whether there is something to be made up for,
and what the call has done. -/
structure Establishing (τ : Type) where
  program : Program τ
  below : List Connector.Frame
  finished : Bool
  failed : Bool
  actions : List Program.Action

namespace Establishing

open Connector Program

variable {τ ε : Type} [TransceiverImpl τ ε] {w w' : Establishing τ} {p : Program τ} {e : Event ε}
  {es : List (Event ε)} {callback : Bool} {n : ℕ}

/-- One event. -/
def step (w : Establishing τ) (e : Event ε) : Option (Establishing τ) :=
  (w.program.step e).map fun p ↦ {
    program := p
    below := w.below
    finished := w.finished || p.connector.stack.length ≤ w.below.length
    failed := failedAfter w.failed w.program e p
    actions := w.actions ++ if w.finished then [] else acts w.below w.program e p }

/-- A program that awaits its first connection, before the event that establishes it. -/
def begins (p : Program τ) (n : ℕ) : Establishing τ where
  program := p
  below := p.entered.connector.stack
  finished := false
  failed := n ≠ 0
  actions := []

/-- The runs from the first connection on, so many attempts having failed before. -/
def machine (τ : Type) {ε : Type} [TransceiverImpl τ ε] (callback : Bool) (n : ℕ) :
    Machine (Establishing τ) (Event ε) where
  init w := ∃ p : Program τ, p.Awaiting callback n ∧ w = begins p n
  step := step

/-- The loop of `run()` that starts transceivers is under way. -/
def Starting (w : Establishing τ) : Prop :=
  w.finished = false ∧ ∃ above ids,
    w.program.connector.stack = above ++ .forEach .start ids :: w.below

/-- When `started` comes past its callback, or has none, there is nothing to be made up for, or the
connection has been given up already, or no transceiver is idle. -/
structure Rested (callback : Bool) (w : Establishing τ) (e : Event ε) : Prop where
  connected : callback = false → w.finished = false →
    w.program.connector.stack.length = w.below.length → w.failed = true → ¬ w.program.Idle
  returned : w.finished = false → e = .resume → w.program.connector.stack = .started :: w.below →
    w.failed = true → w.program.connector.connectionHandlerReady = true → ¬ w.program.Idle

/-- A run from the event on in which the connection is established. At its end `run()` is not in the
midst of starting transceivers. -/
structure FirstConnection (callback : Bool) (n : ℕ) (w₀ : Establishing τ) (es : List (Event ε))
    (w : Establishing τ) : Prop where
  init : (machine τ callback n).init w₀
  connects : ∃ e rest, es = .connector e :: rest ∧ w₀.program.connector.Connects e
  run : (machine τ callback n).run w₀ es = some w
  settled : ¬ w.Starting

/-! ### Single steps -/

theorem step_cases (hstep : w.step e = some w') : w.program.step e = some w'.program ∧
    w'.below = w.below ∧
    w'.finished = (w.finished || w'.program.connector.stack.length ≤ w.below.length : Bool) ∧
    w'.failed = failedAfter w.failed w.program e w'.program ∧
    w'.actions = w.actions ++ if w.finished then [] else acts w.below w.program e w'.program := by
  obtain ⟨p, hp, rfl⟩ := Option.map_eq_some_iff.mp hstep
  exact ⟨hp, rfl, rfl, rfl, rfl⟩

theorem actions_prefix_run (hrun : (machine τ callback n).run w es = some w') :
    w.actions <+: w'.actions := by
  refine Machine.run_invariant (I := fun v ↦ w.actions <+: v.actions) (fun v e v' hv hstep ↦ ?_)
    hrun List.prefix_rfl
  rw [(step_cases hstep).2.2.2.2]
  exact hv.trans (List.prefix_append _ _)

/-- What is suspended below the call on top stays. -/
theorem suffix_of_step {above rest : List Frame}
    (hwf : w.program.connector.WellFormed fun _ ↦ False) (hstep : w.step e = some w')
    (hstack : w.program.connector.stack = above ++ rest) (habove : above ≠ []) :
    ∃ above', w'.program.connector.stack = above' ++ rest := by
  have hkept := (rerun_step hwf (step_cases hstep).1).2
  obtain ⟨f, above, rfl⟩ := List.exists_cons_of_ne_nil habove
  have htail : rest <:+ w.program.connector.stack.tail := by
    rw [hstack]
    exact List.suffix_append above rest
  have htail' : w.program.connector.stack.tail <:+ w.program.kept e := by
    unfold kept entered
    split
    · exact List.suffix_rfl
    · exact List.suffix_rfl
    · split
      · next ran below hsame =>
        rw [hsame]
        exact List.suffix_cons _ _
      · exact List.tail_suffix _
  obtain ⟨above', h⟩ := (htail.trans htail').trans hkept
  exact ⟨above', h.symm⟩

/-- As long as a call is suspended above the one that `started` has made, `started` does nothing. -/
theorem acts_of_above {above below : List Frame} {f : Frame} {q : Program τ}
    (hstack : p.connector.stack = above ++ f :: below) (habove : above ≠ []) :
    acts below p e q = [] := by
  obtain ⟨g, above, rfl⟩ := List.exists_cons_of_ne_nil habove
  have hlong : ¬ p.connector.stack.length ≤ below.length + 1 := by
    simp only [hstack, List.length_append, List.length_cons]
    omega
  have hne : above ++ f :: below ≠ below := fun h ↦ by
    have := congrArg List.length h
    simp only [List.length_append, List.length_cons] at this
    omega
  rw [acts, if_neg fun h ↦ hlong h.1, List.nil_append, hstack, List.cons_append]
  split
  · next hsame =>
    obtain ⟨-, rfl⟩ := List.cons.inj hsame
    rw [if_neg hne]
  · rfl

/-! ### After the callback -/

/-- The call of `started` has returned, or is in `run()`. -/
def Later (w : Establishing τ) : Prop :=
  w.finished = true ∨ ∃ above loop ids, (loop = .start ∨ loop = .ready) ∧
    w.program.connector.stack = above ++ .forEach loop ids :: w.below

theorem Later.rested (h : w.Later) : w.Rested callback e := by
  rcases h with hfinished | ⟨above, loop, ids, hloop, hstack⟩
  · exact ⟨fun _ h ↦ absurd (hfinished.symm.trans h) (by simp),
      fun h ↦ absurd (hfinished.symm.trans h) (by simp)⟩
  · constructor
    · intro _ _ hlength
      simp only [hstack, List.length_append, List.length_cons] at hlength
      omega
    · intro _ _ hreturned
      have hlength := congrArg List.length (hstack.symm.trans hreturned)
      have hnil : above = [] := by
        simp only [List.length_append, List.length_cons] at hlength
        exact List.length_eq_zero_iff.mp (by omega)
      rw [hstack, hnil] at hreturned
      cases hreturned

/-- `run()` is left, or is in its second loop. -/
def Past (w : Establishing τ) : Prop :=
  w.finished = true ∨ ∃ above ids,
    w.program.connector.stack = above ++ .forEach .ready ids :: w.below

theorem Past.later (h : w.Past) : w.Later :=
  h.imp_right fun ⟨above, ids, hstack⟩ ↦ ⟨above, .ready, ids, Or.inr rfl, hstack⟩

/-- An event other than the return of the topmost call leaves what is suspended. -/
theorem eq_resume_of_loop {loop : Loop} {ids : List ℕ} {below : List Frame}
    (hwf : w.program.connector.WellFormed fun _ ↦ False) (hstep : w.step e = some w')
    (hstack : w.program.connector.stack = .forEach loop ids :: below) :
    w.program.resume = some w'.program ∨
      .forEach loop ids :: below <:+ w'.program.connector.stack := by
  have hkept := (rerun_step hwf (step_cases hstep).1).2
  have hentered : w.program.entered.connector.stack = .forEach loop ids :: below := by
    unfold entered
    split
    · next ran rest hsame => cases hstack.symm.trans hsame
    · exact hstack
  cases e with
  | resume => exact Or.inl (step_cases hstep).1
  | parsed =>
    have hparsed := (step_cases hstep).1
    simp [Program.step, hstack] at hparsed
  | _ => exact Or.inr (hentered ▸ hkept)

theorem Past.step (h : w.Past) (hwf : w.program.connector.WellFormed fun _ ↦ False)
    (hstep : w.step e = some w') : w'.Past ∧ w'.actions = w.actions := by
  obtain ⟨hp, hbelow, hfinished', -, hactions⟩ := step_cases hstep
  rcases h with hfinished | ⟨above, ids, hstack⟩
  · exact ⟨Or.inl (by simp [hfinished', hfinished]), by simp [hactions, hfinished]⟩
  by_cases habove : above = []
  · subst habove
    rw [List.nil_append] at hstack
    have hnone (hnot : w'.program.connector.stack ≠ .client :: .started :: w.below) :
        w'.actions = w.actions := by
      simp [hactions, acts, hnot, hstack]
    rcases eq_resume_of_loop hwf hstep hstack with hresume | ⟨above', hstack'⟩
    · simp only [resume, hstack] at hresume
      split at hresume
      · have hstack' : w'.program.connector.stack = w.below := by
          rw [← Option.some.inj hresume]
          rfl
        refine ⟨Or.inl (by simp [hfinished', hstack']), hnone fun hsame ↦ ?_⟩
        have hlength := congrArg List.length (hstack'.symm.trans hsame)
        simp only [List.length_cons] at hlength
        omega
      · next i others _ =>
        obtain ⟨-, hresume⟩ := Option.ite_none_left_eq_some.mp hresume
        have hstack' : w'.program.connector.stack = .forEach .ready others :: w.below := by
          rw [← Option.some.inj hresume]
          rfl
        exact ⟨Or.inr ⟨[], others, by rw [hstack', hbelow]; rfl⟩, hnone (by simp [hstack'])⟩
    · refine ⟨Or.inr ⟨above', ids, by rw [← hstack', hbelow]⟩, hnone fun hsame ↦ ?_⟩
      have hlength := congrArg List.length (hstack'.trans hsame)
      simp only [List.length_append, List.length_cons] at hlength
      obtain ⟨f, rfl⟩ := List.length_eq_one_iff.mp (by omega : above'.length = 1)
      cases hstack'.trans hsame
  · obtain ⟨above', hstack'⟩ := suffix_of_step hwf hstep hstack habove
    refine ⟨Or.inr ⟨above', ids, by rw [hstack', hbelow]⟩, ?_⟩
    rw [hactions, acts_of_above hstack habove]
    simp

/-- The rest of a run adds nothing to what `started` has done. -/
theorem Past.run (h : w.Past) (hwf : w.program.connector.WellFormed fun _ ↦ False)
    (hrun : (machine τ callback n).run w es = some w') : w'.actions = w.actions := by
  refine (Machine.run_invariant (I := fun v : Establishing τ ↦
    (v.program.connector.WellFormed fun _ ↦ False) ∧ v.Past ∧ v.actions = w.actions)
      (fun v e v' hv hstep ↦ ?_) hrun ⟨hwf, h, rfl⟩).2.2
  obtain ⟨hwf, hpast, heq⟩ := hv
  obtain ⟨hpast', heq'⟩ := hpast.step hwf hstep
  exact ⟨wellFormed_step hwf (step_cases hstep).1, hpast', heq'.trans heq⟩

/-- The first loop of `run()` is on top, and goes on. -/
theorem resume_of_starting {ids : List ℕ}
    (hstack : w.program.connector.stack = .forEach .start ids :: w.below)
    (hstep : w.step e = some w') : e = .resume ∧ w.program.resume = some w'.program := by
  obtain ⟨hp, -⟩ := step_cases hstep
  have hpausing : w.program.pausing = false := by
    unfold pausing
    rw [hstack]
    simp only
    split <;> rfl
  cases e with
  | resume => exact ⟨rfl, hp⟩
  | parsed => simp [Program.step, hstack] at hp
  | _ => simp [Program.step, hpausing] at hp

/-- The first loop of `run()`, on top, is over, goes past a transceiver that is running, or starts
one that is not. -/
theorem starting_cases {ids : List ℕ} (hfinished : w.finished = false)
    (hstack : w.program.connector.stack = .forEach .start ids :: w.below)
    (hstep : w.step e = some w') :
    (w.program.connector.remaining ids = [] ∧ w'.actions = w.actions ∧
      w'.program.connector.stack = .forEach .ready w.program.connector.transceivers :: w.below) ∨
    ∃ i others, w.program.connector.remaining ids = i :: others ∧
      ((w.program.isRunning i = true ∧ w'.actions = w.actions ∧
        w'.program = { w.program with connector :=
          { w.program.connector with stack := .forEach .start others :: w.below } }) ∨
      (w.program.isRunning i = false ∧ w'.actions = w.actions ++ [.start i] ∧
        ∃ above, w'.program.connector.stack = above ++ .forEach .start others :: w.below)) := by
  obtain ⟨hp, hbelow, -, -, hactions⟩ := step_cases hstep
  obtain ⟨rfl, hresume⟩ := resume_of_starting hstack hstep
  simp only [resume, hstack] at hresume
  have hacts (hnot : w'.program.connector.stack ≠ .client :: .started :: w.below) :
      w'.actions = w.actions ++ (((w.program.connector.remaining ids).head?.filter
        fun i ↦ !w.program.isRunning i).toList.map .start) := by
    simp [hactions, hfinished, acts, hnot, hstack, starts]
  split at hresume
  · next hend =>
    have hend' : w.program.connector.remaining ids = [] := hend
    have hstack' : w'.program.connector.stack =
        .forEach .ready w.program.connector.transceivers :: w.below := by
      rw [← Option.some.inj hresume]
      rfl
    exact Or.inl ⟨hend', by simp [hacts (by simp [hstack']), hend'], hstack'⟩
  · next i others hcons =>
    have hcons' : w.program.connector.remaining ids = i :: others := hcons
    obtain ⟨-, hresume⟩ := Option.ite_none_left_eq_some.mp hresume
    refine Or.inr ⟨i, others, hcons', ?_⟩
    cases hrunning : w.program.isRunning i with
    | true =>
      have hp' := (if_pos hrunning).symm.trans (Option.some.inj hresume)
      have hstack' : w'.program.connector.stack = .forEach .start others :: w.below := by
        rw [← hp']
        rfl
      refine Or.inl ⟨rfl, ?_, hp'.symm⟩
      simp [hacts (by simp [hstack']), hcons', hrunning]
    | false =>
      have hstill := Program.still_body { w.program with connector := (
        { w.program.connector with stack := w.below }.push (.forEach .start others)) } .start i
      rw [Option.some.inj hresume] at hstill
      obtain ⟨above, habove⟩ := hstill.grows
      refine Or.inr ⟨rfl, ?_, above, habove.symm⟩
      rw [hacts ?_, hcons']
      · simp [hrunning]
      · intro hsame
        have hlength := congrArg List.length (habove.trans hsame)
        simp only [push, List.length_append, List.length_cons] at hlength
        obtain ⟨f, rfl⟩ := List.length_eq_one_iff.mp (by omega : above.length = 1)
        cases habove.trans hsame

theorem Later.step (h : w.Later) (hwf : w.program.connector.WellFormed fun _ ↦ False)
    (hstep : w.step e = some w') : w'.Later := by
  obtain ⟨-, hbelow, hfinished', -, -⟩ := step_cases hstep
  rcases h with hfinished | ⟨above, loop, ids, hloop, hstack⟩
  · exact Or.inl (by simp [hfinished', hfinished])
  cases hfinished : w.finished with
  | true => exact Or.inl (by simp [hfinished', hfinished])
  | false =>
    by_cases habove : above = []
    · subst habove
      rw [List.nil_append] at hstack
      rcases hloop with rfl | rfl
      · rcases starting_cases hfinished hstack hstep with ⟨-, -, hstack'⟩ |
          ⟨i, others, -, ⟨-, -, hp'⟩ | ⟨-, -, above', hstack'⟩⟩
        · exact Or.inr ⟨[], .ready, _, Or.inr rfl, by rw [hstack', hbelow]; rfl⟩
        · exact Or.inr ⟨[], .start, others, Or.inl rfl, by rw [hp', hbelow]; rfl⟩
        · exact Or.inr ⟨above', .start, others, Or.inl rfl, by rw [hstack', hbelow]⟩
      · have hpast : w.Past := Or.inr ⟨[], ids, hstack⟩
        exact (hpast.step hwf hstep).1.later
    · obtain ⟨above', hstack'⟩ := suffix_of_step hwf hstep hstack habove
      exact Or.inr ⟨above', loop, ids, hloop, by rw [hstack', hbelow]⟩

/-- When `started` is in `run()` or has returned, nothing more depends on what is to be made up
for. -/
theorem Later.meets (h : w.Later) (hwf : w.program.connector.WellFormed fun _ ↦ False)
    (es : List (Event ε)) : (machine τ callback n).Meets (Rested callback) w es := by
  refine Machine.meets_of_invariant (I := fun v : Establishing τ ↦
    (v.program.connector.WellFormed fun _ ↦ False) ∧ v.Later) (fun v e v' hv hstep ↦ ?_)
      (fun v e hv ↦ hv.2.rested) ⟨hwf, h⟩ es
  exact ⟨wellFormed_step hv.1 (step_cases hstep).1, hv.2.step hv.1 hstep⟩

/-- The first loop of `run()` starts no transceiver exactly when all that are left in it are
running. -/
theorem actions_of_starting {ids : List ℕ} (hwf : w.program.connector.WellFormed fun _ ↦ False)
    (hfinished : w.finished = false)
    (hstack : w.program.connector.stack = .forEach .start ids :: w.below)
    (hrun : (machine τ callback n).run w es = some w') (hsettled : ¬ w'.Starting) :
    w'.actions = w.actions ↔
      ∀ i ∈ w.program.connector.remaining ids, w.program.isRunning i = true := by
  induction es generalizing w ids with
  | nil =>
    obtain rfl : w = w' := Option.some.inj hrun
    exact absurd ⟨hfinished, [], ids, hstack⟩ hsettled
  | cons e es ih =>
    obtain ⟨v, hstep, hrest⟩ := Machine.run_cons_eq_some.mp hrun
    obtain ⟨hp, hbelow, hfinished', -, -⟩ := step_cases hstep
    have hwf' := wellFormed_step hwf hp
    rcases starting_cases hfinished hstack hstep with ⟨hend, hsame, hstack'⟩ |
      ⟨i, others, hcons, ⟨hrunning, hsame, hp'⟩ | ⟨hidle, hmore, -⟩⟩
    · have hpast : v.Past := Or.inr ⟨[], _, by rw [hstack', hbelow]; rfl⟩
      simp [hend, hpast.run hwf' hrest, hsame]
    · have hstack' : v.program.connector.stack = .forEach .start others :: v.below := by
        rw [hp', hbelow]
      have hlonger : v.finished = false := by simp [hfinished', hfinished, hstack', hbelow]
      have hremaining : v.program.connector.remaining others = others := by
        refine List.filter_eq_self.mpr fun j hj ↦ ?_
        have hmem : j ∈ w.program.connector.remaining ids := hcons ▸ List.mem_cons_of_mem i hj
        rw [hp']
        exact (List.mem_filter.mp hmem).2
      have hrun' : v.program.isRunning = w.program.isRunning := by
        rw [hp']
        rfl
      rw [← hsame, ih hwf' hlonger hstack' hrest, hremaining, hrun', hcons]
      simp [hrunning]
    · obtain ⟨more, hlater⟩ := actions_prefix_run hrest
      rw [hcons]
      constructor
      · intro heq
        rw [← hlater, hmore, List.append_assoc] at heq
        simpa using congrArg List.length heq
      · intro hall
        exact absurd (hidle.symm.trans (hall i List.mem_cons_self)) (by simp)

/-- `started` goes on after its callback, or without one. -/
theorem actions_of_ended {c : Connector} (hwf : w.program.connector.WellFormed fun _ ↦ False)
    (hp : w.program.connector = c.endStarted) (hbelow : c.stack = w.below)
    (hfinished : w.finished = decide (w.program.connector.stack.length ≤ w.below.length))
    (hrun : (machine τ callback n).run w es = some w') (hsettled : ¬ w'.Starting) :
    (w'.actions = w.actions ↔ ¬ (c.auto.rerun = true ∧ c.connectionHandlerReady = true ∧
      ∃ i ∈ c.transceivers, w.program.isRunning i = false)) ∧
        (machine τ callback n).Meets (Rested callback) w es := by
  by_cases hruns : c.auto.rerun = true ∧ c.connectionHandlerReady = true
  · obtain ⟨hrerun, hready⟩ := hruns
    have hstack : w.program.connector.stack = .forEach .start c.transceivers :: w.below := by
      simp [hp, Connector.endStarted, Connector.run, push, hrerun, hready, hbelow]
    have hlisted : w.program.connector.transceivers = c.transceivers := by
      simp [hp, Connector.endStarted, Connector.run, push, hrerun, hready]
    have hremaining : w.program.connector.remaining c.transceivers = c.transceivers :=
      List.filter_eq_self.mpr fun i hi ↦ by simpa [hlisted] using hi
    have hlater : w.Later := Or.inr ⟨[], .start, _, Or.inl rfl, hstack⟩
    have hlonger : w.finished = false := by simp [hfinished, hstack]
    refine ⟨?_, hlater.meets hwf es⟩
    rw [actions_of_starting hwf hlonger hstack hrun hsettled, hremaining]
    simp [hrerun, hready]
  · have hstack : w.program.connector.stack = w.below := by
      rw [hp, ← hbelow, Connector.endStarted]
      simp only
      split
      · next hrerun =>
        have hdown : c.connectionHandlerReady = false := by simpa [hrerun] using hruns
        simp [Connector.run, hdown]
      · rfl
    have hpast : w.Past := Or.inl (by simp [hfinished, hstack])
    refine ⟨?_, hpast.later.meets hwf es⟩
    simp only [hpast.run hwf hrun, true_iff]
    exact fun h ↦ hruns ⟨h.1, h.2.1⟩

/-! ### The callback -/

/-- The callback has been invoked, and has not returned to `started`. -/
structure Calling (w : Establishing τ) : Prop where
  wellFormed : w.program.connector.WellFormed fun _ ↦ False
  finished : w.finished = false
  failed : w.failed = w.program.connector.auto.rerun
  stack : ∃ above, w.program.connector.stack = above ++ .started :: w.below

/-- Whatever happens in the callback, the call of `started` does nothing, and nothing is asked of
it. -/
theorem Calling.step {above : List Frame} (h : w.Calling)
    (hstack : w.program.connector.stack = above ++ .started :: w.below) (habove : above ≠ [])
    (hstep : w.step e = some w') :
    w'.Calling ∧ w'.actions = w.actions ∧ w.Rested true e := by
  obtain ⟨hp, hbelow, hfinished', hfailed', hactions⟩ := step_cases hstep
  obtain ⟨above', hstack'⟩ := suffix_of_step h.wellFormed hstep hstack habove
  refine ⟨⟨wellFormed_step h.wellFormed hp, ?_, ?_, above', by rw [hstack', hbelow]⟩, ?_, ?_⟩
  · have hlong : ¬ w'.program.connector.stack.length ≤ w.below.length := by
      simp only [hstack', List.length_append, List.length_cons]
      omega
    simp [hfinished', h.finished, hlong]
  · rw [hfailed', h.failed, (rerun_step h.wellFormed hp).1]
  · rw [hactions, acts_of_above hstack habove]
    simp
  · refine ⟨fun hnone ↦ absurd hnone (by simp), fun _ _ hreturned ↦ ?_⟩
    have hlength := congrArg List.length (hstack.symm.trans hreturned)
    simp only [List.length_append, List.length_cons] at hlength
    exact absurd (List.length_eq_zero_iff.mp (by omega)) habove

theorem stack_endStarted (c : Connector) : c.endStarted.stack = c.stack ∨
    c.endStarted.stack = .forEach .start c.transceivers :: c.stack := by
  simp only [Connector.endStarted, Connector.run]
  split_ifs
  · exact Or.inl rfl
  · exact Or.inr rfl
  · exact Or.inl rfl

/-- The callback returns to `started`. -/
theorem step_of_returned (hstack : w.program.connector.stack = .started :: w.below)
    (hstep : w.step e = some w') :
    e = .resume ∧ w'.actions = w.actions ∧ w'.program.isRunning = w.program.isRunning ∧
      w'.program.connector =
        ({ w.program.connector with stack := w.below } : Connector).endStarted := by
  obtain ⟨hp, -, -, -, hactions⟩ := step_cases hstep
  have hpausing : w.program.pausing = false := by simp [pausing, hstack]
  cases e with
  | resume =>
    simp only [Program.step, resume, hstack, Frame.goOn, Option.map_some, Option.some.injEq] at hp
    have hp' : w'.program.connector =
        ({ w.program.connector with stack := w.below } : Connector).endStarted := by
      rw [← hp]
    have hnot : w'.program.connector.stack ≠ .client :: .started :: w.below := by
      intro hsame
      rw [hp'] at hsame
      rcases stack_endStarted { w.program.connector with stack := w.below } with hstack' | hstack'
      · have hlength := congrArg List.length (hstack'.symm.trans hsame)
        simp only [List.length_cons] at hlength
        omega
      · cases hstack'.symm.trans hsame
    refine ⟨rfl, ?_, by rw [← hp]; rfl, hp'⟩
    simp [hactions, acts, hnot, hstack]
  | parsed => simp [Program.step, hstack] at hp
  | _ => simp [Program.step, hpausing] at hp

/-- After the callback `started` does nothing more exactly when there is nothing to be made up for,
the connection has been given up, or no transceiver is idle. -/
theorem Calling.actions_eq_iff (h : w.Calling)
    (hrun : (machine τ true n).run w es = some w') (hsettled : ¬ w'.Starting) :
    w'.actions = w.actions ↔ (machine τ true n).Meets (Rested true) w es := by
  induction es generalizing w with
  | nil =>
    obtain rfl : w = w' := Option.some.inj hrun
    exact iff_of_true rfl trivial
  | cons e es ih =>
    obtain ⟨v, hstep, hrest⟩ := Machine.run_cons_eq_some.mp hrun
    have hmeets (hrested : w.Rested true e → (machine τ true n).Meets (Rested true) v es) :
        (machine τ true n).Meets (Rested true) w (e :: es) ↔ w.Rested true e :=
      ⟨fun hall ↦ hall.1, fun hfirst ↦ Machine.meets_cons hfirst hstep (hrested hfirst)⟩
    obtain ⟨above, hstack⟩ := h.stack
    by_cases habove : above = []
    · subst habove
      rw [List.nil_append] at hstack
      obtain ⟨hp, hbelow, hfinished', -, -⟩ := step_cases hstep
      obtain ⟨rfl, hsame, hrunning, hp'⟩ := step_of_returned hstack hstep
      have hended := actions_of_ended (wellFormed_step h.wellFormed hp) hp' hbelow.symm
        (by rw [hfinished', h.finished, hbelow, Bool.false_or]) hrest hsettled
      rw [hmeets fun _ ↦ hended.2, ← hsame, hended.1, hrunning]
      constructor
      · intro hnot
        refine ⟨fun hnone ↦ absurd hnone (by simp), fun _ _ _ hfailed hready hidle ↦ ?_⟩
        exact hnot ⟨h.failed ▸ hfailed, hready, hidle⟩
      · rintro hrested ⟨hrerun, hready, hidle⟩
        exact hrested.returned h.finished rfl hstack (h.failed.trans hrerun) hready hidle
    · obtain ⟨hcalling, hsame, hrested⟩ := h.step hstack habove hstep
      rw [← hsame, ih hcalling hrest]
      constructor
      · exact fun hlater ↦ Machine.meets_cons hrested hstep hlater
      · exact fun hall ↦ hall.2 v hstep

/-! ### Two first connections -/

/-- When the connection is established, `started` is called above all that is suspended. -/
theorem acts_of_connects {e : Connector.Event} {q : Program τ} :
    acts p.entered.connector.stack p (.connector e : Event ε) q =
      if q.connector.stack = .client :: .started :: p.entered.connector.stack then [.callback]
      else [] := by
  have hlength : p.connector.stack.length ≤ p.entered.connector.stack.length + 1 := by
    unfold entered
    split
    · next hstack => simp [hstack]
    · exact Nat.le_succ _
  have hnone : (match p.connector.stack with
      | .forEach .start _ :: rest => if rest = p.entered.connector.stack then
        (p.starts (.connector e : Event ε)).toList.map Action.start else []
      | _ => []) = [] := by
    split
    · simp [starts]
    · rfl
  rw [acts, hnone]
  simp [hlength]

/-- `started` does nothing but invoke the callback that was given, exactly when it comes past it, or
has none, with nothing to be made up for, or nobody to start. -/
theorem FirstConnection.actions_eq_iff {w₀ : Establishing τ}
    (h : FirstConnection callback n w₀ es w) :
    w.actions = (if callback then [.callback] else []) ↔
      (machine τ callback n).Meets (Rested callback) w₀ es := by
  obtain ⟨⟨p, hawaiting, rfl⟩, ⟨e, rest, rfl, hconnects⟩, hrun, hsettled⟩ := h
  obtain ⟨v, hstep, hrest⟩ := Machine.run_cons_eq_some.mp hrun
  obtain ⟨hp, hbelow, hfinished, hfailed, hactions⟩ := step_cases hstep
  obtain ⟨c, hp', hstack, -, hready, hlisted, hstop, hslot, hrerun⟩ :=
    hawaiting.started hconnects hp
  obtain ⟨hwf, before, htrying, hfailures⟩ := hawaiting.trying
  have hwf' := wellFormed_step hwf hp
  rw [Connector.started, hstop, if_neg Bool.false_ne_true, hslot] at hp'
  have hacts : v.actions = if v.program.connector.stack =
      .client :: .started :: p.entered.connector.stack then [.callback] else [] := by
    rw [hactions]
    exact acts_of_connects
  cases callback with
  | true =>
    rw [if_pos rfl] at hp'
    have hstack' : v.program.connector.stack =
        .client :: .started :: p.entered.connector.stack := by
      rw [hp', ← hstack]
      rfl
    have hcalling : v.Calling := by
      refine ⟨hwf', ?_, ?_, [.client], by rw [hstack', hbelow]; rfl⟩
      · rw [hfinished, hstack']
        exact decide_eq_false (by simp only [begins, List.length_cons]; omega)
      · have hset : p.connector.auto.rerun = decide (n ≠ 0) := by
          rw [Bool.eq_iff_iff, htrying.rerun]
          simp only [decide_eq_true_eq]
          omega
        have hrerun' := (rerun_step hwf hp).1
        rw [hset] at hrerun'
        exact hfailed.trans hrerun'.symm
    rw [if_pos hstack'] at hacts
    rw [if_pos rfl, ← hacts, hcalling.actions_eq_iff hrest hsettled]
    constructor
    · refine fun hlater ↦ Machine.meets_cons ⟨fun hnone ↦ absurd hnone (by simp), ?_⟩ hstep hlater
      exact fun _ he ↦ by cases he
    · exact fun hall ↦ hall.2 v hstep
  | false =>
    rw [if_neg Bool.false_ne_true] at hp'
    have hnone : v.actions = [] := by
      rw [hacts, if_neg]
      rw [hp']
      rcases stack_endStarted c with hsame | hsame <;> rw [hsame, hstack]
      · intro h
        have hlength := congrArg List.length h
        simp only [List.length_cons] at hlength
        omega
      · exact fun h ↦ by cases h
    have hpool : v.program.isRunning = p.isRunning := by
      funext i
      simp only [isRunning, (occur_of_step hp).2]
      rfl
    have hended := actions_of_ended hwf' hp' (hstack.trans hbelow.symm)
      (by rw [hfinished, hbelow]; simp [begins]) hrest hsettled
    rw [if_neg Bool.false_ne_true, ← hnone, hended.1, hpool, hrerun, hlisted]
    constructor
    · intro hnot
      refine Machine.meets_cons ⟨fun _ _ _ hn hidle ↦ ?_, fun _ he ↦ by cases he⟩ hstep hended.2
      exact hnot ⟨by simpa [begins] using hn, hready, hidle⟩
    · rintro hall ⟨hn, -, hidle⟩
      refine hall.1.connected rfl rfl ?_ (by simpa [begins] using hn) hidle
      simp only [begins, entered]
      split
      · next hsame => simp [hsame]
      · rfl

/-- Whatever the numbers of attempts that have failed, `started` does the same at two first
connections, and nothing but invoke the callback, exactly when neither has anything to be made up
for, or nobody to start. -/
theorem firstConnections_alike_iff {m : ℕ} {w₀ v₀ v : Establishing τ} {fs : List (Event ε)}
    (hfirst : FirstConnection callback n w₀ es w) (hsecond : FirstConnection callback m v₀ fs v) :
    (w.actions = v.actions ∧ w.actions = if callback then [.callback] else []) ↔
      (machine τ callback n).Meets (Rested callback) w₀ es ∧
        (machine τ callback m).Meets (Rested callback) v₀ fs := by
  rw [← hfirst.actions_eq_iff, ← hsecond.actions_eq_iff]
  constructor
  · rintro ⟨hsame, heq⟩
    exact ⟨heq, hsame.symm.trans heq⟩
  · rintro ⟨hfirst, hsecond⟩
    exact ⟨hfirst.trans hsecond.symm, hfirst⟩

/-- The application sets its exit callback. -/
def installed : List (Event Transceiver.Event) := [.connector (.onExit (some 7))]

/-- It makes a sender besides. -/
def prepared : List (Event Transceiver.Event) := .transceiver "orders" "" "" false :: installed

/-- The address of the broker is resolved at once. -/
def resolvedAtOnce : List (Event Transceiver.Event) := [.connector (.handler 0 (.resolved none))]

/-- The address is resolved when the timer has expired. -/
def resolvedLater : List (Event Transceiver.Event) :=
  [.connector (.handler 0 (.resolved (some "host not found"))), .resume, .connector .timerExpires,
    .connector .timerHandler, .connector (.handler 1 (.resolved none))]

theorem awaits_connector {p : Program Transceiver} {e : Connector.Event} (hleaves : LeavesAlone e)
    (hconnects : ∀ session, e ≠ .handler session (.connectDone none)) :
    p.Awaits (.connector e : Event Transceiver.Event) :=
  ⟨hleaves, fun ⟨session, he, _⟩ ↦ hconnects session he⟩

theorem meets_resolvedAtOnce {p : Program Transceiver} :
    (Program.machine Transceiver).Meets Awaits p resolvedAtOnce :=
  ⟨awaits_connector trivial (by simp), fun _ _ ↦ trivial⟩

/-- An attempt that fails leaves only the end of `m_shutdownCb` to come. -/
theorem meets_resolvedLater {p p₁ : Program Transceiver} {session : ℕ} {rest : List Frame}
    (hstep : p.step (.connector (.handler 0 (.resolved (some "host not found")))) = some p₁)
    (hstack : p₁.connector.stack = .shutdownCb session :: rest) :
    (Program.machine Transceiver).Meets Awaits p resolvedLater := by
  refine Machine.meets_cons (awaits_connector trivial (by simp)) hstep ⟨⟨?_, ?_⟩, fun _ _ ↦ ?_⟩
  · simp [hstack]
  · simp [due, hstack, Frame.task]
  · exact Machine.meets_of_forall_mem (by simp [Awaits, LeavesAlone, Connects])

/-- The connection of a session is established, and the callback returns at once. -/
def returning (session : ℕ) : List (Event Transceiver.Event) :=
  [.connector (.handler session (.connectDone none)), .resume, .resume]

/-- The first loop of `run()` comes to its end, with so many transceivers in it. -/
def running (k : ℕ) : List (Event Transceiver.Event) := List.replicate (k + 1) .resume

theorem rested_of_none (h : w.program.connector.transceivers = []) : w.Rested callback e := by
  have hnobody : ¬ w.program.Idle := by
    rintro ⟨i, hi, -⟩
    simp [h] at hi
  exact ⟨fun _ _ _ _ ↦ hnobody, fun _ _ _ _ _ ↦ hnobody⟩

omit [TransceiverImpl τ ε] in
theorem not_starting (h : (w.program.connector.stack.any fun
    | .forEach .start _ => true
    | _ => false) = false) : ¬ w.Starting := by
  rintro ⟨-, above, ids, hstack⟩
  simp [hstack] at h

/-- `started` does the same if one attempt has failed but there are no transceivers. -/
theorem firstConnections_alike_installed :
    ∃ w₀ w v₀ v : Establishing Transceiver, FirstConnection true 0 w₀ (returning 0) w ∧
      FirstConnection true 1 v₀ (returning 1 ++ running 0) v ∧
      w.actions = v.actions ∧ w.actions = [.callback] := by
  have hfirst : FirstConnection true 0 _ (returning 0) _ :=
    ⟨⟨_, .intro ⟨_, installed, rfl, rfl⟩ rfl rfl rfl rfl rfl meets_resolvedAtOnce rfl rfl, rfl⟩,
      ⟨_, _, rfl, 0, rfl, rfl⟩, rfl, not_starting rfl⟩
  have hsecond : FirstConnection true 1 _ (returning 1 ++ running 0) _ :=
    ⟨⟨_, .intro ⟨_, installed, rfl, rfl⟩ rfl rfl rfl rfl rfl (meets_resolvedLater rfl rfl) rfl rfl,
      rfl⟩, ⟨_, _, rfl, 1, rfl, rfl⟩, rfl, not_starting rfl⟩
  refine ⟨_, _, _, _, hfirst, hsecond, (firstConnections_alike_iff hfirst hsecond).mpr ⟨?_, ?_⟩⟩
  · exact Machine.meets_cons (rested_of_none rfl) rfl (Machine.meets_cons (rested_of_none rfl) rfl
      (Machine.meets_cons (rested_of_none rfl) rfl trivial))
  · exact Machine.meets_cons (rested_of_none rfl) rfl (Machine.meets_cons (rested_of_none rfl) rfl
      (Machine.meets_cons (rested_of_none rfl) rfl (Machine.meets_cons (rested_of_none rfl) rfl
        trivial)))

/-- After an attempt that has failed the sender is started, and otherwise it is not. -/
theorem firstConnections_differ_prepared :
    ∃ w₀ w v₀ v : Establishing Transceiver, FirstConnection true 0 w₀ (returning 0) w ∧
      FirstConnection true 1 v₀ (returning 1 ++ running 1) v ∧
      w.actions = [.callback] ∧ v.actions = [.callback, .start 0] ∧
      ¬ (w.actions = v.actions ∧ w.actions = [.callback]) := by
  refine ⟨_, _, _, _, ⟨⟨_, .intro ⟨_, prepared, rfl, rfl⟩ rfl rfl rfl rfl rfl meets_resolvedAtOnce
    rfl rfl, rfl⟩, ⟨_, _, rfl, 0, rfl, rfl⟩, rfl, not_starting rfl⟩, ⟨⟨_, .intro ⟨_, prepared,
    rfl, rfl⟩ rfl rfl rfl rfl rfl (meets_resolvedLater rfl rfl) rfl rfl, rfl⟩, ⟨_, _, rfl, 1, rfl,
    rfl⟩, rfl, not_starting rfl⟩, rfl, rfl, by decide⟩

end Establishing

end AmqpAsio
