import AmqpAsio.Connector.Attempts

/-!
# The started callback of AutoReconnect

The callback given to an accepted `AutoReconnect::start` is to be invoked when a connection is first
established, unless `stop()` comes before. `started` invokes what is in `m_startedCallback` and
clears it only when the callback has returned. So a connection that is established while the
callback is running invokes it again, and a callback that is given to another `start()` in the
meantime is cleared before it has been invoked. A callback that has not been invoked before `stop()`
stays there, where the handler of a timer that had expired before can still come to it.
-/

set_option autoImplicit false
set_option relaxedAutoImplicit false

namespace AmqpAsio

namespace Connector

variable {c c₁ c' : Connector} {spent : ℕ → Prop}

/-! ### What has nothing to do with the callback -/

/-- How many calls of `AutoReconnect::started` are suspended in the callback. -/
def callbacks (c : Connector) : ℕ := c.stack.count .started

/-- Nothing has changed of what decides about the started callback, and no connection has been
established. -/
structure Apart (c c' : Connector) : Prop where
  startedCallback : c'.auto.startedCallback = c.auto.startedCallback
  needStop : c'.auto.needStop = c.auto.needStop
  startedCb : c'.startedCb = c.startedCb
  callbacks : c'.callbacks = c.callbacks
  ready : c'.connectionHandlerReady = true → c.connectionHandlerReady = true

theorem Apart.refl (c : Connector) : Apart c c := ⟨rfl, rfl, rfl, rfl, id⟩

theorem Apart.trans (hfirst : Apart c c₁) (hsecond : Apart c₁ c') : Apart c c' where
  startedCallback := hsecond.startedCallback.trans hfirst.startedCallback
  needStop := hsecond.needStop.trans hfirst.needStop
  startedCb := hsecond.startedCb.trans hfirst.startedCb
  callbacks := hsecond.callbacks.trans hfirst.callbacks
  ready h := hfirst.ready (hsecond.ready h)

theorem callbacks_push {f : Frame} (c : Connector) (hf : f ≠ .started) :
    (c.push f).callbacks = c.callbacks := List.count_cons_of_ne hf

theorem callbacks_pop {f : Frame} {rest : List Frame} (hstack : c.stack = f :: rest)
    (hf : f ≠ .started) : { c with stack := rest }.callbacks = c.callbacks := by
  unfold callbacks
  rw [hstack, List.count_cons_of_ne hf]

theorem apart_push (c : Connector) {f : Frame} (hf : f ≠ .started) : Apart c (c.push f) :=
  ⟨rfl, rfl, rfl, callbacks_push c hf, id⟩

theorem apart_pop {f : Frame} {rest : List Frame} (hstack : c.stack = f :: rest)
    (hf : f ≠ .started) : Apart c { c with stack := rest } :=
  ⟨rfl, rfl, rfl, callbacks_pop hstack hf, id⟩

theorem Calls.apart (h : Calls c c') : Apart c c' := by
  cases h with
  | intro hstack hlog =>
    obtain ⟨added, rfl, hadded⟩ := hstack
    have hnone : added.count .started = 0 := List.count_eq_zero.mpr fun hmem ↦ hadded _ hmem
    exact ⟨rfl, rfl, rfl, by simp [callbacks, hnone], id⟩

theorem apart_exit (c : Connector) (session : ℕ) (code : ExitCode) :
    Apart c (c.exit session code) := by
  have hrecord : Apart c (c.record (.exit session code)) := ⟨rfl, rfl, rfl, rfl, id⟩
  rcases exit_cases c session code with ⟨-, heq⟩ | ⟨-, hcalls⟩
  · rw [heq]
    exact Apart.refl c
  · exact hrecord.trans hcalls.apart

theorem apart_disconnected (c : Connector) : Apart c c.disconnected :=
  ⟨rfl, rfl, rfl, rfl, fun h ↦ nomatch h⟩

theorem Change.apart (h : Change c c') : Apart c c' := by
  cases h with
  | handler session v => exact ⟨rfl, rfl, rfl, rfl, id⟩
  | push hf => exact apart_push c (by rintro rfl; cases hf)
  | loop => exact apart_push c (by simp)
  | disconnected => exact apart_disconnected c
  | exit session code => exact apart_exit c session code

theorem Made.apart (h : Made c c') : Apart c c' := h.rule Apart.refl Apart.trans Change.apart

theorem apart_run (c : Connector) : Apart c c.run := by
  unfold run
  split
  · exact Apart.refl c
  · have hset : Apart c { c with sentinel := true } := ⟨rfl, rfl, rfl, rfl, id⟩
    exact hset.trans (apart_push _ (by simp))

/-- What `async_start()` of a connector that is not ready does after it has begun the session. -/
theorem apart_asyncStart (callback : Option StartedCallback)
    (hready : c.connectionHandlerReady = false) :
    Apart (c.begun callback c.handlers) (c.asyncStart callback) := by
  rcases asyncStart_eq callback hready with ⟨-, heq⟩ | ⟨-, -, heq⟩
  · exact heq ▸ Apart.refl _
  · exact heq ▸ (made_handle _ _ (ConnectionHandler.stop_ne_connectedCb _)).apart

theorem apart_stopHandler (c : Connector) (issued : ℕ) : Apart c (c.stopHandler issued) := by
  unfold stopHandler
  split
  · split
    · have hrecord : Apart c (c.record (.acted issued c.session)) := ⟨rfl, rfl, rfl, rfl, id⟩
      exact hrecord.trans ((apart_disconnected _).trans (apart_exit _ _ _))
    · exact Apart.refl c
  · have hset : Apart c { c.record (.acted issued c.session) with exiting := true } :=
      ⟨rfl, rfl, rfl, rfl, id⟩
    exact hset.trans (made_handle _ _ (ConnectionHandler.stop_ne_connectedCb _)).apart

theorem apart_after {loop : Loop} (c : Connector) : Apart c (loop.after c) := by
  cases loop with
  | stop issued => exact ⟨rfl, rfl, rfl, rfl, id⟩
  | stopHandler issued => exact apart_stopHandler c issued
  | drop session => exact (apart_disconnected c).trans (apart_exit _ session _)
  | start => exact apart_push c (by simp)
  | ready => exact Apart.refl c

/-- A suspended call other than of `started` goes on. -/
theorem apart_goOn {f : Frame} (hf : f ≠ .started) (hgoOn : f.goOn c = some c') : Apart c c' := by
  cases f with
  | client => exact Option.some.inj hgoOn ▸ Apart.refl c
  | shutdownLoop session =>
    obtain ⟨-, hgoOn⟩ := Option.ite_none_left_eq_some.mp hgoOn
    exact Option.some.inj hgoOn ▸ (made_finish c session).apart
  | shutdownCb session => exact Option.some.inj hgoOn ▸ (Change.handler session _).apart
  | startLoop ran =>
    obtain ⟨-, hgoOn⟩ := Option.ite_none_right_eq_some.mp hgoOn
    exact Option.some.inj hgoOn ▸ Apart.refl c
  | started => exact absurd rfl hf
  | restart code => exact Option.some.inj hgoOn ▸ (calls_restart c code).apart
  | backup | autoStart | autoStop => exact Option.some.inj hgoOn ▸ ⟨rfl, rfl, rfl, rfl, id⟩
  | parse | forEach | openLoop | closeLoop => cases hgoOn

/-- The event completes the connection of a handler that is waiting for it. -/
def Connects (c : Connector) (e : Event) : Prop :=
  ∃ session, e = .handler session (.connectDone none) ∧ (c.handler session).state = .eConnecting

/-- A connection that is established is that of the present attempt. The connector is then ready,
and calls `m_startedCb`. -/
theorem exists_callStartedCb {e : Event} (hsound : ∀ h ∈ c.handlers, h.Sound)
    (hothers : ∀ i, i < c.session → (c.handler i).Over) (hconnects : c.Connects e)
    (hoccur : c.occur e = some c') : c.Attempting ∧ ∃ c₁ : Connector, c' = c₁.callStartedCb ∧
      c₁.auto = c.auto ∧ c₁.startedCb = c.startedCb ∧ c₁.stack = c.stack ∧
        c₁.connectionHandlerReady = true ∧ c₁.transceivers = c.transceivers ∧
          c₁.log = c.log := by
  obtain ⟨session, rfl, hstate⟩ := hconnects
  obtain ⟨⟨hlt, -⟩, hoccur⟩ := Option.ite_none_right_eq_some.mp hoccur
  obtain ⟨r, hmethod, rfl⟩ := Option.map_eq_some_iff.mp hoccur
  have hcurrent : session = c.session := by
    by_contra hne
    have hearlier : session < c.session := by
      unfold Connector.session at hne ⊢
      omega
    rcases hothers session hearlier with hs | hs <;> cases hstate.symm.trans hs
  subst hcurrent
  obtain rfl := ConnectionHandler.connectDone_of_eConnecting hstate
    (hsound _ (handler_mem hlt)).connectedCb hmethod
  refine ⟨Or.inr hstate, _, onConnected_setHandler _ hlt, rfl, rfl, rfl, rfl, rfl, rfl⟩

/-- What an accepted `AutoReconnect::start` leaves, whether it has begun a session or not. -/
theorem autoStart_accepted (callback : Bool) (hstarted : c.auto.started = false) :
    (c.autoStart callback).auto.startedCallback = callback ∧
    (c.autoStart callback).auto.needStop = false ∧
    (c.autoStart callback).callbacks = c.callbacks ∧
    ((c.autoStart callback).connectionHandlerReady = true → c.connectionHandlerReady = true) ∧
    ((c.autoStart callback).startedCb = some .started ∨
      (c.autoStart callback).connectionHandlerReady = true) := by
  simp only [autoStart]
  rw [if_neg (by simp [hstarted])]
  set c₁ := (record _ .startAccepted).push .autoStart with hc₁
  have hcallbacks : c₁.callbacks = c.callbacks := callbacks_push _ (by simp)
  have hready₁ : c₁.connectionHandlerReady = c.connectionHandlerReady := rfl
  by_cases hready : c.connectionHandlerReady = true
  · rw [asyncStart_of_ready (hready₁.trans hready)]
    exact ⟨rfl, rfl, hcallbacks, id, Or.inr hready⟩
  · have hdown : c₁.connectionHandlerReady = false := by simpa [hready₁] using hready
    have hapart := apart_asyncStart (some .started) hdown
    exact ⟨hapart.startedCallback, hapart.needStop, hapart.callbacks.trans hcallbacks, hapart.ready,
      Or.inl hapart.startedCb⟩

/-- What an accepted `AutoReconnect::stop` leaves. -/
theorem autoStop_accepted (hstarted : c.auto.started = true) :
    c.autoStop.auto.startedCallback = c.auto.startedCallback ∧
    c.autoStop.callbacks = c.callbacks ∧
    c.autoStop.connectionHandlerReady = c.connectionHandlerReady ∧
    (c.connectionHandlerReady = false → c.autoStop.auto.needStop = true) := by
  simp only [autoStop, record, hstarted, Bool.not_true, Bool.false_eq_true, if_false]
  cases hready : c.connectionHandlerReady with
  | false => exact ⟨rfl, rfl, rfl, fun _ ↦ rfl⟩
  | true => simp [stop, push, callbacks]

/-- `m_startedCb` comes to the callback. -/
def Invokes (c : Connector) : Prop :=
  c.startedCb = some .started ∧ c.auto.needStop = false ∧ c.auto.startedCallback = true

/-- What is left when `AutoReconnect::started` returns. -/
theorem apart_endStarted (c : Connector) :
    Apart { c with auto := { c.auto with startedCallback := false } } c.endStarted := by
  simp only [endStarted]
  split
  · have hset : Apart { c with auto := { c.auto with startedCallback := false } }
        { c with auto := { c.auto with startedCallback := false, rerun := false } } :=
      ⟨rfl, rfl, rfl, rfl, id⟩
    exact hset.trans (apart_run _)
  · exact Apart.refl _

/-- What `m_startedCb` does, when it comes to the callback and when it does not. -/
theorem callStartedCb_cases (c : Connector) :
    (c.callStartedCb.auto.startedCallback = true → c.auto.startedCallback = true) ∧
    (c.callStartedCb.auto.needStop = true → c.auto.needStop = true) ∧
    c.callStartedCb.connectionHandlerReady = c.connectionHandlerReady ∧
    (c.Invokes → c.callStartedCb.callbacks = c.callbacks + 1) ∧
    (¬ c.Invokes → c.callStartedCb.callbacks = c.callbacks) := by
  unfold callStartedCb Invokes
  cases hcb : c.startedCb with
  | none => simp
  | some callback =>
    cases callback with
    | application => simp [callbacks, push]
    | started =>
      unfold started
      cases hstop : c.auto.needStop with
      | true =>
        have hapart := (made_stop { c with auto := { c.auto with needStop := false } }).apart
        simp only [if_true]
        refine ⟨fun h ↦ hapart.startedCallback.symm.trans h, by simp [hapart.needStop], ?_, by simp,
          fun _ ↦ hapart.callbacks⟩
        unfold stop
        split <;> rfl
      | false =>
        cases hslot : c.auto.startedCallback with
        | true => simp [callbacks, push, hstop, hslot]
        | false =>
          have hapart := apart_endStarted c
          simp only [Bool.false_eq_true, if_false]
          refine ⟨by simp [hapart.startedCallback], by simp [hapart.needStop, hstop], ?_, by simp,
            fun _ ↦ hapart.callbacks⟩
          simp only [endStarted, run]
          split_ifs <;> rfl

/-- An event that begins neither a session nor a cycle, ends no cycle and establishes no
connection. -/
theorem apart_occur {e : Event} (hstarts : ¬ c.StartsSession e) (hconnects : ¬ c.Connects e)
    (hstart : ∀ callback, e = .autoStart callback → c.auto.started = true)
    (hstop : e = .autoStop → c.auto.started = false) (hoccur : c.occur e = some c') :
    Apart c c' := by
  have hready (hnot : ¬ c.connectionHandlerReady = false) (callback : Option StartedCallback) :
      c.asyncStart callback = c := asyncStart_of_ready (by simpa using hnot)
  cases e with
  | remove => exact Option.some.inj hoccur ▸ ⟨rfl, rfl, rfl, rfl, id⟩
  | run => exact Option.some.inj hoccur ▸ apart_run c
  | asyncStart callback =>
    obtain rfl := Option.some.inj hoccur
    rw [hready hstarts]
    exact Apart.refl c
  | start =>
    obtain rfl := Option.some.inj hoccur
    rw [start, if_pos (by simpa [StartsSession] using hstarts)]
    exact Apart.refl c
  | stop => exact Option.some.inj hoccur ▸ (made_stop c).apart
  | onExit f => exact Option.some.inj hoccur ▸ ⟨rfl, rfl, rfl, rfl, id⟩
  | autoStart callback =>
    obtain rfl := Option.some.inj hoccur
    rw [autoStart, if_pos (hstart callback rfl)]
    exact Apart.refl c
  | autoStop =>
    obtain rfl := Option.some.inj hoccur
    have hstarted := hstop rfl
    simp only [autoStop, record, hstarted]
    exact ⟨rfl, rfl, rfl, rfl, id⟩
  | handler session e =>
    obtain ⟨⟨hlt, -⟩, hoccur⟩ := Option.ite_none_right_eq_some.mp hoccur
    obtain ⟨r, hmethod, rfl⟩ := Option.map_eq_some_iff.mp hoccur
    refine (made_handle c session fun hnext ↦ hconnects ⟨session, ?_⟩).apart
    obtain ⟨rfl, hstate⟩ := ConnectionHandler.connectDone_of_connectedCb hmethod hnext
    exact ⟨rfl, hstate⟩
  | posted k =>
    obtain ⟨issued, -, rfl⟩ := Option.map_eq_some_iff.mp hoccur
    have hset : Apart c { c with posted := c.posted.eraseIdx k } := ⟨rfl, rfl, rfl, rfl, id⟩
    exact hset.trans (apart_push _ (by simp))
  | timerExpires =>
    obtain ⟨-, hoccur⟩ := Option.ite_none_right_eq_some.mp hoccur
    exact Option.some.inj hoccur ▸ ⟨rfl, rfl, rfl, rfl, id⟩
  | timerHandler =>
    obtain ⟨-, hoccur⟩ := Option.ite_none_left_eq_some.mp hoccur
    obtain rfl := Option.some.inj hoccur
    rw [asyncStart_of_ready (by simpa [StartsSession] using hstarts)]
    exact ⟨rfl, rfl, rfl, rfl, id⟩

end Connector

namespace Program

open Connector

variable {τ ε : Type} [TransceiverImpl τ ε] {p p' : Program τ} {e : Event ε}

/-! ### Steps of a program -/

theorem apart_body (p : Program τ) (loop : Loop) (i : ℕ) :
    Apart p.connector (p.body loop i).connector :=
  body_rule (P := Apart p.connector) p loop i (Apart.refl _) (apart_push _ (by simp))

theorem apart_of_occur (he : ∀ e', e ≠ .connector e') (hoccur : p.occur e = some p') :
    Apart p.connector p'.connector :=
  occur_rule (P := Apart p.connector) p (Apart.refl _) (fun _ _ _ _ _ ↦ ⟨rfl, rfl, rfl, rfl, id⟩)
    (fun hf h ↦ h.trans (apart_push _ (by cases hf <;> simp))) he hoccur

/-- The do-while on top is entered, and nothing else changes. -/
theorem entered_eq (p : Program τ) : ∃ stack, p.entered =
    { p with connector := { p.connector with stack := stack } } ∧
      stack.count .started = p.connector.stack.count .started := by
  unfold entered
  split
  · next ran rest hstack => exact ⟨_, rfl, by rw [hstack]; simp⟩
  · exact ⟨p.connector.stack, rfl, rfl⟩

theorem apart_entered (p : Program τ) : Apart p.connector p.entered.connector := by
  obtain ⟨stack, heq, hcount⟩ := p.entered_eq
  rw [heq]
  exact ⟨rfl, rfl, rfl, hcount, id⟩

/-- The event begins a session or a cycle, ends a cycle, establishes a connection or is the return
of the started callback. -/
inductive Concerns (p : Program τ) : Event ε → Prop
  | starts {e : Connector.Event} (hstarts : p.connector.StartsSession e) : Concerns p (.connector e)
  | autoStart {callback : Bool} (hstarted : p.connector.auto.started = false) :
      Concerns p (.connector (.autoStart callback))
  | autoStop (hstarted : p.connector.auto.started = true) : Concerns p (.connector .autoStop)
  | connects {e : Connector.Event} (hconnects : p.connector.Connects e) : Concerns p (.connector e)
  | returns {rest : List Frame} (hstack : p.connector.stack = .started :: rest) :
      Concerns p .resume

/-- An event of the connector, after the do-while on top has been entered. -/
theorem exists_occur {e : Connector.Event} (hstep : p.step (.connector e) = some p') :
    ∃ stack, stack.count .started = p.connector.stack.count .started ∧
      { p.connector with stack := stack }.occur e = some p'.connector := by
  obtain ⟨stack, heq, hcount⟩ := p.entered_eq
  have hoccur := (Option.ite_none_right_eq_some.mp hstep).2
  rw [heq] at hoccur
  obtain ⟨c', hc', rfl⟩ := Option.map_eq_some_iff.mp hoccur
  exact ⟨stack, hcount, hc'⟩

theorem apart_resume (hreturns : ∀ rest, p.connector.stack ≠ .started :: rest)
    (hresume : p.resume = some p') : Apart p.connector p'.connector := by
  unfold resume at hresume
  split at hresume
  · cases hresume
  · next f rest hstack =>
    have hf : f ≠ .started := fun hf ↦ hreturns rest (hf ▸ hstack)
    have hpop := apart_pop hstack hf
    simp only at hresume
    split at hresume
    · next loop ids =>
      split at hresume
      · exact Option.some.inj hresume ▸ hpop.trans (apart_after _)
      · next i others _ =>
        obtain ⟨-, hresume⟩ := Option.ite_none_left_eq_some.mp hresume
        obtain rfl := Option.some.inj hresume
        refine hpop.trans (Apart.trans (apart_push _ (f := .forEach loop others) (by simp)) ?_)
        exact Program.apart_body { p with connector := _ } loop i
    · obtain ⟨-, hresume⟩ := Option.ite_none_left_eq_some.mp hresume
      exact Option.some.inj hresume ▸ hpop
    · obtain ⟨-, hresume⟩ := Option.ite_none_left_eq_some.mp hresume
      exact Option.some.inj hresume ▸ hpop
    · obtain ⟨c', hgoOn, rfl⟩ := Option.map_eq_some_iff.mp hresume
      exact hpop.trans (apart_goOn hf hgoOn)

/-- Every other event leaves apart what decides about the started callback. -/
theorem apart_step (hconcerns : ¬ p.Concerns e) (hstep : p.step e = some p') :
    Apart p.connector p'.connector := by
  cases e with
  | resume => exact apart_resume (fun rest hstack ↦ hconcerns (.returns hstack)) hstep
  | parsed parsed expected =>
    simp only [step] at hstep
    split at hstep
    · next session rest hstack =>
      obtain ⟨r, hparsed, rfl⟩ := Option.map_eq_some_iff.mp hstep
      refine (apart_pop hstack (by simp)).trans (made_handle _ session fun hnext ↦ ?_).apart
      exact ConnectionHandler.onParsed_ne_connectedCb hparsed hnext
    · cases hstep
  | connector e =>
    obtain ⟨stack, hcount, hoccur⟩ := exists_occur hstep
    have hentered : Apart p.connector { p.connector with stack := stack } :=
      ⟨rfl, rfl, rfl, hcount, id⟩
    refine hentered.trans (apart_occur ?_ ?_ (fun callback he ↦ ?_) (fun he ↦ ?_) hoccur)
    · exact fun h ↦ hconcerns (.starts h)
    · exact fun h ↦ hconcerns (.connects h)
    · subst he
      exact Bool.of_not_eq_false fun h ↦ hconcerns (.autoStart h)
    · subst he
      exact Bool.of_not_eq_true fun h ↦ hconcerns (.autoStop h)
  | transceiver | «open» | close | call =>
    obtain ⟨-, hoccur⟩ := Option.ite_none_right_eq_some.mp hstep
    exact p.apart_entered.trans (apart_of_occur (by simp) hoccur)

end Program

/-! ### Cycles -/

/-- What has happened in the present cycle of `AutoReconnect`, which the last accepted `start()` has
begun: whether it was given a callback, whether that has been invoked, how many calls of it have not
returned, and whether `stop()` has been called. What an earlier `start()` was given is no longer in
`m_startedCallback`. -/
structure Cycle where
  given : Bool
  invoked : Bool
  running : ℕ
  stopped : Bool
  deriving DecidableEq, Repr

/-- The callback is still to be invoked. -/
def Cycle.outstanding (k : Cycle) : Bool := k.given && !k.invoked && !k.stopped

/-- A program with the present cycle of `AutoReconnect`. -/
structure Cycling (τ : Type) where
  program : Program τ
  cycle : Cycle

namespace Cycling

open Connector Program

variable {τ ε : Type} [TransceiverImpl τ ε] {w w' : Cycling τ} {p p' : Program τ} {e : Event ε}

/-- A connection is established in a step. -/
def connects (p p' : Program τ) : Bool :=
  !p.connector.connectionHandlerReady && p'.connector.connectionHandlerReady

/-- `AutoReconnect::started` invokes the callback in a step. -/
def invokes (p p' : Program τ) : Bool := p.connector.callbacks < p'.connector.callbacks

/-- The cycle after a step. The calls of the callback return before those that were suspended when
the cycle began. -/
def next (k : Cycle) (p : Program τ) (e : Event ε) (p' : Program τ) : Cycle :=
  match e with
  | .connector (.autoStart callback) =>
    if p.connector.auto.started then k else
      { given := callback, invoked := false, running := 0, stopped := false }
  | .connector .autoStop => if p.connector.auto.started then { k with stopped := true } else k
  | _ =>
    { k with
      invoked := k.invoked || invokes p p'
      running := k.running + p'.connector.callbacks - p.connector.callbacks }

def step (w : Cycling τ) (e : Event ε) : Option (Cycling τ) :=
  (w.program.step e).map fun p ↦ { program := p, cycle := next w.cycle w.program e p }

/-- The runs of a program with its cycles. Before the first cycle no callback is given. -/
def machine (τ : Type) {ε : Type} [TransceiverImpl τ ε] : Machine (Cycling τ) (Event ε) where
  init w := w = { program := initial τ, cycle := ⟨false, false, 0, false⟩ }
  step := step

/-- The callback is invoked in a step exactly if a connection is established and it is still to be
invoked. -/
def InvokesOnce (w : Cycling τ) (e : Event ε) : Prop :=
  ∀ p, w.program.step e = some p →
    invokes w.program p = (connects w.program p && w.cycle.outstanding)

/-! ### The condition -/

/-- The callback is invoked as it should be unless one of four things happens: the started callback
returns when another `start()` has been accepted whose callback is still to be invoked; a connection
is established, and not to be stopped at once, while a call of the callback has not returned; the
handler of the timer begins a session after a `stop()` that has come before the callback, and has
been carried out; and the application calls `async_start()` or `start()` of the connector while the
callback is still to be invoked. -/
structure Undisturbed (w : Cycling τ) (e : Event ε) : Prop where
  returns : ∀ rest, e = .resume → w.program.connector.stack = .started :: rest →
    w.cycle.outstanding = false
  connects : ∀ e', e = .connector e' → w.program.connector.Connects e' →
    w.program.connector.startedCb = some .started → w.program.connector.auto.needStop = false →
      w.cycle.running = 0
  timer : e = .connector .timerHandler → w.program.connector.connectionHandlerReady = false →
    w.program.connector.auto.startedCallback = true → w.cycle.stopped = true →
      w.cycle.invoked = true ∨ w.program.connector.auto.needStop = true
  direct : ∀ callback, e = .connector (.asyncStart callback) ∨ e = .connector .start →
    w.program.connector.connectionHandlerReady = false → w.cycle.outstanding = false

/-- What holds of the callback in a run that is not disturbed. -/
structure Served (w : Cycling τ) : Prop where
  wellFormed : w.program.connector.WellFormed fun _ ↦ False
  unready : w.program.connector.Unready
  given : w.program.connector.auto.startedCallback = true → w.cycle.given = true
  kept : w.cycle.outstanding = true → w.program.connector.auto.startedCallback = true
  cleared : w.cycle.invoked = true → w.cycle.running = 0 →
    w.program.connector.auto.startedCallback = false
  asked : w.program.connector.auto.needStop = true → w.cycle.stopped = true
  attempt : w.program.connector.Attempting →
    w.program.connector.startedCb = some .started →
      w.program.connector.auto.startedCallback = true → w.cycle.stopped = true →
        w.cycle.invoked = true ∨ w.program.connector.auto.needStop = true
  direct : w.program.connector.Attempting → w.cycle.outstanding = true →
    w.program.connector.startedCb = some .started

/-- The callback has been invoked as it should be in an event, and what holds still does. -/
structure ServedBy (w : Cycling τ) (e : Event ε) (p : Program τ) : Prop where
  invokes : invokes w.program p = (connects w.program p && w.cycle.outstanding)
  served : Served { program := p, cycle := next w.cycle w.program e p }

theorem invokes_of_apart (hapart : Apart p.connector p'.connector) : invokes p p' = false := by
  simp [invokes, hapart.callbacks]

theorem connects_of_apart (hapart : Apart p.connector p'.connector) : connects p p' = false := by
  unfold connects
  cases hready : p'.connector.connectionHandlerReady with
  | false => simp
  | true => simp [hapart.ready hready]

omit [TransceiverImpl τ ε] in
/-- An event that does not concern the callback leaves the cycle alone. -/
theorem next_of_apart (k : Cycle) (hconcerns : ¬ p.Concerns e)
    (hapart : Apart p.connector p'.connector) : next k p e p' = k := by
  have hinvokes := invokes_of_apart hapart
  unfold next
  split
  · next callback =>
    rw [if_pos]
    exact Bool.of_not_eq_false fun h ↦ hconcerns (.autoStart h)
  · rw [if_neg]
    exact fun h ↦ hconcerns (.autoStop h)
  · simp [hinvokes, hapart.callbacks]

theorem Served.apart (h : w.Served) (hconcerns : ¬ w.program.Concerns e)
    (hstep : w.program.step e = some p) : w.ServedBy e p := by
  have hapart := apart_step hconcerns hstep
  have hstarts : ¬ w.program.StartsSession e := by
    rintro ⟨e', rfl, hstarts⟩
    exact hconcerns (.starts hstarts)
  have hbefore := attempting_step h.wellFormed hstarts hstep
  refine ⟨by rw [invokes_of_apart hapart, connects_of_apart hapart]; rfl, ?_⟩
  rw [next_of_apart w.cycle hconcerns hapart]
  refine ⟨wellFormed_step h.wellFormed hstep, unready_step h.wellFormed h.unready hstep, ?_, ?_, ?_,
    ?_, ?_, ?_⟩
  · exact fun hslot ↦ h.given (hapart.startedCallback.symm.trans hslot)
  · exact fun hout ↦ hapart.startedCallback.trans (h.kept hout)
  · exact fun hinvoked hreturned ↦ hapart.startedCallback.trans (h.cleared hinvoked hreturned)
  · exact fun hneed ↦ h.asked (hapart.needStop.symm.trans hneed)
  · intro hattempting hcb hslot hstopped
    simp only at hattempting hcb hslot ⊢
    rw [hapart.startedCb] at hcb
    rw [hapart.startedCallback] at hslot
    rw [hapart.needStop]
    exact h.attempt (hbefore hattempting) hcb hslot hstopped
  · exact fun hattempting hout ↦ hapart.startedCb.trans (h.direct (hbefore hattempting) hout)

/-- The started callback returns. -/
theorem Served.returned {rest : List Frame} (h : w.Served)
    (hstack : w.program.connector.stack = .started :: rest)
    (hreturns : w.cycle.outstanding = false)
    (hstep : w.program.step (.resume : Event ε) = some p) : w.ServedBy (.resume : Event ε) p := by
  have hresume : p.connector = { w.program.connector with stack := rest }.endStarted := by
    simp only [Program.step, resume, hstack, Frame.goOn, Option.map_some, Option.some.injEq]
      at hstep
    rw [← hstep]
  have hapart := apart_endStarted { w.program.connector with stack := rest }
  rw [← hresume] at hapart
  have hfewer : p.connector.callbacks ≤ w.program.connector.callbacks := by
    rw [hapart.callbacks]
    unfold callbacks
    rw [hstack]
    exact List.count_le_count_cons
  have hinvokes : invokes w.program p = false := by
    simpa [invokes] using hfewer
  have hslot : p.connector.auto.startedCallback = false := hapart.startedCallback
  refine ⟨by simp [hinvokes, hreturns], wellFormed_step h.wellFormed hstep,
    unready_step h.wellFormed h.unready hstep, ?_, ?_, ?_, ?_, ?_, ?_⟩
  all_goals simp only [next, hinvokes, Bool.or_false]
  · simp [hslot]
  · exact fun hout ↦ absurd (hreturns.symm.trans hout) Bool.false_ne_true
  · exact fun _ _ ↦ hslot
  · exact fun hneed ↦ h.asked (hapart.needStop.symm.trans hneed)
  · simp [hslot]
  · exact fun _ hout ↦ absurd (hreturns.symm.trans hout) Bool.false_ne_true

/-- A connection is established. -/
theorem Served.connected {e : Connector.Event} (h : w.Served)
    (hconnects : w.program.connector.Connects e)
    (hreturned : w.program.connector.startedCb = some .started →
      w.program.connector.auto.needStop = false → w.cycle.running = 0)
    (hstep : w.program.step (.connector e : Event ε) = some p) :
    w.ServedBy (.connector e : Event ε) p := by
  obtain ⟨stack, hcount, hoccur⟩ := exists_occur hstep
  obtain ⟨hattempting, c₁, hp, hauto, hcb, hstack, hup, -⟩ :=
    exists_callStartedCb (c := { w.program.connector with stack := stack }) h.wellFormed.sound
      h.wellFormed.others hconnects hoccur
  have hready := h.unready hattempting
  obtain ⟨hslot, hneed, hup', hcalls, hcalls'⟩ := callStartedCb_cases c₁
  rw [← hp] at hslot hneed hup' hcalls hcalls'
  have hinvokes_iff : c₁.Invokes ↔ w.program.connector.Invokes := by
    simp only [Invokes, hauto, hcb]
  have hbefore : c₁.callbacks = w.program.connector.callbacks := by
    simp only [callbacks, hstack, hcount]
  have hconnected : connects w.program p = true := by
    simp [connects, hready, hup', hup]
  have hcorrect : w.cycle.outstanding = true ↔ w.program.connector.Invokes := by
    constructor
    · intro hout
      refine ⟨h.direct hattempting hout, ?_, h.kept hout⟩
      by_contra hneed
      have hstopped := h.asked (by simpa using hneed)
      simp [Cycle.outstanding, hstopped] at hout
    · intro hinvokes
      have hgiven := h.given hinvokes.2.2
      have hnot : w.cycle.invoked = false := by
        by_contra hinvoked
        have hslot := h.cleared (by simpa using hinvoked) (hreturned hinvokes.1 hinvokes.2.1)
        exact absurd (hslot.symm.trans hinvokes.2.2) Bool.false_ne_true
      have hlive : w.cycle.stopped = false := by
        by_contra hstopped
        have hstale := h.attempt hattempting hinvokes.1 hinvokes.2.2 (by simpa using hstopped)
        simp [hnot, hinvokes.2.1] at hstale
      simp [Cycle.outstanding, hgiven, hnot, hlive]
  have hinvokes : invokes w.program p = w.cycle.outstanding := by
    rw [Bool.eq_iff_iff, hcorrect, ← hinvokes_iff]
    unfold invokes
    by_cases hcase : c₁.Invokes
    · simp [hcase, hcalls hcase, hbefore]
    · simp [hcase, hcalls' hcase, hbefore]
  have hunready := unready_step h.wellFormed h.unready hstep
  have hover (hattempting' : p.connector.Attempting) : False := by
    have hdown := hunready hattempting'
    rw [hup', hup] at hdown
    cases hdown
  have hnext : next w.cycle w.program (.connector e : Event ε) p =
      { w.cycle with
        invoked := w.cycle.invoked || w.cycle.outstanding
        running := w.cycle.running + p.connector.callbacks - w.program.connector.callbacks } := by
    obtain ⟨session, rfl, -⟩ := hconnects
    simp only [next, hinvokes]
  refine ⟨by rw [hinvokes, hconnected, Bool.true_and], ?_⟩
  rw [hnext]
  refine ⟨wellFormed_step h.wellFormed hstep, hunready, ?_, ?_, ?_, ?_, ?_, ?_⟩
  · exact fun hs ↦ h.given (hauto ▸ hslot hs)
  · intro hout
    simp only [Cycle.outstanding] at hout
    cases hg : w.cycle.given <;> cases hi : w.cycle.invoked <;> cases hs : w.cycle.stopped <;>
      simp [hg, hi, hs] at hout
  · intro hinvoked hnone
    by_cases hcase : c₁.Invokes
    · have hmore := hcalls hcase
      simp only at hnone
      omega
    · have hearlier : w.cycle.invoked = true := by
        have hnot : w.cycle.outstanding = false := by
          simpa using fun hout ↦ hcase (hinvokes_iff.mpr (hcorrect.mp hout))
        simpa [hnot] using hinvoked
      have hsame := hcalls' hcase
      have hcleared := h.cleared hearlier (by simp only at hnone; omega)
      by_contra hslot'
      have hset := hslot (by simpa using hslot')
      rw [hauto] at hset
      exact absurd (hcleared.symm.trans hset) Bool.false_ne_true
  · exact fun hs ↦ h.asked (hauto ▸ hneed hs)
  · exact fun hattempting' ↦ (hover hattempting').elim
  · exact fun hattempting' ↦ (hover hattempting').elim

/-- A session begins, other than by `AutoReconnect::start`. -/
theorem Served.begins {c₁ : Connector} {callback : Option StartedCallback} (h : w.Served)
    (hp : p.connector = c₁.asyncStart callback)
    (hnext : ∀ k, next k w.program e p = { k with
      invoked := k.invoked || invokes w.program p
      running := k.running + p.connector.callbacks - w.program.connector.callbacks })
    (hslot : c₁.auto.startedCallback = w.program.connector.auto.startedCallback)
    (hneed : c₁.auto.needStop = w.program.connector.auto.needStop)
    (hcallbacks : c₁.callbacks = w.program.connector.callbacks)
    (hready : c₁.connectionHandlerReady = false)
    (htimer : callback = some .started → w.program.connector.auto.startedCallback = true →
      w.cycle.stopped = true → w.cycle.invoked = true ∨ w.program.connector.auto.needStop = true)
    (hdirect : callback ≠ some .started → w.cycle.outstanding = false)
    (hstep : w.program.step e = some p) : w.ServedBy e p := by
  have hapart := apart_asyncStart callback hready
  rw [← hp] at hapart
  have hsame : p.connector.callbacks = w.program.connector.callbacks :=
    hapart.callbacks.trans hcallbacks
  have hinvokes : invokes w.program p = false := by simp [invokes, hsame]
  have hconnects : connects w.program p = false := by
    have hdown : p.connector.connectionHandlerReady = false := by
      by_contra hup
      exact absurd (hready.symm.trans (hapart.ready (by simpa using hup))) Bool.false_ne_true
    simp [connects, hdown]
  have hslot' : p.connector.auto.startedCallback = w.program.connector.auto.startedCallback :=
    hapart.startedCallback.trans hslot
  have hneed' : p.connector.auto.needStop = w.program.connector.auto.needStop :=
    hapart.needStop.trans hneed
  have hcb : p.connector.startedCb = callback := hapart.startedCb
  refine ⟨by rw [hinvokes, hconnects, Bool.false_and], ?_⟩
  rw [hnext, hinvokes, hsame]
  simp only [Bool.or_false, Nat.add_sub_cancel]
  refine ⟨wellFormed_step h.wellFormed hstep, unready_step h.wellFormed h.unready hstep, ?_, ?_, ?_,
    ?_, ?_, ?_⟩
  · exact fun hs ↦ h.given (hslot'.symm.trans hs)
  · exact fun hout ↦ hslot'.trans (h.kept hout)
  · exact fun hinvoked hreturned ↦ hslot'.trans (h.cleared hinvoked hreturned)
  · exact fun hs ↦ h.asked (hneed'.symm.trans hs)
  · intro _ hstarted hs hstopped
    simp only at hstarted hs ⊢
    rw [hcb] at hstarted
    rw [hslot'] at hs
    rw [hneed']
    exact htimer hstarted hs hstopped
  · intro _ hout
    by_contra hne
    simp only [hcb] at hne
    exact absurd ((hdirect hne).symm.trans hout) Bool.false_ne_true

/-- `AutoReconnect::start` is accepted. -/
theorem Served.accepted {callback : Bool} (h : w.Served)
    (hstarted : w.program.connector.auto.started = false)
    (hstep : w.program.step (.connector (.autoStart callback) : Event ε) = some p) :
    w.ServedBy (.connector (.autoStart callback) : Event ε) p := by
  obtain ⟨stack, hcount, hoccur⟩ := exists_occur hstep
  obtain ⟨hslot, hneed, hsame, hup, hcb⟩ :=
    autoStart_accepted (c := { w.program.connector with stack := stack }) callback hstarted
  rw [Option.some.inj hoccur] at hslot hneed hsame hup hcb
  have hunready := unready_step h.wellFormed h.unready hstep
  have hinvokes : invokes w.program p = false := by
    have hsame' : p.connector.callbacks = w.program.connector.callbacks := hsame.trans hcount
    simp [invokes, hsame']
  have hconnects : connects w.program p = false := by
    unfold connects
    cases hdown : p.connector.connectionHandlerReady with
    | false => simp
    | true =>
      have hready : w.program.connector.connectionHandlerReady = true := hup hdown
      simp [hready]
  refine ⟨by rw [hinvokes, hconnects, Bool.false_and], ?_⟩
  have hnext : next w.cycle w.program (.connector (.autoStart callback) : Event ε) p =
      { given := callback, invoked := false, running := 0, stopped := false } := by
    simp [next, hstarted]
  rw [hnext]
  refine ⟨wellFormed_step h.wellFormed hstep, hunready, ?_, ?_, ?_, ?_, ?_, ?_⟩
  · exact fun hs ↦ hslot.symm.trans hs
  · exact fun hout ↦ hslot.trans (by simpa [Cycle.outstanding] using hout)
  · exact fun hinvoked ↦ absurd hinvoked Bool.false_ne_true
  · exact fun hs ↦ absurd (hneed.symm.trans hs) Bool.false_ne_true
  · exact fun _ _ _ hstopped ↦ absurd hstopped Bool.false_ne_true
  · intro hattempting _
    refine hcb.resolve_right fun hup' ↦ ?_
    exact absurd ((hunready hattempting).symm.trans hup') Bool.false_ne_true

/-- `AutoReconnect::stop` is accepted. -/
theorem Served.stopped (h : w.Served) (hstarted : w.program.connector.auto.started = true)
    (hstep : w.program.step (.connector .autoStop : Event ε) = some p) :
    w.ServedBy (.connector .autoStop : Event ε) p := by
  obtain ⟨stack, hcount, hoccur⟩ := exists_occur hstep
  obtain ⟨hslot, hsame, hready, hneed⟩ :=
    autoStop_accepted (c := { w.program.connector with stack := stack }) hstarted
  rw [Option.some.inj hoccur] at hslot hsame hready hneed
  have hstarts : ¬ w.program.StartsSession (.connector .autoStop : Event ε) := by
    rintro ⟨e', he, hstarts⟩
    cases he
    exact hstarts
  have hinvokes : invokes w.program p = false := by
    have hsame' : p.connector.callbacks = w.program.connector.callbacks := hsame.trans hcount
    simp [invokes, hsame']
  have hconnects : connects w.program p = false := by
    have hready' : p.connector.connectionHandlerReady =
        w.program.connector.connectionHandlerReady := hready
    simp [connects, hready']
  refine ⟨by rw [hinvokes, hconnects, Bool.false_and], ?_⟩
  have hnext : next w.cycle w.program (.connector .autoStop : Event ε) p =
      { w.cycle with stopped := true } := by
    simp [next, hstarted]
  rw [hnext]
  refine ⟨wellFormed_step h.wellFormed hstep, unready_step h.wellFormed h.unready hstep, ?_, ?_, ?_,
    ?_, ?_, ?_⟩
  · exact fun hs ↦ h.given (hslot.symm.trans hs)
  · simp [Cycle.outstanding]
  · exact fun hinvoked hreturned ↦ hslot.trans (h.cleared hinvoked hreturned)
  · exact fun _ ↦ rfl
  · intro hattempting _ _ _
    have hbefore := attempting_step h.wellFormed hstarts hstep hattempting
    exact Or.inr (hneed (h.unready hbefore))
  · simp [Cycle.outstanding]

theorem Served.step (h : w.Served) (hundisturbed : w.Undisturbed e)
    (hstep : w.program.step e = some p) : w.ServedBy e p := by
  by_cases hconcerns : w.program.Concerns e
  · cases hconcerns with
    | autoStart hstarted => exact h.accepted hstarted hstep
    | autoStop hstarted => exact h.stopped hstarted hstep
    | connects hconnects =>
      exact h.connected hconnects (hundisturbed.connects _ rfl hconnects) hstep
    | returns hstack => exact h.returned hstack (hundisturbed.returns _ rfl hstack) hstep
    | @starts e hstarts =>
      obtain ⟨stack, hcount, hoccur⟩ := exists_occur hstep
      cases e with
      | autoStart => exact h.accepted hstarts.1 hstep
      | asyncStart callback =>
        have hdirect := hundisturbed.direct callback (Or.inl rfl) hstarts
        have hp := (Option.some.inj hoccur).symm
        refine h.begins hp (fun _ ↦ rfl) rfl rfl hcount hstarts ?_ (fun _ ↦ hdirect) hstep
        rcases callback with _ | _ | _ <;> simp
      | start =>
        have hdirect := hundisturbed.direct false (Or.inr rfl) hstarts
        have hp := (Option.some.inj hoccur).symm
        rw [Connector.start, if_neg (by simpa [Connector.StartsSession] using hstarts)] at hp
        refine h.begins hp (fun _ ↦ rfl) rfl rfl ?_ hstarts (by simp) (fun _ ↦ hdirect) hstep
        exact (callbacks_push _ (by simp)).trans hcount
      | timerHandler =>
        obtain ⟨-, hoccur⟩ := Option.ite_none_left_eq_some.mp hoccur
        have hp := (Option.some.inj hoccur).symm
        refine h.begins hp (fun _ ↦ rfl) rfl rfl hcount hstarts (fun _ ↦ ?_)
          (fun hne ↦ absurd rfl hne) hstep
        exact hundisturbed.timer rfl hstarts
      | _ => exact hstarts.elim
  · exact h.apart hconcerns hstep

/-- In every run that is not disturbed, the callback that is given to an accepted `start()` is
invoked exactly when a connection is established, it has not been invoked before and `stop()` has
not been called. -/
theorem invokesOnce_of_undisturbed (h : (machine τ).ReachedBy Undisturbed w)
    (hundisturbed : w.Undisturbed e) : w.InvokesOnce e := by
  have hserved : w.Served := by
    refine h.invariant (fun w hw ↦ ?_) fun w e w' hw hundisturbed hstep ↦ ?_
    · obtain rfl : w = _ := hw
      exact ⟨wellFormed_new, fun hattempting ↦ absurd hattempting not_attempting_new, nofun, nofun,
        nofun, nofun, nofun, nofun⟩
    · obtain ⟨p, hp, rfl⟩ := Option.map_eq_some_iff.mp hstep
      exact (hw.step hundisturbed hp).served
  exact fun p hp ↦ (hserved.step hundisturbed hp).invokes

/-- `AutoReconnect` is started with a callback, and the broker's address is resolved. -/
def resolving : List (Event Transceiver.Event) :=
  [.connector (.onExit (some 7)), .connector (.autoStart true), .resume,
    .connector (.handler 0 (.resolved none))]

/-- The first attempt succeeds. -/
def connected : Event Transceiver.Event := .connector (.handler 0 (.connectDone none))

omit [TransceiverImpl τ ε] in
/-- As long as no call of the callback is suspended and `stop()` has not been called, only a return
of an earlier callback and a direct call of the connector disturb it. -/
theorem undisturbed_of_fresh (hreturned : w.cycle.running = 0)
    (hstopped : w.cycle.stopped = false)
    (hreturns : ∀ rest, e = .resume → w.program.connector.stack ≠ .started :: rest)
    (hasync : ∀ callback, e ≠ .connector (.asyncStart callback)) (hstart : e ≠ .connector .start) :
    w.Undisturbed e where
  returns rest he hstack := absurd hstack (hreturns rest he)
  connects _ _ _ _ _ := hreturned
  timer _ _ _ h := absurd (hstopped.symm.trans h) Bool.false_ne_true
  direct callback he := he.elim (absurd · (hasync callback)) (absurd · hstart)

/-- The callback is invoked when the connection is established. -/
theorem invokesOnce_connected :
    ∃ w, (machine Transceiver).run ⟨initial Transceiver, false, false, 0, false⟩ resolving =
        some w ∧
      w.InvokesOnce connected ∧ (w.program.step connected).map (invokes w.program) = some true := by
  refine ⟨_, rfl, invokesOnce_of_undisturbed ⟨_, resolving, rfl, rfl, ?_⟩ ?_, by decide⟩
  · refine Machine.meets_cons (undisturbed_of_fresh rfl rfl (by simp) (by simp) (by simp)) rfl ?_
    refine Machine.meets_cons (undisturbed_of_fresh rfl rfl (by simp) (by simp) (by simp)) rfl ?_
    refine Machine.meets_cons (undisturbed_of_fresh rfl rfl ?_ (by simp) (by simp)) rfl ?_
    · rintro rest - ⟨⟩
    exact Machine.meets_cons (undisturbed_of_fresh rfl rfl (by simp) (by simp) (by simp))
      rfl trivial
  · exact undisturbed_of_fresh rfl rfl (by simp [connected]) (by simp [connected])
      (by simp [connected])

/-- The callback stops `AutoReconnect`, waits until the connection is closed and starts it again,
and then returns. -/
def restartedInCallback : List (Event Transceiver.Event) :=
  resolving ++ [connected, .connector .autoStop, .resume, .resume, .connector (.posted 0), .resume,
    .connector (.handler 0 (.wrote (some "aborted") 0)),
    .connector (.handler 0 (.read (some "aborted") 0 8)), .resume, .resume, .resume, .resume,
    .connector (.autoStart true), .resume, .resume, .resume,
    .connector (.handler 1 (.resolved none))]

/-- The connection is lost while the callback runs the event loop, and the retry has resolved the
address. -/
def lostInCallback : List (Event Transceiver.Event) :=
  resolving ++ [connected, .connector (.handler 0 (.onError "not allowed")),
    .connector (.handler 0 (.wrote (some "aborted") 0)),
    .connector (.handler 0 (.read (some "aborted") 0 8)), .resume, .resume, .resume,
    .connector .timerExpires, .connector .timerHandler, .connector (.handler 1 (.resolved none))]

/-- A connection is established in the second session. -/
def reconnected : Event Transceiver.Event := .connector (.handler 1 (.connectDone none))

/-- The callback of the second `start()` is not invoked when a connection is established, though
`stop()` has not been called; and a callback is invoked again that has not returned. -/
theorem not_invokesOnce_reconnected :
    (∃ w, (machine Transceiver).run ⟨initial Transceiver, false, false, 0, false⟩
      restartedInCallback = some w ∧ w.cycle = ⟨true, false, 0, false⟩ ∧
        (w.program.step reconnected).map (invokes w.program) = some false ∧
          ¬ w.InvokesOnce reconnected) ∧
    ∃ w, (machine Transceiver).run ⟨initial Transceiver, false, false, 0, false⟩ lostInCallback =
      some w ∧ w.cycle = ⟨true, true, 1, false⟩ ∧
        (w.program.step reconnected).map (invokes w.program) = some true ∧
          ¬ w.InvokesOnce reconnected := by
  refine ⟨⟨_, rfl, rfl, by decide, fun h ↦ ?_⟩, ⟨_, rfl, rfl, by decide, fun h ↦ ?_⟩⟩
  all_goals
    have hinvokes := h _ rfl
    revert hinvokes
    decide

end Cycling

end AmqpAsio
