import AmqpAsio.Connector.ConnectionLoss

/-!
# What a stop of a connector holds up

`stop()` asks the transceivers to stop and posts a handler that waits until they have. It should be
final: nothing starts a transceiver any more until the session is over. But `run()` and `open()`
look only at `m_connectionHandlerReady`, which stays true until the end of the shutdown, so they are
accepted in between, and the handler of `stop()` then waits for a transceiver that nobody asks to
stop. `AutoReconnect::started` goes on to `run()` in the same way after a `stop()` in the started
callback, and a `stop()` from within the first loop of `run()` does not end that loop. As long as
none of this happens, a `stop()` is final.
-/

set_option autoImplicit false
set_option relaxedAutoImplicit false

namespace AmqpAsio

namespace Connector

variable {c c₁ c' : Connector}

/-! ### The loops of `run` and `stop` -/

/-- The loop is the one of `stop()`. -/
def Loop.isStop : Loop → Bool
  | .stop _ => true
  | _ => false

/-- The loop is the one of `stop()`, or the one of the handler it posts. -/
def Loop.isOfStop : Loop → Bool
  | .stop _ | .stopHandler _ => true
  | _ => false

/-- The loop that a suspended call is in, and what is left of it: the first loop of `run()`, the one
of `stop()`, or the one of the handler it posts. -/
def Frame.loop : Frame → Option (Loop × List ℕ)
  | .forEach .start rest => some (.start, rest)
  | .forEach (.stop issued) rest => some (.stop issued, rest)
  | .forEach (.stopHandler issued) rest => some (.stopHandler issued, rest)
  | _ => none

/-- The loops that the suspended calls are in. -/
def loopsOf (stack : List Frame) : List (Loop × List ℕ) := stack.filterMap Frame.loop

/-- The loops that the connector is in, the innermost first. -/
def loops (c : Connector) : List (Loop × List ℕ) := loopsOf c.stack

/-- A handler posted by a `stop()` is queued or running, or a `stop()` is about to post it. -/
def outstanding (c : Connector) : Bool :=
  !c.posted.isEmpty || c.loops.any fun l ↦ l.1.isOfStop

/-- No first loop of `run()` has anything left to start. -/
def Started (stack : List Frame) : Prop := ∀ ids, (.start, ids) ∈ loopsOf stack → ids = []

/-- How many calls of `stop()` are in their loops. -/
def stops (c : Connector) : ℕ := c.loops.countP fun l ↦ l.1.isStop

/-- How many calls of `run()` are in their first loops. -/
def runs (c : Connector) : ℕ := c.loops.countP fun l ↦ l.1 = .start

theorem loops_push (c : Connector) (f : Frame) : (c.push f).loops = f.loop.toList ++ c.loops := by
  unfold loops loopsOf push
  cases h : f.loop <;> simp [h]

/-! ### What the methods do to the loops -/

/-- The loops and the posted handlers are the same. -/
structure Same (c c' : Connector) : Prop where
  posted : c'.posted = c.posted
  loops : c'.loops = c.loops

/-- The loops and the posted handlers are the same, or a `stop()` has been accepted. -/
structure Suspends (c c' : Connector) : Prop where
  posted : c'.posted = c.posted
  loops : c'.loops = c.loops ∨ ∃ issued ids, c'.loops = (.stop issued, ids) :: c.loops

/-- A method has been called: it may also have gone on to `run()`. -/
inductive Enters (c c' : Connector) : Prop
  | suspends (h : Suspends c c')
  | run (hposted : c'.posted = c.posted)
      (hstack : c'.stack = .forEach .start c.transceivers :: c.stack)

theorem Same.refl (c : Connector) : Same c c := ⟨rfl, rfl⟩

theorem Same.after (h : Same c₁ c') (hsame : Same c c₁) : Same c c' :=
  ⟨h.posted.trans hsame.posted, h.loops.trans hsame.loops⟩

theorem Same.suspends (h : Same c c') : Suspends c c' := ⟨h.posted, Or.inl h.loops⟩

theorem Suspends.after (h : Suspends c₁ c') (hsame : Same c c₁) : Suspends c c' := by
  refine ⟨h.posted.trans hsame.posted, ?_⟩
  rw [← hsame.loops]
  exact h.loops

/-- A method is called after what has left the calls alone. -/
theorem Enters.after (h : Enters c₁ c') (hposted : c₁.posted = c.posted)
    (hstack : c₁.stack = c.stack) (htransceivers : c₁.transceivers = c.transceivers) :
    Enters c c' := by
  cases h with
  | suspends h => exact .suspends (h.after ⟨hposted, congrArg loopsOf hstack⟩)
  | run hposted' hstack' =>
    refine .run (hposted'.trans hposted) ?_
    rw [hstack', hstack, htransceivers]

/-- The call of anything but these loops is suspended. -/
theorem same_push (c : Connector) {f : Frame} (hf : f.loop = none) : Same c (c.push f) :=
  ⟨rfl, by simp [loops_push, hf]⟩

/-- Such a call has returned. -/
theorem same_pop {f : Frame} {rest : List Frame} (hstack : c.stack = f :: rest)
    (hf : f.loop = none) : Same c { c with stack := rest } :=
  ⟨rfl, by simp [Connector.loops, loopsOf, hstack, hf]⟩

theorem Calls.same (h : Calls c c') : Same c c' := by
  cases h with
  | intro hstack hlog =>
    obtain ⟨added, rfl, hadded⟩ := hstack
    have hnone : loopsOf added = [] := by
      refine List.filterMap_eq_nil_iff.mpr fun f hf ↦ ?_
      have hkind := hadded f hf
      cases f with
      | forEach => cases hkind
      | _ => rfl
    refine ⟨rfl, ?_⟩
    simp only [Connector.loops, loopsOf] at hnone ⊢
    rw [List.filterMap_append, hnone, List.nil_append]

theorem same_exit (c : Connector) (session : ℕ) (code : ExitCode) :
    Same c (c.exit session code) := by
  rcases exit_cases c session code with ⟨-, heq⟩ | ⟨-, hcalls⟩
  · rw [heq]
    exact Same.refl c
  · exact hcalls.same.after ⟨rfl, rfl⟩

theorem same_disconnected_exit (c : Connector) (session : ℕ) (code : ExitCode) :
    Same c (c.disconnected.exit session code) :=
  (same_exit c.disconnected session code).after ⟨rfl, rfl⟩

theorem suspends_stop (c : Connector) : Suspends c c.stop := by
  rcases stop_cases c with ⟨-, heq⟩ | ⟨-, heq⟩
  · rw [heq]
    exact (Same.refl c).suspends
  · rw [heq]
    exact ⟨rfl, Or.inr ⟨c.session, c.transceivers, by simp [loops_push, Frame.loop]⟩⟩

theorem suspends_onShutdown (c : Connector) (session : ℕ) :
    Suspends c (c.onShutdown session) := by
  rcases onShutdown_cases c session with ⟨code, -, heq⟩ | ⟨loop, rfl | rfl, -, heq⟩ <;> rw [heq]
  · exact (same_disconnected_exit c _ _).suspends
  · exact (same_push c rfl).suspends
  · exact ⟨rfl, Or.inr ⟨c.session, c.transceivers, by simp [loops_push, Frame.loop]⟩⟩

theorem suspends_finish (c : Connector) (session : ℕ) : Suspends c (c.finish session) :=
  (suspends_onShutdown _ session).after ((same_push _ rfl).after ⟨rfl, rfl⟩)

/-- A method of a handler does not go on to `run()` unless it has connected. -/
theorem suspends_handle (c : Connector) (session : ℕ)
    {r : ConnectionHandler × ConnectionHandler.Continuation} (hr : r.2 ≠ .connectedCb) :
    Suspends c (c.handle session r) := by
  obtain ⟨v, next⟩ := r
  have hset : Same c (c.setHandler session v) := ⟨rfl, rfl⟩
  cases next
  case done => exact hset.suspends
  case connectedCb => exact absurd rfl hr
  case parse => exact ((same_push _ rfl).after hset).suspends
  case shutdownLoop =>
    simp only [handle]
    split
    · exact ((same_push _ rfl).after hset).suspends
    · exact (suspends_finish _ session).after hset
  case shutdownCb =>
    exact (suspends_onShutdown _ session).after ((same_push _ rfl).after hset)

theorem suspends_asyncStart (c : Connector) (callback : Option StartedCallback) :
    Suspends c (c.asyncStart callback) := by
  simp only [asyncStart]
  split
  · exact (Same.refl c).suspends
  · split
    · exact Same.suspends ⟨rfl, rfl⟩
    · next old _ =>
      exact (suspends_handle _ _ (ConnectionHandler.stop_ne_connectedCb old)).after ⟨rfl, rfl⟩

theorem suspends_stopHandler (c : Connector) (issued : ℕ) : Suspends c (c.stopHandler issued) := by
  unfold stopHandler
  split
  · split
    · exact (same_disconnected_exit _ _ _).suspends.after ⟨rfl, rfl⟩
    · exact (Same.refl c).suspends
  · exact (suspends_handle _ _ (ConnectionHandler.stop_ne_connectedCb _)).after ⟨rfl, rfl⟩

/-! ### Methods that go on to `run` -/

theorem enters_run (c : Connector) : Enters c c.run := by
  unfold run
  split
  · exact .suspends (Same.refl c).suspends
  · exact .run rfl rfl

theorem enters_endStarted (c : Connector) : Enters c c.endStarted := by
  simp only [endStarted]
  split
  · exact (enters_run _).after rfl rfl rfl
  · exact .suspends (Same.suspends ⟨rfl, rfl⟩)

theorem enters_callStartedCb (c : Connector) : Enters c c.callStartedCb := by
  unfold callStartedCb
  split
  · exact .suspends (Same.refl c).suspends
  · exact .suspends (same_push c rfl).suspends
  · unfold started
    split
    · exact .suspends ((suspends_stop _).after ⟨rfl, rfl⟩)
    · split
      · exact .suspends ((same_push _ rfl).after (same_push c rfl)).suspends
      · exact enters_endStarted c

theorem enters_handle (c : Connector) (session : ℕ)
    (r : ConnectionHandler × ConnectionHandler.Continuation) : Enters c (c.handle session r) := by
  obtain ⟨v, next⟩ := r
  by_cases hnext : next = .connectedCb
  · subst hnext
    exact (enters_callStartedCb _).after rfl rfl rfl
  · exact .suspends (suspends_handle c session hnext)

/-- Anything happens but the run of a handler posted by a `stop()`. -/
theorem enters_occur {e : Event} (hoccur : c.occur e = some c')
    (hposted : ∀ k, e ≠ .posted k) : Enters c c' := by
  cases e with
  | run => exact Option.some.inj hoccur ▸ enters_run c
  | asyncStart callback => exact Option.some.inj hoccur ▸ .suspends (suspends_asyncStart c _)
  | start =>
    rw [← Option.some.inj hoccur]
    unfold start
    split
    · exact .suspends (Same.refl c).suspends
    · exact .suspends ((suspends_asyncStart _ none).after (same_push c rfl))
  | stop => exact Option.some.inj hoccur ▸ .suspends (suspends_stop c)
  | remove | onExit => exact Option.some.inj hoccur ▸ .suspends (Same.suspends ⟨rfl, rfl⟩)
  | autoStart callback =>
    rw [← Option.some.inj hoccur]
    simp only [autoStart]
    split
    · exact .suspends (Same.refl c).suspends
    · exact .suspends ((suspends_asyncStart _ _).after ((same_push _ rfl).after ⟨rfl, rfl⟩))
  | autoStop =>
    rw [← Option.some.inj hoccur]
    simp only [autoStop]
    split
    · exact .suspends (Same.suspends ⟨rfl, rfl⟩)
    · split
      · exact .suspends ((suspends_stop _).after ((same_push _ rfl).after ⟨rfl, rfl⟩))
      · exact .suspends (Same.suspends ⟨rfl, rfl⟩)
  | handler session e =>
    obtain ⟨-, hoccur⟩ := Option.ite_none_right_eq_some.mp hoccur
    obtain ⟨r, -, rfl⟩ := Option.map_eq_some_iff.mp hoccur
    exact enters_handle c session r
  | posted k => exact absurd rfl (hposted k)
  | timerExpires =>
    obtain ⟨-, hoccur⟩ := Option.ite_none_right_eq_some.mp hoccur
    exact Option.some.inj hoccur ▸ .suspends (Same.suspends ⟨rfl, rfl⟩)
  | timerHandler =>
    obtain ⟨-, hoccur⟩ := Option.ite_none_left_eq_some.mp hoccur
    exact Option.some.inj hoccur ▸ .suspends ((suspends_asyncStart _ _).after ⟨rfl, rfl⟩)

end Connector

namespace Program

open Connector

variable {τ ε : Type} [TransceiverImpl τ ε] {p p' : Program τ} {e : Event ε}

/-! ### What a step does to the loops -/

theorem same_body (p : Program τ) (loop : Loop) (i : ℕ) :
    Same p.connector (p.body loop i).connector :=
  body_rule (P := Same p.connector) p loop i (Same.refl _) (same_push _ rfl)

theorem same_of_occur (he : ∀ e', e ≠ .connector e') (hoccur : p.occur e = some p') :
    Same p.connector p'.connector :=
  occur_rule (P := Same p.connector) p (Same.refl _) (fun _ _ _ _ _ ↦ ⟨rfl, rfl⟩)
    (fun hf h ↦ (same_push _ (by cases hf <;> rfl)).after h) he hoccur

/-- The do-while of `Connector::start` is not one of these loops, and nothing else changes. -/
theorem entered_cases (p : Program τ) : Same p.connector p.entered.connector ∧
    p.entered.connector.transceivers = p.connector.transceivers ∧ p.entered.pool = p.pool ∧
    p.entered.connector.connectionHandlerReady = p.connector.connectionHandlerReady := by
  unfold entered
  split
  · next ran rest hstack =>
    exact ⟨⟨rfl, by rw [Connector.loops, Connector.loops, hstack]; rfl⟩, rfl, rfl, rfl⟩
  · exact ⟨Same.refl p.connector, rfl, rfl, rfl⟩

/-- What a step does to the loops when the first loop of `run()` is not the innermost: `run()` is
accepted, or no such loop is left that was not there before. If a `stop()` has become outstanding,
it has been accepted. -/
inductive Turn (p p' : Program τ) : Prop
  | keeps
      (hloops : ∀ ids, (.start, ids) ∈ p'.connector.loops → (.start, ids) ∈ p.connector.loops)
      (hstops : p'.connector.outstanding = true →
        p.connector.outstanding = true ∨ p.connector.stops < p'.connector.stops)
  | runs {below : List Frame} (hposted : p'.connector.posted = p.connector.posted)
      (hstack : p'.connector.stack = .forEach .start p.connector.transceivers :: below)
      (hbelow : loopsOf below = p.connector.loops) (hpool : p'.pool = p.pool)

/-- A method has been called, after a loop of a `stop()` has gone on or another call has
returned. -/
theorem turn_of_suspends {c : Connector} (h : Suspends c p'.connector)
    (hsub : ∀ ids, (.start, ids) ∈ c.loops → (.start, ids) ∈ p.connector.loops)
    (hsame : p.connector.outstanding = false → Same p.connector c) : Turn p p' := by
  refine .keeps (fun ids hids ↦ hsub ids ?_) fun hstops ↦ ?_
  · rcases h.loops with hloops | ⟨issued, others, hloops⟩
    · exact hloops ▸ hids
    · simpa [hloops] using hids
  · by_cases hout : p.connector.outstanding = true
    · exact Or.inl hout
    · obtain ⟨hposted, hloops⟩ := hsame (by simpa using hout)
      right
      rcases h.loops with hsame' | ⟨issued, others, hcons⟩
      · unfold outstanding at hstops hout
        rw [h.posted, hsame', hposted, hloops] at hstops
        exact absurd hstops hout
      · simp [stops, hcons, hloops, Loop.isStop]

theorem turn_of_same (h : Same p.connector p'.connector) : Turn p p' :=
  turn_of_suspends h.suspends (fun _ hids ↦ hids) fun _ ↦ Same.refl p.connector

/-- A method has been called, after a call has returned that was in none of these loops. -/
theorem turn_of_enters {c : Connector} (hsame : Same p.connector c)
    (htransceivers : c.transceivers = p.connector.transceivers) (hpool : p'.pool = p.pool)
    (h : Enters c p'.connector) : Turn p p' := by
  cases h with
  | suspends h => exact turn_of_suspends h (hsame.loops ▸ fun _ hids ↦ hids) fun _ ↦ hsame
  | run hposted hstack =>
    exact .runs (hposted.trans hsame.posted) (htransceivers ▸ hstack) hsame.loops hpool

theorem turn_occur (hoccur : p.entered.occur e = some p') : Turn p p' := by
  obtain ⟨hsame, htransceivers, hpool, -⟩ := p.entered_cases
  cases e with
  | connector e =>
    obtain ⟨c', hc', rfl⟩ := Option.map_eq_some_iff.mp hoccur
    by_cases hposted : ∃ k, e = .posted k
    · obtain ⟨k, rfl⟩ := hposted
      obtain ⟨issued, hk, rfl⟩ := Option.map_eq_some_iff.mp hc'
      have hout : p.connector.outstanding = true := by
        rw [hsame.posted] at hk
        have hne : p.connector.posted ≠ [] := List.ne_nil_of_mem (List.mem_of_getElem? hk)
        simp [outstanding, hne]
      refine .keeps (fun ids hids ↦ ?_) fun _ ↦ Or.inl hout
      rw [← hsame.loops]
      rw [loops_push, List.mem_append] at hids
      exact hids.resolve_left (by simp [Frame.loop])
    · refine turn_of_enters hsame htransceivers hpool (enters_occur hc' fun k hk ↦ ?_)
      exact hposted ⟨k, hk⟩
  | transceiver | «open» | close | call | parsed | resume =>
    exact turn_of_same ((same_of_occur (by simp) hoccur).after hsame)

/-- A `stop()` that is in its loop, or in the one of its handler, is outstanding. -/
theorem outstanding_of_stack {c : Connector} {loop : Loop} {ids : List ℕ} {below : List Frame}
    (hstack : c.stack = .forEach loop ids :: below) (hloop : loop.isOfStop = true) :
    c.outstanding = true := by
  cases loop <;> simp_all [outstanding, Connector.loops, loopsOf, Frame.loop, Loop.isOfStop]

/-- A loop over the transceivers comes to its end. -/
theorem turn_after {c : Connector} {loop : Loop} {ids : List ℕ} {below : List Frame}
    (hstack : p.connector.stack = .forEach loop ids :: below)
    (hc : c = { p.connector with stack := below }) (hloop : loop ≠ .start)
    (hafter : p'.connector = loop.after c) : Turn p p' := by
  have hposted : c.posted = p.connector.posted := hc ▸ rfl
  have hloops : p.connector.loops = (Frame.forEach loop ids).loop.toList ++ c.loops := by
    rw [hc, Connector.loops, hstack]
    cases loop <;> rfl
  have hsub (others : List ℕ) (hothers : (.start, others) ∈ c.loops) :
      (.start, others) ∈ p.connector.loops :=
    hloops ▸ List.mem_append_right _ hothers
  have hsame (hnone : (Frame.forEach loop ids).loop = none) : Same p.connector c :=
    ⟨hposted, by simp [hloops, hnone]⟩
  cases loop with
  | stop issued =>
    refine .keeps (fun others hothers ↦ hsub others ?_) fun _ ↦
      Or.inl (outstanding_of_stack hstack rfl)
    rw [hafter] at hothers
    exact hothers
  | stopHandler issued =>
    have hout := outstanding_of_stack hstack rfl
    refine turn_of_suspends (hafter ▸ suspends_stopHandler c issued) hsub fun hnot ↦ ?_
    exact absurd (hout.symm.trans hnot) (by simp)
  | drop session =>
    exact turn_of_same (hafter ▸ (same_disconnected_exit c _ _).after (hsame rfl))
  | start => exact absurd rfl hloop
  | ready => exact turn_of_same (hafter ▸ hsame rfl)

/-- A loop over the transceivers comes to the next one. -/
theorem turn_body {c : Connector} {loop : Loop} {i : ℕ} {ids rest : List ℕ} {below : List Frame}
    (hstack : p.connector.stack = .forEach loop ids :: below)
    (hc : c = { p.connector with stack := below }) (hloop : loop ≠ .start)
    (hbody : p' = { p with connector := c.push (.forEach loop rest) }.body loop i) :
    Turn p p' := by
  have hsame : Same (c.push (.forEach loop rest)) p'.connector :=
    hbody ▸ same_body { p with connector := c.push (.forEach loop rest) } loop i
  have hposted : p'.connector.posted = p.connector.posted := hsame.posted.trans (hc ▸ rfl)
  have hloops : p.connector.loops = (Frame.forEach loop ids).loop.toList ++ c.loops := by
    rw [hc, Connector.loops, hstack]
    cases loop <;> rfl
  have hloops' : p'.connector.loops = (Frame.forEach loop rest).loop.toList ++ c.loops :=
    hsame.loops.trans (loops_push c _)
  have hofStop (hstop : loop.isOfStop = true) : Turn p p' := by
    refine .keeps (fun others hothers ↦ ?_) fun _ ↦ Or.inl (outstanding_of_stack hstack hstop)
    rw [hloops', List.mem_append] at hothers
    refine hloops ▸ List.mem_append_right _ (hothers.resolve_left ?_)
    cases loop <;> simp_all [Frame.loop, Loop.isOfStop]
  cases loop with
  | stop | stopHandler => exact hofStop rfl
  | drop | ready => exact turn_of_same ⟨hposted, hloops'.trans hloops.symm⟩
  | start => exact absurd rfl hloop

/-- A call that is in no loop over the transceivers goes on. -/
theorem turn_goOn {c : Connector} {f : Frame} (hsame : Same p.connector c)
    (htransceivers : c.transceivers = p.connector.transceivers) (hpool : p'.pool = p.pool)
    (hgoOn : f.goOn c = some p'.connector) : Turn p p' := by
  refine turn_of_enters hsame htransceivers hpool ?_
  cases f with
  | client => exact .suspends (Option.some.inj hgoOn ▸ (Same.refl c).suspends)
  | shutdownLoop session =>
    obtain ⟨-, hgoOn⟩ := Option.ite_none_left_eq_some.mp hgoOn
    exact .suspends (Option.some.inj hgoOn ▸ suspends_finish c session)
  | startLoop ran =>
    obtain ⟨-, hgoOn⟩ := Option.ite_none_right_eq_some.mp hgoOn
    exact .suspends (Option.some.inj hgoOn ▸ (Same.refl c).suspends)
  | started => exact Option.some.inj hgoOn ▸ enters_endStarted c
  | restart code => exact .suspends (Option.some.inj hgoOn ▸ (calls_restart c code).same.suspends)
  | shutdownCb | backup | autoStart | autoStop =>
    exact .suspends (Option.some.inj hgoOn ▸ Same.suspends ⟨rfl, rfl⟩)
  | parse | forEach | openLoop | closeLoop => cases hgoOn

theorem turn_resume (hother : ∀ ids below, p.connector.stack ≠ .forEach .start ids :: below)
    (hresume : p.resume = some p') : Turn p p' := by
  unfold resume at hresume
  split at hresume
  · cases hresume
  · next f below hstack =>
    simp only at hresume
    split at hresume
    · next loop ids =>
      have hloop : loop ≠ .start := fun heq ↦ hother ids below (heq ▸ hstack)
      split at hresume
      · exact turn_after hstack rfl hloop (Option.some.inj hresume ▸ rfl)
      · obtain ⟨-, hresume⟩ := Option.ite_none_left_eq_some.mp hresume
        exact turn_body hstack rfl hloop (Option.some.inj hresume).symm
    · obtain ⟨-, hresume⟩ := Option.ite_none_left_eq_some.mp hresume
      exact turn_of_same (Option.some.inj hresume ▸ same_pop hstack rfl)
    · obtain ⟨-, hresume⟩ := Option.ite_none_left_eq_some.mp hresume
      exact turn_of_same (Option.some.inj hresume ▸ same_pop hstack rfl)
    · obtain ⟨c', hgoOn, rfl⟩ := Option.map_eq_some_iff.mp hresume
      refine turn_goOn (same_pop hstack ?_) rfl rfl hgoOn
      cases f <;> first | rfl | simp_all

theorem turn_of_step (hother : ∀ ids below, p.connector.stack ≠ .forEach .start ids :: below)
    (hstep : p.step e = some p') : Turn p p' := by
  cases e with
  | resume => exact turn_resume hother hstep
  | parsed parsed expected =>
    simp only [step] at hstep
    split at hstep
    · next session rest hstack =>
      obtain ⟨r, -, rfl⟩ := Option.map_eq_some_iff.mp hstep
      exact turn_of_enters (same_pop hstack rfl) rfl rfl (enters_handle _ session r)
    · cases hstep
  | _ => exact turn_occur (Option.ite_none_right_eq_some.mp hstep).2

/-- The first loop of `run()` is not interrupted. It comes to its end or to another transceiver. -/
theorem start_of_step {ids : List ℕ} {below : List Frame}
    (hstack : p.connector.stack = .forEach .start ids :: below) (hstep : p.step e = some p') :
    e = .resume ∧ p'.connector.posted = p.connector.posted ∧
      (p'.connector.loops = loopsOf below ∨ ∃ i rest, p.connector.remaining ids = i :: rest ∧
        p'.connector.loops = (.start, rest) :: loopsOf below ∧
        (p.isRunning i = true →
          p'.connector.stack = .forEach .start rest :: below ∧ p'.pool = p.pool)) := by
  have hpausing : p.pausing = false := by
    unfold pausing
    rw [hstack]
    simp only [waitsAt]
    split <;> rfl
  cases e with
  | resume =>
    refine ⟨rfl, ?_⟩
    simp only [step, resume, hstack] at hstep
    split at hstep
    · rw [← Option.some.inj hstep]
      exact ⟨rfl, Or.inl rfl⟩
    · next i rest hcons =>
      obtain ⟨-, hstep⟩ := Option.ite_none_left_eq_some.mp hstep
      have hsame := same_body (ε := ε)
        ⟨Connector.push { p.connector with stack := below } (.forEach .start rest), p.pool⟩ .start i
      rw [Option.some.inj hstep] at hsame
      refine ⟨hsame.posted, Or.inr ⟨i, rest, hcons, hsame.loops, fun hrunning ↦ ?_⟩⟩
      have hbody := (Option.some.inj hstep).symm.trans (if_pos hrunning)
      exact ⟨hbody ▸ rfl, hbody ▸ rfl⟩
  | parsed => simp [step, hstack] at hstep
  | _ => simp [step, hpausing] at hstep

/-! ### What is started while a stop is in effect -/

/-- The transceiver that the connector starts in a step. -/
def starts (p : Program τ) : Event ε → Option ℕ
  | .open i =>
    if i ∈ p.connector.transceivers ∧ p.isRunning i = false ∧
      p.connector.connectionHandlerReady = true then some i else none
  | .resume =>
    match p.connector.stack with
    | .forEach .start rest :: _ =>
      (p.connector.remaining rest).head?.filter fun i ↦ !p.isRunning i
    | _ => none
  | _ => none

/-- The class of transceivers with another `start`. -/
@[reducible] def withStart (τ : Type) {ε : Type} [TransceiverImpl τ ε]
    (start : τ → Option ConnectionId → τ) :
    TransceiverImpl τ ε :=
  { (inferInstance : TransceiverImpl τ ε) with start := start }

/-- A step in which the connector starts no transceiver calls no `start`. -/
theorem step_withStart (start : τ → Option ConnectionId → τ) (hnone : p.starts e = none) :
    @step τ ε (withStart τ start) p e = p.step e := by
  cases e with
  | «open» i =>
    obtain ⟨-, htransceivers, hpool, hready⟩ := p.entered_cases
    have hrunning : p.entered.isRunning i = p.isRunning i := by
      unfold isRunning
      rw [hpool]
    have hopen (hmem : i ∈ p.entered.connector.transceivers) :
        ¬ (!p.entered.isRunning i && p.entered.connector.connectionHandlerReady) := by
      rw [htransceivers] at hmem
      rw [hrunning, hready]
      simpa [starts, hmem] using hnone
    simp only [step, occur]
    refine if_congr Iff.rfl (ite_congr rfl (fun hmem ↦ ?_) fun _ ↦ rfl) rfl
    unfold Program.open
    rw [if_neg (hopen hmem)]
    exact congrArg some (if_neg (hopen hmem))
  | resume =>
    by_cases hloop : ∃ ids below, p.connector.stack = .forEach .start ids :: below
    · obtain ⟨ids, below, hstack⟩ := hloop
      simp only [starts, hstack] at hnone
      simp only [step, resume, hstack]
      have hsame : ({ p.connector with stack := below } : Connector).remaining ids =
          p.connector.remaining ids := rfl
      rw [hsame]
      cases hcons : p.connector.remaining ids with
      | nil => rfl
      | cons i rest =>
        have hrunning : p.isRunning i = true := by simpa [hcons] using hnone
        change some (ite _ _ _) = some (ite _ _ _)
        exact congrArg some ((if_pos hrunning).trans (if_pos hrunning).symm)
    · simp only [step, resume]
      cases hstack : p.connector.stack with
      | nil => rfl
      | cons f below =>
        cases f with
        | forEach loop ids =>
          cases loop with
          | start => exact absurd ⟨ids, below, hstack⟩ hloop
          | _ => rfl
        | _ => rfl
  | _ => rfl

end Program

/-- A program that is watched: whether a `stop()` has been accepted in the present session, and the
transceivers that the connector has started while a `stop()` was in effect. -/
structure Watched (τ : Type) where
  program : Program τ
  stopped : Bool
  late : List ℕ

namespace Watched

open Connector Program

variable {τ ε : Type} [TransceiverImpl τ ε] {w w' : Watched τ} {e : Event ε}

/-- A `stop()` is in effect: it was accepted and its session is not over, or the handler it posts
has not come to its end. -/
def stopping (w : Watched τ) : Bool := w.stopped || w.program.connector.outstanding

/-- One event. The exit callback of a session is called with `m_connectionHandlerReady` reset. -/
def step (w : Watched τ) (e : Event ε) : Option (Watched τ) :=
  (w.program.step e).map fun p ↦ {
    program := p
    stopped := p.connector.connectionHandlerReady &&
      (w.stopped || decide (w.program.connector.stops < p.connector.stops))
    late := w.late ++ if w.stopping then (w.program.starts e).toList else [] }

/-- The runs of a watched program. -/
def machine (τ : Type) {ε : Type} [TransceiverImpl τ ε] : Machine (Watched τ) (Event ε) where
  init w := w = { program := initial τ, stopped := false, late := [] }
  step := step

/-- While a `stop()` is in effect, neither `run()` is accepted with a transceiver to start nor
`open()`, and a `stop()` is not accepted while the first loop of a `run()` has anything left. -/
structure Heeded (w : Watched τ) (e : Event ε) : Prop where
  run : w.stopping = true → ∀ p, w.program.step e = some p →
    w.program.connector.runs < p.connector.runs →
      ∀ i ∈ w.program.connector.transceivers, w.program.isRunning i = true
  «open» : w.stopping = true → ∀ i, e = .open i →
    w.program.connector.connectionHandlerReady = true → w.program.isRunning i = true
  stop : ∀ p, w.program.step e = some p → w.program.connector.stops < p.connector.stops →
    Started w.program.connector.stack

/-! ### As long as a stop is heeded -/

/-- No `run()` has a transceiver left to start: it has come to the end of its list, or it is going
through transceivers that are all running. -/
def Drained (p : Program τ) : Prop :=
  Started p.connector.stack ∨ ∃ ids below, p.connector.stack = .forEach .start ids :: below ∧
    Started below ∧ ∀ i ∈ ids, p.isRunning i = true

/-- A connector that is drained starts a transceiver only in `open()`. -/
theorem starts_of_drained {p : Program τ} (h : Drained p)
    (hopen : ∀ i, e = .open i → p.connector.connectionHandlerReady = true →
      p.isRunning i = true) : p.starts e = none := by
  cases e with
  | «open» i =>
    have hnot : ¬ (i ∈ p.connector.transceivers ∧ p.isRunning i = false ∧
        p.connector.connectionHandlerReady = true) := by
      rintro ⟨-, hstopped, hready⟩
      simp [hopen i rfl hready] at hstopped
    simp only [starts, if_neg hnot]
  | resume =>
    simp only [starts]
    split
    · next ids below hstack =>
      have hrunning : ∀ i ∈ ids, p.isRunning i = true := by
        rcases h with h | ⟨others, below', hstack', -, hall⟩
        · have hnil : ids = [] := h ids (by simp [hstack, loopsOf, Frame.loop])
          simp [hnil]
        · obtain ⟨⟨⟩, rfl⟩ := List.cons.inj (hstack.symm.trans hstack')
          exact hall
      cases hcons : p.connector.remaining ids with
      | nil => rfl
      | cons i rest =>
        have hmem : i ∈ p.connector.remaining ids := hcons ▸ List.mem_cons_self
        simp [hrunning i (List.mem_of_mem_filter hmem)]
    · rfl
  | _ => rfl

/-- A connector that is drained stays so unless a `run()` is accepted with a transceiver to
start. -/
theorem drained_step {p p' : Program τ} (h : Drained p) (hstep : p.step e = some p')
    (hrun : p.connector.runs < p'.connector.runs →
      ∀ i ∈ p.connector.transceivers, p.isRunning i = true) : Drained p' := by
  by_cases hother : ∀ ids below, p.connector.stack ≠ .forEach .start ids :: below
  · have hstarted : Started p.connector.stack := by
      refine h.resolve_right ?_
      rintro ⟨ids, below, hstack, -⟩
      exact hother ids below hstack
    cases turn_of_step hother hstep with
    | keeps hloops => exact Or.inl fun ids hids ↦ hstarted ids (hloops ids hids)
    | @runs below hposted hstack hbelow hpool =>
      have hbelow' : Started below := by
        intro ids hids
        rw [hbelow] at hids
        exact hstarted ids hids
      refine Or.inr ⟨_, below, hstack, hbelow', fun i hi ↦ ?_⟩
      have hloops : p'.connector.loops = (.start, p.connector.transceivers) ::
        p.connector.loops := by
        rw [Connector.loops, hstack, ← hbelow]
        rfl
      rw [isRunning, hpool]
      exact hrun (by simp [runs, hloops]) i hi
  · obtain ⟨ids, below, hstack⟩ : ∃ ids below, p.connector.stack = .forEach .start ids ::
      below := by
      simpa using hother
    obtain ⟨hbelow, hall⟩ : Started below ∧ ∀ i ∈ ids, p.isRunning i = true := by
      rcases h with h | ⟨others, below', hstack', hbelow, hall⟩
      · have hnil : ids = [] := h ids (by simp [hstack, loopsOf, Frame.loop])
        refine ⟨fun others hothers ↦ h others ?_, by simp [hnil]⟩
        simp only [loopsOf, hstack, List.filterMap_cons, Frame.loop]
        exact List.mem_cons_of_mem _ hothers
      · obtain ⟨⟨⟩, rfl⟩ := List.cons.inj (hstack.symm.trans hstack')
        exact ⟨hbelow, hall⟩
    obtain ⟨-, -, hend | ⟨i, rest, hcons, hloops, hrunning⟩⟩ := start_of_step hstack hstep
    · refine Or.inl fun others hothers ↦ hbelow others ?_
      rw [← hend]
      exact hothers
    · have hsub (j : ℕ) (hj : j ∈ i :: rest) : j ∈ ids := List.mem_of_mem_filter (hcons ▸ hj)
      obtain ⟨hstack', hpool⟩ := hrunning (hall i (hsub i List.mem_cons_self))
      refine Or.inr ⟨rest, below, hstack', hbelow, fun j hj ↦ ?_⟩
      rw [isRunning, hpool]
      exact hall j (hsub j (List.mem_cons_of_mem i hj))

/-- A `stop()` that has become outstanding has been accepted. -/
theorem outstanding_step {p p' : Program τ} (hstep : p.step e = some p')
    (hout : p'.connector.outstanding = true) :
    p.connector.outstanding = true ∨ p.connector.stops < p'.connector.stops := by
  by_cases hother : ∀ ids below, p.connector.stack ≠ .forEach .start ids :: below
  · cases turn_of_step hother hstep with
    | keeps hloops hstops => exact hstops hout
    | @runs below hposted hstack hbelow hpool =>
      left
      have hloops : p'.connector.loops = (.start, p.connector.transceivers) ::
        p.connector.loops := by
        rw [Connector.loops, hstack, ← hbelow]
        rfl
      rw [outstanding, hposted, hloops] at hout
      simpa [outstanding, Loop.isOfStop] using hout
  · left
    obtain ⟨ids, below, hstack⟩ : ∃ ids below, p.connector.stack = .forEach .start ids ::
      below := by
      simpa using hother
    have hloops : p.connector.loops = (.start, ids) :: loopsOf below := by
      rw [Connector.loops, hstack]
      rfl
    obtain ⟨-, hposted, hend | ⟨i, rest, -, hloops', -⟩⟩ := start_of_step hstack hstep
    · rw [outstanding, hposted, hend] at hout
      simpa [outstanding, hloops, Loop.isOfStop] using hout
    · rw [outstanding, hposted, hloops'] at hout
      simpa [outstanding, hloops, Loop.isOfStop] using hout

/-- A `stop()` is accepted while no `run()` has a transceiver left to start. -/
theorem drained_of_accepted {p p' : Program τ} (h : Started p.connector.stack)
    (hstep : p.step e = some p') (haccepted : p.connector.stops < p'.connector.stops) :
    Drained p' := by
  by_cases hother : ∀ ids below, p.connector.stack ≠ .forEach .start ids :: below
  · cases turn_of_step hother hstep with
    | keeps hloops => exact Or.inl fun ids hids ↦ h ids (hloops ids hids)
    | @runs below hposted hstack hbelow hpool =>
      have hloops : p'.connector.loops = (.start, p.connector.transceivers) ::
        p.connector.loops := by
        rw [Connector.loops, hstack, ← hbelow]
        rfl
      simp [stops, hloops, Loop.isStop] at haccepted
  · obtain ⟨ids, below, hstack⟩ : ∃ ids below, p.connector.stack = .forEach .start ids ::
      below := by
      simpa using hother
    have hloops : p.connector.loops = (.start, ids) :: loopsOf below := by
      rw [Connector.loops, hstack]
      rfl
    obtain ⟨-, -, hend | ⟨i, rest, -, hloops', -⟩⟩ := start_of_step hstack hstep
    · simp [stops, hloops, hend, Loop.isStop] at haccepted
    · simp [stops, hloops, hloops', Loop.isStop] at haccepted

/-- While a `stop()` is in effect the connector is drained, and nothing has been started late. -/
structure Final (w : Watched τ) : Prop where
  drained : w.stopping = true → Drained w.program
  late : w.late = []

theorem Final.step (h : w.Final) (hheeded : w.Heeded e) (hstep : w.step e = some w') :
    w'.Final := by
  obtain ⟨p, hp, rfl⟩ := Option.map_eq_some_iff.mp hstep
  constructor
  · intro hstopping
    have hbefore : w.stopping = true ∨ w.program.connector.stops < p.connector.stops := by
      simp only [stopping, Bool.or_eq_true, Bool.and_eq_true, decide_eq_true_eq] at hstopping ⊢
      rcases hstopping with ⟨-, hstopped | haccepted⟩ | hout
      · exact Or.inl (Or.inl hstopped)
      · exact Or.inr haccepted
      · exact (outstanding_step hp hout).imp_left Or.inr
    by_cases hstopping' : w.stopping = true
    · exact drained_step (h.drained hstopping') hp (hheeded.run hstopping' p hp)
    · have haccepted := hbefore.resolve_left hstopping'
      exact drained_of_accepted (hheeded.stop p hp haccepted) hp haccepted
  · by_cases hstopping : w.stopping = true
    · have hnone := starts_of_drained (h.drained hstopping) (hheeded.open hstopping)
      simp [h.late, hnone]
    · simp [h.late, hstopping]

/-- As long as every `stop()` is heeded, no transceiver is started while one is in effect. -/
theorem late_of_heeded (h : (machine τ).ReachedBy Heeded w) : w.late = [] := by
  have hfinal : w.Final := by
    refine h.invariant (fun w hw ↦ ?_) fun w e w' hw hheeded hstep ↦ hw.step hheeded hstep
    obtain rfl : w = _ := hw
    exact ⟨fun hstopping ↦ absurd hstopping Bool.false_ne_true, rfl⟩
  exact hfinal.late

/-- A sender has been made, the application has connected and called `stop()`, which has asked the
sender to stop and posted its handler. -/
def stopPosted : List (Event Transceiver.Event) :=
  .transceiver "exchange" "" "route" false :: connecting ++ [.connector .stop, .resume, .resume]

/-- The first attempt of a wrapped connector fails, and the started callback calls `stop()`. -/
def stoppedInCallback : List (Event Transceiver.Event) :=
  [.transceiver "exchange" "" "route" false, .connector (.autoStart true), .resume,
    .connector (.handler 0 (.resolved (some "host not found"))), .resume,
    .connector .timerExpires, .connector .timerHandler,
    .connector (.handler 1 (.resolved none)), .connector (.handler 1 (.connectDone none)),
    .connector .stop, .resume, .resume]

/-- After a `stop()`, `run()`, `open()` and `AutoReconnect::started` each start a transceiver. The
handler of the `stop()` waits for it, though nobody has asked it to stop. -/
theorem late_of_stopPosted :
    (∃ w, (machine Transceiver).run ⟨initial Transceiver, false, []⟩
      (stopPosted ++ [.connector .run, .resume, .resume, .connector (.posted 0)]) = some w ∧
        w.late = [0] ∧ exitCodes 0 w.program.connector.log = [] ∧
        w.program.isRunning 0 = true ∧ (w.program.step .resume).isNone) ∧
    (∃ w, (machine Transceiver).run ⟨initial Transceiver, false, []⟩ (stopPosted ++ [.open 0]) =
      some w ∧ w.late = [0] ∧ exitCodes 0 w.program.connector.log = []) ∧
    ∃ w, (machine Transceiver).run ⟨initial Transceiver, false, []⟩
      (stoppedInCallback ++ [.resume, .resume, .resume]) = some w ∧
        w.late = [0] ∧ exitCodes 1 w.program.connector.log = [] := by
  refine ⟨⟨_, rfl, by decide, by decide, by decide, by decide⟩, ⟨_, rfl, by decide, by decide⟩, ?_⟩
  exact ⟨_, rfl, by decide, by decide⟩

/-- The sender is opened before, and the broker answers until the session is over. -/
def stopHeeded : List (Event Transceiver.Event) :=
  opening ++ [.connector .stop, .resume, .resume, .connector (.posted 0),
    .call 0 (.callback 0 .closeChannelSuccess), .resume, .resume]

theorem heeded_of_idle (hstopping : w.stopping = false)
    (hstarted : Started w.program.connector.stack) : w.Heeded e where
  run h := absurd (hstopping.symm.trans h) Bool.false_ne_true
  «open» h := absurd (hstopping.symm.trans h) Bool.false_ne_true
  stop _ _ _ := hstarted

theorem heeded_of_no_run {p : Program τ} (hstep : w.program.step e = some p)
    (hruns : p.connector.runs ≤ w.program.connector.runs) (hopen : ∀ i, e ≠ .open i)
    (hstarted : Started w.program.connector.stack) : w.Heeded e where
  run _ other hother hlt := by
    obtain rfl : p = other := Option.some.inj (hstep.symm.trans hother)
    exact absurd hlt (Nat.not_lt.mpr hruns)
  «open» _ i hi := absurd hi (hopen i)
  stop _ _ _ := hstarted

/-- The handler of a `stop()` that is heeded comes to its end. -/
theorem late_of_stopHeeded :
    ∃ w, (machine Transceiver).run ⟨initial Transceiver, false, []⟩ stopHeeded = some w ∧
      w.stopped = true ∧ .acted 0 0 ∈ w.program.connector.log ∧ w.late = [] := by
  refine ⟨_, rfl, by decide, by decide, late_of_heeded ?_⟩
  refine ⟨_, stopHeeded, rfl, rfl, ?_⟩
  have hstarted {w : Watched Transceiver} (hloops : ∀ l ∈ w.program.connector.loops, l.1 ≠ .start) :
      Started w.program.connector.stack := fun ids hids ↦ absurd rfl (hloops _ hids)
  have hidle {w : Watched Transceiver} {e : Event Transceiver.Event} (h : w.stopping = false)
      (hloops : ∀ l ∈ w.program.connector.loops, l.1 ≠ .start) : w.Heeded e :=
    heeded_of_idle h (hstarted hloops)
  refine Machine.meets_append ?_ (rfl : (machine Transceiver).run _ opening = some _) ?_
  · refine Machine.meets_cons (hidle rfl (by decide)) rfl
      (Machine.meets_cons (hidle rfl (by decide)) rfl ?_)
    refine Machine.meets_cons (hidle rfl (by decide)) rfl
      (Machine.meets_cons (hidle rfl (by decide)) rfl ?_)
    refine Machine.meets_cons (hidle rfl (by decide)) rfl
      (Machine.meets_cons (hidle rfl (by decide)) rfl ?_)
    refine Machine.meets_cons (hidle rfl (by decide)) rfl
      (Machine.meets_cons (hidle rfl (by decide)) rfl ?_)
    refine Machine.meets_cons (hidle rfl (by decide)) rfl
      (Machine.meets_cons (hidle rfl (by decide)) rfl ?_)
    trivial
  · refine Machine.meets_cons (hidle rfl (by decide)) rfl ?_
    have hlate {w : Watched Transceiver} {e : Event Transceiver.Event} {p : Program Transceiver}
        (hstep : w.program.step e = some p) (hruns : p.connector.runs ≤ w.program.connector.runs)
        (hopen : ∀ i, e ≠ .open i) (hloops : ∀ l ∈ w.program.connector.loops, l.1 ≠ .start) :
        w.Heeded e :=
      heeded_of_no_run hstep hruns hopen (hstarted hloops)
    refine Machine.meets_cons (hlate rfl (by decide) (by simp) (by decide)) rfl ?_
    refine Machine.meets_cons (hlate rfl (by decide) (by simp) (by decide)) rfl ?_
    refine Machine.meets_cons (hlate rfl (by decide) (by simp) (by decide)) rfl ?_
    refine Machine.meets_cons (hlate rfl (by decide) (by simp) (by decide)) rfl ?_
    refine Machine.meets_cons (hlate rfl (by decide) (by simp) (by decide)) rfl ?_
    exact Machine.meets_cons (hlate rfl (by decide) (by simp) (by decide)) rfl trivial

end Watched

end AmqpAsio
