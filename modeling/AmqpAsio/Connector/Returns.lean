import AmqpAsio.Connector.Continuing
import AmqpAsio.Connector.LiveConnection

/-!
# When open(), close() and run() return

`Connector::open` and `run` start transceivers and run the event loop until each is ready or at its
end, `close` stops one and waits for its end. What the application calls on the way may be
suspended above these loops, and transceivers that are not waited for may fail meanwhile. Each of
the methods returns nevertheless, since every answer leaves fewer until the end of its transceiver.
-/

set_option autoImplicit false
set_option relaxedAutoImplicit false

namespace AmqpAsio

namespace Program

open Connector

variable {p p' : Program Transceiver} {k : Setting} {ids : List ℕ}
  {Stage : Frame → List Transceiver → Prop} {Goal : List Transceiver → Prop}

/-! ### A loop that waits -/

/-- A frame waits for a transceiver in the list while it does not go on, and comes to a goal when it
is done. Answers do not undo what has been waited for. -/
structure WaitLoop (ids : List ℕ) (Stage : Frame → List Transceiver → Prop)
    (Goal : List Transceiver → Prop) : Prop where
  entered : ∀ f pool, Stage f pool → ∀ ran, f ≠ .startLoop ran
  goesOn : ∀ (p : Program Transceiver) f, p.connector.transceivers = ids →
    p.connector.stack = [f] → Stage f p.pool →
      (p.pausing = true ∧ isForeign f = false ∧ ∃ i ∈ ids, ∃ t, p.pool[i]? = some t ∧
        t.state ≠ .eReady ∧ t.state ≠ .eEnd) ∧ p.resume = none ∨
      ∃ stack, p.resume = some { p with connector := { p.connector with stack := stack } } ∧
        (stack = [] ∧ Goal p.pool ∨
          ∃ f', stack = [f'] ∧ Stage f' p.pool ∧ stepsOf f' < stepsOf f)
  kept : ∀ (p : Program Transceiver) f i t t' event, Stage f p.pool → p.pool[i]? = some t →
    t.Answerable → t.Answer event → t.step event = some t' → Stage f (p.update i t t').pool

/-- What answers do not undo holds on the way. -/
theorem WaitLoop.and {Kept : List Transceiver → Prop} (hwait : WaitLoop ids Stage Goal)
    (hkept : ∀ (p : Program Transceiver) i t t' event, Kept p.pool → p.pool[i]? = some t →
      t.Answerable → t.Answer event → t.step event = some t' → Kept (p.update i t t').pool) :
    WaitLoop ids (fun f pool ↦ Stage f pool ∧ Kept pool) fun pool ↦ Goal pool ∧ Kept pool where
  entered f pool h := hwait.entered f pool h.1
  goesOn p f hids hstack h := by
    refine (hwait.goesOn p f hids hstack h.1).imp_right ?_
    rintro ⟨stack, hresume, hend⟩
    refine ⟨stack, hresume, hend.imp (fun hgoal ↦ ⟨hgoal.1, hgoal.2, h.2⟩) ?_⟩
    rintro ⟨f', hframe, hstage, hless⟩
    exact ⟨f', hframe, ⟨hstage, h.2⟩, hless⟩
  kept p f i t t' event h hget ht hanswer hstep :=
    ⟨hwait.kept p f i t t' event h.1 hget ht hanswer hstep,
      hkept p i t t' event h.2 hget ht hanswer hstep⟩

/-- A method is waiting in its loop. -/
structure Loops (k : Setting) (Stage : Frame → List Transceiver → Prop) (p : Program Transceiver) :
    Prop where
  serves : Serves k p.connector
  answerable : ∀ t ∈ p.pool, t.Answerable
  posted : p.connector.posted = []
  stack : ∃ n f, p.connector.stack = List.replicate n .client ++ [f] ∧ Stage f p.pool

theorem Loops.entered (h : Loops k Stage p) (hwait : WaitLoop k.transceivers Stage Goal)
    (hloop : p.InLoop) : p.entered = p := by
  obtain ⟨n, f, hstack, hstage⟩ := h.stack
  obtain rfl := eq_nil_of_inLoop hloop hstack
  unfold Program.entered
  rw [hstack]
  split
  · next hstart => exact absurd (List.cons.inj hstart).1 (hwait.entered f _ hstage _)
  · rfl

theorem Loops.exists_continues (h : Loops k Stage p) (hwait : WaitLoop k.transceivers Stage Goal) :
    ∃ e, Continues p e := by
  obtain ⟨n, f, hstack, hstage⟩ := h.stack
  cases n with
  | succ n => exact ⟨.resume, .resume (by simp [resume_client hstack])⟩
  | zero =>
    rcases hwait.goesOn p f h.serves.transceivers hstack hstage with
      ⟨⟨hpausing, hforeign, i, hi, t, hget, hready, hrunning⟩, -⟩ | ⟨stack, hresume, -⟩
    · have hloop : p.InLoop := ⟨hpausing, by simpa [hstack] using hforeign⟩
      exact exists_continues_of_running h.serves h.answerable hloop hi hget hready hrunning
    · exact ⟨.resume, .resume (by simp [hresume])⟩

theorem Loops.resume (h : Loops k Stage p) (hwait : WaitLoop k.transceivers Stage Goal)
    (hresume : p.resume ≠ none) :
    ∃ p', p.resume = some p' ∧
      ((Serves k p'.connector ∧ p'.connector.posted = [] ∧ p'.connector.stack = [] ∧ Goal p'.pool) ∨
        Loops k Stage p' ∧ p'.load < p.load) := by
  obtain ⟨n, f, hstack, hstage⟩ := h.stack
  cases n with
  | succ n =>
    refine ⟨_, resume_client hstack, Or.inr ⟨?_, load_stack ?_⟩⟩
    · exact ⟨h.serves.of_eq rfl rfl, h.answerable, h.posted, n, f, rfl, hstage⟩
    · simp [steps, hstack, List.replicate_succ, stepsOf]
  | zero =>
    rcases hwait.goesOn p f h.serves.transceivers hstack hstage with
      ⟨-, hnone⟩ | ⟨stack, hgoes, ⟨rfl, hgoal⟩ | ⟨f', rfl, hstage', hless⟩⟩
    · exact absurd hnone hresume
    · exact ⟨_, hgoes, Or.inl ⟨h.serves.of_eq rfl rfl, h.posted, rfl, hgoal⟩⟩
    · refine ⟨_, hgoes, Or.inr ⟨?_, load_stack ?_⟩⟩
      · exact ⟨h.serves.of_eq rfl rfl, h.answerable, h.posted, 0, f', rfl, hstage'⟩
      · simpa [steps, hstack] using hless

theorem Loops.answer {i : ℕ} {t : Transceiver} {event : Transceiver.Event}
    (h : Loops k Stage p) (hwait : WaitLoop k.transceivers Stage Goal) (hloop : p.InLoop)
    (hi : i ∈ k.transceivers) (hget : p.pool[i]? = some t) (hanswer : t.Answer event) :
    ∃ p', p.step (.call i event) = some p' ∧ Loops k Stage p' ∧ p'.load < p.load := by
  have ht := h.answerable t (List.mem_of_getElem? hget)
  obtain ⟨t', ht', hstep, hanswerable, hless⟩ := exists_answered h.serves h.answerable hloop
    (h.entered hwait hloop) hi hget hanswer
  have hconnector := p.connector_update i t t'
  obtain ⟨n, f, hstack, hstage⟩ := h.stack
  obtain ⟨m, hstack'⟩ := exists_stack_operation hconnector hstack
  refine ⟨_, hstep, ⟨h.serves.operation hconnector, hanswerable, ?_, m, f, hstack', ?_⟩, hless⟩
  · rw [posted_operation hconnector]
    exact h.posted
  · exact hwait.kept p f i t t' event hstage hget ht hanswer ht'

/-- A loop that waits comes to its goal, if nothing else may happen meanwhile. -/
theorem Loops.within {may : Program Transceiver → Event Transceiver.Event → Prop} {n : ℕ}
    (h : Loops k Stage p) (hwait : WaitLoop k.transceivers Stage Goal)
    (hmay : ∀ q e, Loops k Stage q → (may q e ↔ Continues q e)) (hn : p.load ≤ n) :
    (machine Transceiver).Within may
      (fun q ↦ Serves k q.connector ∧ q.connector.posted = [] ∧ q.connector.stack = [] ∧
        Goal q.pool) (n + 1) p := by
  refine Machine.within_succ_of_measure (I := Loops k Stage) load ?_ ?_ h hn
  · intro p h _
    obtain ⟨e, he⟩ := h.exists_continues hwait
    exact ⟨e, (hmay p e h).mpr he⟩
  · intro p e h _ he
    cases (hmay p e h).mp he with
    | resume hresume => exact h.resume hwait hresume
    | posted hloop hk => simp [h.posted] at hk
    | answer hloop hup hi hget hanswer =>
      obtain ⟨p', hstep, hlater⟩ :=
        h.answer hwait hloop (h.serves.transceivers ▸ hi) hget hanswer
      exact ⟨p', hstep, Or.inr hlater⟩
    | aborted hloop hdown => exact absurd hdown h.serves.not_shutdown

/-! ### What is waited for -/

/-- A loop does not wait for a transceiver that has been set up. -/
theorem setUp_of_not_starting {i : ℕ} (h : p.isStarting i = false) :
    Holds i Transceiver.SetUp p.pool := by
  intro t hget
  have hnot : (t.isRunning && !t.ready) = false := by
    rw [Program.isStarting, hget] at h
    exact h
  by_cases hend : t.state = .eEnd
  · exact Or.inr (by simp [hend, Transceiver.State.beforeShutdown])
  · exact Or.inl (by simpa [Transceiver.isRunning, Transceiver.ready, hend] using hnot)

/-- A loop waits for a transceiver that is being set up. -/
theorem exists_of_starting {i : ℕ} (h : p.isStarting i = true) :
    ∃ t, p.pool[i]? = some t ∧ t.state ≠ .eReady ∧ t.state ≠ .eEnd := by
  obtain ⟨t, hget, ht⟩ := (Option.any_eq_true _ _).mp h
  have hstarting : (t.isRunning && !t.ready) = true := ht
  refine ⟨t, hget, ?_⟩
  simpa [Transceiver.isRunning, Transceiver.ready, and_comm] using hstarting

/-- `open()` is in its loop. -/
def OpenStage (i : ℕ) (f : Frame) (_ : List Transceiver) : Prop := f = .openLoop i

/-- `close()` is in its loop, and the transceiver is stopping. -/
def CloseStage (i : ℕ) (f : Frame) (pool : List Transceiver) : Prop :=
  f = .closeLoop i ∧ Holds i (fun t ↦ t.state.beforeShutdown = false) pool

/-- `run()` is in its second loop, and a transceiver that it has come to is set up. -/
def RunStage (ids : List ℕ) (f : Frame) (pool : List Transceiver) : Prop :=
  ∃ rest, f = .forEach .ready rest ∧
    Visits (fun _ _ ↦ True) (fun _ ↦ Transceiver.SetUp) ids rest pool

theorem waitLoop_open {i : ℕ} (hi : i ∈ ids) :
    WaitLoop ids (OpenStage i) (Holds i Transceiver.SetUp) where
  entered := by
    rintro f pool rfl ran hstart
    cases hstart
  goesOn := by
    rintro p f hids hstack rfl
    have hgoes : p.resume = if p.isStarting i then none
        else some { p with connector := { p.connector with stack := [] } } := by
      simp only [Program.resume, hstack]
      rfl
    cases hstarting : p.isStarting i with
    | true =>
      obtain ⟨t, hget, hready, hrunning⟩ := exists_of_starting hstarting
      refine Or.inl ⟨⟨?_, rfl, i, hi, t, hget, hready, hrunning⟩, ?_⟩
      · simp [pausing, hstack, hstarting]
      · simp [hgoes, hstarting]
    | false =>
      refine Or.inr ⟨[], ?_, Or.inl ⟨rfl, setUp_of_not_starting hstarting⟩⟩
      simp [hgoes, hstarting]
  kept := by
    rintro p f j t t' event rfl - - - -
    rfl

theorem waitLoop_close {i : ℕ} (hi : i ∈ ids) :
    WaitLoop ids (CloseStage i) (Holds i fun t ↦ t.state = .eEnd) where
  entered := by
    rintro f pool ⟨rfl, -⟩ ran hstart
    cases hstart
  goesOn := by
    rintro p f hids hstack ⟨rfl, hdown⟩
    have hgoes : p.resume = if p.isRunning i then none
        else some { p with connector := { p.connector with stack := [] } } := by
      simp only [Program.resume, hstack]
      rfl
    cases hrunning : p.isRunning i with
    | true =>
      obtain ⟨t, hget, ht⟩ : ∃ t, p.pool[i]? = some t ∧ t.isRunning = true :=
        (Option.any_eq_true _ _).mp hrunning
      have hready : t.state ≠ .eReady := by
        intro hready
        simpa [hready, Transceiver.State.beforeShutdown] using hdown t hget
      have hend : t.state ≠ .eEnd := by simpa [Transceiver.isRunning] using ht
      refine Or.inl ⟨⟨?_, rfl, i, hi, t, hget, hready, hend⟩, ?_⟩
      · simp [pausing, hstack, hrunning]
      · simp [hgoes, hrunning]
    | false =>
      refine Or.inr ⟨[], ?_, Or.inl ⟨rfl, fun t hget ↦ ?_⟩⟩
      · simp [hgoes, hrunning]
      · rw [Program.isRunning, hget] at hrunning
        have ht : t.isRunning = false := hrunning
        simpa [Transceiver.isRunning] using ht
  kept := by
    rintro p f j t t' event ⟨rfl, hdown⟩ hget ht hanswer hstep
    refine ⟨rfl, hdown.update hget fun hdown ↦ ?_⟩
    exact Transceiver.beforeShutdown_step (hanswer.running ht.attended.well) hdown hstep

theorem waitLoop_run :
    WaitLoop ids (RunStage ids) (fun pool ↦ ∀ i ∈ ids, Holds i Transceiver.SetUp pool) where
  entered := by
    rintro f pool ⟨rest, rfl, -⟩ ran hstart
    cases hstart
  goesOn := by
    rintro p f hids hstack ⟨rest, rfl, hvisits⟩
    have hgoes := resume_forEach hstack
    cases hremaining : p.connector.remaining rest with
    | nil =>
      simp only [hremaining] at hgoes
      exact Or.inr ⟨[], hgoes, Or.inl ⟨rfl, hvisits.done hids hremaining⟩⟩
    | cons i others =>
      simp only [hremaining] at hgoes
      have hi : i ∈ ids := hids ▸ mem_of_remaining hremaining
      cases hwaits : p.waitsAt .ready i with
      | true =>
        obtain ⟨t, hget, hready, hrunning⟩ := exists_of_starting hwaits
        refine Or.inl ⟨⟨?_, rfl, i, hi, t, hget, hready, hrunning⟩, ?_⟩
        · simp [pausing, hstack, hremaining, hwaits]
        · simp [hgoes, hwaits]
      | false =>
        rw [hwaits, if_neg (by simp)] at hgoes
        have hnext := hvisits.next hids hremaining (fun _ _ ↦ rfl) fun _ ↦
          setUp_of_not_starting hwaits
        exact Or.inr ⟨_, hgoes, Or.inr ⟨_, rfl, ⟨others, rfl, hnext⟩,
          length_of_remaining hremaining⟩⟩
  kept := by
    rintro p f j t t' event ⟨rest, rfl, hvisits⟩ hget ht hanswer hstep
    refine ⟨rest, rfl, fun i hi ↦ (hvisits i hi).imp ?_ fun hsetUp ↦ ?_⟩
    · exact fun hrest ↦ ⟨hrest.1, fun _ _ ↦ trivial⟩
    · exact hsetUp.update hget fun hsetUp ↦ ht.setUp_step hsetUp hanswer hstep

/-! ### open() and close() -/

/-- A transceiver is called, and then the event loop is run. -/
theorem loops_operate {f : Frame} {i : ℕ} {g : Transceiver → Transceiver}
    (hstack : p.connector.stack = []) (hposted : p.connector.posted = [])
    (hstate : p.connector.connectionHandler.state = .eReady)
    (hp' : p' = operate { p with connector := p.connector.push f } i g)
    (hanswerable : ∀ t ∈ p'.pool, t.Answerable) (hstage : Stage f p'.pool) :
    Loops (settingOf p.connector) Stage p' ∧ p'.steps ≤ stepsOf f + 1 := by
  have hconnector := connector_operate { p with connector := p.connector.push f } i g
  have hframe : (p.connector.push f).stack = [f] := by simp [push, hstack]
  have hserves : Serves (settingOf p.connector) (p.connector.push f) := ⟨rfl, hstate⟩
  obtain ⟨m, hstack'⟩ := exists_stack_operation (n := 0) hconnector hframe
  rw [← hp'] at hconnector hstack'
  constructor
  · refine ⟨hserves.operation hconnector, hanswerable, ?_, m, f, hstack', hstage⟩
    rw [posted_operation hconnector]
    exact hposted
  · rcases hconnector with heq | heq
    · simp [steps, heq, hframe]
    · simp [steps, heq, push, hstack, stepsOf, Nat.add_comm]

/-- What is left to do in a loop over the transceivers. -/
theorem Loops.load_le (h : Loops k Stage p) {n : ℕ} (hsteps : p.steps ≤ n) :
    p.load ≤ 30 * k.transceivers.length + n := by
  have hleft : (k.transceivers.map p.leftOf).sum ≤ k.transceivers.length * 15 := by
    refine sum_leftOf_le fun i hi ↦ leftOf_le fun t hget ↦ ?_
    have hle := (h.answerable t (List.mem_of_getElem? hget)).left_le
    split at hle <;> omega
  rw [load, h.serves.transceivers, h.posted]
  simp
  omega

/-- `open()` returns, and its transceiver is ready then, in its teardown, or at its end. -/
theorem open_returns_of_reachedBy {i : ℕ} (h : (machine Transceiver).ReachedBy Faithful p)
    (hstack : p.connector.stack = []) (hposted : p.connector.posted = [])
    (hready : p.connector.connectionHandlerReady = true)
    (hstate : p.connector.connectionHandler.state = .eReady) (hi : i ∈ p.connector.transceivers)
    (hrunning : p.isRunning i = false) :
    ∃ p', p.step (.open i) = some p' ∧ (machine Transceiver).Within Continues
      (fun q ↦ q.connector.stack = [] ∧ Holds i Transceiver.SetUp q.pool)
      (30 * p.connector.transceivers.length + 2) p' := by
  let p₁ : Program Transceiver := { p with connector := p.connector.push (.openLoop i) }
  let p' := p₁.operate i (TransceiverImpl.start · p.connector.amqpConnection)
  have hstep : p.step (.open i) = some p' := by
    simp [Program.step, crashes, pausing, hstack, entered, occur, hi, Program.open, hrunning,
      hready, p', p₁]
  have hanswerable := answerable_of_reachedBy h
  have hstage : OpenStage i (.openLoop i) p'.pool := rfl
  obtain ⟨hloops, hsteps⟩ := loops_operate hstack hposted hstate (show p' = _ from rfl)
    (answerable_start (p := p₁) hanswerable _) hstage
  have hwithin := hloops.within (waitLoop_open hi) (fun _ _ _ ↦ Iff.rfl) (hloops.load_le hsteps)
  exact ⟨p', hstep, hwithin.imp fun q hq ↦ hq.2.2⟩

/-- A sender is made, and the connection is established. -/
theorem meets_made :
    (machine Transceiver).Meets Faithful (initial Transceiver) (opening.take 6) := by
  refine Machine.meets_of_forall_mem fun e he p ↦ faithful_of_not_call fun i event h ↦ ?_
  subst h
  simp [opening, connecting] at he

/-- With one sender, `open()` returns within thirty-two events. -/
theorem open_returns_opening :
    ∃ p p', (machine Transceiver).run (initial Transceiver) (opening.take 6) = some p ∧
      p.step (.open 0) = some p' ∧ (machine Transceiver).Within Continues
        (fun q ↦ q.connector.stack = [] ∧ Holds 0 Transceiver.SetUp q.pool) 32 p' := by
  obtain ⟨p', hstep, hwithin⟩ := open_returns_of_reachedBy (i := 0)
    ⟨_, opening.take 6, rfl, rfl, meets_made⟩ rfl rfl rfl rfl (by decide) (by decide)
  exact ⟨_, p', rfl, hstep, hwithin⟩

/-- `close()` returns, and its transceiver is at its end then. -/
theorem close_returns_of_reachedBy {i : ℕ} (h : (machine Transceiver).ReachedBy Faithful p)
    (hstack : p.connector.stack = []) (hposted : p.connector.posted = [])
    (hstate : p.connector.connectionHandler.state = .eReady) (hi : i ∈ p.connector.transceivers)
    (hrunning : p.isRunning i = true)
    (hrecreate : Holds i (fun t ↦ t.state ≠ .eRecreateChannel) p.pool) :
    ∃ p', p.step (.close i) = some p' ∧ (machine Transceiver).Within Continues
      (fun q ↦ q.connector.stack = [] ∧ Holds i (fun t ↦ t.state = .eEnd) q.pool)
      (30 * p.connector.transceivers.length + 2) p' := by
  let p₁ : Program Transceiver := { p with connector := p.connector.push (.closeLoop i) }
  let p' := p₁.operate i TransceiverImpl.stop
  have hstep : p.step (.close i) = some p' := by
    simp [Program.step, crashes, pausing, hstack, entered, occur, hi, Program.close, hrunning, p',
      p₁]
  have hstage : CloseStage i (.closeLoop i) p'.pool := by
    refine ⟨rfl, fun t hget ↦ ?_⟩
    rw [pool_operate, if_pos rfl] at hget
    obtain ⟨u, hu, rfl⟩ := Option.map_eq_some_iff.mp hget
    exact Transceiver.beforeShutdown_stop (hrecreate u hu)
  have hanswerable := answerable_of_reachedBy h
  obtain ⟨hloops, hsteps⟩ := loops_operate hstack hposted hstate (show p' = _ from rfl)
    (answerable_stop (p := p₁) hanswerable) hstage
  have hwithin := hloops.within (waitLoop_close hi) (fun _ _ _ ↦ Iff.rfl) (hloops.load_le hsteps)
  exact ⟨p', hstep, hwithin.imp fun q hq ↦ hq.2.2⟩

/-- With one sender, which is ready, `close()` returns within thirty-two events. -/
theorem close_returns_opening :
    ∃ p p', (machine Transceiver).run (initial Transceiver) opening = some p ∧
      p.step (.close 0) = some p' ∧ (machine Transceiver).Within Continues
        (fun q ↦ q.connector.stack = [] ∧ Holds 0 (fun t ↦ t.state = .eEnd) q.pool) 32 p' := by
  obtain ⟨p', hstep, hwithin⟩ := close_returns_of_reachedBy (i := 0)
    ⟨_, opening, rfl, rfl, meets_opening⟩ rfl rfl rfl (by decide) (by decide)
    (fun t hget ↦ by cases hget; decide)
  exact ⟨_, p', rfl, hstep, hwithin⟩

/-! ### run() -/

/-- `run()` is in its first loop. -/
structure Starts (k : Setting) (_rest : List ℕ) (p : Program Transceiver) : Prop where
  serves : Serves k p.connector
  answerable : ∀ t ∈ p.pool, t.Answerable
  posted : p.connector.posted = []

/-- The first loop of `run()` is followed by the second. -/
theorem bodyLoop_run : BodyLoop .start [] (Starts k)
    fun p ↦ Loops k (RunStage k.transceivers) p ∧ p.steps ≤ k.transceivers.length where
  never _ _ := rfl
  cost _ := rfl
  returns p rest stack h := ⟨h.serves.of_eq rfl rfl, h.answerable, h.posted⟩
  body p rest i others h _ := by
    have hconnector := p.connector_body .start i
    refine ⟨h.serves.operation hconnector, answerable_body h.answerable _ i, ?_⟩
    rw [posted_operation hconnector]
    exact h.posted
  done p rest h hremaining hstack := by
    have hids := h.serves.transceivers
    refine ⟨⟨h.serves.of_eq rfl rfl, h.answerable, h.posted, 0,
      .forEach .ready p.connector.transceivers, ?_, ?_⟩, ?_⟩
    · rw [Loop.after, push, hstack]
      rfl
    · exact ⟨_, rfl, fun i hi ↦ Or.inl ⟨hids ▸ hi, fun _ _ ↦ trivial⟩⟩
    · simp [steps, Loop.after, push, hstack, stepsOf, hids]

/-- The first loop of `run()` calls `start()` of the transceivers that are not running, and comes
past those that are. -/
theorem bodyLoop_begins {before after : ℕ → Transceiver → Prop}
    (hstart : ∀ i t, before i t → t.state = .eEnd → after i (t.start k.amqpConnection))
    (hrunning : ∀ i t, before i t → t.state ≠ .eEnd → after i t)
    (hafter : ∀ i t, after i t → t.state ≠ .eEnd) :
    BodyLoop .start []
      (fun rest p ↦ Starts k rest p ∧ Visits before after k.transceivers rest p.pool) fun p ↦
        (Loops k (RunStage k.transceivers) p ∧ p.steps ≤ k.transceivers.length) ∧
          ∀ i ∈ k.transceivers, Holds i (after i) p.pool := by
  refine @BodyLoop.and _ _ _ _ (Visits before after k.transceivers)
    (fun pool ↦ ∀ i ∈ k.transceivers, Holds i (after i) pool) bodyLoop_run
    (fun p rest i others hstarts hvisits hremaining ↦ ?_)
    fun p rest hstarts hvisits hremaining ↦ hvisits.done hstarts.serves.transceivers hremaining
  have hids : p.connector.transceivers = k.transceivers := hstarts.serves.transceivers
  have hconnection : p.connector.amqpConnection = k.amqpConnection :=
    congrArg Setting.amqpConnection hstarts.serves.setting
  have hsame (t : Transceiver) (hnot : t.state ≠ .eEnd) :
      TransceiverImpl.start t k.amqpConnection = t := if_neg hnot
  simp only [body]
  split
  · next hrun =>
    refine hvisits.next hids hremaining (fun _ _ ↦ rfl) fun hself t hget ↦ ?_
    have hnot : t.state ≠ .eEnd := by
      simpa [Program.isRunning, hget, TransceiverImpl.isRunning, Transceiver.isRunning] using hrun
    exact hself.elim (fun h ↦ hrunning i t (h t hget) hnot) fun h ↦ h t hget
  · refine hvisits.operate hids hremaining fun t ht ↦ ?_
    rw [hconnection]
    by_cases hend : t.state = .eEnd
    · exact hstart i t (ht.resolve_right fun h ↦ hafter i t h hend) hend
    · exact (hsame t hend).symm ▸ ht.elim (fun h ↦ hrunning i t h hend) id

/-- The run that a transceiver is in. -/
def runsOf (p : Program Transceiver) (i : ℕ) : ℕ := (p.pool[i]?.map Transceiver.runs).getD 0

/-- The run that a transceiver is in when `run()` has come past it: a new one, unless it is
running. -/
def runsAfter (p : Program Transceiver) (i : ℕ) : ℕ := p.runsOf i + if p.isRunning i then 0 else 1

/-- A transceiver is in the run that it is to be in, and has not come to its end. -/
def Begun (p₀ : Program Transceiver) (i : ℕ) (t : Transceiver) : Prop :=
  t.runs = p₀.runsAfter i ∧ t.state ≠ .eEnd

/-- `run()` begins a run of every transceiver in the list that is not running. -/
theorem bodyLoop_runNew (p₀ : Program Transceiver) {connection : ConnectionId}
    (hconnection : k.amqpConnection = some connection) :
    BodyLoop .start []
      (fun rest p ↦ Starts k rest p ∧
        Visits (fun i t ↦ t.runs = p₀.runsOf i ∧ (t.state = .eEnd ↔ p₀.isRunning i = false))
          p₀.Begun k.transceivers rest p.pool) fun p ↦
        (Loops k (RunStage k.transceivers) p ∧ p.steps ≤ k.transceivers.length) ∧
          ∀ i ∈ k.transceivers, Holds i (p₀.Begun i) p.pool := by
  refine bodyLoop_begins (fun i t ht hend ↦ ?_) (fun i t ht hnot ↦ ?_) fun i t ht ↦ ht.2
  · obtain ⟨hbegun, hrunning⟩ := Transceiver.inRun_start hend connection
    rw [hconnection]
    refine ⟨hbegun.runs.trans ?_, hrunning⟩
    simp [runsAfter, ht.2.mp hend, ht.1]
  · have hrunning : p₀.isRunning i = true := by
      simpa using fun h ↦ hnot (ht.2.mpr h)
    exact ⟨by simp [runsAfter, hrunning, ht.1], hnot⟩

/-- Every transceiver in the list is in the run that it is to be in. -/
def AllBegun (p₀ : Program Transceiver) (ids : List ℕ) (pool : List Transceiver) : Prop :=
  ∀ i ∈ ids, Holds i (fun t ↦ t.runs = p₀.runsAfter i) pool

theorem waitLoop_runNew (p₀ : Program Transceiver) :
    WaitLoop ids (fun f pool ↦ RunStage ids f pool ∧ p₀.AllBegun ids pool) fun pool ↦
      (∀ i ∈ ids, Holds i Transceiver.SetUp pool) ∧ p₀.AllBegun ids pool := by
  refine waitLoop_run.and fun p i t t' event hbegun hget ht hanswer hstep j hj ↦ ?_
  exact (hbegun j hj).update hget fun hruns ↦ (ht.runs_step hanswer hstep).trans hruns

/-- A connector that is ready has a connection. -/
theorem exists_amqpConnection (h : (machine Transceiver).Reachable p)
    (hready : p.connector.connectionHandlerReady = true) :
    ∃ connection, p.connector.amqpConnection = some connection := by
  have hlive : (p.connector.WellFormed fun _ ↦ False) ∧
      p.connector.connectionHandlerReady = p.connector.amqpConnection.isSome := by
    refine h.invariant (I := fun q ↦ (q.connector.WellFormed fun _ ↦ False) ∧
      q.connector.connectionHandlerReady = q.connector.amqpConnection.isSome) (fun q hq ↦ ?_)
        fun q e q' hq hstep ↦ ⟨wellFormed_step hq.1 hstep, (leads_of_step hq.1 hstep).live hq.2⟩
    obtain rfl : q = _ := hq
    exact ⟨wellFormed_new, rfl⟩
  exact Option.isSome_iff_exists.mp (hlive.2.symm.trans hready)

/-- `run()` returns, and then every transceiver in the list is in a new run, or in the one it was in
if it was running, and is ready, in its teardown, or at its end. -/
theorem run_returns_of_reachedBy (h : (machine Transceiver).ReachedBy Faithful p)
    (hstack : p.connector.stack = []) (hposted : p.connector.posted = [])
    (hready : p.connector.connectionHandlerReady = true)
    (hstate : p.connector.connectionHandler.state = .eReady) :
    ∃ p', p.step (.connector .run) = some p' ∧ (machine Transceiver).Within Continues
      (fun q ↦ q.connector.stack = [] ∧ ∀ i ∈ p.connector.transceivers,
        Holds i (fun t ↦ t.runs = p.runsAfter i ∧ t.SetUp) q.pool)
      (33 * p.connector.transceivers.length + 2) p' := by
  let k := settingOf p.connector
  let f : Frame := .forEach .start p.connector.transceivers
  let p' : Program Transceiver := { p with
    connector := { p.connector with sentinel := true, stack := [f] } }
  have hstep : p.step (.connector .run) = some p' := by
    simp [Program.step, crashes, Connector.crashes, pausing, hstack, entered, occur,
      Connector.occur, Connector.run, hready, push, p', f]
  obtain ⟨connection, hconnection⟩ := exists_amqpConnection h.reachable hready
  have hanswerable := answerable_of_reachedBy h
  have hstarts : Starts k p.connector.transceivers p' := ⟨⟨rfl, hstate⟩, hanswerable, hposted⟩
  have hvisits : Visits
      (fun i t ↦ t.runs = p.runsOf i ∧ (t.state = .eEnd ↔ p.isRunning i = false)) p.Begun
        k.transceivers p.connector.transceivers p'.pool := by
    refine fun i hi ↦ Or.inl ⟨hi, fun t hget ↦ ?_⟩
    have hget' : p.pool[i]? = some t := hget
    simp [runsOf, isRunning, hget', TransceiverImpl.isRunning, Transceiver.isRunning]
  have hstarted := (bodyLoop_runNew p (k := k) hconnection).within (fun _ _ _ ↦ Iff.rfl)
    (show p'.connector.stack = _ from rfl) ⟨hstarts, hvisits⟩
  refine ⟨p', hstep, (hstarted.bind (n := 31 * p.connector.transceivers.length + 1)
    fun q hq ↦ ?_).mono (by omega)⟩
  obtain ⟨⟨hloops, hsteps⟩, hbegun⟩ := hq
  have hboth : Loops k (fun f pool ↦ RunStage k.transceivers f pool ∧
      p.AllBegun k.transceivers pool) q := by
    obtain ⟨n, f, hframes, hstage⟩ := hloops.stack
    exact ⟨hloops.serves, hloops.answerable, hloops.posted, n, f, hframes, hstage,
      fun i hi t hget ↦ (hbegun i hi t hget).1⟩
  have hload : q.load ≤ 31 * p.connector.transceivers.length := by
    have hle : q.load ≤ 30 * p.connector.transceivers.length + p.connector.transceivers.length :=
      hloops.load_le hsteps
    omega
  refine (hboth.within (waitLoop_runNew p) (fun _ _ _ ↦ Iff.rfl) hload).imp fun r hr ↦ ?_
  obtain ⟨-, -, hreturned, hsetUp, hruns⟩ := hr
  exact ⟨hreturned, fun i hi t hget ↦ ⟨hruns i hi t hget, hsetUp i hi t hget⟩⟩

/-- With one sender, `run()` returns within thirty-five events. -/
theorem run_returns_opening :
    ∃ p p', (machine Transceiver).run (initial Transceiver) (opening.take 6) = some p ∧
      p.step (.connector .run) = some p' ∧ (machine Transceiver).Within Continues
        (fun q ↦ q.connector.stack = [] ∧ ∀ i ∈ [0],
          Holds i (fun t ↦ t.runs = p.runsAfter i ∧ t.SetUp) q.pool) 35 p' := by
  obtain ⟨p', hstep, hwithin⟩ := run_returns_of_reachedBy
    ⟨_, opening.take 6, rfl, rfl, meets_made⟩ rfl rfl rfl rfl
  exact ⟨_, p', rfl, hstep, hwithin⟩

end Program

end AmqpAsio
