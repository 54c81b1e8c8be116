import AmqpAsio.Transceiver.Moves

/-!
# How often the exit callback is invoked

Every accepted `start()` should be answered by one call of `m_onExit`, made when its run reaches
`eEnd`. Five lambdas end the run without testing `m_state`. Called when the run has ended already,
each of them ends it again and calls `m_onExit` again; as long as none is, the calls are counted
right.
-/

set_option autoImplicit false
set_option relaxedAutoImplicit false

namespace AmqpAsio

namespace Transceiver

variable {t t' : Transceiver}

/-! ### Counting the calls -/

/-- The observation is a call of `m_onExit` for the given run. -/
def Observation.exits (run : ℕ) : Observation → Bool
  | .exit n _ => n = run
  | _ => false

/-- The calls of `m_onExit` for the given run. -/
def exitCalls (run : ℕ) (log : List Observation) : ℕ := log.countP (·.exits run)

@[simp] theorem exitCalls_append (run : ℕ) (first second : List Observation) :
    exitCalls run (first ++ second) = exitCalls run first + exitCalls run second := by
  simp [exitCalls]

theorem exitCalls_eq_zero {run : ℕ} {log : List Observation}
    (h : ∀ o ∈ log, o.exits run = false) : exitCalls run log = 0 := by
  refine List.countP_eq_zero.mpr fun o ho ↦ ?_
  simp [h o ho]

theorem exitCalls_map_entered (run : ℕ) (states : List State) :
    exitCalls run (states.map .entered) = 0 := by
  refine exitCalls_eq_zero fun o ho ↦ ?_
  obtain ⟨s, -, rfl⟩ := List.mem_map.mp ho
  rfl

theorem exitCalls_observe (t : Transceiver) {run : ℕ} {o : ℕ → Observation}
    (ho : ∀ n, (o n).exits run = false) :
    exitCalls run (t.observe o).log = exitCalls run t.log := by
  cases hchannel : t.channel with
  | none => simp [observe, hchannel, exitCalls]
  | some c => simp [observe, hchannel, exitCalls, ho c]

/-- Arriving in a state calls `m_onExit` once if the state is the end, and not otherwise. -/
theorem exitCalls_arrive (t : Transceiver) (run : ℕ) :
    exitCalls run t.arrive.log =
      exitCalls run t.log + if t.state = .eEnd ∧ t.onExit ∧ t.runs = run then 1 else 0 := by
  have hissue (operation : Operation) :
      exitCalls run (t.issue operation).log = exitCalls run t.log :=
    exitCalls_observe _ fun _ ↦ rfl
  have hclose : exitCalls run t.closeOld.log = exitCalls run t.log :=
    exitCalls_observe _ fun _ ↦ rfl
  have hnew (u : Transceiver) (ready : ReadyHandler) (error : ErrorHandler) :
      exitCalls run (u.newChannel ready error).log = exitCalls run u.log := by
    simp [newChannel, exitCalls, Observation.exits]
  cases hstate : t.state <;>
    simp only [arrive, hstate, reduceCtorEq, false_and, if_false, Nat.add_zero, true_and]
  case eReady => unfold atReady; split <;> rfl
  case eEnd =>
    by_cases hexit : t.onExit <;> by_cases hrun : t.runs = run <;>
      simp [atEnd, hexit, hrun, exitCalls, Observation.exits]
  all_goals first | exact hissue _ | exact hnew _ _ _ | exact (hnew _ _ _).trans hclose

@[simp] theorem runs_passingError (t : Transceiver) (s : State) :
    (t.passingError s).runs = t.runs := by
  unfold passingError
  split <;> rfl

@[simp] theorem onExit_passingError (t : Transceiver) (s : State) :
    (t.passingError s).onExit = t.onExit := by
  unfold passingError
  split <;> rfl

/-- A call of `StateMachine()` calls `m_onExit` once if it comes to rest at the end, and not
otherwise. -/
theorem exitCalls_goto (t : Transceiver) (s : State) (run : ℕ) :
    exitCalls run (t.goto s).log =
      exitCalls run t.log + if t.landing s = .eEnd ∧ t.onExit ∧ t.runs = run then 1 else 0 := by
  rw [goto_eq, exitCalls_arrive]
  simp [passing, getLast?_path, exitCalls_map_entered]

@[simp] theorem runs_goto (t : Transceiver) (s : State) : (t.goto s).runs = t.runs := by
  have harrive (u : Transceiver) : u.arrive.runs = u.runs := by
    cases hstate : u.state <;> simp only [arrive, hstate] <;>
      first
      | rfl
      | (unfold atReady; split <;> rfl)
  simp [goto_eq, harrive, passing]

/-! ### The lambdas that do not test `m_state` -/

/-- The lambda goes to `eEnd` whatever `m_state` is. -/
def Callback.endsUntested : Callback → Bool
  | .readyError _ | .unbindQueueError _ | .removeQueueError _ | .closeChannelSuccess
  | .closeChannelError _ => true
  | _ => false

/-- The step does not end a run that has ended, with `m_onExit` installed to hear of it. -/
def EndsOnce (t : Transceiver) (e : Event) : Prop :=
  ∀ channel cb, e = .callback channel cb → cb.endsUntested → t.state = .eEnd → t.onExit = false

/-- A lambda that goes from the end to the end is one that does not test `m_state`. -/
theorem endsUntested_of_reaction {u : Transceiver} {cb : Callback} (hstate : t.state = .eEnd)
    (hreaction : t.reaction cb = some (u, .eEnd)) : cb.endsUntested = true := by
  cases cb <;> first | rfl | simp [reaction, hstate] at hreaction

/-! ### The count over a run -/

/-- The calls are counted right so far: none for a run to come or under way, and never two. -/
structure Counted (t : Transceiver) : Prop where
  atMostOnce : ∀ run, exitCalls run t.log ≤ 1
  toCome : ∀ run, t.runs < run → exitCalls run t.log = 0
  underWay : t.state ≠ .eEnd → t.crashed = false → exitCalls t.runs t.log = 0

/-- What a step should do about `m_onExit`: at no time have there been two calls for one run, and
when the step brings a run to its end there has been one, if there is a callback to call. -/
def CallsExit (t t' : Transceiver) : Prop :=
  (∀ run, exitCalls run t'.log ≤ 1) ∧
    (t'.state = .eEnd → t.state ≠ .eEnd ∨ t'.runs ≠ t.runs →
      exitCalls t'.runs t'.log = if t.onExit then 1 else 0)

/-- The step lemma: a step that does not end a run twice counts right. -/
theorem Counted.step {e : Event} (h : t.Counted) (hwell : t.WellFormed) (hends : EndsOnce t e)
    (hstep : t.step e = some t') : t'.Counted ∧ CallsExit t t' := by
  have hcrashed := crashed_eq_false_of_step hstep
  cases hmove : t.move e with
  | none =>
    have hstays := step_of_no_move hstep hmove
    obtain ⟨new, hlog, hnew⟩ := hstays.log
    have hsame (run : ℕ) : exitCalls run t'.log = exitCalls run t.log := by
      have hnone : exitCalls run new = 0 := by
        refine exitCalls_eq_zero fun o ho ↦ ?_
        have := hnew o ho
        cases o <;> first | rfl | simp [Observation.ofMove] at this
      simp [hlog, hnone]
    refine ⟨⟨fun run ↦ hsame run ▸ h.atMostOnce run, fun run hrun ↦ ?_, fun hstate _ ↦ ?_⟩,
      fun run ↦ hsame run ▸ h.atMostOnce run, fun hstate hends ↦ ?_⟩
    · exact (hsame run).trans (h.toCome run (hstays.runs ▸ hrun))
    · rw [hsame, hstays.runs]
      exact h.underWay (hstays.state ▸ hstate) hcrashed
    · exact absurd hends (by simp [hstays.runs, ← hstays.state, hstate])
  | some next =>
    obtain ⟨u, s⟩ := next
    obtain rfl := step_of_move hstep hmove
    obtain ⟨-, hlog, hexit, hkind⟩ := move_spec hmove
    have hcount (run : ℕ) := hlog ▸ hexit ▸ exitCalls_goto u s run
    -- the run the move belongs to has seen no call, unless it has ended already
    have hnone : (t.state ≠ .eEnd ∨ u.runs ≠ t.runs) → exitCalls u.runs t.log = 0 := by
      rcases hkind with ⟨-, -, -, hruns⟩ | ⟨-, hruns⟩
      · exact fun _ ↦ h.toCome _ (by omega)
      · rintro (hstate | hne)
        · exact hruns ▸ h.underWay hstate hcrashed
        · exact absurd hruns hne
    have hagain : t.state = .eEnd → u.runs = t.runs →
        (u.landing s = .eEnd → t.onExit = false) ∧
          (u.landing s ≠ .eEnd → (u.goto s).crashed = true) := by
      intro hstate hruns
      rcases hkind with ⟨-, -, -, hne⟩ | ⟨hstart, -⟩
      · omega
      · rcases move_at_end hwell hstate hstart hmove with
          ⟨rfl, channel, cb, rfl⟩ | ⟨hlanding, hcrash⟩
        · have huntested := endsUntested_of_reaction (t := t.delivering channel cb) hstate hmove
          exact ⟨fun _ ↦ hends channel cb rfl huntested hstate, fun hne ↦ absurd rfl hne⟩
        · exact ⟨fun hend ↦ absurd (hlanding.symm.trans hend) (by decide), fun _ ↦ hcrash⟩
    have hle (run : ℕ) : exitCalls run (u.goto s).log ≤ 1 := by
      rw [hcount]
      split
      · next hcalls =>
        obtain ⟨hlanding, honExit, rfl⟩ := hcalls
        have : t.state ≠ .eEnd ∨ u.runs ≠ t.runs := by
          by_contra hboth
          push Not at hboth
          exact absurd honExit (by simp [(hagain hboth.1 hboth.2).1 hlanding])
        simp [hnone this]
      · exact h.atMostOnce run
    refine ⟨⟨hle, fun run hrun ↦ ?_, fun hstate hcrash ↦ ?_⟩, hle, fun hstate hends ↦ ?_⟩
    · rw [runs_goto] at hrun
      rw [hcount, if_neg (by omega),
        h.toCome run (by rcases hkind with ⟨-, -, -, h⟩ | ⟨-, h⟩ <;> omega)]
    · rw [state_goto] at hstate
      rw [runs_goto, hcount, if_neg (by simp [hstate])]
      refine hnone ?_
      by_contra hboth
      push Not at hboth
      simp [(hagain hboth.1 hboth.2).2 hstate] at hcrash
    · rw [state_goto] at hstate
      rw [runs_goto] at hends ⊢
      rw [hcount, hnone hends]
      simp [hstate]

theorem counted_new (exchange queue routeIn : String) (listener : Bool) :
    (new exchange queue routeIn listener).Counted :=
  ⟨fun _ ↦ by simp [new, exitCalls], fun _ _ ↦ rfl, fun hstate ↦ absurd rfl hstate⟩

/-- The run lemma: the calls are counted right in every state that such steps reach. -/
theorem counted_of_reachedBy (h : machine.ReachedBy EndsOnce t) : t.WellFormed ∧ t.Counted := by
  refine h.invariant (I := fun s ↦ s.WellFormed ∧ s.Counted) ?_ fun s e s' hs hends hstep ↦
    ⟨wellFormed_step hs.1 hstep, (hs.2.step hs.1 hends hstep).1⟩
  rintro s ⟨exchange, queue, routeIn, listener, rfl⟩
  exact ⟨wellFormed_new exchange queue routeIn listener,
    counted_new exchange queue routeIn listener⟩

/-- In every run in which no lambda ends a run that has ended, `m_onExit` is called at most once
for each accepted `start()`, and has been called once when the run reaches `eEnd`. -/
theorem callsExit_of_endsOnce {e : Event} (h : machine.ReachedBy EndsOnce t)
    (hends : EndsOnce t e) (hstep : machine.step t e = some t') : CallsExit t t' := by
  obtain ⟨hwell, hcounted⟩ := counted_of_reachedBy h
  exact (hcounted.step hwell hends hstep).2

/-- A sender that is stopped, up to the failure of its channel. -/
def closing : List Event :=
  [.install false false true, .start (some 0), .callback 0 .createChannelReady,
    .callback 0 .createExchangeSuccess, .stop]

/-- The failure of the channel, reported to the pending `close` and then to the channel. -/
def closingFails : List Event :=
  [.callback 0 (.closeChannelError "connection lost"), .callback 0 (.readyError "connection lost")]

/-- A sender whose channel fails while it is being closed calls `m_onExit` twice. -/
theorem exit_twice_of_closing :
    ∃ t, machine.run (new "exchange" "" "" false) (closing ++ closingFails) = some t ∧
      t.runs = 1 ∧ exitCalls 1 t.log = 2 :=
  ⟨_, rfl, rfl, by decide⟩

/-- A sender whose channel is closed in answer to its request calls `m_onExit` once. -/
theorem callsExit_closing :
    ∃ t t', machine.run (new "exchange" "" "" false) closing = some t ∧
      machine.step t (.callback 0 .closeChannelSuccess) = some t' ∧ CallsExit t t' := by
  have hends (t : Transceiver) (e : Event) (he : e ∈ closing) : EndsOnce t e := by
    rintro channel cb rfl hcb
    simp only [closing, List.mem_cons, Event.callback.injEq, reduceCtorEq, List.not_mem_nil,
      or_false, false_or] at he
    rcases he with ⟨-, rfl⟩ | ⟨-, rfl⟩ <;> cases hcb
  refine ⟨_, _, rfl, rfl, callsExit_of_endsOnce (e := .callback 0 .closeChannelSuccess) ?_ ?_ rfl⟩
  · exact ⟨_, closing, ⟨"exchange", "", "", false, rfl⟩, rfl,
      Machine.meets_of_forall_mem fun e he t ↦ hends t e he⟩
  · rintro channel cb - - hstate
    exact absurd hstate (by decide)

end Transceiver

end AmqpAsio
