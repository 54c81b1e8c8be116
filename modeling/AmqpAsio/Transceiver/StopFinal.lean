import AmqpAsio.Transceiver.Moves

/-!
# What `stop()` guarantees

Once `stop()` has been called, a transceiver should go to its end without setting anything up
again. It does from every state except one: `StopTransit` has no entry for `eRecreateChannel`, its
subscript operator makes one that leads to `eCreateChannel`, and the transceiver starts over.
-/

set_option autoImplicit false
set_option relaxedAutoImplicit false

namespace AmqpAsio

namespace Transceiver

variable {t t' : Transceiver}

/-! ### The states entered after a `stop()` -/

/-- The states entered on the way from `t` to a later `t'`. -/
def statesSince (t t' : Transceiver) : List State :=
  (statesEntered t'.log).drop (statesEntered t.log).length

/-- Whatever follows a `stop()`, no state before the shutdown is entered until the end has been
reached. -/
def StopFinal (t : Transceiver) : Prop :=
  ∀ es t', machine.run t (.stop :: es) = some t' →
    ∀ s ∈ (statesSince t t').takeWhile (· ≠ .eEnd), s.beforeShutdown = false

theorem statesSince_of_append {states : List State}
    (h : statesEntered t'.log = statesEntered t.log ++ states) : statesSince t t' = states := by
  rw [statesSince, h, List.drop_left]

/-- Beyond the first end, more states entered make no difference. -/
theorem mem_takeWhile_append {s : State} {first second : List State}
    (hs : s ∈ (first ++ second).takeWhile (· ≠ .eEnd)) :
    s ∈ first.takeWhile (· ≠ .eEnd) ∨
      .eEnd ∉ first ∧ s ∈ second.takeWhile (· ≠ .eEnd) := by
  induction first with
  | nil => exact Or.inr ⟨by simp, hs⟩
  | cons next rest ih =>
    by_cases hnext : next = .eEnd
    · simp [hnext] at hs
    · simp only [List.cons_append, ne_eq, hnext, not_false_eq_true, decide_true,
        List.takeWhile_cons_of_pos, List.mem_cons] at hs ⊢
      rcases hs with rfl | hs
      · exact Or.inl (Or.inl rfl)
      · rcases ih hs with hs | ⟨hend, hs⟩
        · exact Or.inl (Or.inr hs)
        · exact Or.inr ⟨by simp [hend, Ne.symm hnext], hs⟩

/-! ### The runs after a `stop()` -/

/-- On the way from a `stop()` to `t'`: no state before the shutdown has been entered up to the
first end, and where there has been no end the shutdown is under way. -/
def Stopping (t t' : Transceiver) : Prop :=
  ∃ states, statesEntered t'.log = statesEntered t.log ++ states ∧
    (∀ s ∈ states.takeWhile (· ≠ .eEnd), s.beforeShutdown = false) ∧
    (.eEnd ∈ states ∨ t'.state.beforeShutdown = false ∧ t'.state ≠ .eEnd)

/-- A call of `StateMachine()` that goes after the shutdown keeps the transceiver on the way. -/
theorem Stopping.goto {u : Transceiver} {s : State} (h : Stopping t t')
    (hlog : u.log = t'.log) (hs : .eEnd ∈ statesSince t t' ∨ s.beforeShutdown = false) :
    Stopping t (u.goto s) := by
  obtain ⟨states, hstates, hquiet, -⟩ := h
  rw [statesSince_of_append hstates] at hs
  refine ⟨states ++ u.path s, by simp [hlog, hstates], fun p hp ↦ ?_, ?_⟩
  · rcases mem_takeWhile_append hp with hp | ⟨hend, hp⟩
    · exact hquiet p hp
    · exact beforeShutdown_of_mem_path (hs.resolve_left hend) (List.takeWhile_subset _ hp)
  · rcases hs with hend | hs
    · exact Or.inl (List.mem_append_left _ hend)
    · have hlanding := u.landing_mem_path s
      by_cases hend : u.landing s = .eEnd
      · exact Or.inl (List.mem_append_right _ (hend ▸ hlanding))
      · rw [state_goto]
        exact Or.inr ⟨beforeShutdown_of_mem_path hs hlanding, hend⟩

/-- The step lemma: every step keeps a stopped transceiver on its way. -/
theorem Stopping.step {t'' : Transceiver} {e : Event} (h : Stopping t t')
    (hstep : t'.step e = some t'') : Stopping t t'' := by
  cases hmove : t'.move e with
  | none =>
    obtain ⟨states, hstates, hquiet, hend⟩ := h
    have hstays := step_of_no_move hstep hmove
    obtain ⟨new, hlog, hnew⟩ := hstays.log
    refine ⟨states, ?_, hquiet, hstays.state ▸ hend⟩
    have hnone : statesEntered new = [] := by
      refine List.filterMap_eq_nil_iff.mpr fun o ho ↦ ?_
      have := hnew o ho
      cases o <;> first | rfl | simp [Observation.ofMove] at this
    simp [hlog, hnone, hstates]
  | some next =>
    obtain ⟨u, s⟩ := next
    rw [step_of_move hstep hmove]
    refine h.goto (move_spec hmove).2.1 ?_
    obtain ⟨states, hstates, -, hend⟩ := h
    rw [statesSince_of_append hstates]
    exact hend.imp_right fun h ↦ beforeShutdown_of_move h.1 h.2 hmove

/-- The run lemma: every run keeps a stopped transceiver on its way. -/
theorem Stopping.run {t'' : Transceiver} {es : List Event} (h : Stopping t t')
    (hrun : machine.run t' es = some t'') : Stopping t t'' :=
  Machine.run_invariant (I := Stopping t) (fun _ _ _ hs hstep ↦ hs.step hstep) hrun h

/-- Stopping a running transceiver anywhere but in `eRecreateChannel` sends it on its way. -/
theorem stopping_stop (hrunning : t.state ≠ .eEnd) (hrecreate : t.state ≠ .eRecreateChannel) :
    Stopping t t.stop := by
  unfold stop
  rw [if_neg hrunning]
  split
  · next hbefore =>
    have hstop := beforeShutdown_stopTransit hbefore hrecreate
    refine ⟨t.path (stopTransit t.state), by simp, fun p hp ↦ ?_, ?_⟩
    · exact beforeShutdown_of_mem_path hstop (List.takeWhile_subset _ hp)
    · have hlanding := t.landing_mem_path (stopTransit t.state)
      by_cases hend : t.landing (stopTransit t.state) = .eEnd
      · exact Or.inl (hend ▸ hlanding)
      · rw [state_goto]
        exact Or.inr ⟨beforeShutdown_of_mem_path hstop hlanding, hend⟩
  · next hbefore =>
    exact ⟨[], by simp, by simp, Or.inr ⟨by simpa using hbefore, hrunning⟩⟩

/-- A running transceiver that is stopped sets nothing up again until its end if and only if it is
not stopped while it replaces its channel. -/
theorem stopFinal_iff (hreachable : machine.Reachable t) (hrunning : t.state ≠ .eEnd) :
    t.StopFinal ↔ t.state ≠ .eRecreateChannel := by
  constructor
  · intro hfinal hstate
    have hcrashed : t.crashed = false := by
      by_contra hcrashed
      have := (wellFormed_of_reachable hreachable).crashed (by simpa using hcrashed)
      simp [hstate] at this
    have hstop : t.stop = t.goto .eCreateChannel :=
      by simp [stop, hstate, State.beforeShutdown]; rfl
    have hsince : statesSince t t.stop = t.path .eCreateChannel :=
      statesSince_of_append (by rw [hstop, statesEntered_goto])
    have hmem : .eCreateChannel ∈ (statesSince t t.stop).takeWhile (· ≠ .eEnd) := by
      rw [hsince]
      cases hconnection : t.connection <;> simp [path, hconnection]
    have := hfinal [] t.stop (by simp [step, hcrashed]) _ hmem
    cases this
  · intro hrecreate es t' hrun s hs
    obtain ⟨next, hnext, hrest⟩ := Machine.run_cons_eq_some.mp hrun
    rw [machine_step] at hnext
    have hcrashed := crashed_eq_false_of_step hnext
    obtain rfl : t.stop = next := by simpa [step, hcrashed] using hnext
    obtain ⟨states, hstates, hquiet, -⟩ := (stopping_stop hrunning hrecreate).run hrest
    exact hquiet s (statesSince_of_append hstates ▸ hs)

/-- A listener on a named queue that is missing, whose `stop()` comes while the channel is being
replaced. -/
def recreating : List Event :=
  [.start (some 0), .callback 0 .createChannelReady,
    .callback 0 (.checkQueueError "NOT_FOUND - no queue 'orders'")]

/-- Stopped while it replaces its channel, the listener starts over. -/
theorem not_stopFinal_recreating :
    ∃ t, machine.run (new "exchange" "orders" "orders" true) recreating = some t ∧
      t.state = .eRecreateChannel ∧ ¬ t.StopFinal := by
  refine ⟨_, rfl, rfl, fun hfinal ↦ ?_⟩
  have := hfinal [] _ rfl .eCreateChannel (by decide)
  cases this

/-- Stopped while it declares its exchange, a listener sets nothing up again. -/
theorem stopFinal_listening :
    ∃ t, machine.run (new "exchange" "" "orders" true)
        [.start (some 0), .callback 0 .createChannelReady] = some t ∧
      t.state = .eCreateExchange ∧ t.StopFinal := by
  refine ⟨_, rfl, rfl, (stopFinal_iff ?_ (by decide)).mpr (by decide)⟩
  exact ⟨_, [.start (some 0), .callback 0 .createChannelReady], ⟨_, _, _, _, rfl⟩, rfl⟩

end Transceiver

end AmqpAsio
