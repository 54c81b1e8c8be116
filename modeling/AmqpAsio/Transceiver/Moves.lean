import AmqpAsio.Transceiver.WellFormed

/-!
# The moves of a transceiver

A step either calls `StateMachine()` once, after setting the fields that the method or the lambda
sets, or it leaves the state machine where it is. `move` says which of the two and where to;
`step_of_move` and `step_of_no_move` are the inversion of a step that the results about runs use.
-/

set_option autoImplicit false
set_option relaxedAutoImplicit false

namespace AmqpAsio

namespace Transceiver

/-- The call of `StateMachine()` that an event makes: the transceiver just before `m_state` is set,
and the state it is set to. -/
def move (t : Transceiver) : Event → Option (Transceiver × State)
  | .start connection =>
    if t.state = .eEnd then
      some ({ t with connection := connection, error := "", ec := .eNoError, runs := t.runs + 1 },
        .eCreateChannel)
    else none
  | .stop => if t.state.beforeShutdown then some (t, stopTransit t.state) else none
  | .drop =>
    if t.state = .eEnd then none else some (t.setError .eDrop "transceiver dropped", .eEnd)
  | .callback channel cb => (t.delivering channel cb).reaction cb
  | .install _ _ _ | .send _ _ _ => none

/-- The observation is one that only a call of `StateMachine()` makes. -/
def Observation.ofMove : Observation → Bool
  | .entered _ | .exit _ _ => true
  | _ => false

/-- The state machine has not been called between the two transceivers. -/
structure Stays (t t' : Transceiver) : Prop where
  state : t'.state = t.state
  runs : t'.runs = t.runs
  log : ∃ new, t'.log = t.log ++ new ∧ ∀ o ∈ new, o.ofMove = false

theorem Stays.refl (t : Transceiver) : Stays t t := ⟨rfl, rfl, [], by simp, by simp⟩

theorem channels_observe (t : Transceiver) (o : ℕ → Observation) :
    (t.observe o).channels = t.channels := rfl

theorem ofMove_of_mem_observe {c : Option ℕ} {f : ℕ → Observation}
    (hf : ∀ n, (f n).ofMove = false) : ∀ o ∈ (c.map f).toList, o.ofMove = false := by
  cases c with
  | none => simp
  | some n => simpa using hf n

/-- A lambda that does not call `StateMachine()` leaves the state machine where it is. -/
theorem Aside.stays {t u : Transceiver} {cb : Callback} (h : Aside t cb u) : Stays t u := by
  cases h with
  | idle => exact Stays.refl t
  | issue operation => exact ⟨rfl, rfl, _, rfl, ofMove_of_mem_observe fun _ ↦ rfl⟩
  | message | bounce => exact ⟨rfl, rfl, _, rfl, by simp [Observation.ofMove]⟩

/-- A step with a move makes it. -/
theorem step_of_move {t t' u : Transceiver} {e : Event} {s : State} (hstep : t.step e = some t')
    (hmove : t.move e = some (u, s)) : t' = u.goto s := by
  have hcrashed := crashed_eq_false_of_step hstep
  cases e with
  | install | send => cases hmove
  | start connection =>
    obtain ⟨hstate, hmove⟩ := Option.ite_none_right_eq_some.mp hmove
    obtain ⟨rfl, rfl⟩ := Prod.mk.inj (Option.some.inj hmove)
    simpa [step, hcrashed, start, hstate] using hstep.symm
  | stop =>
    obtain ⟨hstate, hmove⟩ := Option.ite_none_right_eq_some.mp hmove
    obtain ⟨rfl, rfl⟩ := Prod.mk.inj (Option.some.inj hmove)
    have hrunning : t.state ≠ .eEnd := fun hend ↦ by simp [hend, State.beforeShutdown] at hstate
    simpa [step, hcrashed, stop, hstate, hrunning] using hstep.symm
  | drop =>
    obtain ⟨hstate, hmove⟩ := Option.ite_none_left_eq_some.mp hmove
    obtain ⟨rfl, rfl⟩ := Prod.mk.inj (Option.some.inj hmove)
    simpa [step, hcrashed, drop, hstate] using hstep.symm
  | callback channel cb =>
    rw [(step_callback hstep).2, deliver_eq]
    exact call_of_reaction hmove

/-- Whether a lambda goes somewhere does not depend on the channels. -/
theorem reaction_delivering_eq_none {t : Transceiver} {n : ℕ} {d cb : Callback} :
    (t.delivering n d).reaction cb = none ↔ t.reaction cb = none := by
  have hsame (v : Transceiver) (hstate : v.state = t.state) (htag : v.consumerTag = t.consumerTag) :
      v.reaction cb = none ↔ t.reaction cb = none := by
    cases cb <;> simp [reaction, hstate, htag]
    split_ifs <;> simp
  exact hsame _ rfl rfl

/-- What a step without a move does: nothing, or it installs the callbacks of the application,
publishes a message, or calls a lambda that does not call `StateMachine()`. -/
inductive Still (t : Transceiver) : Event → Transceiver → Prop
  | idle {e : Event} (hcallback : ∀ n cb, e ≠ .callback n cb) : Still t e t
  | install (bounce message exit : Bool) :
    Still t (.install bounce message exit) (t.install bounce message exit)
  | publish (message route : String) (mandatory : Bool) (envelope : Message) (flags : List Flag)
      (hready : t.state = .eReady) :
    Still t (.send message route mandatory)
      ((t.onChannel fun c ↦ { c with publishing := true }).observe
        (.published · t.exchange route envelope flags))
  | callback (n : ℕ) (cb : Callback) {u : Transceiver} (hreaction : t.reaction cb = none)
      (haside : Aside (t.delivering n cb) cb u) : Still t (.callback n cb) u

theorem still_of_no_move {t t' : Transceiver} {e : Event} (hstep : t.step e = some t')
    (hmove : t.move e = none) : Still t e t' := by
  have hcrashed := crashed_eq_false_of_step hstep
  cases e with
  | install bounce message exit =>
    obtain rfl : t.install bounce message exit = t' := by simpa [step, hcrashed] using hstep
    exact Still.install bounce message exit
  | start connection =>
    have hstate : t.state ≠ .eEnd := fun hend ↦ by simp [move, hend] at hmove
    obtain rfl : t = t' := by simpa [step, hcrashed, start, hstate] using hstep
    exact Still.idle (by simp)
  | stop =>
    have hstate : ¬ t.state.beforeShutdown := fun hrunning ↦ by simp [move, hrunning] at hmove
    obtain rfl : t = t' := by simpa [step, hcrashed, stop, hstate] using hstep
    exact Still.idle (by simp)
  | drop =>
    have hstate : t.state = .eEnd := by
      by_contra hrunning
      simp [move, hrunning] at hmove
    obtain rfl : t = t' := by simpa [step, hcrashed, drop, hstate] using hstep
    exact Still.idle (by simp)
  | send message route mandatory =>
    obtain rfl : (t.send message route mandatory).1 = t' := by simpa [step, hcrashed] using hstep
    unfold send publish
    split
    · exact Still.idle (by simp)
    · next hready => exact Still.publish _ _ _ _ _ (not_not.mp hready)
  | callback n cb =>
    rw [(step_callback hstep).2, deliver_eq, call_of_no_reaction hmove]
    exact Still.callback n cb (reaction_delivering_eq_none.mp hmove) (aside_cases _ cb)

/-- A step without a move leaves the state machine where it is. -/
theorem step_of_no_move {t t' : Transceiver} {e : Event} (hstep : t.step e = some t')
    (hmove : t.move e = none) : Stays t t' := by
  cases still_of_no_move hstep hmove with
  | idle => exact Stays.refl t
  | install => exact ⟨rfl, rfl, [], by simp [install], by simp⟩
  | publish => exact ⟨rfl, rfl, _, rfl, ofMove_of_mem_observe fun _ ↦ rfl⟩
  | callback n cb hreaction haside =>
    exact ⟨haside.stays.state, haside.stays.runs, haside.stays.log⟩

/-- What a method or a lambda does before it calls `StateMachine()` leaves the state and the
observations alone, and only `start()` begins another run. -/
theorem move_spec {t u : Transceiver} {e : Event} {s : State} (hmove : t.move e = some (u, s)) :
    u.state = t.state ∧ u.log = t.log ∧ u.onExit = t.onExit ∧
      ((∃ connection, e = .start connection) ∧ t.state = .eEnd ∧ s = .eCreateChannel ∧
          u.runs = t.runs + 1 ∨
        (∀ connection, e ≠ .start connection) ∧ u.runs = t.runs) := by
  cases e with
  | install | send => cases hmove
  | start connection =>
    obtain ⟨hstate, hmove⟩ := Option.ite_none_right_eq_some.mp hmove
    obtain ⟨rfl, rfl⟩ := Prod.mk.inj (Option.some.inj hmove)
    exact ⟨rfl, rfl, rfl, Or.inl ⟨⟨connection, rfl⟩, hstate, rfl, rfl⟩⟩
  | stop =>
    obtain ⟨-, hmove⟩ := Option.ite_none_right_eq_some.mp hmove
    obtain ⟨rfl, rfl⟩ := Prod.mk.inj (Option.some.inj hmove)
    exact ⟨rfl, rfl, rfl, Or.inr ⟨by simp, rfl⟩⟩
  | drop =>
    obtain ⟨-, hmove⟩ := Option.ite_none_left_eq_some.mp hmove
    obtain ⟨rfl, rfl⟩ := Prod.mk.inj (Option.some.inj hmove)
    exact ⟨rfl, rfl, rfl, Or.inr ⟨by simp, rfl⟩⟩
  | callback channel cb =>
    have hprepared := reaction_prepared hmove
    exact ⟨hprepared.state, hprepared.log, hprepared.onExit, Or.inr ⟨by simp, hprepared.runs⟩⟩

variable {t : Transceiver}

theorem listener_move {u : Transceiver} {e : Event} {s : State} (hmove : t.move e = some (u, s)) :
    u.listener = t.listener := by
  cases e with
  | install | send => cases hmove
  | callback channel cb => exact (reaction_prepared hmove).listener
  | _ =>
    simp only [move, Option.ite_none_right_eq_some, Option.ite_none_left_eq_some] at hmove
    exact (Prod.mk.inj (Option.some.inj hmove.2)).1 ▸ rfl

/-! ### Moves at the end -/

/-- Closing the channel after the end uses a null pointer. -/
theorem crashed_goto_of_landing {s : State} (hlanding : t.landing s = .eCloseChannel)
    (hchannel : t.channel = none) : (t.goto s).crashed = true := by
  have hstate : ((t.passingError s).passing (t.path s)).state = .eCloseChannel := by
    simp [passing, getLast?_path, hlanding]
  have hnone : ((t.passingError s).passing (t.path s)).channel = none := by
    rw [← hchannel, passing]
    unfold passingError
    split <;> rfl
  rw [goto_eq, arrive, hstate]
  simp [issue, observe, onChannel, hnone]

/-- At its end, and apart from a `start()`, a transceiver can only be moved by a lambda, to its end
again or to the use of a null pointer. -/
theorem move_at_end {u : Transceiver} {e : Event} {s : State} (hwell : t.WellFormed)
    (hstate : t.state = .eEnd) (hstart : ∀ connection, e ≠ .start connection)
    (hmove : t.move e = some (u, s)) :
    (s = .eEnd ∧ ∃ channel cb, e = .callback channel cb) ∨
      u.landing s = .eCloseChannel ∧ (u.goto s).crashed = true := by
  cases e with
  | install | send => cases hmove
  | start connection => exact absurd rfl (hstart connection)
  | stop => simp [move, hstate, State.beforeShutdown] at hmove
  | drop => simp [move, hstate] at hmove
  | callback channel cb =>
    have hprepared := reaction_prepared hmove
    have hcleared := hwell.ended hstate
    obtain ⟨hqueue, -, hs⟩ := reaction_ended (t := t.delivering channel cb) hstate hmove
    have hnone : u.channel = none := hprepared.channel.trans hcleared.channel
    have hempty : u.recvQueue = "" := hqueue.trans hcleared.recvQueue
    rcases hs with rfl | rfl | rfl
    · have hlanding : u.landing .eUnbindQueue = .eCloseChannel := by simp [landing, path, hempty]
      exact Or.inr ⟨hlanding, crashed_goto_of_landing hlanding hnone⟩
    · exact Or.inr ⟨rfl, crashed_goto_of_landing rfl hnone⟩
    · exact Or.inl ⟨rfl, channel, cb, rfl⟩

/-! ### No way back from the teardown -/

/-- A call of `StateMachine()` that does not go before the shutdown enters nothing before it. -/
theorem beforeShutdown_of_mem_path {s p : State} (hs : s.beforeShutdown = false)
    (hp : p ∈ t.path s) : p.beforeShutdown = false := by
  cases s <;> simp only [State.beforeShutdown, reduceCtorEq, path] at hs hp
  case eShutdown =>
    split_ifs at hp <;> simp only [List.mem_cons, List.not_mem_nil, or_false] at hp <;>
      rcases hp with rfl | rfl | rfl <;> rfl
  case eUnbindQueue =>
    split_ifs at hp <;> simp only [List.mem_cons, List.not_mem_nil, or_false] at hp <;>
      rcases hp with rfl | rfl <;> rfl
  case eRemoveQueue =>
    split_ifs at hp <;> simp only [List.mem_cons, List.not_mem_nil, or_false] at hp <;>
      rcases hp with rfl | rfl <;> rfl
  all_goals
    obtain rfl := List.mem_singleton.mp hp
    rfl

/-- The states from which a `stop()` goes to the teardown. -/
theorem beforeShutdown_stopTransit {s : State} (hs : s.beforeShutdown = true)
    (hrecreate : s ≠ .eRecreateChannel) : (stopTransit s).beforeShutdown = false := by
  cases s <;> simp [State.beforeShutdown] at hs hrecreate <;> rfl

/-- A lambda called after the shutdown has begun goes to no state before it. -/
theorem beforeShutdown_of_reaction {u : Transceiver} {cb : Callback} {s : State}
    (hstate : t.state.beforeShutdown = false) (hreaction : t.reaction cb = some (u, s)) :
    s.beforeShutdown = false := by
  have hne (early : State) (hearly : early.beforeShutdown = true) : t.state ≠ early := by
    rintro rfl
    simp [hearly] at hstate
  cases cb <;> simp only [reaction, Option.ite_none_right_eq_some, Option.some.injEq,
    Prod.mk.injEq, reduceCtorEq] at hreaction
  case createConsumerError => simp [hne .eCreateConsumer rfl, hne .eReady rfl] at hreaction
  all_goals
    first
    | exact absurd hreaction.1 (hne _ rfl)
    | obtain ⟨-, rfl⟩ := hreaction
      rfl
    | obtain ⟨-, -, rfl⟩ := hreaction
      rfl

/-- Once the shutdown has begun, a step goes before it only by a `start()` at the end. -/
theorem beforeShutdown_of_move {u : Transceiver} {e : Event} {s : State}
    (hstate : t.state.beforeShutdown = false) (hrunning : t.state ≠ .eEnd)
    (hmove : t.move e = some (u, s)) : s.beforeShutdown = false := by
  cases e with
  | install | send => cases hmove
  | start connection => simp [move, hrunning] at hmove
  | stop => simp [move, hstate] at hmove
  | drop =>
    obtain ⟨-, hmove⟩ := Option.ite_none_left_eq_some.mp hmove
    obtain ⟨-, rfl⟩ := Prod.mk.inj (Option.some.inj hmove)
    rfl
  | callback channel cb =>
    exact beforeShutdown_of_reaction (t := t.delivering channel cb) hstate hmove

end Transceiver

end AmqpAsio
