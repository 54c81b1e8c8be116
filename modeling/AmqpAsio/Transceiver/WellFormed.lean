import AmqpAsio.Transceiver.Settling

/-!
# The well-formed transceivers

A transceiver in `eEnd` has been cleared, a running one has a channel, and a null channel is only
ever used by a lambda that is called after the end and goes on to `eCloseChannel`. `WellFormed`
collects these facts, and every reachable transceiver is well-formed.

`Prepared` is what the fields set by a lambda leave alone, and `reaction_ended` says what a lambda
called after the end can do.
-/

set_option autoImplicit false
set_option relaxedAutoImplicit false

namespace AmqpAsio

namespace Transceiver

variable {t u : Transceiver}

/-! ### The fields a lambda sets -/

/-- The transceiver `u` differs from `t` at most in the error reported, in what the broker has told
about the queue and the consumer, and in the `onError` lambda of the current channel. -/
structure Prepared (t u : Transceiver) : Prop where
  state : u.state = t.state
  connection : u.connection = t.connection
  queue : u.queue = t.queue
  listener : u.listener = t.listener
  onMessage : u.onMessage = t.onMessage
  onExit : u.onExit = t.onExit
  channel : u.channel = t.channel
  length : u.channels.length = t.channels.length
  runs : u.runs = t.runs
  crashed : t.channel.isSome → u.crashed = t.crashed
  log : u.log = t.log

theorem Prepared.refl (t : Transceiver) : Prepared t t :=
  ⟨rfl, rfl, rfl, rfl, rfl, rfl, rfl, rfl, rfl, fun _ ↦ rfl, rfl⟩

theorem prepared_setOnError (t : Transceiver) (handler : Option ErrorHandler) :
    Prepared t (t.setOnError handler) where
  state := rfl
  connection := rfl
  queue := rfl
  listener := rfl
  onMessage := rfl
  onExit := rfl
  channel := rfl
  length := by cases hchannel : t.channel <;> simp [setOnError, onChannel, hchannel]
  runs := rfl
  crashed hchannel := by simp [setOnError, onChannel, Option.isSome_iff_ne_none.mp hchannel]
  log := rfl

/-- A lambda that goes to a state has only set the fields it may set. -/
theorem reaction_prepared {cb : Callback} {s : State} (h : t.reaction cb = some (u, s)) :
    Prepared t u := by
  have hset (v : Transceiver) (hsame : { t with
      queueExist := v.queueExist, recvQueue := v.recvQueue, consumerTag := v.consumerTag,
      error := v.error, ec := v.ec } = v) : Prepared t v := by
    rw [← hsame]
    exact ⟨rfl, rfl, rfl, rfl, rfl, rfl, rfl, rfl, rfl, fun _ ↦ rfl, rfl⟩
  cases cb <;> simp only [reaction, Option.ite_none_right_eq_some, Option.some.injEq,
    Prod.mk.injEq, reduceCtorEq] at h
  case createChannelReady => exact h.2.1 ▸ prepared_setOnError t none
  case recreateChannelReady => exact h.2.1 ▸ prepared_setOnError t none
  case createConsumerError =>
    split at h
    · exact (Prod.mk.inj (Option.some.inj h)).1 ▸ hset _ rfl
    · obtain ⟨-, h⟩ := Option.ite_none_right_eq_some.mp h
      exact (Prod.mk.inj (Option.some.inj h)).1 ▸ hset _ rfl
  all_goals
    first
    | exact h.1 ▸ hset _ rfl
    | exact h.2.1 ▸ hset _ rfl

/-- A lambda that is called in `eEnd` and not turned away goes to the teardown, having set nothing
but the error. -/
theorem reaction_ended {cb : Callback} {s : State} (hstate : t.state = .eEnd)
    (h : t.reaction cb = some (u, s)) :
    u.recvQueue = t.recvQueue ∧ u.crashed = t.crashed ∧
      (s = .eUnbindQueue ∨ s = .eCloseChannel ∨ s = .eEnd) := by
  cases cb <;> simp only [reaction, hstate, reduceCtorEq, ↓reduceIte, Option.some.injEq,
    Prod.mk.injEq, Option.ite_none_right_eq_some] at h
  case shutdownSuccess =>
    obtain ⟨-, rfl, rfl⟩ := h
    exact ⟨rfl, rfl, Or.inl rfl⟩
  all_goals
    obtain ⟨rfl, rfl⟩ := h
    simp [setError, setErrorIfUnset]

/-! ### Well-formedness -/

/-- What `case eEnd` leaves behind. -/
structure Cleared (t : Transceiver) : Prop where
  connection : t.connection = none
  recvQueue : t.recvQueue = ""
  consumerTag : t.consumerTag = ""
  queueExist : t.queueExist = false
  channel : t.channel = none

/-- The transceiver has a current channel. -/
def HasChannel (t : Transceiver) : Prop := ∃ c, t.channel = some c ∧ c < t.channels.length

/-- A transceiver at its end is cleared, a running one has a channel, and only a transceiver that
has gone on to `eCloseChannel` without one has used a null pointer. -/
structure WellFormed (t : Transceiver) : Prop where
  ended : t.state = .eEnd → t.Cleared
  running : t.state ≠ .eEnd → t.crashed = false → t.HasChannel
  crashed : t.crashed = true → t.state = .eCloseChannel

theorem HasChannel.of_eq (h : t.HasChannel) (hchannel : u.channel = t.channel)
    (hlength : u.channels.length = t.channels.length) : u.HasChannel := by
  obtain ⟨c, hc, hlt⟩ := h
  exact ⟨c, hchannel.trans hc, hlength ▸ hlt⟩

theorem hasChannel_issue (h : t.HasChannel) (operation : Operation) :
    (t.issue operation).HasChannel := by
  obtain ⟨c, hc, hlt⟩ := h
  exact ⟨c, hc, by simpa [issue, onChannel, observe, hc] using hlt⟩

theorem hasChannel_newChannel (t : Transceiver) (ready : ReadyHandler) (error : ErrorHandler) :
    (t.newChannel ready error).HasChannel :=
  ⟨t.channels.length, rfl, by simp [newChannel]⟩

theorem crashed_issue_of_hasChannel (h : t.HasChannel) (operation : Operation) :
    (t.issue operation).crashed = t.crashed := by
  obtain ⟨c, hc, -⟩ := h
  simp [issue, onChannel, observe, hc]

/-- A state other than the end, with a channel and no null pointer used, is well-formed. -/
theorem HasChannel.wellFormed (h : t.HasChannel) (hstate : t.state ≠ .eEnd)
    (hcrashed : t.crashed = false) : t.WellFormed where
  ended hend := absurd hend hstate
  running _ _ := h
  crashed hcrash := by simp [hcrashed] at hcrash

/-- Arriving with a channel, or in a state that needs none, leaves a well-formed transceiver. -/
theorem wellFormed_arrive (hcrashed : t.crashed = false)
    (hchannel : t.HasChannel ∨ t.state = .eCreateChannel ∨ t.state = .eEnd ∨
      t.state = .eCloseChannel ∧ t.channel = none) : t.arrive.WellFormed := by
  have hissue (h : t.HasChannel) (operation : Operation) (hstate : t.state ≠ .eEnd) :
      (t.issue operation).WellFormed :=
    (hasChannel_issue h operation).wellFormed hstate
      ((crashed_issue_of_hasChannel h operation).trans hcrashed)
  have hnew (h : t.HasChannel) (ready : ReadyHandler) (error : ErrorHandler)
      (hstate : t.state ≠ .eEnd) : (t.closeOld.newChannel ready error).WellFormed := by
    obtain ⟨c, hc, -⟩ := h
    exact (hasChannel_newChannel _ ready error).wellFormed hstate
      (by simp [closeOld, observe, onChannel, newChannel, hc, hcrashed])
  cases hstate : t.state <;> simp only [arrive, hstate] <;>
    simp only [hstate, reduceCtorEq, or_false, or_true, false_or, false_and,
      true_and] at hchannel
  case eCreateChannel =>
    exact (hasChannel_newChannel t _ _).wellFormed (by simp [newChannel, hstate]) hcrashed
  case eReady =>
    have hprepared := prepared_setOnError t (some .ready)
    have hsome : t.channel.isSome := by
      obtain ⟨c, hc, -⟩ := hchannel
      simp [hc]
    unfold atReady
    split
    · exact hchannel.wellFormed (by simp [hstate]) hcrashed
    · exact (hchannel.of_eq hprepared.channel hprepared.length).wellFormed
        (by simp [hprepared.state, hstate]) ((hprepared.crashed hsome).trans hcrashed)
  case eCloseChannel =>
    rcases hchannel with hchannel | hnone
    · exact hissue hchannel _ (by simp [hstate])
    · exact ⟨fun hend ↦ absurd (hstate.symm.trans hend) (by decide),
        fun _ hcrash ↦ by simp [issue, observe, onChannel, hnone] at hcrash, fun _ ↦ hstate⟩
  case eEnd =>
    exact ⟨fun _ ↦ ⟨rfl, rfl, rfl, rfl, rfl⟩, fun hne ↦ absurd hstate hne,
      fun hcrash ↦ by simp [atEnd, hcrashed] at hcrash⟩
  all_goals first
    | exact hissue hchannel _ (by simp [hstate])
    | exact hnew hchannel _ _ (by simp [hstate])

/-- A call of `StateMachine()` with a channel, or without one for a state that needs none, leaves
a well-formed transceiver. -/
theorem wellFormed_goto {s : State} (hcrashed : t.crashed = false)
    (hchannel : t.HasChannel ∨ s = .eCreateChannel ∨ s = .eEnd ∨
      t.landing s = .eCloseChannel ∧ t.channel = none) : (t.goto s).WellFormed := by
  have herror : (t.passingError s).crashed = t.crashed ∧
      (t.passingError s).channel = t.channel ∧ (t.passingError s).channels = t.channels := by
    unfold passingError
    split <;> exact ⟨rfl, rfl, rfl⟩
  rw [goto_eq]
  refine wellFormed_arrive (herror.1.trans hcrashed) ?_
  have hstate : ((t.passingError s).passing (t.path s)).state = t.landing s := by
    simp [passing, getLast?_path]
  rw [hstate]
  rcases hchannel with h | rfl | rfl | ⟨hlanding, hnone⟩
  · exact Or.inl (h.of_eq herror.2.1 (by simp [passing, herror.2.2]))
  · right
    cases hconnection : t.connection <;> simp [landing, path, hconnection]
  · exact Or.inr (Or.inr (Or.inl rfl))
  · exact Or.inr (Or.inr (Or.inr ⟨hlanding, herror.2.1.trans hnone⟩))

/-- An observation changes nothing else. -/
theorem WellFormed.log (h : t.WellFormed) (log : List Observation) :
    { t with log := log }.WellFormed :=
  ⟨fun hend ↦ ⟨(h.ended hend).1, (h.ended hend).2, (h.ended hend).3, (h.ended hend).4,
    (h.ended hend).5⟩, h.running, h.crashed⟩

/-- A lambda leaves a well-formed transceiver. -/
theorem WellFormed.call (h : t.WellFormed) (hcrashed : t.crashed = false) (cb : Callback) :
    (t.call cb).WellFormed := by
  cases hreaction : t.reaction cb with
  | some next =>
    obtain ⟨u, s⟩ := next
    rw [call_of_reaction hreaction]
    have hprepared := reaction_prepared hreaction
    by_cases hstate : t.state = .eEnd
    · have hcleared := h.ended hstate
      obtain ⟨hqueue, hcrash, hs⟩ := reaction_ended hstate hreaction
      refine wellFormed_goto (hcrash.trans hcrashed) (Or.inr ?_)
      rcases hs with rfl | rfl | rfl
      · exact Or.inr (Or.inr ⟨by simp [landing, path, hqueue, hcleared.recvQueue],
          hprepared.channel.trans hcleared.channel⟩)
      · exact Or.inr (Or.inr ⟨rfl, hprepared.channel.trans hcleared.channel⟩)
      · exact Or.inr (Or.inl rfl)
    · obtain ⟨c, hc, hlt⟩ := h.running hstate hcrashed
      exact wellFormed_goto ((hprepared.crashed (by simp [hc])).trans hcrashed)
        (Or.inl ⟨c, hprepared.channel.trans hc, hprepared.length ▸ hlt⟩)
  | none =>
    have hissue (operation : Operation) (hstate : t.state ≠ .eEnd) :
        ((t.setOnError none).issue operation).WellFormed := by
      have hprepared := prepared_setOnError t none
      obtain ⟨c, hc, hlt⟩ := h.running hstate hcrashed
      have hchannel : (t.setOnError none).HasChannel :=
        ⟨c, hprepared.channel.trans hc, hprepared.length ▸ hlt⟩
      exact (hasChannel_issue hchannel operation).wellFormed hstate
        ((crashed_issue_of_hasChannel hchannel operation).trans
          ((hprepared.crashed (by simp [hc])).trans hcrashed))
    rw [call_of_no_reaction hreaction]
    generalize haside : t.aside cb = u
    cases haside ▸ t.aside_cases cb with
    | idle => exact h
    | issue operation hissues =>
      exact hissue operation (by rcases hissues.state with hs | hs <;> simp [hs])
    | message | bounce => exact h.log _

/-! ### The reachable transceivers -/

/-- The transceiver at the moment a callback registered on one of its channels is called. -/
def delivering (t : Transceiver) (channel : ℕ) (cb : Callback) : Transceiver :=
  { t with channels := t.channels.modify channel (·.deliver cb) }

theorem deliver_eq (t : Transceiver) (channel : ℕ) (cb : Callback) :
    t.deliver channel cb = (t.delivering channel cb).call cb := rfl

theorem WellFormed.delivering (h : t.WellFormed) (channel : ℕ) (cb : Callback) :
    (t.delivering channel cb).WellFormed where
  ended hend := ⟨(h.ended hend).1, (h.ended hend).2, (h.ended hend).3, (h.ended hend).4,
    (h.ended hend).5⟩
  running hstate hcrashed :=
    (h.running hstate hcrashed).of_eq rfl (by simp [Transceiver.delivering])
  crashed := h.crashed

theorem wellFormed_new (exchange queue routeIn : String) (listener : Bool) :
    (new exchange queue routeIn listener).WellFormed :=
  ⟨fun _ ↦ ⟨rfl, rfl, rfl, rfl, rfl⟩, fun hstate ↦ absurd rfl hstate, fun hcrash ↦ by cases hcrash⟩

/-- Publishing an envelope keeps the transceiver well-formed. -/
theorem WellFormed.publish (h : t.WellFormed) (hcrashed : t.crashed = false) (envelope : Message)
    (route : String) (mandatory : Bool) : (t.publish envelope route mandatory).1.WellFormed := by
  unfold Transceiver.publish
  split
  · exact h
  · next hstate =>
    have hready : t.state = .eReady := not_not.mp hstate
    obtain ⟨c, hc, hlt⟩ := h.running (by simp [hready]) hcrashed
    refine HasChannel.wellFormed ⟨c, hc, ?_⟩ ?_ ?_
    · simpa [observe, onChannel, hc] using hlt
    · simp [observe, onChannel, hready]
    · simp [observe, onChannel, hc, hcrashed]

theorem wellFormed_step {t' : Transceiver} {e : Event} (h : t.WellFormed)
    (hstep : t.step e = some t') : t'.WellFormed := by
  have hcrashed := crashed_eq_false_of_step hstep
  cases e with
  | callback channel cb =>
    obtain ⟨-, rfl⟩ := step_callback hstep
    exact (h.delivering channel cb).call hcrashed cb
  | install bounce message exit =>
    obtain rfl : t.install bounce message exit = t' := by simpa [step, hcrashed] using hstep
    exact ⟨fun hend ↦ ⟨(h.ended hend).1, (h.ended hend).2, (h.ended hend).3, (h.ended hend).4,
      (h.ended hend).5⟩, h.running, h.crashed⟩
  | start connection =>
    obtain rfl : t.start connection = t' := by simpa [step, hcrashed] using hstep
    unfold start
    split
    · exact wellFormed_goto hcrashed (Or.inr (Or.inl rfl))
    · exact h
  | stop =>
    obtain rfl : t.stop = t' := by simpa [step, hcrashed] using hstep
    unfold stop
    split_ifs with hstate
    · exact h
    · exact wellFormed_goto hcrashed (Or.inl (h.running hstate hcrashed))
    · exact h
  | drop =>
    obtain rfl : t.drop = t' := by simpa [step, hcrashed] using hstep
    unfold drop
    split_ifs with hstate
    · exact h
    · exact wellFormed_goto hcrashed (Or.inr (Or.inr (Or.inl rfl)))
  | send message route mandatory =>
    obtain rfl : (t.send message route mandatory).1 = t' := by simpa [step, hcrashed] using hstep
    exact h.publish hcrashed _ route mandatory

/-- Every reachable transceiver is well-formed. -/
theorem wellFormed_of_reachable (h : machine.Reachable t) : t.WellFormed := by
  refine h.invariant (I := WellFormed) ?_ fun s e s' hs hstep ↦ wellFormed_step hs hstep
  rintro s ⟨exchange, queue, routeIn, listener, rfl⟩
  exact wellFormed_new exchange queue routeIn listener

end Transceiver

end AmqpAsio
