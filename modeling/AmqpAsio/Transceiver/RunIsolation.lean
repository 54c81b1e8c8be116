import AmqpAsio.Transceiver.WellFormed

/-!
# Callbacks of channels given up

A lambda captures `this` and nothing of the channel it was registered on, so when it is called late,
for a channel that has been replaced or belongs to an earlier run, only its test of `m_state` keeps
it from acting on the present run. `TurnedAway` says of every lambda when its tests stop it, and
`isolated_iff` that this is exactly when the present run is left alone.
-/

set_option autoImplicit false
set_option relaxedAutoImplicit false

namespace AmqpAsio

namespace Transceiver

variable {t t' u : Transceiver}

/-! ### Leaving the present run alone -/

/-- The observation is a call of `m_onExit` or `m_onMessage`, or something asked of the channel. -/
def Observation.disturbs (channel : Option ℕ) : Observation → Bool
  | .exit _ _ | .message _ _ _ => true
  | .closed c | .issued c _ | .published c _ _ _ _ => channel = some c
  | .entered _ | .opened _ | .bounce _ _ _ => false

/-- Between `t` and `t'` the present run has been left alone: the members that carry it are the
same, the application has heard of no exit and no message, and nothing has been asked of the current
channel. -/
structure Isolated (t t' : Transceiver) : Prop where
  state : t'.state = t.state
  ec : t'.ec = t.ec
  error : t'.error = t.error
  recvQueue : t'.recvQueue = t.recvQueue
  queueExist : t'.queueExist = t.queueExist
  consumerTag : t'.consumerTag = t.consumerTag
  log : ∃ new, t'.log = t.log ++ new ∧ ∀ o ∈ new, o.disturbs t.channel = false

/-- AMQP-CPP calls a lambda registered on a channel that is not the current one: the channel has
been replaced by `m_channel.swap`, or its run is over. -/
structure LateDelivery (t : Transceiver) (channel : ℕ) (cb : Callback) (t' : Transceiver) :
    Prop where
  late : t.channel ≠ some channel
  step : machine.step t (.callback channel cb) = some t'

/-- The tests of the lambda stop it, or it has nothing to change: it runs to its end, and there it
finds the end, the error it reports and no exit callback. -/
def TurnedAway (t : Transceiver) : Callback → Prop
  | .createChannelReady | .createChannelError _ => t.state ≠ .eCreateChannel
  | .checkQueueSuccess _ | .checkQueueError _ => t.state ≠ .eCheckQueue
  | .recreateChannelReady | .recreateChannelError _ => t.state ≠ .eRecreateChannel
  | .createExchangeSuccess | .createExchangeError _ => t.state ≠ .eCreateExchange
  | .createQueueSuccess _ | .createQueueError _ => t.state ≠ .eCreateQueue
  | .bindQueueSuccess | .bindQueueError _ => t.state ≠ .eBindQueue
  | .createConsumerSuccess _ => t.state ≠ .eCreateConsumer
  | .createConsumerReceived _ _ _ => ¬ (t.state = .eReady ∧ t.onMessage)
  | .createConsumerError _ => t.state ≠ .eCreateConsumer ∧ t.state ≠ .eReady
  | .readyError message =>
    t.state = .eEnd ∧ t.onExit = false ∧ t.ec = .eChannelAbruptlyClosedError ∧ t.error = message
  | .shutdownSuccess consumer => t.consumerTag ≠ consumer
  | .shutdownError _ | .unbindQueueSuccess | .removeQueueSuccess => False
  | .unbindQueueReady | .unbindQueueChannelError _ => t.state ≠ .eUnbindQueue
  | .removeQueueReady | .removeQueueChannelError _ => t.state ≠ .eRemoveQueue
  | .unbindQueueError message | .removeQueueError message | .closeChannelError message =>
    t.state = .eEnd ∧ t.onExit = false ∧ t.ec ≠ .eNoError ∧ (t.error ≠ "" ∨ message = "")
  | .closeChannelSuccess => t.state = .eEnd ∧ t.onExit = false
  | .sendReturned _ _ _ => True

theorem Isolated.refl (t : Transceiver) : Isolated t t :=
  ⟨rfl, rfl, rfl, rfl, rfl, rfl, [], by simp, by simp⟩

theorem isolated_of_log {new : List Observation} (h : ∀ o ∈ new, o.disturbs t.channel = false) :
    Isolated t { t with log := t.log ++ new } :=
  ⟨rfl, rfl, rfl, rfl, rfl, rfl, new, rfl, h⟩

/-- An observation that disturbs the present run shows that it has not been left alone. -/
theorem not_isolated_of_mem (new : List Observation) (o : Observation)
    (hlog : t'.log = t.log ++ new) (ho : o ∈ new) (hdisturbs : o.disturbs t.channel = true) :
    ¬ Isolated t t' := by
  rintro ⟨-, -, -, -, -, -, other, hother, hquiet⟩
  have hnew : new = other := List.append_cancel_left (hlog.symm.trans hother)
  simp [hquiet o (hnew ▸ ho)] at hdisturbs

/-! ### A lambda that goes somewhere -/

/-- Arriving in a state other than these three asks something of the channel. -/
theorem exists_disturbs_arrive {c : ℕ} (hchannel : t.channel = some c)
    (hcreate : t.state ≠ .eCreateChannel) (hready : t.state ≠ .eReady) (hend : t.state ≠ .eEnd) :
    ∃ new, t.arrive.log = t.log ++ new ∧ ∃ o ∈ new, o.disturbs (some c) = true := by
  have hissue (operation : Operation) :
      ∃ new, (t.issue operation).log = t.log ++ new ∧ ∃ o ∈ new, o.disturbs (some c) = true :=
    ⟨[.issued c operation], by simp [issue, observe, onChannel, hchannel],
      by simp [Observation.disturbs]⟩
  have hnew (ready : ReadyHandler) (error : ErrorHandler) :
      ∃ new, (t.closeOld.newChannel ready error).log = t.log ++ new ∧
        ∃ o ∈ new, o.disturbs (some c) = true :=
    ⟨[.closed c, .opened t.channels.length],
      by simp [newChannel, closeOld, observe, onChannel, hchannel],
      by simp [Observation.disturbs]⟩
  cases hstate : t.state <;> simp only [arrive, hstate] <;>
    first
    | exact absurd hstate (by assumption)
    | exact hissue _
    | exact hnew _ _

/-- A lambda never comes to rest in the state that it was called in, unless it asks something of
the channel there or the state is the end. -/
theorem landing_of_reaction {cb : Callback} {s : State} (hreaction : t.reaction cb = some (u, s)) :
    u.landing s ≠ .eCreateChannel ∧ (u.landing s = .eReady → t.state ≠ .eReady) := by
  have hs : s ≠ .eCreateChannel ∧ (s = .eReady → t.state ≠ .eReady) := by
    cases cb <;> simp only [reaction, Option.ite_none_right_eq_some, Option.some.injEq,
      Prod.mk.injEq, reduceCtorEq] at hreaction
    case createConsumerError => grind
    all_goals grind
  cases s <;> simp only [landing, path] <;> (repeat' split) <;> simp_all

/-- A lambda that goes somewhere does not leave alone a run that is under way. -/
theorem not_isolated_of_reaction {cb : Callback} {s : State} {c : ℕ} (hrunning : t.state ≠ .eEnd)
    (hchannel : t.channel = some c) (hreaction : t.reaction cb = some (u, s)) :
    ¬ Isolated t (u.goto s) := by
  intro hisolated
  have hprepared := reaction_prepared hreaction
  have hlanding : u.landing s = t.state := by rw [← state_goto]; exact hisolated.state
  obtain ⟨hcreate, hready⟩ := landing_of_reaction hreaction
  have hstate : ((u.passingError s).passing (u.path s)).state = u.landing s := by
    simp [passing, getLast?_path]
  have hsame : ((u.passingError s).passing (u.path s)).channel = some c := by
    rw [← hchannel, ← hprepared.channel]
    unfold passing passingError
    split <;> rfl
  obtain ⟨new, hlog, o, ho, hdisturbs⟩ := exists_disturbs_arrive hsame (hstate ▸ hcreate)
    (fun h ↦ hready (hstate ▸ h) (hlanding ▸ hstate ▸ h)) (hstate ▸ hlanding ▸ hrunning)
  refine not_isolated_of_mem ((u.path s).map .entered ++ new) o ?_
    (List.mem_append_right _ ho) (hchannel ▸ hdisturbs) hisolated
  rw [goto_eq, hlog, passing, log_passingError, hprepared.log, List.append_assoc]

/-- A lambda that goes to the end, called at the end, leaves the run alone if nobody hears of it and
the error stays the same. -/
theorem isolated_goto_end_iff (hcleared : t.Cleared) (hstate : t.state = .eEnd)
    (hu : u = { t with ec := u.ec, error := u.error }) :
    Isolated t (u.goto .eEnd) ↔ t.onExit = false ∧ u.ec = t.ec ∧ u.error = t.error := by
  have hexit : u.onExit = t.onExit := by rw [hu]
  have hlog : u.log = t.log := by rw [hu]
  constructor
  · intro hisolated
    refine ⟨?_, hisolated.ec, hisolated.error⟩
    by_contra honExit
    refine not_isolated_of_mem (t := t) [.entered .eEnd, .exit u.runs u.ec]
      (.exit u.runs u.ec) ?_ (by simp) rfl hisolated
    simp [goto, stateMachine, enter, atEnd, hexit, hlog, Bool.not_eq_false _ ▸ honExit]
  · rintro ⟨honExit, hec, herror⟩
    refine ⟨hstate.symm, hec, herror, hcleared.recvQueue.symm, hcleared.queueExist.symm,
      hcleared.consumerTag.symm, [.entered .eEnd], ?_, by simp [Observation.disturbs]⟩
    simp [goto, stateMachine, enter, atEnd, hexit, hlog, honExit]

/-! ### When a lambda leaves the run alone -/

/-- A lambda that goes somewhere while a run is under way is not turned away. -/
theorem not_turnedAway_of_reaction {cb : Callback} {s : State} (hrunning : t.state ≠ .eEnd)
    (hreaction : t.reaction cb = some (u, s)) : ¬ TurnedAway t cb := by
  cases cb <;> simp only [reaction, Option.ite_none_right_eq_some, reduceCtorEq] at hreaction <;>
    simp only [TurnedAway, not_false_eq_true, hrunning, false_and]
  case createConsumerError => grind
  case shutdownSuccess => exact not_not.mpr hreaction.1
  all_goals exact not_not.mpr hreaction.1

/-- A lambda that does not go anywhere leaves the run alone if it is turned away, and otherwise asks
something of the channel or hands over a message. -/
theorem isolated_aside_iff {cb : Callback} (hwell : t.WellFormed) (hcrashed : t.crashed = false)
    (hreaction : t.reaction cb = none) : Isolated t (t.aside cb) ↔ TurnedAway t cb := by
  have hissue (operation : Operation) (hrunning : t.state ≠ .eEnd) :
      ¬ Isolated t ((t.setOnError none).issue operation) := by
    obtain ⟨c, hc, -⟩ := hwell.running hrunning hcrashed
    refine not_isolated_of_mem [.issued c operation] (.issued c operation) ?_
      (by simp) (by simp [Observation.disturbs, hc])
    simp [issue, observe, onChannel, setOnError, hc]
  cases cb <;> simp only [reaction, ite_eq_right_iff, reduceCtorEq, imp_false] at hreaction <;>
    simp only [TurnedAway, aside]
  case createConsumerReceived message deliveryTag redelivered =>
    split
    · next h =>
      refine iff_of_false ?_ (not_not.mpr h)
      exact not_isolated_of_mem [.message message deliveryTag redelivered] _ rfl
        List.mem_cons_self rfl
    · next h => exact iff_of_true (Isolated.refl t) h
  case createConsumerError => exact iff_of_true (Isolated.refl t) (by grind)
  case unbindQueueReady =>
    split
    · next h => exact iff_of_false (hissue _ (by simp [h])) (not_not.mpr h)
    · next h => exact iff_of_true (Isolated.refl t) h
  case removeQueueReady =>
    split
    · next h => exact iff_of_false (hissue _ (by simp [h])) (not_not.mpr h)
    · next h => exact iff_of_true (Isolated.refl t) h
  case sendReturned =>
    split
    · exact iff_of_true (isolated_of_log (by simp [Observation.disturbs])) trivial
    · exact iff_of_true (Isolated.refl t) trivial
  all_goals exact iff_of_true (Isolated.refl t) hreaction

/-- At the end of a run, a lambda that goes somewhere leaves the run alone only by finding there
what it would bring about. -/
theorem isolated_reaction_end_iff {cb : Callback} {s : State} (hcleared : t.Cleared)
    (hstate : t.state = .eEnd) (hreaction : t.reaction cb = some (u, s)) :
    Isolated t (u.goto s) ↔ TurnedAway t cb := by
  have hmoved (hs : u.landing s ≠ .eEnd) : ¬ Isolated t (u.goto s) := fun hisolated ↦
    hs (by rw [← state_goto, hisolated.state, hstate])
  have hqueue : u.recvQueue = "" := (reaction_ended hstate hreaction).1.trans hcleared.recvQueue
  have hunset (ec : ExitCode) (message : String) (hec : ec ≠ .eNoError) :
      Isolated t ((t.setErrorIfUnset ec message).goto .eEnd) ↔
        t.state = .eEnd ∧ t.onExit = false ∧ t.ec ≠ .eNoError ∧ (t.error ≠ "" ∨ message = "") := by
    rw [isolated_goto_end_iff hcleared hstate rfl]
    simp only [setErrorIfUnset, ite_eq_right_iff, hstate, true_and, and_congr_right_iff]
    intro _
    grind
  cases cb <;> simp only [reaction, hstate, reduceCtorEq, ↓reduceIte, Option.some.injEq,
    Prod.mk.injEq, Option.ite_none_right_eq_some] at hreaction
  case readyError message =>
    obtain ⟨rfl, rfl⟩ := hreaction
    rw [isolated_goto_end_iff hcleared hstate rfl]
    constructor
    · rintro ⟨hexit, hec, herror⟩
      exact ⟨hstate, hexit, hec.symm, herror.symm⟩
    · rintro ⟨_, hexit, hec, herror⟩
      exact ⟨hexit, hec.symm, herror.symm⟩
  case shutdownSuccess =>
    obtain ⟨htag, rfl, rfl⟩ := hreaction
    exact iff_of_false (hmoved (by simp [landing, path, hqueue])) (not_not.mpr htag)
  case shutdownError =>
    obtain ⟨rfl, rfl⟩ := hreaction
    exact iff_of_false (hmoved (by simp [landing, path, hqueue])) not_false
  case unbindQueueSuccess =>
    obtain ⟨rfl, rfl⟩ := hreaction
    exact iff_of_false (hmoved (by simp [landing, path])) not_false
  case removeQueueSuccess =>
    obtain ⟨rfl, rfl⟩ := hreaction
    exact iff_of_false (hmoved (by simp [landing, path])) not_false
  case closeChannelSuccess =>
    obtain ⟨rfl, rfl⟩ := hreaction
    rw [isolated_goto_end_iff hcleared hstate rfl]
    simp [TurnedAway, hstate]
  all_goals
    obtain ⟨rfl, rfl⟩ := hreaction
    exact hunset _ _ (by decide)

/-- A lambda leaves the present run alone exactly when it is turned away. -/
theorem isolated_call_iff (cb : Callback) (hwell : t.WellFormed) (hcrashed : t.crashed = false) :
    Isolated t (t.call cb) ↔ TurnedAway t cb := by
  cases hreaction : t.reaction cb with
  | none =>
    rw [call_of_no_reaction hreaction]
    exact isolated_aside_iff hwell hcrashed hreaction
  | some next =>
    obtain ⟨u, s⟩ := next
    rw [call_of_reaction hreaction]
    by_cases hstate : t.state = .eEnd
    · exact isolated_reaction_end_iff (hwell.ended hstate) hstate hreaction
    · obtain ⟨c, hc, -⟩ := hwell.running hstate hcrashed
      exact iff_of_false (not_isolated_of_reaction hstate hc hreaction)
        (not_turnedAway_of_reaction hstate hreaction)

/-- A lambda called late, for a channel that is not the current one, leaves the present run alone if
and only if it is turned away. -/
theorem isolated_iff_turnedAway {channel : ℕ} {cb : Callback} (hreachable : machine.Reachable t)
    (hlate : LateDelivery t channel cb t') : Isolated t t' ↔ TurnedAway t cb := by
  have hstep := hlate.step
  rw [machine_step] at hstep
  have hcrashed := crashed_eq_false_of_step hstep
  have hwell := (wellFormed_of_reachable hreachable).delivering channel cb
  rw [(step_callback hstep).2, deliver_eq]
  have hiff := isolated_call_iff cb hwell hcrashed
  constructor
  · intro h
    exact (hiff.mp ⟨h.state, h.ec, h.error, h.recvQueue, h.queueExist, h.consumerTag, h.log⟩ :)
  · intro h
    have hisolated := hiff.mpr h
    exact ⟨hisolated.state, hisolated.ec, hisolated.error, hisolated.recvQueue,
      hisolated.queueExist, hisolated.consumerTag, hisolated.log⟩

/-- A sender dropped while its channel opens, and started again. -/
def restarted : List Event := [.start (some 0), .drop, .start (some 1)]

/-- The channel of the first run opens late, and the second run goes on with its own channel as if
that had opened. -/
theorem not_isolated_restarted :
    ∃ t t', machine.run (new "exchange" "" "" false) restarted = some t ∧
      LateDelivery t 0 .createChannelReady t' ∧ t'.state = .eCreateExchange ∧ ¬ Isolated t t' := by
  refine ⟨_, _, rfl, ⟨by decide, rfl⟩, rfl, fun h ↦ ?_⟩
  exact absurd h.state (by decide)

/-- Once the second run has gone on, the late opening of the first channel is turned away. -/
theorem isolated_restarted :
    ∃ t t', machine.run (new "exchange" "" "" false)
        (restarted ++ [.callback 1 .createChannelReady]) = some t ∧
      LateDelivery t 0 .createChannelReady t' ∧ Isolated t t' := by
  refine ⟨_, _, rfl, ⟨by decide, rfl⟩,
    (@isolated_iff_turnedAway _ _ 0 .createChannelReady ?_ ⟨by decide, rfl⟩).mpr ?_⟩
  · exact ⟨_, restarted ++ [.callback 1 .createChannelReady], ⟨"exchange", "", "", false, rfl⟩, rfl⟩
  · simp only [TurnedAway]
    decide

end Transceiver

end AmqpAsio
