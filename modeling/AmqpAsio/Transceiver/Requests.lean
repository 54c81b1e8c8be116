import AmqpAsio.Transceiver.Runs

/-!
# What one step asks of the channels

In every state there is at most one operation that `Transceiver::StateMachine` asks for (`request`).
`effect_of_step` says what a step does to the operations that are pending: the callback delivered
takes its operation off its channel, and what is new is the request of the state the step leaves
behind, on the current channel. The same holds of the observations, and the exit callback is invoked
by a step only when it comes to the end.
-/

set_option autoImplicit false
set_option relaxedAutoImplicit false

namespace AmqpAsio

namespace Transceiver

variable {t t' u : Transceiver} {first : ℕ}

/-- The operations pending on a channel. -/
def pendingOn (t : Transceiver) (n : ℕ) : List Operation := ((t.channels[n]?).map (·.pending)).getD
    []

/-- The operations left on a channel once the callback of an event has been delivered. -/
def remaining (t : Transceiver) (n : ℕ) : Event → List Operation
  | .callback m cb => if m = n then (t.pendingOn n).eraseP (·.reports cb) else t.pendingOn n
  | _ => t.pendingOn n

/-- From `t` to `t'` the new observations have been made, and the operations pending have become the
listed ones and at most one that is newly issued. What is issued is requested in the state of `t'`,
and if the exit has been reported that state is the end. -/
structure Effect (t : Transceiver) (rest : ℕ → List Operation) (t' : Transceiver)
    (new : List Observation) : Prop where
  log : t'.log = t.log ++ new
  pending : ∀ n, ∃ issued : Option Operation, t'.pendingOn n = rest n ++ issued.toList ∧
    ∀ operation ∈ issued.toList, .issued n operation ∈ new
  issued : ∀ n operation, .issued n operation ∈ new →
    t'.channel = some n ∧ t'.request = some operation
  exit : ∀ run ec, .exit run ec ∈ new → t'.state = .eEnd

theorem pendingOn_eq {n : ℕ} {c : Channel} (hc : t.channels[n]? = some c) :
    t.pendingOn n = c.pending := by
  simp [pendingOn, hc]

theorem pendingOn_of_length_le {n : ℕ} (h : t.channels.length ≤ n) : t.pendingOn n = [] := by
  simp [pendingOn, List.getElem?_eq_none h]

theorem pendingOn_congr (hchannels : u.channels = t.channels) (n : ℕ) :
    u.pendingOn n = t.pendingOn n := by
  simp [pendingOn, hchannels]

/-! ### Arriving -/

theorem pendingOn_onChannel (t : Transceiver) {f : Channel → Channel}
    (hf : ∀ c, (f c).pending = c.pending) (n : ℕ) :
    (t.onChannel f).pendingOn n = t.pendingOn n := by
  cases hchannel : t.channel with
  | none => simp [pendingOn, onChannel, hchannel]
  | some k =>
    cases hc : t.channels[n]? with
    | none => simp [pendingOn, onChannel, hchannel, List.getElem?_modify, hc]
    | some c => by_cases hk : k = n <;> simp [pendingOn, onChannel, hchannel, hc, hk, hf]

@[simp] theorem pendingOn_newChannel (t : Transceiver) (ready : ReadyHandler) (error : ErrorHandler)
    (n : ℕ) : (t.newChannel ready error).pendingOn n = t.pendingOn n := by
  rcases Nat.lt_trichotomy n t.channels.length with hlt | rfl | hgt
  · simp [pendingOn, newChannel, List.getElem?_append_left hlt]
  · simp [pendingOn, newChannel]
  · rw [pendingOn_of_length_le (Nat.le_of_lt hgt), pendingOn_of_length_le]
    simpa [newChannel] using Nat.succ_le_of_lt hgt

@[simp] theorem pendingOn_closeOld (t : Transceiver) (n : ℕ) :
    t.closeOld.pendingOn n = t.pendingOn n :=
  t.pendingOn_onChannel (f := id) (fun _ ↦ rfl) n

@[simp] theorem pendingOn_setOnError (t : Transceiver) (handler : Option ErrorHandler) (n : ℕ) :
    (t.setOnError handler).pendingOn n = t.pendingOn n :=
  t.pendingOn_onChannel (f := fun c ↦ { c with onError := handler }) (fun _ ↦ rfl) n

theorem pendingOn_issue (t : Transceiver) (operation : Operation) (n : ℕ) :
    ∃ issued : Option Operation, (t.issue operation).pendingOn n = t.pendingOn n ++ issued.toList ∧
      ∀ o ∈ issued.toList, t.channel = some n ∧ o = operation := by
  cases hchannel : t.channel with
  | none => exact ⟨none, by simp [pendingOn, issue, observe, onChannel, hchannel], by simp⟩
  | some k =>
    cases hc : t.channels[n]? with
    | none =>
      refine ⟨none, ?_, by simp⟩
      simp [pendingOn, issue, observe, onChannel, hchannel, List.getElem?_modify, hc]
    | some c =>
      by_cases hk : k = n
      · refine ⟨some operation, ?_, fun o ho ↦ ⟨congrArg some hk, List.mem_singleton.mp ho⟩⟩
        simp [pendingOn, issue, observe, onChannel, hchannel, hc, hk]
      · exact ⟨none, by simp [pendingOn, issue, observe, onChannel, hchannel, hc, hk], by simp⟩

/-- An operation issued that is the request of the state. -/
theorem effect_issue {operation : Operation} (h : t.request = some operation) :
    Effect t t.pendingOn (t.issue operation) (t.channel.map (.issued · operation)).toList where
  log := rfl
  pending n := by
    obtain ⟨issued, hissued, hmem⟩ := t.pendingOn_issue operation n
    refine ⟨issued, hissued, fun o ho ↦ ?_⟩
    obtain ⟨hchannel, rfl⟩ := hmem o ho
    simp [hchannel]
  issued n o ho := by
    cases hchannel : t.channel with
    | none => simp [hchannel] at ho
    | some k =>
      obtain ⟨rfl, rfl⟩ : n = k ∧ o = operation := by simpa [hchannel] using ho
      exact ⟨hchannel, h⟩
  exit run ec hexit := by cases hchannel : t.channel <;> simp [hchannel] at hexit

/-- Nothing has been issued. -/
theorem effect_of_eq {new : List Observation} (hpending : ∀ n, u.pendingOn n = t.pendingOn n)
    (hlog : u.log = t.log ++ new) (hissued : ∀ n operation, .issued n operation ∉ new)
    (hexit : ∀ run ec, .exit run ec ∈ new → u.state = .eEnd) : Effect t t.pendingOn u new :=
  ⟨hlog, fun n ↦ ⟨none, by simp [hpending n], by simp⟩, fun n o ho ↦ absurd ho (hissued n o), hexit⟩

theorem Effect.refl (t : Transceiver) : Effect t t.pendingOn t [] :=
  effect_of_eq (fun _ ↦ rfl) (by simp) (by simp) (by simp)

theorem effect_newChannel (t : Transceiver) (ready : ReadyHandler) (error : ErrorHandler) :
    Effect t t.pendingOn (t.newChannel ready error) [.opened t.channels.length] :=
  effect_of_eq (by simp) rfl (by simp) (by simp)

theorem effect_reopen (t : Transceiver) (ready : ReadyHandler) (error : ErrorHandler) :
    ∃ new, Effect t t.pendingOn (t.closeOld.newChannel ready error) new := by
  refine ⟨_, effect_of_eq (by simp) (by
    simp only [newChannel, closeOld, observe, List.append_assoc]; rfl) ?_ ?_⟩
  · cases hchannel : t.channel <;> simp [onChannel, hchannel]
  · cases hchannel : t.channel <;> simp [onChannel, hchannel]

/-- In the state in which it comes to rest, `StateMachine()` asks for the request of that state. -/
theorem effect_arrive (t : Transceiver) : ∃ new, Effect t t.pendingOn t.arrive new := by
  cases hs : t.state <;> simp only [arrive, hs]
  case eCreateChannel => exact ⟨_, effect_newChannel t _ _⟩
  case eRecreateChannel | eUnbindQueue | eRemoveQueue => exact effect_reopen t _ _
  case eReady =>
    unfold atReady
    split
    · exact ⟨[], Effect.refl t⟩
    · exact ⟨[], effect_of_eq (by simp) (by simp [setOnError, onChannel]) (by simp) (by simp)⟩
  case eEnd =>
    refine ⟨_, effect_of_eq (fun _ ↦ rfl) rfl (fun n operation ↦ ?_) fun _ _ _ ↦ hs⟩
    split <;> simp
  all_goals exact ⟨_, effect_issue (by simp only [request, hs])⟩

/-! ### A step -/

/-- A lambda leaves the channels alone, but that it may give up its claim to the failure of the
current one. -/
theorem channels_reaction {cb : Callback} {s : State} (hreaction : t.reaction cb = some (u, s)) :
    u.channels = t.channels ∨ u.channels = (t.setOnError none).channels := by
  cases cb <;> simp only [reaction, Option.ite_none_right_eq_some, Option.some.injEq, Prod.mk.injEq,
    reduceCtorEq] at hreaction
  case createChannelReady => exact Or.inr (hreaction.2.1 ▸ rfl)
  case recreateChannelReady => exact Or.inr (hreaction.2.1 ▸ rfl)
  case createConsumerError =>
    split at hreaction
    · exact Or.inl ((Prod.mk.inj (Option.some.inj hreaction)).1 ▸ rfl)
    · obtain ⟨-, hreaction⟩ := Option.ite_none_right_eq_some.mp hreaction
      exact Or.inl ((Prod.mk.inj (Option.some.inj hreaction)).1 ▸ rfl)
  all_goals
    first
    | exact Or.inl (hreaction.1 ▸ rfl)
    | exact Or.inl (hreaction.2.1 ▸ rfl)

theorem pendingOn_reaction {cb : Callback} {s : State} (hreaction : t.reaction cb = some (u, s))
    (n : ℕ) : u.pendingOn n = t.pendingOn n := by
  rcases channels_reaction hreaction with hchannels | hchannels
  · exact pendingOn_congr hchannels n
  · exact (pendingOn_congr hchannels n).trans (t.pendingOn_setOnError none n)

theorem pendingOn_delivering (t : Transceiver) (n m : ℕ) (cb : Callback) :
    (t.delivering n cb).pendingOn m = t.remaining m (.callback n cb) := by
  unfold remaining
  cases hc : t.channels[m]? with
  | none => simp [pendingOn, delivering, List.getElem?_modify, hc]
  | some c => by_cases hn : n = m <;> simp [pendingOn, delivering, hc, hn, Channel.deliver]

/-- What a method or a lambda does before it calls `StateMachine()` takes the operation reported off
its channel. -/
theorem pendingOn_move {e : Event} {s : State} (hmove : t.move e = some (u, s)) (n : ℕ) :
    u.pendingOn n = t.remaining n e := by
  cases e with
  | install | send => cases hmove
  | callback m cb => exact (pendingOn_reaction hmove n).trans (t.pendingOn_delivering m n cb)
  | _ =>
    simp only [move, Option.ite_none_right_eq_some, Option.ite_none_left_eq_some] at hmove
    obtain ⟨rfl, -⟩ := Prod.mk.inj (Option.some.inj hmove.2)
    rfl

/-- A call of `StateMachine()`. -/
theorem effect_goto {rest : ℕ → List Operation} {s : State} (hpending : ∀ n, u.pendingOn n = rest n)
    (hlog : u.log = t.log) : ∃ new, Effect t rest (u.goto s) new := by
  obtain ⟨new, harrive⟩ := effect_arrive ((u.passingError s).passing (u.path s))
  rw [← goto_eq] at harrive
  refine ⟨(u.path s).map .entered ++ new, ?_, fun n ↦ ?_, fun n o ho ↦ ?_, fun run ec ho ↦ ?_⟩
  · simp [harrive.log, passing, hlog]
  · rw [← hpending n, ← pendingOn_congr (u.channels_passing s) n]
    obtain ⟨issued, hissued, hmem⟩ := harrive.pending n
    exact ⟨issued, hissued, fun o ho ↦ List.mem_append_right _ (hmem o ho)⟩
  · exact harrive.issued n o (by simpa using ho)
  · exact harrive.exit run ec (by simpa using ho)

theorem Effect.trans {rest : ℕ → List Operation} {new : List Observation}
    (hpending : ∀ n, u.pendingOn n = rest n) (hlog : u.log = t.log)
    (h : Effect u u.pendingOn t' new) : Effect t rest t' new :=
  ⟨hlog ▸ h.log, fun n ↦ hpending n ▸ h.pending n, h.issued, h.exit⟩

/-- A lambda that does not call `StateMachine()` issues at most the operation of its state. -/
theorem Aside.effect {cb : Callback} (h : Aside t cb u) : ∃ new, Effect t t.pendingOn u new := by
  cases h with
  | idle => exact ⟨[], Effect.refl t⟩
  | issue operation hissues hrequest =>
    exact ⟨_, Effect.trans (t.pendingOn_setOnError none) rfl
      (effect_issue (show (t.setOnError none).request = some operation from hrequest))⟩
  | message | bounce => exact ⟨_, effect_of_eq (fun _ ↦ rfl) rfl (by simp) (by simp)⟩

/-- What a step does to the operations pending and to the observations. -/
theorem effect_of_step {e : Event} (hstep : t.step e = some t') :
    ∃ new, Effect t (t.remaining · e) t' new := by
  cases hmove : t.move e with
  | some next =>
    obtain ⟨u, s⟩ := next
    obtain rfl := step_of_move hstep hmove
    exact effect_goto (pendingOn_move hmove) (move_spec hmove).2.1
  | none =>
    cases still_of_no_move hstep hmove with
    | idle hcallback =>
      have hrest : (t.remaining · e) = t.pendingOn := by
        cases e with
        | callback n cb => exact absurd rfl (hcallback n cb)
        | _ => rfl
      exact ⟨[], hrest ▸ Effect.refl t⟩
    | install =>
      exact ⟨[], effect_of_eq (fun _ ↦ rfl) (by simp [Transceiver.install]) (by simp) (by simp)⟩
    | publish =>
      refine ⟨_, effect_of_eq (fun n ↦ t.pendingOn_onChannel
        (f := fun c ↦ { c with publishing := true }) (fun _ ↦ rfl) n) rfl ?_ ?_⟩
      · cases hchannel : t.channel <;> simp [onChannel, hchannel]
      · cases hchannel : t.channel <;> simp [onChannel, hchannel]
    | callback n cb hreaction haside =>
      obtain ⟨new, heffect⟩ := haside.effect
      exact ⟨new, Effect.trans (t.pendingOn_delivering n · cb) rfl heffect⟩

/-- Outside the two states whose channel is opened for one operation, only a call of
`StateMachine()` issues anything. -/
theorem pendingOn_still {e : Event} (h : Still t e t') (hunbind : t.state ≠ .eUnbindQueue)
    (hremove : t.state ≠ .eRemoveQueue) (n : ℕ) : t'.pendingOn n = t.remaining n e := by
  cases h with
  | idle hcallback =>
    cases e with
    | callback m cb => exact absurd rfl (hcallback m cb)
    | _ => rfl
  | install => rfl
  | publish =>
    exact t.pendingOn_onChannel (f := fun c ↦ { c with publishing := true }) (fun _ ↦ rfl) n
  | callback m cb hreaction haside =>
    rw [← t.pendingOn_delivering m n cb]
    cases haside with
    | issue operation hissues => exact (hissues.state.elim hunbind hremove).elim
    | _ => rfl

theorem channel_still {e : Event} (h : Still t e t') : t'.channel = t.channel := by
  cases h with
  | callback n cb hreaction haside => cases haside <;> rfl
  | _ => rfl

theorem remaining_sublist (t : Transceiver) (n : ℕ) (e : Event) :
    (t.remaining n e).Sublist (t.pendingOn n) := by
  cases e with
  | callback m cb =>
    simp only [remaining]
    split
    · exact List.eraseP_sublist
    · exact List.Sublist.refl _
  | _ => exact List.Sublist.refl _

theorem remaining_subset (t : Transceiver) (n : ℕ) (e : Event) : t.remaining n e ⊆ t.pendingOn n :=
  (t.remaining_sublist n e).subset

/-- An operation pending after a step was pending before, or has been issued on the current channel
for the state the step leaves behind. -/
theorem mem_pendingOn_step {e : Event} (hstep : t.step e = some t') {n : ℕ} {operation : Operation}
    (hoperation : operation ∈ t'.pendingOn n) :
    operation ∈ t.remaining n e ∨ t'.channel = some n ∧ t'.request = some operation := by
  obtain ⟨new, heffect⟩ := effect_of_step hstep
  obtain ⟨issued, hissued, hmem⟩ := heffect.pending n
  rw [hissued] at hoperation
  rcases List.mem_append.mp hoperation with hold | hnew
  · exact Or.inl hold
  · exact Or.inr (heffect.issued n operation (hmem operation hnew))

/-- Coming to rest anywhere but at its end, a transceiver keeps what it has been told about its
queue. -/
theorem queue_goto {s : State} (hend : t.landing s ≠ .eEnd) :
    (t.goto s).queueExist = t.queueExist ∧ (t.goto s).recvQueue = t.recvQueue := by
  have harrive (v : Transceiver) (hv : v.state ≠ .eEnd) :
      v.arrive.queueExist = v.queueExist ∧ v.arrive.recvQueue = v.recvQueue := by
    cases hs : v.state <;> simp only [arrive, hs]
    case eEnd => exact absurd hs hv
    case eReady => unfold atReady; split <;> exact ⟨rfl, rfl⟩
    all_goals exact ⟨rfl, rfl⟩
  rw [goto_eq]
  obtain ⟨hexist, hrecvQueue⟩ := harrive _ (t.state_passing s ▸ hend)
  rw [hexist, hrecvQueue]
  unfold passingError
  split <;> exact ⟨rfl, rfl⟩

/-- So does a step that leaves the state machine where it is. -/
theorem queue_still {e : Event} (h : Still t e t') :
    t'.queueExist = t.queueExist ∧ t'.recvQueue = t.recvQueue := by
  cases h with
  | callback n cb hreaction haside => cases haside <;> exact ⟨rfl, rfl⟩
  | _ => exact ⟨rfl, rfl⟩

/-- Channels are made, never unmade. -/
theorem length_step {e : Event} (hstep : t.step e = some t') :
    t.channels.length ≤ t'.channels.length := by
  have honChannel (v : Transceiver) (f : Channel → Channel) :
      (v.onChannel f).channels.length = v.channels.length := by
    cases hchannel : v.channel <;> simp [onChannel, hchannel]
  cases hmove : t.move e with
  | some next =>
    obtain ⟨u, s⟩ := next
    rw [step_of_move hstep hmove, goto_eq, ← (channel_move hmove).2, ← u.channels_passing s]
    exact length_arrive _
  | none =>
    cases still_of_no_move hstep hmove with
    | idle | install => exact Nat.le_refl _
    | publish => exact Nat.le_of_eq (honChannel t _).symm
    | callback n cb hreaction haside =>
      have hdelivered : t.channels.length = (t.delivering n cb).channels.length :=
        by simp [delivering]
      have hissue (operation : Operation) : t.channels.length ≤
          (((t.delivering n cb).setOnError none).issue operation).channels.length := by
        rw [hdelivered, ← honChannel (t.delivering n cb) fun c ↦ { c with onError := none }]
        exact Nat.le_of_eq (honChannel ((t.delivering n cb).setOnError none) _).symm
      cases haside with
      | issue operation => exact hissue operation
      | _ => exact Nat.le_of_eq hdelivered

/-- What a transceiver has been constructed with. -/
def config (t : Transceiver) : String × String × String × Bool :=
  (t.exchange, t.queue, t.routeIn, t.listener)

theorem config_goto (t : Transceiver) (s : State) : (t.goto s).config = t.config := by
  have harrive (v : Transceiver) : v.arrive.config = v.config := by
    cases hs : v.state <;> simp only [arrive, hs]
    case eReady => unfold atReady; split <;> rfl
    all_goals rfl
  rw [goto_eq, harrive]
  unfold passingError
  split <;> rfl

/-- It is what it has been constructed with for good. -/
theorem config_step {e : Event} (hstep : t.step e = some t') : t'.config = t.config := by
  cases hmove : t.move e with
  | none =>
    cases still_of_no_move hstep hmove with
    | callback n cb hreaction haside => cases haside <;> rfl
    | _ => rfl
  | some next =>
    obtain ⟨u, s⟩ := next
    rw [step_of_move hstep hmove, config_goto]
    cases e with
    | install | send => cases hmove
    | callback n cb =>
      change (t.delivering n cb).reaction cb = some (u, s) at hmove
      cases cb <;> simp only [reaction, Option.ite_none_right_eq_some, Option.some.injEq,
        Prod.mk.injEq, reduceCtorEq] at hmove
      case createConsumerError =>
        split at hmove
        · exact (Prod.mk.inj (Option.some.inj hmove)).1 ▸ rfl
        · obtain ⟨-, hmove⟩ := Option.ite_none_right_eq_some.mp hmove
          exact (Prod.mk.inj (Option.some.inj hmove)).1 ▸ rfl
      all_goals
        first
        | exact hmove.1 ▸ rfl
        | exact hmove.2.1 ▸ rfl
    | _ =>
      simp only [move, Option.ite_none_right_eq_some, Option.ite_none_left_eq_some] at hmove
      obtain ⟨rfl, -⟩ := Prod.mk.inj (Option.some.inj hmove.2)
      rfl

/-- The callback is a call of a lambda registered with an operation. -/
def Callback.answers : Callback → Bool
  | .checkQueueSuccess _ | .checkQueueError _ | .createExchangeSuccess | .createExchangeError _
  | .createQueueSuccess _ | .createQueueError _ | .bindQueueSuccess | .bindQueueError _
  | .createConsumerSuccess _ | .createConsumerError _ | .shutdownSuccess _ | .shutdownError _
  | .unbindQueueSuccess | .unbindQueueError _ | .removeQueueSuccess | .removeQueueError _
  | .closeChannelSuccess | .closeChannelError _ => true
  | _ => false

theorem answers_of_reports {operation : Operation} {cb : Callback}
    (hreports : operation.reports cb = true) : cb.answers = true := by
  cases operation <;> cases cb <;> first | rfl | cases hreports

/-- A callback that answers an operation is called only while such an operation is pending. -/
theorem exists_pending_of_answers {n : ℕ} {cb : Callback}
    (hstep : t.step (.callback n cb) = some t') (hanswers : cb.answers = true) :
    ∃ operation ∈ t.pendingOn n, operation.reports cb = true := by
  obtain ⟨⟨c, hc, hregistered⟩, -⟩ := step_callback hstep
  rw [pendingOn_eq hc]
  unfold Channel.registered at hregistered
  simp only [Bool.or_eq_true] at hregistered
  rcases hregistered with ((hready | herror) | hpending) | hlater
  · obtain ⟨ready, -, hready⟩ := (Option.any_eq_true _ _).mp hready
    have hcb : ready.callback = cb := by simpa using hready
    subst hcb
    cases ready <;> cases hanswers
  · obtain ⟨error, -, herror⟩ := (Option.any_eq_true _ _).mp herror
    cases error <;> cases cb <;> cases herror <;> cases hanswers
  · simpa using hpending
  · cases cb <;> simp only [Bool.false_eq_true] at hlater <;> cases hanswers

/-- After the set-up, the lambdas of its operations are turned away. -/
theorem reaction_eq_none_of_setsUp {operation : Operation} {cb : Callback}
    (hreports : operation.reports cb = true) (hsetsUp : operation.SetsUp)
    (hstate : t.state.beforeShutdown = false) : t.reaction cb = none := by
  have hne (early : State) (hearly : early.beforeShutdown = true) : t.state ≠ early := by
    rintro rfl
    simp [hearly] at hstate
  cases operation <;> simp only [Operation.SetsUp, Operation.state, State.beforeShutdown,
    Bool.false_eq_true] at hsetsUp <;> cases cb <;> simp [Operation.reports] at hreports <;>
    simp [reaction, hne .eCheckQueue rfl, hne .eCreateExchange rfl, hne .eCreateQueue rfl,
      hne .eBindQueue rfl, hne .eCreateConsumer rfl, hne .eReady rfl]

/-! ### The way through the set-up -/

/-- The lambdas that go on with the set-up, each with what it sets and the state it goes to. -/
inductive Forward (t : Transceiver) : Callback → Transceiver → State → Prop
  | opened (hstate : t.state = .eCreateChannel) :
    Forward t .createChannelReady (t.setOnError none)
      (if t.listener then .eCheckQueue else .eCreateExchange)
  | found (name : String) (hstate : t.state = .eCheckQueue) :
    Forward t (.checkQueueSuccess name) { t with queueExist := true, recvQueue := name }
      .eCreateExchange
  | missing (message : String) (hstate : t.state = .eCheckQueue) :
    Forward t (.checkQueueError message) t .eRecreateChannel
  | reopened (hstate : t.state = .eRecreateChannel) :
    Forward t .recreateChannelReady (t.setOnError none) .eCreateExchange
  | exchange (hstate : t.state = .eCreateExchange) :
    Forward t .createExchangeSuccess t (if t.listener then .eCreateQueue else .eReady)
  | created (name : String) (hstate : t.state = .eCreateQueue) :
    Forward t (.createQueueSuccess name) { t with recvQueue := name } .eBindQueue
  | bound (hstate : t.state = .eBindQueue) : Forward t .bindQueueSuccess t .eCreateConsumer
  | consuming (consumer : String) (hstate : t.state = .eCreateConsumer) :
    Forward t (.createConsumerSuccess consumer) { t with consumerTag := consumer } .eReady

theorem forward_of_reaction {cb : Callback} {s : State} (hreaction : t.reaction cb = some (u, s))
    (hsetsUp : s.beforeShutdown = true) : Forward t cb u s := by
  cases cb <;> simp only [reaction, Option.ite_none_right_eq_some, Option.some.injEq, Prod.mk.injEq,
    reduceCtorEq] at hreaction
  case createChannelReady =>
    obtain ⟨hstate, rfl, rfl⟩ := hreaction
    exact .opened hstate
  case checkQueueSuccess name =>
    obtain ⟨hstate, rfl, rfl⟩ := hreaction
    exact .found name hstate
  case checkQueueError message =>
    obtain ⟨hstate, rfl, rfl⟩ := hreaction
    exact .missing message hstate
  case recreateChannelReady =>
    obtain ⟨hstate, rfl, rfl⟩ := hreaction
    exact .reopened hstate
  case createExchangeSuccess =>
    obtain ⟨hstate, rfl, rfl⟩ := hreaction
    exact .exchange hstate
  case createQueueSuccess name =>
    obtain ⟨hstate, rfl, rfl⟩ := hreaction
    exact .created name hstate
  case bindQueueSuccess =>
    obtain ⟨hstate, rfl, rfl⟩ := hreaction
    exact .bound hstate
  case createConsumerSuccess consumer =>
    obtain ⟨hstate, rfl, rfl⟩ := hreaction
    exact .consuming consumer hstate
  case createConsumerError =>
    split at hreaction
    · rw [← (Prod.mk.inj (Option.some.inj hreaction)).2] at hsetsUp
      cases hsetsUp
    · obtain ⟨-, hreaction⟩ := Option.ite_none_right_eq_some.mp hreaction
      rw [← (Prod.mk.inj (Option.some.inj hreaction)).2] at hsetsUp
      cases hsetsUp
  all_goals exact absurd hsetsUp (by simp [← hreaction.2, State.beforeShutdown])

/-- The moves of a run whose channels are numbered from `first` on: it is stopped or dropped, or a
lambda of one of its channels calls `StateMachine()`. -/
inductive Way (first : ℕ) (t : Transceiver) : Event → Transceiver → State → Prop
  | stop (hstate : t.state.beforeShutdown = true) : Way first t .stop t (stopTransit t.state)
  | drop (hstate : t.state ≠ .eEnd) :
    Way first t .drop (t.setError .eDrop "transceiver dropped") .eEnd
  | callback {n : ℕ} {cb : Callback} {u : Transceiver} {s : State} (hn : first ≤ n)
      (hreaction : (t.delivering n cb).reaction cb = some (u, s)) : Way first t (.callback n cb) u s

theorem way_of_move {first : ℕ} {e : Event} {s : State} (hundisturbed : Undisturbed first t e)
    (hbegins : t.begins e = false) (hmove : t.move e = some (u, s)) : Way first t e u s := by
  cases e with
  | install | send => cases hmove
  | start connection =>
    have hrunning : t.state ≠ .eEnd := by simpa [begins] using hbegins
    simp [move, hrunning] at hmove
  | stop =>
    obtain ⟨hstate, hmove⟩ := Option.ite_none_right_eq_some.mp hmove
    obtain ⟨rfl, rfl⟩ := Prod.mk.inj (Option.some.inj hmove)
    exact .stop hstate
  | drop =>
    obtain ⟨hstate, hmove⟩ := Option.ite_none_left_eq_some.mp hmove
    obtain ⟨rfl, rfl⟩ := Prod.mk.inj (Option.some.inj hmove)
    exact .drop hstate
  | callback n cb =>
    refine .callback ?_ hmove
    by_contra hlt
    simp [hundisturbed n cb rfl (by omega)] at hmove

/-- A run goes on setting up by one of the lambdas for that, or because it is stopped where that
starts it over. -/
theorem Way.forward {first : ℕ} {e : Event} {s : State} (h : Way first t e u s)
    (hsetsUp : s.beforeShutdown = true) :
    (e = .stop ∧ u = t ∧ s = .eCreateChannel ∧ t.state = .eRecreateChannel) ∨
      ∃ n cb, e = .callback n cb ∧ first ≤ n ∧ Forward (t.delivering n cb) cb u s := by
  cases h with
  | stop hstate =>
    have hrecreate : t.state = .eRecreateChannel := by
      by_contra hlisted
      simp [beforeShutdown_stopTransit hstate hlisted] at hsetsUp
    exact Or.inl ⟨rfl, rfl, by rw [hrecreate]; rfl, hrecreate⟩
  | drop => cases hsetsUp
  | callback hn hreaction => exact Or.inr ⟨_, _, rfl, hn, forward_of_reaction hreaction hsetsUp⟩

/-- The way of a listener through the set-up, each lambda with what it sets and the state it comes
to rest in. -/
inductive Onward (t : Transceiver) (n : ℕ) : Callback → Transceiver → State → Prop
  | opened (hstate : t.state = .eCreateChannel) (hnamed : t.queue ≠ "") :
    Onward t n .createChannelReady ((t.delivering n .createChannelReady).setOnError none)
    .eCheckQueue
  | nameless (hstate : t.state = .eCreateChannel) (hnameless : t.queue = "") :
    Onward t n .createChannelReady ((t.delivering n .createChannelReady).setOnError none)
    .eCreateExchange
  | found (name : String) (hstate : t.state = .eCheckQueue) :
    Onward t n (.checkQueueSuccess name)
      { t.delivering n (.checkQueueSuccess name) with queueExist := true, recvQueue := name }
      .eCreateExchange
  | missing (message : String) (hstate : t.state = .eCheckQueue) :
    Onward t n (.checkQueueError message) (t.delivering n (.checkQueueError message))
    .eRecreateChannel
  | reopened (hstate : t.state = .eRecreateChannel) :
    Onward t n .recreateChannelReady ((t.delivering n .recreateChannelReady).setOnError none)
      .eCreateExchange
  | exchange (hstate : t.state = .eCreateExchange) (hexist : t.queueExist = false) :
    Onward t n .createExchangeSuccess (t.delivering n .createExchangeSuccess) .eCreateQueue
  | existing (hstate : t.state = .eCreateExchange) (hexist : t.queueExist = true) :
    Onward t n .createExchangeSuccess (t.delivering n .createExchangeSuccess) .eBindQueue
  | created (name : String) (hstate : t.state = .eCreateQueue) :
    Onward t n (.createQueueSuccess name)
      { t.delivering n (.createQueueSuccess name) with recvQueue := name } .eBindQueue
  | bound (hstate : t.state = .eBindQueue) :
    Onward t n .bindQueueSuccess (t.delivering n .bindQueueSuccess) .eCreateConsumer
  | consuming (consumer : String) (hstate : t.state = .eCreateConsumer) :
    Onward t n (.createConsumerSuccess consumer)
      { t.delivering n (.createConsumerSuccess consumer) with consumerTag := consumer } .eReady

theorem Forward.onward {n : ℕ} {cb : Callback} {s : State} (h : Forward (t.delivering n cb) cb u s)
    (hlistener : t.listener = true) : Onward t n cb u (u.landing s) := by
  cases h with
  | opened hstate =>
    have hlistener' : (t.delivering n .createChannelReady).listener = true := hlistener
    rw [hlistener', if_pos rfl]
    by_cases hnamed : t.queue = ""
    · have hlanding : ((t.delivering n .createChannelReady).setOnError none).landing .eCheckQueue =
          .eCreateExchange := by simp [landing, path, delivering, setOnError, onChannel, hnamed]
      rw [hlanding]
      exact .nameless hstate hnamed
    · have hlanding : ((t.delivering n .createChannelReady).setOnError none).landing .eCheckQueue =
          .eCheckQueue := by simp [landing, path, delivering, setOnError, onChannel, hnamed]
      rw [hlanding]
      exact .opened hstate hnamed
  | exchange hstate =>
    have hlistener' : (t.delivering n .createExchangeSuccess).listener = true := hlistener
    rw [hlistener', if_pos rfl]
    cases hexist : t.queueExist with
    | true =>
      have hlanding : (t.delivering n .createExchangeSuccess).landing
        .eCreateQueue = .eBindQueue := by
        simp [landing, path, delivering, hexist]
      rw [hlanding]
      exact .existing hstate hexist
    | false =>
      have hlanding : (t.delivering n .createExchangeSuccess).landing
        .eCreateQueue = .eCreateQueue := by
        simp [landing, path, delivering, hexist]
      rw [hlanding]
      exact .exchange hstate hexist
  | found name hstate => exact .found name hstate
  | missing message hstate => exact .missing message hstate
  | reopened hstate => exact .reopened hstate
  | created name hstate => exact .created name hstate
  | bound hstate => exact .bound hstate
  | consuming consumer hstate => exact .consuming consumer hstate

/-- A run comes to the removal of its queue only while the queue is being bound and had not been
found. -/
theorem Way.remove {first : ℕ} {e : Event} {s : State} (h : Way first t e u s)
    (hlanding : u.landing s = .eRemoveQueue) :
    t.state = .eBindQueue ∧ t.queueExist = false ∧ u.recvQueue = t.recvQueue := by
  obtain ⟨rfl, hexist⟩ : s = .eRemoveQueue ∧ u.queueExist = false := by
    cases s <;> simp only [landing, path] at hlanding <;> (repeat' split at hlanding) <;> simp_all
  generalize hs : State.eRemoveQueue = s at h
  cases h with
  | stop hstate =>
    refine ⟨?_, hexist, rfl⟩
    cases hbind : t.state <;> rw [hbind] at hs <;> first | rfl | cases hs
  | drop => cases hs
  | @callback n cb _ _ hn hreaction =>
    subst hs
    cases cb <;> simp only [reaction, Option.ite_none_right_eq_some, Option.some.injEq,
      Prod.mk.injEq, reduceCtorEq, and_false] at hreaction
    case bindQueueError message =>
      obtain ⟨hstate, rfl, -⟩ := hreaction
      exact ⟨hstate, hexist, rfl⟩
    case createConsumerError message =>
      split at hreaction
      · cases (Prod.mk.inj (Option.some.inj hreaction)).2
      · obtain ⟨-, hreaction⟩ := Option.ite_none_right_eq_some.mp hreaction
        cases (Prod.mk.inj (Option.some.inj hreaction)).2
    all_goals
      obtain ⟨-, -, hreaction⟩ := hreaction
      split at hreaction <;> cases hreaction

/-- The states in which a listener gives up its consumer, its binding or its queue. -/
def State.undoes : State → Bool
  | .eShutdown | .eUnbindQueue | .eRemoveQueue => true
  | _ => false

theorem undoes_of_landing {s : State} (h : (t.landing s).undoes = true) : s.undoes = true := by
  cases s <;> simp only [landing, path] at h <;> (repeat' split at h) <;> first | rfl | cases h

/-- The lambdas that go to such a state: the consumer or the binding of a queue that had not been
found is refused, or the consumer is given up already. -/
inductive Undoing (t : Transceiver) : Callback → Prop
  | consumer (message : String) (hstate : t.state = .eCreateConsumer) :
    Undoing t (.createConsumerError message)
  | binding (message : String) (hstate : t.state = .eBindQueue) (hexist : t.queueExist = false) :
    Undoing t (.bindQueueError message)
  | cancelled (consumer : String) : Undoing t (.shutdownSuccess consumer)
  | uncancelled (message : String) : Undoing t (.shutdownError message)

/-- A run comes to such a state by being stopped or by one of these lambdas. -/
theorem Way.undoing {e : Event} {s : State} (h : Way first t e u s)
    (hundoes : (u.landing s).undoes = true) :
    e = .stop ∧ t.state.beforeShutdown = true ∧ s = stopTransit t.state ∨
      ∃ n cb, e = .callback n cb ∧ first ≤ n ∧ Undoing t cb := by
  cases h with
  | stop hstate => exact Or.inl ⟨rfl, hstate, rfl⟩
  | drop => cases hundoes
  | @callback n cb _ _ hn hreaction =>
    refine Or.inr ⟨n, cb, rfl, hn, ?_⟩
    cases cb <;> simp only [reaction, Option.ite_none_right_eq_some, Option.some.injEq,
      Prod.mk.injEq, reduceCtorEq] at hreaction
    case bindQueueError message =>
      obtain ⟨hstate, rfl, rfl⟩ := hreaction
      refine .binding message hstate ?_
      by_contra hexist
      have hfound : t.queueExist = true := by simpa using hexist
      have hlanding : ((t.delivering n (.bindQueueError message)).setError .eBindQueueError
          message).landing .eRemoveQueue = .eCloseChannel := by
        simp [landing, path, setError, delivering, hfound]
      rw [hlanding] at hundoes
      cases hundoes
    case createConsumerError message =>
      split at hreaction
      · next hstate => exact .consumer message hstate
      · obtain ⟨-, hreaction⟩ := Option.ite_none_right_eq_some.mp hreaction
        obtain ⟨-, rfl⟩ := Prod.mk.inj (Option.some.inj hreaction)
        cases hundoes
    case shutdownSuccess consumer => exact .cancelled consumer
    case shutdownError message => exact .uncancelled message
    all_goals
      have hs := undoes_of_landing hundoes
      first
      | rw [← hreaction.2.2] at hs
      | rw [← hreaction.2] at hs
      first | cases hs | (split at hs <;> cases hs)

/-- A call of `StateMachine()` that comes to rest in the set-up goes to a state of it. -/
theorem beforeShutdown_of_landing_setsUp {s : State}
    (hsetsUp : (t.landing s).beforeShutdown = true) : s.beforeShutdown = true := by
  by_contra hs
  simp [beforeShutdown_of_mem_path (by simpa using hs) (t.landing_mem_path s)] at hsetsUp

/-- A run that starts over has a connection, or is over. -/
theorem landing_eCreateChannel (h : t.landing .eCreateChannel ≠ .eEnd) :
    t.landing .eCreateChannel = .eCreateChannel := by
  cases hconnection : t.connection with
  | some connection => simp [landing, path, hconnection]
  | none => simp [landing, path, hconnection] at h

/-- The queue is declared only where it has not been found. -/
theorem queueExist_of_landing {s : State} (h : t.landing s = .eCreateQueue) :
    t.queueExist = false := by
  cases s <;> simp only [landing, path] at h <;> (repeat' split at h) <;> simp_all

/-- The queue is bound where it has been confirmed, or at once where it has been found. -/
theorem eq_of_landing_eBindQueue {s : State} (h : t.landing s = .eBindQueue) :
    s = .eBindQueue ∨ s = .eCreateQueue ∧ t.queueExist = true := by
  cases s <;> simp only [landing, path] at h <;> (repeat' split at h) <;> simp_all

/-! ### The error code -/

/-- A call of `StateMachine()` clears no error. -/
theorem ec_of_goto {s : State} (h : (t.goto s).ec = .eNoError) : t.ec = .eNoError := by
  have harrive (v : Transceiver) : v.arrive.ec = v.ec := by
    cases hs : v.state <;> simp only [arrive, hs]
    case eReady => unfold atReady; split <;> rfl
    all_goals rfl
  rw [goto_eq, harrive] at h
  unfold passingError at h
  split at h
  · cases h
  · exact h

theorem ec_still {e : Event} (h : Still t e t') : t'.ec = t.ec := by
  cases h with
  | callback n cb hreaction haside => cases haside <;> rfl
  | _ => rfl

/-- The lambdas of the teardown that report no error. -/
inductive Backward : Callback → State → Prop
  | cancelled (consumer : String) : Backward (.shutdownSuccess consumer) .eUnbindQueue
  | unbound : Backward .unbindQueueSuccess .eCloseChannel
  | removed : Backward .removeQueueSuccess .eCloseChannel
  | closed : Backward .closeChannelSuccess .eEnd

/-- A lambda that sets no error goes on with the set-up or with the teardown. -/
theorem forward_or_backward {cb : Callback} {s : State} (hreaction : t.reaction cb = some (u, s))
    (hec : u.ec = .eNoError) : t.ec = .eNoError ∧ (Forward t cb u s ∨ u = t ∧ Backward cb s) := by
  cases hsetsUp : s.beforeShutdown with
  | true =>
    have hforward := forward_of_reaction hreaction hsetsUp
    refine ⟨?_, Or.inl hforward⟩
    cases hforward <;> exact hec
  | false =>
    have hunset {ec : ExitCode} {message : String} (hne : ec ≠ .eNoError)
        (h : (t.setErrorIfUnset ec message).ec = .eNoError) : False := by
      unfold setErrorIfUnset at h
      by_cases hunset : t.ec = .eNoError
      · exact hne (by simpa [hunset] using h)
      · simp [hunset] at h
    cases cb <;> simp only [reaction, Option.ite_none_right_eq_some, Option.some.injEq,
      Prod.mk.injEq, reduceCtorEq] at hreaction
    case shutdownSuccess consumer =>
      obtain ⟨-, rfl, rfl⟩ := hreaction
      exact ⟨hec, Or.inr ⟨rfl, .cancelled consumer⟩⟩
    case unbindQueueSuccess =>
      obtain ⟨rfl, rfl⟩ := hreaction
      exact ⟨hec, Or.inr ⟨rfl, .unbound⟩⟩
    case removeQueueSuccess =>
      obtain ⟨rfl, rfl⟩ := hreaction
      exact ⟨hec, Or.inr ⟨rfl, .removed⟩⟩
    case closeChannelSuccess =>
      obtain ⟨rfl, rfl⟩ := hreaction
      exact ⟨hec, Or.inr ⟨rfl, .closed⟩⟩
    case unbindQueueError => exact (hunset (by decide) (hreaction.1 ▸ hec)).elim
    case removeQueueError => exact (hunset (by decide) (hreaction.1 ▸ hec)).elim
    case closeChannelError => exact (hunset (by decide) (hreaction.1 ▸ hec)).elim
    case createConsumerError =>
      split at hreaction
      · cases (Prod.mk.inj (Option.some.inj hreaction)).1 ▸ hec
      · obtain ⟨-, hreaction⟩ := Option.ite_none_right_eq_some.mp hreaction
        cases (Prod.mk.inj (Option.some.inj hreaction)).1 ▸ hec
    all_goals
      first
      | cases hreaction.1 ▸ hec
      | cases hreaction.2.1 ▸ hec
      | (have hs := hreaction.2.2
         subst hs
         revert hsetsUp
         first | (split <;> simp [State.beforeShutdown]) | simp [State.beforeShutdown])

/-- The moves of a run that report no error: it is stopped, or a lambda of one of its channels goes
on with the set-up or with the teardown. -/
inductive Clean (first : ℕ) (t : Transceiver) : Event → Transceiver → State → Prop
  | stop (hstate : t.state.beforeShutdown = true) : Clean first t .stop t (stopTransit t.state)
  | forward {n : ℕ} {cb : Callback} {u : Transceiver} {s : State} (hn : first ≤ n)
      (hforward : Forward (t.delivering n cb) cb u s) : Clean first t (.callback n cb) u s
  | backward {n : ℕ} {cb : Callback} {s : State} (hn : first ≤ n) (hbackward : Backward cb s) :
    Clean first t (.callback n cb) (t.delivering n cb) s

theorem Way.clean {e : Event} {s : State} (h : Way first t e u s) (hec : u.ec = .eNoError) :
    t.ec = .eNoError ∧ Clean first t e u s := by
  cases h with
  | stop hstate => exact ⟨hec, .stop hstate⟩
  | drop => cases hec
  | callback hn hreaction =>
    obtain ⟨hec', hforward | ⟨rfl, hbackward⟩⟩ := forward_or_backward hreaction hec
    · exact ⟨hec', .forward hn hforward⟩
    · exact ⟨hec', .backward hn hbackward⟩

/-! ### The current channel -/

/-- In the states that open a channel, `StateMachine()` makes it the current one. -/
theorem channel_goto (u : Transceiver) (s : State) :
    (u.goto s).channel =
      match u.landing s with
      | .eCreateChannel | .eRecreateChannel | .eUnbindQueue | .eRemoveQueue =>
        some u.channels.length
      | .eEnd => none
      | _ => u.channel := by
  have hlength : (u.passingError s).channels.length = u.channels.length := by
    unfold passingError
    split <;> rfl
  have hold (v : Transceiver) : v.closeOld.channels.length = v.channels.length := by
    cases hchannel : v.channel <;> simp [closeOld, observe, onChannel, hchannel]
  have hchannels := u.channels_passing s
  rw [goto_eq]
  generalize hv : (u.passingError s).passing (u.path s) = v at hchannels
  have hstate : v.state = u.landing s := hv ▸ u.state_passing s
  have hchannel : v.channel = u.channel := hv ▸ u.channel_passing s
  rw [← hstate, ← hchannels, ← hchannel]
  cases hs : v.state <;> simp only [arrive, hs]
  case eCreateChannel => rfl
  case eRecreateChannel | eUnbindQueue | eRemoveQueue => simp [newChannel, hold]
  case eReady => unfold atReady; split <;> rfl
  all_goals rfl

/-- While the set-up is under way, what is pending on the channels of the run is of its state. -/
theorem Sole.state_of_mem {first n : ℕ} {operation : Operation} (h : Sole first t)
    (hsetsUp : t.state.beforeShutdown = true) (hn : first ≤ n) (hmem : operation ∈ t.pendingOn n) :
    operation.state = t.state := by
  cases hc : t.channels[n]? with
  | none => simp [pendingOn, hc] at hmem
  | some c =>
    rw [pendingOn_eq hc, h.pends hsetsUp n c hn hc] at hmem
    split at hmem
    · exact awaited_state (by simpa using hmem)
    · simp at hmem

end Transceiver

end AmqpAsio
