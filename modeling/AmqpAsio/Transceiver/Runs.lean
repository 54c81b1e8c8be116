import AmqpAsio.Transceiver.Tracking

/-!
# The channels of one run

The channels made since the last accepted `start()` are those of the present run; the others belong
to runs before it. As long as the lambdas of earlier runs are turned away, a transceiver that sets
up has exactly one operation pending on the channels of its run, the one its state asks for
(`Sole`): every earlier one has been reported before the next was issued.
-/

set_option autoImplicit false
set_option relaxedAutoImplicit false

namespace AmqpAsio

namespace Transceiver

variable {t t' u : Transceiver} {first : ℕ}

/-- The event begins a run. -/
def begins (t : Transceiver) : Event → Bool
  | .start _ => t.state = .eEnd
  | _ => false

/-- The number of the first channel of the present run, once an event has happened. -/
def firstAfter (t : Transceiver) (first : ℕ) : Event → ℕ
  | .start _ => if t.state = .eEnd then t.channels.length else first
  | _ => first

/-- The event is not a lambda of an earlier run that calls `StateMachine()` in the present one. -/
def Undisturbed (first : ℕ) (t : Transceiver) (e : Event) : Prop :=
  ∀ n cb, e = .callback n cb → n < first → t.move e = none

/-- The operation that the state of a transceiver at rest asks for, while it sets up. -/
def awaited (t : Transceiver) : Option Operation :=
  match t.state with
  | .eCheckQueue => some (.declarePassive t.queue)
  | .eCreateExchange => some (.declareExchange t.exchange exchangeCreationFlags)
  | .eCreateQueue => some (.declareQueue t.queue t.qFlags)
  | .eBindQueue => some (.bindQueue t.exchange t.recvQueue t.routeIn)
  | .eCreateConsumer => some (.consume t.recvQueue)
  | _ => none

/-- The current channel is one of the present run. -/
def Owns (first : ℕ) (t : Transceiver) : Prop := ∃ k, t.channel = some k ∧ first ≤ k

/-- The only operation pending on the channels of the present run is the given one, and it is
pending on the current channel. -/
def Pends (first : ℕ) (t : Transceiver) (operation : Option Operation) : Prop :=
  ∀ n c, first ≤ n → t.channels[n]? = some c →
    c.pending = if t.channel = some n then operation.toList else []

/-- While it sets up, a transceiver awaits the operation of its state and nothing else. -/
structure Sole (first : ℕ) (t : Transceiver) : Prop where
  bound : first ≤ t.channels.length
  owns : t.state ≠ .eEnd → t.crashed = false → Owns first t
  pends : t.state.beforeShutdown = true → Pends first t t.awaited

theorem firstAfter_eq (t : Transceiver) (first : ℕ) (e : Event) :
    t.firstAfter first e = if t.begins e then t.channels.length else first := by
  cases e <;> simp [firstAfter, begins]

theorem awaited_state {operation : Operation} (h : t.awaited = some operation) :
    operation.state = t.state := by
  unfold awaited at h
  cases hs : t.state <;> simp only [hs, reduceCtorEq, Option.some.injEq] at h <;>
    exact h ▸ rfl

/-! ### Arriving -/

theorem Pends.of_eq {operation : Option Operation} (h : Pends first t operation)
    (hchannel : u.channel = t.channel) (hchannels : u.channels = t.channels) :
    Pends first u operation := by
  intro n c hn hc
  rw [hchannel]
  exact h n c hn (hchannels ▸ hc)

/-- A change to the current channel changes no other. -/
theorem getElem?_onChannel {f : Channel → Channel} {n : ℕ} {c : Channel}
    (hc : (t.onChannel f).channels[n]? = some c) :
    ∃ old, t.channels[n]? = some old ∧ c = if t.channel = some n then f old else old := by
  cases hchannel : t.channel with
  | none => exact ⟨c, by simpa [Transceiver.onChannel, hchannel] using hc, by simp⟩
  | some k =>
    obtain ⟨old, hold, hc⟩ : ∃ old, t.channels[n]? = some old ∧
      (if k = n then f old else old) = c := by
      simpa [Transceiver.onChannel, hchannel, List.getElem?_modify] using hc
    exact ⟨old, hold, by simp [← hc]⟩

/-- A channel is one there was, or the new one. -/
theorem getElem?_newChannel {ready : ReadyHandler} {error : ErrorHandler} {n : ℕ} {c : Channel}
    (hc : (t.newChannel ready error).channels[n]? = some c) :
    t.channels[n]? = some c ∨ n = t.channels.length ∧ c.pending = [] := by
  rcases Nat.lt_or_ge n t.channels.length with hlt | hge
  · exact Or.inl (by simpa [newChannel, List.getElem?_append_left hlt] using hc)
  · have hn : n < (t.newChannel ready error).channels.length := (List.getElem?_eq_some_iff.mp hc).1
    obtain rfl : n = t.channels.length := by
      simp only [newChannel, List.length_append, List.length_singleton] at hn
      omega
    obtain rfl : _ = c := by simpa [newChannel] using hc
    exact Or.inr ⟨rfl, rfl⟩

/-- A change to the current channel that leaves its operations alone. -/
theorem Pends.onChannel {operation : Option Operation} (h : Pends first t operation)
    (f : Channel → Channel) (hf : ∀ c, (f c).pending = c.pending) :
    Pends first (t.onChannel f) operation := by
  intro n c hn hc
  obtain ⟨old, hold, rfl⟩ := getElem?_onChannel hc
  have hpending := h n old hn hold
  split
  · exact (hf old).trans hpending
  · exact hpending

theorem Pends.newChannel (h : Pends first t none) (ready : ReadyHandler) (error : ErrorHandler) :
    Pends first (t.newChannel ready error) none := by
  intro n c hn hc
  rcases getElem?_newChannel hc with hc | ⟨-, hempty⟩
  · simpa using h n c hn hc
  · simpa using hempty

/-- An operation issued is pending on the current channel. -/
theorem Pends.issue (h : Pends first t none) (operation : Operation) :
    Pends first (t.issue operation) (some operation) := by
  intro n c hn hc
  change _ = if t.channel = some n then _ else _
  obtain ⟨old, hold, rfl⟩ := getElem?_onChannel hc
  have hempty : old.pending = [] := by simpa using h n old hn hold
  split <;> simp [hempty]

theorem awaited_congr (hstate : u.state = t.state) (hqueue : u.queue = t.queue)
    (hexchange : u.exchange = t.exchange) (hflags : u.qFlags = t.qFlags)
    (hrecvQueue : u.recvQueue = t.recvQueue) (hroute : u.routeIn = t.routeIn) :
    u.awaited = t.awaited := by
  simp only [awaited, hstate, hqueue, hexchange, hflags, hrecvQueue, hroute]

/-- What is asked for in a state that sets up is pending on the current channel of a run that has
nothing else pending. -/
theorem pends_arrive (hstate : t.state.beforeShutdown = true) (hpends : Pends first t none) :
    Pends first t.arrive t.arrive.awaited := by
  have hissue (operation : Operation) (harrive : t.arrive = t.issue operation)
      (hawaited : t.awaited = some operation) : Pends first t.arrive t.arrive.awaited := by
    rw [harrive, awaited_congr (u := t.issue operation) (t := t) rfl rfl rfl rfl rfl rfl, hawaited]
    exact hpends.issue operation
  have hnone (v : Transceiver) (harrive : t.arrive = v) (hawaited : v.awaited = none)
      (hv : Pends first v none) : Pends first t.arrive t.arrive.awaited := by
    rw [harrive, hawaited]
    exact hv
  cases hs : t.state <;> simp only [hs, State.beforeShutdown, reduceCtorEq] at hstate
  case eCreateChannel =>
    exact hnone _ (by simp only [arrive, hs]; rfl) (by simp [awaited, Transceiver.newChannel, hs])
      (hpends.newChannel _ _)
  case eRecreateChannel =>
    refine hnone (t.closeOld.newChannel .recreateChannel .recreateChannel)
      (by simp only [arrive, hs]) ?_ (Pends.newChannel ?_ _ _)
    · simp [awaited, Transceiver.newChannel, closeOld, observe, Transceiver.onChannel, hs]
    · exact (hpends.onChannel id fun _ ↦ rfl).of_eq rfl rfl
  case eReady =>
    unfold arrive atReady
    simp only [hs]
    split
    · rw [show t.awaited = none by simp [awaited, hs]]
      exact hpends
    · rw [show (t.setOnError (some .ready)).awaited = none by
        simp [awaited, setOnError, Transceiver.onChannel, hs]]
      exact hpends.onChannel _ fun _ ↦ rfl
  all_goals
    refine hissue _ ?_ (by simp only [awaited, hs]; rfl)
    simp only [arrive, hs]

/-! ### A reply to what is awaited -/

/-- What a lambda sets before it calls `StateMachine()` leaves the operations alone. -/
theorem Pends.reaction {operation : Option Operation} {cb : Callback} {s : State}
    (h : Pends first t operation) (hreaction : t.reaction cb = some (u, s)) :
    Pends first u operation := by
  have hset (v : Transceiver) (hsame : { t with
      queueExist := v.queueExist, recvQueue := v.recvQueue, consumerTag := v.consumerTag,
      error := v.error, ec := v.ec } = v) : Pends first v operation := hsame ▸ h.of_eq rfl rfl
  cases cb <;> simp only [Transceiver.reaction, Option.ite_none_right_eq_some, Option.some.injEq,
    Prod.mk.injEq, reduceCtorEq] at hreaction
  case createChannelReady => exact hreaction.2.1 ▸ h.onChannel _ fun _ ↦ rfl
  case recreateChannelReady => exact hreaction.2.1 ▸ h.onChannel _ fun _ ↦ rfl
  case createConsumerError =>
    split at hreaction
    · exact (Prod.mk.inj (Option.some.inj hreaction)).1 ▸ hset _ rfl
    · obtain ⟨-, hreaction⟩ := Option.ite_none_right_eq_some.mp hreaction
      exact (Prod.mk.inj (Option.some.inj hreaction)).1 ▸ hset _ rfl
  all_goals
    first
    | exact hreaction.1 ▸ hset _ rfl
    | exact hreaction.2.1 ▸ hset _ rfl

theorem getElem?_delivering {n m : ℕ} {cb : Callback} {c : Channel}
    (hc : (t.delivering n cb).channels[m]? = some c) :
    ∃ old, t.channels[m]? = some old ∧ c = if n = m then old.deliver cb else old := by
  obtain ⟨old, hold, hc⟩ : ∃ old, t.channels[m]? = some old ∧
      (if n = m then old.deliver cb else old) = c := by
    simpa [delivering, List.getElem?_modify] using hc
  exact ⟨old, hold, hc.symm⟩

/-- A lambda called for a channel of the run that is not turned away reports what is awaited, but
for the failure of a sender's channel. -/
theorem reports_of_reacts {n : ℕ} {c : Channel} {cb : Callback} {operation : Operation}
    (hpends : Pends first t t.awaited) (hawaited : t.awaited = some operation) (hn : first ≤ n)
    (hc : t.channels[n]? = some c) (hregistered : c.registered cb = true)
    (hreacts : t.reaction cb ≠ none) (hother : ∀ message, cb ≠ .readyError message) :
    t.channel = some n ∧ operation.reports cb = true := by
  have hopening : ∀ s : State, s = .eCreateChannel ∨ s = .eRecreateChannel ∨ s = .eUnbindQueue ∨
      s = .eRemoveQueue → t.state ≠ s := by
    rintro s hs rfl
    rcases hs with hs | hs | hs | hs <;> simp [awaited, hs] at hawaited
  have hreports : c.pending.any (·.reports cb) = true := by
    unfold Channel.registered at hregistered
    simp only [Bool.or_eq_true] at hregistered
    rcases hregistered with ((hready | herror) | hpending) | hlater
    · obtain ⟨ready, -, hready⟩ := (Option.any_eq_true _ _).mp hready
      have hcb : ready.callback = cb := by simpa using hready
      subst hcb
      cases ready <;> simp [ReadyHandler.callback, Transceiver.reaction, hopening] at hreacts
    · obtain ⟨error, -, herror⟩ := (Option.any_eq_true _ _).mp herror
      cases error <;> cases cb <;> simp only [ErrorHandler.reports, Bool.false_eq_true]
        at herror <;>
        simp [Transceiver.reaction, hopening] at hreacts hother
    · exact hpending
    · cases cb <;> simp [Transceiver.reaction] at hlater hreacts
  have hpending := hpends n c hn hc
  rw [hawaited] at hpending
  split at hpending
  · next hcurrent => exact ⟨hcurrent, by simpa [hpending] using hreports⟩
  · simp [hpending] at hreports

/-- Once what is awaited has been reported, nothing is pending on the channels of the run. -/
theorem pends_delivering {n : ℕ} {c : Channel} {cb : Callback}
    (hpends : Pends first t t.awaited) (hn : first ≤ n) (hc : t.channels[n]? = some c)
    (hregistered : c.registered cb = true) (hreacts : t.reaction cb ≠ none)
    (hother : ∀ message, cb ≠ .readyError message) : Pends first (t.delivering n cb) none := by
  intro m c' hm hc'
  obtain ⟨old, hold, rfl⟩ := getElem?_delivering hc'
  have hpending := hpends m old hm hold
  suffices (if n = m then old.deliver cb else old).pending = [] by simpa using this
  cases hawaited : t.awaited with
  | none =>
    have hempty : old.pending = [] := by simpa [hawaited] using hpending
    split <;> simp [Channel.deliver, hempty]
  | some operation =>
    obtain ⟨hcurrent, hreports⟩ :=
      reports_of_reacts hpends hawaited hn hc hregistered hreacts hother
    rw [hawaited, hcurrent] at hpending
    split
    · next hsame => simp [Channel.deliver, hpending, hsame, hreports]
    · next hne => simpa [hne] using hpending

/-- A callback that is turned away reports nothing that is awaited. -/
theorem pends_turnedAway {n : ℕ} {cb : Callback} (hpends : Pends first t t.awaited)
    (hstate : t.state.beforeShutdown = true) (hreaction : t.reaction cb = none) :
    Pends first (t.delivering n cb) t.awaited := by
  intro m c hm hc
  obtain ⟨old, hold, rfl⟩ := getElem?_delivering hc
  have hpending := hpends m old hm hold
  split
  · refine Eq.trans ?_ hpending
    refine List.eraseP_of_forall_not fun operation hmem hreports ↦ ?_
    rw [hpending] at hmem
    split at hmem
    · have hawaited : t.awaited = some operation := by simpa using hmem
      have hsame := awaited_state hawaited
      exact reaction_ne_none_of_reports hreports
        (Or.inr ⟨by rw [Operation.SetsUp, hsame, hstate], hsame.symm⟩) hreaction
    · simp at hmem
  · exact hpending

/-! ### The present run through a step -/

/-- A run begins with a new channel, or, without a connection, is over at once. -/
theorem state_of_begins {e : Event} (hbegins : t.begins e = true) (hstep : t.step e = some t') :
    t'.state = .eCreateChannel ∨ t'.state = .eEnd := by
  cases e with
  | start connection =>
    have hend : t.state = .eEnd := by simpa [begins] using hbegins
    have hmove : t.move (.start connection) = some (_, .eCreateChannel) := if_pos hend
    rw [step_of_move hstep hmove, state_goto]
    simp only [landing, path]
    split <;> simp
  | _ => cases hbegins

/-- At its end, a transceiver stays there until a run begins or a null pointer is used. -/
theorem ended_step {e : Event} (hwell : t.WellFormed) (hend : t.state = .eEnd)
    (hbegins : t.begins e = false) (hstep : t.step e = some t') :
    t'.state = .eEnd ∨ t'.crashed = true := by
  cases hmove : t.move e with
  | none => exact Or.inl ((step_of_no_move hstep hmove).state.trans hend)
  | some next =>
    obtain ⟨u, s⟩ := next
    have hstart : ∀ connection, e ≠ .start connection := by
      rintro connection rfl
      simp [begins, hend] at hbegins
    rw [step_of_move hstep hmove]
    rcases move_at_end hwell hend hstart hmove with ⟨rfl, -⟩ | ⟨-, hcrash⟩
    · exact Or.inl (by simp [landing, path])
    · exact Or.inr hcrash

/-- Where a step goes on setting up, it does so from the set-up, unless a run begins. -/
theorem beforeShutdown_of_step {e : Event} (hwell : t.WellFormed) (hbegins : t.begins e = false)
    (hstep : t.step e = some t') (hsetsUp : t'.state.beforeShutdown = true) :
    t.state.beforeShutdown = true := by
  by_cases hend : t.state = .eEnd
  · rcases ended_step hwell hend hbegins hstep with hend' | hcrash
    · simp [hend', State.beforeShutdown] at hsetsUp
    · simp [(wellFormed_step hwell hstep).crashed hcrash, State.beforeShutdown] at hsetsUp
  · cases hmove : t.move e with
    | none => exact (step_of_no_move hstep hmove).state ▸ hsetsUp
    | some next =>
      obtain ⟨u, s⟩ := next
      rw [step_of_move hstep hmove, state_goto] at hsetsUp
      exact beforeShutdown_of_landing hend hmove (Or.inl hsetsUp)

theorem channel_passing (t : Transceiver) (s : State) :
    ((t.passingError s).passing (t.path s)).channel = t.channel := by
  unfold passing passingError
  split <;> rfl

theorem channels_passing (t : Transceiver) (s : State) :
    ((t.passingError s).passing (t.path s)).channels = t.channels := by
  unfold passing passingError
  split <;> rfl

theorem state_passing (t : Transceiver) (s : State) :
    ((t.passingError s).passing (t.path s)).state = t.landing s := by
  simp [passing, getLast?_path]

/-- Channels are made, never unmade. -/
theorem length_arrive (t : Transceiver) : t.channels.length ≤ t.arrive.channels.length := by
  have honChannel (f : Channel → Channel) : (t.onChannel f).channels.length =
    t.channels.length := by
    cases hchannel : t.channel <;> simp [onChannel, hchannel]
  have hissue (operation : Operation) : t.channels.length ≤ (t.issue operation).channels.length :=
    Nat.le_of_eq (honChannel _).symm
  have hnew (v : Transceiver) (hv : v.channels.length = t.channels.length) (ready : ReadyHandler)
      (error : ErrorHandler) : t.channels.length ≤ (v.newChannel ready error).channels.length := by
    simp [newChannel, hv]
  cases hstate : t.state <;> simp only [arrive, hstate] <;>
    first
    | exact hissue _
    | exact hnew _ rfl _ _
    | exact hnew _ (honChannel id) _ _
    | exact Nat.le_refl _
    | (unfold atReady; split; exacts [Nat.le_refl _, Nat.le_of_eq (honChannel _).symm])

/-- The current channel is an old one or has been made for the present run. -/
theorem owns_arrive (hbound : first ≤ t.channels.length)
    (howns : t.state ≠ .eCreateChannel → Owns first t) (hstate : t.state ≠ .eEnd) :
    Owns first t.arrive := by
  have hnew (v : Transceiver) (hv : v.channels.length = t.channels.length) (ready : ReadyHandler)
      (error : ErrorHandler) : Owns first (v.newChannel ready error) :=
    ⟨v.channels.length, rfl, hv ▸ hbound⟩
  have hclosed : t.closeOld.channels.length = t.channels.length := by
    cases hchannel : t.channel <;> simp [closeOld, observe, onChannel, hchannel]
  cases hs : t.state <;> simp only [arrive, hs]
  case eCreateChannel => exact hnew t rfl _ _
  case eRecreateChannel | eUnbindQueue | eRemoveQueue => exact hnew _ hclosed _ _
  case eEnd => exact absurd hs hstate
  case eReady =>
    unfold atReady
    split <;> exact howns (by simp [hs])
  all_goals exact howns (by simp [hs])

/-- A call of `StateMachine()`, from a state in which nothing is pending if it goes on setting
up. -/
theorem sole_goto {s : State} (hbound : first ≤ t.channels.length)
    (howns : t.landing s ≠ .eCreateChannel → t.landing s ≠ .eEnd → (t.goto s).crashed = false →
      Owns first t)
    (hpends : (t.landing s).beforeShutdown = true → Pends first
      t none) : Sole first (t.goto s) := by
  have hstate := t.state_passing s
  have hchannel := t.channel_passing s
  have hchannels := t.channels_passing s
  refine ⟨?_, fun hend hcrashed ↦ ?_, fun hsetsUp ↦ ?_⟩
  · rw [goto_eq]
    exact Nat.le_trans (by rwa [hchannels]) (length_arrive _)
  · rw [state_goto] at hend
    rw [goto_eq]
    refine owns_arrive (by rwa [hchannels]) (fun hcreate ↦ ?_) (by rwa [hstate])
    rw [hstate] at hcreate
    obtain ⟨k, hk, hle⟩ := howns hcreate hend hcrashed
    exact ⟨k, hchannel.trans hk, hle⟩
  · rw [state_goto] at hsetsUp
    rw [goto_eq]
    exact pends_arrive (by rwa [hstate]) ((hpends hsetsUp).of_eq hchannel hchannels)

/-- What is pending on the channels of the run once the fields are set with which a set-up goes
on. -/
theorem Sole.pends_move {e : Event} {s : State} (h : Sole first t) (hrunning : t.state ≠ .eEnd)
    (hundisturbed : Undisturbed first t e) (hstep : t.step e = some t')
    (hmove : t.move e = some (u, s)) (hsetsUp : (u.landing s).beforeShutdown = true) :
    Pends first u none := by
  have hstate := beforeShutdown_of_landing hrunning hmove (Or.inl hsetsUp)
  have hs : s.beforeShutdown = true := by
    by_contra hdown
    simp [beforeShutdown_of_mem_path (by simpa using hdown) (u.landing_mem_path s)] at hsetsUp
  have hpends := h.pends hstate
  cases e with
  | install | send => cases hmove
  | start connection => simp [move, hrunning] at hmove
  | stop =>
    obtain ⟨-, hmove⟩ := Option.ite_none_right_eq_some.mp hmove
    obtain ⟨rfl, rfl⟩ := Prod.mk.inj (Option.some.inj hmove)
    have hrecreate : t.state = .eRecreateChannel := by
      by_contra hlisted
      simp [beforeShutdown_stopTransit hstate hlisted] at hs
    rwa [show t.awaited = none by simp [awaited, hrecreate]] at hpends
  | drop =>
    obtain ⟨-, hmove⟩ := Option.ite_none_left_eq_some.mp hmove
    obtain ⟨-, rfl⟩ := Prod.mk.inj (Option.some.inj hmove)
    cases hs
  | callback n cb =>
    have hn : first ≤ n := by
      by_contra hlt
      simp [hundisturbed n cb rfl (by omega)] at hmove
    obtain ⟨⟨c, hc, hregistered⟩, -⟩ := step_callback hstep
    have hreacts : t.reaction cb ≠ none := by
      rw [Ne, ← reaction_delivering_eq_none (n := n) (d := cb)]
      exact Option.ne_none_iff_exists'.mpr ⟨_, hmove⟩
    refine Pends.reaction (pends_delivering hpends hn hc hregistered hreacts ?_) hmove
    rintro message rfl
    obtain ⟨-, rfl⟩ := Prod.mk.inj (Option.some.inj hmove)
    cases hs

/-- What a method or a lambda does before it calls `StateMachine()` makes no channel. -/
theorem channel_move {e : Event} {s : State} (hmove : t.move e = some (u, s)) :
    u.channel = t.channel ∧ u.channels.length = t.channels.length := by
  cases e with
  | install | send => cases hmove
  | callback n cb =>
    have hprepared := reaction_prepared hmove
    exact ⟨hprepared.channel, hprepared.length.trans (by simp [delivering])⟩
  | _ =>
    simp only [move, Option.ite_none_right_eq_some, Option.ite_none_left_eq_some] at hmove
    obtain ⟨rfl, -⟩ := Prod.mk.inj (Option.some.inj hmove.2)
    exact ⟨rfl, rfl⟩

/-- A step that leaves the state machine where it is leaves what is awaited. -/
theorem Sole.stay {e : Event} (h : Sole first t) (hstep : t.step e = some t')
    (hmove : t.move e = none) : Sole first t' := by
  -- only the channels, and of these only what is not pending, may have changed
  have hsame (v : Transceiver) (hstate : v.state = t.state) (hchannel : v.channel = t.channel)
      (hlength : t.channels.length = v.channels.length)
      (hpends : t.state.beforeShutdown = true → Pends first v v.awaited) : Sole first v := by
    refine ⟨hlength ▸ h.bound, fun hend _ ↦ ?_, fun hsetsUp ↦ hpends (hstate ▸ hsetsUp)⟩
    obtain ⟨k, hk, hle⟩ := h.owns (hstate ▸ hend) (crashed_eq_false_of_step hstep)
    exact ⟨k, hchannel.trans hk, hle⟩
  cases still_of_no_move hstep hmove with
  | idle => exact h
  | install => exact hsame _ rfl rfl rfl fun hsetsUp ↦ h.pends hsetsUp
  | publish =>
    refine hsame _ rfl rfl ?_ fun hsetsUp ↦ ?_
    · cases hchannel : t.channel <;> simp [observe, onChannel, hchannel]
    · exact ((h.pends hsetsUp).onChannel (fun c ↦ { c with publishing := true }) fun _ ↦ rfl).of_eq
        rfl rfl
  | callback n cb hreaction haside =>
    have hlength : t.channels.length = (t.delivering n cb).channels.length := by simp [delivering]
    have hpends (hsetsUp : t.state.beforeShutdown = true) :
        Pends first (t.delivering n cb) t.awaited :=
      pends_turnedAway (h.pends hsetsUp) hsetsUp hreaction
    cases haside with
    | issue operation hissues =>
      refine hsame _ rfl rfl ?_ fun hsetsUp ↦ ?_
      · cases hchannel : t.channel <;> simp [issue, observe, setOnError, onChannel, delivering,
          hchannel]
      · rcases hissues.state with hs | hs <;> change t.state = _ at hs <;>
          simp [hs, State.beforeShutdown] at hsetsUp
    | _ => exact hsame _ rfl rfl hlength hpends

/-- The step lemma: a run that is not disturbed by earlier ones goes on awaiting the operation of
its state and nothing else. -/
theorem Sole.step {e : Event} (h : Sole first t) (hwell : t.WellFormed)
    (hundisturbed : Undisturbed first t e) (hstep : t.step e = some t') :
    Sole (t.firstAfter first e) t' := by
  have hcrashed := crashed_eq_false_of_step hstep
  cases hmove : t.move e with
  | none =>
    have hfirst : t.firstAfter first e = first := by
      cases e with
      | start connection =>
        have hstate : t.state ≠ .eEnd := fun hend ↦ by simp [move, hend] at hmove
        simp [firstAfter, hstate]
      | _ => rfl
    rw [hfirst]
    exact h.stay hstep hmove
  | some next =>
    obtain ⟨u, s⟩ := next
    obtain rfl := step_of_move hstep hmove
    obtain ⟨hchannel, hlength⟩ := channel_move hmove
    by_cases hstart : t.state = .eEnd ∧ ∃ connection, e = .start connection
    · obtain ⟨hend, connection, rfl⟩ := hstart
      obtain ⟨-, hmove⟩ := Option.ite_none_right_eq_some.mp hmove
      obtain ⟨rfl, rfl⟩ := Prod.mk.inj (Option.some.inj hmove)
      rw [firstAfter, if_pos hend]
      refine sole_goto (Nat.le_refl _) (fun hcreate hrunning _ ↦ ?_) fun _ n c hn hc ↦ ?_
      · simp only [landing, path] at hcreate hrunning
        split at hcreate <;> simp_all
      · obtain ⟨hlt, -⟩ := List.getElem?_eq_some_iff.mp hc
        exact absurd hn (Nat.not_le.mpr hlt)
    · have hfirst : t.firstAfter first e = first := by
        cases e with
        | start connection =>
          have hrunning : t.state ≠ .eEnd := fun hend ↦ hstart ⟨hend, connection, rfl⟩
          simp [firstAfter, hrunning]
        | _ => rfl
      rw [hfirst]
      by_cases hend : t.state = .eEnd
      · have hno : ∀ connection, e ≠ .start connection := fun connection he ↦ hstart ⟨hend, _, he⟩
        rcases move_at_end hwell hend hno hmove with ⟨rfl, -⟩ | ⟨hclose, hcrash⟩
        · exact sole_goto (hlength ▸ h.bound) (fun _ hne ↦ absurd rfl hne) fun hsetsUp ↦ by
            simp [landing, path, State.beforeShutdown] at hsetsUp
        · refine sole_goto (hlength ▸ h.bound) (fun _ _ hnone ↦ by simp [hcrash] at hnone)
            fun hsetsUp ↦ ?_
          simp [hclose, State.beforeShutdown] at hsetsUp
      · refine sole_goto (hlength ▸ h.bound) (fun _ _ _ ↦ ?_)
          (h.pends_move hend hundisturbed hstep hmove)
        obtain ⟨k, hk, hle⟩ := h.owns hend hcrashed
        exact ⟨k, hchannel.trans hk, hle⟩

theorem sole_new (exchange queue routeIn : String) (listener : Bool) :
    Sole 0 (new exchange queue routeIn listener) :=
  ⟨Nat.le_refl _, fun hrunning ↦ absurd rfl hrunning, fun hsetsUp ↦ by cases hsetsUp⟩

end Transceiver

end AmqpAsio
