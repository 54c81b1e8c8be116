import AmqpAsio.Transceiver.Tracking

/-!
# A transceiver never gets stuck

`stop()` moves a transceiver on while the replies to the step it abandons are still to come, and the
lambdas of that step then return at once. So in every state but `eEnd` and `eReady` something else
has to be outstanding on the current channel whose lambdas do not: its opening, or an operation.
`Live` says so, and it holds of every reachable transceiver as long as a `cancel` is confirmed with
the tag that was cancelled.
-/

set_option autoImplicit false
set_option relaxedAutoImplicit false

namespace AmqpAsio

namespace Transceiver

variable {t t' u : Transceiver}

/-! ### Acting on an outcome -/

/-- The lambda, called for a channel, changes `m_state` or issues the next operation. -/
def Acts (t : Transceiver) (n : ℕ) (cb : Callback) : Prop :=
  (t.deliver n cb).state ≠ t.state ∨
    ∃ c operation, Observation.issued c operation ∈ (t.deliver n cb).log.drop t.log.length

/-- The callback reports the outcome of the operation, a `cancel` being confirmed with its own
tag. -/
def Operation.Answers (operation : Operation) (cb : Callback) : Prop :=
  operation.reports cb = true ∧ ∀ consumer, cb = .shutdownSuccess consumer →
    operation = .cancel consumer

/-- The opening of the current channel is outstanding, or an operation on it, and the transceiver
acts on its success as well as on its failure. -/
def Live (t : Transceiver) : Prop :=
  ∃ n c, t.channel = some n ∧ t.channels[n]? = some c ∧
    ((∃ ready error, c.onReady = some ready ∧ c.onError = some error ∧ t.Acts n ready.callback ∧
        ∀ message, t.Acts n (error.callback message)) ∨
      ∃ operation ∈ c.pending, ∀ cb, operation.Answers cb → t.Acts n cb)

/-- A `cancel` is confirmed with a tag that was cancelled on the channel. -/
def Confirms (t : Transceiver) (e : Event) : Prop :=
  ∀ n consumer c, e = .callback n (.shutdownSuccess consumer) → t.channels[n]? = some c →
    .cancel consumer ∈ c.pending

theorem log_goto_eCloseChannel {n : ℕ} {s : State} (hchannel : t.channel = some n)
    (hlanding : t.landing s = .eCloseChannel) :
    (t.goto s).log = t.log ++ (t.path s).map .entered ++ [.issued n .close] := by
  have hstate : ((t.passingError s).passing (t.path s)).state = .eCloseChannel := by
    simp [passing, getLast?_path, hlanding]
  have hsame : ((t.passingError s).passing (t.path s)).channel = some n := by
    rw [← hchannel, passing]
    unfold passingError
    split <;> rfl
  rw [goto_eq, arrive, hstate]
  simp only [issue, observe, onChannel, hsame, Option.map_some, Option.toList_some]
  rw [passing, log_passingError]

/-- A lambda that goes to another state acts, and one that closes the channel does. -/
theorem acts_of_reaction {n k : ℕ} {cb : Callback} {s : State} (hchannel : t.channel = some k)
    (hreaction : (t.delivering n cb).reaction cb = some (u, s))
    (hlanding : u.landing s ≠ t.state ∨ u.landing s = .eCloseChannel) : t.Acts n cb := by
  have hprepared := reaction_prepared hreaction
  have hdeliver : t.deliver n cb = u.goto s := by rw [deliver_eq, call_of_reaction hreaction]
  rcases hlanding with hlanding | hlanding
  · exact Or.inl (by rwa [hdeliver, state_goto])
  · refine Or.inr ⟨k, .close, ?_⟩
    have hlog : u.log = t.log := hprepared.log
    rw [hdeliver, log_goto_eCloseChannel (hprepared.channel.trans hchannel) hlanding, hlog,
      List.append_assoc, List.drop_left]
    simp

/-- A lambda that is not turned away leaves its state or closes the channel, but for the
confirmation of a `cancel` that comes while the queue is unbound already. -/
theorem landing_ne_of_reaction {cb : Callback} {s : State} (hrunning : t.state ≠ .eEnd)
    (hreaction : t.reaction cb = some (u, s)) :
    (u.landing s ≠ t.state ∨ u.landing s = .eCloseChannel) ∨
      t.state = .eUnbindQueue ∧ ((∃ consumer, cb = .shutdownSuccess consumer) ∨
        ∃ message, cb = .shutdownError message) := by
  have hend : State.eEnd ≠ t.state := hrunning.symm
  cases cb <;> simp only [reaction, Option.ite_none_right_eq_some, Option.some.injEq,
    Prod.mk.injEq, reduceCtorEq] at hreaction
  case createConsumerError =>
    left; left
    split at hreaction
    · next hstate =>
      obtain ⟨-, rfl⟩ := Prod.mk.inj (Option.some.inj hreaction)
      simp only [landing, path, hstate]
      split <;> simp
    · obtain ⟨-, hreaction⟩ := Option.ite_none_right_eq_some.mp hreaction
      obtain ⟨-, rfl⟩ := Prod.mk.inj (Option.some.inj hreaction)
      simpa [landing, path] using hend
  case shutdownSuccess =>
    obtain ⟨-, -, rfl⟩ := hreaction
    by_cases hstate : t.state = .eUnbindQueue
    · exact Or.inr ⟨hstate, Or.inl ⟨_, rfl⟩⟩
    · left
      simp only [landing, path]
      split
      · exact Or.inr rfl
      · exact Or.inl (Ne.symm hstate)
  case shutdownError =>
    obtain ⟨-, rfl⟩ := hreaction
    by_cases hstate : t.state = .eUnbindQueue
    · exact Or.inr ⟨hstate, Or.inr ⟨_, rfl⟩⟩
    · left
      simp only [landing, path]
      split
      · exact Or.inr rfl
      · exact Or.inl (Ne.symm hstate)
  all_goals
    left
    obtain ⟨hstate, -, rfl⟩ := hreaction
    simp only [landing, path]
    (repeat' split) <;> simp_all

/-- A lambda that is not turned away acts, the confirmation of a `cancel` apart. -/
theorem acts_of_reaction_ne_none {n k : ℕ} {cb : Callback} (hrunning : t.state ≠ .eEnd)
    (hchannel : t.channel = some k) (hreacts : t.reaction cb ≠ none)
    (hcancel : t.state = .eUnbindQueue → (∀ consumer, cb ≠ .shutdownSuccess consumer) ∧
      ∀ message, cb ≠ .shutdownError message) : t.Acts n cb := by
  rw [Ne, ← reaction_delivering_eq_none (n := n) (d := cb)] at hreacts
  obtain ⟨⟨u, s⟩, hreaction⟩ := Option.ne_none_iff_exists'.mp hreacts
  rcases landing_ne_of_reaction (t := t.delivering n cb) hrunning hreaction with hlanding | hunbind
  · exact acts_of_reaction hchannel hreaction hlanding
  · obtain ⟨hstate, ⟨consumer, hcb⟩ | ⟨message, hcb⟩⟩ := hunbind
    · exact absurd hcb ((hcancel hstate).1 consumer)
    · exact absurd hcb ((hcancel hstate).2 message)

/-- The operations whose outcome takes the transceiver on, by the state it is in. -/
def Operation.Awaited (operation : Operation) (consumerTag : String) : State → Prop
  | .eShutdown => operation = .cancel consumerTag
  | .eUnbindQueue | .eRemoveQueue | .eCloseChannel => operation.Ends
  | s => operation.SetsUp ∧ operation.state = s

/-- The transceiver acts on both outcomes of an operation that its state waits for. -/
theorem acts_of_answers {n k : ℕ} {operation : Operation} {cb : Callback}
    (hrunning : t.state ≠ .eEnd) (hchannel : t.channel = some k)
    (hawaited : operation.Awaited t.consumerTag t.state) (hanswers : operation.Answers cb) :
    t.Acts n cb := by
  obtain ⟨hreports, htag⟩ := hanswers
  refine acts_of_reaction_ne_none hrunning hchannel ?_ fun hstate ↦ ?_
  · by_cases hshutdown : t.state = .eShutdown
    · rw [hshutdown, Operation.Awaited] at hawaited
      subst hawaited
      cases cb <;> simp only [Operation.reports, Bool.false_eq_true] at hreports
      case shutdownSuccess consumer =>
        have := htag consumer rfl
        simp_all [reaction]
      case shutdownError => simp [reaction]
    · refine reaction_ne_none_of_reports hreports ?_
      cases hs : t.state <;> simp_all [Operation.Awaited]
  · -- a `cancel` is not among what is waited for while the queue is unbound
    rw [hstate] at hawaited
    have hends : operation.Ends := hawaited
    constructor <;> rintro arg rfl <;> cases operation <;>
      simp [Operation.reports, Operation.Ends, Operation.state] at hreports hends

/-- A new channel that has been opened for an operation gets it. -/
theorem acts_of_issue {n k : ℕ} {cb : Callback} (hchannel : t.channel = some k)
    {operation : Operation} (hcall : t.deliver n cb =
      ((t.delivering n cb).setOnError none).issue operation) : t.Acts n cb := by
  refine Or.inr ⟨k, operation, ?_⟩
  simp [hcall, issue, observe, onChannel, setOnError, delivering, hchannel]

/-! ### What is outstanding on the current channel -/

/-- A channel has outstanding what the state needs, apart from what `Awaits` says of it: a new
channel its opening, and a listener being shut down the `cancel` of its consumer. -/
def Poise (consumerTag : String) (c : Channel) : State → Prop
  | .eCreateChannel => c.onReady = some .createChannel
  | .eRecreateChannel => c.onReady = some .recreateChannel
  | .eShutdown => ∃ first, c.pending = first ++ [.cancel consumerTag] ∧
      ∀ operation ∈ first, operation.SetsUp
  | .eUnbindQueue => c.onError = some .unbindQueue → c.onReady = some .unbindQueue
  | .eRemoveQueue => c.onError = some .removeQueue → c.onReady = some .removeQueue
  | _ => True

/-- The current channel has outstanding what the state needs. -/
def Poised (t : Transceiver) : Prop :=
  ∀ n c, t.channel = some n → t.channels[n]? = some c → Poise t.consumerTag c t.state

theorem poised_newChannel (t : Transceiver) (ready : ReadyHandler) (error : ErrorHandler)
    (hpoise : ∀ connection,
      Poise t.consumerTag ⟨connection, some ready, some error, [], false, false⟩
      t.state) : (t.newChannel ready error).Poised := by
  rintro n c hn hc
  obtain rfl := Option.some.inj hn
  obtain rfl : _ = c := by simpa [newChannel] using hc
  exact hpoise t.connection

/-- Only the states that open a channel or cancel a consumer need anything more. -/
theorem poise_of_state {consumerTag : String} {c : Channel} {s : State}
    (hs : s ≠ .eCreateChannel ∧ s ≠ .eRecreateChannel ∧ s ≠ .eShutdown ∧ s ≠ .eUnbindQueue ∧
      s ≠ .eRemoveQueue) : Poise consumerTag c s := by
  cases s <;> simp_all [Poise]

/-- A transceiver that comes to rest has outstanding what its state needs. -/
theorem poised_arrive (hshutdown : t.state = .eShutdown → ∀ n c, t.channel = some n →
    t.channels[n]? = some c → ∀ operation ∈ c.pending, operation.SetsUp) : t.arrive.Poised := by
  cases hstate : t.state
  case eCreateChannel =>
    simp only [arrive, hstate]
    exact poised_newChannel t _ _ fun _ ↦ by rw [hstate]; rfl
  case eRecreateChannel =>
    simp only [arrive, hstate]
    exact poised_newChannel t.closeOld _ _ fun _ ↦ by
      simp [closeOld, observe, onChannel, hstate, Poise]
  case eUnbindQueue =>
    simp only [arrive, hstate]
    exact poised_newChannel t.closeOld _ _ fun _ ↦ by
      simp [closeOld, observe, onChannel, hstate, Poise]
  case eRemoveQueue =>
    simp only [arrive, hstate]
    exact poised_newChannel t.closeOld _ _ fun _ ↦ by
      simp [closeOld, observe, onChannel, hstate, Poise]
  case eShutdown =>
    simp only [arrive, hstate]
    intro n c hn hc
    change t.channel = some n at hn
    obtain ⟨c, hold, rfl⟩ : ∃ old, t.channels[n]? = some old ∧ _ = c := by
      simpa [issue, observe, onChannel, hn] using hc
    change Poise t.consumerTag _ t.state
    rw [hstate]
    exact ⟨c.pending, rfl, hshutdown hstate n c hn hold⟩
  all_goals
    intro n c _ _
    rw [state_arrive, hstate]
    exact poise_of_state (by simp)

/-- A callback that is turned away leaves a channel what the state needs. -/
theorem Poise.deliver {c : Channel} {cb : Callback} (h : Poise t.consumerTag c t.state)
    (hreaction : t.reaction cb = none)
    (hready : ¬ (cb = .unbindQueueReady ∧ t.state = .eUnbindQueue) ∧
      ¬ (cb = .removeQueueReady ∧ t.state = .eRemoveQueue))
    (hconfirms : ∀ consumer, cb = .shutdownSuccess consumer → .cancel consumer ∈ c.pending) :
    Poise t.consumerTag (c.deliver cb) t.state := by
  have hkeeps (ready : ReadyHandler) (hne : ready.callback ≠ cb)
      (honReady : c.onReady = some ready) : (c.deliver cb).onReady = some ready := by
    simp [Channel.deliver, honReady, hne]
  cases hs : t.state <;> simp only [hs, Poise] at h ⊢
  case eCreateChannel =>
    refine hkeeps _ ?_ h
    rintro rfl
    simp [ReadyHandler.callback, reaction, hs] at hreaction
  case eRecreateChannel =>
    refine hkeeps _ ?_ h
    rintro rfl
    simp [ReadyHandler.callback, reaction, hs] at hreaction
  case eUnbindQueue =>
    exact fun honError ↦ hkeeps _ (fun hcb ↦ hready.1 ⟨hcb.symm, hs⟩) (h honError)
  case eRemoveQueue =>
    exact fun honError ↦ hkeeps _ (fun hcb ↦ hready.2 ⟨hcb.symm, hs⟩) (h honError)
  case eShutdown =>
    obtain ⟨first, hpending, hfirst⟩ := h
    have hnone : ¬ (Operation.cancel t.consumerTag).reports cb = true := by
      intro hreports
      cases cb <;> simp only [Operation.reports, Bool.false_eq_true] at hreports
      case shutdownSuccess consumer =>
        have hmem := hconfirms consumer rfl
        rw [hpending] at hmem
        rcases List.mem_append.mp hmem with hmem | hmem
        · have := hfirst _ hmem
          simp [Operation.SetsUp, Operation.state, State.beforeShutdown] at this
        · obtain rfl : consumer = t.consumerTag := by simpa using hmem
          simp [reaction] at hreaction
      case shutdownError => simp [reaction] at hreaction
    refine ⟨first.eraseP (·.reports cb), ?_, fun o ho ↦ hfirst o (List.mem_of_mem_eraseP ho)⟩
    simp only [Channel.deliver, hpending, List.eraseP_append]
    split
    · rfl
    · next hnotfirst =>
      rw [List.eraseP_of_forall_not (by simpa using hnone), List.eraseP_of_forall_not]
      simpa using hnotfirst

/-- A lambda that goes nowhere leaves the current channel what the state needs. -/
theorem Poised.callback {n : ℕ} {cb : Callback} (h : t.Poised) (hreaction : t.reaction cb = none)
    (hconfirms : t.Confirms (.callback n cb)) (haside : Aside (t.delivering n cb) cb u) :
    u.Poised := by
  -- the operation that a new channel was opened for takes the place of its opening
  have hissue (operation : Operation) (hs : t.state = .eUnbindQueue ∨ t.state = .eRemoveQueue) :
      (((t.delivering n cb).setOnError none).issue operation).Poised := by
    intro k c hk hc
    change t.channel = some k at hk
    obtain ⟨old, -, rfl⟩ : ∃ old, (t.delivering n cb).channels[k]? = some old ∧ _ = c := by
      simpa [issue, observe, onChannel, setOnError, delivering, hk] using hc
    change Poise t.consumerTag _ t.state
    rcases hs with hs | hs <;> rw [hs] <;> exact fun honError ↦ by cases honError
  have hsame (hissues : ¬ t.Issues cb) : (t.delivering n cb).Poised := by
    intro k c hk hc
    change t.channel = some k at hk
    obtain ⟨old, hold, hc⟩ : ∃ old, t.channels[k]? = some old ∧
        (if n = k then old.deliver cb else old) = c := by
      simpa [delivering, List.getElem?_modify] using hc
    have hpoise := h k old hk hold
    change Poise t.consumerTag c t.state
    split at hc
    · next hn =>
      rw [← hc]
      exact hpoise.deliver hreaction (not_or.mp hissues) fun consumer hcb ↦
        hconfirms n consumer old (by rw [hcb]) (hn ▸ hold)
    · exact hc ▸ hpoise
  cases haside with
  | idle hissues => exact hsame hissues
  | issue operation hissues => exact hissue operation hissues.state
  | message _ _ _ hissues => exact hsame hissues
  | bounce _ _ _ hissues => exact hsame hissues

/-- The step lemma. -/
theorem poised_step {e : Event} (h : t.Poised) (hwell : t.WellFormed) (htracked : t.Tracked)
    (hconfirms : t.Confirms e) (hstep : t.step e = some t') : t'.Poised := by
  have hcrashed := crashed_eq_false_of_step hstep
  cases hmove : t.move e with
  | some next =>
    obtain ⟨u, s⟩ := next
    obtain rfl := step_of_move hstep hmove
    rw [goto_eq]
    refine poised_arrive fun hshutdown ↦ ?_
    have hlanding : u.landing s = .eShutdown := by
      simpa [passing, getLast?_path] using hshutdown
    intro n c hn hc
    by_cases hrunning : t.state = .eEnd
    · by_cases hstart : ∃ connection, e = .start connection
      · obtain ⟨connection, rfl⟩ := hstart
        obtain ⟨-, -, -, ⟨-, -, rfl, -⟩ | ⟨hno, -⟩⟩ := move_spec hmove
        · simp only [landing, path] at hlanding
          split at hlanding <;> simp at hlanding
        · exact absurd rfl (hno connection)
      · rcases move_at_end hwell hrunning (by simpa using hstart) hmove with ⟨rfl, -⟩ | ⟨hclose, -⟩
        · simp [landing, path] at hlanding
        · simp [hclose] at hlanding
    · obtain ⟨pending, onError, hcurrent, hawaits, -⟩ := htracked hrunning hcrashed
      obtain ⟨rest, handler, hu, hrest, -⟩ := hcurrent.move hrunning hmove
      obtain ⟨k, c', hk, hc', rfl, -⟩ := hu.passing s (u.path s)
      obtain rfl : k = n := Option.some.inj (hk.symm.trans hn)
      obtain rfl : c' = c := Option.some.inj (hc'.symm.trans hc)
      exact fun o ho ↦ hawaits.setsUp (beforeShutdown_of_landing hrunning hmove (Or.inr hlanding)) o
        (hrest.subset ho)
  | none =>
    cases still_of_no_move hstep hmove with
    | idle | install => exact h
    | publish message route mandatory envelope flags hready =>
      intro n c _ _
      exact poise_of_state (by simp [observe, onChannel, hready])
    | callback n cb hreaction haside => exact h.callback hreaction hconfirms haside

/-- An operation that the state waits for keeps the transceiver alive. -/
theorem live_of_awaited {n : ℕ} {c : Channel} {operation : Operation} (hrunning : t.state ≠ .eEnd)
    (hn : t.channel = some n) (hc : t.channels[n]? = some c) (hpending : operation ∈ c.pending)
    (hawaited : operation.Awaited t.consumerTag t.state) : t.Live :=
  ⟨n, c, hn, hc, Or.inr ⟨operation, hpending, fun _ hanswers ↦
    acts_of_answers hrunning hn hawaited hanswers⟩⟩

/-- A new channel whose opening is outstanding keeps the transceiver alive. -/
theorem live_of_opening {n : ℕ} {c : Channel} {ready : ReadyHandler} {error : ErrorHandler}
    (hrunning : t.state ≠ .eEnd) (hn : t.channel = some n) (hc : t.channels[n]? = some c)
    (hopening : c.onReady = some ready ∧ c.onError = some error) (hready : t.Acts n ready.callback)
    (herror : ∀ message, t.reaction (error.callback message) ≠ none) : t.Live := by
  refine ⟨n, c, hn, hc, Or.inl ⟨ready, error, hopening.1, hopening.2, hready, fun message ↦ ?_⟩⟩
  refine acts_of_reaction_ne_none hrunning hn (herror message) fun _ ↦ ?_
  cases error <;> simp [ErrorHandler.callback]

/-- In every state but `eEnd` and `eReady`, a transceiver that has not used a null pointer waits for
something that takes it on. -/
theorem live_of_reachedBy (hreachable : machine.ReachedBy Confirms t) (hcrashed : t.crashed = false)
    (hrunning : t.state ≠ .eEnd) (hready : t.state ≠ .eReady) : t.Live := by
  obtain ⟨-, htracked, hpoised⟩ : t.WellFormed ∧ t.Tracked ∧ t.Poised := by
    refine hreachable.invariant (I := fun s ↦ s.WellFormed ∧ s.Tracked ∧ s.Poised) ?_
      fun s e s' hs hconfirms hstep ↦ ⟨wellFormed_step hs.1 hstep, tracked_step hs.2.1 hs.1 hstep,
        poised_step hs.2.2 hs.1 hs.2.1 hconfirms hstep⟩
    rintro s ⟨exchange, queue, routeIn, listener, rfl⟩
    exact ⟨wellFormed_new exchange queue routeIn listener, fun hstate ↦ absurd rfl hstate,
      fun n c hn _ ↦ by cases hn⟩
  obtain ⟨-, -, ⟨n, c, hn, hc, rfl, rfl⟩, hawaits, -⟩ := htracked hrunning hcrashed
  have hpoise := hpoised n c hn hc
  -- the opening of a channel that the state is waiting for
  have hopens (cb : Callback) (hreacts : t.reaction cb ≠ none)
      (hcancel : t.state ≠ .eUnbindQueue) : t.Acts n cb :=
    acts_of_reaction_ne_none hrunning hn hreacts fun hstate ↦ absurd hstate hcancel
  -- the operation of a state of the set-up
  have hsetup (hall : ∀ operation ∈ c.pending, operation.SetsUp)
      (hmem : ∃ operation ∈ c.pending, operation.state = t.state)
      (hawaited : ∀ operation : Operation, operation.SetsUp → operation.state = t.state →
        operation.Awaited t.consumerTag t.state) : t.Live := by
    obtain ⟨operation, hpending, hstate⟩ := hmem
    exact live_of_awaited hrunning hn hc hpending
      (hawaited operation (hall operation hpending) hstate)
  cases hs : t.state <;> simp only [hs, Awaits, Poise] at hawaits hpoise
  case eEnd => exact absurd hs hrunning
  case eReady => exact absurd hs hready
  case eCreateChannel =>
    refine live_of_opening hrunning hn hc ⟨hpoise, hawaits.2⟩ (hopens _ ?_ (by simp [hs]))
      fun message ↦ ?_ <;> simp [ReadyHandler.callback, ErrorHandler.callback, reaction, hs]
  case eRecreateChannel =>
    refine live_of_opening hrunning hn hc ⟨hpoise, hawaits.2⟩ (hopens _ ?_ (by simp [hs]))
      fun message ↦ ?_ <;> simp [ReadyHandler.callback, ErrorHandler.callback, reaction, hs]
  case eShutdown =>
    obtain ⟨first, hpending, -⟩ := hpoise
    have hcancel : .cancel t.consumerTag ∈ c.pending := by simp [hpending]
    exact live_of_awaited hrunning hn hc hcancel (by rw [hs, Operation.Awaited])
  case eUnbindQueue =>
    rcases hawaits with ⟨hall, honError | hne⟩
    · have hcall : t.deliver n .unbindQueueReady = ((t.delivering n .unbindQueueReady).setOnError
          none).issue (.unbindQueue t.exchange t.recvQueue t.routeIn) := by
        simp [deliver_eq, call, reaction, aside, delivering, hs]
      exact live_of_opening hrunning hn hc ⟨hpoise honError, honError⟩ (acts_of_issue hn hcall)
        fun message ↦ by simp [ErrorHandler.callback, reaction, hs]
    · obtain ⟨operation, hpending⟩ := List.exists_mem_of_ne_nil _ hne
      exact live_of_awaited hrunning hn hc hpending (by
        rw [hs]
        exact Or.inl (hall operation hpending))
  case eRemoveQueue =>
    rcases hawaits with ⟨hall, honError | hne⟩
    · have hcall : t.deliver n .removeQueueReady = ((t.delivering n .removeQueueReady).setOnError
          none).issue (.removeQueue t.recvQueue) := by
        simp [deliver_eq, call, reaction, aside, delivering, hs]
      exact live_of_opening hrunning hn hc ⟨hpoise honError, honError⟩ (acts_of_issue hn hcall)
        fun message ↦ by simp [ErrorHandler.callback, reaction, hs]
    · obtain ⟨operation, hpending⟩ := List.exists_mem_of_ne_nil _ hne
      exact live_of_awaited hrunning hn hc hpending (by
        rw [hs]
        exact Or.inr (Or.inl (hall operation hpending)))
  case eCloseChannel =>
    obtain ⟨ending, ⟨first, hpending, -, hending⟩, hne⟩ := hawaits
    obtain ⟨operation, hmem⟩ := List.exists_mem_of_ne_nil _ hne
    have hlast : operation ∈ c.pending := by simp [hpending, hmem]
    exact live_of_awaited hrunning hn hc hlast (by
      rw [hs]
      exact hending operation hmem)
  all_goals
    refine hsetup hawaits.1 (hs ▸ hawaits.2) fun operation hset hstate ↦ ?_
    rw [hs] at hstate ⊢
    exact ⟨hset, hstate⟩

/-- A listener that comes to `eReady`, is stopped, and has its consumer cancelled. -/
def cancelled : List Event :=
  [.start (some 0), .callback 0 .createChannelReady, .callback 0 (.checkQueueSuccess "queue"),
    .callback 0 .createExchangeSuccess, .callback 0 .bindQueueSuccess,
    .callback 0 (.createConsumerSuccess "tag"), .stop, .callback 0 (.shutdownSuccess "tag")]

/-- It waits for the channel on which it is going to unbind the queue. -/
theorem live_cancelled : ∃ t, machine.run (new "exchange" "queue" "route" true) cancelled = some t ∧
    t.state = .eUnbindQueue ∧ t.Live := by
  refine ⟨_, rfl, rfl, live_of_reachedBy ⟨new "exchange" "queue" "route" true, cancelled,
    ⟨_, _, _, _, rfl⟩, rfl, ?_⟩ rfl (by decide) (by decide)⟩
  have hother {t : Transceiver} {e : Event}
      (he : ∀ n consumer, e ≠ .callback n (.shutdownSuccess consumer)) : t.Confirms e :=
    fun n consumer _ h ↦ absurd h (he n consumer)
  refine Machine.meets_cons (hother (by simp)) rfl (Machine.meets_cons (hother (by simp)) rfl ?_)
  refine Machine.meets_cons (hother (by simp)) rfl (Machine.meets_cons (hother (by simp)) rfl ?_)
  refine Machine.meets_cons (hother (by simp)) rfl (Machine.meets_cons (hother (by simp)) rfl ?_)
  refine Machine.meets_cons (hother (by simp)) rfl (Machine.meets_cons ?_ rfl trivial)
  rintro n consumer c h hc
  cases h
  obtain rfl := Option.some.inj hc
  decide

end Transceiver

end AmqpAsio
