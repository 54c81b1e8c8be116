import AmqpAsio.Transceiver.ChannelFailure
import AmqpAsio.Transceiver.Progress
import AmqpAsio.Transceiver.Requests

/-!
# What AMQP-CPP owes a transceiver

As long as only lambdas of the current channel are called, the state of a transceiver under way says
exactly what is outstanding on that channel: its opening, or the one operation of the state, or a
`close` after at most one operation that a `stop()` has abandoned. So AMQP-CPP never owes more than
two answers, and the lambda that is called next is one that the state waits for, or returns at once.

`Tracked` holds in every run, and therefore says less.
-/

set_option autoImplicit false
set_option relaxedAutoImplicit false

namespace AmqpAsio

namespace Transceiver

variable {t t' u : Transceiver} {c : Channel} {n : ℕ} {cb : Callback} {s : State} {listener : Bool}

/-! ### The current channel -/

/-- Only lambdas of the current channel are called. -/
def Prompt (t : Transceiver) (e : Event) : Prop :=
  ∀ n cb, e = .callback n cb → t.channel = some n

instance (t : Transceiver) : ∀ e, Decidable (Prompt t e)
  | .callback n cb => decidable_of_iff (t.channel = some n) (by simp [Prompt])
  | .install _ _ _ | .start _ | .stop | .drop | .send _ _ _ => isTrue (by simp [Prompt])

/-- The channel that `m_channel` points to. -/
def currentChannel (t : Transceiver) : Option Channel := t.channel.bind (t.channels[·]?)

theorem currentChannel_of_eq (hchannel : u.channel = t.channel)
    (hchannels : u.channels = t.channels) : u.currentChannel = t.currentChannel := by
  rw [currentChannel, currentChannel, hchannel, hchannels]

theorem exists_of_currentChannel (h : t.currentChannel = some c) :
    ∃ n, t.channel = some n ∧ t.channels[n]? = some c :=
  Option.bind_eq_some_iff.mp h

theorem currentChannel_onChannel (h : t.currentChannel = some c) (f : Channel → Channel) :
    (t.onChannel f).currentChannel = some (f c) := by
  obtain ⟨n, hn, hc⟩ := exists_of_currentChannel h
  simp [currentChannel, onChannel, hn, hc]

theorem currentChannel_setOnError (h : t.currentChannel = some c) (handler : Option ErrorHandler) :
    (t.setOnError handler).currentChannel = some { c with onError := handler } :=
  currentChannel_onChannel h fun c ↦ { c with onError := handler }

theorem currentChannel_issue (h : t.currentChannel = some c) (operation : Operation) :
    ∃ consuming, (t.issue operation).currentChannel =
      some { c with pending := c.pending ++ [operation], consuming := consuming } := by
  refine ⟨_, (currentChannel_of_eq rfl (channels_observe _ _)).trans (currentChannel_onChannel h _)⟩

theorem currentChannel_newChannel (t : Transceiver) (ready : ReadyHandler) (error : ErrorHandler) :
    (t.newChannel ready error).currentChannel =
      some ⟨t.connection, some ready, some error, [], false, false⟩ :=
  List.getElem?_concat_length

theorem currentChannel_delivering (h : t.currentChannel = some c) (hn : t.channel = some n)
    (cb : Callback) : (t.delivering n cb).currentChannel = some (c.deliver cb) := by
  obtain ⟨k, hk, hc⟩ := exists_of_currentChannel h
  obtain rfl : n = k := Option.some.inj (hn.symm.trans hk)
  simp [currentChannel, delivering, hn, hc]

/-! ### What is outstanding in a state -/

/-- The state that opens a channel with this lambda. -/
def ReadyHandler.state : ReadyHandler → State
  | .createChannel => .eCreateChannel
  | .recreateChannel => .eRecreateChannel
  | .unbindQueue => .eUnbindQueue
  | .removeQueue => .eRemoveQueue

/-- The lambda that is installed together with this one for the failure of the channel. -/
def ReadyHandler.error : ReadyHandler → ErrorHandler
  | .createChannel => .createChannel
  | .recreateChannel => .recreateChannel
  | .unbindQueue => .unbindQueue
  | .removeQueue => .removeQueue

/-- The channel is being opened, with the two lambdas for that. -/
structure Channel.Opening (c : Channel) (ready : ReadyHandler) : Prop where
  onReady : c.onReady = some ready
  onError : c.onError = some ready.error
  pending : c.pending = []

/-- The channel is open, with these operations outstanding and this lambda for its failure. -/
structure Channel.Owes (c : Channel) (operations : List Operation)
    (handler : Option ErrorHandler) : Prop where
  onReady : c.onReady = none
  onError : c.onError = handler
  pending : c.pending = operations

/-- The lambda that a transceiver in `eReady` has for the failure of its channel. -/
def readyHandler (listener : Bool) : Option ErrorHandler := if listener then none else some .ready

/-- What is outstanding on the current channel in a state: its opening, the operation of the state,
nothing, or a `close` that may come after one operation that has been abandoned. -/
inductive Outstanding (listener : Bool) (c : Channel) (s : State) : Prop
  | opening (ready : ReadyHandler) (hstate : s = ready.state) (h : c.Opening ready)
  | operation (o : Operation) (hstate : s = o.state) (hclose : s ≠ .eCloseChannel)
    (hcancel : s = .eShutdown → listener = true) (h : c.Owes [o] none)
  | nothing (hstate : s = .eReady ∨ s = .eShutdown ∧ listener = true)
    (h : c.Owes [] (readyHandler listener))
  | closing (abandoned : Option Operation) (handler : Option ErrorHandler)
    (hstate : s = .eCloseChannel) (hhandler : handler = none ∨ handler = some .ready)
    (hall : ∀ o ∈ abandoned, o.SetsUp) (h : c.Owes (abandoned.toList ++ [.close]) handler)

/-- A transceiver under way has outstanding what its state says. -/
def Held (t : Transceiver) : Prop :=
  t.state ≠ .eEnd → ∃ c, t.currentChannel = some c ∧ Outstanding t.listener c t.state

/-- The operation of a `close` is the only one of its state. -/
theorem eq_close_of_state {operation : Operation} (h : operation.state = .eCloseChannel) :
    operation = .close := by
  cases operation <;> first | rfl | cases h

/-- An operation that is outstanding belongs to the state, or has been abandoned for the `close`. -/
theorem Outstanding.state_of_mem {operation : Operation} (h : Outstanding listener c s)
    (hmem : operation ∈ c.pending) :
    operation.state = s ∨ s = .eCloseChannel ∧ operation.SetsUp := by
  cases h with
  | opening ready hstate h => simp [h.pending] at hmem
  | operation o hstate hclose hcancel h =>
    rw [h.pending, List.mem_singleton] at hmem
    exact Or.inl (hmem ▸ hstate.symm)
  | nothing hstate h => simp [h.pending] at hmem
  | closing abandoned handler hstate hhandler hall h =>
    rw [h.pending, List.mem_append, Option.mem_toList, List.mem_singleton] at hmem
    rcases hmem with hmem | rfl
    · exact Or.inr ⟨hstate, hall operation hmem⟩
    · exact Or.inl hstate.symm

/-- A channel waits to be ready only in the state that has opened it. -/
theorem Outstanding.opening_of_onReady {ready : ReadyHandler} (h : Outstanding listener c s)
    (hready : c.onReady = some ready) : s = ready.state ∧ c.Opening ready := by
  cases h with
  | opening ready' hstate h =>
    obtain rfl : ready' = ready := Option.some.inj (h.onReady.symm.trans hready)
    exact ⟨hstate, h⟩
  | operation o hstate hclose hcancel h => simp [h.onReady] at hready
  | nothing hstate h => simp [h.onReady] at hready
  | closing abandoned handler hstate hhandler hall h => simp [h.onReady] at hready

/-! ### Arriving in a state -/

/-- What may be left on a channel where a transceiver comes to rest in a state: nothing, or before a
`close` an operation of the set-up. A state that opens a channel leaves the old one alone. -/
inductive Free (c : Channel) (s : State) : Prop
  | opens (ready : ReadyHandler) (hstate : s = ready.state)
  | nothing (h : c.Owes [] none)
  | closes (abandoned : Option Operation) (handler : Option ErrorHandler)
    (hstate : s = .eCloseChannel) (hhandler : handler = none ∨ handler = some .ready)
    (hall : ∀ o ∈ abandoned, o.SetsUp) (h : c.Owes abandoned.toList handler)

/-- An operation issued on a channel comes after what is outstanding. -/
theorem owes_issue {operations : List Operation} {handler : Option ErrorHandler}
    (hc : t.currentChannel = some c) (h : c.Owes operations handler) (operation : Operation) :
    ∃ c', (t.issue operation).currentChannel = some c' ∧
      c'.Owes (operations ++ [operation]) handler := by
  obtain ⟨consuming, hc'⟩ := currentChannel_issue hc operation
  exact ⟨_, hc', h.onReady, h.onError, by simp [h.pending]⟩

/-- In the state in which it comes to rest, a transceiver has outstanding what that state says. -/
theorem outstanding_arrive (hrunning : t.state ≠ .eEnd)
    (hshutdown : t.state = .eShutdown → t.listener = true)
    (hfree : t.state = .eCreateChannel ∨ ∃ c, t.currentChannel = some c ∧ Free c t.state) :
    ∃ c, t.arrive.currentChannel = some c ∧ Outstanding t.listener c t.state := by
  have hopens (v : Transceiver) (ready : ReadyHandler) (hstate : t.state = ready.state) :
      ∃ c, (v.newChannel ready ready.error).currentChannel = some c ∧
        Outstanding t.listener c t.state :=
    ⟨_, currentChannel_newChannel v ready ready.error, .opening ready hstate ⟨rfl, rfl, rfl⟩⟩
  -- on the channel as it is, nothing is outstanding
  have howes (hstate : ∀ ready : ReadyHandler, t.state ≠ ready.state)
      (hclose : t.state ≠ .eCloseChannel) : ∃ c, t.currentChannel = some c ∧ c.Owes [] none := by
    obtain ⟨c, hc, hfree⟩ := hfree.resolve_left (hstate .createChannel)
    cases hfree with
    | opens ready hready => exact absurd hready (hstate ready)
    | nothing h => exact ⟨c, hc, h⟩
    | closes abandoned handler hclosed hhandler hall h => exact absurd hclosed hclose
  have hissue (operation : Operation) (hstate : t.state = operation.state)
      (hstates : ∀ ready : ReadyHandler, t.state ≠ ready.state)
      (hclose : t.state ≠ .eCloseChannel) :
      ∃ c, (t.issue operation).currentChannel = some c ∧ Outstanding t.listener c t.state := by
    obtain ⟨c, hc, hnone⟩ := howes hstates hclose
    obtain ⟨c', hc', hone⟩ := owes_issue hc hnone operation
    exact ⟨c', hc', .operation operation hstate hclose hshutdown hone⟩
  cases hstate : t.state <;> simp only [arrive, hstate]
  case eCreateChannel => exact hstate ▸ hopens t .createChannel hstate
  case eRecreateChannel => exact hstate ▸ hopens t.closeOld .recreateChannel hstate
  case eUnbindQueue => exact hstate ▸ hopens t.closeOld .unbindQueue hstate
  case eRemoveQueue => exact hstate ▸ hopens t.closeOld .removeQueue hstate
  case eEnd => exact absurd hstate hrunning
  case eReady =>
    obtain ⟨c, hc, hnone⟩ := howes (by rintro ⟨⟩ <;> simp [hstate, ReadyHandler.state])
      (by simp [hstate])
    by_cases hlistener : t.listener = true
    · refine ⟨c, by simpa [atReady, hlistener] using hc, .nothing (Or.inl rfl) ?_⟩
      simpa [readyHandler, hlistener] using hnone
    · refine ⟨{ c with onError := some .ready }, ?_, .nothing (Or.inl rfl) ?_⟩
      · simpa [atReady, hlistener] using currentChannel_setOnError hc (some .ready)
      · exact ⟨hnone.onReady, by simp [readyHandler, hlistener], hnone.pending⟩
  case eCloseChannel =>
    obtain ⟨c, hc, hfree⟩ := hfree.resolve_left (by simp [hstate])
    have hclosing (abandoned : Option Operation) (handler : Option ErrorHandler)
        (hhandler : handler = none ∨ handler = some .ready) (hall : ∀ o ∈ abandoned, o.SetsUp)
        (h : c.Owes abandoned.toList handler) :
        ∃ c, (t.issue .close).currentChannel = some c ∧
          Outstanding t.listener c .eCloseChannel := by
      obtain ⟨c', hc', hclosed⟩ := owes_issue hc h .close
      exact ⟨c', hc', .closing abandoned handler rfl hhandler hall hclosed⟩
    cases hfree with
    | opens ready hready => cases ready <;> simp [hstate, ReadyHandler.state] at hready
    | nothing h => exact hclosing none none (Or.inl rfl) (by simp) h
    | closes abandoned handler _ hhandler hall h => exact hclosing abandoned handler hhandler hall h
  all_goals
    rw [← hstate]
    refine hissue _ hstate ?_ (by simp [hstate])
    rintro ⟨⟩ <;> simp [hstate, ReadyHandler.state]

/-! ### Lambdas of the current channel -/

/-- The calls of a lambda registered on a channel: the channel is ready, it has failed, an operation
has its outcome, or a message comes in or back. -/
theorem registered_cases (h : c.registered cb = true) :
    (∃ ready, c.onReady = some ready ∧ cb = ready.callback) ∨
      (∃ handler, c.onError = some handler ∧ handler.reports cb = true) ∨
      (∃ o ∈ c.pending, o.reports cb = true) ∨
      (∃ message deliveryTag redelivered,
        cb = .createConsumerReceived message deliveryTag redelivered) ∨
      ∃ message code description, cb = .sendReturned message code description := by
  simp only [Channel.registered, Bool.or_eq_true, Option.any_eq_true, decide_eq_true_eq,
    List.any_eq_true] at h
  rcases h with ((⟨ready, hready, rfl⟩ | h) | h) | h
  · exact Or.inl ⟨ready, hready, rfl⟩
  · exact Or.inr (Or.inl h)
  · exact Or.inr (Or.inr (Or.inl h))
  · cases cb <;> simp at h ⊢

/-- The lambda for the failure of a channel goes to the end, if it goes anywhere. -/
theorem eq_eEnd_of_reports {handler : ErrorHandler} (hreports : handler.reports cb = true)
    (hreaction : t.reaction cb = some (u, s)) : s = .eEnd := by
  cases handler <;> cases cb <;> simp [ErrorHandler.reports] at hreports <;>
    simp [reaction] at hreaction <;> simp [hreaction]

/-- A lambda that goes somewhere has changed nothing of the current channel but the lambda for its
failure. -/
theorem currentChannel_reaction (h : t.currentChannel = some c)
    (hreaction : t.reaction cb = some (u, s)) :
    ∃ handler, u.currentChannel = some { c with onError := handler } ∧
      (handler = c.onError ∨ handler = none) := by
  have hchannel := (reaction_prepared hreaction).channel
  rcases channels_reaction hreaction with hsame | hgiven
  · exact ⟨c.onError, (currentChannel_of_eq hchannel hsame).trans h, Or.inl rfl⟩
  · have hset : u.currentChannel = (t.setOnError none).currentChannel :=
      currentChannel_of_eq hchannel hgiven
    exact ⟨none, hset.trans (currentChannel_setOnError h none), Or.inr rfl⟩

/-- The outcome of the operation of the state leaves nothing outstanding, unless it is that of the
`close`. -/
theorem Outstanding.deliver_outcome {operation : Operation} (h : Outstanding listener c s)
    (hclose : s ≠ .eCloseChannel) (hmem : operation ∈ c.pending)
    (hreports : operation.reports cb = true) : (c.deliver cb).Owes [] none := by
  cases h with
  | opening ready hstate h => simp [h.pending] at hmem
  | nothing hstate h => simp [h.pending] at hmem
  | closing abandoned handler hstate hhandler hall h => exact absurd hstate hclose
  | operation o hstate _ hcancel h =>
    obtain rfl : operation = o := by simpa [h.pending] using hmem
    refine ⟨by simp [Channel.deliver, h.onReady], h.onError, ?_⟩
    simp [Channel.deliver, h.pending, hreports]

/-- A lambda of the current channel that goes somewhere goes to the end, or it is the one that its
state waits for and leaves nothing outstanding. -/
theorem Outstanding.reaction (h : Outstanding listener c t.state)
    (hcurrent : t.currentChannel = some c) (hn : t.channel = some n)
    (hregistered : c.registered cb = true)
    (hreaction : (t.delivering n cb).reaction cb = some (u, s)) :
    s = .eEnd ∨ ∃ c', u.currentChannel = some c' ∧ c'.Owes [] none := by
  have hdelivered := currentChannel_delivering hcurrent hn cb
  obtain ⟨handler, hu, hhandler⟩ := currentChannel_reaction hdelivered hreaction
  rcases registered_cases hregistered with ⟨ready, hready, rfl⟩ | ⟨handler', -, hreports⟩ |
    ⟨o, ho, hreports⟩ | ⟨_, _, _, rfl⟩ | ⟨_, _, _, rfl⟩
  · obtain ⟨-, hopening⟩ := h.opening_of_onReady hready
    have hgiven : u = (t.delivering n ready.callback).setOnError none := by
      cases ready with
      | createChannel | recreateChannel =>
        obtain ⟨-, hreaction⟩ := Option.ite_none_right_eq_some.mp hreaction
        exact (Prod.mk.inj (Option.some.inj hreaction)).1.symm
      | unbindQueue | removeQueue => cases hreaction
    right
    refine ⟨_, hgiven ▸ currentChannel_setOnError hdelivered none, ?_, rfl, ?_⟩
    · simp [Channel.deliver, hready]
    · simp [Channel.deliver, hopening.pending]
  · exact Or.inl (eq_eEnd_of_reports hreports hreaction)
  · have hstate : o.state = t.state := by
      rcases h.state_of_mem ho with hstate | ⟨hclose, hsetsUp⟩
      · exact hstate
      · have hnone : t.reaction cb = none :=
          reaction_eq_none_of_setsUp hreports hsetsUp (by simp [hclose, State.beforeShutdown])
        simp [reaction_delivering_eq_none.mpr hnone] at hreaction
    by_cases hclose : t.state = .eCloseChannel
    · obtain rfl := eq_close_of_state (hstate.trans hclose)
      left
      cases cb <;> simp [Operation.reports] at hreports <;>
        simp [Transceiver.reaction] at hreaction <;> simp [hreaction]
    · right
      have howes := h.deliver_outcome hclose ho hreports
      refine ⟨_, hu, howes.onReady, ?_, howes.pending⟩
      rcases hhandler with hsame | hnone
      · exact hsame.trans howes.onError
      · exact hnone
  · simp [Transceiver.reaction] at hreaction
  · simp [Transceiver.reaction] at hreaction

/-- An operation other than a `cancel` sets up or ends. -/
theorem Operation.ends_or_setsUp {operation : Operation} (h : operation.state ≠ .eShutdown) :
    operation.Ends ∨ operation.SetsUp := by
  cases operation <;> simp [Ends, SetsUp, state, State.beforeShutdown] at h ⊢

/-- A lambda that is turned away leaves outstanding what the state says. -/
theorem Outstanding.deliver (h : Outstanding listener c t.state) (hreaction : t.reaction cb = none)
    (hissues : ¬ t.Issues cb) : Outstanding listener (c.deliver cb) t.state := by
  have hturned {operation : Operation} (hstate : t.state = operation.state)
      (hne : operation.state ≠ .eShutdown) : ¬ operation.reports cb = true := by
    intro hreports
    have hends := (operation.ends_or_setsUp hne).imp id fun hsetsUp ↦ And.intro hsetsUp hstate
    exact reaction_ne_none_of_reports hreports hends hreaction
  have howes {operations : List Operation} {handler : Option ErrorHandler}
      (h : c.Owes operations handler) :
      (c.deliver cb).Owes (operations.eraseP (·.reports cb)) handler :=
    ⟨by simp [Channel.deliver, h.onReady], h.onError, by simp [Channel.deliver, h.pending]⟩
  cases h with
  | opening ready hstate h =>
    refine .opening ready hstate ⟨?_, h.onError, by simp [Channel.deliver, h.pending]⟩
    have hready : ready.callback ≠ cb := by
      rintro rfl
      cases ready <;> simp [ReadyHandler.callback, ReadyHandler.state, Transceiver.reaction,
        Issues] at hstate hreaction hissues <;> contradiction
    simp [Channel.deliver, h.onReady, hready]
  | operation o hstate hclose hcancel h =>
    by_cases hreports : o.reports cb = true
    · by_cases hshutdown : o.state = .eShutdown
      · have hlistener := hcancel (hstate.trans hshutdown)
        refine .nothing (Or.inr ⟨hstate.trans hshutdown, hlistener⟩) ?_
        simpa [hreports, readyHandler, hlistener] using howes h
      · exact absurd hreports (hturned hstate hshutdown)
    · exact .operation o hstate hclose hcancel (by simpa [hreports] using howes h)
  | nothing hstate h => exact .nothing hstate (howes h)
  | closing abandoned handler hstate hhandler hall h =>
    have hclose : ¬ Operation.close.reports cb = true := hturned hstate (by decide)
    cases abandoned with
    | none =>
      exact .closing none handler hstate hhandler hall (by simpa [hclose] using howes h)
    | some o =>
      by_cases hreports : o.reports cb = true
      · exact .closing none handler hstate hhandler (by simp) (by simpa [hreports] using howes h)
      · exact .closing (some o) handler hstate hhandler hall
          (by simpa [hreports, hclose] using howes h)

/-- A channel that has been opened for an operation gets it when it is ready. -/
theorem Outstanding.issue {operation : Operation} (h : Outstanding listener c t.state)
    (hcurrent : t.currentChannel = some c) (hn : t.channel = some n)
    (hregistered : c.registered cb = true) (hissues : t.Issues cb)
    (hrequest : (t.delivering n cb).request = some operation) :
    ∃ c', (((t.delivering n cb).setOnError none).issue operation).currentChannel = some c' ∧
      Outstanding listener c' t.state := by
  have hready : ∃ ready, c.onReady = some ready ∧ cb = ready.callback := by
    rcases registered_cases hregistered with hready | ⟨handler, -, hreports⟩ | ⟨o, -, hreports⟩ |
      ⟨_, _, _, rfl⟩ | ⟨_, _, _, rfl⟩
    · exact hready
    · rcases hissues with ⟨rfl, -⟩ | ⟨rfl, -⟩ <;> cases handler <;> cases hreports
    · rcases hissues with ⟨rfl, -⟩ | ⟨rfl, -⟩ <;> cases o <;> cases hreports
    · rcases hissues with ⟨h, -⟩ | ⟨h, -⟩ <;> cases h
    · rcases hissues with ⟨h, -⟩ | ⟨h, -⟩ <;> cases h
  obtain ⟨ready, hready, rfl⟩ := hready
  obtain ⟨hstate, hopening⟩ := h.opening_of_onReady hready
  have hset := currentChannel_setOnError (currentChannel_delivering hcurrent hn ready.callback) none
  have hempty : Channel.Owes { c.deliver ready.callback with onError := none } [] none :=
    ⟨by simp [Channel.deliver, hready], rfl, by simp [Channel.deliver, hopening.pending]⟩
  obtain ⟨c', hc', howes⟩ := owes_issue hset hempty operation
  have hsame : t.state = operation.state := (request_state hrequest).symm
  refine ⟨c', hc', .operation operation hsame ?_ ?_ howes⟩
  all_goals rcases hissues.state with hstate | hstate <;> simp [hstate]

/-! ### Steps -/

/-- A `stop()` that abandons an operation goes on to open a new channel, or to close this one. -/
theorem landing_stopTransit (t : Transceiver) {operation : Operation} (hsetsUp : operation.SetsUp) :
    (∃ ready : ReadyHandler, t.landing (stopTransit operation.state) = ready.state) ∨
      t.landing (stopTransit operation.state) = .eCloseChannel := by
  cases operation with
  | declarePassive | declareExchange | declareQueue => exact Or.inr rfl
  | bindQueue =>
    show (∃ ready : ReadyHandler, t.landing .eRemoveQueue = ready.state) ∨
      t.landing .eRemoveQueue = .eCloseChannel
    by_cases hexist : t.queueExist
    · exact Or.inr (by simp [landing, path, hexist])
    · exact Or.inl ⟨.removeQueue, by simp [landing, path, hexist, ReadyHandler.state]⟩
  | consume =>
    show (∃ ready : ReadyHandler, t.landing .eUnbindQueue = ready.state) ∨
      t.landing .eUnbindQueue = .eCloseChannel
    by_cases hqueue : t.recvQueue = ""
    · exact Or.inr (by simp [landing, path, hqueue])
    · exact Or.inl ⟨.unbindQueue, by simp [landing, path, hqueue, ReadyHandler.state]⟩
  | cancel | unbindQueue | removeQueue | close => cases hsetsUp

/-- A transceiver that is stopped in `eReady` has nothing outstanding that is in the way. -/
theorem free_shutdown (h : c.Owes [] (readyHandler t.listener)) :
    Free c (t.landing (stopTransit .eReady)) := by
  show Free c (t.landing .eShutdown)
  by_cases hlistener : t.listener = true
  · exact .nothing (by simpa [readyHandler, hlistener] using h)
  · refine .closes none (some .ready) ?_ (Or.inr rfl) (by simp) ?_
    · simp [landing, path, hlistener]
    · simpa [readyHandler, hlistener] using h

/-- What is left on the current channel after what a move of a transceiver under way does before it
calls `StateMachine()`. -/
theorem Held.free {e : Event} (h : t.Held) (hprompt : Prompt t e) (hrunning : t.state ≠ .eEnd)
    (hstep : t.step e = some t') (hmove : t.move e = some (u, s)) :
    u.landing s = .eEnd ∨ u.landing s = .eCreateChannel ∨
      ∃ c, u.currentChannel = some c ∧ Free c (u.landing s) := by
  obtain ⟨c, hc, houtstanding⟩ := h hrunning
  cases e with
  | install | send => cases hmove
  | start connection => simp [move, hrunning] at hmove
  | drop =>
    obtain ⟨-, hmove⟩ := Option.ite_none_left_eq_some.mp hmove
    obtain ⟨rfl, rfl⟩ := Prod.mk.inj (Option.some.inj hmove)
    exact Or.inl rfl
  | stop =>
    obtain ⟨hbefore, hmove⟩ := Option.ite_none_right_eq_some.mp hmove
    obtain ⟨rfl, rfl⟩ := Prod.mk.inj (Option.some.inj hmove)
    cases houtstanding with
    | opening ready hstate hopening =>
      cases ready with
      | createChannel => exact Or.inl (by rw [hstate]; rfl)
      | recreateChannel =>
        by_cases hend : t.landing .eCreateChannel = .eEnd
        · exact Or.inl (by rw [hstate]; exact hend)
        · exact Or.inr (Or.inl (by rw [hstate]; exact landing_eCreateChannel hend))
      | unbindQueue | removeQueue =>
        simp [hstate, ReadyHandler.state, State.beforeShutdown] at hbefore
    | operation o hstate hclose hcancel howes =>
      have hsetsUp : o.SetsUp := (congrArg State.beforeShutdown hstate).symm.trans hbefore
      refine Or.inr (Or.inr ⟨c, hc, ?_⟩)
      rw [hstate]
      rcases landing_stopTransit t hsetsUp with ⟨ready, hopens⟩ | hcloses
      · exact .opens ready hopens
      · exact .closes (some o) none hcloses (Or.inl rfl) (by simpa using hsetsUp) howes
    | nothing hstate howes =>
      obtain hready := hstate.resolve_right fun h ↦ by simp [h.1, State.beforeShutdown] at hbefore
      refine Or.inr (Or.inr ⟨c, hc, ?_⟩)
      rw [hready]
      exact free_shutdown howes
    | closing abandoned handler hstate hhandler hall howes =>
      simp [hstate, State.beforeShutdown] at hbefore
  | callback n cb =>
    have hn := hprompt n cb rfl
    obtain ⟨c', hc', hregistered⟩ := (step_callback hstep).1
    obtain rfl : c = c' := by
      have hsame : t.currentChannel = t.channels[n]? := by simp [currentChannel, hn]
      exact Option.some.inj (hc.symm.trans (hsame.trans hc'))
    rcases houtstanding.reaction hc hn hregistered hmove with rfl | ⟨c', hc', howes⟩
    · exact Or.inl rfl
    · exact Or.inr (Or.inr ⟨c', hc', .nothing howes⟩)

/-- A step without a move leaves outstanding what the state says. -/
theorem Held.still {e : Event} (h : t.Held) (hprompt : Prompt t e) (hstep : t.step e = some t')
    (hmove : t.move e = none) : t'.Held := by
  have hstays := step_of_no_move hstep hmove
  have hlistener : t'.listener = t.listener := congrArg (·.2.2.2) (config_step hstep)
  intro hrunning
  rw [hlistener]
  rw [hstays.state] at hrunning ⊢
  obtain ⟨c, hc, houtstanding⟩ := h hrunning
  have hlogged {v : Transceiver} (hchannel : v.channel = t.channel)
      (hchannels : v.channels = t.channels) :
      ∃ c, v.currentChannel = some c ∧ Outstanding t.listener c t.state :=
    ⟨c, (currentChannel_of_eq hchannel hchannels).trans hc, houtstanding⟩
  cases still_of_no_move hstep hmove with
  | idle => exact hlogged rfl rfl
  | install => exact hlogged rfl rfl
  | publish message route mandatory envelope flags hready =>
    have hpublished := currentChannel_onChannel hc fun c ↦ { c with publishing := true }
    refine ⟨_, (currentChannel_of_eq rfl rfl).trans hpublished, ?_⟩
    cases houtstanding with
    | opening ready hstate h => exact .opening ready hstate ⟨h.onReady, h.onError, h.pending⟩
    | operation o hstate hclose hcancel h =>
      exact .operation o hstate hclose hcancel ⟨h.onReady, h.onError, h.pending⟩
    | nothing hstate h => exact .nothing hstate ⟨h.onReady, h.onError, h.pending⟩
    | closing abandoned handler hstate hhandler hall h =>
      exact .closing abandoned handler hstate hhandler hall ⟨h.onReady, h.onError, h.pending⟩
  | callback n cb hreaction haside =>
    have hn := hprompt n cb rfl
    have hdelivered := currentChannel_delivering hc hn cb
    have hturned (hissues : ¬ t.Issues cb) : Outstanding t.listener (c.deliver cb) t.state :=
      houtstanding.deliver hreaction hissues
    obtain ⟨c', hc', hregistered⟩ := (step_callback hstep).1
    obtain rfl : c = c' := by
      have hsame : t.currentChannel = t.channels[n]? := by simp [currentChannel, hn]
      exact Option.some.inj (hc.symm.trans (hsame.trans hc'))
    cases haside with
    | idle hissues => exact ⟨_, hdelivered, hturned hissues⟩
    | issue operation hissues hrequest =>
      exact houtstanding.issue hc hn hregistered hissues hrequest
    | message message deliveryTag redelivered hissues =>
      exact ⟨_, (currentChannel_of_eq rfl rfl).trans hdelivered, hturned hissues⟩
    | bounce message code description hissues =>
      exact ⟨_, (currentChannel_of_eq rfl rfl).trans hdelivered, hturned hissues⟩

/-- The step lemma. -/
theorem Held.step {e : Event} (h : t.Held) (hwell : t.WellFormed) (hprompt : Prompt t e)
    (hstep : t.step e = some t') : t'.Held := by
  cases hmove : t.move e with
  | none => exact h.still hprompt hstep hmove
  | some next =>
    obtain ⟨u, s⟩ := next
    rw [step_of_move hstep hmove]
    intro hrunning'
    rw [state_goto] at hrunning' ⊢
    have hlistener : (u.goto s).listener = u.listener := congrArg (·.2.2.2) (config_goto u s)
    have hstate : ((u.passingError s).passing (u.path s)).state = u.landing s := by
      simp [passing, getLast?_path]
    have hkeeps : ((u.passingError s).passing (u.path s)).currentChannel = u.currentChannel := by
      unfold passingError
      split <;> exact currentChannel_of_eq rfl rfl
    have harrives := outstanding_arrive (t := (u.passingError s).passing (u.path s))
      (hstate ▸ hrunning')
    have hpassing : ((u.passingError s).passing (u.path s)).listener = u.listener := by
      simp [passing]
    rw [hstate, hkeeps, hpassing, ← goto_eq] at harrives
    replace harrives := harrives fun hshutdown ↦ (landing_eq_eShutdown hshutdown).2
    rw [hlistener]
    by_cases hrunning : t.state = .eEnd
    · cases e with
      | callback n cb =>
        have hnone := (hwell.ended hrunning).channel
        simp [hprompt n cb rfl] at hnone
      | start connection =>
        obtain ⟨-, hmove⟩ := Option.ite_none_right_eq_some.mp hmove
        obtain ⟨rfl, rfl⟩ := Prod.mk.inj (Option.some.inj hmove)
        exact harrives (Or.inl (landing_eCreateChannel hrunning'))
      | stop => simp [move, hrunning, State.beforeShutdown] at hmove
      | drop => simp [move, hrunning] at hmove
      | install | send => cases hmove
    · rcases h.free hprompt hrunning hstep hmove with hend | hfree
      · exact absurd hend hrunning'
      · exact harrives hfree

/-! ### The transceivers reached -/

/-- A transceiver that has outstanding what its state says, and has used no null pointer. -/
structure Attended (t : Transceiver) : Prop where
  well : t.WellFormed
  crashed : t.crashed = false
  held : t.Held

/-- A step without a move uses no null pointer. -/
theorem Attended.crashed_still {e : Event} (h : t.Attended) (hprompt : Prompt t e)
    (hstill : Still t e t') : t'.crashed = false := by
  have hchannel (n : ℕ) (hn : t.channel = some n) : (t.crashed || t.channel.isNone) = false := by
    simp [h.crashed, hn]
  cases hstill with
  | idle => exact h.crashed
  | install => exact h.crashed
  | publish message route mandatory envelope flags hready =>
    obtain ⟨n, hn, -⟩ := h.well.running (by simp [hready]) h.crashed
    exact hchannel n hn
  | callback n cb hreaction haside =>
    have hn := hprompt n cb rfl
    cases haside with
    | idle => exact h.crashed
    | message => exact h.crashed
    | bounce => exact h.crashed
    | issue operation hissues hrequest =>
      simp [Transceiver.issue, observe, setOnError, onChannel, delivering, h.crashed, hn]

/-- A move that does not start anything is made with a channel. -/
theorem Attended.crashed_move {e : Event} (h : t.Attended) (hprompt : Prompt t e)
    (hmove : t.move e = some (u, s)) : (u.goto s).crashed = false := by
  have hkeeps (hchannel : t.channel.isSome) (hsame : u.channel = t.channel)
      (hcrashed : u.crashed = t.crashed) : (u.goto s).crashed = false := by
    rw [crashed_goto (hsame ▸ hchannel), hcrashed]
    exact h.crashed
  have hrun (hrunning : t.state ≠ .eEnd) : t.channel.isSome := by
    obtain ⟨n, hn, -⟩ := h.well.running hrunning h.crashed
    simp [hn]
  cases e with
  | install | send => cases hmove
  | start connection =>
    obtain ⟨hstate, hmove⟩ := Option.ite_none_right_eq_some.mp hmove
    obtain ⟨rfl, rfl⟩ := Prod.mk.inj (Option.some.inj hmove)
    cases connection <;> exact h.crashed
  | stop =>
    obtain ⟨hbefore, hmove⟩ := Option.ite_none_right_eq_some.mp hmove
    obtain ⟨rfl, rfl⟩ := Prod.mk.inj (Option.some.inj hmove)
    refine hkeeps (hrun ?_) rfl rfl
    intro hend
    simp [hend, State.beforeShutdown] at hbefore
  | drop =>
    obtain ⟨hrunning, hmove⟩ := Option.ite_none_left_eq_some.mp hmove
    obtain ⟨rfl, rfl⟩ := Prod.mk.inj (Option.some.inj hmove)
    exact hkeeps (hrun hrunning) rfl rfl
  | callback n cb =>
    have hchannel : t.channel.isSome := by simp [hprompt n cb rfl]
    have hprepared := reaction_prepared hmove
    exact hkeeps hchannel hprepared.channel (hprepared.crashed hchannel)

/-- The step lemma. -/
theorem Attended.step {e : Event} (h : t.Attended) (hprompt : Prompt t e)
    (hstep : t.step e = some t') : t'.Attended where
  well := wellFormed_step h.well hstep
  crashed := by
    cases hmove : t.move e with
    | none => exact h.crashed_still hprompt (still_of_no_move hstep hmove)
    | some next => exact step_of_move hstep hmove ▸ h.crashed_move hprompt hmove
  held := h.held.step h.well hprompt hstep

theorem attended_new (exchange queue routeIn : String) (listener : Bool) :
    (new exchange queue routeIn listener).Attended where
  well := wellFormed_new exchange queue routeIn listener
  crashed := rfl
  held := fun hrunning ↦ absurd rfl hrunning

/-- The run lemma: as long as only lambdas of the current channel are called, a transceiver under
way has outstanding what its state says. -/
theorem attended_of_reachedBy (h : machine.ReachedBy Prompt t) : t.Attended := by
  refine h.invariant (I := Attended) ?_ fun t e t' ht hprompt hstep ↦ ht.step hprompt hstep
  rintro t ⟨exchange, queue, routeIn, listener, rfl⟩
  exact attended_new exchange queue routeIn listener

end Transceiver

end AmqpAsio
