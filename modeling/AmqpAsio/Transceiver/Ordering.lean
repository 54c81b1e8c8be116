import AmqpAsio.Transceiver.Tracking

/-!
# The order of the operations

Each operation a transceiver asks for rests on replies that came several operations earlier, on
paths that branch by role, by the name of the queue and by where a `stop()` or an error hit. Below,
a transceiver is followed together with the lambdas AMQP-CPP has called since the last accepted
`start()`; `Ordered` says which of them each operation requires, and `ordered_of_reachedBy` that
every operation asked for has them, as long as the lambdas of channels already replaced or reset are
not called.
-/

set_option autoImplicit false
set_option relaxedAutoImplicit false

namespace AmqpAsio

namespace Transceiver

/-! ### What an operation requires -/

/-- The lambdas called, each with the channel it was registered on. -/
abbrev Replies := List (ℕ × Callback)

/-- The broker has returned the name of the queue, on the channel. -/
def Named (replies : Replies) (n : ℕ) (queue : String) : Prop :=
  (n, .checkQueueSuccess queue) ∈ replies ∨ (n, .createQueueSuccess queue) ∈ replies

/-- The replies that an operation on a channel requires. -/
def Operation.Requires (replies : Replies) (n : ℕ) : Operation → Prop
  | .declarePassive _ => (n, .createChannelReady) ∈ replies
  | .declareExchange _ _ =>
    (n, .createChannelReady) ∈ replies ∨ (n, .recreateChannelReady) ∈ replies
  | .declareQueue _ _ => (n, .createExchangeSuccess) ∈ replies
  | .bindQueue _ queue _ => (n, .createExchangeSuccess) ∈ replies ∧ Named replies n queue
  | .consume queue => (n, .bindQueueSuccess) ∈ replies ∧ Named replies n queue
  | .cancel consumer => (n, .createConsumerSuccess consumer) ∈ replies
  | .unbindQueue _ queue _ => ∃ k, (k, .bindQueueSuccess) ∈ replies ∧ Named replies k queue
  | .removeQueue queue => ∃ k, (k, .createQueueSuccess queue) ∈ replies
  | .close => True

/-- Something the transceiver `t` was seen to do comes in its order. A channel closed is the one
that was current before, and a new one is opened on a connection. -/
def Ordered (replies : Replies) (before : Option ℕ) (t : Transceiver) : Observation → Prop
  | .opened n => t.channel = some n ∧
      ∃ c connection, t.channels[n]? = some c ∧ c.connection = some connection
  | .closed n => before = some n
  | .issued n operation => t.channel = some n ∧ operation.Requires replies n
  | .published n exchange _ _ _ => t.channel = some n ∧ exchange = t.exchange ∧
      (n, .createExchangeSuccess) ∈ replies ∧
      (t.listener → ∃ consumer, (n, .createConsumerSuccess consumer) ∈ replies)
  | .entered _ | .exit _ _ | .message _ _ _ | .bounce _ _ _ => True

/-- A transceiver, and the lambdas that have been called since its last accepted `start()`. -/
structure Transcript where
  transceiver : Transceiver
  replies : Replies

namespace Transcript

variable (x : Transcript)

/-- The lambdas called, once an event has happened. -/
def after : Event → Replies
  | .start _ => if x.transceiver.state = .eEnd then [] else x.replies
  | .callback n cb => x.replies ++ [(n, cb)]
  | _ => x.replies

/-- One event. -/
def step (e : Event) : Option Transcript := (x.transceiver.step e).map (⟨·, x.after e⟩)

/-- The runs of a transceiver from its construction on. -/
def machine : Machine Transcript Event where
  init x := Transceiver.machine.init x.transceiver ∧ x.replies = []
  step := step

@[simp] theorem machine_step (x : Transcript) (e : Event) : machine.step x e = x.step e := rfl

/-- No lambda of a channel already replaced or reset is called. -/
def Timely (e : Event) : Prop := ∀ n cb, e = .callback n cb → x.transceiver.channel = some n

end Transcript

/-! ### What has been confirmed in a state -/

variable {t u : Transceiver} {replies : Replies}

/-- The reply has come on the current channel. -/
def Has (replies : Replies) (t : Transceiver) (cb : Callback) : Prop :=
  ∃ n, t.channel = some n ∧ (n, cb) ∈ replies

/-- The queue has been bound under the name the broker returned. -/
def Bound (replies : Replies) (t : Transceiver) : Prop :=
  ∃ k, (k, .bindQueueSuccess) ∈ replies ∧ Named replies k t.recvQueue

/-- What the broker has confirmed to a transceiver that comes to rest in a state. -/
def Confirmed (replies : Replies) (t : Transceiver) : State → Prop
  | .eCreateChannel | .eRecreateChannel => t.queueExist = false
  | .eCheckQueue => t.queueExist = false ∧ Has replies t .createChannelReady
  | .eCreateExchange => (Has replies t .createChannelReady ∨ Has replies t .recreateChannelReady) ∧
      (t.queueExist = true → Has replies t (.checkQueueSuccess t.recvQueue))
  | .eCreateQueue => Has replies t .createExchangeSuccess ∧
      (t.queueExist = true → Has replies t (.checkQueueSuccess t.recvQueue))
  | .eBindQueue => Has replies t .createExchangeSuccess ∧
      (t.queueExist = true ∧ Has replies t (.checkQueueSuccess t.recvQueue) ∨
        Has replies t (.createQueueSuccess t.recvQueue))
  | .eCreateConsumer => Has replies t .createExchangeSuccess ∧ Has replies t .bindQueueSuccess ∧
      (Has replies t (.checkQueueSuccess t.recvQueue) ∨
      Has replies t (.createQueueSuccess t.recvQueue))
  | .eReady => Has replies t .createExchangeSuccess ∧
      (t.listener → Bound replies t ∧ Has replies t (.createConsumerSuccess t.consumerTag))
  | .eShutdown => t.listener →
      Bound replies t ∧ Has replies t (.createConsumerSuccess t.consumerTag)
  | .eUnbindQueue => Bound replies t
  | .eRemoveQueue => ∃ k, (k, .createQueueSuccess t.recvQueue) ∈ replies
  | .eCloseChannel | .eEnd => True

/-- A state passed through requires no less than the one the transceiver comes to rest in. -/
theorem confirmed_landing {s : State}
    (h : s = .eRemoveQueue ∧ t.queueExist = true ∨ Confirmed replies t s) :
    Confirmed replies t (t.landing s) := by
  rcases h with ⟨rfl, hexist⟩ | h
  · simp [Transceiver.landing, path, hexist, Confirmed]
  · cases s <;> simp only [Transceiver.landing, path]
    case eCreateChannel => split <;> first | exact h | trivial
    case eCheckQueue =>
      split
      · exact ⟨Or.inl h.2, fun hexist ↦ by simp [h.1] at hexist⟩
      · exact h
    case eCreateQueue =>
      split
      · next hexist => exact ⟨h.1, Or.inl ⟨hexist, h.2 hexist⟩⟩
      · exact h
    case eShutdown =>
      split
      · next hlistener =>
        split
        · split
          · trivial
          · exact (h hlistener).1
        · exact h
      · trivial
    case eUnbindQueue => split <;> first | exact h | trivial
    case eRemoveQueue => split <;> first | exact h | trivial
    all_goals exact h

theorem Has.concat {cb : Callback} (h : Has replies t cb) (reply : ℕ × Callback) :
    Has (replies ++ [reply]) t cb := by
  obtain ⟨n, hn, hmem⟩ := h
  exact ⟨n, hn, List.mem_append_left _ hmem⟩

theorem Has.mem {cb : Callback} (h : Has replies t cb) {n : ℕ} (hn : t.channel = some n) :
    (n, cb) ∈ replies := by
  obtain ⟨k, hk, hmem⟩ := h
  exact Option.some.inj (hk.symm.trans hn) ▸ hmem

theorem has_concat {n : ℕ} (hchannel : t.channel = some n) (cb : Callback) :
    Has (replies ++ [(n, cb)]) t cb := ⟨n, hchannel, by simp⟩

theorem Named.concat {n : ℕ} {queue : String} (h : Named replies n queue) (reply : ℕ × Callback) :
    Named (replies ++ [reply]) n queue :=
  h.imp (List.mem_append_left _) (List.mem_append_left _)

theorem Bound.concat (h : Bound replies t) (reply : ℕ × Callback) :
    Bound (replies ++ [reply]) t := by
  obtain ⟨k, hbound, hnamed⟩ := h
  exact ⟨k, List.mem_append_left _ hbound, hnamed.concat reply⟩

/-- What has been confirmed depends on the channel and on the members that the broker's replies
set. -/
theorem Confirmed.congr {s : State} (h : Confirmed replies t s) (hchannel : u.channel = t.channel)
    (hlistener : u.listener = t.listener) (hexist : u.queueExist = t.queueExist)
    (hqueue : u.recvQueue = t.recvQueue) (htag : u.consumerTag = t.consumerTag) :
    Confirmed replies u s := by
  have hhas (cb : Callback) : Has replies u cb ↔ Has replies t cb := by simp only [Has, hchannel]
  have hbound : Bound replies u ↔ Bound replies t := by simp only [Bound, hqueue]
  cases s <;> simp only [Confirmed, hhas, hbound, hlistener, hexist, hqueue, htag]
    at h ⊢ <;> exact h

/-- A later reply takes back nothing that has been confirmed. -/
theorem Confirmed.concat {s : State} (h : Confirmed replies t s) (reply : ℕ × Callback) :
    Confirmed (replies ++ [reply]) t s := by
  cases s <;> simp only [Confirmed] at h ⊢
  case eCreateChannel | eRecreateChannel => exact h
  case eCheckQueue => exact ⟨h.1, h.2.concat reply⟩
  case eCreateExchange =>
    exact ⟨h.1.imp (·.concat reply) (·.concat reply), fun hexist ↦ (h.2 hexist).concat reply⟩
  case eCreateQueue => exact ⟨h.1.concat reply, fun hexist ↦ (h.2 hexist).concat reply⟩
  case eBindQueue =>
    exact ⟨h.1.concat reply, h.2.imp (fun hcheck ↦ ⟨hcheck.1, hcheck.2.concat reply⟩)
      (·.concat reply)⟩
  case eCreateConsumer =>
    exact ⟨h.1.concat reply, h.2.1.concat reply, h.2.2.imp (·.concat reply) (·.concat reply)⟩
  case eReady =>
    exact ⟨h.1.concat reply, fun hl ↦ ⟨(h.2 hl).1.concat reply, (h.2 hl).2.concat reply⟩⟩
  case eShutdown => exact fun hl ↦ ⟨(h hl).1.concat reply, (h hl).2.concat reply⟩
  case eUnbindQueue => exact h.concat reply
  case eRemoveQueue =>
    obtain ⟨k, hk⟩ := h
    exact ⟨k, List.mem_append_left _ hk⟩

theorem Confirmed.bound (h : Confirmed replies t .eCreateConsumer) : Bound replies t := by
  obtain ⟨-, ⟨n, hn, hbound⟩, hname⟩ := h
  exact ⟨n, hbound, hname.imp (·.mem hn) (·.mem hn)⟩

/-! ### Moves -/

/-- From `eBindQueue`, a queue that this run has not created is not removed. -/
theorem Confirmed.remove (h : Confirmed replies t .eBindQueue) :
    State.eRemoveQueue = .eRemoveQueue ∧ t.queueExist = true ∨
      Confirmed replies t .eRemoveQueue := by
  by_cases hexist : t.queueExist = true
  · exact Or.inl ⟨rfl, hexist⟩
  · obtain ⟨k, -, hmem⟩ := h.2.resolve_left fun hcheck ↦ hexist hcheck.1
    exact Or.inr ⟨k, hmem⟩

/-- A reply on the current channel takes a transceiver to a state whose requirements it
completes. -/
theorem Confirmed.reaction {n : ℕ} {cb : Callback} {s : State} (h : Confirmed replies t t.state)
    (hchannel : t.channel = some n)
    (hcancel : (∃ consumer, cb = .shutdownSuccess consumer) ∨
      (∃ message, cb = .shutdownError message) → Bound replies t)
    (hreaction : t.reaction cb = some (u, s)) :
    s = .eRemoveQueue ∧ u.queueExist = true ∨ Confirmed (replies ++ [(n, cb)]) u s := by
  have hlast : Has (replies ++ [(n, cb)]) t cb := has_concat hchannel cb
  cases cb <;> simp only [Transceiver.reaction, Option.ite_none_right_eq_some, Option.some.injEq,
    Prod.mk.injEq, reduceCtorEq] at hreaction
  case createChannelReady =>
    obtain ⟨hs, rfl, rfl⟩ := hreaction
    rw [hs] at h
    right
    split
    · exact ⟨h, hlast⟩
    · exact ⟨Or.inl hlast, fun hexist ↦ by cases h.symm.trans hexist⟩
  case checkQueueSuccess name =>
    obtain ⟨hs, rfl, rfl⟩ := hreaction
    rw [hs] at h
    exact Or.inr ⟨Or.inl (h.2.concat _), fun _ ↦ hlast⟩
  case checkQueueError message =>
    obtain ⟨hs, rfl, rfl⟩ := hreaction
    rw [hs] at h
    exact Or.inr h.1
  case recreateChannelReady =>
    obtain ⟨hs, rfl, rfl⟩ := hreaction
    rw [hs] at h
    exact Or.inr ⟨Or.inr hlast, fun hexist ↦ by cases h.symm.trans hexist⟩
  case createExchangeSuccess =>
    obtain ⟨hs, rfl, rfl⟩ := hreaction
    rw [hs] at h
    right
    split
    · exact ⟨hlast, fun hexist ↦ (h.2 hexist).concat _⟩
    · next hlistener => exact ⟨hlast, fun hl ↦ absurd hl hlistener⟩
  case createQueueSuccess name =>
    obtain ⟨hs, rfl, rfl⟩ := hreaction
    rw [hs] at h
    exact Or.inr ⟨h.1.concat _, Or.inr hlast⟩
  case bindQueueSuccess =>
    obtain ⟨hs, rfl, rfl⟩ := hreaction
    rw [hs] at h
    exact Or.inr ⟨h.1.concat _, hlast, h.2.imp (fun hcheck ↦ hcheck.2.concat _) (·.concat _)⟩
  case bindQueueError message =>
    obtain ⟨hs, rfl, rfl⟩ := hreaction
    rw [hs] at h
    exact (h.concat (n, .bindQueueError message)).remove
  case createConsumerSuccess consumer =>
    obtain ⟨hs, rfl, rfl⟩ := hreaction
    rw [hs] at h
    exact Or.inr ⟨h.1.concat _, fun _ ↦ ⟨h.bound.concat _, hlast⟩⟩
  case createConsumerError message =>
    right
    split at hreaction
    · next hs =>
      obtain ⟨rfl, rfl⟩ := Prod.mk.inj (Option.some.inj hreaction)
      rw [hs] at h
      exact h.bound.concat _
    · obtain ⟨-, hreaction⟩ := Option.ite_none_right_eq_some.mp hreaction
      obtain ⟨-, rfl⟩ := Prod.mk.inj (Option.some.inj hreaction)
      trivial
  case shutdownSuccess consumer =>
    obtain ⟨-, rfl, rfl⟩ := hreaction
    exact Or.inr ((hcancel (Or.inl ⟨consumer, rfl⟩)).concat _)
  case shutdownError message =>
    obtain ⟨rfl, rfl⟩ := hreaction
    exact Or.inr ((hcancel (Or.inr ⟨message, rfl⟩)).concat _)
  all_goals
    right
    obtain ⟨-, -, rfl⟩ := hreaction
    trivial

/-- `stop()` takes a transceiver to a state whose requirements are met. -/
theorem Confirmed.stop (h : Confirmed replies t t.state) (hstate : t.state.beforeShutdown = true) :
    stopTransit t.state = .eRemoveQueue ∧ t.queueExist = true ∨
      Confirmed replies t (stopTransit t.state) := by
  cases hs : t.state <;> simp only [hs, State.beforeShutdown, reduceCtorEq] at h hstate
  case eRecreateChannel => exact Or.inr h
  case eBindQueue => exact h.remove
  case eCreateConsumer => exact Or.inr h.bound
  case eReady => exact Or.inr h.2
  all_goals exact Or.inr trivial

/-! ### Arriving -/

/-- A `cancel` is outstanding on the current channel only once the queue has been bound. -/
def Cancels (replies : Replies) (t : Transceiver) : Prop :=
  ∀ n c consumer, t.channel = some n → t.channels[n]? = some c → .cancel consumer ∈ c.pending →
    Bound replies t

theorem Cancels.of_eq (h : Cancels replies t) (hchannel : u.channel = t.channel)
    (hchannels : u.channels = t.channels) (hqueue : u.recvQueue = t.recvQueue) :
    Cancels replies u := by
  intro n c consumer hn hc hmem
  have hbound := h n c consumer (hchannel ▸ hn) (hchannels ▸ hc) hmem
  rwa [Bound, hqueue]

/-- A change to the current channel that adds no `cancel` to it. -/
theorem Cancels.onChannel (h : Cancels replies t) (f : Channel → Channel)
    (hf : ∀ c, (f c).pending = c.pending) : Cancels replies (t.onChannel f) := by
  intro n c consumer hn hc hmem
  change t.channel = some n at hn
  obtain ⟨old, hold, rfl⟩ : ∃ old, t.channels[n]? = some old ∧ f old = c := by
    simpa [Transceiver.onChannel, hn] using hc
  exact h n old consumer hn hold (hf old ▸ hmem)

/-- The transceiver `t` has gone on to `t'`, doing nothing out of order, and is fit to go on. -/
structure Advances (replies : Replies) (t t' : Transceiver) : Prop where
  crashed : t'.crashed = false
  confirmed : t'.state ≠ .eEnd → Confirmed replies t' t'.state
  connection : t'.state ≠ .eEnd → t'.connection.isSome
  cancels : Cancels replies t'
  log : ∃ new, t'.log = t.log ++ new ∧ ∀ o ∈ new, Ordered replies t.channel t' o

/-- An operation issued with its requirements is in order. -/
theorem advances_issue {operation : Operation} (hhas : t.HasChannel) (hcrashed : t.crashed = false)
    (hconfirmed : Confirmed replies t t.state) (hconnection : t.connection.isSome)
    (hcancels : Cancels replies t)
    (hrequires : ∀ n, t.channel = some n → operation.Requires replies n)
    (hcancel : ∀ consumer, operation = .cancel consumer → Bound replies t) :
    Advances replies t (t.issue operation) := by
  obtain ⟨n, hn, -⟩ := id hhas
  refine ⟨(crashed_issue_of_hasChannel hhas operation).trans hcrashed,
    fun _ ↦ hconfirmed.congr rfl rfl rfl rfl rfl, fun _ ↦ hconnection, ?_,
    [.issued n operation], by simp [issue, observe, onChannel, hn], ?_⟩
  · intro k c consumer hk hc hmem
    obtain rfl : n = k := Option.some.inj (hn.symm.trans hk)
    obtain ⟨old, hold, rfl⟩ : ∃ old, t.channels[n]? = some old ∧ _ = c := by
      simpa [issue, observe, onChannel, hn] using hc
    rcases List.mem_append.mp hmem with hmem | hmem
    · exact hcancels n old consumer hn hold hmem
    · exact hcancel consumer (List.mem_singleton.mp hmem).symm
  · intro o ho
    obtain rfl := List.mem_singleton.mp ho
    exact ⟨hn, hrequires n hn⟩

/-- Opening a new channel on the connection, after closing the old one if there is one. -/
theorem advances_newChannel {v : Transceiver} {new : List Observation} (ready : ReadyHandler)
    (error : ErrorHandler) (hcrashed : v.crashed = false)
    (hconfirmed : ∀ w : Transceiver, w.queueExist = v.queueExist → w.recvQueue = v.recvQueue →
      Confirmed replies w v.state)
    (hconnection : v.connection.isSome) (hlog : v.log = t.log ++ new)
    (hnew : ∀ o ∈ new, ∃ n, o = .closed n ∧ t.channel = some n) :
    Advances replies t (v.newChannel ready error) := by
  obtain ⟨connection, hsome⟩ := Option.isSome_iff_exists.mp hconnection
  refine ⟨hcrashed, fun _ ↦ hconfirmed _ rfl rfl, fun _ ↦ hconnection, ?_,
    new ++ [.opened v.channels.length], by simp [newChannel, hlog], ?_⟩
  · intro n c consumer hn hc hmem
    obtain rfl := Option.some.inj hn
    obtain rfl : _ = c := by simpa [newChannel] using hc
    simp at hmem
  · intro o ho
    rcases List.mem_append.mp ho with ho | ho
    · obtain ⟨n, rfl, hn⟩ := hnew o ho
      exact hn
    · obtain rfl := List.mem_singleton.mp ho
      exact ⟨rfl, _, connection, List.getElem?_concat_length, hsome⟩

/-- A transceiver that comes to rest where its requirements are met does nothing out of order. -/
theorem advances_arrive (hconfirmed : Confirmed replies t t.state) (hcrashed : t.crashed = false)
    (hchannel : t.HasChannel ∨ t.state = .eCreateChannel ∨ t.state = .eEnd)
    (hconnection : t.state ≠ .eEnd → t.connection.isSome) (hcancels : Cancels replies t)
    (hlistener : t.state = .eShutdown → t.listener) : Advances replies t t.arrive := by
  have hclose (ready : ReadyHandler) (error : ErrorHandler) (hhas : t.HasChannel)
      (hstate : t.state = .eRecreateChannel ∨ t.state = .eUnbindQueue ∨ t.state = .eRemoveQueue) :
      Advances replies t (t.closeOld.newChannel ready error) := by
    obtain ⟨n, hn, -⟩ := hhas
    refine advances_newChannel ready error (by simp [closeOld, observe, onChannel, hn, hcrashed]) ?_
      (hconnection (by rcases hstate with hs | hs | hs <;> simp [hs]))
      (by simp [closeOld, observe, onChannel, hn] : t.closeOld.log = t.log ++ [.closed n])
      (by simpa using hn)
    intro w hexist hqueue
    change Confirmed replies w t.state
    change w.queueExist = t.queueExist at hexist
    change w.recvQueue = t.recvQueue at hqueue
    rcases hstate with hs | hs | hs <;> rw [hs] at hconfirmed ⊢ <;>
      simpa only [Confirmed, Bound, hexist, hqueue] using hconfirmed
  have hissue (operation : Operation) (hhas : t.HasChannel) (hstate : t.state ≠ .eEnd)
      (hrequires : ∀ n, t.channel = some n → operation.Requires replies n)
      (hcancel : ∀ consumer, operation ≠ .cancel consumer) : Advances replies t
      (t.issue operation) :=
    advances_issue hhas hcrashed hconfirmed (hconnection hstate) hcancels hrequires
      fun consumer h ↦ absurd h (hcancel consumer)
  cases hs : t.state <;> simp only [hs, reduceCtorEq, or_false, or_true, or_self] at hchannel <;>
    simp only [arrive, hs] <;> have hmet := hconfirmed <;> rw [hs] at hmet
  case eCreateChannel =>
    refine advances_newChannel _ _ hcrashed (fun w hexist _ ↦ ?_) (hconnection (by simp [hs]))
      (List.append_nil _).symm (by simp)
    rw [hs]
    exact hexist.trans hmet
  case eRecreateChannel => exact hclose _ _ hchannel (Or.inl hs)
  case eUnbindQueue => exact hclose _ _ hchannel (Or.inr (Or.inl hs))
  case eRemoveQueue => exact hclose _ _ hchannel (Or.inr (Or.inr hs))
  case eCheckQueue =>
    exact hissue _ hchannel (by simp [hs]) (fun n hn ↦ hmet.2.mem hn) (by simp)
  case eCreateExchange =>
    exact hissue _ hchannel (by simp [hs]) (fun n hn ↦ hmet.1.imp (·.mem hn) (·.mem hn)) (by simp)
  case eCreateQueue =>
    exact hissue _ hchannel (by simp [hs]) (fun n hn ↦ hmet.1.mem hn) (by simp)
  case eBindQueue =>
    refine hissue _ hchannel (by simp [hs]) (fun n hn ↦ ⟨hmet.1.mem hn, ?_⟩) (by simp)
    exact hmet.2.imp (fun hcheck ↦ hcheck.2.mem hn) (·.mem hn)
  case eCreateConsumer =>
    exact hissue _ hchannel (by simp [hs])
      (fun n hn ↦ ⟨hmet.2.1.mem hn, hmet.2.2.imp (·.mem hn) (·.mem hn)⟩) (by simp)
  case eCloseChannel => exact hissue _ hchannel (by simp [hs]) (fun _ _ ↦ trivial) (by simp)
  case eShutdown =>
    obtain ⟨hbound, hconsumer⟩ := hmet (hlistener hs)
    exact advances_issue hchannel hcrashed hconfirmed (hconnection (by simp [hs])) hcancels
      (fun n hn ↦ hconsumer.mem hn) fun _ _ ↦ hbound
  case eReady =>
    unfold atReady
    split
    · exact ⟨hcrashed, fun _ ↦ hconfirmed, hconnection, hcancels, [], by simp, by simp⟩
    · obtain ⟨n, hn, -⟩ := hchannel
      refine ⟨by simp [setOnError, onChannel, hn, hcrashed], fun _ ↦ hconfirmed.congr rfl rfl rfl
        rfl rfl, hconnection, hcancels.onChannel _ fun _ ↦ rfl, [],
        by simp [setOnError, onChannel], by simp⟩
  case eEnd =>
    refine ⟨hcrashed, fun hne ↦ absurd hs hne, fun hne ↦ absurd hs hne,
      fun n c _ hn ↦ by simp [atEnd] at hn, _, rfl, ?_⟩
    intro o ho
    split at ho
    · obtain rfl := List.mem_singleton.mp ho
      trivial
    · cases ho

/-- A call of `StateMachine()` for a state whose requirements are met does nothing out of order. -/
theorem advances_goto {s : State}
    (hconfirmed : s = .eRemoveQueue ∧ t.queueExist = true ∨ Confirmed replies t s)
    (hcrashed : t.crashed = false) (hchannel : t.HasChannel ∨ s = .eCreateChannel ∨ s = .eEnd)
    (hconnection : t.connection.isSome ∨ s = .eCreateChannel ∨ s = .eEnd)
    (hcancels : Cancels replies t) : Advances replies t (t.goto s) := by
  obtain ⟨v, hv⟩ : ∃ v : Transceiver, v = { t with
      state := t.landing s
      ec := (t.passingError s).ec
      error := (t.passingError s).error
      log := t.log ++ (t.path s).map .entered } := ⟨_, rfl⟩
  have hpassing : (t.passingError s).passing (t.path s) = v := by
    have herror : t.passingError s = { t with
        ec := (t.passingError s).ec, error := (t.passingError s).error } := by
      unfold passingError
      split <;> rfl
    rw [hv, passing, getLast?_path, herror]
    rfl
  have hlanding : t.landing s ≠ .eEnd → t.connection.isSome := by
    intro hne
    rcases hconnection with hsome | rfl | rfl
    · exact hsome
    · by_contra hnone
      exact hne (by simp [landing, path, hnone])
    · exact absurd rfl hne
  have hadvances : Advances replies v v.arrive := by
    subst hv
    refine advances_arrive ((confirmed_landing hconfirmed).congr rfl rfl rfl rfl rfl) hcrashed ?_
      hlanding (hcancels.of_eq rfl rfl rfl) fun hs ↦ (landing_eq_eShutdown hs).2
    rcases hchannel with hhas | rfl | rfl
    · exact Or.inl (hhas.of_eq rfl rfl)
    · right
      cases hsome : t.connection <;> simp [landing, path, hsome]
    · exact Or.inr (Or.inr rfl)
  rw [goto_eq, hpassing]
  obtain ⟨hcrashed', hconfirmed', hconnection', hcancels', new, hlog, hordered⟩ := hadvances
  refine ⟨hcrashed', hconfirmed', hconnection', hcancels', (t.path s).map .entered ++ new,
    by rw [hlog, hv, List.append_assoc], ?_⟩
  have hbefore : v.channel = t.channel := by rw [hv]
  rw [hbefore] at hordered
  intro o ho
  rcases List.mem_append.mp ho with ho | ho
  · obtain ⟨p, -, rfl⟩ := List.mem_map.mp ho
    trivial
  · exact hordered o ho

/-! ### Steps -/

/-- Once the shutdown has begun, a lambda sets nothing but the error. -/
theorem reaction_teardown {cb : Callback} {s : State} (hstate : t.state.beforeShutdown = false)
    (hreaction : t.reaction cb = some (u, s)) : u = { t with ec := u.ec, error := u.error } := by
  have hne (early : State) (hearly : early.beforeShutdown = true) : t.state ≠ early := by
    rintro rfl
    simp [hearly] at hstate
  cases cb <;> simp only [reaction, Option.ite_none_right_eq_some, Option.some.injEq,
    Prod.mk.injEq, reduceCtorEq] at hreaction
  case createConsumerError => simp [hne .eCreateConsumer rfl, hne .eReady rfl] at hreaction
  all_goals
    first
    | exact absurd hreaction.1 (hne _ rfl)
    | exact hreaction.1 ▸ rfl
    | exact hreaction.2.1 ▸ rfl

/-- A `cancel` whose outcome is reported on the current channel was outstanding there. -/
theorem Cancels.reported {n : ℕ} {c : Channel} {cb : Callback} (h : Cancels replies t)
    (hn : t.channel = some n) (hc : t.channels[n]? = some c) (hregistered : c.registered cb = true)
    (hcancel : (∃ consumer, cb = .shutdownSuccess consumer) ∨
    ∃ message, cb = .shutdownError message) :
    Bound replies t := by
  have hpending : c.pending.any (·.reports cb) = true := by
    unfold Channel.registered at hregistered
    rcases hcancel with ⟨consumer, rfl⟩ | ⟨message, rfl⟩ <;>
      simp only [Bool.or_false, Bool.or_eq_true] at hregistered <;>
      rcases hregistered with (hready | herror) | hpending
    · obtain ⟨ready, -, hready⟩ := (Option.any_eq_true _ _).mp hready
      cases ready <;> simp [ReadyHandler.callback] at hready
    · obtain ⟨error, -, herror⟩ := (Option.any_eq_true _ _).mp herror
      cases error <;> simp [ErrorHandler.reports] at herror
    · exact hpending
    · obtain ⟨ready, -, hready⟩ := (Option.any_eq_true _ _).mp hready
      cases ready <;> simp [ReadyHandler.callback] at hready
    · obtain ⟨error, -, herror⟩ := (Option.any_eq_true _ _).mp herror
      cases error <;> simp [ErrorHandler.reports] at herror
    · exact hpending
  obtain ⟨operation, hmem, hreports⟩ := List.any_eq_true.mp hpending
  rcases hcancel with ⟨consumer, rfl⟩ | ⟨message, rfl⟩ <;> cases operation <;>
    simp only [Operation.reports, Bool.false_eq_true] at hreports <;> exact h n c _ hn hc hmem

namespace Transcript

variable {x y : Transcript}

/-- What a transceiver carries from step to step, apart from doing nothing out of order. -/
structure Sound (x : Transcript) : Prop where
  well : x.transceiver.WellFormed
  tracked : x.transceiver.Tracked
  crashed : x.transceiver.crashed = false
  confirmed : x.transceiver.state ≠ .eEnd →
    Confirmed x.replies x.transceiver x.transceiver.state
  connection : x.transceiver.state ≠ .eEnd → x.transceiver.connection.isSome
  cancels : Cancels x.replies x.transceiver

/-- The state of a running transceiver meets its requirements after one more reply. -/
theorem Sound.confirmed_delivering (h : x.Sound) (hrunning : x.transceiver.state ≠ .eEnd) (n : ℕ)
    (cb : Callback) : Confirmed (x.replies ++ [(n, cb)]) (x.transceiver.delivering n cb)
      (x.transceiver.delivering n cb).state :=
  ((h.confirmed hrunning).concat (n, cb)).congr rfl rfl rfl rfl rfl

theorem Sound.cancels_delivering (h : x.Sound) (n : ℕ) (cb : Callback) :
    Cancels (x.replies ++ [(n, cb)]) (x.transceiver.delivering n cb) := by
  intro k c consumer hk hc hmem
  obtain ⟨old, hold, hc⟩ : ∃ old, x.transceiver.channels[k]? = some old ∧
      (if n = k then old.deliver cb else old) = c := by
    simpa [Transceiver.delivering, List.getElem?_modify] using hc
  refine (h.cancels k old consumer hk hold ?_).concat (n, cb)
  split at hc
  · exact List.mem_of_mem_eraseP (hc ▸ hmem)
  · exact hc ▸ hmem

/-- A lambda called in its time leaves a `cancel` outstanding only for a queue that is bound. -/
theorem Sound.cancels_reaction {u : Transceiver} {n : ℕ} {cb : Callback} {s : State} (h : x.Sound)
    (hrunning : x.transceiver.state ≠ .eEnd)
    (hmove : x.transceiver.move (.callback n cb) = some (u, s)) :
    Cancels (x.replies ++ [(n, cb)]) u := by
  by_cases hstate : x.transceiver.state.beforeShutdown = true
  · obtain ⟨pending, onError, hcurrent, hawaits, -⟩ := h.tracked hrunning h.crashed
    obtain ⟨rest, handler, ⟨k, c', hk, hc', rfl, -⟩, hrest, -⟩ := hcurrent.move hrunning hmove
    intro m c consumer hm hc hmem
    obtain rfl : k = m := Option.some.inj (hk.symm.trans hm)
    obtain rfl : c' = c := Option.some.inj (hc'.symm.trans hc)
    have hsetsUp := hawaits.setsUp hstate _ (hrest.subset hmem)
    simp [Operation.SetsUp, Operation.state, State.beforeShutdown] at hsetsUp
  · have hteardown : x.transceiver.state.beforeShutdown = false := by simpa using hstate
    have hu := reaction_teardown (t := x.transceiver.delivering n cb) hteardown hmove
    rw [hu]
    exact (h.cancels_delivering n cb).of_eq rfl rfl rfl

/-- A move is in order. -/
theorem Sound.move {u : Transceiver} {e : Event} {s : State} (h : x.Sound) (htimely : x.Timely e)
    (hstep : x.transceiver.step e = some (u.goto s)) (hmove : x.transceiver.move e = some (u, s)) :
    Advances (x.after e) x.transceiver (u.goto s) := by
  have hrelog (hlog : u.log = x.transceiver.log) (hchannel : u.channel = x.transceiver.channel)
      (hadvances : Advances (x.after e) u (u.goto s)) :
      Advances (x.after e) x.transceiver (u.goto s) := by
    obtain ⟨hcrashed, hconfirmed, hconnection, hcancels, hnew⟩ := hadvances
    exact ⟨hcrashed, hconfirmed, hconnection, hcancels, by rwa [hlog, hchannel] at hnew⟩
  cases e with
  | install | send => cases hmove
  | start connection =>
    obtain ⟨hstate, hmove⟩ := Option.ite_none_right_eq_some.mp hmove
    obtain ⟨rfl, rfl⟩ := Prod.mk.inj (Option.some.inj hmove)
    have hcleared := h.well.ended hstate
    refine hrelog rfl rfl
      (advances_goto (Or.inr hcleared.queueExist) h.crashed (Or.inr (Or.inl rfl))
      (Or.inr (Or.inl rfl)) fun n c _ hn ↦ ?_)
    cases hcleared.channel.symm.trans hn
  | stop =>
    obtain ⟨hstate, hmove⟩ := Option.ite_none_right_eq_some.mp hmove
    obtain ⟨rfl, rfl⟩ := Prod.mk.inj (Option.some.inj hmove)
    have hrunning : x.transceiver.state ≠ .eEnd := fun hend ↦ by
      simp [hend, State.beforeShutdown] at hstate
    exact advances_goto ((h.confirmed hrunning).stop hstate) h.crashed
      (Or.inl (h.well.running hrunning h.crashed)) (Or.inl (h.connection hrunning)) h.cancels
  | drop =>
    obtain ⟨hrunning, hmove⟩ := Option.ite_none_left_eq_some.mp hmove
    obtain ⟨rfl, rfl⟩ := Prod.mk.inj (Option.some.inj hmove)
    exact hrelog rfl rfl (advances_goto (Or.inr trivial) h.crashed (Or.inr (Or.inr rfl))
      (Or.inr (Or.inr rfl)) (h.cancels.of_eq rfl rfl rfl))
  | callback n cb =>
    have hn := htimely n cb rfl
    have hrunning : x.transceiver.state ≠ .eEnd := fun hend ↦ by
      cases (h.well.ended hend).channel.symm.trans hn
    have hprepared := reaction_prepared hmove
    obtain ⟨⟨c, hc, hregistered⟩, -⟩ := step_callback hstep
    have hconfirmed := ((h.confirmed hrunning).congr rfl rfl rfl rfl rfl :
      Confirmed x.replies (x.transceiver.delivering n cb) (x.transceiver.delivering n cb).state)
    refine hrelog hprepared.log hprepared.channel (advances_goto
      (hconfirmed.reaction hn (fun hcancel ↦ h.cancels.reported hn hc hregistered hcancel) hmove)
      ((hprepared.crashed (by simp [Transceiver.delivering, hn])).trans h.crashed) ?_ ?_
      (h.cancels_reaction hrunning hmove))
    · exact Or.inl ((h.well.running hrunning h.crashed).of_eq hprepared.channel
        (hprepared.length.trans (by simp [Transceiver.delivering])))
    · exact Or.inl (hprepared.connection ▸ h.connection hrunning)

/-- A step that leaves the state machine where it is is in order. -/
theorem Sound.stay {t' : Transceiver} {e : Event} (h : x.Sound) (htimely : x.Timely e)
    (hstep : x.transceiver.step e = some t') (hmove : x.transceiver.move e = none) :
    Advances (x.after e) x.transceiver t' := by
  have hsame : Advances x.replies x.transceiver x.transceiver :=
    ⟨h.crashed, h.confirmed, h.connection, h.cancels, [], by simp, by simp⟩
  cases still_of_no_move hstep hmove with
  | idle hcallback =>
    have hreplies : x.after e = x.replies := by
      cases e with
      | start connection =>
        have hstate : x.transceiver.state ≠ .eEnd :=
          fun hend ↦ by simp [Transceiver.move, hend] at hmove
        simp [after, hstate]
      | callback n cb => exact absurd rfl (hcallback n cb)
      | _ => rfl
    exact hreplies ▸ hsame
  | install bounce message exit =>
    exact ⟨h.crashed, fun hrunning ↦ (h.confirmed hrunning).congr rfl rfl rfl rfl rfl, h.connection,
      h.cancels.of_eq rfl rfl rfl, [], by simp [install], by simp⟩
  | publish message route mandatory envelope flags hready =>
    have hrunning : x.transceiver.state ≠ .eEnd := by simp [hready]
    obtain ⟨n, hn, -⟩ := h.well.running hrunning h.crashed
    have hconfirmed := h.confirmed hrunning
    rw [hready] at hconfirmed
    refine ⟨by simp [observe, onChannel, hn, h.crashed],
      fun _ ↦ (h.confirmed hrunning).congr rfl rfl rfl rfl rfl, fun _ ↦ h.connection hrunning,
      (h.cancels.onChannel (fun c ↦ { c with publishing := true }) fun _ ↦ rfl).of_eq rfl rfl rfl,
      [.published n x.transceiver.exchange route envelope flags], by simp [observe, onChannel, hn],
      fun o ho ↦ ?_⟩
    obtain rfl := List.mem_singleton.mp ho
    exact ⟨hn, rfl, hconfirmed.1.mem hn, fun hl ↦ ⟨_, (hconfirmed.2 hl).2.mem hn⟩⟩
  | callback n cb hreaction haside =>
    have hn := htimely n cb rfl
    have hrunning : x.transceiver.state ≠ .eEnd := fun hend ↦ by
      cases (h.well.ended hend).channel.symm.trans hn
    have hconfirmed := h.confirmed_delivering hrunning n cb
    have hcancels := h.cancels_delivering n cb
    have hhas := h.well.running hrunning h.crashed
    have hconnection := h.connection hrunning
    have hlog (v : Transceiver) (new : List Observation)
        (hsame : { x.transceiver.delivering n cb with log := v.log } = v)
        (hlog : v.log = x.transceiver.log ++ new)
        (hnew : ∀ o ∈ new, ∀ w, Ordered (x.after (.callback n cb)) x.transceiver.channel w o) :
        Advances (x.after (.callback n cb)) x.transceiver v := by
      rw [← hsame]
      exact ⟨h.crashed, fun _ ↦ hconfirmed.congr rfl rfl rfl rfl rfl, fun _ ↦ hconnection,
        hcancels.of_eq rfl rfl rfl, new, hlog, fun o ho ↦ hnew o ho _⟩
    have hissue (operation : Operation)
        (hrequires : operation.Requires (x.after (.callback n cb)) n)
        (hcancel : ∀ consumer, operation ≠ .cancel consumer) :
        Advances (x.after (.callback n cb)) x.transceiver
          (((x.transceiver.delivering n cb).setOnError none).issue operation) := by
      have hprepared := prepared_setOnError (x.transceiver.delivering n cb) none
      have hissued : Advances (x.after (.callback n cb))
          ((x.transceiver.delivering n cb).setOnError none)
          (((x.transceiver.delivering n cb).setOnError none).issue operation) := by
        refine advances_issue (hhas.of_eq rfl (hprepared.length.trans ?_))
          ((hprepared.crashed (by simp [Transceiver.delivering, hn])).trans h.crashed)
          (hconfirmed.congr rfl rfl rfl rfl rfl) hconnection (hcancels.onChannel _ fun _ ↦ rfl)
          (fun k hk ↦ ?_) fun consumer heq ↦ absurd heq (hcancel consumer)
        · simp [Transceiver.delivering]
        · exact Option.some.inj (hn.symm.trans hk) ▸ hrequires
      exact ⟨hissued.crashed, hissued.confirmed, hissued.connection, hissued.cancels, hissued.log⟩
    cases haside with
    | idle => exact hlog _ [] rfl (List.append_nil _).symm (by simp)
    | issue operation hissues hrequest =>
      rcases hissues.state with hs | hs <;> rw [hs] at hconfirmed <;>
        simp only [request, hs, Option.some.injEq] at hrequest <;> subst hrequest <;>
        exact hissue _ hconfirmed (by simp)
    | message message deliveryTag redelivered =>
      refine hlog _ [.message message deliveryTag redelivered] rfl rfl fun o ho w ↦ ?_
      rw [List.mem_singleton.mp ho]
      trivial
    | bounce message code description =>
      refine hlog _ [.bounce message code description] rfl rfl fun o ho w ↦ ?_
      rw [List.mem_singleton.mp ho]
      trivial

/-- The step lemma: a step does nothing out of order, and leaves the transceiver fit to go on. -/
theorem Sound.step {e : Event} (h : x.Sound) (htimely : x.Timely e) (hstep : x.step e = some y) :
    Advances y.replies x.transceiver y.transceiver ∧ y.Sound := by
  obtain ⟨t', hnext, rfl⟩ := Option.map_eq_some_iff.mp hstep
  have hadvances : Advances (x.after e) x.transceiver t' := by
    cases hmove : x.transceiver.move e with
    | none => exact h.stay htimely hnext hmove
    | some next =>
      obtain ⟨u, s⟩ := next
      obtain rfl := step_of_move hnext hmove
      exact h.move htimely hnext hmove
  exact ⟨hadvances, wellFormed_step h.well hnext, tracked_step h.tracked h.well hnext,
    hadvances.crashed, hadvances.confirmed, hadvances.connection, hadvances.cancels⟩

/-- In every run in which no lambda of a channel already replaced or reset is called, no null
pointer is used and everything asked of AMQP-CPP comes in its order. -/
theorem ordered_of_reachedBy {e : Event} (hreachable : machine.ReachedBy Timely x)
    (htimely : x.Timely e) (hstep : machine.step x e = some y) :
    y.transceiver.crashed = false ∧ ∃ new, y.transceiver.log = x.transceiver.log ++ new ∧
      ∀ o ∈ new, Ordered y.replies x.transceiver.channel y.transceiver o := by
  have hsound : x.Sound := by
    refine hreachable.invariant (I := Sound) ?_ fun x e y h htimely hstep ↦ (h.step htimely hstep).2
    rintro ⟨t, replies⟩ ⟨⟨exchange, queue, routeIn, listener, rfl⟩, rfl⟩
    exact ⟨wellFormed_new exchange queue routeIn listener, fun hrunning ↦ absurd rfl hrunning, rfl,
      fun hrunning ↦ absurd rfl hrunning, fun hrunning ↦ absurd rfl hrunning,
      fun n c _ hn ↦ by cases hn⟩
  obtain ⟨hadvances, -⟩ := hsound.step htimely hstep
  exact ⟨hadvances.crashed, hadvances.log⟩

/-- A listener that comes to `eReady` and is stopped, up to the new channel being ready on which it
unbinds its queue. -/
def session : List Event :=
  [.start (some 0), .callback 0 .createChannelReady, .callback 0 (.checkQueueSuccess "queue"),
    .callback 0 .createExchangeSuccess, .callback 0 .bindQueueSuccess,
    .callback 0 (.createConsumerSuccess "tag"), .stop, .callback 0 (.shutdownSuccess "tag")]

/-- The queue is unbound after it has been bound. -/
theorem ordered_session :
    ∃ x y, machine.run ⟨new "exchange" "queue" "route" true, []⟩ session = some x ∧
      machine.step x (.callback 1 .unbindQueueReady) = some y ∧
      Observation.issued 1 (.unbindQueue "exchange" "queue" "route") ∈ y.transceiver.log ∧
      y.transceiver.crashed = false ∧ ∃ new, y.transceiver.log = x.transceiver.log ++ new ∧
        ∀ o ∈ new, Ordered y.replies x.transceiver.channel y.transceiver o := by
  have hother {x : Transcript} {e : Event} (he : ∀ n cb, e ≠ .callback n cb) : x.Timely e :=
    fun n cb h ↦ absurd h (he n cb)
  have hcurrent {x : Transcript} {n : ℕ} (cb : Callback) (hn : x.transceiver.channel = some n) :
      x.Timely (.callback n cb) := by
    rintro k other h
    cases h
    exact hn
  refine ⟨_, _, rfl, rfl, by decide, ordered_of_reachedBy
    ⟨⟨new "exchange" "queue" "route" true, []⟩, session, ⟨⟨_, _, _, _, rfl⟩, rfl⟩, rfl, ?_⟩
    (hcurrent .unbindQueueReady rfl) rfl⟩
  refine Machine.meets_cons (hother (by simp)) rfl (Machine.meets_cons (hcurrent _ rfl) rfl ?_)
  refine Machine.meets_cons (hcurrent _ rfl) rfl (Machine.meets_cons (hcurrent _ rfl) rfl ?_)
  refine Machine.meets_cons (hcurrent _ rfl) rfl (Machine.meets_cons (hcurrent _ rfl) rfl ?_)
  exact Machine.meets_cons (hother (by simp)) rfl (Machine.meets_cons (hcurrent _ rfl) rfl trivial)

end Transcript

end Transceiver

end AmqpAsio
