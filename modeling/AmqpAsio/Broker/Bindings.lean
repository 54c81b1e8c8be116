import AmqpAsio.Broker.Naming
import AmqpAsio.Broker.World

/-!
# What a clean stop leaves on the broker

A listener that is stopped takes its binding along: it unbinds the queue, or removes the queue
together with the binding. Which of the two, or neither, is decided by the state at the `stop()`.
While the binding is under way, `StopTransit` chooses the removal, and that is skipped for a queue
that had existed; and an operation of the channel given up may overtake the removal asked for on the
new one. A run that avoids both (`Orderly`) leaves no binding behind when it ends with `eNoError`.
-/

set_option autoImplicit false
set_option relaxedAutoImplicit false

namespace AmqpAsio

namespace Transceiver

namespace Client

variable (x : Client)

/-- What is pending on a channel of the run once it is being torn down. -/
def Winds (n : ℕ) : Prop :=
  match x.transceiver.state with
  | .eShutdown => x.transceiver.pendingOn n = [] ∨ ∃ tag, x.transceiver.channel = some n ∧
      x.transceiver.pendingOn n = [.cancel tag]
  | .eUnbindQueue => ∀ o ∈ x.transceiver.pendingOn n, o.state = .eCreateConsumer ∨
      o = .unbindQueue x.transceiver.exchange x.transceiver.recvQueue x.transceiver.routeIn
  | .eRemoveQueue => ∀ o ∈ x.transceiver.pendingOn n, x.transceiver.channel ≠ some n ∧
      o = .bindQueue x.transceiver.exchange x.transceiver.recvQueue x.transceiver.routeIn ∨
      o = .removeQueue x.transceiver.recvQueue
  | .eCloseChannel | .eEnd => ∀ o ∈ x.transceiver.pendingOn n, o.state ≠ .eShutdown ∧
      (o.state = .eBindQueue → x.transceiver.channel ≠ some n)
  | _ => True

end Client

namespace World

variable (x : World)

/-- No binding on the broker has been made by the present run. -/
def Unbound : Prop := ∀ q r n, x.client.first ≤ n → x.broker.binding q r ≠ some (some n)

/-- The present run has made no binding but the one of its queue. -/
def BoundOnce : Prop :=
  ∀ q r n, x.client.first ≤ n → x.broker.binding q r = some (some n) →
    q = x.client.transceiver.recvQueue ∧
      r = (x.client.transceiver.exchange, x.client.transceiver.routeIn)

/-- A run that has ended without an error has left no binding behind. -/
def LeavesNone : Prop :=
  x.client.transceiver.state = .eEnd → x.client.transceiver.ec = .eNoError → x.Unbound

/-- No lambda of an earlier run acts on the present one; `stop()` is not called while the binding of
a queue that had existed is under way; and a binding asked for on a channel that has been given up
is made, if it is made at all, before the queue is removed. -/
structure Orderly (h : Happening) : Prop where
  undisturbed : x.Undisturbed h
  stop : h = .own (.call .stop) → x.client.transceiver.state = .eBindQueue →
    x.client.transceiver.queueExist = false
  late : ∀ n name exchange queue route, h = .own (.execute n (.accept name)) → x.client.first ≤ n →
    x.client.next n = some (.bindQueue exchange queue route) →
    x.client.transceiver.channel ≠ some n →
    x.broker.binding queue (exchange, route) = none → x.client.transceiver.ec = .eNoError →
    x.client.transceiver.state = .eRemoveQueue ∧
      ∀ m, x.client.first ≤ m → .removeQueueSuccess ∉ x.client.answers m

/-- The bindings of the run, by the state it is in. -/
def Bound : Prop :=
  match x.client.transceiver.state with
  | .eBindQueue | .eCreateConsumer | .eReady => x.BoundOnce
  | .eShutdown => x.BoundOnce ∧ x.client.transceiver.recvQueue ≠ ""
  | .eUnbindQueue => x.BoundOnce ∧
      ((∃ n, x.client.first ≤ n ∧ .unbindQueueSuccess ∈ x.client.answers n) → x.Unbound)
  | .eRemoveQueue => x.BoundOnce ∧
      ((∃ n, x.client.first ≤ n ∧ .removeQueueSuccess ∈ x.client.answers n) → x.Unbound)
  | _ => x.Unbound

/-- What is known of a run that has reported no error. -/
structure Holds (x : World) : Prop where
  winds : ∀ n, x.client.first ≤ n → x.client.Winds n
  bound : x.Bound

/-- The invariant of a listener whose runs are orderly. -/
structure Holder (x : World) : Prop where
  sound : x.client.Sound
  listener : x.client.transceiver.listener = true
  named : x.client.Named (· ≠ "")
  marked : ∀ q r n, x.broker.binding q r = some (some n) → n < x.client.transceiver.channels.length
  holds : x.client.transceiver.ec = .eNoError → x.Holds

variable {x y : World} {h : Happening} {a : Action} {e : Event} {t' : Transceiver}

theorem Unbound.boundOnce (hunbound : x.Unbound) : x.BoundOnce :=
  fun q r n hn hbinding ↦ absurd hbinding (hunbound q r n hn)

/-! ### Commands to the broker -/

/-- From `x` to `y` the run has made no binding, and its queue is the same. -/
structure Shrinks (x y : World) : Prop where
  first : y.client.first = x.client.first
  config : y.client.transceiver.config = x.client.transceiver.config
  recvQueue : y.client.transceiver.recvQueue = x.client.transceiver.recvQueue
  binding : ∀ q r n, x.client.first ≤ n → y.broker.binding q r = some (some n) →
    x.broker.binding q r = some (some n)

theorem Unbound.mono (hunbound : x.Unbound) (h : Shrinks x y) : y.Unbound :=
  fun q r n hn hbinding ↦ hunbound q r n (h.first ▸ hn) (h.binding q r n (h.first ▸ hn) hbinding)

theorem BoundOnce.mono (hbound : x.BoundOnce) (h : Shrinks x y) : y.BoundOnce := by
  have hexchange : y.client.transceiver.exchange = x.client.transceiver.exchange :=
    congrArg (·.1) h.config
  have hrouteIn : y.client.transceiver.routeIn = x.client.transceiver.routeIn :=
    congrArg (·.2.2.1) h.config
  intro q r n hn hbinding
  rw [hexchange, hrouteIn, h.recvQueue]
  exact hbound q r n (h.first ▸ hn) (h.binding q r n (h.first ▸ hn) hbinding)

/-- The answer confirms that the binding has been undone. -/
def Undoes (cb : Callback) : Prop := cb = .unbindQueueSuccess ∨ cb = .removeQueueSuccess

/-- Where the run makes no binding and is told of no binding undone, its bindings stay what they
are. -/
theorem Bound.mono (hbound : x.Bound) (h : Shrinks x y)
    (hstate : y.client.transceiver.state = x.client.transceiver.state)
    (hanswers : ∀ n cb, x.client.first ≤ n → Undoes cb → cb ∈ y.client.answers n →
      cb ∈ x.client.answers n) : y.Bound := by
  unfold Bound at hbound ⊢
  rw [hstate]
  cases hs : x.client.transceiver.state <;> simp only [hs] at hbound ⊢
  case eBindQueue | eCreateConsumer | eReady => exact hbound.mono h
  case eShutdown => exact ⟨hbound.1.mono h, h.recvQueue ▸ hbound.2⟩
  case eUnbindQueue =>
    refine ⟨hbound.1.mono h, fun ⟨n, hn, hmem⟩ ↦ (hbound.2 ⟨n, h.first ▸ hn, ?_⟩).mono h⟩
    exact hanswers n _ (h.first ▸ hn) (Or.inl rfl) hmem
  case eRemoveQueue =>
    refine ⟨hbound.1.mono h, fun ⟨n, hn, hmem⟩ ↦ (hbound.2 ⟨n, h.first ▸ hn, ?_⟩).mono h⟩
    exact hanswers n _ (h.first ▸ hn) (Or.inr rfl) hmem
  all_goals exact hbound.mono h

/-- A command that is no `bind` of the run makes no binding of the run. -/
theorem binding_of_apply {mark : Option ℕ} {c : Command} {q : String} {r : String × String} {n : ℕ}
    (hafter : (x.broker.apply mark c).binding q r = some (some n))
    (hcommand : mark = some n → x.broker.binding q r = none → c ≠ .bind q r) :
    x.broker.binding q r = some (some n) := by
  rcases Broker.binding_apply hafter with hbefore | ⟨hc, hmark, hnone⟩
  · exact hbefore
  · exact absurd hc (hcommand hmark.symm hnone)

theorem brokerAfter_execute {n : ℕ} {verdict : Verdict} {operation : Operation}
    (hnext : x.client.next n = some operation) :
    x.brokerAfter (.execute n verdict) =
      match operation.command verdict with
      | some c => x.broker.apply (some n) c
      | none => x.broker := by
  cases hc : operation.command verdict <;> simp [brokerAfter, Client.command, hnext, hc]

/-- The world once the broker has given its verdict on an operation. -/
def executed (x : World) (n : ℕ) (verdict : Verdict) (operation : Operation) : World :=
  ⟨{ x.client with answers := x.client.answersWith n (operation.answer verdict) },
    x.brokerAfter (.execute n verdict), x.createdAfter (.execute n verdict)⟩

@[simp] theorem transceiver_executed (x : World) (n : ℕ) (verdict : Verdict)
    (operation : Operation) : (x.executed n verdict operation).client.transceiver =
    x.client.transceiver := rfl

/-- A verdict on anything but a `bindQueue` of the run that finds no binding makes no binding of the
run. -/
theorem shrinks_executed {n : ℕ} {verdict : Verdict} {operation : Operation}
    (hnext : x.client.next n = some operation)
    (hbind : ∀ q r, operation.command verdict = some (.bind q r) → x.client.first ≤ n →
      x.broker.binding q r ≠ none) : Shrinks x (x.executed n verdict operation) := by
  refine ⟨rfl, rfl, rfl, fun q r m hm hbinding ↦ ?_⟩
  change (x.brokerAfter (.execute n verdict)).binding q r = _ at hbinding
  rw [brokerAfter_execute hnext] at hbinding
  cases hc : operation.command verdict with
  | none => simpa only [hc] using hbinding
  | some c =>
    simp only [hc] at hbinding
    refine binding_of_apply hbinding fun hmark hnone heq ↦ ?_
    obtain rfl := Option.some.inj hmark
    exact hbind q r (heq ▸ hc) hm hnone

theorem mem_answers_executed {n m : ℕ} {verdict : Verdict} {operation : Operation} {cb : Callback}
    (hmem : cb ∈ (x.executed n verdict operation).client.answers m) :
    cb ∈ x.client.answers m ∨ m = n ∧ cb = operation.answer verdict :=
  Client.mem_answersWith hmem

theorem bind_of_command {operation : Operation} {verdict : Verdict} {q : String}
    {r : String × String}
    (hcommand : operation.command verdict = some (.bind q r)) :
    operation = .bindQueue r.1 q r.2 ∧ ∃ name, verdict = .accept name := by
  cases verdict with
  | refuse reason => cases operation <;> cases hcommand
  | accept name =>
    cases operation <;> simp only [Operation.command, Option.some.injEq, Broker.Command.bind.injEq,
      reduceCtorEq] at hcommand
    obtain ⟨rfl, rfl⟩ := hcommand
    exact ⟨rfl, name, rfl⟩

/-- Once the bindings of the run are down to the one of its queue, undoing that leaves none. -/
theorem BoundOnce.unbound (hbound : x.BoundOnce) (h : Shrinks x y)
    (hundone : y.broker.binding x.client.transceiver.recvQueue
      (x.client.transceiver.exchange, x.client.transceiver.routeIn) = none) : y.Unbound := by
  intro q r n hn hbinding
  obtain ⟨rfl, rfl⟩ := hbound q r n (h.first ▸ hn) (h.binding q r n (h.first ▸ hn) hbinding)
  cases hundone.symm.trans hbinding

/-- What makes a binding of the run is a `bindQueue` of its queue, asked for before the run is torn
down, or before its queue is removed. -/
theorem Holder.makes {n : ℕ} {verdict : Verdict} {operation : Operation} {q : String}
    {r : String × String} (hholder : x.Holder) (horderly : x.Orderly (.own (.execute n verdict)))
    (hec : x.client.transceiver.ec = .eNoError) (hn : x.client.first ≤ n)
    (hnext : x.client.next n = some operation)
    (hcommand : operation.command verdict = some (.bind q r))
    (hnone : x.broker.binding q r = none) :
    q = x.client.transceiver.recvQueue ∧
      r = (x.client.transceiver.exchange, x.client.transceiver.routeIn) ∧
      (x.client.transceiver.state = .eBindQueue ∨ x.client.transceiver.state = .eRemoveQueue ∧
        ∀ m, x.client.first ≤ m → .removeQueueSuccess ∉ x.client.answers m) := by
  obtain ⟨rfl, name, rfl⟩ := bind_of_command hcommand
  have hmem := hholder.sound.matched.next_mem hnext
  have hlate := horderly.late n name _ _ _ rfl hn hnext
  have hwinds := (hholder.holds hec).winds n hn
  cases hsetsUp : x.client.transceiver.state.beforeShutdown with
  | true =>
    obtain ⟨hawaited, -⟩ := hholder.sound.next_setsUp hsetsUp hn hnext
    have hs : x.client.transceiver.state = .eBindQueue := (awaited_state hawaited).symm
    have hoperation : .bindQueue x.client.transceiver.exchange x.client.transceiver.recvQueue
        x.client.transceiver.routeIn = Operation.bindQueue r.1 q r.2 := by
      simpa [awaited, hs] using hawaited
    obtain ⟨hexchange, hqueue, hroute⟩ := Operation.bindQueue.inj hoperation
    exact ⟨hqueue.symm, Prod.ext hexchange.symm hroute.symm, Or.inl hs⟩
  | false =>
    unfold Client.Winds at hwinds
    cases hs : x.client.transceiver.state <;>
      simp only [hs, State.beforeShutdown, reduceCtorEq] at hwinds hsetsUp
    case eShutdown =>
      rcases hwinds with hnil | ⟨tag, -, hcancel⟩
      · simp [hnil] at hmem
      · simp [hcancel] at hmem
    case eUnbindQueue => rcases hwinds _ hmem with hconsume | hunbind <;> contradiction
    case eRemoveQueue =>
      rcases hwinds _ hmem with ⟨hchannel, hoperation⟩ | hremove
      · obtain ⟨hexchange, hqueue, hroute⟩ := Operation.bindQueue.inj hoperation
        exact ⟨hqueue, Prod.ext hexchange hroute, Or.inr ⟨rfl, (hlate hchannel hnone hec).2⟩⟩
      · cases hremove
    case eCloseChannel => cases hs.symm.trans (hlate ((hwinds _ hmem).2 rfl) hnone hec).1
    case eEnd => cases hs.symm.trans (hlate ((hwinds _ hmem).2 rfl) hnone hec).1

/-- The broker gives its verdict on an operation that makes no binding of the run. -/
theorem Holder.bound_of_shrinks {n : ℕ} {verdict : Verdict} {operation : Operation}
    (hholder : x.Holder) (hec : x.client.transceiver.ec = .eNoError)
    (hnext : x.client.next n = some operation)
    (h : Shrinks x (x.executed n verdict operation)) : (x.executed n verdict operation).Bound := by
  have hbound := (hholder.holds hec).bound
  have hwinds := (hholder.holds hec).winds n
  have hmem := hholder.sound.matched.next_mem hnext
  have hbroker : x.brokerAfter (.execute n verdict) = _ := brokerAfter_execute hnext
  unfold Bound at hbound ⊢
  unfold Client.Winds at hwinds
  cases hs : x.client.transceiver.state <;> simp only [transceiver_executed, hs] at hbound hwinds ⊢
  case eBindQueue | eCreateConsumer | eReady => exact hbound.mono h
  case eShutdown => exact ⟨hbound.1.mono h, hbound.2⟩
  case eUnbindQueue =>
    refine ⟨hbound.1.mono h, fun ⟨m, hm, hcb⟩ ↦ ?_⟩
    rcases mem_answers_executed hcb with hold | ⟨rfl, hanswer⟩
    · exact (hbound.2 ⟨m, hm, hold⟩).mono h
    · rcases hwinds hm _ hmem with hconsume | rfl
      · cases operation <;> cases hconsume
        cases verdict <;> cases hanswer
      · cases verdict with
        | refuse reason => cases hanswer
        | accept name =>
          refine hbound.1.unbound h ?_
          change (x.brokerAfter _).binding _ _ = none
          simp [hbroker, Operation.command]
  case eRemoveQueue =>
    refine ⟨hbound.1.mono h, fun ⟨m, hm, hcb⟩ ↦ ?_⟩
    rcases mem_answers_executed hcb with hold | ⟨rfl, hanswer⟩
    · exact (hbound.2 ⟨m, hm, hold⟩).mono h
    · rcases hwinds hm _ hmem with ⟨-, rfl⟩ | rfl
      · cases verdict <;> cases hanswer
      · cases verdict with
        | refuse reason => cases hanswer
        | accept name =>
          refine hbound.1.unbound h ?_
          change (x.brokerAfter _).binding _ _ = none
          simp [hbroker, Operation.command]
  all_goals exact hbound.mono h

/-- The broker gives its verdict on a `bindQueue` of the run, which makes the binding of its
queue. -/
theorem Holder.bound_of_makes {n : ℕ} {verdict : Verdict} {operation : Operation} {q : String}
    {r : String × String} (hholder : x.Holder) (horderly : x.Orderly (.own (.execute n verdict)))
    (hec : x.client.transceiver.ec = .eNoError) (hn : x.client.first ≤ n)
    (hnext : x.client.next n = some operation)
    (hcommand : operation.command verdict = some (.bind q r))
    (hnone : x.broker.binding q r = none) : (x.executed n verdict operation).Bound := by
  obtain ⟨hq, hr, hstate⟩ := hholder.makes horderly hec hn hnext hcommand hnone
  have honce (hbound : x.BoundOnce) : (x.executed n verdict operation).BoundOnce := by
    intro p t m hm hbinding
    change (x.brokerAfter (.execute n verdict)).binding p t = _ at hbinding
    simp only [brokerAfter_execute hnext, hcommand] at hbinding
    rcases Broker.binding_apply hbinding with hbefore | ⟨hc, -, -⟩
    · exact hbound p t m hm hbefore
    · obtain ⟨rfl, rfl⟩ := Broker.Command.bind.inj hc
      exact ⟨hq, hr⟩
  have hbound := (hholder.holds hec).bound
  unfold Bound at hbound ⊢
  rcases hstate with hs | ⟨hs, hnot⟩ <;> simp only [transceiver_executed, hs] at hbound ⊢
  · exact honce hbound
  · refine ⟨honce hbound.1, fun ⟨m, hm, hcb⟩ ↦ ?_⟩
    rcases mem_answers_executed hcb with hold | ⟨rfl, hanswer⟩
    · exact absurd hold (hnot m hm)
    · obtain ⟨rfl, name, rfl⟩ := bind_of_command hcommand
      cases hanswer

/-- The broker gives its verdict on an operation of the listener. -/
theorem Holder.execute {n : ℕ} {verdict : Verdict} {operation : Operation} (hholder : x.Holder)
    (horderly : x.Orderly (.own (.execute n verdict))) (hec : x.client.transceiver.ec = .eNoError)
    (hnext : x.client.next n = some operation) : (x.executed n verdict operation).Holds := by
  refine ⟨(hholder.holds hec).winds, ?_⟩
  by_cases hbind : ∃ q r, operation.command verdict = some (.bind q r) ∧ x.client.first ≤ n ∧
      x.broker.binding q r = none
  · obtain ⟨q, r, hcommand, hn, hnone⟩ := hbind
    exact hholder.bound_of_makes horderly hec hn hnext hcommand hnone
  · refine hholder.bound_of_shrinks hec hnext
      (shrinks_executed hnext fun q r hcommand hn hnone ↦ ?_)
    exact hbind ⟨q, r, hcommand, hn, hnone⟩

/-! ### Events of the listener -/

/-- The world once an event of the transceiver has happened that begins no run. -/
def moved (x : World) (a : Action) (t' : Transceiver) : World :=
  ⟨⟨t', x.client.first, x.client.answersAfter a⟩, x.broker, x.created⟩

@[simp] theorem transceiver_moved (x : World) (a : Action) (t' : Transceiver) :
    (x.moved a t').client.transceiver = t' := rfl

theorem shrinks_moved (hstep : x.client.transceiver.step e = some t')
    (hrecvQueue : t'.recvQueue = x.client.transceiver.recvQueue) : Shrinks x (x.moved a t') :=
  ⟨rfl, config_step hstep, hrecvQueue, fun _ _ _ _ hbinding ↦ hbinding⟩

/-- A step that leaves the state machine where it is. -/
theorem Holds.still (hholds : x.Holds) (hstep : x.client.transceiver.step e = some t')
    (hmove : x.client.transceiver.move e = none) : (x.moved a t').Holds := by
  have hstill := still_of_no_move hstep hmove
  have hrecvQueue := (queue_still hstill).2
  have hstate := (step_of_no_move hstep hmove).state
  have hconfig := config_step hstep
  have hexchange : t'.exchange = x.client.transceiver.exchange := congrArg (·.1) hconfig
  have hrouteIn : t'.routeIn = x.client.transceiver.routeIn := congrArg (·.2.2.1) hconfig
  have hanswers := x.client.answersAfter_subset a
  refine ⟨fun n hn ↦ ?_, hholds.bound.mono (shrinks_moved hstep hrecvQueue) hstate
    fun n cb _ _ hcb ↦ hanswers n hcb⟩
  · have hwinds := hholds.winds n hn
    have hpending {o : Operation} (ho : o ∈ t'.pendingOn n) :
        o ∈ x.client.transceiver.pendingOn n ∨ t'.request = some o :=
      (mem_pendingOn_step hstep ho).imp (x.client.transceiver.remaining_subset n e ·) And.right
    unfold Client.Winds at hwinds ⊢
    simp only [transceiver_moved, hstate, channel_still hstill, hexchange, hrecvQueue, hrouteIn]
    cases hs : x.client.transceiver.state <;> simp only [hs] at hwinds ⊢
    case eShutdown =>
      rw [pendingOn_still hstill (by simp [hs]) (by simp [hs])]
      have hsub := x.client.transceiver.remaining_sublist n e
      rcases hwinds with hnil | ⟨tag, hchannel, hcancel⟩
      · exact Or.inl (List.sublist_nil.mp (hnil ▸ hsub))
      · rw [hcancel, List.sublist_singleton] at hsub
        exact hsub.imp_right fun heq ↦ ⟨tag, hchannel, heq⟩
    case eUnbindQueue =>
      intro o ho
      rcases hpending ho with hold | hnew
      · exact hwinds o hold
      · exact Or.inr
          (by simpa [request, hstate, hs, hexchange, hrecvQueue, hrouteIn] using hnew.symm)
    case eRemoveQueue =>
      intro o ho
      rcases hpending ho with hold | hnew
      · exact hwinds o hold
      · exact Or.inr (by simpa [request, hstate, hs, hrecvQueue] using hnew.symm)
    case eCloseChannel =>
      intro o ho
      rcases hpending ho with hold | hnew
      · exact hwinds o hold
      · obtain rfl : .close = o := by simpa [request, hstate, hs] using hnew
        exact ⟨by simp [Operation.state], by simp [Operation.state]⟩
    case eEnd =>
      intro o ho
      rcases hpending ho with hold | hnew
      · exact hwinds o hold
      · simp [request, hstate, hs] at hnew

/-- A run that sets up has nothing to wind up. -/
theorem winds_of_setsUp {x : Client} {n : ℕ} (hsetsUp : x.transceiver.state.beforeShutdown = true) :
    x.Winds n := by
  unfold Client.Winds
  cases hs : x.transceiver.state <;> simp only [hs, State.beforeShutdown, Bool.false_eq_true]
    at hsetsUp ⊢

/-- A run without a binding goes on setting up, up to its binding. -/
theorem holds_unbound {u : Transceiver} {s : State} (hsetsUp : (u.landing s).beforeShutdown = true)
    (hunbound : x.Unbound) : (x.moved a (u.goto s)).Holds := by
  have hunbound' : (x.moved a (u.goto s)).Unbound := hunbound
  refine ⟨fun n _ ↦ winds_of_setsUp (by simpa using hsetsUp), ?_⟩
  unfold Bound
  cases hs : u.landing s <;> simp only [hs, transceiver_moved, state_goto, State.beforeShutdown,
    Bool.false_eq_true] at hsetsUp ⊢
  case eBindQueue | eCreateConsumer | eReady => exact hunbound'.boundOnce
  all_goals exact hunbound'

/-- A run with its binding goes on setting up. -/
theorem holds_bound {u : Transceiver} {s : State}
    (hlanding : u.landing s = .eCreateConsumer ∨ u.landing s = .eReady)
    (hbound : (x.moved a (u.goto s)).BoundOnce) : (x.moved a (u.goto s)).Holds := by
  refine ⟨fun n _ ↦ winds_of_setsUp ?_, ?_⟩
  · rcases hlanding with hl | hl <;> simp [hl, State.beforeShutdown]
  · unfold Bound
    rcases hlanding with hl | hl <;> simpa only [transceiver_moved, state_goto, hl] using hbound

/-- A run without a binding goes on to close its channel, or ends. -/
theorem holds_closing {u : Transceiver} {s : State}
    (hstep : x.client.transceiver.step e = some (u.goto s))
    (hlanding : u.landing s = .eCloseChannel ∨ u.landing s = .eEnd)
    (hchannel : u.channel = x.client.transceiver.channel) (hunbound : x.Unbound)
    (hpending : ∀ n, x.client.first ≤ n → ∀ o ∈ x.client.transceiver.remaining n e,
      o.state ≠ .eShutdown ∧ (o.state = .eBindQueue → x.client.transceiver.channel ≠ some n)) :
    (x.moved a (u.goto s)).Holds := by
  have hunbound' : (x.moved a (u.goto s)).Unbound := hunbound
  have hwinds (n : ℕ) (hn : x.client.first ≤ n) : ∀ o ∈ (u.goto s).pendingOn n,
      o.state ≠ .eShutdown ∧ (o.state = .eBindQueue → (u.goto s).channel ≠ some n) := by
    intro o ho
    rcases mem_pendingOn_step hstep ho with hold | ⟨-, hnew⟩
    · obtain ⟨hshutdown, hbind⟩ := hpending n hn o hold
      refine ⟨hshutdown, fun hs ↦ ?_⟩
      rcases hlanding with hl | hl <;> simp only [channel_goto, hl]
      · exact hchannel ▸ hbind hs
      · simp
    · have hs := request_state hnew
      rw [state_goto] at hs
      rcases hlanding with hl | hl <;> simp [hs, hl]
  refine ⟨fun n hn ↦ ?_, ?_⟩
  · unfold Client.Winds
    rcases hlanding with hl | hl <;> simp only [transceiver_moved, state_goto, hl] <;> exact hwinds
      n hn
  · unfold Bound
    rcases hlanding with hl | hl <;> simp only [transceiver_moved, state_goto, hl] <;>
      exact hunbound'

/-- A run begins. -/
theorem Holder.begun {created : List String} (hholder : x.Holder)
    (hbegins : x.client.transceiver.begins e = true)
    (hstep : x.client.transceiver.step e = some t') :
    Holds ⟨⟨t', x.client.transceiver.channels.length, x.client.answersAfter a⟩,
      x.broker, created⟩ := by
  have hunbound : Unbound ⟨⟨t', x.client.transceiver.channels.length, x.client.answersAfter a⟩,
      x.broker, created⟩ :=
    fun q r n hn hbinding ↦ absurd (hholder.marked q r n hbinding) (Nat.not_lt.mpr hn)
  refine ⟨fun n hn ↦ ?_, ?_⟩
  · rcases state_of_begins hbegins hstep with hs | hs
    · exact winds_of_setsUp (by simp [hs, State.beforeShutdown])
    · unfold Client.Winds
      simp only [hs]
      intro o ho
      rcases mem_pendingOn_step hstep ho with hold | ⟨-, hnew⟩
      · have hold := x.client.transceiver.remaining_subset n e hold
        simp [pendingOn_of_length_le hn] at hold
      · simp [request, hs] at hnew
  · unfold Bound
    rcases state_of_begins hbegins hstep with hs | hs <;> simp only [hs] <;> exact hunbound

/-- A run with its binding goes on to undo it. -/
theorem Holder.unbinding {u : Transceiver} {s : State} (hholder : x.Holder)
    (hstep : x.client.transceiver.step e = some (u.goto s)) (hlanding : u.landing s = .eUnbindQueue)
    (hrecvQueue : u.recvQueue = x.client.transceiver.recvQueue) (hbound : x.BoundOnce)
    (hbefore : ∀ n, x.client.first ≤ n → ∀ o ∈ x.client.transceiver.pendingOn n,
      o.state ≠ .eUnbindQueue)
    (hrest : ∀ n, x.client.first ≤ n → ∀ o ∈ x.client.transceiver.remaining n e,
      o.state = .eCreateConsumer) : (x.moved a (u.goto s)).Holds := by
  have hrecvQueue' : (u.goto s).recvQueue = x.client.transceiver.recvQueue :=
    (queue_goto (by simp [hlanding])).2.trans hrecvQueue
  have hstate : (u.goto s).state = .eUnbindQueue := (u.state_goto s).trans hlanding
  refine ⟨fun n hn ↦ ?_, ?_⟩
  · unfold Client.Winds
    simp only [transceiver_moved, hstate]
    intro o ho
    rcases mem_pendingOn_step hstep ho with hold | ⟨-, hnew⟩
    · exact Or.inl (hrest n hn o hold)
    · simp only [request, hstate, Option.some.injEq] at hnew
      exact Or.inr hnew.symm
  · unfold Bound
    simp only [transceiver_moved, hstate]
    refine ⟨hbound.mono (shrinks_moved hstep hrecvQueue'), ?_⟩
    rintro ⟨n, hn, hcb⟩
    obtain ⟨o, ho, hreports⟩ :=
      hholder.sound.matched.exists_of_mem (x.client.answersAfter_subset a n hcb)
    have hunbinds : Operation.reports (.unbindQueue "" "" "") .unbindQueueSuccess = true := rfl
    exact absurd (state_eq_of_reports hreports hunbinds) (hbefore n hn o ho)

/-- A run that gives up the binding of its own queue goes on to remove the queue. -/
theorem Holder.removing {u : Transceiver} {s : State} (hholder : x.Holder)
    (hec : x.client.transceiver.ec = .eNoError)
    (hstep : x.client.transceiver.step e = some (u.goto s)) (hlanding : u.landing s = .eRemoveQueue)
    (hrecvQueue : u.recvQueue = x.client.transceiver.recvQueue)
    (hlength : u.channels.length = x.client.transceiver.channels.length)
    (hs : x.client.transceiver.state = .eBindQueue) : (x.moved a (u.goto s)).Holds := by
  have hsetsUp : x.client.transceiver.state.beforeShutdown = true := by rw [hs]; rfl
  have hbound : x.BoundOnce := by
    have hbound := (hholder.holds hec).bound
    simpa only [Bound, hs] using hbound
  have hconfig := config_step hstep
  have hexchange : (u.goto s).exchange = x.client.transceiver.exchange := congrArg (·.1) hconfig
  have hrouteIn : (u.goto s).routeIn = x.client.transceiver.routeIn := congrArg (·.2.2.1) hconfig
  have hrecvQueue' : (u.goto s).recvQueue = x.client.transceiver.recvQueue :=
    (queue_goto (by simp [hlanding])).2.trans hrecvQueue
  have hstate : (u.goto s).state = .eRemoveQueue := (u.state_goto s).trans hlanding
  refine ⟨fun n hn ↦ ?_, ?_⟩
  · unfold Client.Winds
    simp only [transceiver_moved, hstate, hexchange, hrouteIn, hrecvQueue']
    intro o ho
    rcases mem_pendingOn_step hstep ho with hold | ⟨-, hnew⟩
    · have hmem := x.client.transceiver.remaining_subset n e hold
      obtain ⟨-, hawaited, -⟩ := hholder.sound.pending_setsUp hsetsUp hn hmem
      refine Or.inl ⟨?_, by simpa [awaited, hs] using hawaited.symm⟩
      -- the new channel is none that anything is pending on
      rw [channel_goto, hlanding]
      intro heq
      rw [pendingOn_of_length_le (Nat.le_of_eq (hlength ▸ Option.some.inj heq))] at hmem
      cases hmem
    · simp only [request, hstate, hrecvQueue', Option.some.injEq] at hnew
      exact Or.inr hnew.symm
  · unfold Bound
    simp only [transceiver_moved, hstate]
    refine ⟨hbound.mono (shrinks_moved hstep hrecvQueue'), ?_⟩
    rintro ⟨n, hn, hcb⟩
    obtain ⟨o, hreports, ho⟩ :=
      hholder.sound.answer_setsUp hsetsUp hn (x.client.answersAfter_subset a n hcb)
    have hremoves : Operation.reports (.removeQueue "") .removeQueueSuccess = true := rfl
    have hremove := state_eq_of_reports hreports hremoves
    rw [ho, hs] at hremove
    cases hremove

/-- A run with its binding goes on to cancel its consumer. -/
theorem holds_shutting {u : Transceiver} {s : State}
    (hstep : x.client.transceiver.step e = some (u.goto s)) (hlanding : u.landing s = .eShutdown)
    (hrecvQueue : u.recvQueue = x.client.transceiver.recvQueue)
    (hne : x.client.transceiver.recvQueue ≠ "") (hbound : x.BoundOnce)
    (hrest : ∀ n, x.client.first ≤ n → x.client.transceiver.remaining n e = []) :
    (x.moved a (u.goto s)).Holds := by
  have hrecvQueue' : (u.goto s).recvQueue = x.client.transceiver.recvQueue :=
    (queue_goto (by simp [hlanding])).2.trans hrecvQueue
  have hstate : (u.goto s).state = .eShutdown := (u.state_goto s).trans hlanding
  refine ⟨fun n hn ↦ ?_, ?_⟩
  · unfold Client.Winds
    simp only [transceiver_moved, hstate]
    obtain ⟨new, heffect⟩ := effect_of_step hstep
    obtain ⟨issued, hissued, hmem⟩ := heffect.pending n
    rw [hissued, hrest n hn, List.nil_append]
    cases issued with
    | none => exact Or.inl rfl
    | some o =>
      obtain ⟨hchannel, hrequest⟩ := heffect.issued n o (hmem o (by simp))
      simp only [request, hstate, Option.some.injEq] at hrequest
      exact Or.inr ⟨_, hchannel, by rw [← hrequest]; rfl⟩
  · unfold Bound
    simp only [transceiver_moved, hstate]
    exact ⟨hbound.mono (shrinks_moved hstep hrecvQueue'), hrecvQueue'.symm ▸ hne⟩

/-- A `stop()` during the set-up. -/
theorem Holder.stopping (hholder : x.Holder) (hec : x.client.transceiver.ec = .eNoError)
    (hsetsUp : x.client.transceiver.state.beforeShutdown = true)
    (hexist : x.client.transceiver.state = .eBindQueue → x.client.transceiver.queueExist = false)
    (hstep : x.client.transceiver.step .stop =
      some (x.client.transceiver.goto (stopTransit x.client.transceiver.state))) :
    (x.moved a (x.client.transceiver.goto (stopTransit x.client.transceiver.state))).Holds := by
  have hbound := (hholder.holds hec).bound
  have hnamed := hholder.named
  have hpending {n : ℕ} {o : Operation} (hn : x.client.first ≤ n)
      (ho : o ∈ x.client.transceiver.pendingOn n) : o.state = x.client.transceiver.state :=
    hholder.sound.sole.state_of_mem hsetsUp hn ho
  have hnone {n : ℕ} (hn : x.client.first ≤ n) (hready : x.client.transceiver.state = .eReady) :
      x.client.transceiver.pendingOn n = [] := by
    refine List.eq_nil_iff_forall_not_mem.mpr fun o ho ↦ ?_
    have ho := hpending hn ho
    cases o <;> simp [Operation.state, hready] at ho
  have hclosing {s : State} (hlanding : x.client.transceiver.landing s = .eCloseChannel ∨
      x.client.transceiver.landing s = .eEnd) (hunbound : x.Unbound)
      (hbind : x.client.transceiver.state ≠ .eBindQueue)
      (hstep : x.client.transceiver.step .stop = some (x.client.transceiver.goto s)) :
      (x.moved a (x.client.transceiver.goto s)).Holds := by
    refine holds_closing hstep hlanding rfl hunbound fun n hn o ho ↦ ?_
    have ho := hpending hn ho
    refine ⟨fun hs ↦ ?_, fun hs ↦ absurd (ho.symm.trans hs) hbind⟩
    simp [← ho, hs, State.beforeShutdown] at hsetsUp
  unfold Bound at hbound
  unfold Client.Named at hnamed
  cases hs : x.client.transceiver.state <;> simp only [hs, State.beforeShutdown, reduceCtorEq]
    at hsetsUp
  all_goals
    rw [hs] at hstep
    simp only [hs] at hbound hnamed
  case eCreateChannel => exact hclosing (Or.inr rfl) hbound (by simp [hs]) hstep
  case eCheckQueue => exact hclosing (Or.inl rfl) hbound (by simp [hs]) hstep
  case eCreateExchange => exact hclosing (Or.inl rfl) hbound (by simp [hs]) hstep
  case eCreateQueue => exact hclosing (Or.inl rfl) hbound (by simp [hs]) hstep
  case eRecreateChannel =>
    by_cases hend : x.client.transceiver.landing .eCreateChannel = .eEnd
    · exact hclosing (Or.inr hend) hbound (by simp [hs]) hstep
    · exact holds_unbound (s := .eCreateChannel) (by rw [landing_eCreateChannel hend]; rfl) hbound
  case eBindQueue =>
    have hlanding : x.client.transceiver.landing .eRemoveQueue = .eRemoveQueue := by
      simp [landing, path, hexist hs]
    exact hholder.removing hec hstep hlanding rfl rfl hs
  case eCreateConsumer =>
    have hlanding : x.client.transceiver.landing .eUnbindQueue = .eUnbindQueue := by
      simp [landing, path, hnamed]
    refine hholder.unbinding hstep hlanding rfl hbound (fun n hn o ho ↦ ?_)
      fun n hn o ho ↦ (hpending hn ho).trans hs
    simp [hpending hn ho, hs]
  case eReady =>
    by_cases htag : x.client.transceiver.consumerTag = ""
    · have hlanding : x.client.transceiver.landing .eShutdown = .eUnbindQueue := by
        simp [landing, path, hholder.listener, htag, hnamed]
      exact hholder.unbinding hstep hlanding rfl hbound
        (fun n hn o ho ↦ by simp [hnone hn hs] at ho) fun n hn o ho ↦ by
          simp [Transceiver.remaining, hnone hn hs] at ho
    · have hlanding : x.client.transceiver.landing .eShutdown = .eShutdown := by
        simp [landing, path, hholder.listener, htag]
      exact holds_shutting hstep hlanding rfl hnamed hbound fun n hn ↦ hnone hn hs

/-- The run goes on with the set-up. -/
theorem Holder.forward {n : ℕ} {cb : Callback} {u : Transceiver} {s : State} (hholder : x.Holder)
    (hec : x.client.transceiver.ec = .eNoError)
    (hforward : Forward (x.client.transceiver.delivering n cb) cb u s)
    (hstep : x.client.transceiver.step (.callback n cb) = some (u.goto s)) :
    (x.moved a (u.goto s)).Holds := by
  have hbound := (hholder.holds hec).bound
  unfold Bound at hbound
  have hbefore (hs : (u.landing s).beforeShutdown = true) (hunbound : x.Unbound) := holds_unbound
    (a := a) hs hunbound
  have hafter (hlanding : u.landing s = .eCreateConsumer ∨ u.landing s = .eReady)
      (hbound : x.BoundOnce) (hrecvQueue : u.recvQueue = x.client.transceiver.recvQueue) :
      (x.moved a (u.goto s)).Holds := by
    refine holds_bound hlanding (hbound.mono (shrinks_moved hstep ?_))
    rw [(queue_goto fun hend ↦ by rcases hlanding with hl | hl <;> cases hl.symm.trans hend).2,
      hrecvQueue]
  have honward := hforward.onward hholder.listener
  generalize u.landing s = landing at honward hbefore hafter
  cases honward with
  | bound hs =>
    simp only [hs] at hbound
    exact hafter (Or.inl rfl) hbound rfl
  | consuming consumer hs =>
    simp only [hs] at hbound
    exact hafter (Or.inr rfl) hbound rfl
  | opened hs | nameless hs | found name hs | missing message hs | reopened hs | exchange hs
  | existing hs | created name hs =>
    simp only [hs] at hbound
    exact hbefore rfl hbound

/-- The state in which a lambda of the teardown is called, and what is left of the run's bindings
then. -/
theorem Holder.torn {n : ℕ} {cb : Callback} {s : State} (hholder : x.Holder)
    (hec : x.client.transceiver.ec = .eNoError) (hn : x.client.first ≤ n)
    (hevent : x.client.event a = some (.callback n cb)) (hbackward : Backward cb s) :
    (x.client.transceiver.state = .eShutdown ∧ s = .eUnbindQueue ∧
      ∀ m, x.client.first ≤ m → x.client.transceiver.remaining m (.callback n cb) = []) ∨
    (s = .eCloseChannel ∨ s = .eEnd) ∧ x.Unbound ∧ ∀ m, x.client.first ≤ m →
      ∀ o ∈ x.client.transceiver.remaining m (.callback n cb),
        o.state ≠ .eShutdown ∧ (o.state = .eBindQueue → x.client.transceiver.channel ≠ some m) := by
  have hcb : cb.answers = true := by cases hbackward <;> rfl
  obtain ⟨-, hanswer⟩ := Client.mem_of_event hevent hcb
  obtain ⟨o, ho, hreports⟩ := hholder.sound.matched.exists_of_mem hanswer
  have hwinds := (hholder.holds hec).winds
  have hbound := (hholder.holds hec).bound
  have hsub (m : ℕ) := x.client.transceiver.remaining_subset m (.callback n cb)
  have hlate : o.state.beforeShutdown = false := by
    cases hbackward <;> cases o <;> first | rfl | cases hreports
  unfold Client.Winds at hwinds
  unfold Bound at hbound
  cases hs : x.client.transceiver.state <;> simp only [hs] at hwinds hbound
  case eShutdown =>
    have hpending := hwinds n hn
    rcases hpending with hnil | ⟨tag, hchannel, hcancel⟩
    · simp [hnil] at ho
    · obtain rfl : o = .cancel tag := by simpa [hcancel] using ho
      cases hbackward with
      | cancelled consumer =>
        refine Or.inl ⟨rfl, rfl, fun m hm ↦ ?_⟩
        by_cases hnm : n = m
        · subst hnm
          simp [Transceiver.remaining, hcancel, Operation.reports]
        · rcases hwinds m hm with hnil | ⟨_, hchannel', -⟩
          · simp [Transceiver.remaining, hnil]
          · exact absurd (Option.some.inj (hchannel.symm.trans hchannel')) hnm
      | _ => cases hreports
  case eUnbindQueue =>
    rcases hwinds n hn o ho with hconsume | rfl
    · simp [hconsume, State.beforeShutdown] at hlate
    · cases hbackward with
      | unbound =>
        refine Or.inr ⟨Or.inl rfl, hbound.2 ⟨n, hn, hanswer⟩, fun m hm o ho ↦ ?_⟩
        rcases hwinds m hm o (hsub m ho) with hconsume | rfl
        · simp [hconsume]
        · simp [Operation.state]
      | _ => cases hreports
  case eRemoveQueue =>
    rcases hwinds n hn o ho with ⟨-, rfl⟩ | rfl
    · cases hlate
    · cases hbackward with
      | removed =>
        refine Or.inr ⟨Or.inl rfl, hbound.2 ⟨n, hn, hanswer⟩, fun m hm o ho ↦ ?_⟩
        rcases hwinds m hm o (hsub m ho) with ⟨hchannel, rfl⟩ | rfl
        · exact ⟨by simp [Operation.state], fun _ ↦ hchannel⟩
        · simp [Operation.state]
      | _ => cases hreports
  case eCloseChannel | eEnd =>
    refine Or.inr ⟨?_, hbound, fun m hm o ho ↦ hwinds m hm o (hsub m ho)⟩
    cases hbackward with
    | cancelled consumer =>
      have hcancels : Operation.reports (.cancel consumer) (.shutdownSuccess consumer) = true := by
        simp [Operation.reports]
      exact absurd (state_eq_of_reports hreports hcancels) (hwinds n hn o ho).1
    | unbound => exact Or.inl rfl
    | removed => exact Or.inl rfl
    | closed => exact Or.inr rfl
  all_goals
    have hstate := hholder.sound.sole.state_of_mem (by rw [hs]; rfl) hn ho
    simp [hstate, hs, State.beforeShutdown] at hlate

/-- The run goes on with the teardown. -/
theorem Holder.backward {n : ℕ} {cb : Callback} {s : State} (hholder : x.Holder)
    (hec : x.client.transceiver.ec = .eNoError) (hn : x.client.first ≤ n)
    (hevent : x.client.event a = some (.callback n cb)) (hbackward : Backward cb s)
    (hstep : x.client.transceiver.step (.callback n cb) =
      some ((x.client.transceiver.delivering n cb).goto s)) :
    (x.moved a ((x.client.transceiver.delivering n cb).goto s)).Holds := by
  rcases hholder.torn hec hn hevent hbackward with ⟨hs, rfl, hrest⟩ | ⟨hs, hunbound, hpending⟩
  · have hbound := (hholder.holds hec).bound
    have hwinds := (hholder.holds hec).winds
    unfold Client.Winds at hwinds
    simp only [Bound, hs] at hbound
    simp only [hs] at hwinds
    have hlanding : (x.client.transceiver.delivering n cb).landing
      .eUnbindQueue = .eUnbindQueue := by
      simp [landing, path, delivering, hbound.2]
    refine hholder.unbinding hstep hlanding rfl hbound.1 (fun m hm o ho ↦ ?_)
      fun m hm o ho ↦ by simp [hrest m hm] at ho
    rcases hwinds m hm with hnil | ⟨tag, -, hcancel⟩
    · simp [hnil] at ho
    · obtain rfl : o = .cancel tag := by simpa [hcancel] using ho
      simp [Operation.state]
  · refine holds_closing hstep ?_ rfl hunbound hpending
    rcases hs with rfl | rfl
    · exact Or.inl rfl
    · exact Or.inr rfl

/-- An event of the listener. -/
theorem Holder.event (hholder : x.Holder) (horderly : x.Orderly (.own a))
    (hevent : x.client.event a = some e) (hstep : x.client.transceiver.step e = some t')
    (hec' : t'.ec = .eNoError) :
    Holds ⟨⟨t', x.client.transceiver.firstAfter x.client.first e, x.client.answersAfter a⟩,
      x.broker, x.createdAfter a⟩ := by
  have hundisturbed := horderly.undisturbed a rfl
  cases hbegins : x.client.transceiver.begins e with
  | true =>
    rw [firstAfter_eq, hbegins]
    exact hholder.begun hbegins hstep
  | false =>
    rw [firstAfter_eq, hbegins]
    suffices hmoved : (x.moved a t').Holds from ⟨hmoved.winds, hmoved.bound⟩
    cases hmove : x.client.transceiver.move e with
    | none =>
      have hec := ec_still (still_of_no_move hstep hmove)
      exact (hholder.holds (hec.symm.trans hec')).still hstep hmove
    | some next =>
      obtain ⟨u, s⟩ := next
      obtain rfl := step_of_move hstep hmove
      obtain ⟨hec, hclean⟩ := (way_of_move (hundisturbed e hevent) hbegins hmove).clean
        (ec_of_goto hec')
      cases hclean with
      | stop hsetsUp =>
        refine hholder.stopping hec hsetsUp (horderly.stop ?_) hstep
        cases a with
        | execute n verdict => cases hevent
        | deliver n =>
          obtain ⟨cb, -, heq⟩ := Option.map_eq_some_iff.mp hevent
          cases heq
        | call e' =>
          cases e' <;> simp [Client.event] at hevent
          rfl
      | forward hn hforward => exact hholder.forward hec hforward hstep
      | backward hn hbackward => exact hholder.backward hec hn hevent hbackward hstep

/-! ### Runs -/

/-- The bindings of the listener are marked with its channels. -/
theorem marked_executed {n : ℕ} {verdict : Verdict} {operation : Operation} (hholder : x.Holder)
    (hnext : x.client.next n = some operation) {q : String} {r : String × String} {m : ℕ}
    (hbinding : (x.executed n verdict operation).broker.binding q r = some (some m)) :
    m < x.client.transceiver.channels.length := by
  change (x.brokerAfter (.execute n verdict)).binding q r = _ at hbinding
  rw [brokerAfter_execute hnext] at hbinding
  cases hc : operation.command verdict with
  | none => exact hholder.marked q r m (by simpa only [hc] using hbinding)
  | some c =>
    simp only [hc] at hbinding
    rcases Broker.binding_apply hbinding with hbefore | ⟨-, hmark, -⟩
    · exact hholder.marked q r m hbefore
    · obtain rfl := Option.some.inj hmark
      by_contra hge
      have hmem := hholder.sound.matched.next_mem hnext
      rw [pendingOn_of_length_le (Nat.not_lt.mp hge)] at hmem
      cases hmem

/-- The names that a broker gives are not empty. -/
theorem gives_of_admits (hadmits : x.client.admits x.broker a = true) :
    x.client.Gives (· ≠ "") a where
  checked := id
  declared n name flags ha _ hnext := by
    subst ha
    simp only [Client.admits, hnext, Option.any_some, Operation.admits] at hadmits
    unfold declaredName
    split
    · next hempty =>
      rw [hempty] at hadmits
      rintro rfl
      simp at hadmits
    · next hne => exact hne

/-- The step lemma. -/
theorem Holder.step (hholder : x.Holder) (horderly : x.Orderly h) (hstep : x.step h = some y) :
    y.Holder := by
  cases h with
  | foreign c =>
    obtain rfl := Option.some.inj hstep
    have hbinding (q : String) (r : String × String) (n : ℕ)
        (hafter : (x.broker.apply none c).binding q r = some (some n)) :
        x.broker.binding q r = some (some n) := binding_of_apply hafter fun hmark ↦ by cases hmark
    refine ⟨hholder.sound, hholder.listener, hholder.named,
      fun q r n hafter ↦ hholder.marked q r n (hbinding q r n hafter), fun hec ↦ ?_⟩
    have hholds := hholder.holds hec
    exact ⟨hholds.winds, hholds.bound.mono
      ⟨rfl, rfl, rfl, fun q r n _ hafter ↦ hbinding q r n hafter⟩ rfl fun _ _ _ _ hcb ↦ hcb⟩
  | own a =>
    obtain ⟨hadmits, client, hclient, rfl⟩ := step_own hstep
    have hundisturbed := horderly.undisturbed a rfl
    have hsound := hholder.sound.step hundisturbed hclient
    have hnamed := hholder.named.step hholder.sound hholder.listener hundisturbed
      (gives_of_admits hadmits) hclient
    rcases Client.step_cases hclient with
      ⟨n, verdict, operation, rfl, hnext, rfl⟩ | ⟨e, t', hevent, ht', rfl⟩
    · exact ⟨hsound, hholder.listener, hnamed,
        fun q r m hbinding ↦ marked_executed hholder hnext hbinding,
        fun hec ↦ hholder.execute horderly hec hnext⟩
    · refine ⟨hsound, (congrArg (·.2.2.2) (config_step ht')).trans hholder.listener, hnamed, ?_,
        fun hec ↦ ?_⟩
      · rw [brokerAfter_of_event hevent]
        exact fun q r n hbinding ↦ Nat.lt_of_lt_of_le (hholder.marked q r n hbinding)
          (length_step ht')
      · rw [brokerAfter_of_event hevent]
        exact hholder.event horderly hevent ht' hec

theorem Holder.of_reachedBy (hreachable : machine.ReachedBy Orderly x) : x.Holder := by
  refine hreachable.invariant ?_ fun x h y hholder horderly hstep ↦ hholder.step horderly hstep
  rintro ⟨_, broker, created⟩ ⟨exchange, queue, routeIn, rfl, hmarks, -⟩
  refine ⟨Client.sound_new _ _ _, rfl, Client.named_new _ _ _,
    fun q r n hbinding ↦ absurd hbinding (hmarks q r n), fun _ ↦ ?_⟩
  refine ⟨fun n _ o ho ↦ ?_, fun q r n _ ↦ hmarks q r n⟩
  simp [Client.new, Transceiver.new, pendingOn] at ho

/-- In every run of a listener whose steps are orderly, a run that has ended with `eNoError` has
left no binding on the broker. -/
theorem leavesNone_of_reachedBy (hreachable : machine.ReachedBy Orderly x) : x.LeavesNone := by
  intro hend hec
  have hbound := ((Holder.of_reachedBy hreachable).holds hec).bound
  simpa only [Bound, hend] using hbound

/-- A listener on the queue `orders`, which exists. -/
def sharing : World := ⟨Client.new "exchange" "orders" "orders", Broker.empty.declare "orders", []⟩

/-- The listener finds the queue and is about to be told that it is bound. -/
def bound : List Happening :=
  [.own (.call (.start (some 0))), .own (.call (.callback 0 .createChannelReady)),
    .own (.execute 0 (.accept "")), .own (.deliver 0), .own (.execute 0 (.accept "")),
    .own (.deliver 0), .own (.execute 0 (.accept ""))]

/-- It is stopped when it is ready. -/
def unbound : List Happening :=
  bound ++ [.own (.deliver 0), .own (.execute 0 (.accept "consumer")), .own (.deliver 0),
    .own (.call .stop), .own (.execute 0 (.accept "")), .own (.deliver 0),
    .own (.call (.callback 1 .unbindQueueReady)), .own (.execute 1 (.accept "")), .own (.deliver 1),
    .own (.execute 1 (.accept "")), .own (.deliver 1)]

/-- In the first run, what is not a `stop()` and not a verdict on a channel given up is orderly. -/
theorem orderly_own (hfirst : x.client.first = 0)
    (hstop : a = .call .stop → x.client.transceiver.state ≠ .eBindQueue)
    (hlate : ∀ n name, a = .execute n (.accept name) → x.client.transceiver.channel = some n) :
    x.Orderly (.own a) where
  undisturbed := fun _ _ _ _ n _ _ hn ↦ absurd hn (by omega)
  stop := fun heq hs ↦ absurd hs (hstop (Happening.own.inj heq))
  late := fun n name _ _ _ heq _ _ hchannel ↦ absurd (hlate n name (Happening.own.inj heq)) hchannel

/-- A binding made and undone. -/
theorem leavesNone_unbound :
    ∃ x y, machine.run sharing bound = some x ∧
      x.broker.binding "orders" ("exchange", "orders") = some (some 0) ∧
      machine.run sharing unbound = some y ∧ y.client.transceiver.state = .eEnd ∧
      y.client.transceiver.ec = .eNoError ∧ y.LeavesNone := by
  obtain ⟨x, y, hx, hbinding, hy, hend, hec⟩ : ∃ x y, machine.run sharing bound = some x ∧
      x.broker.binding "orders" ("exchange", "orders") = some (some 0) ∧
      machine.run sharing unbound = some y ∧ y.client.transceiver.state = .eEnd ∧
      y.client.transceiver.ec = .eNoError := ⟨_, _, rfl, by decide, rfl, rfl, rfl⟩
  refine ⟨x, y, hx, hbinding, hy, hend, hec, leavesNone_of_reachedBy
    ⟨sharing, unbound, ⟨_, _, _, rfl, fun _ _ _ h ↦ (by cases h), rfl⟩, hy, ?_⟩⟩
  have hcall {x : World} {e : Event} (hfirst : x.client.first = 0) (he : e ≠ .stop) :
      x.Orderly (.own (.call e)) :=
    orderly_own hfirst (fun heq ↦ absurd (Action.call.inj heq) he) fun _ _ heq ↦ by cases heq
  have hdeliver {x : World} {n : ℕ} (hfirst : x.client.first = 0) : x.Orderly (.own (.deliver n)) :=
    orderly_own hfirst (fun heq ↦ by cases heq) fun _ _ heq ↦ by cases heq
  have hexecute {x : World} {n : ℕ} {verdict : Verdict} (hfirst : x.client.first = 0)
      (hchannel : x.client.transceiver.channel = some n) : x.Orderly (.own (.execute n verdict)) :=
    orderly_own hfirst (fun heq ↦ by cases heq) fun m name heq ↦ (Action.execute.inj heq).1
      ▸ hchannel
  refine Machine.meets_cons (hcall rfl nofun) rfl (Machine.meets_cons (hcall rfl nofun) rfl ?_)
  refine Machine.meets_cons (hexecute rfl rfl) rfl (Machine.meets_cons (hdeliver rfl) rfl ?_)
  refine Machine.meets_cons (hexecute rfl rfl) rfl (Machine.meets_cons (hdeliver rfl) rfl ?_)
  refine Machine.meets_cons (hexecute rfl rfl) rfl (Machine.meets_cons (hdeliver rfl) rfl ?_)
  refine Machine.meets_cons (hexecute rfl rfl) rfl (Machine.meets_cons (hdeliver rfl) rfl ?_)
  refine Machine.meets_cons (orderly_own rfl (fun _ ↦ by decide) nofun) rfl ?_
  refine Machine.meets_cons (hexecute rfl rfl) rfl (Machine.meets_cons (hdeliver rfl) rfl ?_)
  refine Machine.meets_cons (hcall rfl nofun) rfl ?_
  refine Machine.meets_cons (hexecute rfl rfl) rfl (Machine.meets_cons (hdeliver rfl) rfl ?_)
  exact Machine.meets_cons (hexecute rfl rfl) rfl (Machine.meets_cons (hdeliver rfl) rfl trivial)

/-- A `stop()` that falls between the broker binding the queue and its answer arriving: the queue
existed, so it is not removed, and nothing unbinds it. -/
theorem not_leavesNone_overtaken :
    ∃ x, machine.run sharing (bound ++ [.own (.call .stop), .own (.deliver 0),
      .own (.execute 0 (.accept "")), .own (.deliver 0)]) = some x ∧ ¬ LeavesNone x := by
  obtain ⟨x, hrun, hend, hec, hfirst, hbinding⟩ : ∃ x,
      machine.run sharing (bound ++ [.own (.call .stop), .own (.deliver 0),
        .own (.execute 0 (.accept "")), .own (.deliver 0)]) = some x ∧
      x.client.transceiver.state = .eEnd ∧ x.client.transceiver.ec = .eNoError ∧
        x.client.first = 0 ∧
      x.broker.binding "orders" ("exchange", "orders") = some (some 0) :=
    ⟨_, rfl, rfl, rfl, rfl, by decide⟩
  exact ⟨x, hrun, fun h ↦ h hend hec _ _ 0 (Nat.le_of_eq hfirst) hbinding⟩

end World

end Transceiver

end AmqpAsio
