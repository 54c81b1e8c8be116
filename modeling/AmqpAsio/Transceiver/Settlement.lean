import AmqpAsio.Inevitable
import AmqpAsio.Transceiver.Diagram

/-!
# How soon a transceiver settles

`start()` and `stop()` return at once, and what they have begun goes on with the answers of the
broker. `ahead` counts the answers that may still have to come, and every answer that does come
makes it smaller: it takes the transceiver along an arrow of the diagram, issues the operation that
its channel was opened for, or is that of an operation abandoned before a `close`. So a transceiver
is ready or at its end after at most ten answers, and one that is being stopped is at its end after
at most four.
-/

set_option autoImplicit false
set_option relaxedAutoImplicit false

namespace AmqpAsio

namespace Transceiver

variable {t t' u : Transceiver} {c : Channel} {n : ℕ} {cb : Callback} {s : State} {e : Event}
  {listener : Bool}

/-! ### The answers of the broker -/

/-- AMQP-CPP calls only lambdas of the current channel, and a `cancel` is confirmed with the tag
that was cancelled. -/
def Faithful (t : Transceiver) (e : Event) : Prop := Prompt t e ∧ t.Confirms e

/-- AMQP-CPP answers something outstanding on the current channel: the channel is ready or has
failed, or an operation has its outcome. -/
inductive Answer (t : Transceiver) : Event → Prop
  | ready {n : ℕ} {c : Channel} (ready : ReadyHandler) (hn : t.channel = some n)
    (hc : t.currentChannel = some c) (h : c.onReady = some ready) :
    Answer t (.callback n ready.callback)
  | failed {n : ℕ} {c : Channel} (handler : ErrorHandler) (message : String)
    (hn : t.channel = some n) (hc : t.currentChannel = some c) (h : c.onError = some handler) :
    Answer t (.callback n (handler.callback message))
  | outcome {n : ℕ} {c : Channel} (operation : Operation) (cb : Callback) (hn : t.channel = some n)
    (hc : t.currentChannel = some c) (h : operation ∈ c.pending) (hanswers : operation.Answers cb) :
    Answer t (.callback n cb)

theorem Answer.faithful (h : t.Answer e) : Faithful t e := by
  have hprompt {n : ℕ} {cb : Callback} (hn : t.channel = some n) : Prompt t (.callback n cb) := by
    rintro k other h
    cases h
    exact hn
  cases h with
  | ready ready hn hc h =>
    refine ⟨hprompt hn, ?_⟩
    rintro k consumer c' h
    cases ready <;> cases h
  | failed handler message hn hc h =>
    refine ⟨hprompt hn, ?_⟩
    rintro k consumer c' h
    cases handler <;> cases h
  | @outcome n c operation cb hn hc h hanswers =>
    refine ⟨hprompt hn, ?_⟩
    rintro k consumer c' h' hc'
    cases h'
    obtain ⟨n', hn', hcn⟩ := exists_of_currentChannel hc
    obtain rfl : n = n' := Option.some.inj (hn.symm.trans hn')
    obtain rfl : c = c' := Option.some.inj (hcn.symm.trans hc')
    exact hanswers.2 consumer rfl ▸ h

/-- What an answer calls is registered on the current channel. -/
theorem Answer.registered (h : t.Answer e) :
    ∃ n c cb, e = .callback n cb ∧ t.channel = some n ∧ t.currentChannel = some c ∧
      c.registered cb = true := by
  cases h with
  | @ready n c ready hn hc h =>
    exact ⟨n, c, _, rfl, hn, hc, by simp [Channel.registered, h]⟩
  | @failed n c handler message hn hc h =>
    exact ⟨n, c, _, rfl, hn, hc, by simp [Channel.registered, h, reports_callback]⟩
  | @outcome n c operation cb hn hc h hanswers =>
    refine ⟨n, c, cb, rfl, hn, hc, ?_⟩
    have hany : c.pending.any (·.reports cb) = true := List.any_eq_true.mpr ⟨_, h, hanswers.1⟩
    simp [Channel.registered, hany]

/-- A transceiver at its end has no channel on which an answer could come. -/
theorem Answer.running (h : t.Answer e) (hwell : t.WellFormed) : t.state ≠ .eEnd := by
  intro hend
  obtain ⟨n, c, cb, -, hn, -, -⟩ := h.registered
  simp [(hwell.ended hend).channel] at hn

/-! ### A transceiver that can be answered -/

/-- A transceiver that has outstanding what its state says, the `cancel` of its own consumer
included. -/
structure Answerable (t : Transceiver) : Prop where
  attended : t.Attended
  tracked : t.Tracked
  poised : t.Poised

theorem Answerable.step (h : t.Answerable) (hfaithful : Faithful t e) (hstep : t.step e = some t') :
    t'.Answerable where
  attended := h.attended.step hfaithful.1 hstep
  tracked := tracked_step h.tracked h.attended.well hstep
  poised := poised_step h.poised h.attended.well h.tracked hfaithful.2 hstep

theorem answerable_of_reachedBy (h : machine.ReachedBy Faithful t) : t.Answerable := by
  refine h.invariant (I := Answerable) ?_ fun t e t' ht hfaithful hstep ↦ ht.step hfaithful hstep
  rintro t ⟨exchange, queue, routeIn, listener, rfl⟩
  exact ⟨attended_new exchange queue routeIn listener, fun hrunning ↦ absurd rfl hrunning,
    fun n c hn _ ↦ by cases hn⟩

/-- An answer calls a lambda that is registered. -/
theorem Answerable.exists_step (h : t.Answerable) (hanswer : t.Answer e) :
    ∃ t', t.step e = some t' ∧ t'.Answerable := by
  obtain ⟨n, c, cb, rfl, hn, hc, hregistered⟩ := hanswer.registered
  obtain ⟨n', hn', hcn⟩ := exists_of_currentChannel hc
  obtain rfl : n = n' := Option.some.inj (hn.symm.trans hn')
  have hstep : t.step (.callback n cb) = some (t.deliver n cb) := by
    simp [Transceiver.step, h.attended.crashed, hcn, hregistered]
  exact ⟨_, hstep, h.step hanswer.faithful hstep⟩

/-- While its consumer is being cancelled, a transceiver waits for just that. -/
theorem Answerable.owes_cancel (h : t.Answerable) (hstate : t.state = .eShutdown)
    (hc : t.currentChannel = some c) (houtstanding : Outstanding t.listener c t.state) :
    c.Owes [.cancel t.consumerTag] none := by
  obtain ⟨n, hn, hcn⟩ := exists_of_currentChannel hc
  have hpoise := h.poised n c hn hcn
  rw [hstate] at hpoise
  obtain ⟨first, hpending, hfirst⟩ := hpoise
  cases houtstanding with
  | opening ready hs _ => cases ready <;> cases hs.symm.trans hstate
  | nothing hs howes => simp [howes.pending] at hpending
  | closing abandoned handler hs hhandler hall howes => cases hs.symm.trans hstate
  | operation o hs hclose hcancel howes =>
    rw [howes.pending] at hpending
    obtain rfl : o = .cancel t.consumerTag := by
      have hlast := congrArg List.getLast? hpending
      simpa using hlast
    exact howes

/-- A transceiver that is neither ready nor at its end waits for an answer. -/
theorem Answerable.exists_answer (h : t.Answerable) (hready : t.state ≠ .eReady)
    (hrunning : t.state ≠ .eEnd) : ∃ e, t.Answer e := by
  obtain ⟨c, hc, houtstanding⟩ := h.attended.held hrunning
  obtain ⟨n, hn, -⟩ := exists_of_currentChannel hc
  have hoperation (operation : Operation) (hmem : operation ∈ c.pending) : ∃ e, t.Answer e := by
    refine ⟨_, .outcome operation (operation.error "") hn hc hmem ⟨reports_error operation "", ?_⟩⟩
    intro consumer hsuccess
    cases operation <;> cases hsuccess
  cases houtstanding with
  | opening ready hstate h => exact ⟨_, .ready ready hn hc h.onReady⟩
  | operation o hstate hclose hcancel h => exact hoperation o (by simp [h.pending])
  | closing abandoned handler hstate hhandler hall h =>
    exact hoperation .close (by simp [h.pending])
  | nothing hstate hnothing =>
    have hshutdown := (hstate.resolve_left hready).1
    have howes := h.owes_cancel hshutdown hc (.nothing hstate hnothing)
    exact hoperation (.cancel t.consumerTag) (by simp [howes.pending])

/-! ### The answers still to come -/

/-- The answers that may still have to come once a state has been entered. -/
def State.ahead : State → ℕ
  | .eCreateChannel => 10
  | .eCheckQueue => 9
  | .eRecreateChannel => 8
  | .eCreateExchange => 7
  | .eCreateQueue => 6
  | .eBindQueue => 5
  | .eCreateConsumer => 4
  | .eShutdown => 4
  | .eUnbindQueue => 3
  | .eRemoveQueue => 3
  | .eCloseChannel => 1
  | .eReady => 0
  | .eEnd => 0

/-- The number of operations outstanding on the current channel. -/
def owed (t : Transceiver) : ℕ := (t.currentChannel.map (·.pending.length)).getD 0

/-- The answers that may still have to come. A channel opened for one operation has been answered
once when the operation is outstanding, and an operation abandoned before a `close` is answered. -/
def ahead (t : Transceiver) : ℕ :=
  match t.state with
  | .eUnbindQueue | .eRemoveQueue => 3 - t.owed
  | .eCloseChannel => t.owed
  | s => s.ahead

theorem owed_eq (hc : t.currentChannel = some c) : t.owed = c.pending.length := by
  simp [owed, hc]

theorem ahead_landing_le (u : Transceiver) (s : State) : (u.landing s).ahead ≤ s.ahead := by
  cases s <;> simp only [landing, path] <;> (repeat' split) <;> decide

/-- Where nothing was outstanding, a call of `StateMachine()` leaves no more to come than its state
says. -/
theorem ahead_goto_le (hc : u.currentChannel = some c) (h : c.Owes [] none) (s : State) :
    (u.goto s).ahead ≤ s.ahead := by
  refine le_trans ?_ (ahead_landing_le u s)
  have hstate : ((u.passingError s).passing (u.path s)).state = u.landing s := by
    simp [passing, getLast?_path]
  have hkeeps : ((u.passingError s).passing (u.path s)).currentChannel = some c := by
    rw [← hc]
    unfold passingError
    split <;> exact currentChannel_of_eq rfl rfl
  rw [ahead, state_goto]
  cases hlanding : u.landing s <;> simp only [State.ahead, le_refl]
  case eUnbindQueue | eRemoveQueue => omega
  case eCloseChannel =>
    obtain ⟨c', hc', howes⟩ := owes_issue hkeeps h .close
    have hcloses : (u.goto s).currentChannel = some c' := by
      rw [goto_eq, arrive, hstate, hlanding]
      exact hc'
    rw [owed_eq hcloses, howes.pending]
    decide

/-- At least so many answers are still to come in a state. -/
def State.least : State → ℕ
  | .eUnbindQueue | .eRemoveQueue => 2
  | s => s.ahead

theorem Outstanding.least_le (h : Outstanding listener c t.state) (hc : t.currentChannel = some c) :
    t.state.least ≤ t.ahead := by
  have hlength : t.owed = c.pending.length := owed_eq hc
  cases hs : t.state <;> simp only [ahead, hs, State.least, State.ahead, le_refl, hlength]
  case eUnbindQueue | eRemoveQueue =>
    cases h with
    | opening ready hstate h => simp [h.pending]
    | operation o hstate hclose hcancel h => simp [h.pending]
    | nothing hstate h => simp [hs] at hstate
    | closing abandoned handler hstate hhandler hall h => cases hs.symm.trans hstate
  case eCloseChannel =>
    cases h with
    | opening ready hstate h => cases ready <;> cases hs.symm.trans hstate
    | operation o hstate hclose hcancel h => exact absurd hs hclose
    | nothing hstate h => simp [hs] at hstate
    | closing abandoned handler hstate hhandler hall h => simp [h.pending]

/-- There are never more answers to come than after a `start()`, and in the teardown never more than
after a `stop()`. -/
theorem Outstanding.ahead_le (h : Outstanding listener c t.state) (hc : t.currentChannel = some c) :
    t.ahead ≤ if t.state.beforeShutdown then 10 else 4 := by
  have hlength : t.owed = c.pending.length := owed_eq hc
  cases hs : t.state <;> simp only [ahead, hs, State.ahead, State.beforeShutdown, hlength,
    ↓reduceIte, Bool.false_eq_true] <;> try omega
  cases h with
  | opening ready hstate h => simp [h.pending]
  | operation o hstate hclose hcancel h => exact absurd hs hclose
  | nothing hstate h => simp [h.pending]
  | closing abandoned handler hstate hhandler hall h =>
    rw [h.pending, List.length_append]
    cases abandoned <;> simp

/-! ### An answer makes it fewer -/

/-- An answer that takes the transceiver somewhere takes it along an arrow of the diagram. -/
theorem Answerable.exists_arrow (h : t.Answerable) (hanswer : t.Answer e)
    (hstep : t.step e = some t') (hmove : t.move e = some (u, s)) :
    ∃ a ∈ arrows, (a.label = .success ∨ a.label = .fail) ∧ a.source = t.state ∧ a.target = s := by
  obtain ⟨n, c, cb, rfl, -⟩ := hanswer.registered
  have hplain : Plain t (.callback n cb) := ⟨hanswer.faithful.1, by simp⟩
  obtain ⟨l, hl, htarget⟩ := h.attended.target_of_move hplain hstep hmove
  have hanswered : l = .success ∨ l = .fail := by
    cases cb <;> simp only [Event.label, Callback.label, Option.some.injEq, reduceCtorEq] at hl <;>
      simp [← hl]
  obtain ⟨a, ha, htarget⟩ := Option.map_eq_some_iff.mp htarget
  have hleaves := List.find?_some ha
  simp only [Arrow.leaves, Bool.and_eq_true, decide_eq_true_eq] at hleaves
  exact ⟨a, List.mem_of_find?_eq_some ha, hleaves.1.2 ▸ hanswered, hleaves.1.1, htarget⟩

/-- An answer that takes the transceiver somewhere. -/
theorem Answerable.ahead_move (h : t.Answerable) (hready : t.state ≠ .eReady)
    (hrunning : t.state ≠ .eEnd) (hanswer : t.Answer (.callback n cb))
    (hstep : t.step (.callback n cb) = some t') (hmove : t.move (.callback n cb) = some (u, s)) :
    (u.goto s).ahead < t.ahead := by
  have hall : ∀ a ∈ arrows, a.label = .success ∨ a.label = .fail → a.source ≠ .eReady →
      a.target.ahead < a.source.least := by decide
  obtain ⟨c, hc, houtstanding⟩ := h.attended.held hrunning
  have hleast := houtstanding.least_le hc
  obtain ⟨a, ha, hlabel, hsource, rfl⟩ := h.exists_arrow hanswer hstep hmove
  have hless := hall a ha hlabel (hsource.symm ▸ hready)
  rw [hsource] at hless
  obtain ⟨n', c', cb', hsame, hn, hc', hregistered⟩ := hanswer.registered
  cases hsame
  obtain rfl : c = c' := Option.some.inj (hc.symm.trans hc')
  rcases houtstanding.reaction hc hn hregistered hmove with hend | ⟨c', hc', howes⟩
  · have hzero : (u.goto a.target).ahead = 0 := by
      rw [hend, ahead, state_goto]
      rfl
    omega
  · have hgoto := ahead_goto_le hc' howes a.target
    omega

/-- The lambda for the failure of the channel is not turned away. -/
theorem Outstanding.reaction_failed {handler : ErrorHandler} (h : Outstanding listener c t.state)
    (hhandler : c.onError = some handler) (message : String) :
    t.reaction (handler.callback message) ≠ none := by
  rcases h.state_of_onError hhandler with hstate | ⟨rfl, -⟩
  · cases handler <;> simp only [ErrorHandler.state, Option.some.injEq, reduceCtorEq] at hstate <;>
      simp [ErrorHandler.callback, Transceiver.reaction, ← hstate]
  · simp [ErrorHandler.callback, Transceiver.reaction]

/-- The lambda for the outcome of the operation of the state is not turned away. -/
theorem Answerable.reaction_outcome {operation : Operation} (h : t.Answerable)
    (hc : t.currentChannel = some c) (houtstanding : Outstanding t.listener c t.state)
    (hmem : operation ∈ c.pending) (hstate : operation.state = t.state)
    (hanswers : operation.Answers cb) : t.reaction cb ≠ none := by
  by_cases hshutdown : t.state = .eShutdown
  · have howes := h.owes_cancel hshutdown hc houtstanding
    obtain rfl : operation = .cancel t.consumerTag := by simpa [howes.pending] using hmem
    obtain ⟨hreports, hown⟩ := hanswers
    cases cb <;> simp only [Operation.reports, Bool.false_eq_true] at hreports
    case shutdownSuccess consumer =>
      have htag : t.consumerTag = consumer := by simpa using hown consumer rfl
      simp [reaction, htag]
    case shutdownError message => simp [reaction]
  · rw [← hstate] at hshutdown
    have hends := (operation.ends_or_setsUp hshutdown).imp id fun hsetsUp ↦
      And.intro hsetsUp hstate.symm
    exact reaction_ne_none_of_reports hanswers.1 hends

/-- An answer that takes the transceiver nowhere lets it issue the operation that its channel was
opened for, or is that of an operation abandoned before a `close`. -/
theorem Answerable.ahead_still (h : t.Answerable) (hrunning : t.state ≠ .eEnd)
    (hanswer : t.Answer e) (hstep : t.step e = some t') (hmove : t.move e = none) :
    t'.ahead < t.ahead := by
  obtain ⟨c, hc, houtstanding⟩ := h.attended.held hrunning
  have hstate : t'.state = t.state := (step_of_no_move hstep hmove).state
  have hstill := still_of_no_move hstep hmove
  cases hanswer with
  | @failed n c' handler message hn hc' hhandler =>
    obtain rfl : c = c' := Option.some.inj (hc.symm.trans hc')
    exact absurd (reaction_delivering_eq_none.mp hmove)
      (houtstanding.reaction_failed hhandler message)
  | @ready n c' ready hn hc' honReady =>
    obtain rfl : c = c' := Option.some.inj (hc.symm.trans hc')
    obtain ⟨hs, hopening⟩ := houtstanding.opening_of_onReady honReady
    have hreaction := reaction_delivering_eq_none.mp hmove
    have hissues : (t.delivering n ready.callback).Issues ready.callback := by
      cases ready with
      | createChannel | recreateChannel =>
        simp [ReadyHandler.callback, reaction, hs, ReadyHandler.state] at hreaction
      | unbindQueue => exact Or.inl ⟨rfl, hs⟩
      | removeQueue => exact Or.inr ⟨rfl, hs⟩
    have hempty : Channel.Owes { c.deliver ready.callback with onError := none } [] none :=
      ⟨by simp [Channel.deliver, honReady], rfl, by simp [Channel.deliver, hopening.pending]⟩
    cases hstill with
    | idle hcallback => exact absurd rfl (hcallback n _)
    | callback _ _ _ haside =>
      cases haside with
      | idle hother => exact absurd hissues hother
      | message _ _ _ hother => exact absurd hissues hother
      | bounce _ _ _ hother => exact absurd hissues hother
      | issue operation _ hrequest =>
        have hset := currentChannel_setOnError (currentChannel_delivering hc hn ready.callback) none
        obtain ⟨c', hc', howes⟩ := owes_issue hset hempty operation
        rw [ahead, ahead, hstate, owed_eq hc, owed_eq hc', hopening.pending, howes.pending]
        rcases hissues.state with hs | hs <;> rw [show t.state = _ from hs] <;> simp
  | @outcome n c' operation cb hn hc' hmem hanswers =>
    obtain rfl : c = c' := Option.some.inj (hc.symm.trans hc')
    have hreaction := reaction_delivering_eq_none.mp hmove
    rcases houtstanding.state_of_mem hmem with hs | ⟨hclose, hsetsUp⟩
    · exact absurd hreaction (h.reaction_outcome hc houtstanding hmem hs hanswers)
    · have hdelivered : t'.currentChannel = some (c.deliver cb) := by
        cases hstill with
        | idle hcallback => exact absurd rfl (hcallback n _)
        | callback _ _ _ haside =>
          have hsame := currentChannel_delivering hc hn cb
          cases haside with
          | idle => exact hsame
          | message => exact hsame
          | bounce => exact hsame
          | issue _ hissues =>
            rcases hissues.state with hs | hs <;> cases hclose.symm.trans hs
      have hfewer : (c.pending.eraseP (·.reports cb)).length = c.pending.length - 1 :=
        List.length_eraseP_of_mem hmem hanswers.1
      have hsome : 0 < c.pending.length := List.length_pos_of_mem hmem
      rw [ahead, ahead, hstate, hclose, owed_eq hc, owed_eq hdelivered]
      simp only [Channel.deliver, hfewer]
      omega

/-- An answer can come, and leaves fewer to come. -/
theorem Answerable.ahead_lt (h : t.Answerable) (hready : t.state ≠ .eReady)
    (hrunning : t.state ≠ .eEnd) (hanswer : t.Answer e) :
    ∃ t', machine.step t e = some t' ∧ t'.ahead < t.ahead ∧ t'.Answerable := by
  obtain ⟨t', hstep, hanswerable⟩ := h.exists_step hanswer
  refine ⟨t', hstep, ?_, hanswerable⟩
  cases hmove : t.move e with
  | none => exact h.ahead_still hrunning hanswer hstep hmove
  | some next =>
    obtain ⟨u, s⟩ := next
    obtain ⟨n, c, cb, rfl, -⟩ := hanswer.registered
    rw [step_of_move hstep hmove]
    exact h.ahead_move hready hrunning hanswer hstep hmove

/-! ### How many answers it takes -/

theorem Answerable.ahead_le (h : t.Answerable) :
    t.ahead ≤ if t.state.beforeShutdown then 10 else 4 := by
  by_cases hrunning : t.state = .eEnd
  · simp [ahead, hrunning, State.ahead]
  · obtain ⟨c, hc, houtstanding⟩ := h.attended.held hrunning
    exact houtstanding.ahead_le hc

/-- Whichever answers come, a transceiver is ready or at its end after at most ten of them. -/
theorem settles_of_reachedBy (h : machine.ReachedBy Faithful t) :
    machine.Within Answer (fun t ↦ t.state = .eReady ∨ t.state = .eEnd) 10 t := by
  have hanswerable := answerable_of_reachedBy h
  have hahead : t.ahead ≤ 10 := by
    have hle := hanswerable.ahead_le
    split at hle <;> omega
  refine Machine.within_of_measure (I := Answerable) ahead ?_ ?_ hanswerable hahead
  · intro t ht hunsettled
    rw [not_or] at hunsettled
    exact ht.exists_answer hunsettled.1 hunsettled.2
  · intro t e ht hunsettled hanswer
    rw [not_or] at hunsettled
    exact ht.ahead_lt hunsettled.1 hunsettled.2 hanswer

/-- Everything but the confirmation of a `cancel` is faithful if it is prompt. -/
theorem faithful_of_prompt (h : Prompt t e)
    (he : ∀ n consumer, e ≠ .callback n (.shutdownSuccess consumer)) : Faithful t e :=
  ⟨h, fun n consumer _ hcallback ↦ absurd hcallback (he n consumer)⟩

/-- A listener that declares its exchange is ready or at its end after at most ten answers. -/
theorem settles_cancelled :
    ∃ t, machine.run (new "exchange" "queue" "route" true) (cancelled.take 3) = some t ∧
      t.state = .eCreateExchange ∧
      machine.Within Answer (fun t ↦ t.state = .eReady ∨ t.state = .eEnd) 10 t := by
  refine ⟨_, rfl, rfl, settles_of_reachedBy ⟨new "exchange" "queue" "route" true,
    cancelled.take 3, ⟨_, _, _, _, rfl⟩, rfl, ?_⟩⟩
  refine Machine.meets_cons (faithful_of_prompt (by decide) (by simp)) rfl ?_
  refine Machine.meets_cons (faithful_of_prompt (by decide) (by simp)) rfl ?_
  exact Machine.meets_cons (faithful_of_prompt (by decide) (by simp)) rfl trivial

/-- Once the teardown has begun, a step goes on with it, unless it is a `start()` at the end. -/
theorem beforeShutdown_step (hrunning : t.state ≠ .eEnd) (hdown : t.state.beforeShutdown = false)
    (hstep : t.step e = some t') : t'.state.beforeShutdown = false := by
  cases hmove : t.move e with
  | none => rw [(step_of_no_move hstep hmove).state, hdown]
  | some next =>
    obtain ⟨u, s⟩ := next
    rw [step_of_move hstep hmove, state_goto]
    have hs := beforeShutdown_of_move hdown hrunning hmove
    exact beforeShutdown_of_mem_path hs (u.landing_mem_path s)

/-- A transceiver that is not replacing its channel tears down when it is stopped. -/
theorem beforeShutdown_stop (hrecreate : t.state ≠ .eRecreateChannel) :
    t.stop.state.beforeShutdown = false := by
  unfold stop
  split
  · next hend => rw [hend]; rfl
  · split
    · next hbefore =>
      rw [state_goto]
      exact beforeShutdown_of_mem_path (beforeShutdown_stopTransit hbefore hrecreate)
        (t.landing_mem_path _)
    · next hdown => simpa using hdown

/-- Whichever answers come after a `stop()`, a transceiver is at its end after at most four of them,
unless it was stopped while its channel was replaced. -/
theorem ends_of_reachedBy (h : machine.ReachedBy Faithful t)
    (hrecreate : t.state ≠ .eRecreateChannel) :
    machine.Within Answer (fun t ↦ t.state = .eEnd) 4 t.stop := by
  have hanswerable := answerable_of_reachedBy h
  have hstep : t.step .stop = some t.stop := by simp [step, hanswerable.attended.crashed]
  have hstopped : t.stop.Answerable := by
    refine hanswerable.step ⟨?_, ?_⟩ hstep
    · intro n cb hcallback
      cases hcallback
    · intro n consumer c hcallback
      cases hcallback
  have hahead : t.stop.ahead ≤ 4 := by
    simpa [beforeShutdown_stop hrecreate] using hstopped.ahead_le
  have hnotReady {t : Transceiver} (hdown : t.state.beforeShutdown = false) :
      t.state ≠ .eReady := by
    intro hready
    simp [hready, State.beforeShutdown] at hdown
  refine Machine.within_of_measure (I := fun t ↦ t.Answerable ∧ t.state.beforeShutdown = false)
    ahead ?_ ?_ ⟨hstopped, beforeShutdown_stop hrecreate⟩ hahead
  · rintro t ⟨ht, hdown⟩ hrunning
    exact ht.exists_answer (hnotReady hdown) hrunning
  · rintro t e ⟨ht, hdown⟩ hrunning hanswer
    obtain ⟨t', ht', hless, hkeeps⟩ := ht.ahead_lt (hnotReady hdown) hrunning hanswer
    exact ⟨t', ht', hless, hkeeps, beforeShutdown_step hrunning hdown ht'⟩

/-- The listener, ready and then stopped, is at its end after at most four. -/
theorem ends_cancelled :
    ∃ t, machine.run (new "exchange" "queue" "route" true) (cancelled.take 6) = some t ∧
      t.state = .eReady ∧ machine.Within Answer (fun t ↦ t.state = .eEnd) 4 t.stop := by
  refine ⟨_, rfl, rfl, ends_of_reachedBy ⟨new "exchange" "queue" "route" true,
    cancelled.take 6, ⟨_, _, _, _, rfl⟩, rfl, ?_⟩ (by decide)⟩
  refine Machine.meets_cons (faithful_of_prompt (by decide) (by simp)) rfl ?_
  refine Machine.meets_cons (faithful_of_prompt (by decide) (by simp)) rfl ?_
  refine Machine.meets_cons (faithful_of_prompt (by decide) (by simp)) rfl ?_
  refine Machine.meets_cons (faithful_of_prompt (by decide) (by simp)) rfl ?_
  refine Machine.meets_cons (faithful_of_prompt (by decide) (by simp)) rfl ?_
  exact Machine.meets_cons (faithful_of_prompt (by decide) (by simp)) rfl trivial

/-! ### The answers until the end -/

/-- An answer at `eReady` begins the teardown. -/
theorem Answerable.down_of_ready (h : t.Answerable) (hready : t.state = .eReady)
    (hanswer : t.Answer e) (hstep : t.step e = some t') : t'.state.beforeShutdown = false := by
  have hall : ∀ a ∈ arrows, a.label = .success ∨ a.label = .fail → a.source = .eReady →
      a.target.beforeShutdown = false := by decide
  cases hmove : t.move e with
  | none =>
    have hless := h.ahead_still (hanswer.running h.attended.well) hanswer hstep hmove
    have hzero : t.ahead = 0 := by
      rw [ahead, hready]
      rfl
    omega
  | some next =>
    obtain ⟨u, s⟩ := next
    obtain ⟨a, ha, hlabel, hsource, rfl⟩ := h.exists_arrow hanswer hstep hmove
    rw [step_of_move hstep hmove, state_goto]
    exact beforeShutdown_of_mem_path (hall a ha hlabel (hsource.trans hready))
      (u.landing_mem_path a.target)

/-- The answers that may come until the end: those still to come, and before the teardown those of a
teardown after a failure. -/
def left (t : Transceiver) : ℕ := if t.state.beforeShutdown then t.ahead + 5 else t.ahead

theorem Answerable.left_le (h : t.Answerable) :
    t.left ≤ if t.state.beforeShutdown then 15 else 4 := by
  have hahead := h.ahead_le
  unfold left
  cases hdown : t.state.beforeShutdown with
  | false => simpa [hdown] using hahead
  | true => simpa [hdown] using hahead

/-- Whichever answer comes, also at `eReady`, it leaves fewer until the end. -/
theorem Answerable.left_lt (h : t.Answerable) (hanswer : t.Answer e) (hstep : t.step e = some t') :
    t'.left < t.left := by
  have hrunning := hanswer.running h.attended.well
  by_cases hready : t.state = .eReady
  · have hdown := h.down_of_ready hready hanswer hstep
    have hleft := (h.step hanswer.faithful hstep).left_le
    rw [if_neg (by simp [hdown])] at hleft
    have hbefore : t.left = t.ahead + 5 := by simp [left, hready, State.beforeShutdown]
    omega
  · obtain ⟨next, hnext, hless, -⟩ := h.ahead_lt hready hrunning hanswer
    obtain rfl : next = t' := Option.some.inj (hnext.symm.trans hstep)
    cases hdown : t.state.beforeShutdown with
    | false =>
      have hdown' := beforeShutdown_step hrunning hdown hstep
      simpa [left, hdown, hdown'] using hless
    | true =>
      simp only [left, hdown, ↓reduceIte]
      split <;> omega

/-- The transceiver is ready, in its teardown, or at its end. -/
def SetUp (t : Transceiver) : Prop := t.state = .eReady ∨ t.state.beforeShutdown = false

/-- No answer sets a transceiver up again. -/
theorem Answerable.setUp_step (h : t.Answerable) (hsetUp : t.SetUp) (hanswer : t.Answer e)
    (hstep : t.step e = some t') : t'.SetUp := by
  rcases hsetUp with hready | hdown
  · exact Or.inr (h.down_of_ready hready hanswer hstep)
  · exact Or.inr (beforeShutdown_step (hanswer.running h.attended.well) hdown hstep)

/-! ### The run -/

/-- The transceiver is in the given run, and until its end on the given connection. -/
structure InRun (run : ℕ) (connection : Option ConnectionId) (t : Transceiver) : Prop where
  runs : t.runs = run
  connection : t.state ≠ .eEnd → t.connection = connection

/-- An answer begins no run. -/
theorem InRun.step {run : ℕ} {connection : Option ConnectionId} (h : t.InRun run connection)
    (hwell : t.WellFormed) (hanswer : t.Answer e) (hstep : t.step e = some t') :
    t'.InRun run connection := by
  obtain ⟨n, c, cb, rfl, -⟩ := hanswer.registered
  have hconnection := h.connection (hanswer.running hwell)
  cases hmove : t.move (.callback n cb) with
  | none =>
    have hstays := step_of_no_move hstep hmove
    refine ⟨hstays.runs.trans h.runs, fun _ ↦ Eq.trans ?_ hconnection⟩
    cases still_of_no_move hstep hmove with
    | idle => rfl
    | callback _ _ _ haside => cases haside <;> rfl
  | some next =>
    obtain ⟨u, s⟩ := next
    have hprepared : Prepared (t.delivering n cb) u := reaction_prepared hmove
    rw [step_of_move hstep hmove]
    constructor
    · rw [runs_goto]
      exact hprepared.runs.trans h.runs
    · intro hrunning
      rw [connection_goto (by simpa using hrunning)]
      exact hprepared.connection.trans hconnection

/-- An answer leaves the transceiver in its run. -/
theorem Answerable.runs_step (h : t.Answerable) (hanswer : t.Answer e)
    (hstep : t.step e = some t') : t'.runs = t.runs :=
  (InRun.step ⟨rfl, fun _ ↦ rfl⟩ h.attended.well hanswer hstep).runs

/-- A `start()` at the end begins a run. -/
theorem inRun_start (hend : t.state = .eEnd) (connection : ConnectionId) :
    (t.start (some connection)).InRun (t.runs + 1) (some connection) ∧
      (t.start (some connection)).state ≠ .eEnd := by
  rw [start, if_pos hend]
  refine ⟨⟨?_, fun hrunning ↦ ?_⟩, ?_⟩
  · rw [runs_goto]
  · rw [connection_goto (by simpa using hrunning)]
  · rw [state_goto]
    simp [landing, path]

/-- A `drop()` ends the run, if it has not ended before. -/
theorem state_drop (t : Transceiver) : t.drop.state = .eEnd ∧ t.drop.runs = t.runs := by
  unfold drop
  split
  · next hend => exact ⟨hend, rfl⟩
  · constructor
    · rw [state_goto]
      rfl
    · rw [runs_goto]
      rfl

end Transceiver

end AmqpAsio
