import Mathlib.Data.List.TakeWhile
import AmqpAsio.Transceiver.Requests

/-!
# What a failed set-up leaves on the broker

A listener whose queue was missing declares one of its own. When a later step of the set-up fails it
should remove that queue again. It does when the binding fails; when the consumer is refused it goes
to `eUnbindQueue`, which leads past the removal, and the queue stays.

An `Account` follows a transceiver through its present run together with what has become of its
queue.
-/

set_option autoImplicit false
set_option relaxedAutoImplicit false

namespace AmqpAsio

namespace Transceiver

/-- What has been observed before `m_onExit` is invoked. -/
def beforeExit (log : List Observation) : List Observation :=
  log.takeWhile fun o ↦ !(o matches .exit _ _)

/-- A transceiver, the number of the first channel of its present run, the length of the log when
the run began, and what has happened in it: the name under which the broker has confirmed the
`declareQueue` of the run, and whether a later step of the set-up has failed, the run has been
dropped, and a channel opened for the clean-up has failed. -/
structure Account where
  transceiver : Transceiver
  first : ℕ
  mark : ℕ
  created : Option String
  failed : Bool
  dropped : Bool
  refused : Bool

namespace Account

variable (x : Account)

/-- The callback of an event on a channel of the present run. -/
def report : Event → Option Callback
  | .callback n cb => if x.first ≤ n then some cb else none
  | _ => none

/-- A step of the set-up that comes after the declaration of the queue fails. -/
def fails (e : Event) : Bool :=
  x.created.isSome &&
    match x.report e with
    | some (.bindQueueError _) | some (.createConsumerError _) => true
    | _ => false

/-- A channel opened for the clean-up fails. -/
def refuses (e : Event) : Bool :=
  match x.report e with
  | some (.unbindQueueChannelError _) | some (.removeQueueChannelError _) => true
  | _ => false

/-- The account once an event has happened. -/
def after (e : Event) (t' : Transceiver) : Account :=
  if x.transceiver.begins e then
    { transceiver := t'
      first := x.transceiver.channels.length
      mark := x.transceiver.log.length
      created := none
      failed := false
      dropped := false
      refused := false }
  else
    { transceiver := t'
      first := x.first
      mark := x.mark
      created :=
        match x.report e with
        | some (.createQueueSuccess name) => some name
        | _ => x.created
      failed := x.failed || x.fails e
      dropped := x.dropped || decide (e = .drop ∧ x.transceiver.state ≠ .eEnd)
      refused := x.refused || x.refuses e }

/-- One event. -/
def step (e : Event) : Option Account := (x.transceiver.step e).map (x.after e)

/-- The runs of a listener from its construction on. -/
def machine : Machine Account Event where
  init x := ∃ exchange queue routeIn,
    x = ⟨new exchange queue routeIn true, 0, 0, none, false, false, false⟩
  step := step

@[simp] theorem machine_step (x : Account) (e : Event) : machine.step x e = x.step e := rfl

/-- The removal of a queue has been issued in the present run, and before its exit. -/
def Removed (name : String) : Prop :=
  ∃ n, .issued n (.removeQueue name) ∈ beforeExit (x.transceiver.log.drop x.mark)

/-- A run that is over and whose set-up failed after the broker had confirmed its queue, and that
was not dropped, has asked for the removal of the queue, or has been refused a channel for the
clean-up. -/
def CleansUp : Prop :=
  x.transceiver.state = .eEnd → ∀ name, x.created = some name → x.failed = true →
    x.dropped = false → x.Removed name ∨ x.refused = true

/-- No lambda of an earlier run acts on the present one, and the consumer is not refused once the
broker has confirmed the queue of the run. -/
def Clean (e : Event) : Prop :=
  Undisturbed x.first x.transceiver e ∧
    ∀ message, x.report e = some (.createConsumerError message) → x.created = none

/-! ### Deafness to the failure of a sender's channel -/

end Account

/-- No channel has the lambda that a sender installs once it is ready. -/
def Deaf (t : Transceiver) : Prop := ∀ c ∈ t.channels, c.onError ≠ some .ready

section Deaf

variable {t t' u : Transceiver}

theorem Deaf.onChannel (h : Deaf t) {f : Channel → Channel}
    (hf : ∀ c, c.onError ≠ some .ready → (f c).onError ≠ some .ready) : Deaf (t.onChannel f) := by
  intro c hc
  obtain ⟨n, hn⟩ := List.mem_iff_getElem?.mp hc
  obtain ⟨old, hold, rfl⟩ := getElem?_onChannel hn
  have hdeaf := h old (List.mem_of_getElem? hold)
  split
  · exact hf old hdeaf
  · exact hdeaf

theorem Deaf.newChannel (h : Deaf t) (ready : ReadyHandler) {error : ErrorHandler}
    (herror : error ≠ .ready) : Deaf (t.newChannel ready error) := by
  intro c hc
  rcases List.mem_append.mp hc with hc | hc
  · exact h c hc
  · obtain rfl := List.mem_singleton.mp hc
    simpa using herror

theorem Deaf.of_eq (h : Deaf t) (hchannels : u.channels = t.channels) : Deaf u :=
  fun c hc ↦ h c (hchannels ▸ hc)

theorem Deaf.issue (h : Deaf t) (operation : Operation) : Deaf (t.issue operation) := by
  unfold Transceiver.issue
  refine Deaf.of_eq ?_ (channels_observe _ _)
  exact h.onChannel fun _ hc ↦ hc

theorem Deaf.setOnError (h : Deaf t) : Deaf (t.setOnError none) :=
  h.onChannel fun _ _ ↦ by simp

theorem Deaf.arrive (h : Deaf t) (hlistener : t.listener = true) : Deaf t.arrive := by
  have hreopen (ready : ReadyHandler) {error : ErrorHandler} (herror : error ≠ .ready) :
      Deaf (t.closeOld.newChannel ready error) :=
    Deaf.newChannel ((h.onChannel (f := id) fun _ hc ↦ hc).of_eq rfl) ready herror
  cases hs : t.state <;> simp only [Transceiver.arrive, hs]
  case eCreateChannel => exact h.newChannel _ (by decide)
  case eRecreateChannel | eUnbindQueue | eRemoveQueue => exact hreopen _ (by decide)
  case eReady => simpa [atReady, hlistener] using h
  case eEnd => exact h.of_eq rfl
  all_goals exact h.issue _

theorem Deaf.delivering (h : Deaf t) (n : ℕ) (cb : Callback) : Deaf (t.delivering n cb) := by
  intro c hc
  obtain ⟨m, hm⟩ := List.mem_iff_getElem?.mp hc
  obtain ⟨old, hold, rfl⟩ := getElem?_delivering hm
  have hdeaf := h old (List.mem_of_getElem? hold)
  split <;> exact hdeaf

/-- A listener never installs the lambda of a sender. -/
theorem Deaf.step {e : Event} (h : Deaf t) (hlistener : t.listener = true)
    (hstep : t.step e = some t') : Deaf t' := by
  cases hmove : t.move e with
  | some next =>
    obtain ⟨u, s⟩ := next
    rw [step_of_move hstep hmove, goto_eq]
    refine Deaf.arrive (Deaf.of_eq ?_ (u.channels_passing s)) ?_
    · cases e with
      | install | send => cases hmove
      | callback n cb =>
        rcases channels_reaction hmove with hchannels | hchannels
        · exact (h.delivering n cb).of_eq hchannels
        · exact (h.delivering n cb).setOnError.of_eq hchannels
      | _ =>
        simp only [move, Option.ite_none_right_eq_some, Option.ite_none_left_eq_some] at hmove
        obtain ⟨rfl, -⟩ := Prod.mk.inj (Option.some.inj hmove.2)
        exact h.of_eq rfl
    · simpa [passing] using (listener_move hmove).trans hlistener
  | none =>
    cases still_of_no_move hstep hmove with
    | idle => exact h
    | install => exact h.of_eq rfl
    | publish =>
      exact (h.onChannel (f := fun c ↦ { c with publishing := true }) fun _ hc ↦ hc).of_eq rfl
    | callback n cb hreaction haside =>
      have hdelivered := h.delivering n cb
      cases haside with
      | issue operation => exact hdelivered.setOnError.issue operation
      | _ => exact hdelivered.of_eq rfl

/-- The failure of a sender's channel is not reported to it. -/
theorem Deaf.not_readyError (h : Deaf t) (n : ℕ) (message : String) :
    t.step (.callback n (.readyError message)) ≠ some t' := by
  intro hstep
  obtain ⟨⟨c, hc, hregistered⟩, -⟩ := step_callback hstep
  have hdeaf := h c (List.mem_of_getElem? hc)
  unfold Channel.registered at hregistered
  simp only [Bool.or_eq_true, Bool.or_false] at hregistered
  rcases hregistered with (hready | herror) | hpending
  · obtain ⟨ready, -, hready⟩ := (Option.any_eq_true _ _).mp hready
    cases ready <;> simp [ReadyHandler.callback] at hready
  · obtain ⟨error, hsome, herror⟩ := (Option.any_eq_true _ _).mp herror
    cases error <;> first | exact hdeaf hsome | cases herror
  · obtain ⟨operation, -, hreports⟩ := List.any_eq_true.mp hpending
    cases operation <;> cases hreports

end Deaf

/-! ### The account of a run -/

/-- What has been observed before the exit stays so. -/
theorem mem_beforeExit_append {o : Observation} {log new : List Observation}
    (h : o ∈ beforeExit log) : o ∈ beforeExit (log ++ new) := by
  unfold beforeExit at h ⊢
  rw [List.takeWhile_append]
  split
  · exact List.mem_append_left _ (List.takeWhile_subset _ h)
  · exact h

/-- While there has been no exit, everything observed has been before it. -/
theorem beforeExit_eq {log : List Observation} (h : ∀ run ec, .exit run ec ∉ log) :
    beforeExit log = log := by
  refine List.takeWhile_eq_self_iff.mpr fun o ho ↦ ?_
  cases o <;> first | rfl | exact absurd ho (h _ _)

namespace Account

variable {x y : Account} {t' u : Transceiver} {e : Event}

theorem exists_of_step (hstep : x.step e = some y) :
    ∃ t', x.transceiver.step e = some t' ∧ y = x.after e t' := by
  obtain ⟨t', ht', rfl⟩ := Option.map_eq_some_iff.mp hstep
  exact ⟨t', ht', rfl⟩

@[simp] theorem transceiver_after (x : Account) (e : Event) (t' : Transceiver) :
    (x.after e t').transceiver = t' := by
  unfold after
  split <;> rfl

theorem first_after (x : Account) (e : Event) (t' : Transceiver) :
    (x.after e t').first = x.transceiver.firstAfter x.first e := by
  rw [firstAfter_eq, after]
  split <;> rfl

/-- No operation of the state is pending on the channels of the run. -/
def Free (x : Account) (s : State) : Prop :=
  ∀ n, x.first ≤ n → ∀ operation ∈ x.transceiver.pendingOn n, operation.state ≠ s

/-- The removal of the queue has been decided, and no operation is pending that would end the run
without it. -/
structure Removing (x : Account) (name : String) : Prop where
  state : x.transceiver.state = .eRemoveQueue
  recvQueue : x.transceiver.recvQueue = name
  pending : ∀ n, x.first ≤ n → ∀ operation ∈ x.transceiver.pendingOn n, operation.SetsUp

/-- The set-up is under way: nothing has failed, and the queue of the run is confirmed on the way
from `eCreateQueue` to `eBindQueue`. -/
structure Proceeds (x : Account) : Prop where
  failed : x.failed = false
  created : x.created ≠ none → x.transceiver.state = .eBindQueue ∨
    x.transceiver.state = .eCreateConsumer ∨ x.transceiver.state = .eReady
  missing : x.transceiver.state = .eCreateQueue → x.transceiver.queueExist = false
  bound : x.transceiver.state = .eBindQueue →
    x.created = if x.transceiver.queueExist then none else some x.transceiver.recvQueue

/-- After the set-up: nothing has failed and nothing can any more, or every queue the broker has
confirmed is being removed. -/
def Accounted (x : Account) : Prop :=
  x.dropped = true ∨ x.refused = true ∨ (x.failed = false ∧ x.Free .eBindQueue) ∨
    x.Free .eCreateQueue ∧ ∀ name, x.created = some name → x.Removed name ∨ x.Removing name

/-- The invariant of a listener whose runs are not disturbed by earlier ones. -/
structure Kept (x : Account) : Prop where
  wellFormed : x.transceiver.WellFormed
  sole : Sole x.first x.transceiver
  listener : x.transceiver.listener = true
  deaf : Deaf x.transceiver
  mark : x.mark ≤ x.transceiver.log.length
  quiet : x.transceiver.state ≠ .eEnd → x.transceiver.crashed = false →
    ∀ run ec, .exit run ec ∉ x.transceiver.log.drop x.mark
  setsUp : x.transceiver.state.beforeShutdown = true → x.Proceeds
  ended : x.transceiver.state.beforeShutdown = false → x.Accounted

/-! ### What a step does to an account -/

theorem after_of_begins (hbegins : x.transceiver.begins e = true) (t' : Transceiver) :
    x.after e t' =
      ⟨t', x.transceiver.channels.length, x.transceiver.log.length, none, false, false, false⟩ := by
  simp [after, hbegins]

theorem report_eq_some {cb : Callback} (h : x.report e = some cb) :
    ∃ n, e = .callback n cb ∧ x.first ≤ n := by
  cases e with
  | callback n called =>
    obtain ⟨hn, h⟩ := Option.ite_none_right_eq_some.mp h
    exact ⟨n, by rw [Option.some.inj h], hn⟩
  | _ => cases h

/-- A callback on a channel of the run reports an operation that is pending there. -/
theorem exists_pending_of_report {cb : Callback} (hreport : x.report e = some cb)
    (hanswers : cb.answers = true) (hstep : x.transceiver.step e = some t') :
    ∃ n, x.first ≤ n ∧ ∃ o : Operation, o ∈ x.transceiver.pendingOn n ∧ o.reports cb = true := by
  obtain ⟨n, rfl, hn⟩ := report_eq_some hreport
  exact ⟨n, hn, exists_pending_of_answers hstep hanswers⟩

/-- The declaration of the queue is confirmed while it is pending. -/
theorem created_after (hbegins : x.transceiver.begins e = false)
    (hstep : x.transceiver.step e = some t') (hfree : x.Free .eCreateQueue) :
    (x.after e t').created = x.created := by
  simp only [after, hbegins, Bool.false_eq_true, ↓reduceIte]
  split
  · next name hreport =>
    obtain ⟨n, hn, o, ho, hreports⟩ :=
      exists_pending_of_report hreport rfl hstep
    have hstate := hfree n hn o ho
    cases o <;> simp [Operation.reports, Operation.state] at hreports hstate
  · rfl

/-- The set-up fails while the binding is pending, if the consumer is not refused. -/
theorem failed_after (hbegins : x.transceiver.begins e = false) (hclean : x.Clean e)
    (hstep : x.transceiver.step e = some t') (hfree : x.Free .eBindQueue) :
    (x.after e t').failed = x.failed := by
  have hfails : x.fails e = false := by
    unfold fails
    split
    · next message hreport =>
      obtain ⟨n, hn, o, ho, hreports⟩ :=
        exists_pending_of_report hreport rfl hstep
      have hstate := hfree n hn o ho
      cases o <;> simp [Operation.reports, Operation.state] at hreports hstate
    · next message hreport => simp [hclean.2 message hreport]
    · simp
  simp [after, hbegins, hfails]

/-- While the set-up is under way, only operations of its state are pending. -/
theorem Kept.free {s : State} (h : x.Kept) (hsetsUp : x.transceiver.state.beforeShutdown = true)
    (hs : x.transceiver.state ≠ s) : x.Free s :=
  fun _ hn _ ho hstate ↦ hs ((h.sole.state_of_mem hsetsUp hn ho).symm.trans hstate)

/-- Nothing becomes pending that is not of the state a step leaves behind. -/
theorem free_after {s : State} (hbegins : x.transceiver.begins e = false)
    (hstep : x.transceiver.step e = some t') (hfree : x.Free s) (hs : t'.state ≠ s) :
    (x.after e t').Free s := by
  intro n hn o ho hstate
  rw [transceiver_after] at ho
  rw [first_after, firstAfter_eq, hbegins] at hn
  rcases mem_pendingOn_step hstep ho with hold | ⟨-, hnew⟩
  · exact hfree n (by simpa using hn) o (x.transceiver.remaining_subset n e hold) hstate
  · exact hs ((request_state hnew).symm.trans hstate)

/-! ### The set-up -/

/-- Where a step goes on setting up, nothing has failed. -/
theorem Kept.failed_after_setsUp (h : x.Kept) (hclean : x.Clean e)
    (hbegins : x.transceiver.begins e = false) (hstep : x.transceiver.step e = some t')
    (hsetsUp : t'.state.beforeShutdown = true) : (x.after e t').failed = false := by
  have hbefore := beforeShutdown_of_step h.wellFormed hbegins hstep hsetsUp
  by_cases hs : x.transceiver.state = .eBindQueue
  · have hfails : x.fails e = false := by
      unfold fails
      split
      · next message hreport =>
        obtain ⟨n, rfl, -⟩ := report_eq_some hreport
        have hmove : x.transceiver.move (.callback n (.bindQueueError message)) =
          some (_, .eRemoveQueue) := if_pos hs
        rw [step_of_move hstep hmove, state_goto] at hsetsUp
        cases beforeShutdown_of_landing_setsUp hsetsUp
      · next message hreport => simp [hclean.2 message hreport]
      · simp
    simp [after, hbegins, hfails, (h.setsUp hbefore).failed]
  · rw [failed_after hbegins hclean hstep (h.free hbefore hs)]
    exact (h.setsUp hbefore).failed

/-- The set-up goes on: the queue of the run is confirmed where it is declared, and nothing
fails. -/
theorem Kept.proceeds (h : x.Kept) (hclean : x.Clean e) (hstep : x.transceiver.step e = some t')
    (hsetsUp : t'.state.beforeShutdown = true) : (x.after e t').Proceeds := by
  cases hbegins : x.transceiver.begins e with
  | true =>
    have hstate : t'.state = .eCreateChannel :=
      (state_of_begins hbegins hstep).resolve_right fun hend ↦ by
        simp [hend, State.beforeShutdown] at hsetsUp
    rw [after_of_begins hbegins]
    exact ⟨rfl, fun hne ↦ absurd rfl hne, by simp [hstate], by simp [hstate]⟩
  | false =>
    have hbefore := beforeShutdown_of_step h.wellFormed hbegins hstep hsetsUp
    obtain ⟨hfailed, hcreated, hmissing, hbound⟩ := h.setsUp hbefore
    have hfailed' := h.failed_after_setsUp hclean hbegins hstep hsetsUp
    have hsame (hs : x.transceiver.state ≠ .eCreateQueue) : (x.after e t').created = x.created :=
      created_after hbegins hstep (h.free hbefore hs)
    have hnone (hs : x.transceiver.state ≠ .eBindQueue ∧ x.transceiver.state ≠ .eCreateConsumer ∧
        x.transceiver.state ≠ .eReady) : x.created = none := by
      by_contra hne
      rcases hcreated hne with hstate | hstate | hstate
      exacts [hs.1 hstate, hs.2.1 hstate, hs.2.2 hstate]
    cases hmove : x.transceiver.move e with
    | none =>
      obtain ⟨hexist, hrecvQueue⟩ := queue_still (still_of_no_move hstep hmove)
      have hstate := (step_of_no_move hstep hmove).state
      have hcreated' : (x.after e t').created = x.created := by
        by_cases hs : x.transceiver.state = .eCreateQueue
        · simp only [after, hbegins, Bool.false_eq_true, ↓reduceIte]
          split
          · next name hreport =>
            obtain ⟨n, rfl, -⟩ := report_eq_some hreport
            simp [move, reaction, hs, delivering] at hmove
          · rfl
        · exact hsame hs
      refine ⟨hfailed', ?_, ?_, ?_⟩ <;> rw [transceiver_after, hstate]
      · rwa [hcreated']
      · rwa [hexist]
      · rwa [hcreated', hexist, hrecvQueue]
    | some next =>
      obtain ⟨u, s⟩ := next
      obtain rfl := step_of_move hstep hmove
      rw [state_goto] at hsetsUp
      have hs := beforeShutdown_of_landing_setsUp hsetsUp
      obtain ⟨hexist, hrecvQueue⟩ := queue_goto (t := u) (s := s) fun hend ↦ by
        simp [hend, State.beforeShutdown] at hsetsUp
      suffices hgoal : ((x.after e (u.goto s)).created ≠ none → u.landing s = .eBindQueue ∨
          u.landing s = .eCreateConsumer ∨ u.landing s = .eReady) ∧
          (u.landing s = .eBindQueue → (x.after e (u.goto s)).created =
            if u.queueExist then none else some u.recvQueue) by
        refine ⟨hfailed', ?_, ?_, ?_⟩ <;> rw [transceiver_after, state_goto]
        · exact hgoal.1
        · exact fun hlanding ↦ hexist.trans (queueExist_of_landing hlanding)
        · rw [hexist, hrecvQueue]
          exact hgoal.2
      cases e with
      | install | send => cases hmove
      | start connection =>
        have hrunning : x.transceiver.state ≠ .eEnd := by simpa [begins] using hbegins
        simp [move, hrunning] at hmove
      | stop =>
        obtain ⟨-, hmove⟩ := Option.ite_none_right_eq_some.mp hmove
        obtain ⟨rfl, rfl⟩ := Prod.mk.inj (Option.some.inj hmove)
        have hrecreate : x.transceiver.state = .eRecreateChannel := by
          by_contra hlisted
          simp [beforeShutdown_stopTransit hbefore hlisted] at hs
        rw [hsame (by simp [hrecreate]), hnone (by simp [hrecreate])]
        refine ⟨fun hne ↦ absurd rfl hne, fun hlanding ↦ ?_⟩
        rw [hrecreate] at hlanding
        rcases eq_of_landing_eBindQueue hlanding with hlisted | ⟨hlisted, -⟩ <;> cases hlisted
      | drop =>
        obtain ⟨-, hmove⟩ := Option.ite_none_left_eq_some.mp hmove
        obtain ⟨-, rfl⟩ := Prod.mk.inj (Option.some.inj hmove)
        cases hs
      | callback n cb =>
        have hn : x.first ≤ n := by
          by_contra hlt
          simp [hclean.1 n cb rfl (by omega)] at hmove
        cases forward_of_reaction (t := x.transceiver.delivering n cb) hmove hs with
        | created name hstate =>
          have hcreated' : (x.after (.callback n (.createQueueSuccess name))
              (Transceiver.goto { x.transceiver.delivering n (.createQueueSuccess name) with
                recvQueue := name } .eBindQueue)).created = some name := by
            simp [after, begins, report, hn]
          have hexist : x.transceiver.queueExist = false := hmissing hstate
          rw [hcreated']
          exact ⟨fun _ ↦ Or.inl rfl, fun _ ↦ by simp [delivering, hexist]⟩
        | bound hstate =>
          exact ⟨fun _ ↦ Or.inr (Or.inl rfl), fun hlanding ↦ by cases hlanding⟩
        | consuming consumer hstate =>
          exact ⟨fun _ ↦ Or.inr (Or.inr rfl), fun hlanding ↦ by cases hlanding⟩
        | exchange hstate =>
          change x.transceiver.state = _ at hstate
          rw [hsame (by simp [hstate]), hnone (by simp [hstate])]
          refine ⟨fun hne ↦ absurd rfl hne, fun hlanding ↦ ?_⟩
          rcases eq_of_landing_eBindQueue hlanding with hlisted | ⟨-, hexist⟩
          · split at hlisted <;> cases hlisted
          · simp [hexist]
        | opened hstate | found name hstate | missing message hstate | reopened hstate =>
          change x.transceiver.state = _ at hstate
          rw [hsame (by simp [hstate]), hnone (by simp [hstate])]
          refine ⟨fun hne ↦ absurd rfl hne, fun hlanding ↦ ?_⟩
          rcases eq_of_landing_eBindQueue hlanding with hlisted | ⟨hlisted, -⟩ <;>
            first
            | cases hlisted
            | (split at hlisted <;> cases hlisted)

/-! ### The teardown -/

theorem log_after (hmark : x.mark ≤ x.transceiver.log.length)
    (hbegins : x.transceiver.begins e = false)
    {new : List Observation} (hlog : t'.log = x.transceiver.log ++ new) :
    t'.log.drop (x.after e t').mark = x.transceiver.log.drop x.mark ++ new := by
  simp [after, hbegins, hlog, List.drop_append_of_le_length hmark]

/-- There is no exit before the end. -/
theorem Kept.quiet_after (h : x.Kept) (hstep : x.transceiver.step e = some t')
    (hrunning : t'.state ≠ .eEnd) (hcrashed : t'.crashed = false) :
    ∀ run ec, .exit run ec ∉ t'.log.drop (x.after e t').mark := by
  obtain ⟨new, heffect⟩ := effect_of_step hstep
  have hnew : ∀ run ec, .exit run ec ∉ new :=
    fun run ec hexit ↦ hrunning (heffect.exit run ec hexit)
  cases hbegins : x.transceiver.begins e with
  | true => simpa [after_of_begins hbegins, heffect.log] using hnew
  | false =>
    have hbefore : x.transceiver.state ≠ .eEnd := by
      intro hend
      rcases ended_step h.wellFormed hend hbegins hstep with hend' | hcrash
      · exact hrunning hend'
      · simp [hcrashed] at hcrash
    intro run ec hexit
    rw [log_after h.mark hbegins heffect.log] at hexit
    rcases List.mem_append.mp hexit with hold | hexit
    · exact h.quiet hbefore (crashed_eq_false_of_step hstep) run ec hold
    · exact hnew run ec hexit

theorem Removed.after {name : String} (h : x.Removed name)
    (hmark : x.mark ≤ x.transceiver.log.length) (hbegins : x.transceiver.begins e = false)
    (hstep : x.transceiver.step e = some t') : (x.after e t').Removed name := by
  obtain ⟨n, hissued⟩ := h
  obtain ⟨new, heffect⟩ := effect_of_step hstep
  refine ⟨n, ?_⟩
  rw [transceiver_after, log_after hmark hbegins heffect.log]
  exact mem_beforeExit_append hissued

/-- In `eRemoveQueue`, where only operations of the set-up were pending, the removal is issued or
will be. -/
theorem Kept.removed_or_removing (h : x.Kept) (hbegins : x.transceiver.begins e = false)
    (hstep : x.transceiver.step e = some t') (hstate : t'.state = .eRemoveQueue)
    (hpending : ∀ n, x.first ≤ n → ∀ operation ∈ x.transceiver.pendingOn n, operation.SetsUp) :
    (x.after e t').Removed t'.recvQueue ∨ (x.after e t').Removing t'.recvQueue := by
  obtain ⟨new, heffect⟩ := effect_of_step hstep
  by_cases hissued : ∃ n operation, .issued n operation ∈ new
  · obtain ⟨n, operation, hissued⟩ := hissued
    have hcrashed : t'.crashed = false := by
      by_contra hcrash
      have := (wellFormed_step h.wellFormed hstep).crashed (by simpa using hcrash)
      simp [hstate] at this
    have hquiet := h.quiet_after hstep (by simp [hstate]) hcrashed
    obtain rfl : .removeQueue t'.recvQueue = operation := by
      simpa [request, hstate] using (heffect.issued n operation hissued).2
    refine Or.inl ⟨n, ?_⟩
    rw [transceiver_after, beforeExit_eq hquiet, log_after h.mark hbegins heffect.log]
    exact List.mem_append_right _ hissued
  · refine Or.inr ⟨by rwa [transceiver_after], by rw [transceiver_after], fun n hn o ho ↦ ?_⟩
    rw [transceiver_after] at ho
    rw [first_after, firstAfter_eq, hbegins] at hn
    obtain ⟨issued, hpendingOn, hmem⟩ := heffect.pending n
    rw [hpendingOn] at ho
    rcases List.mem_append.mp ho with hold | hnew
    · exact hpending n (by simpa using hn) o (remaining_subset _ n e hold)
    · exact absurd ⟨n, o, hmem o hnew⟩ hissued

/-- While the removal is under way, the run is left only by a drop or when the channel opened for
the removal fails. -/
theorem Removing.after {name : String} (hremoving : x.Removing name) (h : x.Kept)
    (hclean : x.Clean e) (hbegins : x.transceiver.begins e = false)
    (hstep : x.transceiver.step e = some t') :
    (x.after e t').dropped = true ∨ (x.after e t').refused = true ∨
      (x.after e t').Removed name ∨ (x.after e t').Removing name := by
  obtain ⟨hstate, hrecvQueue, hpending⟩ := hremoving
  cases hmove : x.transceiver.move e with
  | none =>
    obtain ⟨-, hqueue⟩ := queue_still (still_of_no_move hstep hmove)
    have hstate' := (step_of_no_move hstep hmove).state.trans hstate
    rw [← hrecvQueue, ← hqueue]
    exact Or.inr (Or.inr (h.removed_or_removing hbegins hstep hstate' hpending))
  | some next =>
    obtain ⟨u, s⟩ := next
    cases e with
    | install | send => cases hmove
    | start connection => simp [move, hstate] at hmove
    | stop => simp [move, hstate, State.beforeShutdown] at hmove
    | drop => exact Or.inl (by simp [after, begins, hstate])
    | callback n cb =>
      have hn : x.first ≤ n := by
        by_contra hlt
        simp [hclean.1 n cb rfl (by omega)] at hmove
      have hreaction : x.transceiver.reaction cb ≠ none := by
        rw [Ne, ← reaction_delivering_eq_none (n := n) (d := cb)]
        exact Option.ne_none_iff_exists'.mpr ⟨_, hmove⟩
      by_cases hanswers : cb.answers = true
      · obtain ⟨o, ho, hreports⟩ := exists_pending_of_answers hstep hanswers
        exact absurd (reaction_eq_none_of_setsUp hreports (hpending n hn o ho)
          (by simp [hstate, State.beforeShutdown])) hreaction
      · cases cb <;> simp [Callback.answers, reaction, hstate] at hanswers hreaction
        case readyError message => exact absurd hstep (h.deaf.not_readyError n message)
        case removeQueueChannelError message =>
          exact Or.inr (Or.inl (by simp [after, begins, refuses, report, hn]))

/-- Where the set-up is left while the queue is being bound, a queue the broker has confirmed is
being removed, unless the run is dropped. -/
theorem Kept.leaves_eBindQueue (h : x.Kept) (hclean : x.Clean e)
    (hbegins : x.transceiver.begins e = false) (hstep : x.transceiver.step e = some t')
    (hs : x.transceiver.state = .eBindQueue) (hdown : t'.state.beforeShutdown = false) :
    (x.after e t').Accounted := by
  have hbefore : x.transceiver.state.beforeShutdown = true := by rw [hs]; rfl
  have hpending : ∀ n, x.first ≤ n → ∀ o ∈ x.transceiver.pendingOn n, Operation.SetsUp o := by
    intro n hn o ho
    rw [Operation.SetsUp, h.sole.state_of_mem hbefore hn ho, hbefore]
  have hfree : x.Free .eCreateQueue := h.free hbefore (by simp [hs])
  have hcreated := created_after hbegins hstep hfree
  have hfree' := free_after hbegins hstep hfree fun hstate ↦ by
    simp [hstate, State.beforeShutdown] at hdown
  -- the way to `eRemoveQueue`: past the removal where the queue was found, into it where it was not
  have hremove (u : Transceiver) (hexist : u.queueExist = x.transceiver.queueExist)
      (hrecvQueue : u.recvQueue = x.transceiver.recvQueue) (hgoto : t' = u.goto .eRemoveQueue) :
      (x.after e t').Accounted := by
    have hbound := (h.setsUp hbefore).bound hs
    refine Or.inr (Or.inr (Or.inr ⟨hfree', fun name hname ↦ ?_⟩))
    rw [hcreated, hbound] at hname
    cases hfound : x.transceiver.queueExist with
    | true => simp [hfound] at hname
    | false =>
      have hlanding : u.landing .eRemoveQueue = .eRemoveQueue := by
        simp [landing, path, hexist, hfound]
      obtain rfl : x.transceiver.recvQueue = name := by simpa [hfound] using hname
      have hqueue : t'.recvQueue = x.transceiver.recvQueue := by
        rw [hgoto, (queue_goto (by simp [hlanding])).2, hrecvQueue]
      rw [← hqueue]
      exact h.removed_or_removing hbegins hstep (by rw [hgoto, state_goto, hlanding]) hpending
  cases hmove : x.transceiver.move e with
  | none => simp [(step_of_no_move hstep hmove).state, hbefore] at hdown
  | some next =>
    obtain ⟨u, s⟩ := next
    have hgoto := step_of_move hstep hmove
    cases e with
    | install | send => cases hmove
    | start connection => simp [move, hs] at hmove
    | stop =>
      obtain ⟨-, hmove⟩ := Option.ite_none_right_eq_some.mp hmove
      obtain ⟨rfl, rfl⟩ := Prod.mk.inj (Option.some.inj hmove)
      refine hremove x.transceiver rfl rfl ?_
      rw [hgoto, hs]
      rfl
    | drop => exact Or.inl (by simp [after, begins, hs])
    | callback n cb =>
      have hn : x.first ≤ n := by
        by_contra hlt
        simp [hclean.1 n cb rfl (by omega)] at hmove
      obtain ⟨⟨c, hc, hregistered⟩, -⟩ := step_callback hstep
      have hreacts : x.transceiver.reaction cb ≠ none := by
        rw [Ne, ← reaction_delivering_eq_none (n := n) (d := cb)]
        exact Option.ne_none_iff_exists'.mpr ⟨_, hmove⟩
      have hawaited : x.transceiver.awaited = some (.bindQueue x.transceiver.exchange
          x.transceiver.recvQueue x.transceiver.routeIn) := by simp only [awaited, hs]
      obtain ⟨-, hreports⟩ := reports_of_reacts (h.sole.pends hbefore) hawaited hn hc hregistered
        hreacts fun message hcb ↦ h.deaf.not_readyError n message (hcb ▸ hstep)
      cases cb <;> simp only [Operation.reports, Bool.false_eq_true] at hreports
      case bindQueueSuccess =>
        obtain ⟨-, rfl⟩ := Prod.mk.inj (Option.some.inj ((if_pos hs).symm.trans hmove))
        rw [hgoto, state_goto] at hdown
        cases hdown
      case bindQueueError message =>
        obtain ⟨rfl, rfl⟩ := Prod.mk.inj (Option.some.inj ((if_pos hs).symm.trans hmove))
        exact hremove (Transceiver.setError (x.transceiver.delivering n (.bindQueueError message))
          .eBindQueueError message) rfl rfl hgoto

/-- After the set-up, every queue of the run that a failure has left is being removed. -/
theorem Kept.accounted (h : x.Kept) (hclean : x.Clean e) (hstep : x.transceiver.step e = some t')
    (hdown : t'.state.beforeShutdown = false) : (x.after e t').Accounted := by
  have hne {s : State} (hs : s.beforeShutdown = true) : t'.state ≠ s := by
    rintro rfl
    simp [hs] at hdown
  cases hbegins : x.transceiver.begins e with
  | true =>
    have hend := (state_of_begins hbegins hstep).resolve_left (hne rfl)
    refine Or.inr (Or.inr (Or.inl ⟨by rw [after_of_begins hbegins], fun n hn o ho hstate ↦ ?_⟩))
    rw [transceiver_after] at ho
    rw [after_of_begins hbegins] at hn
    rcases mem_pendingOn_step hstep ho with hold | ⟨-, hnew⟩
    · have hold := x.transceiver.remaining_subset n e hold
      simp [pendingOn_of_length_le hn] at hold
    · simp [request, hend] at hnew
  | false =>
    have hdropped : x.dropped = true → (x.after e t').dropped = true := fun hd ↦ by
      simp [after, hbegins, hd]
    have hrefused : x.refused = true → (x.after e t').refused = true := fun hr ↦ by
      simp [after, hbegins, hr]
    -- nothing has failed where the binding is not pending any more
    have hquiet (hfailed : x.failed = false) (hfree : x.Free .eBindQueue) :
      (x.after e t').Accounted := Or.inr
      (Or.inr (Or.inl ⟨(failed_after hbegins hclean hstep hfree).trans hfailed,
        free_after hbegins hstep hfree (hne rfl)⟩))
    cases hbefore : x.transceiver.state.beforeShutdown with
    | true =>
      by_cases hs : x.transceiver.state = .eBindQueue
      · exact h.leaves_eBindQueue hclean hbegins hstep hs hdown
      · exact hquiet (h.setsUp hbefore).failed (h.free hbefore hs)
    | false =>
      rcases h.ended hbefore with hd | hr | ⟨hfailed, hfree⟩ | ⟨hfree, hcreated⟩
      · exact Or.inl (hdropped hd)
      · exact Or.inr (Or.inl (hrefused hr))
      · exact hquiet hfailed hfree
      · by_cases hover : (x.after e t').dropped = true ∨ (x.after e t').refused = true
        · exact hover.imp_right Or.inl
        refine Or.inr
          (Or.inr (Or.inr ⟨free_after hbegins hstep hfree (hne rfl), fun name hname ↦ ?_⟩))
        rw [created_after hbegins hstep hfree] at hname
        rcases hcreated name hname with hremoved | hremoving
        · exact Or.inl (hremoved.after h.mark hbegins hstep)
        · rcases hremoving.after h hclean hbegins hstep with hd | hr | hdone
          · exact absurd (Or.inl hd) hover
          · exact absurd (Or.inr hr) hover
          · exact hdone

/-- The step lemma. -/
theorem Kept.step (h : x.Kept) (hclean : x.Clean e) (hstep : x.step e = some y) : y.Kept := by
  obtain ⟨t', ht', rfl⟩ := exists_of_step hstep
  have hconfig := config_step ht'
  refine ⟨?_, ?_, ?_, ?_, ?_, ?_, ?_, ?_⟩ <;> rw [transceiver_after]
  · exact wellFormed_step h.wellFormed ht'
  · rw [first_after]
    exact h.sole.step h.wellFormed hclean.1 ht'
  · simpa [config, h.listener] using congrArg (·.2.2.2) hconfig
  · exact h.deaf.step h.listener ht'
  · obtain ⟨new, heffect⟩ := effect_of_step ht'
    have hmark := h.mark
    rw [heffect.log, List.length_append, after]
    split
    · exact Nat.le_add_right _ _
    · exact Nat.le_trans hmark (Nat.le_add_right _ _)
  · exact h.quiet_after ht'
  · exact h.proceeds hclean ht'
  · exact h.accounted hclean ht'

/-- As long as no lambda of an earlier run acts on the present one and the consumer is not refused,
a listener whose set-up fails after the broker has confirmed its queue has asked for the removal of
the queue before its exit, or has been refused a channel for that. -/
theorem cleansUp_of_reachedBy (hreachable : machine.ReachedBy Clean x) : x.CleansUp := by
  have hkept : x.Kept := by
    refine hreachable.invariant ?_ fun s e s' hs hclean hstep ↦ hs.step hclean hstep
    rintro x ⟨exchange, queue, routeIn, rfl⟩
    refine ⟨wellFormed_new _ _ _ _, sole_new _ _ _ _, rfl, by simp [Deaf, new], Nat.le_refl _,
      fun hne ↦ absurd rfl hne, (fun hsetsUp ↦ by cases hsetsUp), fun _ ↦ ?_⟩
    exact Or.inr (Or.inr (Or.inl ⟨rfl, by simp [Free, pendingOn, new]⟩))
  intro hend name hname hfailed hdropped
  rcases hkept.ended (by rw [hend]; rfl) with hd | hr | ⟨hfailed', -⟩ | ⟨-, hcreated⟩
  · simp [hdropped] at hd
  · exact Or.inr hr
  · simp [hfailed] at hfailed'
  · rcases hcreated name hname with hremoved | hremoving
    · exact Or.inl hremoved
    · exact absurd (hend.symm.trans hremoving.state) (by decide)

/-- A listener on a queue, before its first run. -/
def listening : Account := ⟨new "exchange" "orders" "orders" true, 0, 0, none, false, false, false⟩

/-- The queue is missing, and the listener has declared it. -/
def declared : List Event :=
  [.install false false true, .start (some 0), .callback 0 .createChannelReady,
    .callback 0 (.checkQueueError "NOT_FOUND - no queue 'orders'"),
    .callback 1 .recreateChannelReady, .callback 1 .createExchangeSuccess,
    .callback 1 (.createQueueSuccess "orders")]

/-- It cannot be bound. -/
def unbound : List Event :=
  declared ++ [.callback 1 (.bindQueueError "ACCESS_REFUSED"), .callback 2 .removeQueueReady,
    .callback 2 .removeQueueSuccess, .callback 2 .closeChannelSuccess]

/-- It can be bound, but not consumed from. -/
def unconsumed : List Event :=
  declared ++ [.callback 1 .bindQueueSuccess, .callback 1 (.createConsumerError "ACCESS_REFUSED"),
    .callback 2 .unbindQueueReady, .callback 2 .unbindQueueSuccess,
    .callback 2 .closeChannelSuccess]

/-- A queue that cannot be bound is removed before the exit. -/
theorem cleansUp_unbound :
    ∃ x, machine.run listening unbound = some x ∧ x.transceiver.state = .eEnd ∧
      x.created = some "orders" ∧ x.failed = true ∧ x.dropped = false ∧ x.refused = false ∧
      x.CleansUp := by
  refine ⟨_, rfl, rfl, rfl, rfl, rfl, rfl,
    cleansUp_of_reachedBy ⟨listening, unbound, ⟨_, _, _, rfl⟩, rfl, ?_⟩⟩
  have hclean {x : Account} {e : Event} (hfirst : x.first = 0)
      (he : ∀ n message, e ≠ .callback n (.createConsumerError message)) : x.Clean e := by
    refine ⟨fun n cb _ hn ↦ absurd hn (by omega), fun message hreport ↦ ?_⟩
    obtain ⟨n, rfl, -⟩ := report_eq_some hreport
    exact absurd rfl (he n message)
  refine Machine.meets_cons (hclean rfl (by simp))
    rfl (Machine.meets_cons (hclean rfl (by simp)) rfl ?_)
  refine Machine.meets_cons (hclean rfl (by simp))
    rfl (Machine.meets_cons (hclean rfl (by simp)) rfl ?_)
  refine Machine.meets_cons (hclean rfl (by simp))
    rfl (Machine.meets_cons (hclean rfl (by simp)) rfl ?_)
  refine Machine.meets_cons (hclean rfl (by simp))
    rfl (Machine.meets_cons (hclean rfl (by simp)) rfl ?_)
  refine Machine.meets_cons (hclean rfl (by simp))
    rfl (Machine.meets_cons (hclean rfl (by simp)) rfl ?_)
  exact Machine.meets_cons (hclean rfl (by simp)) rfl trivial

/-- A queue that can be bound but not consumed from is unbound, and left on the broker. -/
theorem not_cleansUp_unconsumed :
    ∃ x, machine.run listening unconsumed = some x ∧ x.transceiver.state = .eEnd ∧
      x.created = some "orders" ∧ ¬ x.CleansUp := by
  obtain ⟨x, hrun, hend, hcreated, hfailed, hdropped, hrefused, hnone⟩ :
      ∃ x, machine.run listening unconsumed = some x ∧ x.transceiver.state = .eEnd ∧
        x.created = some "orders" ∧ x.failed = true ∧ x.dropped = false ∧ x.refused = false ∧
        (beforeExit (x.transceiver.log.drop x.mark)).all
          (fun o ↦ !(o matches .issued _ (.removeQueue _))) = true :=
    ⟨_, rfl, rfl, rfl, rfl, rfl, rfl, rfl⟩
  refine ⟨x, hrun, hend, hcreated, fun h ↦ ?_⟩
  rcases h hend "orders" hcreated hfailed hdropped with ⟨n, hissued⟩ | hrefused'
  · cases List.all_eq_true.mp hnone _ hissued
  · simp [hrefused] at hrefused'

end Account

end Transceiver

end AmqpAsio
