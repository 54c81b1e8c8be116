import AmqpAsio.Broker.Client

/-!
# The name of the queue

A listener learns the name of its queue from the answer to its passive check or to its declaration,
and binds and consumes under that name. `Named P` says that the names it may still learn, and the
one it has learnt, have the property `P`; it is kept by every run that earlier ones do not disturb,
as long as the names that the broker gives have the property.
-/

set_option autoImplicit false
set_option relaxedAutoImplicit false

namespace AmqpAsio

namespace Transceiver

namespace Client

/-- What is known of the names under way and of `m_recvQueue`, while the run sets up. -/
def Named (P : String → Prop) (x : Client) : Prop :=
  match x.transceiver.state with
  | .eCreateChannel | .eRecreateChannel | .eCreateExchange =>
      x.transceiver.queueExist = true → P x.transceiver.recvQueue
  | .eCheckQueue => x.transceiver.queue ≠ "" ∧
      (x.transceiver.queueExist = true → P x.transceiver.recvQueue) ∧
      ∀ n name, x.first ≤ n → .checkQueueSuccess name ∈ x.answers n → P name
  | .eCreateQueue => ∀ n name, x.first ≤ n → .createQueueSuccess name ∈ x.answers n → P name
  | .eBindQueue | .eCreateConsumer | .eReady => P x.transceiver.recvQueue
  | _ => True

/-- The names that the broker gives have the property. -/
structure Gives (P : String → Prop) (x : Client) (a : Action) : Prop where
  checked : x.transceiver.queue ≠ "" → P x.transceiver.queue
  declared : ∀ n name flags, a = .execute n (.accept name) → x.first ≤ n →
    x.next n = some (.declareQueue x.transceiver.queue flags) →
    P (declaredName x.transceiver.queue name)

variable {P : String → Prop} {x y : Client} {a : Action} {e : Event} {t' : Transceiver}

theorem mem_answersWith {n m : ℕ} {cb called : Callback} (hmem : called ∈ x.answersWith n cb m) :
    called ∈ x.answers m ∨ m = n ∧ called = cb := by
  unfold answersWith at hmem
  split at hmem
  · next hm =>
    rcases List.mem_append.mp hmem with hold | hnew
    · exact Or.inl (hm ▸ hold)
    · exact Or.inr ⟨hm, List.mem_singleton.mp hnew⟩
  · exact Or.inl hmem

/-- The broker gives its verdict on an operation. -/
theorem Named.execute {n : ℕ} {verdict : Verdict} {operation : Operation} (hnamed : x.Named P)
    (hsound : x.Sound) (hgives : x.Gives P (.execute n verdict))
    (hnext : x.next n = some operation) :
    Named P { x with answers := x.answersWith n (operation.answer verdict) } := by
  have hawaited (hsetsUp : x.transceiver.state.beforeShutdown = true) (hn : x.first ≤ n) :=
    (hsound.next_setsUp hsetsUp hn hnext).1
  unfold Named at hnamed ⊢
  cases hs : x.transceiver.state <;> simp only [hs] at hnamed ⊢
  case eCheckQueue =>
    refine ⟨hnamed.1, hnamed.2.1, fun m name hm hcb ↦ ?_⟩
    rcases mem_answersWith hcb with hold | ⟨rfl, hanswer⟩
    · exact hnamed.2.2 m name hm hold
    · have hoperation := hawaited (by rw [hs]; rfl) hm
      obtain rfl : .declarePassive x.transceiver.queue = operation := by
        simpa [awaited, hs] using hoperation
      cases verdict <;> cases hanswer
      exact hgives.checked hnamed.1
  case eCreateQueue =>
    intro m name hm hcb
    rcases mem_answersWith hcb with hold | ⟨rfl, hanswer⟩
    · exact hnamed m name hm hold
    · have hoperation := hawaited (by rw [hs]; rfl) hm
      obtain rfl : .declareQueue x.transceiver.queue x.transceiver.qFlags = operation := by
        simpa [awaited, hs] using hoperation
      cases verdict <;> cases hanswer
      exact hgives.declared m _ _ rfl hm hnext
  all_goals exact hnamed

/-- Once the set-up is over, the names do not matter any more. -/
theorem named_of_late (hlate : x.transceiver.state.beforeShutdown = false) : x.Named P := by
  unfold Named
  cases hs : x.transceiver.state <;> simp only [hs, State.beforeShutdown, reduceCtorEq] at hlate ⊢

/-- A run begins without a queue. -/
theorem named_of_begins {first : ℕ} (hwell : x.transceiver.WellFormed)
    (hbegins : x.transceiver.begins e = true) (hstep : x.transceiver.step e = some t') :
    Named P ⟨t', first, x.answersAfter a⟩ := by
  unfold Named
  rcases state_of_begins hbegins hstep with hs | hs <;> simp only [hs]
  cases e with
  | start connection =>
    have hend : x.transceiver.state = .eEnd := by simpa [Transceiver.begins] using hbegins
    have hmove : x.transceiver.move (.start connection) = some (_, .eCreateChannel) := if_pos hend
    have hgoto := step_of_move hstep hmove
    rw [hgoto, state_goto] at hs
    rw [hgoto, (queue_goto (by simp [hs])).1]
    intro hexist
    cases (hwell.ended hend).queueExist.symm.trans hexist
  | _ => cases hbegins

/-- A step that leaves the state machine where it is. -/
theorem Named.still (hnamed : x.Named P) (hstep : x.transceiver.step e = some t')
    (hmove : x.transceiver.move e = none) : Named P ⟨t', x.first, x.answersAfter a⟩ := by
  obtain ⟨hexist, hrecvQueue⟩ := queue_still (still_of_no_move hstep hmove)
  have hqueue : t'.queue = x.transceiver.queue := congrArg (·.2.1) (config_step hstep)
  have hanswers := x.answersAfter_subset a
  unfold Named at hnamed ⊢
  simp only [(step_of_no_move hstep hmove).state, hqueue, hexist, hrecvQueue]
  cases hs : x.transceiver.state <;> simp only [hs] at hnamed ⊢
  case eCheckQueue =>
    exact ⟨hnamed.1, hnamed.2.1, fun n name hn hcb ↦ hnamed.2.2 n name hn (hanswers n hcb)⟩
  case eCreateQueue => exact fun n name hn hcb ↦ hnamed n name hn (hanswers n hcb)
  all_goals exact hnamed

/-- The set-up goes on. -/
theorem Named.setsUp {u : Transceiver} {s : State} (hnamed : x.Named P) (hsound : x.Sound)
    (hlistener : x.transceiver.listener = true) (hundisturbed : x.Undisturbed a)
    (hevent : x.event a = some e) (hbegins : x.transceiver.begins e = false)
    (hstep : x.transceiver.step e = some (u.goto s)) (hmove : x.transceiver.move e = some (u, s))
    (hsetsUp : (u.goto s).state.beforeShutdown = true) :
    Named P ⟨u.goto s, x.first, x.answersAfter a⟩ := by
  have hway := way_of_move (hundisturbed e hevent) hbegins hmove
  have hend : u.landing s ≠ .eEnd := fun hend ↦ by
    simp [hend, State.beforeShutdown] at hsetsUp
  obtain ⟨hexist, hrecvQueue⟩ := queue_goto hend
  have hqueue : (u.goto s).queue = x.transceiver.queue := congrArg (·.2.1) (config_step hstep)
  have hbefore := beforeShutdown_of_step hsound.wellFormed hbegins hstep hsetsUp
  have hfirst : x.transceiver.firstAfter x.first e = x.first := by simp [firstAfter_eq, hbegins]
  have hnil (hne : u.landing s ≠ x.transceiver.state) {n : ℕ} (hn : x.first ≤ n) :
      x.answersAfter a n = [] :=
    hsound.answers_eq_nil (hsound.event hundisturbed hevent hstep) hfirst (x.answersAfter_subset a)
      hbefore hsetsUp (by simpa using hne) hn
  unfold Named at hnamed ⊢
  simp only [state_goto, hqueue, hexist, hrecvQueue]
  rcases hway.forward (beforeShutdown_of_landing_setsUp (u.state_goto s ▸ hsetsUp)) with
    ⟨rfl, rfl, rfl, hs⟩ | ⟨n, cb, rfl, hn, hforward⟩
  · simp only [hs] at hnamed
    simpa only [landing_eCreateChannel hend] using hnamed
  · have honward := hforward.onward hlistener
    generalize u.landing s = landing at honward hnil ⊢
    cases honward with
    | opened hs hne =>
      simp only [hs] at hnamed hnil
      refine ⟨hne, hnamed, fun m name hm hcb ↦ ?_⟩
      simp [hnil (by simp) hm] at hcb
    | found name hs =>
      simp only [hs] at hnamed
      exact fun _ ↦ hnamed.2.2 n name hn (mem_of_event hevent rfl).2
    | missing message hs =>
      simp only [hs] at hnamed
      exact hnamed.2.1
    | nameless hs | reopened hs | bound hs | consuming consumer hs =>
      simp only [hs] at hnamed
      exact hnamed
    | exchange hs =>
      simp only [hs] at hnil
      intro m name hm hcb
      simp [hnil (by simp) hm] at hcb
    | existing hs hfound =>
      simp only [hs] at hnamed
      exact hnamed hfound
    | created name hs =>
      simp only [hs] at hnamed
      exact hnamed n name hn (mem_of_event hevent rfl).2

/-- The step lemma. -/
theorem Named.step (hnamed : x.Named P) (hsound : x.Sound)
    (hlistener : x.transceiver.listener = true)
    (hundisturbed : x.Undisturbed a) (hgives : x.Gives P a) (hstep : x.step a = some y) :
    y.Named P := by
  rcases step_cases hstep with ⟨n, verdict, operation, rfl, hnext, rfl⟩ | ⟨e, t', hevent, ht', rfl⟩
  · exact hnamed.execute hsound hgives hnext
  · cases hbegins : x.transceiver.begins e with
    | true => exact named_of_begins hsound.wellFormed hbegins ht'
    | false =>
      rw [firstAfter_eq, hbegins]
      cases hmove : x.transceiver.move e with
      | none => exact hnamed.still ht' hmove
      | some next =>
        obtain ⟨u, s⟩ := next
        obtain rfl := step_of_move ht' hmove
        cases hsetsUp : (u.goto s).state.beforeShutdown with
        | true => exact hnamed.setsUp hsound hlistener hundisturbed hevent hbegins ht' hmove hsetsUp
        | false => exact named_of_late hsetsUp

theorem named_new (exchange queue routeIn : String) : (new exchange queue routeIn).Named P :=
    trivial

end Client

end Transceiver

end AmqpAsio
