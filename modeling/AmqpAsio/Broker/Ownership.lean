import AmqpAsio.Broker.World

/-!
# Whose queue is removed

A listener decides early, by a passive check, whether the queue is its own, and acts on it late:
between the check and its own `declareQueue` lie several round trips, in which another client may
create the queue. The declaration then finds a queue that exists, and the listener that later fails
to bind it removes what is not its own. So it does where the check fails for another reason than
that the queue is missing. As long as it does not, and nobody creates the queue in between
(`Unclaimed`), a listener asks only for the removal of queues that its present run has created.
-/

set_option autoImplicit false
set_option relaxedAutoImplicit false

namespace AmqpAsio

namespace Transceiver

namespace World

variable (x : World)

/-- The broker has told the listener that its queue is missing, and has not carried out the
listener's own `declareQueue` yet. -/
def Window : Prop :=
  match x.client.transceiver.state with
  | .eCheckQueue => ∃ n reason, x.client.first ≤ n ∧ .checkQueueError reason ∈ x.client.answers n
  | .eRecreateChannel => True
  | .eCreateExchange => x.client.transceiver.queueExist = false
  | .eCreateQueue => ∀ n, x.client.first ≤ n → x.client.answers n = []
  | _ => False

/-- The broker refuses the passive check of the present run only if the queue is missing. -/
def RefusesMissing (h : Happening) : Prop :=
  ∀ n reason queue, h = .own (.execute n (.refuse reason)) → x.client.first ≤ n →
    x.client.next n = some (.declarePassive queue) → x.broker.queue queue = false

/-- No lambda of an earlier run acts on the present one, the check of the listener fails only if the
queue is missing, and nobody else creates the queue between the check and the listener's own
declaration. -/
def Unclaimed (h : Happening) : Prop :=
  x.Undisturbed h ∧ x.RefusesMissing h ∧
    (x.Window → x.othersCommand h ≠ some (.declare x.client.transceiver.queue))

/-- Every queue whose removal is asked for between `x` and `y` has been created by the present
run. -/
def OwnRemoved (x y : World) : Prop :=
  ∀ n name, .issued n (.removeQueue name) ∈
      y.client.transceiver.log.drop x.client.transceiver.log.length → name ∈ y.created

/-- What is known of the queue in each state. -/
def Knows (x : World) : Prop :=
  match x.client.transceiver.state with
  | .eCheckQueue => ∀ n reason, x.client.first ≤ n → .checkQueueError reason ∈ x.client.answers n →
      x.broker.queue x.client.transceiver.queue = false
  | .eRecreateChannel => x.broker.queue x.client.transceiver.queue = false
  | .eCreateExchange => x.client.transceiver.queueExist = false →
      x.broker.queue x.client.transceiver.queue = false
  | .eCreateQueue => ((∀ n, x.client.first ≤ n → x.client.answers n = []) →
        x.broker.queue x.client.transceiver.queue = false) ∧
      ∀ n name, x.client.first ≤ n → .createQueueSuccess name ∈ x.client.answers n →
        name ∈ x.created
  | .eBindQueue => x.client.transceiver.queueExist = false →
      x.client.transceiver.recvQueue ∈ x.created
  | .eRemoveQueue => x.client.transceiver.recvQueue ∈ x.created
  | _ => True

/-- The invariant of a listener on a named queue whose runs are not disturbed by earlier ones and
whose queue nobody claims. -/
structure Keeper (x : World) : Prop where
  sound : x.client.Sound
  listener : x.client.transceiver.listener = true
  named : x.client.transceiver.queue ≠ ""
  knows : x.Knows

variable {x} {y : World} {h : Happening} {a : Action} {e : Event} {t' : Transceiver}

/-- The queue stays missing while nobody declares it. -/
theorem Knows.apply {mark : Option ℕ} {c : Command} (hknows : x.Knows)
    (hclaim : x.Window → c ≠ .declare x.client.transceiver.queue) :
    Knows { x with broker := x.broker.apply mark c } := by
  have hmissing (hwindow : x.Window) (hqueue : x.broker.queue x.client.transceiver.queue = false) :
      (x.broker.apply mark c).queue x.client.transceiver.queue = false := by
    by_contra hfound
    exact hclaim hwindow (Broker.eq_declare_of_queue hqueue (by simpa using hfound))
  unfold Knows at hknows ⊢
  unfold Window at hmissing
  cases hs : x.client.transceiver.state <;> simp only [hs] at hknows hmissing ⊢
  case eCheckQueue =>
    exact fun n reason hn hmem ↦ hmissing ⟨n, reason, hn, hmem⟩ (hknows n reason hn hmem)
  case eRecreateChannel => exact hmissing trivial hknows
  case eCreateExchange => exact fun hexist ↦ hmissing hexist (hknows hexist)
  case eCreateQueue => exact ⟨fun hnone ↦ hmissing hnone (hknows.1 hnone), hknows.2⟩
  all_goals exact hknows

/-- The answers to earlier runs make no difference. -/
theorem Knows.congr {answers : ℕ → List Callback} (hknows : x.Knows)
    (hanswers : ∀ n, x.client.first ≤ n → answers n = x.client.answers n) :
    Knows { x with client := { x.client with answers := answers } } := by
  unfold Knows at hknows ⊢
  cases hs : x.client.transceiver.state <;> simp only [hs] at hknows ⊢
  case eCheckQueue => exact fun n reason hn hmem ↦ hknows n reason hn (hanswers n hn ▸ hmem)
  case eCreateQueue =>
    exact ⟨fun hnone ↦ hknows.1 fun n hn ↦ hanswers n hn ▸ hnone n hn,
      fun n name hn hmem ↦ hknows.2 n name hn (hanswers n hn ▸ hmem)⟩
  all_goals exact hknows

/-- Queues are only added to those that the run has created. -/
theorem subset_createdAfter {n : ℕ} {verdict : Verdict} :
    x.created ⊆ x.createdAfter (.execute n verdict) := by
  intro name hname
  unfold createdAfter
  split
  · next hbegins => cases hbegins
  · split
    · split
      · exact List.mem_cons_of_mem _ hname
      · exact hname
    · exact hname

/-- The broker gives its verdict on an operation of an earlier run. -/
theorem Keeper.execute_earlier {n : ℕ} {verdict : Verdict} {operation : Operation}
    (hkeeper : x.Keeper) (hunclaimed : x.Unclaimed (.own (.execute n verdict)))
    (hn : n < x.client.first) (hnext : x.client.next n = some operation) :
    Knows ⟨{ x.client with answers := x.client.answersWith n (operation.answer verdict) },
      x.brokerAfter (.execute n verdict), x.createdAfter (.execute n verdict)⟩ := by
  have hanswers : ∀ m, x.client.first ≤ m →
      x.client.answersWith n (operation.answer verdict) m = x.client.answers m := by
    intro m hm
    simp [Client.answersWith, show m ≠ n by omega]
  have hcommand : x.client.command (.execute n verdict) = (operation.command verdict).map
    (n, ·) := by
    simp [Client.command, hnext]
  cases hc : operation.command verdict with
  | none =>
    have hsame : x.brokerAfter (.execute n verdict) = x.broker ∧
        x.createdAfter (.execute n verdict) = x.created := by
      simp [brokerAfter, createdAfter, hcommand, hc, Client.begins, Client.event]
    rw [hsame.1, hsame.2]
    exact hkeeper.knows.congr hanswers
  | some c =>
    have hsame : x.brokerAfter (.execute n verdict) = x.broker.apply (some n) c ∧
        x.createdAfter (.execute n verdict) = x.created := by
      refine ⟨by simp [brokerAfter, hcommand, hc], ?_⟩
      cases c <;> simp [createdAfter, hcommand, hc, Client.begins, Client.event, Nat.not_le.mpr hn]
    have hothers : x.othersCommand (.own (.execute n verdict)) = some c := by
      simp [othersCommand, hcommand, hc, hn]
    rw [hsame.1, hsame.2]
    exact Knows.congr (hkeeper.knows.apply fun hwindow hclaim ↦
      hunclaimed.2.2 hwindow (hothers.trans (congrArg some hclaim))) hanswers

/-- The broker gives its verdict on an operation of the present run. -/
theorem Keeper.execute_present {n : ℕ} {verdict : Verdict} {operation : Operation}
    (hkeeper : x.Keeper) (hmissing : x.RefusesMissing (.own (.execute n verdict)))
    (hn : x.client.first ≤ n) (hnext : x.client.next n = some operation) :
    Knows ⟨{ x.client with answers := x.client.answersWith n (operation.answer verdict) },
      x.brokerAfter (.execute n verdict), x.createdAfter (.execute n verdict)⟩ := by
  have hcommand : x.client.command (.execute n verdict) = (operation.command verdict).map
    (n, ·) := by
    simp [Client.command, hnext]
  have hknows := hkeeper.knows
  have hsetsUp (hs : x.client.transceiver.state.beforeShutdown = true) :=
    hkeeper.sound.next_setsUp hs hn hnext
  have hwith {m : ℕ} {cb : Callback} (hm : x.client.first ≤ m)
      (hnil : ∀ m, x.client.first ≤ m → x.client.answers m = [])
      (hmem : cb ∈ x.client.answersWith n (operation.answer verdict) m) :
      cb = operation.answer verdict := by
    unfold Client.answersWith at hmem
    split at hmem
    · simpa [hnil n hn] using hmem
    · simp [hnil m hm] at hmem
  unfold Knows at hknows ⊢
  cases hs : x.client.transceiver.state <;> simp only [hs] at hknows ⊢
  case eCheckQueue =>
    obtain ⟨hawaited, hnil⟩ := hsetsUp (by rw [hs]; rfl)
    obtain rfl : .declarePassive x.client.transceiver.queue = operation := by
      simpa [awaited, hs] using hawaited
    intro m reason hm hmem
    have hanswer := hwith hm hnil hmem
    cases verdict with
    | accept name => cases hanswer
    | refuse reason =>
      simpa [brokerAfter, hcommand, Operation.command] using hmissing n reason _ rfl hn hnext
  case eRecreateChannel =>
    obtain ⟨hawaited, -⟩ := hsetsUp (by rw [hs]; rfl)
    simp [awaited, hs] at hawaited
  case eCreateExchange =>
    obtain ⟨hawaited, -⟩ := hsetsUp (by rw [hs]; rfl)
    obtain rfl : .declareExchange x.client.transceiver.exchange exchangeCreationFlags =
      operation := by
      simpa [awaited, hs] using hawaited
    simpa [brokerAfter, hcommand, Operation.command] using hknows
  case eCreateQueue =>
    obtain ⟨hawaited, hnil⟩ := hsetsUp (by rw [hs]; rfl)
    obtain rfl : .declareQueue x.client.transceiver.queue x.client.transceiver.qFlags =
      operation := by
      simpa [awaited, hs] using hawaited
    refine ⟨fun hnone ↦ ?_, fun m name hm hmem ↦ ?_⟩
    · simpa [Client.answersWith] using hnone n hn
    · have hanswer := hwith hm hnil hmem
      cases verdict with
      | refuse reason => cases hanswer
      | accept given =>
        obtain rfl : name = declaredName x.client.transceiver.queue given :=
          Callback.createQueueSuccess.inj hanswer
        have hname : declaredName x.client.transceiver.queue
          given = x.client.transceiver.queue := by
          simp [declaredName, hkeeper.named]
        simp [createdAfter, hcommand, Operation.command, Client.begins, Client.event, hn, hname,
          hknows.1 hnil]
  case eBindQueue => exact fun hexist ↦ subset_createdAfter (hknows hexist)
  case eRemoveQueue => exact subset_createdAfter hknows

/-- An event of the listener. -/
theorem Keeper.event (hkeeper : x.Keeper) (hundisturbed : x.client.Undisturbed a)
    (hevent : x.client.event a = some e) (hstep : x.client.transceiver.step e = some t') :
    Knows ⟨⟨t', x.client.transceiver.firstAfter x.client.first e, x.client.answersAfter a⟩,
      x.broker, x.createdAfter a⟩ := by
  have hqueue : t'.queue = x.client.transceiver.queue := congrArg (·.2.1) (config_step hstep)
  cases hbegins : x.client.transceiver.begins e with
  | true =>
    unfold Knows
    rcases state_of_begins hbegins hstep with hs | hs <;> simp only [hs]
  | false =>
    have hcreated : x.createdAfter a = x.created := by
      have hcommand : x.client.command a = none := by cases a <;> first | rfl | cases hevent
      simp [createdAfter, Client.begins, hevent, hbegins, hcommand]
    have hfirst : x.client.transceiver.firstAfter x.client.first e = x.client.first := by
      simp [firstAfter_eq, hbegins]
    have hsound := hkeeper.sound
    have hknows := hkeeper.knows
    rw [hcreated, hfirst]
    cases hmove : x.client.transceiver.move e with
    | none =>
      obtain ⟨hexist, hrecvQueue⟩ := queue_still (still_of_no_move hstep hmove)
      have hsame (hs : x.client.transceiver.state.beforeShutdown = true) {n : ℕ}
          (hn : x.client.first ≤ n) := hsound.answersAfter_eq hs hevent hmove hn
      unfold Knows at hknows ⊢
      rw [(step_of_no_move hstep hmove).state, hqueue, hexist, hrecvQueue]
      cases hs : x.client.transceiver.state <;> simp only [hs] at hknows ⊢
      case eCheckQueue =>
        exact fun n reason hn hmem ↦
          hknows n reason hn (x.client.answersAfter_subset a n hmem)
      case eCreateQueue =>
        rw [hs] at hsame
        exact ⟨fun hnone ↦ hknows.1 fun n hn ↦ hsame rfl hn ▸ hnone n hn,
          fun n name hn hmem ↦ hknows.2 n name hn (x.client.answersAfter_subset a n hmem)⟩
      all_goals exact hknows
    | some next =>
      obtain ⟨u, s⟩ := next
      have hway := way_of_move (hundisturbed e hevent) hbegins hmove
      have hgoto := step_of_move hstep hmove
      have hstate : t'.state = u.landing s := by rw [hgoto, state_goto]
      cases hsetsUp : t'.state.beforeShutdown with
      | false =>
        unfold Knows
        cases hs : t'.state <;> simp only
        case eRemoveQueue =>
          obtain ⟨hbind, hexist, hrecvQueue⟩ := hway.remove (hstate.symm.trans hs)
          have hqueue' : t'.recvQueue = x.client.transceiver.recvQueue := by
            rw [hgoto, (queue_goto (by simp [← hstate, hs])).2, hrecvQueue]
          simp only [Knows, hbind] at hknows
          exact hqueue' ▸ hknows hexist
        all_goals simp [hs, State.beforeShutdown] at hsetsUp
      | true =>
        have hend : u.landing s ≠ .eEnd := fun hend ↦ by
          simp [hstate, hend, State.beforeShutdown] at hsetsUp
        obtain ⟨hexist, hrecvQueue⟩ := hgoto ▸ queue_goto hend
        have hbefore := beforeShutdown_of_step hsound.wellFormed hbegins hstep hsetsUp
        have hsound' : Client.Sound ⟨t', x.client.first, x.client.answersAfter a⟩ :=
          hfirst ▸ hsound.event hundisturbed hevent hstep
        have hnil (hne : t'.state ≠ x.client.transceiver.state) {n : ℕ} (hn : x.client.first ≤ n) :
            x.client.answersAfter a n = [] :=
          hsound.answers_eq_nil hsound' rfl (x.client.answersAfter_subset a) hbefore hsetsUp hne hn
        unfold Knows at hknows ⊢
        rw [hqueue, hexist, hrecvQueue]
        rcases hway.forward (beforeShutdown_of_landing_setsUp (hstate ▸ hsetsUp)) with
          ⟨rfl, rfl, rfl, -⟩ | ⟨n, cb, rfl, hn, hforward⟩
        · simp only [hstate, landing_eCreateChannel hend]
        · cases hforward with
          | opened hs =>
            change x.client.transceiver.state = _ at hs
            have hs' : t'.state = .eCheckQueue := by
              rw [hstate]
              simp [landing, path, delivering, setOnError, onChannel, hkeeper.listener,
                hkeeper.named]
            simp only [hs']
            intro m reason hm hmem
            simp [hnil (by simp [hs, hs']) hm] at hmem
          | found name hs =>
            have hs' : t'.state = .eCreateExchange := hstate
            simp [hs']
          | missing reason hs =>
            change x.client.transceiver.state = _ at hs
            have hs' : t'.state = .eRecreateChannel := hstate
            simp only [hs, hs'] at hknows ⊢
            exact hknows n reason hn (Client.mem_of_event hevent rfl).2
          | reopened hs =>
            change x.client.transceiver.state = _ at hs
            have hs' : t'.state = .eCreateExchange := hstate
            simp only [hs, hs'] at hknows ⊢
            exact fun _ ↦ hknows
          | exchange hs =>
            change x.client.transceiver.state = _ at hs
            simp only [hs] at hknows
            cases hfound : x.client.transceiver.queueExist with
            | true =>
              have hs' : t'.state = .eBindQueue := by
                rw [hstate]
                simp [landing, path, delivering, hkeeper.listener, hfound]
              simp [hs', delivering, hfound]
            | false =>
              have hs' : t'.state = .eCreateQueue := by
                rw [hstate]
                simp [landing, path, delivering, hkeeper.listener, hfound]
              simp only [hs']
              refine ⟨fun _ ↦ hknows hfound, fun m name hm hmem ↦ ?_⟩
              simp [hnil (by simp [hs, hs']) hm] at hmem
          | created name hs =>
            change x.client.transceiver.state = _ at hs
            have hs' : t'.state = .eBindQueue := hstate
            simp only [hs, hs'] at hknows ⊢
            exact fun _ ↦ hknows.2 n name hn (Client.mem_of_event hevent rfl).2
          | bound hs =>
            have hs' : t'.state = .eCreateConsumer := hstate
            simp [hs']
          | consuming consumer hs =>
            have hs' : t'.state = .eReady := hstate
            simp [hs']

/-- The step lemma. -/
theorem Keeper.step (hkeeper : x.Keeper) (hunclaimed : x.Unclaimed h) (hstep : x.step h = some y) :
    y.Keeper := by
  cases h with
  | foreign c =>
    obtain rfl := Option.some.inj hstep
    exact ⟨hkeeper.sound, hkeeper.listener, hkeeper.named,
      hkeeper.knows.apply fun hwindow hclaim ↦ hunclaimed.2.2 hwindow (hclaim ▸ rfl)⟩
  | own a =>
    obtain ⟨-, client, hclient, rfl⟩ := step_own hstep
    have hundisturbed := hunclaimed.1 a rfl
    have hsound := hkeeper.sound.step hundisturbed hclient
    rcases Client.step_cases hclient with
      ⟨n, verdict, operation, rfl, hnext, rfl⟩ | ⟨e, t', hevent, ht', rfl⟩
    · refine ⟨hsound, hkeeper.listener, hkeeper.named, ?_⟩
      rcases Nat.lt_or_ge n x.client.first with hn | hn
      · exact hkeeper.execute_earlier hunclaimed hn hnext
      · exact hkeeper.execute_present hunclaimed.2.1 hn hnext
    · have hconfig := config_step ht'
      refine ⟨hsound, (congrArg (·.2.2.2) hconfig).trans hkeeper.listener, ?_, ?_⟩
      · exact (congrArg (·.2.1) hconfig : t'.queue = x.client.transceiver.queue) ▸ hkeeper.named
      · rw [brokerAfter_of_event hevent]
        exact hkeeper.event hundisturbed hevent ht'

theorem Keeper.of_reachedBy (hreachable : machine.ReachedBy Unclaimed x)
    (hnamed : x.client.transceiver.queue ≠ "") : x.Keeper := by
  refine hreachable.invariant (I := fun x ↦ x.client.transceiver.queue ≠ "" → x.Keeper) ?_ ?_ hnamed
  · rintro ⟨_, broker, created⟩ ⟨exchange, queue, routeIn, rfl, -, -⟩ hnamed
    exact ⟨Client.sound_new _ _ _, rfl, hnamed, trivial⟩
  · intro x h y hkeeper hunclaimed hstep hnamed
    have hqueue : y.client.transceiver.queue = x.client.transceiver.queue :=
      congrArg (·.2.1) (config_world_step hstep)
    exact (hkeeper (hqueue ▸ hnamed)).step hunclaimed hstep

/-- In every run of a listener on a named queue that lambdas of earlier runs do not disturb, whose
check fails only if the queue is missing, and whose queue nobody else creates between the check and
the listener's declaration, the listener asks only for the removal of queues that its present run
has created. -/
theorem ownRemoved_of_reachedBy (hreachable : machine.ReachedBy Unclaimed x)
    (hunclaimed : x.Unclaimed h) (hnamed : x.client.transceiver.queue ≠ "")
    (hstep : x.step h = some y) : OwnRemoved x y := by
  have hkeeper := (Keeper.of_reachedBy hreachable hnamed).step hunclaimed hstep
  intro n name hissued
  rcases transceiver_step hstep with ⟨e, he⟩ | heq
  · obtain ⟨new, heffect⟩ := effect_of_step he
    rw [heffect.log, List.drop_left] at hissued
    have hrequest := (heffect.issued n _ hissued).2
    have hs : y.client.transceiver.state = .eRemoveQueue := (request_state hrequest).symm
    have hname : y.client.transceiver.recvQueue = name := by simpa [request, hs] using hrequest
    have hknows := hkeeper.knows
    simp only [Knows, hs] at hknows
    exact hname ▸ hknows
  · rw [heq, List.drop_length] at hissued
    cases hissued

/-- A listener on the queue `orders`, which is missing. -/
def listening : World := ⟨Client.new "exchange" "orders" "orders", Broker.empty, []⟩

/-- The listener finds its queue missing and declares its exchange. -/
def missed : List Happening :=
  [.own (.call (.start (some 0))), .own (.call (.callback 0 .createChannelReady)),
    .own (.execute 0 (.refuse "NOT_FOUND - no queue 'orders'")), .own (.deliver 0),
    .own (.call (.callback 1 .recreateChannelReady)), .own (.execute 1 (.accept "")),
    .own (.deliver 1)]

/-- It declares the queue and is refused the binding. -/
def refused : List Happening :=
  [.own (.execute 1 (.accept "")), .own (.deliver 1), .own (.execute 1 (.refuse "ACCESS_REFUSED")),
    .own (.deliver 1)]

theorem refusesMissing_of_next {n : ℕ} {verdict : Verdict} {operation : Operation}
    (hnext : x.client.next n = some operation) (hcheck : operation.state ≠ .eCheckQueue) :
    x.RefusesMissing (.own (.execute n verdict)) := by
  intro m reason queue hexecute _ hcheck'
  obtain ⟨rfl, -⟩ := Action.execute.inj (Happening.own.inj hexecute)
  obtain rfl : operation = .declarePassive queue := Option.some.inj (hnext.symm.trans hcheck')
  exact absurd rfl hcheck

/-- Where nobody else is about, the queue that is removed is the listener's own. -/
theorem ownRemoved_refused :
    ∃ x y, machine.run listening (missed ++ refused) = some x ∧
      x.step (.own (.call (.callback 2 .removeQueueReady))) = some y ∧
      .issued 2 (.removeQueue "orders") ∈
        y.client.transceiver.log.drop x.client.transceiver.log.length ∧
      OwnRemoved x y := by
  have hfirst₁ {x : World} (a : Action) (hfirst : x.client.first = 0)
      (hmissing : x.RefusesMissing (.own a)) : x.Unclaimed (.own a) := by
    refine ⟨fun _ _ e _ n cb _ hn ↦ absurd hn (by omega), hmissing, fun _ hothers ↦ ?_⟩
    cases hc : x.client.command a <;> simp [othersCommand, hc, hfirst] at hothers
  have hfirst {x : World} (a : Action) (hfirst : x.client.first = 0)
      (hnot : ∀ n reason, a ≠ .execute n (.refuse reason)) : x.Unclaimed (.own a) :=
    hfirst₁ a hfirst fun n reason queue ha ↦ absurd (Happening.own.inj ha) (hnot n reason)
  obtain ⟨x, y, hrun, hstep, hissued, hzero, hnamed⟩ : ∃ x y,
      machine.run listening (missed ++ refused) = some x ∧
      x.step (.own (.call (.callback 2 .removeQueueReady))) = some y ∧
      .issued 2 (.removeQueue "orders") ∈
        y.client.transceiver.log.drop x.client.transceiver.log.length ∧
      x.client.first = 0 ∧ x.client.transceiver.queue = "orders" :=
    ⟨_, _, rfl, rfl, by decide, rfl, rfl⟩
  refine ⟨x, y, hrun, hstep, hissued, ownRemoved_of_reachedBy
    ⟨listening, missed ++ refused, ⟨_, _, _, rfl, fun _ _ _ h ↦ (by cases h), rfl⟩, hrun, ?_⟩
    (hfirst _ hzero (by simp)) (by simp [hnamed]) hstep⟩
  refine Machine.meets_cons (hfirst _ rfl (by simp)) rfl ?_
  refine Machine.meets_cons (hfirst _ rfl (by simp)) rfl ?_
  refine Machine.meets_cons (hfirst₁ _ rfl fun _ _ _ _ _ _ ↦ rfl) rfl ?_
  refine Machine.meets_cons (hfirst _ rfl (by simp)) rfl ?_
  refine Machine.meets_cons (hfirst _ rfl (by simp)) rfl ?_
  refine Machine.meets_cons (hfirst _ rfl (by simp)) rfl ?_
  refine Machine.meets_cons (hfirst _ rfl (by simp)) rfl ?_
  refine Machine.meets_cons (hfirst _ rfl (by simp)) rfl ?_
  refine Machine.meets_cons (hfirst _ rfl (by simp)) rfl ?_
  refine Machine.meets_cons (hfirst₁ _ rfl (@refusesMissing_of_next _ 1 _
    (.bindQueue "exchange" "orders" "orders") rfl (by decide))) rfl ?_
  exact Machine.meets_cons (hfirst _ rfl (by simp)) rfl trivial

/-- Another client creates the queue after the listener's check. The declaration finds it, the
binding is refused, and the listener asks for the removal of a queue that is not its own. -/
theorem not_ownRemoved_claimed :
    ∃ x y, machine.run listening (missed ++ .foreign (.declare "orders") :: refused) = some x ∧
      x.step (.own (.call (.callback 2 .removeQueueReady))) = some y ∧ ¬ OwnRemoved x y := by
  obtain ⟨x, y, hrun, hstep, hissued, hcreated⟩ : ∃ x y,
      machine.run listening (missed ++ .foreign (.declare "orders") :: refused) = some x ∧
      x.step (.own (.call (.callback 2 .removeQueueReady))) = some y ∧
      .issued 2 (.removeQueue "orders") ∈
        y.client.transceiver.log.drop x.client.transceiver.log.length ∧
      y.created = [] := ⟨_, _, rfl, rfl, by decide, rfl⟩
  refine ⟨x, y, hrun, hstep, fun h ↦ ?_⟩
  have hname := h 2 "orders" hissued
  rw [hcreated] at hname
  cases hname

/-- The queue exists from the beginning, and the broker refuses the check for another reason. -/
def denied : List Happening :=
  [.foreign (.declare "orders"), .own (.call (.start (some 0))),
    .own (.call (.callback 0 .createChannelReady)), .own (.execute 0 (.refuse "RESOURCE_LOCKED")),
    .own (.deliver 0), .own (.call (.callback 1 .recreateChannelReady)),
    .own (.execute 1 (.accept "")), .own (.deliver 1)]

/-- Any failure of the check counts as a missing queue, and the listener asks for the removal of a
queue that it has found. -/
theorem not_ownRemoved_denied :
    ∃ x y, machine.run listening (denied ++ refused) = some x ∧
      x.step (.own (.call (.callback 2 .removeQueueReady))) = some y ∧ ¬ OwnRemoved x y := by
  obtain ⟨x, y, hrun, hstep, hissued, hcreated⟩ : ∃ x y,
      machine.run listening (denied ++ refused) = some x ∧
      x.step (.own (.call (.callback 2 .removeQueueReady))) = some y ∧
      .issued 2 (.removeQueue "orders") ∈
        y.client.transceiver.log.drop x.client.transceiver.log.length ∧
      y.created = [] := ⟨_, _, rfl, rfl, by decide, rfl⟩
  refine ⟨x, y, hrun, hstep, fun h ↦ ?_⟩
  have hname := h 2 "orders" hissued
  rw [hcreated] at hname
  cases hname

end World

end Transceiver

end AmqpAsio
