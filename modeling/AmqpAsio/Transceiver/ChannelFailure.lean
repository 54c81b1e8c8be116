import AmqpAsio.Transceiver.Tracking

/-!
# The failure of the current channel

When a channel fails, AMQP-CPP reports it to the operations still pending on the channel, in order,
and then to the `onError` lambda of the channel (`fail`). A transceiver under way should hear of the
failure of its current channel in every state. `failureNoticed_iff` says in which states it does:
in all but two. A listener in `eReady` has no lambda left once its consumer has been confirmed, and
a listener in `eShutdown` has none once the confirmation of another consumer's end has been taken
for an answer to its `cancel`.
-/

set_option autoImplicit false
set_option relaxedAutoImplicit false

namespace AmqpAsio

namespace Transceiver

variable {t t' u : Transceiver} {n : ℕ}

/-! ### The report of a failure -/

/-- The calls by which the pending operations of a channel are told of its failure. -/
def reportPending (n : ℕ) (report : List (Operation × String)) : List Event :=
  report.map fun r ↦ .callback n (r.1.error r.2)

/-- The call by which the `onError` lambda of a channel, if there is one, is told of its failure. -/
def reportChannel (t : Transceiver) (n : ℕ) (message : String) : Option Transceiver :=
  match (t.channels[n]?).bind (·.onError) with
  | some handler => machine.step t (.callback n (handler.callback message))
  | none => some t

/-- AMQP-CPP reports the failure of a channel: to its pending operations, then to its `onError`
lambda. -/
def fail (t : Transceiver) (n : ℕ) (report : List (Operation × String)) (message : String) :
    Option Transceiver :=
  (machine.run t (reportPending n report)).bind (·.reportChannel n message)

/-- A transceiver has heard of the failure of its channel: it has left its state for the teardown,
the end, or, where the queue was being checked, for a new channel; and if it was ready, it has ended
with the error for that. -/
structure Noticed (t t' : Transceiver) : Prop where
  left : t'.state ≠ t.state
  target : t'.state.beforeShutdown = false ∨ t.state = .eCheckQueue ∧ t'.state = .eRecreateChannel
  ready : t.state = .eReady → t'.state = .eEnd ∧ t'.ec = .eChannelAbruptlyClosedError

/-- Every report of the failure of the current channel is heard. -/
def FailureNoticed (t : Transceiver) : Prop :=
  ∀ n c report message, t.channel = some n → t.channels[n]? = some c →
    report.map Prod.fst = c.pending → ∃ t', t.fail n report message = some t' ∧ Noticed t t'

/-- The operations pending on the current channel. -/
def pendingOperations (t : Transceiver) : List Operation :=
  ((t.channel.bind (t.channels[·]?)).map (·.pending)).getD []

/-- No lambda is left that would act on the failure: a listener is ready and its `consume` is no
longer pending, or it is being stopped and its `cancel` is no longer pending. -/
def Unheard (t : Transceiver) : Prop :=
  (t.listener ∧ t.state = .eReady ∧ ∀ o ∈ t.pendingOperations, o.state ≠ .eCreateConsumer) ∨
    t.state = .eShutdown ∧ ∀ o ∈ t.pendingOperations, o.state ≠ .eShutdown

/-! ### The lambdas for failures -/

/-- The state to which the lambda for the failure of an operation goes. -/
def Operation.failTarget : Operation → State
  | .declarePassive _ => .eRecreateChannel
  | .declareExchange _ _ | .declareQueue _ _ => .eCloseChannel
  | .bindQueue _ _ _ => .eRemoveQueue
  | .consume _ | .cancel _ => .eUnbindQueue
  | .unbindQueue _ _ _ | .removeQueue _ | .close => .eEnd

/-- The state in which the lambda for the failure of a channel acts; the one of a sender that is
ready acts in every state. -/
def ErrorHandler.state : ErrorHandler → Option State
  | .createChannel => some .eCreateChannel
  | .recreateChannel => some .eRecreateChannel
  | .ready => none
  | .unbindQueue => some .eUnbindQueue
  | .removeQueue => some .eRemoveQueue

/-- The lambda for the failure of an operation goes somewhere: the operation is the one of the
state, it is the consumer of a listener that is ready, or it does not belong to the set-up. -/
def Hears (t : Transceiver) (operation : Operation) : Prop :=
  operation.SetsUp →
    operation.state = t.state ∨ operation.state = .eCreateConsumer ∧ t.state = .eReady

theorem Operation.Ends.hears {operation : Operation} (h : operation.Ends) : t.Hears operation := by
  intro hsetsUp
  cases operation <;> simp_all [Operation.Ends, Operation.SetsUp, Operation.state,
    State.beforeShutdown]

/-- An operation of the set-up is heard only before the shutdown, and not while the channel is being
replaced. -/
theorem Hears.state {operation : Operation} (h : t.Hears operation) (hsetsUp : operation.SetsUp) :
    t.state.beforeShutdown = true ∧ t.state ≠ .eRecreateChannel := by
  rcases h hsetsUp with hstate | ⟨-, hstate⟩
  · refine ⟨hstate ▸ hsetsUp, hstate ▸ ?_⟩
    cases operation <;> simp [Operation.state]
  · simp [hstate, State.beforeShutdown]

theorem reports_error (operation : Operation) (message : String) :
    operation.reports (operation.error message) = true := by
  cases operation <;> rfl

theorem aside_error (t : Transceiver) (operation : Operation) (message : String) :
    t.aside (operation.error message) = t := by
  cases operation <;> rfl

/-- The failure of an operation that is not heard changes nothing. -/
theorem reaction_error_eq_none {operation : Operation} (message : String)
    (h : ¬ t.Hears operation) : t.reaction (operation.error message) = none := by
  cases operation <;>
    simp_all [Hears, Operation.SetsUp, Operation.state, State.beforeShutdown, Operation.error,
      reaction, eq_comm]

/-- The failure of an operation that is heard goes to its target, or, for the consumer of a listener
that is ready, to the end. -/
theorem reaction_error_of_hears {operation : Operation} (message : String)
    (h : t.Hears operation) :
    ∃ u s, t.reaction (operation.error message) = some (u, s) ∧ u.channels = t.channels ∧
      (s = operation.failTarget ∧ (operation.SetsUp → operation.state = t.state) ∨
        t.state = .eReady ∧ s = .eEnd ∧ u.ec = .eChannelAbruptlyClosedError) := by
  cases operation with
  | consume queue =>
    rcases h rfl with hstate | ⟨-, hstate⟩
    · exact ⟨_, _, if_pos hstate.symm, rfl, Or.inl ⟨rfl, fun _ ↦ hstate⟩⟩
    · have hne : t.state ≠ .eCreateConsumer := by simp [hstate]
      exact ⟨_, _, (if_neg hne).trans (if_pos hstate), rfl, Or.inr ⟨hstate, rfl, rfl⟩⟩
  | declarePassive | declareExchange | declareQueue | bindQueue =>
    have hstate := (h rfl).resolve_right (by simp [Operation.state])
    exact ⟨_, _, if_pos hstate.symm, rfl, Or.inl ⟨rfl, fun _ ↦ hstate⟩⟩
  | _ => exact ⟨_, _, rfl, rfl, Or.inl ⟨rfl, fun hsetsUp ↦ by cases hsetsUp⟩⟩

theorem failTarget_of_ends {operation : Operation} (h : operation.Ends) :
    operation.failTarget = .eEnd := by
  cases operation <;> simp_all [Operation.Ends, Operation.state, Operation.failTarget]

/-- Where the failure of an operation of the set-up leads, no operation of the set-up is heard. -/
theorem landing_failTarget (u : Transceiver) (operation : Operation) :
    (u.landing operation.failTarget).beforeShutdown = false ∨
      operation.state = .eCheckQueue ∧ u.landing operation.failTarget = .eRecreateChannel := by
  have hlanding {s : State} (hs : s.beforeShutdown = false) :
      (u.landing s).beforeShutdown = false :=
    beforeShutdown_of_mem_path hs (u.landing_mem_path s)
  cases operation with
  | declarePassive => exact Or.inr ⟨rfl, rfl⟩
  | _ => exact Or.inl (hlanding rfl)

/-! ### A channel in the middle of the report -/

/-- The pending operations of a channel are a prefix of what they are later. -/
def Extends (n : ℕ) (t t' : Transceiver) : Prop :=
  ∀ c, t.channels[n]? = some c →
    ∃ c' more, t'.channels[n]? = some c' ∧ c'.pending = c.pending ++ more

theorem Extends.refl (n : ℕ) (t : Transceiver) : Extends n t t :=
  fun c hc ↦ ⟨c, [], hc, by simp⟩

theorem Extends.trans {t'' : Transceiver} (h : Extends n t t') (h' : Extends n t' t'') :
    Extends n t t'' := by
  intro c hc
  obtain ⟨c', more, hc', hmore⟩ := h c hc
  obtain ⟨c'', more', hc'', hmore'⟩ := h' c' hc'
  exact ⟨c'', more ++ more', hc'', by rw [hmore', hmore, List.append_assoc]⟩

theorem extends_onChannel (n : ℕ) (t : Transceiver) {f : Channel → Channel}
    (hf : ∀ c, ∃ more, (f c).pending = c.pending ++ more) : Extends n t (t.onChannel f) := by
  intro c hc
  cases hchannel : t.channel with
  | none => exact ⟨c, [], by simp [onChannel, hchannel, hc], by simp⟩
  | some k =>
    by_cases hk : k = n
    · obtain ⟨more, hmore⟩ := hf c
      exact ⟨f c, more, by simp [onChannel, hchannel, hk, hc], hmore⟩
    · exact ⟨c, [], by simp [onChannel, hchannel, hk, hc], by simp⟩

theorem extends_newChannel (n : ℕ) (t : Transceiver) (ready : ReadyHandler) (error : ErrorHandler) :
    Extends n t (t.newChannel ready error) := by
  intro c hc
  have hlt : n < t.channels.length := (List.getElem?_eq_some_iff.mp hc).1
  exact ⟨c, [], by simp [newChannel, List.getElem?_append_left hlt, hc], by simp⟩

/-- A call of `StateMachine()` takes nothing away that is pending. -/
theorem extends_goto (n : ℕ) (t : Transceiver) (s : State) : Extends n t (t.goto s) := by
  have hissue (v : Transceiver) (operation : Operation) : Extends n v (v.issue operation) :=
    extends_onChannel n v fun c ↦ ⟨[operation], rfl⟩
  have hclose (v : Transceiver) : Extends n v v.closeOld :=
    extends_onChannel n v fun c ↦ ⟨[], by simp⟩
  have hnew (v : Transceiver) (ready : ReadyHandler) (error : ErrorHandler) :
      Extends n v (v.closeOld.newChannel ready error) :=
    (hclose v).trans (extends_newChannel n _ ready error)
  have harrive (v : Transceiver) : Extends n v v.arrive := by
    cases hstate : v.state <;> simp only [arrive, hstate]
    case eCreateChannel => exact extends_newChannel n v _ _
    case eReady =>
      unfold atReady
      split
      · exact Extends.refl n v
      · exact extends_onChannel n v fun c ↦ ⟨[], by simp⟩
    case eEnd => exact Extends.refl n v
    all_goals first | exact hissue v _ | exact hnew v _ _
  have hpassing : Extends n t ((t.passingError s).passing (t.path s)) := by
    unfold passingError
    split <;> exact Extends.refl n t
  rw [goto_eq]
  exact hpassing.trans (harrive _)

/-- With a channel, a call of `StateMachine()` uses no null pointer. -/
theorem crashed_goto {s : State} (hchannel : t.channel.isSome) :
    (t.goto s).crashed = t.crashed := by
  have harrive (v : Transceiver) (hv : v.channel.isSome) : v.arrive.crashed = v.crashed := by
    have hnone : v.channel.isNone = false := by simpa using hv
    cases hstate : v.state <;> simp only [arrive, hstate]
    case eReady => unfold atReady; split <;> simp [setOnError, onChannel, hnone]
    all_goals simp [issue, observe, onChannel, newChannel, closeOld, atEnd, hnone]
  rw [goto_eq, harrive]
  · unfold passing passingError
    split <;> rfl
  · unfold passing passingError
    split <;> exact hchannel

/-- A transceiver that is well-formed and running, at a moment when the listed operations are the
next ones of a channel to be told of its failure. -/
structure Reporting (n : ℕ) (operations : List Operation) (t : Transceiver) : Prop where
  wellFormed : t.WellFormed
  crashed : t.crashed = false
  pending : ∃ c more, t.channels[n]? = some c ∧ c.pending = operations ++ more

section Reporting

variable {operation : Operation} {operations : List Operation}

/-- The next operation can be told. -/
theorem Reporting.step (h : t.Reporting n (operation :: operations)) (message : String) :
    machine.step t (.callback n (operation.error message)) =
      some (t.deliver n (operation.error message)) := by
  obtain ⟨c, more, hc, hpending⟩ := h.pending
  have hregistered : c.registered (operation.error message) = true := by
    simp [Channel.registered, hpending, reports_error]
  simp [Transceiver.step, h.crashed, hc, hregistered]

theorem Reporting.delivering (h : t.Reporting n (operation :: operations)) (message : String) :
    (t.delivering n (operation.error message)).Reporting n operations := by
  obtain ⟨c, more, hc, hpending⟩ := h.pending
  refine ⟨h.wellFormed.delivering n _, h.crashed, c.deliver (operation.error message), more, ?_, ?_⟩
  · simp [Transceiver.delivering, hc]
  · simp [Channel.deliver, hpending, reports_error]

/-- An operation that is not heard is told without effect. -/
theorem Reporting.unheard (h : t.Reporting n (operation :: operations)) (message : String)
    (hhears : ¬ t.Hears operation) :
    machine.step t (.callback n (operation.error message)) =
      some (t.delivering n (operation.error message)) := by
  rw [h.step message, deliver_eq, call_of_no_reaction, aside_error]
  exact reaction_delivering_eq_none.mpr (reaction_error_eq_none message hhears)

/-- An operation that is heard is told with effect. -/
theorem Reporting.heard (h : t.Reporting n (operation :: operations)) (message : String)
    (hhears : t.Hears operation) (hend : t.state = .eEnd → operation.Ends) :
    ∃ (u : Transceiver) (s : State), machine.step t (.callback n (operation.error message)) =
      some (u.goto s) ∧ (u.goto s).Reporting n operations ∧
      (s = operation.failTarget ∧ (operation.SetsUp → operation.state = t.state) ∨
        t.state = .eReady ∧ s = .eEnd ∧ u.ec = .eChannelAbruptlyClosedError) := by
  obtain ⟨u, s, hreaction, hchannels, htarget⟩ :=
    reaction_error_of_hears (t := t.delivering n (operation.error message)) message hhears
  have hstep : machine.step t (.callback n (operation.error message)) = some (u.goto s) := by
    rw [h.step message, deliver_eq, call_of_reaction hreaction]
  have hwell := wellFormed_step (e := .callback n (operation.error message)) h.wellFormed hstep
  refine ⟨u, s, hstep, ⟨hwell, ?_, ?_⟩, htarget⟩
  · have hprepared := reaction_prepared hreaction
    by_cases hstate : t.state = .eEnd
    · have hs : s = .eEnd := by
        rcases htarget with ⟨rfl, -⟩ | ⟨-, rfl, -⟩
        · exact failTarget_of_ends (hend hstate)
        · rfl
      by_contra hcrash
      have hclose := hwell.crashed (by simpa using hcrash)
      simp [hs, landing, path] at hclose
    · obtain ⟨k, hk, -⟩ := h.wellFormed.running hstate h.crashed
      have hsome : (t.delivering n (operation.error message)).channel.isSome :=
        Option.isSome_iff_exists.mpr ⟨k, hk⟩
      rw [crashed_goto (hprepared.channel ▸ hsome)]
      exact (hprepared.crashed hsome).trans h.crashed
  · obtain ⟨c, more, hc, hpending⟩ := (h.delivering message).pending
    obtain ⟨c', more', hc', hmore⟩ := extends_goto n u s c (hchannels ▸ hc)
    exact ⟨c', more ++ more', hc', by rw [hmore, hpending, List.append_assoc]⟩

end Reporting

/-! ### The report to the pending operations -/

section Report

variable {report : List (Operation × String)}

/-- A run of the report goes on from its first call. -/
theorem run_reportPending_cons {r : Operation × String} {next : Transceiver}
    (hstep : machine.step t (.callback n (r.1.error r.2)) = some next) :
    machine.run t (reportPending n (r :: report)) = machine.run next (reportPending n report) := by
  simp only [reportPending, List.map_cons, Machine.run_cons, hstep, Option.bind_some]

/-- Operations that are not heard are told without effect. -/
theorem Reporting.run_unheard (h : t.Reporting n (report.map Prod.fst))
    (hall : ∀ r ∈ report, ¬ t.Hears r.1) :
    ∃ t₁, machine.run t (reportPending n report) = some t₁ ∧ t₁.Reporting n [] ∧
      t₁.state = t.state ∧ t₁.ec = t.ec ∧
        (t₁.channels[n]?).bind (·.onError) = (t.channels[n]?).bind (·.onError) := by
  induction report generalizing t with
  | nil => exact ⟨t, rfl, h, rfl, rfl, rfl⟩
  | cons r report ih =>
    have hstep := h.unheard r.2 (hall r List.mem_cons_self)
    obtain ⟨t₁, hrun, hreporting, hstate, hec, hslot⟩ := ih (h.delivering r.2)
      fun r' hr' ↦ hall r' (List.mem_cons_of_mem r hr')
    refine ⟨t₁, (run_reportPending_cons hstep).trans hrun, hreporting, hstate, hec, hslot.trans ?_⟩
    obtain ⟨c, more, hc, -⟩ := h.pending
    simp [Transceiver.delivering, hc, Channel.deliver]

/-- Operations that end the run keep it at its end. -/
theorem Reporting.run_ended (h : t.Reporting n (report.map Prod.fst)) (hstate : t.state = .eEnd)
    (hends : ∀ r ∈ report, r.1.Ends) :
    ∃ t₁, machine.run t (reportPending n report) = some t₁ ∧ t₁.Reporting n [] ∧
      t₁.state = .eEnd := by
  induction report generalizing t with
  | nil => exact ⟨t, rfl, h, hstate⟩
  | cons r report ih =>
    have hr := hends r List.mem_cons_self
    obtain ⟨u, s, hstep, hreporting, htarget⟩ := h.heard r.2 hr.hears fun _ ↦ hr
    obtain rfl : s = .eEnd := by
      rcases htarget with ⟨rfl, -⟩ | ⟨-, rfl, -⟩
      exacts [failTarget_of_ends hr, rfl]
    obtain ⟨t₁, hrun, hdone⟩ := ih hreporting (by simp [landing, path])
      fun r' hr' ↦ hends r' (List.mem_cons_of_mem r hr')
    exact ⟨t₁, (run_reportPending_cons hstep).trans hrun, hdone⟩

/-- In the teardown, a report that ends with operations that end the run ends it, and one without
such operations leaves the teardown at most for its end. -/
theorem Reporting.run_torn (first ending : List (Operation × String))
    (h : t.Reporting n ((first ++ ending).map Prod.fst))
    (hstate : t.state = .eUnbindQueue ∨ t.state = .eRemoveQueue ∨ t.state = .eCloseChannel)
    (hfirst : ∀ r ∈ first, r.1.SetsUp ∨ r.1.state = .eShutdown) (hending : ∀ r ∈ ending, r.1.Ends) :
    ∃ t₁, machine.run t (reportPending n (first ++ ending)) = some t₁ ∧ t₁.Reporting n [] ∧
      (ending ≠ [] → t₁.state = .eEnd) ∧ t₁.state.beforeShutdown = false ∧
        t₁.state ≠ .eShutdown := by
  induction first generalizing t with
  | nil =>
    cases ending with
    | nil =>
      refine ⟨t, rfl, h, by simp, ?_, ?_⟩ <;> rcases hstate with hs | hs | hs <;> simp [hs] <;> rfl
    | cons r ending =>
      have hr := hending r List.mem_cons_self
      obtain ⟨u, s, hstep, hreporting, htarget⟩ := h.heard r.2 hr.hears fun _ ↦ hr
      obtain rfl : s = .eEnd := by
        rcases htarget with ⟨rfl, -⟩ | ⟨-, rfl, -⟩
        exacts [failTarget_of_ends hr, rfl]
      obtain ⟨t₁, hrun, hdone, hend⟩ := hreporting.run_ended (by simp [landing, path])
        fun r' hr' ↦ hending r' (List.mem_cons_of_mem r hr')
      exact ⟨t₁, (run_reportPending_cons hstep).trans hrun, hdone, fun _ ↦ hend,
        by simp [hend]; rfl, by simp [hend]⟩
  | cons r first ih =>
    have hrest : ∀ r' ∈ first, r'.1.SetsUp ∨ r'.1.state = .eShutdown :=
      fun r' hr' ↦ hfirst r' (List.mem_cons_of_mem r hr')
    by_cases hhears : t.Hears r.1
    · -- only a `cancel` is heard here, and it stays in the teardown
      have hcancel : r.1.state = .eShutdown := by
        refine (hfirst r List.mem_cons_self).resolve_left fun hsetsUp ↦ ?_
        have := (hhears.state hsetsUp).1
        rcases hstate with hs | hs | hs <;> simp [hs, State.beforeShutdown] at this
      obtain ⟨u, s, hstep, hreporting, htarget⟩ := h.heard r.2 hhears
        fun hend ↦ by simp [hend] at hstate
      have hs : s = .eUnbindQueue := by
        rcases htarget with ⟨rfl, -⟩ | ⟨hready, -⟩
        · cases hoperation : r.1 <;> simp [hoperation, Operation.state] at hcancel
          rfl
        · simp [hready] at hstate
      have hlanding : u.landing s = .eUnbindQueue ∨ u.landing s = .eCloseChannel := by
        rw [hs, landing, path]
        split <;> simp
      obtain ⟨t₁, hrun, hdone⟩ := ih hreporting (by rw [state_goto]; tauto) hrest
      exact ⟨t₁, (run_reportPending_cons hstep).trans hrun, hdone⟩
    · obtain ⟨t₁, hrun, hdone⟩ := ih (h.delivering r.2) hstate hrest
      exact ⟨t₁, (run_reportPending_cons (h.unheard r.2 hhears)).trans hrun, hdone⟩

/-- During the set-up, and when it is over, a report with an operation that is heard is noticed. -/
theorem Reporting.run_setUp (h : t.Reporting n (report.map Prod.fst))
    (hstate : t.state.beforeShutdown = true) (hsetsUp : ∀ r ∈ report, r.1.SetsUp)
    (hheard : ∃ r ∈ report, t.Hears r.1) :
    ∃ t₁, machine.run t (reportPending n report) = some t₁ ∧ t₁.Reporting n [] ∧ Noticed t t₁ := by
  induction report generalizing t with
  | nil => simp at hheard
  | cons r report ih =>
    have hrest : ∀ r' ∈ report, r'.1.SetsUp := fun r' hr' ↦ hsetsUp r' (List.mem_cons_of_mem r hr')
    by_cases hhears : t.Hears r.1
    · obtain ⟨u, s, hstep, hreporting, htarget⟩ := h.heard r.2 hhears
        fun hend ↦ by simp [hend, State.beforeShutdown] at hstate
      have hnoticed : Noticed t (u.goto s) := by
        rcases htarget with ⟨rfl, hown⟩ | ⟨hready, rfl, hec⟩
        · have hown := hown (hsetsUp r List.mem_cons_self)
          have htarget := landing_failTarget u r.1
          refine ⟨fun hsame ↦ ?_, ?_, fun hready ↦ ?_⟩
          · rw [state_goto] at hsame
            rcases htarget with hbefore | ⟨hcheck, hrecreate⟩
            · simp [hsame, hstate] at hbefore
            · simp [hsame, ← hown, hcheck] at hrecreate
          · rw [state_goto, ← hown]
            exact htarget
          · rw [hready] at hown
            cases hoperation : r.1 <;> simp [hoperation, Operation.state] at hown
        · refine ⟨by simp [landing, path, hready], Or.inl (by simp [landing, path]; rfl),
            fun _ ↦ ?_⟩
          exact ⟨by simp [landing, path], by simpa [goto, stateMachine, atEnd, enter] using hec⟩
      obtain ⟨t₁, hrun, hdone, hsame, hec, -⟩ := hreporting.run_unheard fun r' hr' hhears' ↦ by
        obtain ⟨hbefore, hrecreate⟩ := hhears'.state (hrest r' hr')
        rcases hnoticed.target with htarget | ⟨-, htarget⟩
        exacts [absurd (hbefore.symm.trans htarget) (by decide), hrecreate htarget]
      refine ⟨t₁, (run_reportPending_cons hstep).trans hrun, hdone, ?_⟩
      exact ⟨hsame ▸ hnoticed.left, hsame ▸ hnoticed.target, fun hready ↦
        ⟨hsame ▸ (hnoticed.ready hready).1, hec ▸ (hnoticed.ready hready).2⟩⟩
    · have hlater : ∃ r' ∈ report, t.Hears r'.1 := by
        obtain ⟨r', hr', hhears'⟩ := hheard
        rcases List.mem_cons.mp hr' with rfl | hr'
        · exact absurd hhears' hhears
        · exact ⟨r', hr', hhears'⟩
      obtain ⟨t₁, hrun, hdone, hnoticed⟩ := ih (h.delivering r.2) hstate hrest hlater
      exact ⟨t₁, (run_reportPending_cons (h.unheard r.2 hhears)).trans hrun, hdone,
        hnoticed.left, hnoticed.target, hnoticed.ready⟩

/-- While the consumer is being cancelled, a report with the `cancel` leads to the teardown. -/
theorem Reporting.run_cancel (h : t.Reporting n (report.map Prod.fst))
    (hstate : t.state = .eShutdown)
    (hall : ∀ r ∈ report, r.1.SetsUp ∨ r.1.state = .eShutdown)
    (hcancel : ∃ r ∈ report, r.1.state = .eShutdown) :
    ∃ t₁, machine.run t (reportPending n report) = some t₁ ∧ t₁.Reporting n [] ∧ Noticed t t₁ := by
  induction report generalizing t with
  | nil => simp at hcancel
  | cons r report ih =>
    have hrest : ∀ r' ∈ report, r'.1.SetsUp ∨ r'.1.state = .eShutdown :=
      fun r' hr' ↦ hall r' (List.mem_cons_of_mem r hr')
    by_cases hr : r.1.state = .eShutdown
    · have hhears : t.Hears r.1 := fun hsetsUp ↦ by
        rw [Operation.SetsUp, hr] at hsetsUp
        cases hsetsUp
      obtain ⟨u, s, hstep, hreporting, htarget⟩ := h.heard r.2 hhears
        fun hend ↦ by simp [hend] at hstate
      have hs : s = .eUnbindQueue := by
        rcases htarget with ⟨rfl, -⟩ | ⟨hready, -⟩
        · cases hoperation : r.1 <;> simp [hoperation, Operation.state] at hr
          rfl
        · simp [hready] at hstate
      have hlanding : u.landing s = .eUnbindQueue ∨ u.landing s = .eCloseChannel := by
        rw [hs, landing, path]
        split <;> simp
      have htorn := Reporting.run_torn report [] (by simpa using hreporting)
        (by rw [state_goto]; tauto) hrest (by simp)
      rw [List.append_nil] at htorn
      obtain ⟨t₁, hrun, hdone, -, hbefore, hne⟩ := htorn
      exact ⟨t₁, (run_reportPending_cons hstep).trans hrun, hdone, hstate ▸ hne, Or.inl hbefore,
        fun hready ↦ by simp [hstate] at hready⟩
    · have hsetsUp := (hall r List.mem_cons_self).resolve_right hr
      have hhears : ¬ t.Hears r.1 := fun hhears ↦ by
        have := (hhears.state hsetsUp).1
        simp [hstate, State.beforeShutdown] at this
      obtain ⟨r', hr', hcancel'⟩ := hcancel
      obtain ⟨t₁, hrun, hdone, hnoticed⟩ := ih (h.delivering r.2) hstate hrest
        ⟨r', (List.mem_cons.mp hr').resolve_left fun heq ↦ hr (heq ▸ hcancel'), hcancel'⟩
      exact ⟨t₁, (run_reportPending_cons (h.unheard r.2 hhears)).trans hrun, hdone,
        hnoticed.left, hnoticed.target, hnoticed.ready⟩

/-! ### The report to the channel -/

/-- The `onError` lambda of a channel acts in its state, and the one of a sender that is ready in
every state. -/
def ErrorHandler.Acts (handler : ErrorHandler) (s : State) : Prop :=
  ∀ own, handler.state = some own → s = own

theorem ErrorHandler.acts (handler : ErrorHandler) {s : State} (h : handler.state = some s) :
    handler.Acts s := fun _ hown ↦ Option.some.inj (h.symm.trans hown)

theorem reports_callback (handler : ErrorHandler) (message : String) :
    handler.reports (handler.callback message) = true := by
  cases handler <;> rfl

theorem reportChannel_eq {handler : ErrorHandler} (h : t.Reporting n [])
    (hslot : (t.channels[n]?).bind (·.onError) = some handler) (message : String) :
    t.reportChannel n message = some (t.deliver n (handler.callback message)) := by
  obtain ⟨c, -, hc, -⟩ := h.pending
  have honError : c.onError = some handler := by simpa [hc] using hslot
  have hregistered : c.registered (handler.callback message) = true := by
    simp [Channel.registered, honError, reports_callback]
  simp [reportChannel, hc, honError, step, h.crashed, hregistered]

/-- An `onError` lambda that acts ends the run. -/
theorem reportChannel_acts {handler : ErrorHandler} (h : t.Reporting n [])
    (hslot : (t.channels[n]?).bind (·.onError) = some handler) (hacts : handler.Acts t.state)
    (message : String) :
    ∃ t', t.reportChannel n message = some t' ∧ t'.state = .eEnd ∧
      (handler = .ready → t'.ec = .eChannelAbruptlyClosedError) := by
  refine ⟨_, reportChannel_eq h hslot message, ?_⟩
  have hreaction : ∃ u, (t.delivering n (handler.callback message)).reaction
      (handler.callback message) = some (u, .eEnd) ∧
        (handler = .ready → u.ec = .eChannelAbruptlyClosedError) := by
    cases handler with
    | ready => exact ⟨_, rfl, fun _ ↦ rfl⟩
    | _ => exact ⟨_, if_pos (hacts _ rfl), fun heq ↦ by cases heq⟩
  obtain ⟨u, hu, hec⟩ := hreaction
  rw [deliver_eq, call_of_reaction hu]
  exact ⟨by simp [landing, path], fun heq ↦ by
    simpa [goto, stateMachine, atEnd, enter] using hec heq⟩

/-- Without an `onError` lambda that acts, the report to the channel has no effect. -/
theorem reportChannel_quiet (h : t.Reporting n [])
    (hquiet : ∀ handler, (t.channels[n]?).bind (·.onError) = some handler → ¬ handler.Acts t.state)
    (message : String) :
    ∃ t', t.reportChannel n message = some t' ∧ t'.state = t.state ∧ t'.ec = t.ec := by
  cases hslot : (t.channels[n]?).bind (·.onError) with
  | none => exact ⟨t, by simp [reportChannel, hslot], rfl, rfl⟩
  | some handler =>
    refine ⟨_, reportChannel_eq h hslot message, ?_⟩
    have hnone : t.reaction (handler.callback message) = none := by
      have hne := hquiet handler hslot
      cases handler <;> simp_all [ErrorHandler.Acts, ErrorHandler.state, ErrorHandler.callback,
        reaction]
    rw [deliver_eq, call_of_no_reaction (reaction_delivering_eq_none.mpr hnone)]
    cases handler <;> exact ⟨rfl, rfl⟩

/-- What has been noticed stays noticed when the channel is told. -/
theorem Noticed.reportChannel {t₁ : Transceiver} (h : Noticed t t₁) (hrunning : t.state ≠ .eEnd)
    (hreporting : t₁.Reporting n []) (message : String) :
    ∃ t', t₁.reportChannel n message = some t' ∧ Noticed t t' := by
  by_cases hacts : ∃ handler, (t₁.channels[n]?).bind (·.onError) = some handler ∧
      handler.Acts t₁.state
  · obtain ⟨handler, hslot, hacts⟩ := hacts
    obtain ⟨t', hreport, hstate, hec⟩ := reportChannel_acts hreporting hslot hacts message
    refine ⟨t', hreport, hstate ▸ hrunning.symm, Or.inl (hstate ▸ rfl), fun hready ↦
      ⟨hstate, hec ?_⟩⟩
    rw [(h.ready hready).1] at hacts
    cases handler <;> first | rfl | exact absurd (hacts _ rfl) (by decide)
  · push Not at hacts
    obtain ⟨t', hreport, hstate, hec⟩ := reportChannel_quiet hreporting hacts message
    exact ⟨t', hreport, hstate ▸ h.left, hstate ▸ h.target, fun hready ↦
      ⟨hstate ▸ (h.ready hready).1, hec ▸ (h.ready hready).2⟩⟩

end Report

/-! ### In which states the failure is noticed -/

/-- A transceiver under way whose current channel is about to be reported. -/
theorem reporting_of_reachable {c : Channel} {report : List (Operation × String)}
    (hreachable : machine.Reachable t) (hcrashed : t.crashed = false)
    (hc : t.channels[n]? = some c) (hreport : report.map Prod.fst = c.pending) :
    t.Reporting n (report.map Prod.fst) :=
  ⟨wellFormed_of_reachable hreachable, hcrashed, c, [], hc, by simp [hreport]⟩

theorem fail_of_run {t₁ : Transceiver} {report : List (Operation × String)} {message : String}
    (hrun : machine.run t (reportPending n report) = some t₁) :
    t.fail n report message = t₁.reportChannel n message := by
  rw [fail, hrun, Option.bind_some]

/-- A lambda of the channel that acts on the failure of a channel with nothing else to report. -/
theorem noticed_of_acts {handler : ErrorHandler} {t₁ : Transceiver} (hreporting : t₁.Reporting n [])
    (hrunning : t.state ≠ .eEnd)
    (hslot : (t₁.channels[n]?).bind (·.onError) = some handler) (hacts : handler.Acts t₁.state)
    (hready : t.state = .eReady → handler = .ready) (message : String) :
    ∃ t', t₁.reportChannel n message = some t' ∧ Noticed t t' := by
  obtain ⟨t', hreport, hstate, hec⟩ := reportChannel_acts hreporting hslot hacts message
  exact ⟨t', hreport, hstate ▸ hrunning.symm, Or.inl (hstate ▸ rfl),
    fun h ↦ ⟨hstate, hec (hready h)⟩⟩

/-- Where no lambda is left that would act, the report of the failure has no effect. -/
theorem not_failureNoticed_of_unheard (hreachable : machine.Reachable t)
    (hcrashed : t.crashed = false)
    (hunheard : Unheard t) : ¬ FailureNoticed t := by
  intro hnoticed
  have hrunning : t.state ≠ .eEnd := by
    rcases hunheard with ⟨-, hs, -⟩ | ⟨hs, -⟩ <;> simp [hs]
  obtain ⟨pending, onError, ⟨n, c, hn, hc, rfl, rfl⟩, hawaits, hslot⟩ :=
    tracked_of_reachable hreachable hrunning hcrashed
  have hpending : t.pendingOperations = c.pending := by simp [pendingOperations, hn, hc]
  -- in both states, no pending operation is heard, and the channel is a listener's
  obtain ⟨hlistener, hready, hall⟩ : t.listener = true ∧
      (t.state = .eReady ∨ t.state = .eShutdown) ∧
      ∀ o ∈ c.pending, ¬ t.Hears o := by
    rw [Unheard, hpending] at hunheard
    rcases hunheard with ⟨hlistener, hs, hconsume⟩ | ⟨hs, hcancel⟩
    · rw [hs] at hawaits
      refine ⟨hlistener, Or.inl hs, fun o ho hhears ↦ ?_⟩
      rcases hhears (hawaits.1 o ho) with hown | ⟨hown, -⟩
      · cases o <;> simp [Operation.state, hs] at hown
      · exact hconsume o ho hown
    · rw [hs] at hawaits
      refine ⟨hawaits.1, Or.inr hs, fun o ho hhears ↦ ?_⟩
      have := (hhears.state ((hawaits.2 o ho).resolve_right (hcancel o ho))).1
      simp [hs, State.beforeShutdown] at this
  have hreport : (c.pending.map (·, "")).map Prod.fst = c.pending := by simp [Function.comp_def]
  obtain ⟨t₁, hrun, hreporting, hstate, -, hsame⟩ :=
    (reporting_of_reachable hreachable hcrashed hc hreport).run_unheard fun r hr ↦ by
      obtain ⟨o, ho, rfl⟩ := List.mem_map.mp hr
      exact hall o ho
  have hquiet : ∀ handler, (t₁.channels[n]?).bind (·.onError) = some handler →
      ¬ handler.Acts t₁.state := by
    intro handler hhandler hacts
    rw [hsame, hc, Option.bind_some] at hhandler
    rw [hstate] at hacts
    cases handler with
    | ready => exact hslot hlistener hhandler
    | _ =>
      have := hacts _ rfl
      simp [this] at hready
  obtain ⟨t', hfail, hsame', -⟩ := reportChannel_quiet hreporting hquiet ""
  obtain ⟨t'', hfail', hnoticed'⟩ := hnoticed n c _ "" hn hc hreport
  rw [fail_of_run hrun, hfail] at hfail'
  obtain rfl := Option.some.inj hfail'
  exact hnoticed'.left (hsame'.trans hstate)

/-- The end of the run is noticed, unless the transceiver was ready. -/
theorem noticed_of_end {t₁ : Transceiver} (hend : t₁.state = .eEnd) (hrunning : t.state ≠ .eEnd)
    (hready : t.state ≠ .eReady) : Noticed t t₁ :=
  ⟨hend ▸ hrunning.symm, Or.inl (hend ▸ rfl), fun h ↦ absurd h hready⟩

section Heard

variable {c : Channel} {report : List (Operation × String)} {message : String}

/-- What the pending operations have brought about is left to the lambda of the channel. -/
theorem noticed_of_run {t₁ : Transceiver} (hrunning : t.state ≠ .eEnd)
    (hrun : machine.run t (reportPending n report) = some t₁) (hdone : t₁.Reporting n [])
    (hnoticed : Noticed t t₁) : ∃ t', t.fail n report message = some t' ∧ Noticed t t' := by
  rw [fail_of_run hrun]
  exact hnoticed.reportChannel hrunning hdone message

/-- A channel with nothing pending is reported to the lambda for its failure. -/
theorem noticed_of_empty {handler : ErrorHandler} (hrunning : t.state ≠ .eEnd)
    (hreporting : t.Reporting n []) (hslot : (t.channels[n]?).bind (·.onError) = some handler)
    (hacts : handler.Acts t.state) (hready : t.state ≠ .eReady) :
    ∃ t', t.fail n [] message = some t' ∧ Noticed t t' := by
  have hrun : machine.run t (reportPending n []) = some t := rfl
  rw [fail_of_run hrun]
  exact noticed_of_acts hreporting hrunning hslot hacts (fun h ↦ absurd h hready) message

/-- In the teardown, an operation that ends the run ends it. -/
theorem noticed_of_torn (first ending : List (Operation × String))
    (hreporting : t.Reporting n ((first ++ ending).map Prod.fst))
    (hstate : t.state = .eUnbindQueue ∨ t.state = .eRemoveQueue ∨ t.state = .eCloseChannel)
    (hfirst : ∀ r ∈ first, r.1.SetsUp ∨ r.1.state = .eShutdown) (hending : ∀ r ∈ ending, r.1.Ends)
    (hne : ending ≠ []) : ∃ t', t.fail n (first ++ ending) message = some t' ∧ Noticed t t' := by
  have hrunning : t.state ≠ .eEnd := by rcases hstate with h | h | h <;> simp [h]
  have hready : t.state ≠ .eReady := by rcases hstate with h | h | h <;> simp [h]
  obtain ⟨t₁, hrun, hdone, hend, -⟩ := Reporting.run_torn first
    ending hreporting hstate hfirst hending
  exact noticed_of_run hrunning hrun hdone (noticed_of_end (hend hne) hrunning hready)

/-- A channel made to unbind or remove the queue fails before it is ready, or with that operation
pending. -/
theorem noticed_of_replaced {handler : ErrorHandler} {s : State}
    (hreporting : t.Reporting n (report.map Prod.fst)) (hstate : t.state = s)
    (hs : s = .eUnbindQueue ∨ s = .eRemoveQueue) (hall : ∀ r ∈ report, r.1.state = s)
    (hslot : (t.channels[n]?).bind (·.onError) = some handler ∨ report ≠ [])
    (hacts : handler.Acts s) : ∃ t', t.fail n report message = some t' ∧ Noticed t t' := by
  cases report with
  | nil =>
    have hrunning : t.state ≠ .eEnd := by rcases hs with rfl | rfl <;> simp [hstate]
    have hready : t.state ≠ .eReady := by rcases hs with rfl | rfl <;> simp [hstate]
    exact noticed_of_empty hrunning hreporting (hslot.resolve_right (by simp)) (hstate ▸ hacts)
      hready
  | cons r report =>
    refine noticed_of_torn [] (r :: report) hreporting ?_ (by simp)
      (fun r' hr' ↦ ?_) (by simp)
    · rcases hs with rfl | rfl
      exacts [Or.inl hstate, Or.inr (Or.inl hstate)]
    · rcases hs with rfl | rfl
      exacts [Or.inl (hall r' hr'), Or.inr (Or.inl (hall r' hr'))]

/-- A transceiver that is ready hears of the failure by its consumer, or by the lambda of a
sender. -/
theorem noticed_of_ready (hreporting : t.Reporting n (report.map Prod.fst))
    (hstate : t.state = .eReady) (hall : ∀ r ∈ report, r.1.SetsUp)
    (hslot : (t.channels[n]?).bind (·.onError) = some .ready ∨
      ∃ r ∈ report, r.1.state = .eCreateConsumer) :
    ∃ t', t.fail n report message = some t' ∧ Noticed t t' := by
  have hrunning : t.state ≠ .eEnd := by simp [hstate]
  have hbefore : t.state.beforeShutdown = true := by rw [hstate]; rfl
  by_cases hconsume : ∃ r ∈ report, r.1.state = .eCreateConsumer
  · obtain ⟨r, hr, hown⟩ := hconsume
    obtain ⟨t₁, hrun, hdone, hnoticed⟩ :=
      hreporting.run_setUp hbefore hall ⟨r, hr, fun _ ↦ Or.inr ⟨hown, hstate⟩⟩
    exact noticed_of_run hrunning hrun hdone hnoticed
  · have hsender := hslot.resolve_right hconsume
    push Not at hconsume
    obtain ⟨t₁, hrun, hdone, -, -, hsame⟩ := hreporting.run_unheard fun r hr hhears ↦ by
      rcases hhears (hall r hr) with hown | ⟨hown, -⟩
      · cases hoperation : r.1 <;> simp [hoperation, Operation.state, hstate] at hown
      · exact hconsume r hr hown
    rw [fail_of_run hrun]
    exact noticed_of_acts hdone hrunning (hsame.trans hsender) (fun _ hown ↦ by cases hown)
      (fun _ ↦ rfl) message

end Heard

/-- Everywhere else the report is heard. -/
theorem failureNoticed_of_heard (hreachable : machine.Reachable t) (hrunning : t.state ≠ .eEnd)
    (hcrashed : t.crashed = false) (hheard : ¬ Unheard t) : FailureNoticed t := by
  intro n c report message hn hc hreport
  obtain ⟨pending, onError, ⟨k, c', hk, hc', rfl, rfl⟩, hawaits, -⟩ :=
    tracked_of_reachable hreachable hrunning hcrashed
  obtain rfl : n = k := Option.some.inj (hn.symm.trans hk)
  obtain rfl : c = c' := Option.some.inj (hc.symm.trans hc')
  have hpending : t.pendingOperations = report.map Prod.fst := by
    simp [pendingOperations, hn, hc, hreport]
  have hslot : (t.channels[n]?).bind (·.onError) = c.onError := by simp [hc]
  have hreporting := reporting_of_reachable hreachable hcrashed hc hreport
  rw [← hreport, ← hslot] at hawaits
  rw [Unheard, hpending] at hheard
  clear hreport hslot hc' hc hk
  cases hs : t.state <;>
    simp only [hs, Awaits, ne_eq, List.map_eq_nil_iff, List.forall_mem_map] at hawaits hheard
  case eCreateChannel =>
    obtain ⟨rfl, hslot⟩ := hawaits
    exact noticed_of_empty hrunning hreporting hslot (ErrorHandler.acts _ (hs ▸ rfl)) (by simp [hs])
  case eRecreateChannel =>
    obtain ⟨rfl, hslot⟩ := hawaits
    exact noticed_of_empty hrunning hreporting hslot (ErrorHandler.acts _ (hs ▸ rfl)) (by simp [hs])
  case eReady =>
    refine noticed_of_ready hreporting hs hawaits.1 ?_
    by_contra hneither
    push Not at hneither
    exact hheard (Or.inl ⟨hawaits.2.resolve_right hneither.1, trivial, hneither.2⟩)
  case eShutdown =>
    have hcancel : ∃ r ∈ report, r.1.state = .eShutdown := by
      by_contra hnone
      push Not at hnone
      exact hheard (Or.inr ⟨trivial, hnone⟩)
    obtain ⟨t₁, hrun, hdone, hnoticed⟩ := hreporting.run_cancel hs hawaits.2 hcancel
    exact noticed_of_run hrunning hrun hdone hnoticed
  case eUnbindQueue =>
    exact noticed_of_replaced hreporting hs (Or.inl rfl) hawaits.1 hawaits.2
      (ErrorHandler.acts .unbindQueue rfl)
  case eRemoveQueue =>
    exact noticed_of_replaced hreporting hs (Or.inr rfl) hawaits.1 hawaits.2
      (ErrorHandler.acts .removeQueue rfl)
  case eCloseChannel =>
    obtain ⟨ending, ⟨first, heq, hfirst, hending⟩, hne⟩ := hawaits
    obtain ⟨front, rest, rfl, rfl, rfl⟩ := List.map_eq_append_iff.mp heq
    exact noticed_of_torn _ _ hreporting (by simp [hs])
      (fun r hr ↦ hfirst r.1 (List.mem_map_of_mem hr))
      (fun r hr ↦ hending r.1 (List.mem_map_of_mem hr)) (by simpa using hne)
  case eEnd => exact absurd hs hrunning
  all_goals
    obtain ⟨hall, o, ho, hown⟩ := hawaits
    obtain ⟨r, hr, rfl⟩ := List.mem_map.mp ho
    have hbefore : t.state.beforeShutdown = true := by rw [hs]; rfl
    obtain ⟨t₁, hrun, hdone, hnoticed⟩ :=
      hreporting.run_setUp hbefore hall ⟨r, hr, fun _ ↦ Or.inl (hown.trans hs.symm)⟩
    exact noticed_of_run hrunning hrun hdone hnoticed

/-- A running transceiver notices the failure of its current channel if and only if it is neither a
listener that is ready and whose consumer has been answered, nor one whose `cancel` has been. -/
theorem failureNoticed_iff (hreachable : machine.Reachable t) (hrunning : t.state ≠ .eEnd)
    (hcrashed : t.crashed = false) : FailureNoticed t ↔ ¬ Unheard t :=
  ⟨fun hnoticed hunheard ↦ not_failureNoticed_of_unheard hreachable hcrashed hunheard hnoticed,
    failureNoticed_of_heard hreachable hrunning hcrashed⟩

/-- A listener up to the moment when it waits for its consumer to be confirmed. -/
def consuming : List Event :=
  [.start (some 0), .callback 0 .createChannelReady, .callback 0 .createExchangeSuccess,
    .callback 0 (.createQueueSuccess "amq.gen-1"), .callback 0 .bindQueueSuccess]

/-- The channel of a listener that is ready fails, and the listener stays ready. -/
theorem ready_after_failure :
    ∃ t t', machine.run (new "exchange" "" "orders" true)
        (consuming ++ [.callback 0 (.createConsumerSuccess "tag")]) = some t ∧ t.state = .eReady ∧
      t.fail 0 [] "CONNECTION_FORCED" = some t' ∧ t'.ready = true ∧ ¬ FailureNoticed t := by
  refine ⟨_, _, rfl, rfl, rfl, rfl, fun hnoticed ↦ ?_⟩
  obtain ⟨t', hfail, h⟩ := hnoticed 0 _ [] "CONNECTION_FORCED" rfl rfl rfl
  obtain rfl := Option.some.inj hfail
  exact h.left rfl

/-- The channel of a listener that waits for its consumer fails, and the listener notices. -/
theorem failureNoticed_consuming :
    ∃ t, machine.run (new "exchange" "" "orders" true) consuming = some t ∧
      t.state = .eCreateConsumer ∧ FailureNoticed t := by
  refine ⟨_, rfl, rfl, (failureNoticed_iff ?_ (by decide) rfl).mpr ?_⟩
  · exact ⟨_, consuming, ⟨"exchange", "", "orders", true, rfl⟩, rfl⟩
  · rintro (⟨-, hs, -⟩ | ⟨hs, -⟩) <;> cases hs

end Transceiver

end AmqpAsio
