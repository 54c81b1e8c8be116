import AmqpAsio.Transceiver.Moves

/-!
# What the current channel waits for

Which operations are pending on the current channel, and which lambda is installed for its failure,
is decided by the state of the transceiver: while it sets up, the operation of its state is pending;
on a new channel the lambda for its failure is installed until the channel is ready; and an
operation that ends the run is never pending before one that does not. `Tracked` says so, and it
holds of every reachable transceiver.
-/

set_option autoImplicit false
set_option relaxedAutoImplicit false

namespace AmqpAsio

namespace Transceiver

variable {t t' u : Transceiver}

/-! ### The operations by state -/

/-- The state whose branch of `StateMachine()` asks for the operation. -/
def Operation.state : Operation → State
  | .declarePassive _ => .eCheckQueue
  | .declareExchange _ _ => .eCreateExchange
  | .declareQueue _ _ => .eCreateQueue
  | .bindQueue _ _ _ => .eBindQueue
  | .consume _ => .eCreateConsumer
  | .cancel _ => .eShutdown
  | .unbindQueue _ _ _ => .eUnbindQueue
  | .removeQueue _ => .eRemoveQueue
  | .close => .eCloseChannel

theorem request_state {t : Transceiver} {operation : Operation} (h : t.request = some operation) :
    operation.state = t.state := by
  unfold request at h
  cases hs : t.state <;> simp only [hs, reduceCtorEq, Option.some.injEq] at h <;>
    exact h ▸ rfl

/-- The operation belongs to the set-up, and its lambdas test `m_state`. -/
def Operation.SetsUp (operation : Operation) : Prop := operation.state.beforeShutdown = true

/-- The operation is one whose failure ends the run. -/
def Operation.Ends (operation : Operation) : Prop :=
  operation.state = .eUnbindQueue ∨ operation.state = .eRemoveQueue ∨
    operation.state = .eCloseChannel

/-- The lambdas of an operation go somewhere in the state that asks for it, except that the success
of a `cancel` may be that of another consumer; those that end the run always do. -/
theorem reaction_ne_none_of_reports {operation : Operation} {cb : Callback}
    (hreports : operation.reports cb = true)
    (hstate : operation.Ends ∨ operation.SetsUp ∧ t.state = operation.state) :
    t.reaction cb ≠ none := by
  cases operation <;> cases cb <;>
    simp [Operation.reports, Operation.Ends, Operation.SetsUp, Operation.state,
      State.beforeShutdown, reaction] at hreports hstate ⊢ <;>
    simp [hstate]

/-! ### The operations pending in a state -/

/-- The list of operations has those that end the run last. -/
def EndsLast (operations : List Operation) (ending : List Operation) : Prop :=
  ∃ first, operations = first ++ ending ∧
    (∀ operation ∈ first, operation.SetsUp ∨ operation.state = .eShutdown) ∧
    ∀ operation ∈ ending, operation.Ends

/-- What is pending on the current channel, and the lambda installed for its failure, in a state. -/
def Awaits (listener : Bool) (pending : List Operation) (onError : Option ErrorHandler) :
    State → Prop
  | .eCreateChannel => pending = [] ∧ onError = some .createChannel
  | .eRecreateChannel => pending = [] ∧ onError = some .recreateChannel
  | .eReady => (∀ operation ∈ pending, operation.SetsUp) ∧ (listener ∨ onError = some .ready)
  | .eShutdown =>
    listener ∧ ∀ operation ∈ pending, operation.SetsUp ∨ operation.state = .eShutdown
  | .eUnbindQueue =>
    (∀ operation ∈ pending, operation.state = .eUnbindQueue) ∧
      (onError = some .unbindQueue ∨ pending ≠ [])
  | .eRemoveQueue =>
    (∀ operation ∈ pending, operation.state = .eRemoveQueue) ∧
      (onError = some .removeQueue ∨ pending ≠ [])
  | .eCloseChannel => ∃ ending, EndsLast pending ending ∧ ending ≠ []
  | .eEnd => True
  | s => (∀ operation ∈ pending, operation.SetsUp) ∧ ∃ operation ∈ pending, operation.state = s

/-- The current channel has these operations pending and this lambda for its failure. -/
def Current (t : Transceiver) (pending : List Operation) (onError : Option ErrorHandler) : Prop :=
  ∃ n c, t.channel = some n ∧ t.channels[n]? = some c ∧ c.pending = pending ∧ c.onError = onError

/-- The current channel waits for what the state says, and the channel of a listener has no lambda
of a sender. -/
def Fits (t : Transceiver) : Prop :=
  ∃ pending onError, t.Current pending onError ∧ Awaits t.listener pending onError t.state ∧
    (t.listener → onError ≠ some .ready)

/-- A transceiver under way waits for what its state says. -/
def Tracked (t : Transceiver) : Prop := t.state ≠ .eEnd → t.crashed = false → t.Fits

/-- While a transceiver sets up, only operations of the set-up are pending. -/
theorem Awaits.setsUp {listener : Bool} {pending : List Operation} {onError : Option ErrorHandler}
    {s : State} (h : Awaits listener pending onError s) (hs : s.beforeShutdown = true) :
    ∀ operation ∈ pending, operation.SetsUp := by
  cases s <;> simp only [State.beforeShutdown, reduceCtorEq] at hs <;>
    first
    | exact h.1
    | (rw [h.1]; simp)

/-- In every state, the operations that end the run are pending last. -/
theorem Awaits.endsLast {listener : Bool} {pending : List Operation} {onError : Option ErrorHandler}
    {s : State} (h : Awaits listener pending onError s) (hs : s ≠ .eEnd) :
    ∃ ending, EndsLast pending ending := by
  cases s with
  | eEnd => exact absurd rfl hs
  | eShutdown => exact ⟨[], pending, by simp, h.2, by simp⟩
  | eUnbindQueue => exact ⟨pending, [], rfl, by simp, fun o ho ↦ Or.inl (h.1 o ho)⟩
  | eRemoveQueue => exact ⟨pending, [], rfl, by simp, fun o ho ↦ Or.inr (Or.inl (h.1 o ho))⟩
  | eCloseChannel =>
    obtain ⟨ending, hlast, -⟩ := h
    exact ⟨ending, hlast⟩
  | _ => exact ⟨[], pending, by simp, fun o ho ↦ Or.inl (h.setsUp rfl o ho), by simp⟩

theorem EndsLast.concat {operations ending : List Operation} {operation : Operation}
    (h : EndsLast operations ending) (hends : operation.Ends) :
    EndsLast (operations ++ [operation]) (ending ++ [operation]) := by
  obtain ⟨first, rfl, hfirst, hending⟩ := h
  refine ⟨first, by simp, hfirst, fun o ho ↦ ?_⟩
  rcases List.mem_append.mp ho with ho | ho
  · exact hending o ho
  · exact List.mem_singleton.mp ho ▸ hends

/-- A callback that its operation, if any, is not waiting for in this state changes nothing about
what the state waits for. -/
theorem Awaits.eraseP {pending : List Operation} {onError : Option ErrorHandler} {cb : Callback}
    (h : Awaits t.listener pending onError t.state) (hreaction : t.reaction cb = none) :
    Awaits t.listener (pending.eraseP (·.reports cb)) onError t.state := by
  have hmem {P : Operation → Prop} (hP : ∀ o ∈ pending, P o) :
      ∀ o ∈ pending.eraseP (·.reports cb), P o := fun o ho ↦ hP o (List.mem_of_mem_eraseP ho)
  have hkeeps {o : Operation} (ho : o ∈ pending) (hstate : o.Ends ∨ o.SetsUp ∧ t.state = o.state) :
      o ∈ pending.eraseP (·.reports cb) := by
    refine (List.mem_eraseP_of_neg fun hreports ↦ ?_).mpr ho
    exact reaction_ne_none_of_reports hreports hstate hreaction
  have hnonempty {s : State} (hs : s = .eUnbindQueue ∨ s = .eRemoveQueue)
      (hall : ∀ o ∈ pending, o.state = s) (hne : pending ≠ []) :
      pending.eraseP (·.reports cb) ≠ [] := by
    obtain ⟨o, ho⟩ := List.exists_mem_of_ne_nil pending hne
    refine List.ne_nil_of_mem (hkeeps ho (Or.inl ?_))
    rcases hs with rfl | rfl
    · exact Or.inl (hall o ho)
    · exact Or.inr (Or.inl (hall o ho))
  cases hs : t.state <;> simp only [hs, Awaits] at h ⊢
  case eCreateChannel => exact ⟨by simp [h.1], h.2⟩
  case eRecreateChannel => exact ⟨by simp [h.1], h.2⟩
  case eReady => exact ⟨hmem h.1, h.2⟩
  case eShutdown => exact ⟨h.1, hmem h.2⟩
  case eUnbindQueue => exact ⟨hmem h.1, h.2.imp_right (hnonempty (Or.inl rfl) h.1)⟩
  case eRemoveQueue => exact ⟨hmem h.1, h.2.imp_right (hnonempty (Or.inr rfl) h.1)⟩
  case eCloseChannel =>
    obtain ⟨ending, ⟨first, rfl, hfirst, hending⟩, hne⟩ := h
    have hnone : ∀ o ∈ ending, ¬ o.reports cb = true := fun o ho hreports ↦
      reaction_ne_none_of_reports hreports (Or.inl (hending o ho)) hreaction
    refine ⟨ending, ⟨first.eraseP (·.reports cb), ?_,
      fun o ho ↦ hfirst o (List.mem_of_mem_eraseP ho), hending⟩, hne⟩
    rw [List.eraseP_append]
    split
    · rfl
    · next hfirst' =>
      rw [List.eraseP_of_forall_not hnone, List.eraseP_of_forall_not]
      simpa using hfirst'
  all_goals
    obtain ⟨hall, o, ho, hstate⟩ := h
    exact ⟨hmem hall, o, hkeeps ho (Or.inr ⟨hall o ho, hs.trans hstate.symm⟩), hstate⟩

theorem EndsLast.sublist {operations fewer ending : List Operation} (h : EndsLast operations ending)
    (hfewer : fewer.Sublist operations) : ∃ rest, EndsLast fewer rest := by
  obtain ⟨first, rfl, hfirst, hending⟩ := h
  obtain ⟨front, rest, rfl, hfront, hrest⟩ := List.sublist_append_iff.mp hfewer
  exact ⟨rest, front, rfl, fun o ho ↦ hfirst o (hfront.subset ho),
    fun o ho ↦ hending o (hrest.subset ho)⟩

/-! ### The current channel through a step -/

section Current

variable {pending : List Operation} {onError : Option ErrorHandler}

theorem Current.of_eq (h : t.Current pending onError) (hchannel : u.channel = t.channel)
    (hchannels : u.channels = t.channels) : u.Current pending onError := by
  obtain ⟨n, c, hn, hc, hpending⟩ := h
  exact ⟨n, c, hchannel.trans hn, hchannels ▸ hc, hpending⟩

theorem Current.onChannel (h : t.Current pending onError) (f : Channel → Channel) :
    ∃ c, c.pending = pending ∧ c.onError = onError ∧
      (t.onChannel f).Current (f c).pending (f c).onError := by
  obtain ⟨n, c, hn, hc, hpending, honError⟩ := h
  exact ⟨c, hpending, honError, n, f c, hn, by simp [Transceiver.onChannel, hn, hc], rfl, rfl⟩

theorem Current.issue (h : t.Current pending onError) (operation : Operation) :
    (t.issue operation).Current (pending ++ [operation]) onError := by
  unfold Transceiver.issue
  refine Current.of_eq ?_ rfl (channels_observe _ _)
  obtain ⟨c, hpending, honError, hcurrent⟩ := h.onChannel _
  rw [← hpending, ← honError]
  exact hcurrent

theorem Current.setOnError (h : t.Current pending onError) (handler : Option ErrorHandler) :
    (t.setOnError handler).Current pending handler := by
  obtain ⟨c, rfl, -, hcurrent⟩ := h.onChannel fun c ↦ { c with onError := handler }
  exact hcurrent

theorem current_newChannel (t : Transceiver) (ready : ReadyHandler) (error : ErrorHandler) :
    (t.newChannel ready error).Current [] (some error) := by
  exact ⟨t.channels.length, _, rfl, List.getElem?_concat_length, rfl, rfl⟩

/-- Calling a callback of a channel reports at most one operation of the current channel. -/
theorem Current.delivering (h : t.Current pending onError) (n : ℕ) (cb : Callback) :
    ∃ rest, (t.delivering n cb).Current rest onError ∧
      (rest = pending ∨ rest = pending.eraseP (·.reports cb)) := by
  obtain ⟨k, c, hk, hc, rfl, rfl⟩ := h
  by_cases hn : n = k
  · exact ⟨_, ⟨k, c.deliver cb, hk, by simp [Transceiver.delivering, hn, hc], rfl, rfl⟩, Or.inr rfl⟩
  · exact ⟨_, ⟨k, c, hk, by simp [Transceiver.delivering, hn, hc], rfl, rfl⟩,
      Or.inl rfl⟩

/-- A lambda that goes somewhere has changed nothing of the channel but the lambda for its
failure. -/
theorem Current.reaction {cb : Callback} {s : State} (h : t.Current pending onError)
    (hreaction : t.reaction cb = some (u, s)) :
    ∃ handler, u.Current pending handler ∧ (handler = onError ∨ handler = none) := by
  have hset (v : Transceiver) (hsame : { t with
      queueExist := v.queueExist, recvQueue := v.recvQueue, consumerTag := v.consumerTag,
      error := v.error, ec := v.ec } = v) : v.Current pending onError :=
    hsame ▸ h.of_eq rfl rfl
  cases cb <;> simp only [Transceiver.reaction, Option.ite_none_right_eq_some, Option.some.injEq,
    Prod.mk.injEq, reduceCtorEq] at hreaction
  case createChannelReady => exact ⟨none, hreaction.2.1 ▸ h.setOnError none, Or.inr rfl⟩
  case recreateChannelReady => exact ⟨none, hreaction.2.1 ▸ h.setOnError none, Or.inr rfl⟩
  case createConsumerError =>
    refine ⟨onError, ?_, Or.inl rfl⟩
    split at hreaction
    · exact (Prod.mk.inj (Option.some.inj hreaction)).1 ▸ hset _ rfl
    · obtain ⟨-, hreaction⟩ := Option.ite_none_right_eq_some.mp hreaction
      exact (Prod.mk.inj (Option.some.inj hreaction)).1 ▸ hset _ rfl
  all_goals
    refine ⟨onError, ?_, Or.inl rfl⟩
    first
    | exact hreaction.1 ▸ hset _ rfl
    | exact hreaction.2.1 ▸ hset _ rfl

/-- The channel after what a move of a transceiver under way does before it calls
`StateMachine()`. -/
theorem Current.move {e : Event} {s : State} (h : t.Current pending onError)
    (hrunning : t.state ≠ .eEnd) (hmove : t.move e = some (u, s)) :
    ∃ rest handler, u.Current rest handler ∧ rest.Sublist pending ∧
      (handler = onError ∨ handler = none) := by
  cases e with
  | install | send => cases hmove
  | start connection => simp [Transceiver.move, hrunning] at hmove
  | stop =>
    obtain ⟨-, hmove⟩ := Option.ite_none_right_eq_some.mp hmove
    obtain ⟨rfl, rfl⟩ := Prod.mk.inj (Option.some.inj hmove)
    exact ⟨pending, onError, h, List.Sublist.refl _, Or.inl rfl⟩
  | drop =>
    obtain ⟨-, hmove⟩ := Option.ite_none_left_eq_some.mp hmove
    obtain ⟨rfl, rfl⟩ := Prod.mk.inj (Option.some.inj hmove)
    exact ⟨pending, onError, h.of_eq rfl rfl, List.Sublist.refl _, Or.inl rfl⟩
  | callback channel cb =>
    obtain ⟨rest, hcurrent, hrest⟩ := h.delivering channel cb
    obtain ⟨handler, hu, hhandler⟩ := hcurrent.reaction hmove
    refine ⟨rest, handler, hu, ?_, hhandler⟩
    rcases hrest with rfl | rfl
    · exact List.Sublist.refl _
    · exact List.eraseP_sublist

/-! ### Arriving -/

@[simp] theorem listener_arrive (t : Transceiver) : t.arrive.listener = t.listener := by
  cases hstate : t.state <;> simp only [arrive, hstate] <;>
    first
    | rfl
    | (unfold atReady; split <;> rfl)

/-- A transceiver that comes to rest anywhere but at its end waits for what its state says. -/
theorem fits_arrive (pending : List Operation) (onError : Option ErrorHandler)
    (hcurrent : t.state ≠ .eCreateChannel → t.Current pending onError)
    (hslot : t.listener → onError ≠ some .ready)
    (hbefore : t.state.beforeShutdown ∨ t.state = .eShutdown →
      ∀ operation ∈ pending, operation.SetsUp)
    (hlast : ∃ ending, EndsLast pending ending) (hshutdown : t.state = .eShutdown → t.listener)
    (hend : t.state ≠ .eEnd) : t.arrive.Fits := by
  have hnew (v : Transceiver) (ready : ReadyHandler) (error : ErrorHandler)
      (hawaits : Awaits v.listener [] (some error) v.state) (herror : error ≠ .ready) :
      (v.newChannel ready error).Fits :=
    ⟨[], some error, current_newChannel v ready error, hawaits, fun _ ↦ by simpa using herror⟩
  have hissue (operation : Operation) (hne : t.state ≠ .eCreateChannel)
      (hawaits : Awaits t.listener (pending ++ [operation]) onError t.state) :
      (t.issue operation).Fits :=
    ⟨_, _, (hcurrent hne).issue operation, hawaits, hslot⟩
  have hconcat (operation : Operation) (hs : operation.SetsUp) (hsetsUp : t.state.beforeShutdown) :
      (∀ o ∈ pending ++ [operation], o.SetsUp) ∧
        ∃ o ∈ pending ++ [operation], o.state = operation.state := by
    refine ⟨fun o ho ↦ ?_, operation, by simp, rfl⟩
    rcases List.mem_append.mp ho with ho | ho
    · exact hbefore (Or.inl hsetsUp) o ho
    · exact List.mem_singleton.mp ho ▸ hs
  cases hstate : t.state <;> simp only [arrive, hstate]
  -- a new channel waits for nothing yet
  case eCreateChannel => exact hnew t _ _ (by simp [hstate, Awaits]) (by decide)
  case eRecreateChannel =>
    exact hnew t.closeOld _ _ (by simp [closeOld, observe, onChannel, hstate, Awaits]) (by decide)
  case eUnbindQueue =>
    exact hnew t.closeOld _ _ (by simp [closeOld, observe, onChannel, hstate, Awaits]) (by decide)
  case eRemoveQueue =>
    exact hnew t.closeOld _ _ (by simp [closeOld, observe, onChannel, hstate, Awaits]) (by decide)
  case eReady =>
    have hall := hbefore (Or.inl (by simp [hstate, State.beforeShutdown]))
    have hc := hcurrent (by simp [hstate])
    unfold atReady
    split
    · next hlistener =>
        exact ⟨pending, onError, hc, by simpa [hstate, Awaits, hlistener] using hall, hslot⟩
    · next hlistener =>
      exact ⟨pending, some .ready, hc.setOnError _, by
        simpa [setOnError, onChannel, hstate, Awaits, hlistener] using hall,
        fun h ↦ absurd h hlistener⟩
  case eShutdown =>
    have hall := hbefore (Or.inr hstate)
    refine ⟨_, _, (hcurrent (by simp [hstate])).issue _, ?_, hslot⟩
    refine Eq.mpr (congrArg (Awaits t.listener _ onError) hstate) ⟨hshutdown hstate, fun o ho ↦ ?_⟩
    rcases List.mem_append.mp ho with ho | ho
    · exact Or.inl (hall o ho)
    · exact Or.inr (List.mem_singleton.mp ho ▸ rfl)
  case eCloseChannel =>
    obtain ⟨ending, hending⟩ := hlast
    refine ⟨_, _, (hcurrent (by simp [hstate])).issue _, ?_, hslot⟩
    exact Eq.mpr (congrArg (Awaits t.listener _ onError) hstate)
      ⟨_, hending.concat (Or.inr (Or.inr rfl)), by simp⟩
  case eEnd => exact absurd hstate hend
  all_goals
    have hsetsUp : t.state.beforeShutdown := by simp [hstate, State.beforeShutdown]
    refine hissue _ (by simp [hstate]) ?_
    exact Eq.mpr (congrArg (Awaits t.listener _ onError) hstate) (hconcat _ rfl hsetsUp)

end Current

/-! ### The reachable transceivers -/

/-- A `cancel` is waited for only by a listener that has been stopped. -/
theorem landing_eq_eShutdown {s : State} (h : t.landing s = .eShutdown) :
    s = .eShutdown ∧ t.listener = true := by
  cases s <;> simp only [landing, path] at h <;> (repeat' split at h) <;> simp_all

/-- A move of a transceiver under way comes to rest before the shutdown, or with its consumer being
cancelled, only where the shutdown had not begun. -/
theorem beforeShutdown_of_landing {e : Event} {s : State} (hrunning : t.state ≠ .eEnd)
    (hmove : t.move e = some (u, s))
    (hlanding : (u.landing s).beforeShutdown ∨ u.landing s = .eShutdown) :
    t.state.beforeShutdown := by
  by_contra hstate
  rw [Bool.not_eq_true] at hstate
  rcases hlanding with hlanding | hlanding
  · have hs := beforeShutdown_of_move hstate hrunning hmove
    simp [beforeShutdown_of_mem_path hs (u.landing_mem_path s)] at hlanding
  · obtain ⟨rfl, -⟩ := landing_eq_eShutdown hlanding
    cases e with
    | install | send => cases hmove
    | start connection => simp [move, hrunning] at hmove
    | stop => simp [move, hstate] at hmove
    | drop => simp [move, hrunning] at hmove
    | callback channel cb =>
      cases cb <;> simp [move, reaction] at hmove
      all_goals grind

theorem Current.passing {pending : List Operation} {onError : Option ErrorHandler}
    (h : t.Current pending onError) (s : State) (states : List State) :
    ((t.passingError s).passing states).Current pending onError := by
  unfold passingError
  split <;> exact h.of_eq rfl rfl

@[simp] theorem listener_passingError (t : Transceiver) (s : State) :
    (t.passingError s).listener = t.listener := by
  unfold passingError
  split <;> rfl

/-- A move of a transceiver that waits for what its state says leaves one, unless it ends. -/
theorem Fits.goto {e : Event} {s : State} (h : t.Fits) (hrunning : t.state ≠ .eEnd)
    (hmove : t.move e = some (u, s)) (hend : u.landing s ≠ .eEnd) : (u.goto s).Fits := by
  obtain ⟨pending, onError, hcurrent, hawaits, hslot⟩ := h
  obtain ⟨rest, handler, hu, hrest, hhandler⟩ := hcurrent.move hrunning hmove
  obtain ⟨ending, hlast⟩ := hawaits.endsLast hrunning
  have hlistener : u.listener = t.listener := listener_move hmove
  have hstate : ((u.passingError s).passing (u.path s)).state = u.landing s := by
    simp [Transceiver.passing, getLast?_path]
  rw [goto_eq]
  refine fits_arrive rest handler (fun _ ↦ hu.passing s _) ?_ ?_
    (hlast.sublist hrest) ?_ (hstate ▸ hend)
  · intro hl
    rcases hhandler with rfl | rfl
    · exact hslot (by simpa [Transceiver.passing, hlistener] using hl)
    · simp
  · rw [hstate]
    intro hbefore o ho
    exact hawaits.setsUp (beforeShutdown_of_landing hrunning hmove hbefore) o (hrest.subset ho)
  · rw [hstate]
    intro hshutdown
    simpa [Transceiver.passing] using (landing_eq_eShutdown hshutdown).2

/-- A callback that goes nowhere leaves what the state waits for. -/
theorem Fits.delivering {n : ℕ} {cb : Callback} (h : t.Fits) (hreaction : t.reaction cb = none) :
    (t.delivering n cb).Fits := by
  obtain ⟨pending, onError, hcurrent, hawaits, hslot⟩ := h
  obtain ⟨rest, hrest, hpending⟩ := hcurrent.delivering n cb
  refine ⟨rest, onError, hrest, ?_, hslot⟩
  rcases hpending with rfl | rfl
  · exact hawaits
  · exact hawaits.eraseP hreaction

/-- A lambda that goes nowhere leaves what the state waits for. -/
theorem Fits.aside {cb : Callback} (h : t.Fits) (haside : Aside t cb u) : u.Fits := by
  have hissue (operation : Operation) (s : State) (hstate : t.state = s)
      (hs : s = .eUnbindQueue ∨ s = .eRemoveQueue) (hoperation : operation.state = s) :
      ((t.setOnError none).issue operation).Fits := by
    obtain ⟨pending, onError, hcurrent, hawaits, hslot⟩ := h
    refine ⟨_, none, (hcurrent.setOnError none).issue operation, ?_, by simp⟩
    have hall : ∀ o ∈ pending, o.state = s := by
      rcases hs with rfl | rfl <;> rw [hstate] at hawaits <;> exact hawaits.1
    have hboth : (∀ o ∈ pending ++ [operation], o.state = s) ∧ pending ++ [operation] ≠ [] := by
      refine ⟨fun o ho ↦ ?_, by simp⟩
      rcases List.mem_append.mp ho with ho | ho
      · exact hall o ho
      · exact List.mem_singleton.mp ho ▸ hoperation
    refine Eq.mpr (congrArg (Awaits t.listener _ none) hstate) ?_
    rcases hs with rfl | rfl <;> exact ⟨hboth.1, Or.inr hboth.2⟩
  have hlog (new : List Observation) : { t with log := t.log ++ new }.Fits := by
    obtain ⟨pending, onError, hcurrent, hawaits, hslot⟩ := h
    exact ⟨pending, onError, hcurrent.of_eq rfl rfl, hawaits, hslot⟩
  cases haside with
  | idle => exact h
  | issue operation hissues hrequest =>
    exact hissue operation _ rfl hissues.state (request_state hrequest)
  | message | bounce => exact hlog _

/-- The step lemma: every step keeps a transceiver waiting for what its state says. -/
theorem tracked_step {e : Event} (h : t.Tracked) (hwell : t.WellFormed)
    (hstep : t.step e = some t') : t'.Tracked := by
  have hcrashed := crashed_eq_false_of_step hstep
  intro hrunning' hcrashed'
  cases hmove : t.move e with
  | some next =>
    obtain ⟨u, s⟩ := next
    obtain rfl := step_of_move hstep hmove
    rw [state_goto] at hrunning'
    by_cases hstate : t.state = .eEnd
    · by_cases hstart : ∃ connection, e = .start connection
      · obtain ⟨connection, rfl⟩ := hstart
        simp only [move, hstate, ↓reduceIte, Option.some.injEq, Prod.mk.injEq] at hmove
        obtain ⟨rfl, rfl⟩ := hmove
        have hlanding : ∀ v : Transceiver, v.landing .eCreateChannel ≠ .eEnd →
            v.landing .eCreateChannel = .eCreateChannel := by
          intro v hv
          simp only [landing, path] at hv ⊢
          split_ifs at hv ⊢ <;> simp_all
        rw [goto_eq]
        have hcreate : ∀ v : Transceiver, v.state = .eCreateChannel → v.arrive.Fits := fun v hv ↦
          fits_arrive [] none (fun hne ↦ absurd hv hne) (by simp)
            (by simp) ⟨[], [], rfl, by simp, by simp⟩ (by simp [hv]) (by simp [hv])
        exact hcreate _ (by simp [passing, getLast?_path, hlanding _ hrunning'])
      · rcases move_at_end hwell hstate (by simpa using hstart) hmove with ⟨rfl, -⟩ | ⟨-, hcrash⟩
        · exact absurd rfl hrunning'
        · simp [hcrash] at hcrashed'
    · exact (h hstate hcrashed).goto hstate hmove hrunning'
  | none =>
    have hstays := step_of_no_move hstep hmove
    have hrunning : t.state ≠ .eEnd := hstays.state ▸ hrunning'
    have hfits := h hrunning hcrashed
    cases still_of_no_move hstep hmove with
    | idle => exact hfits
    | install =>
      obtain ⟨pending, onError, hcurrent, hawaits, hslot⟩ := hfits
      exact ⟨pending, onError, hcurrent.of_eq rfl rfl, hawaits, hslot⟩
    | publish =>
      obtain ⟨pending, onError, hcurrent, hawaits, hslot⟩ := hfits
      obtain ⟨c, rfl, rfl, hpublished⟩ := hcurrent.onChannel fun c ↦ { c with publishing := true }
      exact ⟨_, _, hpublished.of_eq rfl rfl, hawaits, hslot⟩
    | callback n cb hreaction haside => exact (hfits.delivering hreaction).aside haside

theorem tracked_of_reachable (h : machine.Reachable t) : t.Tracked := by
  refine (h.invariant (I := fun s ↦ s.WellFormed ∧ s.Tracked) ?_ fun s e s' hs hstep ↦
    ⟨wellFormed_step hs.1 hstep, tracked_step hs.2 hs.1 hstep⟩).2
  rintro s ⟨exchange, queue, routeIn, listener, rfl⟩
  exact ⟨wellFormed_new exchange queue routeIn listener, fun hrunning ↦ absurd rfl hrunning⟩

end Transceiver

end AmqpAsio
