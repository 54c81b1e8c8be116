import AmqpAsio.Connector.Work

/-!
# Well-formed connectors

What holds of a connector after every run, also one in which sessions overlap: the handlers of
earlier sessions are over and stay so, every loop of a shutdown belongs to a handler that is over,
and a session is answered, or its transceivers dropped, only once its handler is stopped. A session
that is stopped and has no such loop left is spent: it is answered with `eNormal` or not at all.
-/

set_option autoImplicit false
set_option relaxedAutoImplicit false

namespace AmqpAsio

namespace ConnectionHandler

variable {h h' : ConnectionHandler}

/-- The handler is stopped or shutting down. -/
def Over (h : ConnectionHandler) : Prop := h.state = .eNotConnected ∨ h.state = .eShutdown

/-- A handler that is over stays so, and one that is stopped stays stopped. -/
def Ages (h h' : ConnectionHandler) : Prop :=
  (h.Over → h'.Over) ∧ (h.state = .eNotConnected → h'.state = .eNotConnected)

theorem ages_of_stopped (hstate : h'.state = .eNotConnected) : Ages h h' :=
  ⟨fun _ ↦ Or.inl hstate, fun _ ↦ hstate⟩

theorem Transition.ages {next : Continuation} (htransition : Transition h h' next) : Ages h h' := by
  cases next <;> simp only [Transition, State.Advances] at htransition
  case done =>
    rcases htransition with hsame | ⟨⟨hs, -⟩ | ⟨hs, -⟩ | ⟨hs, -⟩, -⟩
    · exact ⟨fun hover ↦ by simpa [Over, hsame] using hover, fun hs ↦ hsame.trans hs⟩
    all_goals exact ⟨fun hover ↦ by simp [Over, hs] at hover, fun hs' ↦ by simp [hs] at hs'⟩
  case connectedCb =>
    obtain ⟨hs, -⟩ := htransition
    exact ⟨fun hover ↦ by simp [Over, hs] at hover, fun hs' ↦ by simp [hs] at hs'⟩
  case shutdownLoop =>
    exact ⟨fun _ ↦ Or.inr htransition.2, fun hs ↦ absurd hs htransition.1⟩
  case shutdownCb => exact ages_of_stopped htransition.2.1
  case parse =>
    obtain ⟨-, hsame⟩ := htransition
    exact ⟨fun hover ↦ by simpa [Over, hsame] using hover, fun hs ↦ hsame.trans hs⟩

/-- A handler that is over and does not begin another shutdown stays where it is. -/
theorem Transition.still {next : Continuation} (htransition : Transition h h' next)
    (hover : h.Over) (hloop : next ≠ .shutdownLoop) :
    (next = .done ∨ next = .parse) ∧ h'.state = h.state := by
  cases next <;> simp only [Transition, State.Advances] at htransition
  case done =>
    rcases htransition with hsame | ⟨⟨hs, -⟩ | ⟨hs, -⟩ | ⟨hs, -⟩, -⟩
    · exact ⟨Or.inl rfl, hsame⟩
    all_goals simp [Over, hs] at hover
  case connectedCb => simp [Over, htransition.1] at hover
  case shutdownLoop => exact absurd rfl hloop
  case shutdownCb => rcases htransition.1 with hs | hs <;> simp [Over, hs] at hover
  case parse => exact ⟨Or.inr rfl, htransition.2⟩

theorem over_stop (h : ConnectionHandler) : h.stop.1.Over := by
  unfold stop
  split
  · next hstate => exact Or.inl hstate
  · exact Or.inr rfl

theorem stop_ne_shutdownCb (h : ConnectionHandler) (message : String) :
    h.stop.2 ≠ .shutdownCb message := by
  unfold stop
  split <;> simp [goto, stateMachine]

theorem stop_ne_connectedCb (h : ConnectionHandler) : h.stop.2 ≠ .connectedCb := by
  unfold stop
  split <;> simp [goto, stateMachine]

end ConnectionHandler

namespace Connector

open ConnectionHandler (Over Ages ages_of_stopped)

variable {c c' : Connector} {spent : ℕ → Prop}

/-- What holds of a connector after every run in which some sessions have been spent. -/
structure WellFormed (c : Connector) (spent : ℕ → Prop) : Prop where
  sound : ∀ h ∈ c.handlers, h.Sound
  others : ∀ i, i < c.session → (c.handler i).Over
  exiting : c.exiting = true → c.connectionHandler.Over
  loops : ∀ i, .shutdown i ∈ c.work → i < c.handlers.length ∧ (c.handler i).Over ∧ ¬ spent i
  drops : ∀ i, .drop i ∈ c.work →
    i < c.handlers.length ∧ (c.handler i).state = .eNotConnected ∧ ¬ spent i
  nonempty : c.connectionHandlerReady = true → c.session < c.handlers.length
  answered : ∀ i, exitCodes i c.log ≠ [] →
    i < c.handlers.length ∧ (c.handler i).state = .eNotConnected
  spent : ∀ i, spent i → i < c.handlers.length ∧ (c.handler i).state = .eNotConnected ∧
    ∀ code ∈ exitCodes i c.log, code = .eNormal

/-- The handlers of the earlier sessions are over. -/
theorem WellFormed.over {session : ℕ} (hwf : c.WellFormed spent)
    (hlt : session < c.handlers.length) (hne : session ≠ c.session) : (c.handler session).Over := by
  refine hwf.others session ?_
  unfold Connector.session at hne ⊢
  omega

theorem WellFormed.alike (h : c.WellFormed spent) (halike : Alike c c') :
    c'.WellFormed spent where
  sound := halike.sound h.sound
  others i hi := by
    unfold Over
    rw [halike.states]
    exact h.others i (halike.session ▸ hi)
  exiting hexiting := by
    unfold Over
    rw [halike.state]
    exact h.exiting (halike.exiting ▸ hexiting)
  loops i hi := by
    unfold Over
    rw [halike.length, halike.states]
    exact h.loops i (halike.work ▸ hi)
  drops i hi := by
    rw [halike.length, halike.states]
    exact h.drops i (halike.work ▸ hi)
  nonempty hready := by
    rw [halike.session, halike.length]
    exact h.nonempty (halike.ready ▸ hready)
  answered i hi := by
    rw [halike.length, halike.states]
    exact h.answered i (halike.exits i ▸ hi)
  spent i hi := by
    rw [halike.length, halike.states, halike.exits]
    exact h.spent i hi

/-! ### Ending a session -/

/-- A stopped session is answered, with `eNormal` if it is spent. -/
theorem WellFormed.exit {session : ℕ} {code : ExitCode} (h : c.WellFormed spent)
    (hlt : session < c.handlers.length) (hstate : (c.handler session).state = .eNotConnected)
    (hcode : spent session → code = .eNormal) : (c.exit session code).WellFormed spent := by
  rcases alike_exit c session code with halike | halike
  · exact h.alike halike
  · have hlog (i : ℕ) := exitCodes_record_exit c i session code
    refine WellFormed.alike ?_ halike
    refine { h with answered := fun i hi ↦ ?_, spent := fun i hi ↦ ?_ }
    · rw [hlog] at hi
      by_cases heq : session = i
      · exact heq ▸ ⟨hlt, hstate⟩
      · rw [if_neg heq, List.append_nil] at hi
        exact h.answered i hi
    · obtain ⟨hlt', hstate', hexits⟩ := h.spent i hi
      refine ⟨hlt', hstate', fun other hother ↦ ?_⟩
      rw [hlog, List.mem_append] at hother
      refine hother.elim (hexits other) fun hother ↦ ?_
      by_cases heq : session = i
      · rw [if_pos heq, List.mem_singleton] at hother
        exact hother.trans (hcode (heq ▸ hi))
      · simp [heq] at hother

theorem WellFormed.disconnected (h : c.WellFormed spent) : c.disconnected.WellFormed spent :=
  { h with nonempty := fun hready ↦ by cases hready }

/-- A call whose task is not about a shutdown is suspended. -/
theorem WellFormed.pushOther {f : Frame} (h : c.WellFormed spent)
    (hloops : ∀ i, f.task ≠ some (.shutdown i)) (hdrops : ∀ i, f.task ≠ some (.drop i)) :
    (c.push f).WellFormed spent := by
  have hmem {task : Task} (hne : f.task ≠ some task) (htask : task ∈ (c.push f).work) :
      task ∈ c.work := by
    rw [work_push, List.mem_append, List.mem_filter, Option.mem_toList] at htask
    exact htask.resolve_left fun hf ↦ hne hf.1
  exact { h with
    loops := fun i hi ↦ h.loops i (hmem (hloops i) hi)
    drops := fun i hi ↦ h.drops i (hmem (hdrops i) hi) }

theorem WellFormed.stop (h : c.WellFormed spent) : c.stop.WellFormed spent := by
  unfold Connector.stop
  split
  · exact h
  · exact h.pushOther (by simp [Frame.task, Loop.task]) (by simp [Frame.task, Loop.task])

/-- A stopped session that is not spent comes to `onShutdown`. -/
theorem WellFormed.onShutdown {session : ℕ} (h : c.WellFormed spent)
    (hlt : session < c.handlers.length) (hstate : (c.handler session).state = .eNotConnected)
    (hopen : ¬ spent session) : (c.onShutdown session).WellFormed spent := by
  unfold Connector.onShutdown
  split
  · exact h.disconnected.exit hlt hstate fun _ ↦ rfl
  · split
    · refine WellFormed.exit (c := { c with amqpConnection := none, sentinel := false }) ?_ hlt
        hstate fun hspent ↦ absurd hspent hopen
      exact { h with }
    · split
      · refine { h with loops := fun i hi ↦ ?_, drops := fun i hi ↦ ?_ }
        · rw [work_push] at hi
          exact h.loops i (by simpa [Frame.task, Loop.task, Task.isWork] using hi)
        · rw [work_push] at hi
          have hcases : i = session ∨ .drop i ∈ c.work := by
            simpa [Frame.task, Loop.task, Task.isWork] using hi
          rcases hcases with rfl | hi
          exacts [⟨hlt, hstate, hopen⟩, h.drops i hi]
      · exact h.stop

/-! ### The handlers -/

/-- The handler of a session ages. -/
theorem WellFormed.setHandler {v : ConnectionHandler} (h : c.WellFormed spent) (session : ℕ)
    (hages : Ages (c.handler session) v) (hsound : v.Sound) :
    (c.setHandler session v).WellFormed spent := by
  by_cases hlt : session < c.handlers.length
  · have hover (i : ℕ) (hi : (c.handler i).Over) : ((c.setHandler session v).handler i).Over := by
      by_cases heq : i = session
      · subst heq
        rw [handler_setHandler c i v hlt]
        exact hages.1 hi
      · rwa [handler_setHandler_of_ne c v heq]
    have hstopped (i : ℕ) (hi : (c.handler i).state = .eNotConnected) :
        ((c.setHandler session v).handler i).state = .eNotConnected := by
      by_cases heq : i = session
      · subst heq
        rw [handler_setHandler c i v hlt]
        exact hages.2 hi
      · rwa [handler_setHandler_of_ne c v heq]
    have hlength := length_setHandler c session v
    have hsession := session_setHandler c session v
    constructor
    case sound => exact forall_mem_setHandler h.sound hsound
    case others => exact fun i hi ↦ hover i (h.others i (hsession ▸ hi))
    case exiting =>
      intro hexiting
      unfold connectionHandler
      rw [hsession]
      exact hover _ (h.exiting hexiting)
    case loops =>
      intro i hi
      obtain ⟨hlt', hstate, hopen⟩ := h.loops i hi
      exact ⟨hlength.symm ▸ hlt', hover i hstate, hopen⟩
    case drops =>
      intro i hi
      obtain ⟨hlt', hstate, hopen⟩ := h.drops i hi
      exact ⟨hlength.symm ▸ hlt', hstopped i hstate, hopen⟩
    case nonempty =>
      intro hready
      rw [hsession, hlength]
      exact h.nonempty hready
    case answered =>
      intro i hi
      obtain ⟨hlt', hstate⟩ := h.answered i hi
      exact ⟨hlength.symm ▸ hlt', hstopped i hstate⟩
    case spent =>
      intro i hi
      obtain ⟨hlt', hstate, hexits⟩ := h.spent i hi
      exact ⟨hlength.symm ▸ hlt', hstopped i hstate, hexits⟩
  · rwa [setHandler_of_le (Nat.not_lt.mp hlt)]

/-- A handler finishes its shutdown. -/
theorem WellFormed.finish {session : ℕ} (h : c.WellFormed spent)
    (hlt : session < c.handlers.length) (hopen : ¬ spent session) :
    (c.finish session).WellFormed spent := by
  have hset := h.setHandler session (ages_of_stopped rfl)
    (h.sound _ (handler_mem hlt)).endShutdown
  refine (hset.alike (quiet_push _ rfl).alike).onShutdown ?_ ?_ hopen
  · rw [show (((c.setHandler session (c.handler session).endShutdown.1).push
      (.shutdownCb session)).handlers) = (c.setHandler session _).handlers from rfl,
      length_setHandler]
    exact hlt
  · rw [handler_push, handler_setHandler c session _ hlt]
    rfl

theorem WellFormed.callStartedCb (h : c.WellFormed spent) : c.callStartedCb.WellFormed spent := by
  unfold Connector.callStartedCb
  split
  · exact h
  · exact h.alike (quiet_push c rfl).alike
  · by_cases hstop : c.auto.needStop
    · unfold Connector.started
      rw [if_pos hstop]
      exact WellFormed.stop (h.alike (alike_of_eq [] rfl rfl rfl rfl rfl (by simp) (by simp)))
    · exact h.alike (quiet_started (by simpa using hstop)).alike

theorem WellFormed.onConnected (h : c.WellFormed spent) (hlt : c.session < c.handlers.length) :
    c.onConnected.WellFormed spent := by
  have hacts := ConnectionHandler.acts_method (h := c.connectionHandler)
    (e := .onData protocolHeader) rfl
  have hset := h.setHandler c.session hacts.transition.ages
    (hacts.sound (h.sound _ (handler_mem hlt)))
  refine WellFormed.callStartedCb (c := { c.setHandler c.session _ with
    connectionHandlerReady := true, amqpConnection := some c.session, sentinel := false }) ?_
  refine { hset with nonempty := fun _ ↦ ?_ }
  change (c.setHandler c.session _).session < (c.setHandler c.session _).handlers.length
  rw [session_setHandler, length_setHandler]
  exact hlt

/-- A method of a handler goes on, the handler having changed. -/
theorem WellFormed.handle {session : ℕ} {r : ConnectionHandler × ConnectionHandler.Continuation}
    (hset : (c.setHandler session r.1).WellFormed spent) (hlt : session < c.handlers.length)
    (hloop : r.2 = .shutdownLoop → r.1.Over ∧ ¬ spent session)
    (hcb : ∀ message, r.2 = .shutdownCb message → r.1.state = .eNotConnected ∧ ¬ spent session) :
    (c.handle session r).WellFormed spent := by
  obtain ⟨v, next⟩ := r
  have hlt' : session < (c.setHandler session v).handlers.length := by
    rwa [length_setHandler]
  have hself := handler_setHandler c session v hlt
  simp only [Connector.handle]
  cases next with
  | done => exact hset
  | connectedCb =>
    refine hset.onConnected ?_
    rw [session_setHandler, length_setHandler]
    unfold Connector.session
    omega
  | parse => exact hset.alike (quiet_push _ rfl).alike
  | shutdownLoop =>
    change (if v.waiting then (c.setHandler session v).push (.shutdownLoop session)
      else (c.setHandler session v).finish session).WellFormed spent
    split
    · refine { hset with loops := fun i hi ↦ ?_, drops := fun i hi ↦ ?_ }
      · rw [work_push] at hi
        have hcases : i = session ∨ .shutdown i ∈ (c.setHandler session v).work := by
          simpa [Frame.task, Task.isWork] using hi
        rcases hcases with rfl | hi
        · exact ⟨hlt', hself.symm ▸ hloop rfl⟩
        · exact hset.loops i hi
      · rw [work_push] at hi
        exact hset.drops i (by simpa [Frame.task, Task.isWork] using hi)
    · exact hset.finish hlt' (hloop rfl).2
  | shutdownCb message =>
    obtain ⟨hstate, hopen⟩ := hcb message rfl
    exact (hset.alike (quiet_push _ rfl).alike).onShutdown hlt' (hself.symm ▸ hstate) hopen

/-- A handler that goes on to shut down is not of a spent session. -/
theorem WellFormed.not_spent_of_loop {session : ℕ} {v : ConnectionHandler}
    {next : ConnectionHandler.Continuation} (h : c.WellFormed spent)
    (htransition : (c.handler session).Transition v next) (hloop : next = .shutdownLoop) :
    ¬ spent session := by
  rw [hloop] at htransition
  exact fun hspent ↦ htransition.1 (h.spent session hspent).2.1

/-- A method of a handler is called. -/
theorem WellFormed.acts {session : ℕ} {r : ConnectionHandler × ConnectionHandler.Continuation}
    (h : c.WellFormed spent) (hlt : session < c.handlers.length)
    (hacts : (c.handler session).Acts r) : (c.handle session r).WellFormed spent := by
  have htransition := hacts.transition
  refine WellFormed.handle ?_ hlt (fun hloop ↦ ?_) fun message hcb ↦ ?_
  · exact h.setHandler session htransition.ages (hacts.sound (h.sound _ (handler_mem hlt)))
  · rw [hloop] at htransition
    exact ⟨Or.inr htransition.2, h.not_spent_of_loop htransition rfl⟩
  · rw [hcb] at htransition
    refine ⟨htransition.2.1, fun hspent ↦ ?_⟩
    have hstate := (h.spent session hspent).2.1
    rcases htransition.1 with hs | hs <;> simp [hstate] at hs

/-! ### The next session -/

/-- A session begins once the handlers of all others are over. -/
theorem WellFormed.begin (h : c.WellFormed spent) (hover : c.connectionHandler.Over)
    (callback : Option StartedCallback) : (c.begun callback c.handlers).WellFormed spent := by
  have hhandler {i : ℕ} (hi : i < c.handlers.length) :
      (c.begun callback c.handlers).handler i = c.handler i := handler_begun c callback hi
  have hlength {i : ℕ} (hi : i < c.handlers.length) :
      i < (c.handlers ++ [(ConnectionHandler.new.start true).1]).length := by
    rw [List.length_append]
    exact Nat.lt_add_right _ hi
  refine { h with
    sound := fun v hv ↦ ?_, others := fun i hi ↦ ?_, exiting := fun hexiting ↦ by cases hexiting
    loops := fun i hi ↦ ?_, drops := fun i hi ↦ ?_, nonempty := fun _ ↦ ?_
    answered := fun i hi ↦ ?_, spent := fun i hi ↦ ?_ }
  · rw [begun, List.mem_append, List.mem_singleton] at hv
    rcases hv with hv | rfl
    exacts [h.sound v hv, ConnectionHandler.sound_start]
  · have hi' : i < c.handlers.length := by simpa using hi
    rw [hhandler hi']
    by_cases heq : i = c.session
    · exact heq ▸ hover
    · refine h.others i ?_
      unfold Connector.session at heq ⊢
      omega
  · obtain ⟨hlt, hstate, hopen⟩ := h.loops i hi
    exact ⟨hlength hlt, (hhandler hlt).symm ▸ hstate, hopen⟩
  · obtain ⟨hlt, hstate, hopen⟩ := h.drops i hi
    exact ⟨hlength hlt, (hhandler hlt).symm ▸ hstate, hopen⟩
  · rw [session_begun]
    simp [begun]
  · obtain ⟨hlt, hstate⟩ := h.answered i hi
    exact ⟨hlength hlt, (hhandler hlt).symm ▸ hstate⟩
  · obtain ⟨hlt, hstate, hexits⟩ := h.spent i hi
    exact ⟨hlength hlt, (hhandler hlt).symm ▸ hstate, hexits⟩

theorem WellFormed.asyncStart (h : c.WellFormed spent) (callback : Option StartedCallback) :
    (c.asyncStart callback).WellFormed spent := by
  simp only [Connector.asyncStart]
  split
  · exact h
  · split
    · next hlast =>
      rw [List.getLast?_eq_none_iff] at hlast
      exact h.begin (by simp [connectionHandler, handler, hlast, Over, ConnectionHandler.new])
        callback
    · next old hlast =>
      obtain ⟨hlt, rfl⟩ := connectionHandler_of_getLast? hlast
      have hacts := ConnectionHandler.acts_stop c.connectionHandler
      have hstopped := ConnectionHandler.over_stop c.connectionHandler
      have hset := h.setHandler c.session hacts.transition.ages
        (hacts.sound (h.sound _ (handler_mem hlt)))
      refine WellFormed.handle ?_ ?_ (fun hloop ↦ ⟨hstopped, ?_⟩) fun message hcb ↦ ?_
      · have hself := connectionHandler_setHandler c c.connectionHandler.stop.1 hlt
        have hbegin := hset.begin (hself.symm ▸ hstopped) callback
        simp only [Connector.setHandler] at hbegin ⊢
        rwa [List.set_append_left _ _ hlt]
      · simpa using Nat.lt_succ_of_lt hlt
      · exact h.not_spent_of_loop hacts.transition hloop
      · exact absurd hcb (ConnectionHandler.stop_ne_shutdownCb _ message)

/-! ### The step -/

/-- A suspended call is taken from the stack. -/
theorem WellFormed.pop (h : c.WellFormed spent) (stack : List Frame)
    (hsub : ∀ task ∈ { c with stack := stack }.work, task ∈ c.work) :
    { c with stack := stack }.WellFormed spent :=
  { h with
    loops := fun i hi ↦ h.loops i (hsub _ hi)
    drops := fun i hi ↦ h.drops i (hsub _ hi) }

theorem WellFormed.stopHandler (h : c.WellFormed spent) (issued : ℕ) :
    (c.stopHandler issued).WellFormed spent := by
  have hrecord : (c.record (.acted issued c.session)).WellFormed spent := by
    have hlog (i : ℕ) := exitCodes_record_acted c i issued c.session
    refine { h with answered := fun i hi ↦ h.answered i (hlog i ▸ hi), spent := fun i hi ↦ ?_ }
    rw [hlog]
    exact h.spent i hi
  unfold Connector.stopHandler
  split
  · next hstopped =>
    have hstate : c.connectionHandler.state = .eNotConnected := by
      simpa [ConnectionHandler.stopped] using hstopped
    split
    · next hready => exact hrecord.disconnected.exit (h.nonempty hready) hstate fun _ ↦ rfl
    · exact h
  · next hstopped =>
    have hlt : c.session < c.handlers.length := by
      refine session_lt_of_state ?_
      simpa [ConnectionHandler.stopped] using hstopped
    have hacts := ConnectionHandler.acts_stop c.connectionHandler
    have hset := hrecord.setHandler c.session hacts.transition.ages
      (hacts.sound (h.sound _ (handler_mem hlt)))
    have hover := ConnectionHandler.over_stop c.connectionHandler
    refine WellFormed.handle ?_ hlt (fun hloop ↦ ⟨hover, ?_⟩) fun message hcb ↦ ?_
    · refine { hset with exiting := fun _ ↦ ?_ }
      have hself := connectionHandler_setHandler c c.connectionHandler.stop.1 hlt
      exact hself.symm ▸ hover
    · exact h.not_spent_of_loop hacts.transition hloop
    · exact absurd hcb (ConnectionHandler.stop_ne_shutdownCb _ message)

theorem WellFormed.perform {task : Task} {stack : List Frame} (h : c.WellFormed spent)
    (htasks : c.tasks = task :: { c with stack := stack }.tasks) :
    (task.perform { c with stack := stack }).WellFormed spent := by
  have hwork := work_of_tasks htasks
  have hpop := h.pop stack fun other hother ↦ hwork ▸ List.mem_append_right _ hother
  cases task with
  | shutdown session =>
    obtain ⟨hlt, -, hopen⟩ := h.loops session (by simp [hwork, Task.isWork])
    exact hpop.finish hlt hopen
  | stop issued => exact { hpop with }
  | stopHandler issued => exact hpop.stopHandler issued
  | drop session =>
    obtain ⟨hlt, hstate, hopen⟩ := h.drops session (by simp [hwork, Task.isWork])
    exact hpop.disconnected.exit hlt hstate fun hspent ↦ absurd hspent hopen
  | restart code => exact hpop.alike (alike_restart _ code)
  | backup | autoStop => exact { hpop with }
  | autoStart =>
    exact hpop.alike
      (alike_of_eq [.startReturned] rfl rfl rfl rfl rfl rfl (by simp [Observation.isAside]))

theorem WellFormed.occur {e : Event} (h : c.WellFormed spent) (hoccur : c.occur e = some c') :
    c'.WellFormed spent := by
  cases e with
  | remove =>
    rw [← Option.some.inj hoccur]
    exact { h with }
  | run => exact Option.some.inj hoccur ▸ h.alike (quiet_run c).alike
  | asyncStart callback => exact Option.some.inj hoccur ▸ h.asyncStart _
  | start =>
    rw [← Option.some.inj hoccur]
    unfold Connector.start
    split
    · exact h
    · exact (h.alike (quiet_push c rfl).alike).asyncStart none
  | stop => exact Option.some.inj hoccur ▸ h.stop
  | onExit f =>
    rw [← Option.some.inj hoccur]
    exact h.alike
      (alike_of_eq [.installed f] rfl rfl rfl rfl rfl rfl (by simp [Observation.isAside]))
  | autoStart callback =>
    rw [← Option.some.inj hoccur]
    simp only [Connector.autoStart]
    split
    · exact h
    · refine WellFormed.asyncStart (h.alike ?_) _
      exact alike_of_eq [.startAccepted] rfl rfl rfl rfl rfl rfl (by simp [Observation.isAside])
  | autoStop =>
    rw [← Option.some.inj hoccur]
    have hcalled : (c.record .stopCalled).WellFormed spent :=
      h.alike (alike_of_eq [.stopCalled] rfl rfl rfl rfl rfl rfl (by simp [Observation.isAside]))
    simp only [Connector.autoStop]
    split
    · exact hcalled
    · split
      · refine WellFormed.stop ?_
        exact { hcalled with }
      · exact { hcalled with }
  | handler session e =>
    obtain ⟨⟨hlt, -⟩, hoccur⟩ := Option.ite_none_right_eq_some.mp hoccur
    obtain ⟨r, hmethod, rfl⟩ := Option.map_eq_some_iff.mp hoccur
    exact h.acts hlt (ConnectionHandler.acts_method hmethod)
  | posted k =>
    obtain ⟨issued, -, rfl⟩ := Option.map_eq_some_iff.mp hoccur
    refine WellFormed.pushOther ?_ (by simp [Frame.task, Loop.task])
      (by simp [Frame.task, Loop.task])
    exact { h with }
  | timerExpires =>
    obtain ⟨-, hoccur⟩ := Option.ite_none_right_eq_some.mp hoccur
    rw [← Option.some.inj hoccur]
    exact { h with }
  | timerHandler =>
    obtain ⟨-, hoccur⟩ := Option.ite_none_left_eq_some.mp hoccur
    rw [← Option.some.inj hoccur]
    refine WellFormed.asyncStart ?_ _
    exact { h with }

theorem wellFormed_new : Connector.new.WellFormed fun _ ↦ False where
  sound := by simp [Connector.new]
  others := by simp [Connector.new, Connector.session]
  exiting := by simp [Connector.new]
  loops := by simp [Connector.new, work, tasks]
  drops := by simp [Connector.new, work, tasks]
  nonempty := by simp [Connector.new]
  answered := by simp [Connector.new, exitCodes]
  spent := by simp

end Connector

namespace Program

open Connector

variable {τ ε : Type} [TransceiverImpl τ ε] {p p' : Program τ} {spent : ℕ → Prop}

theorem wellFormed_step {e : Event ε} (h : p.connector.WellFormed spent)
    (hstep : p.step e = some p') : p'.connector.WellFormed spent := by
  have hmoves := moves_of_step hstep
  generalize p'.connector = c' at hmoves
  cases hmoves with
  | quiet he hquiet => exact h.alike hquiet.alike
  | occur hquiet hoccur => exact (h.alike hquiet.alike).occur hoccur
  | @parsed parsed expected session c₁ r hquiet hparsed =>
    have h₁ := h.alike hquiet.alike
    by_cases hlt : session < c₁.handlers.length
    · exact h₁.acts hlt (ConnectionHandler.acts_onParsed hparsed)
    · rw [handler_of_le (Nat.not_lt.mp hlt)] at hparsed
      obtain rfl := Option.some.inj hparsed
      rw [Connector.handle, setHandler_of_le (Nat.not_lt.mp hlt)]
      exact h₁
  | @shutdownCb session c₁ hquiet =>
    have h₁ := h.alike hquiet.alike
    by_cases hlt : session < c₁.handlers.length
    · exact h₁.alike (alike_setHandler hlt (fun hsound ↦ hsound.endShutdownCb) rfl)
    · rw [setHandler_of_le (Nat.not_lt.mp hlt)]
      exact h₁
  | perform hdue hwaits htasks => exact h.perform htasks

/-- Every connector that a program reaches is well formed. -/
theorem wellFormed (h : (machine τ).Reachable p) : p.connector.WellFormed fun _ ↦ False := by
  refine h.invariant (I := fun q ↦ q.connector.WellFormed fun _ ↦ False) (fun q hq ↦ ?_)
    fun q e q' hq hstep ↦ wellFormed_step hq hstep
  obtain rfl : q = _ := hq
  exact wellFormed_new

end Program

end AmqpAsio
