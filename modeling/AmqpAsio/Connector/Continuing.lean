import AmqpAsio.Connector.Parts
import Mathlib.Algebra.Order.BigOperators.Group.List
import Mathlib.Algebra.Order.Group.Nat

/-!
# What goes on by itself

Several methods of a connector run the event loop until the transceivers have got somewhere.
Meanwhile the calls that are suspended return, the handlers posted are run, and the broker answers.
`Continues` lists these events. How much of them is left to come is counted by `load`, which every
answer makes smaller (`exists_answered`), as every return of a call does.
-/

set_option autoImplicit false
set_option relaxedAutoImplicit false

namespace AmqpAsio

namespace Program

open Connector

variable {p p' : Program Transceiver} {ids : List ℕ}

/-- The frame stands for foreign code. -/
def isForeign : Frame → Bool
  | .client | .parse _ => true
  | _ => false

/-- The event loop is running: the topmost suspended call waits in it, or all have returned. -/
def InLoop (p : Program Transceiver) : Prop :=
  p.pausing = true ∧ ∀ f ∈ p.connector.stack.head?, isForeign f = false

/-- The event is the failure of a read or a write. -/
def isAbort : ConnectionHandler.Event → Bool
  | .read (some _) _ _ | .wrote (some _) _ => true
  | _ => false

/-- What happens without the application: calls return, handlers posted by a `stop()` are run, the
broker answers the transceivers in the list until the connection is shut down, and then its read and
its write fail. -/
inductive Continues (p : Program Transceiver) : Event Transceiver.Event → Prop
  | resume (h : p.resume ≠ none) : Continues p .resume
  | posted {k : ℕ} (hloop : p.InLoop) (hk : k < p.connector.posted.length) :
      Continues p (.connector (.posted k))
  | answer {i : ℕ} {t : Transceiver} {event : Transceiver.Event} (hloop : p.InLoop)
      (hup : p.connector.connectionHandler.state ≠ .eShutdown) (hi : i ∈ p.connector.transceivers)
      (hget : p.pool[i]? = some t) (hanswer : t.Answer event) : Continues p (.call i event)
  | aborted {event : ConnectionHandler.Event}
      {r : ConnectionHandler × ConnectionHandler.Continuation} (hloop : p.InLoop)
      (hdown : p.connector.connectionHandler.state = .eShutdown) (habort : isAbort event = true)
      (hmethod : p.connector.connectionHandler.method event = some r) :
      Continues p (.connector (.handler p.connector.session event))

/-! ### The operations of the transceivers -/

theorem pool_update {i : ℕ} {t : Transceiver} (hget : p.pool[i]? = some t) (t' : Transceiver)
    (j : ℕ) : (p.update i t t').pool[j]? = if i = j then some t' else p.pool[j]? := by
  have hlt := (List.getElem?_eq_some_iff.mp hget).1
  unfold update
  by_cases heq : i = j
  · subst heq
    rw [if_pos rfl, List.getElem?_set_self hlt]
  · rw [if_neg heq, List.getElem?_set_ne heq]

theorem pool_operate (p : Program Transceiver) (i j : ℕ) (f : Transceiver → Transceiver) :
    (p.operate i f).pool[j]? = if i = j then p.pool[j]?.map f else p.pool[j]? := by
  unfold operate
  split
  · next hget =>
    by_cases heq : i = j
    · subst heq
      simp [hget]
    · rw [if_neg heq]
  · next t hget =>
    rw [pool_update hget]
    by_cases heq : i = j
    · subst heq
      simp [hget]
    · rw [if_neg heq, if_neg heq]

/-! ### The suspended calls -/

theorem eq_nil_of_inLoop {n : ℕ} {below : List Frame} (hloop : p.InLoop)
    (hstack : p.connector.stack = List.replicate n .client ++ below) : n = 0 := by
  cases n with
  | zero => rfl
  | succ n =>
    have hclient := hloop.2 .client (by simp [hstack, List.replicate_succ])
    cases hclient

/-- An operation of a transceiver leaves on the stack what was there, below calls of the
application. -/
theorem exists_stack_operation {n : ℕ} {below : List Frame}
    (hconnector : p'.connector = p.connector ∨ p'.connector = p.connector.push .client)
    (hstack : p.connector.stack = List.replicate n .client ++ below) :
    ∃ m, p'.connector.stack = List.replicate m .client ++ below := by
  rcases hconnector with heq | heq
  · exact ⟨n, heq.symm ▸ hstack⟩
  · refine ⟨n + 1, ?_⟩
    rw [heq, push, hstack]
    rfl

theorem posted_operation
    (hconnector : p'.connector = p.connector ∨ p'.connector = p.connector.push .client) :
    p'.connector.posted = p.connector.posted := by
  rcases hconnector with heq | heq
  · rw [heq]
  · rw [heq, push]

theorem resume_client {rest : List Frame} (hstack : p.connector.stack = .client :: rest) :
    p.resume = some { p with connector := { p.connector with stack := rest } } := by
  simp [resume, hstack, Frame.goOn]

/-- A loop over the transceivers goes on. -/
theorem resume_forEach {loop : Loop} {rest : List ℕ} {below : List Frame}
    (hstack : p.connector.stack = .forEach loop rest :: below) :
    p.resume =
      match p.connector.remaining rest with
      | [] => some { p with connector := loop.after { p.connector with stack := below } }
      | i :: others =>
        if p.waitsAt loop i then none
        else
          let f := .forEach loop others
          some (body { p with connector := { p.connector with stack := f :: below } } loop i) := by
  simp only [Program.resume, hstack]
  cases loop <;> rfl

/-- Below the calls of the application is a loop that does not wait. -/
theorem not_inLoop {n : ℕ} {loop : Loop} {rest : List ℕ} {below : List Frame}
    (hstack : p.connector.stack = List.replicate n .client ++ .forEach loop rest :: below)
    (hnever : ∀ i, p.waitsAt loop i = false) : ¬ p.InLoop := by
  intro hloop
  obtain rfl := eq_nil_of_inLoop hloop hstack
  have hpausing := hloop.1
  rw [List.replicate_zero, List.nil_append] at hstack
  unfold pausing at hpausing
  rw [hstack] at hpausing
  simp only [hnever] at hpausing
  split at hpausing
  · cases hpausing
  · cases hpausing

theorem mem_of_remaining {c : Connector} {rest others : List ℕ} {i : ℕ}
    (hremaining : c.remaining rest = i :: others) : i ∈ c.transceivers := by
  have hmem : i ∈ c.remaining rest := by simp [hremaining]
  simpa using List.of_mem_filter hmem

theorem length_of_remaining {c : Connector} {rest others : List ℕ} {i : ℕ}
    (hremaining : c.remaining rest = i :: others) : others.length + 1 ≤ rest.length := by
  rw [← List.length_cons, ← hremaining]
  exact List.length_filter_le _ rest

/-! ### The transceivers of a loop -/

/-- The transceiver with the number, if there is one, satisfies the condition. -/
def Holds (i : ℕ) (P : Transceiver → Prop) (pool : List Transceiver) : Prop :=
  ∀ t, pool[i]? = some t → P t

/-- A loop over the transceivers comes to those for which `P` holds still, and `Q` holds of those it
has come to. -/
def Visits (P Q : ℕ → Transceiver → Prop) (ids rest : List ℕ) (pool : List Transceiver) : Prop :=
  ∀ i ∈ ids, i ∈ rest ∧ Holds i (P i) pool ∨ Holds i (Q i) pool

theorem Holds.update {i j : ℕ} {t t' : Transceiver} {P : Transceiver → Prop}
    (h : Holds j P p.pool) (hget : p.pool[i]? = some t) (hkeeps : P t → P t') :
    Holds j P (p.update i t t').pool := by
  intro u hu
  rw [pool_update hget] at hu
  split at hu
  · next heq =>
    obtain rfl := Option.some.inj hu
    exact hkeeps (h t (heq ▸ hget))
  · exact h u hu

/-- A loop comes to the next transceiver. -/
theorem Visits.next {P Q : ℕ → Transceiver → Prop} {rest others : List ℕ} {i : ℕ}
    {pool : List Transceiver} (h : Visits P Q ids rest p.pool)
    (hids : p.connector.transceivers = ids)
    (hremaining : p.connector.remaining rest = i :: others)
    (hothers : ∀ j ≠ i, pool[j]? = p.pool[j]?)
    (hself : Holds i (P i) p.pool ∨ Holds i (Q i) p.pool → Holds i (Q i) pool) :
    Visits P Q ids others pool := by
  intro j hj
  by_cases heq : j = i
  · subst heq
    exact Or.inr (hself ((h j hj).imp_left And.right))
  · refine (h j hj).imp (fun hrest ↦ ⟨?_, ?_⟩) fun hvisited t ht ↦ hvisited t (hothers j heq ▸ ht)
    · have hmem : j ∈ i :: others := by
        rw [← hremaining]
        simpa [remaining, hids] using ⟨hrest.1, hj⟩
      exact (List.mem_cons.mp hmem).resolve_left heq
    · exact fun t ht ↦ hrest.2 t (hothers j heq ▸ ht)

/-- A loop has come to its end. -/
theorem Visits.done {P Q : ℕ → Transceiver → Prop} {rest : List ℕ}
    (h : Visits P Q ids rest p.pool) (hids : p.connector.transceivers = ids)
    (hremaining : p.connector.remaining rest = []) : ∀ i ∈ ids, Holds i (Q i) p.pool := by
  intro i hi
  refine (h i hi).resolve_left fun hrest ↦ ?_
  have hmem : i ∈ p.connector.remaining rest := by
    simpa [remaining, hids] using ⟨hrest.1, hi⟩
  simp [hremaining] at hmem

/-- A loop calls a method of the next transceiver. -/
theorem Visits.operate {P Q : ℕ → Transceiver → Prop} {rest others : List ℕ} {i : ℕ}
    {f : Transceiver → Transceiver} (h : Visits P Q ids rest p.pool)
    (hids : p.connector.transceivers = ids)
    (hremaining : p.connector.remaining rest = i :: others) (hf : ∀ t, P i t ∨ Q i t → Q i (f t)) :
    Visits P Q ids others (p.operate i f).pool := by
  refine h.next hids hremaining (fun j hne ↦ ?_) fun hself t hget ↦ ?_
  · rw [pool_operate, if_neg (Ne.symm hne)]
  · rw [pool_operate, if_pos rfl] at hget
    obtain ⟨u, hu, rfl⟩ := Option.map_eq_some_iff.mp hget
    exact hf u (hself.imp (fun h ↦ h u hu) fun h ↦ h u hu)

/-! ### How much is left to come -/

/-- What a suspended call still has to do. -/
def stepsOf : Frame → ℕ
  | .client => 1
  | .forEach (.stop _) rest | .forEach .start rest | .forEach (.drop _) rest => 2 * rest.length
  | .forEach (.stopHandler _) rest | .forEach .ready rest => rest.length
  | _ => 0

/-- What the suspended calls still have to do. -/
def steps (p : Program Transceiver) : ℕ := (p.connector.stack.map stepsOf).sum

/-- The answers that may come to a transceiver until its end. -/
def leftOf (p : Program Transceiver) (i : ℕ) : ℕ := (p.pool[i]?.map Transceiver.left).getD 0

/-- What is still to come: the answers, each of which may call the application, what the suspended
calls have to do, and the handlers posted. -/
def load (p : Program Transceiver) : ℕ :=
  2 * (p.connector.transceivers.map p.leftOf).sum + p.steps +
    p.connector.posted.length * (p.connector.transceivers.length + 1)

theorem leftOf_le {i n : ℕ} (h : ∀ t, p.pool[i]? = some t → t.left ≤ n) : p.leftOf i ≤ n := by
  unfold leftOf
  cases hget : p.pool[i]? with
  | none => exact Nat.zero_le n
  | some t => exact h t hget

theorem sum_leftOf_le {n : ℕ} (h : ∀ i ∈ ids, p.leftOf i ≤ n) :
    (ids.map p.leftOf).sum ≤ ids.length * n := by
  rw [← List.length_map p.leftOf]
  refine List.sum_le_card_nsmul _ n ?_
  intro k hk
  obtain ⟨i, hi, rfl⟩ := List.mem_map.mp hk
  exact h i hi

theorem sum_leftOf_update {i : ℕ} {t t' : Transceiver} (hi : i ∈ ids)
    (hget : p.pool[i]? = some t) (hless : t'.left < t.left) :
    (ids.map (p.update i t t').leftOf).sum < (ids.map p.leftOf).sum := by
  have hself : (p.update i t t').leftOf i < p.leftOf i := by
    simpa [leftOf, pool_update hget, hget] using hless
  refine List.sum_lt_sum _ _ ?_ ⟨i, hi, hself⟩
  intro j _
  by_cases heq : i = j
  · subst heq
    exact Nat.le_of_lt hself
  · simp [leftOf, pool_update hget, heq]

/-- An answer that makes less to come in a transceiver makes less to come, though it may call the
application. -/
theorem load_operation
    (hconnector : p'.connector = p.connector ∨ p'.connector = p.connector.push .client)
    (hless : (p.connector.transceivers.map p'.leftOf).sum <
      (p.connector.transceivers.map p.leftOf).sum) : p'.load < p.load := by
  rcases hconnector with heq | heq
  · simp only [load, steps, heq]
    omega
  · simp only [load, steps, heq, push, List.map_cons, List.sum_cons, stepsOf]
    omega

/-- What has gone on is the suspended calls. -/
theorem load_stack {stack : List Frame} (hless : (stack.map stepsOf).sum < p.steps) :
    Program.load { p with connector := { p.connector with stack := stack } } < p.load := by
  unfold load
  exact Nat.add_lt_add_right (Nat.add_lt_add_left hless _) _

/-! ### A loop that does not wait -/

/-- A loop that only calls the transceivers: what holds of those still to come is kept when a call
returns and by its body, and at its end it comes to a goal. -/
structure BodyLoop (loop : Loop) (below : List Frame) (Stage : List ℕ → Program Transceiver → Prop)
    (Goal : Program Transceiver → Prop) : Prop where
  never : ∀ (p : Program Transceiver) i, p.waitsAt loop i = false
  cost : ∀ rest, stepsOf (.forEach loop rest) = 2 * rest.length
  returns : ∀ p rest stack, Stage rest p →
    Stage rest { p with connector := { p.connector with stack := stack } }
  body : ∀ p rest i others, Stage rest p → p.connector.remaining rest = i :: others →
    Stage others (p.body loop i)
  done : ∀ p rest, Stage rest p → p.connector.remaining rest = [] → p.connector.stack = below →
    Goal { p with connector := loop.after p.connector }

section BodyLoop

variable {loop : Loop} {below : List Frame} {Stage : List ℕ → Program Transceiver → Prop}
  {Goal : Program Transceiver → Prop} {rest : List ℕ}
  {may : Program Transceiver → Event Transceiver.Event → Prop}

/-- The frames of a loop that does not wait. -/
def InBody (loop : Loop) (below : List Frame) (Stage : List ℕ → Program Transceiver → Prop)
    (p : Program Transceiver) : Prop :=
  ∃ n rest, p.connector.stack = List.replicate n .client ++ .forEach loop rest :: below ∧
    Stage rest p

/-- What is left to do above the frames below. -/
def stepsAbove (below : List Frame) (p : Program Transceiver) : ℕ :=
  p.steps - (below.map stepsOf).sum

theorem BodyLoop.stepsAbove_eq (hloop : BodyLoop loop below Stage Goal) (n : ℕ) (rest : List ℕ)
    (hstack : p.connector.stack = List.replicate n .client ++ .forEach loop rest :: below) :
    p.stepsAbove below = n + 2 * rest.length := by
  have hclient : stepsOf .client = 1 := rfl
  simp [stepsAbove, steps, hstack, hloop.cost, hclient, ← Nat.add_assoc]

theorem BodyLoop.resume (hloop : BodyLoop loop below Stage Goal)
    (hin : InBody loop below Stage p) :
    ∃ p', p.resume = some p' ∧
      (Goal p' ∨ InBody loop below Stage p' ∧ p'.stepsAbove below < p.stepsAbove below) := by
  obtain ⟨n, rest, hstack, hstage⟩ := hin
  have hsteps := hloop.stepsAbove_eq n rest hstack
  cases n with
  | succ n =>
    refine ⟨_, resume_client hstack, Or.inr ⟨⟨n, rest, rfl, hloop.returns p rest _ hstage⟩, ?_⟩⟩
    rw [hsteps, hloop.stepsAbove_eq n rest rfl]
    omega
  | zero =>
    have hgoes := resume_forEach hstack
    cases hremaining : p.connector.remaining rest with
    | nil =>
      simp only [hremaining] at hgoes
      refine ⟨_, hgoes, Or.inl ?_⟩
      exact hloop.done { p with connector := { p.connector with stack := below } } rest
        (hloop.returns p rest below hstage) hremaining rfl
    | cons i others =>
      simp only [hremaining, hloop.never, Bool.false_eq_true, ↓reduceIte] at hgoes
      refine ⟨_, hgoes, Or.inr ?_⟩
      set q : Program Transceiver := { p with
        connector := { p.connector with stack := .forEach loop others :: below } } with hq
      have hnext : Stage others (q.body loop i) :=
        hloop.body q rest i others (hloop.returns p rest _ hstage) hremaining
      have hfewer := length_of_remaining hremaining
      rcases q.connector_body loop i with heq | heq
      · have hstack' : (q.body loop i).connector.stack =
            List.replicate 0 .client ++ .forEach loop others :: below := by rw [heq]; rfl
        refine ⟨⟨0, others, hstack', hnext⟩, ?_⟩
        rw [hsteps, hloop.stepsAbove_eq _ others hstack']
        omega
      · have hstack' : (q.body loop i).connector.stack =
            List.replicate 1 .client ++ .forEach loop others :: below := by rw [heq]; rfl
        refine ⟨⟨1, others, hstack', hnext⟩, ?_⟩
        rw [hsteps, hloop.stepsAbove_eq _ others hstack']
        omega

/-- A loop that does not wait is done after twice as many events as there are transceivers left, and
one more, if nothing else may happen meanwhile. -/
theorem BodyLoop.within (hloop : BodyLoop loop below Stage Goal)
    (hmay : ∀ q e, InBody loop below Stage q → (may q e ↔ Continues q e))
    (hstack : p.connector.stack = .forEach loop rest :: below) (hstage : Stage rest p) :
    (machine Transceiver).Within may Goal (2 * rest.length + 1) p := by
  have hsteps := hloop.stepsAbove_eq 0 rest hstack
  refine Machine.within_succ_of_measure (I := InBody loop below Stage) (stepsAbove below) ?_ ?_
    ⟨0, rest, hstack, hstage⟩ (by omega)
  · intro p hin _
    obtain ⟨p', hresume, -⟩ := hloop.resume hin
    exact ⟨.resume, (hmay p _ hin).mpr (.resume (by simp [hresume]))⟩
  · intro p e hin _ he
    cases (hmay p e hin).mp he with
    | resume => exact hloop.resume hin
    | posted hwaits | answer hwaits | aborted hwaits =>
      obtain ⟨n, rest, hstack, -⟩ := hin
      exact absurd hwaits (not_inLoop hstack fun _ ↦ hloop.never _ _)

theorem BodyLoop.imp {Goal' : Program Transceiver → Prop}
    (hloop : BodyLoop loop below Stage Goal) (h : ∀ p, Goal p → Goal' p) :
    BodyLoop loop below Stage Goal' where
  never := hloop.never
  cost := hloop.cost
  returns := hloop.returns
  body := hloop.body
  done p rest hstage hremaining hstack := h _ (hloop.done p rest hstage hremaining hstack)

/-- What a loop does to the connector and what it does to the transceivers. -/
theorem BodyLoop.and {Visited : List ℕ → List Transceiver → Prop}
    {All : List Transceiver → Prop} (hloop : BodyLoop loop below Stage Goal)
    (hbody : ∀ (p : Program Transceiver) rest i others, Stage rest p → Visited rest p.pool →
      p.connector.remaining rest = i :: others → Visited others (p.body loop i).pool)
    (hdone : ∀ (p : Program Transceiver) rest, Stage rest p → Visited rest p.pool →
      p.connector.remaining rest = [] → All p.pool) :
    BodyLoop loop below (fun rest p ↦ Stage rest p ∧ Visited rest p.pool)
      fun p ↦ Goal p ∧ All p.pool where
  never := hloop.never
  cost := hloop.cost
  returns p rest stack h := ⟨hloop.returns p rest stack h.1, h.2⟩
  body p rest i others h hremaining :=
    ⟨hloop.body p rest i others h.1 hremaining, hbody p rest i others h.1 h.2 hremaining⟩
  done p rest h hremaining hstack :=
    ⟨hloop.done p rest h.1 hremaining hstack, hdone p rest h.1 h.2 hremaining⟩

end BodyLoop

/-! ### A connection in service -/

/-- What stays the same while a method waits: the session, the connection, the transceivers in the
list, the state of the wrapper, and the exit callback. -/
structure Setting where
  session : ℕ
  ready : Bool
  amqpConnection : Option ConnectionId
  transceivers : List ℕ
  auto : AutoReconnect
  exitCb : Option ExitCallback

/-- The setting of a connector. -/
def settingOf (c : Connector) : Setting where
  session := c.session
  ready := c.connectionHandlerReady
  amqpConnection := c.amqpConnection
  transceivers := c.transceivers
  auto := c.auto
  exitCb := c.exitCb

theorem settingOf_setHandler (c : Connector) (session : ℕ) (v : ConnectionHandler) :
    settingOf (c.setHandler session v) = settingOf c := by
  rw [settingOf, session_setHandler]
  rfl

variable {k : Setting}

/-- The connection of the session is up. -/
structure Serves (k : Setting) (c : Connector) : Prop where
  setting : settingOf c = k
  state : c.connectionHandler.state = .eReady

theorem Serves.transceivers {c : Connector} (h : Serves k c) : c.transceivers = k.transceivers :=
  congrArg Setting.transceivers h.setting

theorem Serves.session_eq {c : Connector} (h : Serves k c) : c.session = k.session :=
  congrArg Setting.session h.setting

theorem connectionHandler_of_eq {c c' : Connector} (hhandlers : c'.handlers = c.handlers) :
    c'.connectionHandler = c.connectionHandler := by
  rw [connectionHandler, connectionHandler, handler, handler, Connector.session, Connector.session,
    hhandlers]

theorem Serves.of_eq {c c' : Connector} (h : Serves k c) (hsetting : settingOf c' = settingOf c)
    (hhandlers : c'.handlers = c.handlers) : Serves k c' where
  setting := hsetting.trans h.setting
  state := connectionHandler_of_eq hhandlers ▸ h.state

/-- An operation of a transceiver does not concern the connection. -/
theorem Serves.operation {c c' : Connector} (h : Serves k c) (hc : c' = c ∨ c' = c.push .client) :
    Serves k c' := by
  rcases hc with rfl | rfl
  · exact h
  · exact h.of_eq rfl rfl

theorem Serves.not_shutdown {c : Connector} (h : Serves k c) :
    c.connectionHandler.state ≠ .eShutdown := by
  intro hdown
  cases h.state.symm.trans hdown

/-- What the event loop is running for comes nearer. -/
theorem exists_continues_of_running {i : ℕ} {t : Transceiver}
    (hserves : Serves k p.connector) (hanswerable : ∀ u ∈ p.pool, u.Answerable)
    (hloop : p.InLoop) (hi : i ∈ k.transceivers) (hget : p.pool[i]? = some t)
    (hready : t.state ≠ .eReady) (hrunning : t.state ≠ .eEnd) : ∃ e, Continues p e := by
  have ht := hanswerable t (List.mem_of_getElem? hget)
  obtain ⟨event, hanswer⟩ := ht.exists_answer hready hrunning
  exact ⟨_, .answer hloop hserves.not_shutdown (hserves.transceivers ▸ hi) hget hanswer⟩

/-- An answer to a transceiver, while the event loop is running. -/
theorem exists_answered {i : ℕ} {t : Transceiver} {event : Transceiver.Event}
    (hserves : Serves k p.connector) (hanswerable : ∀ u ∈ p.pool, u.Answerable)
    (hloop : p.InLoop) (hentered : p.entered = p) (hi : i ∈ k.transceivers)
    (hget : p.pool[i]? = some t) (hanswer : t.Answer event) :
    ∃ t', t.step event = some t' ∧ p.step (.call i event) = some (p.update i t t') ∧
      (∀ u ∈ (p.update i t t').pool, u.Answerable) ∧ (p.update i t t').load < p.load := by
  have ht := hanswerable t (List.mem_of_getElem? hget)
  obtain ⟨t', hstep, ht'⟩ := ht.exists_step hanswer
  refine ⟨t', hstep, ?_, ?_, ?_⟩
  · have hcall : TransceiverImpl.step t event = some t' := hstep
    simp [Program.step, crashes, hloop.1, hentered, occur, hget, hcall]
  · intro u hu
    rcases List.mem_or_eq_of_mem_set hu with hu | rfl
    exacts [hanswerable u hu, ht']
  · have hless := ht.left_lt hanswer hstep
    refine load_operation (p.connector_update i t t') (sum_leftOf_update ?_ hget hless)
    exact hserves.transceivers ▸ hi

end Program

end AmqpAsio
