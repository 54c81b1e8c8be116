import Mathlib.Data.List.Forall2
import AmqpAsio.Broker.Basic
import AmqpAsio.Transceiver.Requests

/-!
# A transceiver and its broker

The operations of a channel travel to the broker in the order in which they were issued, and the
broker carries them out in that order, whatever the transceiver has gone on to meanwhile; its
answers travel back in the same order. A `Client` is a transceiver together with the answers under
way to it. The operations pending on a channel are those answered but not yet reported, followed by
those the broker has still to carry out (`Client.Matched`).

A binding is marked by its maker: an operation of channel `n` leaves the mark `mark n`.
-/

set_option autoImplicit false
set_option relaxedAutoImplicit false

namespace AmqpAsio

namespace Transceiver

/-- A command to the broker; a binding is told from the others of its queue by exchange and
route. -/
abbrev Command := Broker.Command String (String × String)

/-- What the broker makes of an operation. It gives a name to a nameless queue or to a consumer, and
a reason when it refuses. -/
inductive Verdict
  | accept (name : String)
  | refuse (reason : String)
  deriving DecidableEq, Repr

/-! ### What the broker does with an operation -/

/-- The name of the queue a `declareQueue` declares. -/
def declaredName (queue name : String) : String := if queue = "" then name else queue

/-- The verdicts the broker may give. A check that is accepted finds a queue that exists, a name
given to a queue is a new one, and only a queue that exists can be bound or consumed from. Any
operation may be refused, whatever the reason. -/
def Operation.admits {ω : Type*} (broker : Broker String (String × String) ω) :
    Operation → Verdict → Bool
  | .declarePassive queue, .accept _ => broker.queue queue
  | .declareQueue queue _, .accept name => queue ≠ "" || name ≠ "" && !broker.queue name
  | .bindQueue _ queue _, .accept _ => broker.queue queue
  | .consume queue, .accept _ => broker.queue queue
  | _, _ => true

/-- The command that the broker carries out. -/
def Operation.command : Operation → Verdict → Option Command
  | .declareQueue queue _, .accept name => some (.declare (declaredName queue name))
  | .bindQueue exchange queue route, .accept _ => some (.bind queue (exchange, route))
  | .unbindQueue exchange queue route, .accept _ => some (.unbind queue (exchange, route))
  | .removeQueue queue, .accept _ => some (.remove queue)
  | _, _ => none

/-- The lambda that the answer of the broker calls. -/
def Operation.answer : Operation → Verdict → Callback
  | operation, .refuse reason => operation.error reason
  | .declarePassive queue, .accept _ => .checkQueueSuccess queue
  | .declareExchange _ _, .accept _ => .createExchangeSuccess
  | .declareQueue queue _, .accept name => .createQueueSuccess (declaredName queue name)
  | .bindQueue _ _ _, .accept _ => .bindQueueSuccess
  | .consume _, .accept consumer => .createConsumerSuccess consumer
  | .cancel consumer, .accept _ => .shutdownSuccess consumer
  | .unbindQueue _ _ _, .accept _ => .unbindQueueSuccess
  | .removeQueue _, .accept _ => .removeQueueSuccess
  | .close, .accept _ => .closeChannelSuccess

theorem reports_answer (operation : Operation) (verdict : Verdict) :
    operation.reports (operation.answer verdict) = true := by
  cases verdict <;> cases operation <;> rfl

/-- A lambda belongs to operations of one state. -/
theorem state_eq_of_reports {first second : Operation} {cb : Callback}
    (hfirst : first.reports cb = true) (hsecond : second.reports cb = true) :
    first.state = second.state := by
  cases first <;> cases cb <;> cases hfirst <;> cases second <;> first | rfl | cases hsecond

/-! ### Clients -/

/-- A transceiver, the number of the first channel of its present run, and the answers of the broker
under way to it, by channel, oldest first. -/
structure Client where
  transceiver : Transceiver
  first : ℕ
  answers : ℕ → List Callback

/-- What can happen to a client: an event of the transceiver that is no answer of the broker, the
broker giving its verdict on the next operation of a channel, and the next answer on a channel
arriving. -/
inductive Action
  | call (e : Event)
  | execute (n : ℕ) (verdict : Verdict)
  | deliver (n : ℕ)
  deriving DecidableEq, Repr

namespace Client

variable (x : Client)

/-- A client before its first run. -/
def new (exchange queue routeIn : String) : Client :=
  ⟨Transceiver.new exchange queue routeIn true, 0, fun _ ↦ []⟩

/-- The operation of a channel that the broker carries out next. -/
def next (n : ℕ) : Option Operation := (x.transceiver.pendingOn n)[(x.answers n).length]?

/-- The event of the transceiver that an action is. -/
def event : Action → Option Event
  | .call (.callback n cb) => if cb.answers then none else some (.callback n cb)
  | .call e => some e
  | .execute _ _ => none
  | .deliver n => ((x.answers n).head?).map (.callback n)

/-- The answers under way after an event of the transceiver. -/
def answersAfter : Action → ℕ → List Callback
  | .deliver n, m => if m = n then (x.answers n).tail else x.answers m
  | _, m => x.answers m

/-- The answers under way after a verdict on the next operation of a channel. -/
def answersWith (n : ℕ) (cb : Callback) (m : ℕ) : List Callback :=
  if m = n then x.answers n ++ [cb] else x.answers m

/-- The command that an action makes the broker carry out, and the channel it has come on. -/
def command : Action → Option (ℕ × Command)
  | .execute n verdict => ((x.next n).bind (·.command verdict)).map (n, ·)
  | _ => none

/-- The action begins a run. -/
def begins (a : Action) : Bool := (x.event a).any x.transceiver.begins

/-- The broker admits the verdict of an action. -/
def admits {ω : Type*} (broker : Broker String (String × String) ω) : Action → Bool
  | .execute n verdict => (x.next n).any (·.admits broker verdict)
  | _ => true

/-- The client after an action. -/
def step (a : Action) : Option Client :=
  match a with
  | .execute n verdict =>
    (x.next n).map fun operation ↦
      { x with answers := x.answersWith n (operation.answer verdict) }
  | a =>
    (x.event a).bind fun e ↦ (x.transceiver.step e).map fun t' ↦
      ⟨t', x.transceiver.firstAfter x.first e, x.answersAfter a⟩

/-- An action is a verdict of the broker or an event of the transceiver. -/
theorem step_cases {x y : Client} {a : Action} (hstep : x.step a = some y) :
    (∃ n verdict operation, a = .execute n verdict ∧ x.next n = some operation ∧
      y = { x with answers := x.answersWith n (operation.answer verdict) }) ∨
    ∃ e t', x.event a = some e ∧ x.transceiver.step e = some t' ∧
      y = ⟨t', x.transceiver.firstAfter x.first e, x.answersAfter a⟩ := by
  have hevent (heq : (x.event a).bind (fun e ↦ (x.transceiver.step e).map fun t' ↦
      (⟨t', x.transceiver.firstAfter x.first e, x.answersAfter a⟩ : Client)) = some y) :
      ∃ e t', x.event a = some e ∧ x.transceiver.step e = some t' ∧
        y = ⟨t', x.transceiver.firstAfter x.first e, x.answersAfter a⟩ := by
    obtain ⟨e, he, hmap⟩ := Option.bind_eq_some_iff.mp heq
    obtain ⟨t', ht', rfl⟩ := Option.map_eq_some_iff.mp hmap
    exact ⟨e, t', he, ht', rfl⟩
  cases a with
  | call e => exact Or.inr (hevent hstep)
  | deliver n => exact Or.inr (hevent hstep)
  | execute n verdict =>
    obtain ⟨operation, hnext, rfl⟩ := Option.map_eq_some_iff.mp hstep
    exact Or.inl ⟨n, verdict, operation, rfl, hnext, rfl⟩

/-! ### The answers under way -/

/-- On each channel, the answers under way are those to the first of the operations pending. -/
def Matched : Prop :=
  ∀ n, ∃ answered rest, x.transceiver.pendingOn n = answered ++ rest ∧
    List.Forall₂ (fun operation cb ↦ operation.reports cb = true) answered (x.answers n)

variable {x} {y : Client} {a : Action} {e : Event} {t' : Transceiver} {n : ℕ}

theorem Matched.next (h : x.Matched) {operation : Operation} (hnext : x.next n = some operation) :
    ∃ answered rest, x.transceiver.pendingOn n = answered ++ operation :: rest ∧
      List.Forall₂ (fun operation cb ↦ operation.reports cb = true) answered (x.answers n) := by
  obtain ⟨answered, rest, hpending, hanswers⟩ := h n
  rw [Client.next, hpending, ← hanswers.length_eq, List.getElem?_append_right (Nat.le_refl _)]
    at hnext
  cases rest with
  | nil => simp at hnext
  | cons o rest =>
    obtain rfl : o = operation := by simpa using hnext
    exact ⟨answered, rest, hpending, hanswers⟩

/-- The broker carries out what is pending. -/
theorem Matched.next_mem (h : x.Matched) {operation : Operation}
    (hnext : x.next n = some operation) :
    operation ∈ x.transceiver.pendingOn n := by
  obtain ⟨answered, rest, hpending, -⟩ := h.next hnext
  simp [hpending]

/-- An answer under way is to an operation that is pending. -/
theorem Matched.exists_of_mem (h : x.Matched) {cb : Callback} (hcb : cb ∈ x.answers n) :
    ∃ operation ∈ x.transceiver.pendingOn n, operation.reports cb = true := by
  obtain ⟨answered, rest, hpending, hanswers⟩ := h n
  suffices ∃ operation ∈ answered, operation.reports cb = true by
    obtain ⟨operation, hmem, hreports⟩ := this
    exact ⟨operation, hpending ▸ List.mem_append_left _ hmem, hreports⟩
  clear hpending
  generalize x.answers n = answers at hanswers hcb
  induction hanswers with
  | nil => cases hcb
  | cons hreports _ ih =>
    rcases List.mem_cons.mp hcb with rfl | hcb
    · exact ⟨_, List.mem_cons_self, hreports⟩
    · obtain ⟨operation, hmem, hoperation⟩ := ih hcb
      exact ⟨operation, List.mem_cons_of_mem _ hmem, hoperation⟩

/-- A verdict answers the next operation. -/
theorem Matched.execute (h : x.Matched) {operation : Operation} (hnext : x.next n = some operation)
    (verdict : Verdict) :
    Matched { x with answers := x.answersWith n (operation.answer verdict) } := by
  intro m
  by_cases hm : m = n
  · subst hm
    obtain ⟨answered, rest, hpending, hanswers⟩ := h.next hnext
    refine ⟨answered ++ [operation], rest, by simp [hpending], ?_⟩
    simpa [answersWith] using
      List.rel_append hanswers
      (List.Forall₂.cons (reports_answer operation verdict) List.Forall₂.nil)
  · obtain ⟨answered, rest, hpending, hanswers⟩ := h m
    exact ⟨answered, rest, hpending, by simpa [answersWith, hm] using hanswers⟩

/-- What remains of the operations on a channel once the answer that an action delivers has been
taken off. -/
theorem Matched.remaining (h : x.Matched) (hevent : x.event a = some e) (n : ℕ) :
    ∃ answered rest, x.transceiver.remaining n e = answered ++ rest ∧
      List.Forall₂ (fun operation cb ↦ operation.reports cb = true) answered
      (x.answersAfter a n) := by
  obtain ⟨answered, rest, hpending, hanswers⟩ := h n
  cases a with
  | execute m verdict => cases hevent
  | call e' =>
    refine ⟨answered, rest, ?_, hanswers⟩
    rw [← hpending]
    cases e' with
    | callback m cb =>
      obtain ⟨hother, rfl⟩ : cb.answers = false ∧ Event.callback m cb = e := by
        simpa [Client.event] using hevent
      have hnone : ∀ o ∈ x.transceiver.pendingOn n, ¬ Operation.reports o cb = true := by
        intro o _ hreports
        simp [answers_of_reports hreports] at hother
      simp [Transceiver.remaining, List.eraseP_of_forall_not hnone]
    | _ =>
      obtain rfl := Option.some.inj hevent
      rfl
  | deliver m =>
    obtain ⟨cb, hhead, rfl⟩ := Option.map_eq_some_iff.mp hevent
    by_cases hm : m = n
    · subst hm
      obtain ⟨tail, htail⟩ := List.head?_eq_some_iff.mp hhead
      rw [htail] at hanswers
      obtain ⟨operation, later, hreports, hlater, rfl⟩ := List.forall₂_cons_right_iff.mp hanswers
      exact ⟨later, rest, by simp [Transceiver.remaining, hpending, hreports],
        by simpa [answersAfter, htail] using hlater⟩
    · exact ⟨answered, rest, by simpa [Transceiver.remaining, hm] using hpending,
        by simpa [answersAfter, Ne.symm hm] using hanswers⟩

/-- An event of the transceiver leaves the answers matched: what it issues is pending after all
else. -/
theorem Matched.event (h : x.Matched) (hevent : x.event a = some e)
    (hstep : x.transceiver.step e = some t') (first : ℕ) :
    Matched ⟨t', first, x.answersAfter a⟩ := by
  intro n
  obtain ⟨new, heffect⟩ := effect_of_step hstep
  obtain ⟨issued, hissued, -⟩ := heffect.pending n
  obtain ⟨answered, rest, hremaining, hanswers⟩ := h.remaining hevent n
  exact ⟨answered, rest ++ issued.toList, by simp [hissued, hremaining], hanswers⟩

theorem answersAfter_subset (x : Client) (a : Action) (n : ℕ) :
    x.answersAfter a n ⊆ x.answers n := by
  cases a with
  | deliver m =>
    by_cases hn : n = m
    · simp only [answersAfter, hn, ↓reduceIte]
      exact fun _ hcb ↦ List.mem_of_mem_tail hcb
    · simp [answersAfter, hn]
  | _ => exact List.Subset.refl _

/-- The lambda that an action calls answers an operation only if the broker has given that
answer. -/
theorem mem_of_event {cb : Callback} (hevent : x.event a = some (.callback n cb))
    (hanswers : cb.answers = true) : a = .deliver n ∧ cb ∈ x.answers n := by
  cases a with
  | execute m verdict => cases hevent
  | call e =>
    cases e <;> simp [Client.event] at hevent
    obtain ⟨hother, rfl, rfl⟩ := hevent
    simp [hanswers] at hother
  | deliver m =>
    obtain ⟨called, hhead, heq⟩ := Option.map_eq_some_iff.mp hevent
    cases heq
    exact ⟨rfl, List.mem_of_mem_head? hhead⟩

/-! ### Clients whose runs are not disturbed -/

/-- The action is no lambda of an earlier run that calls `StateMachine()` in the present one. -/
def Undisturbed (x : Client) (a : Action) : Prop :=
  ∀ e, x.event a = some e → Transceiver.Undisturbed x.first x.transceiver e

/-- A client whose transceiver is well-formed and awaits one operation at a time while it sets up,
and whose answers are to its operations. -/
structure Sound (x : Client) : Prop where
  wellFormed : x.transceiver.WellFormed
  sole : Sole x.first x.transceiver
  matched : x.Matched

theorem Sound.event (h : x.Sound) (hundisturbed : x.Undisturbed a) (hevent : x.event a = some e)
    (hstep : x.transceiver.step e = some t') :
    Sound ⟨t', x.transceiver.firstAfter x.first e, x.answersAfter a⟩ :=
  ⟨wellFormed_step h.wellFormed hstep, h.sole.step h.wellFormed (hundisturbed e hevent) hstep,
    h.matched.event hevent hstep _⟩

/-- The step lemma. -/
theorem Sound.step (h : x.Sound) (hundisturbed : x.Undisturbed a) (hstep : x.step a = some y) :
    y.Sound := by
  rcases step_cases hstep with ⟨n, verdict, operation, rfl, hnext, rfl⟩ | ⟨e, t', hevent, ht', rfl⟩
  · exact ⟨h.wellFormed, h.sole, h.matched.execute hnext verdict⟩
  · exact h.event hundisturbed hevent ht'

theorem sound_new (exchange queue routeIn : String) : (new exchange queue routeIn).Sound :=
  ⟨wellFormed_new _ _ _ _, sole_new _ _ _ _,
    fun _ ↦ ⟨[], [], by simp [new, pendingOn, Transceiver.new], List.Forall₂.nil⟩⟩

/-- While a run sets up, what is pending on a channel of the run is what its state awaits, and the
channel is the current one. -/
theorem Sound.pending_setsUp (h : x.Sound) (hsetsUp : x.transceiver.state.beforeShutdown = true)
    (hn : x.first ≤ n) {operation : Operation} (hmem : operation ∈ x.transceiver.pendingOn n) :
    x.transceiver.channel = some n ∧ x.transceiver.awaited = some operation ∧
      x.transceiver.pendingOn n = [operation] := by
  cases hc : x.transceiver.channels[n]? with
  | none => simp [pendingOn, hc] at hmem
  | some c =>
    have hpending := h.sole.pends hsetsUp n c hn hc
    rw [← pendingOn_eq hc] at hpending
    rw [hpending] at hmem ⊢
    split at hmem
    · next hcurrent =>
      have hawaited : x.transceiver.awaited = some operation := by simpa using hmem
      exact ⟨hcurrent, hawaited, by simp [hcurrent, hawaited]⟩
    · cases hmem

/-- While a run sets up, the broker carries out the operation of its state, and no answer is under
way. -/
theorem Sound.next_setsUp (h : x.Sound) (hsetsUp : x.transceiver.state.beforeShutdown = true)
    (hn : x.first ≤ n) {operation : Operation} (hnext : x.next n = some operation) :
    x.transceiver.awaited = some operation ∧ ∀ m, x.first ≤ m → x.answers m = [] := by
  obtain ⟨hcurrent, hawaited, hpending⟩ := h.pending_setsUp hsetsUp hn (h.matched.next_mem hnext)
  refine ⟨hawaited, fun m hm ↦ List.eq_nil_iff_forall_not_mem.mpr fun cb hcb ↦ ?_⟩
  obtain ⟨o, ho, -⟩ := h.matched.exists_of_mem hcb
  obtain rfl : n = m :=
    Option.some.inj (hcurrent.symm.trans (h.pending_setsUp hsetsUp hm ho).1)
  have hlength : 0 < (x.answers n).length := List.length_pos_of_mem hcb
  rw [next, hpending, List.getElem?_eq_none (Nat.succ_le_of_lt hlength)] at hnext
  cases hnext

/-- While a run sets up, the answers under way on its channels are to the operation of its state. -/
theorem Sound.answer_setsUp (h : x.Sound) (hsetsUp : x.transceiver.state.beforeShutdown = true)
    (hn : x.first ≤ n) {cb : Callback} (hcb : cb ∈ x.answers n) :
    ∃ operation : Operation, operation.reports cb = true ∧
    operation.state = x.transceiver.state := by
  obtain ⟨operation, hmem, hreports⟩ := h.matched.exists_of_mem hcb
  exact ⟨operation, hreports, h.sole.state_of_mem hsetsUp hn hmem⟩

/-- While a run sets up, an answer to it moves it; where nothing moves, no answer to it arrives. -/
theorem Sound.answersAfter_eq (h : x.Sound) (hsetsUp : x.transceiver.state.beforeShutdown = true)
    (hevent : x.event a = some e) (hmove : x.transceiver.move e = none) (hn : x.first ≤ n) :
    x.answersAfter a n = x.answers n := by
  cases a with
  | deliver m =>
    by_cases hm : n = m
    · subst hm
      obtain ⟨cb, hhead, rfl⟩ := Option.map_eq_some_iff.mp hevent
      obtain ⟨operation, hreports, hstate⟩ :=
        h.answer_setsUp hsetsUp hn (List.mem_of_mem_head? hhead)
      refine absurd (reaction_delivering_eq_none.mp hmove) (reaction_ne_none_of_reports hreports ?_)
      exact Or.inr ⟨by rw [Operation.SetsUp, hstate, hsetsUp], hstate.symm⟩
    · simp [answersAfter, hm]
  | _ => rfl

/-- When a run has gone on to another state of the set-up, no answers are under way to it. -/
theorem Sound.answers_eq_nil (h : x.Sound) (h' : y.Sound) (hfirst : y.first = x.first)
    (hsubset : ∀ n, y.answers n ⊆ x.answers n)
    (hsetsUp : x.transceiver.state.beforeShutdown = true)
    (hsetsUp' : y.transceiver.state.beforeShutdown = true)
    (hstate : y.transceiver.state ≠ x.transceiver.state) (hn : x.first ≤ n) : y.answers n = [] := by
  refine List.eq_nil_iff_forall_not_mem.mpr fun cb hcb ↦ hstate ?_
  obtain ⟨operation, hreports, hoperation⟩ := h.answer_setsUp hsetsUp hn (hsubset n hcb)
  obtain ⟨operation', hreports', hoperation'⟩ := h'.answer_setsUp hsetsUp' (hfirst ▸ hn) hcb
  rw [← hoperation, ← hoperation', state_eq_of_reports hreports' hreports]

end Client

end Transceiver

end AmqpAsio
