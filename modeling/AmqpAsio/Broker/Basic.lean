import Mathlib.Data.List.Basic

/-!
# Queues and bindings on a broker

A broker as far as its clients share it: which queues there are, and which bindings they have.
Declaring a queue that exists leaves it as it is, binding twice is binding once, and a queue that is
removed takes its bindings along. A binding carries the mark of the client that made it, so that one
can tell whose it is; the marks, the names of the queues and the keys of the bindings are arbitrary
types.

What one command can do to a queue or a binding is said once, by the four inversion lemmas at the
end.
-/

set_option autoImplicit false
set_option relaxedAutoImplicit false

namespace AmqpAsio

/-- The queues of a broker, named by `κ`, and the mark left on each of their bindings, keyed by `ρ`.
Only a queue that exists has bindings. -/
structure Broker (κ ρ ω : Type*) where
  /-- The queue exists. -/
  queue : κ → Bool
  /-- The mark on a binding, or `none` where there is no binding. -/
  binding : κ → ρ → Option ω
  queue_of_binding : ∀ q r, (binding q r).isSome = true → queue q = true

namespace Broker

/-- What a client can ask a broker to do to its queues. -/
inductive Command (κ ρ : Type*)
  | declare (q : κ)
  | remove (q : κ)
  | bind (q : κ) (r : ρ)
  | unbind (q : κ) (r : ρ)
  deriving DecidableEq, Repr

variable {κ ρ ω : Type*} [DecidableEq κ] [DecidableEq ρ]

/-- A broker without queues. -/
def empty : Broker κ ρ ω := ⟨fun _ ↦ false, fun _ _ ↦ none, by simp⟩

variable (b : Broker κ ρ ω)

/-- The queue exists afterwards, with the bindings it had. -/
def declare (q : κ) : Broker κ ρ ω where
  queue p := decide (p = q) || b.queue p
  binding := b.binding
  queue_of_binding p r h := by simp [b.queue_of_binding p r h]

/-- The queue and its bindings are gone. -/
def remove (q : κ) : Broker κ ρ ω where
  queue p := !decide (p = q) && b.queue p
  binding p r := if p = q then none else b.binding p r
  queue_of_binding p r h := by
    by_cases hp : p = q
    · simp [hp] at h
    · simp [hp, b.queue_of_binding p r (by simpa [hp] using h)]

/-- The queue, if it exists, has the binding, which keeps the mark it may have had. -/
def bind (w : ω) (q : κ) (r : ρ) : Broker κ ρ ω where
  queue := b.queue
  binding p s :=
    if p = q ∧ s = r ∧ b.queue q = true then some ((b.binding q r).getD w) else b.binding p s
  queue_of_binding p s h := by
    split at h
    · next hbound => exact hbound.1 ▸ hbound.2.2
    · exact b.queue_of_binding p s h

/-- The binding is gone. -/
def unbind (q : κ) (r : ρ) : Broker κ ρ ω where
  queue := b.queue
  binding p s := if p = q ∧ s = r then none else b.binding p s
  queue_of_binding p s h := by
    split at h
    · cases h
    · exact b.queue_of_binding p s h

/-- The broker carries out a command of a client with the given mark. -/
def apply (w : ω) : Command κ ρ → Broker κ ρ ω
  | .declare q => b.declare q
  | .remove q => b.remove q
  | .bind q r => b.bind w q r
  | .unbind q r => b.unbind q r

variable {b} {w v : ω} {c : Command κ ρ} {q : κ} {r : ρ}

@[simp] theorem queue_apply_declare : (b.apply w (.declare q)).queue q = true := by
  simp [apply, declare]

@[simp] theorem queue_apply_remove : (b.apply w (.remove q)).queue q = false := by
  simp [apply, remove]

@[simp] theorem binding_apply_remove : (b.apply w (.remove q)).binding q r = none := by
  simp [apply, remove]

@[simp] theorem binding_apply_unbind : (b.apply w (.unbind q r)).binding q r = none := by
  simp [apply, unbind]

theorem isSome_binding_apply_bind (h : b.queue q = true) :
    ((b.apply w (.bind q r)).binding q r).isSome = true := by
  simp [apply, bind, h]

/-! ### What a command can do -/

/-- A queue comes into being by being declared. -/
theorem eq_declare_of_queue (hbefore : b.queue q = false) (hafter : (b.apply w c).queue q = true) :
    c = .declare q := by
  cases c with
  | declare p =>
    have hp : q = p := by simpa [apply, declare, hbefore] using hafter
    rw [hp]
  | remove p => simp [apply, remove, hbefore] at hafter
  | bind p s => simp [apply, bind, hbefore] at hafter
  | unbind p s => simp [apply, unbind, hbefore] at hafter

/-- A queue vanishes by being removed. -/
theorem eq_remove_of_queue (hbefore : b.queue q = true) (hafter : (b.apply w c).queue q = false) :
    c = .remove q := by
  cases c with
  | declare p => simp [apply, declare, hbefore] at hafter
  | remove p =>
    have hp : q = p := by simpa [apply, remove, hbefore] using hafter
    rw [hp]
  | bind p s => simp [apply, bind, hbefore] at hafter
  | unbind p s => simp [apply, unbind, hbefore] at hafter

/-- A binding there is was there before, or is made by the command. -/
theorem binding_apply (hafter : (b.apply w c).binding q r = some v) :
    b.binding q r = some v ∨ c = .bind q r ∧ v = w ∧ b.binding q r = none := by
  cases c with
  | declare p => exact Or.inl hafter
  | remove p =>
    simp only [apply, remove] at hafter
    split at hafter
    · cases hafter
    · exact Or.inl hafter
  | bind p s =>
    simp only [apply, bind] at hafter
    split at hafter
    · next hbound =>
      obtain ⟨rfl, rfl, -⟩ := hbound
      cases hold : b.binding q r with
      | none => exact Or.inr ⟨rfl, by simpa [hold, eq_comm] using hafter, rfl⟩
      | some old => exact Or.inl (by simpa [hold] using hafter)
    · exact Or.inl hafter
  | unbind p s =>
    simp only [apply, unbind] at hafter
    split at hafter
    · cases hafter
    · exact Or.inl hafter

/-- A binding is lost by being undone, or with its queue. -/
theorem eq_of_binding_lost (hbefore : (b.binding q r).isSome = true)
    (hafter : (b.apply w c).binding q r = none) : c = .unbind q r ∨ c = .remove q := by
  have hne : b.binding q r ≠ none := Option.isSome_iff_ne_none.mp hbefore
  cases c with
  | declare p => exact absurd hafter hne
  | remove p =>
    simp only [apply, remove] at hafter
    split at hafter
    · next hp => exact Or.inr (hp ▸ rfl)
    · exact absurd hafter hne
  | bind p s =>
    simp only [apply, bind] at hafter
    split at hafter
    · cases hafter
    · exact absurd hafter hne
  | unbind p s =>
    simp only [apply, unbind] at hafter
    split at hafter
    · next hp => exact Or.inl (hp.1 ▸ hp.2 ▸ rfl)
    · exact absurd hafter hne

/-- A bound queue stays bound, unless the command undoes the binding or removes the queue. -/
theorem bound_apply (hqueue : b.queue q = true) (hbinding : (b.binding q r).isSome = true)
    (hunbind : c ≠ .unbind q r) (hremove : c ≠ .remove q) :
    (b.apply w c).queue q = true ∧ ((b.apply w c).binding q r).isSome = true := by
  constructor
  · by_contra hlost
    exact hremove (eq_remove_of_queue hqueue (by simpa using hlost))
  · by_contra hlost
    rcases eq_of_binding_lost hbinding (by simpa using hlost) with hc | hc
    · exact hunbind hc
    · exact hremove hc

end Broker

end AmqpAsio
