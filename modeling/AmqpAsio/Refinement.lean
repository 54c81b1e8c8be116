import AmqpAsio.Machine

/-!
# Refinement of one machine by another

A machine `N` follows a machine `M` when every step of `M` is matched by a finite run of `N`, which
may be empty, made of labels that the event of the step stands for. `Refines` asks for that of
single steps that meet a condition; by `Refines.run` it holds of whole runs, with the labels grouped
by the events they stand for, and `Refines.invariant` carries what always holds of `N` over to `M`.
-/

set_option autoImplicit false
set_option relaxedAutoImplicit false

namespace AmqpAsio

namespace Machine

variable {σ ε τ δ : Type*} {M : Machine σ ε} {N : Machine τ δ} {P : σ → ε → Prop}
  {Stands : ε → List δ → Prop} {R : σ → τ → Prop}

/-- `N` follows `M` along the relation `R`, as long as the steps of `M` meet a condition. -/
structure Refines (M : Machine σ ε) (N : Machine τ δ) (P : σ → ε → Prop)
    (Stands : ε → List δ → Prop) (R : σ → τ → Prop) : Prop where
  init : ∀ s, M.init s → ∃ a, N.init a ∧ R s a
  step : ∀ s a e s', R s a → P s e → M.step s e = some s' →
    ∃ labels a', Stands e labels ∧ N.run a labels = some a' ∧ R s' a'

/-- A run is followed by one whose labels its events stand for. -/
theorem Refines.run (h : Refines M N P Stands R) {s s' : σ} {a : τ} {es : List ε} (hR : R s a)
    (hrun : M.run s es = some s') (hmeets : M.Meets P s es) :
    ∃ (labels : List (List δ)) (a' : τ), List.Forall₂ Stands es labels ∧
      N.run a labels.flatten = some a' ∧ R s' a' := by
  induction es generalizing s a with
  | nil =>
    obtain rfl : s = s' := Option.some.inj hrun
    exact ⟨[], a, .nil, rfl, hR⟩
  | cons e es ih =>
    obtain ⟨next, hstep, hrest⟩ := run_cons_eq_some.mp hrun
    obtain ⟨first, b, hfirst, hb, hRb⟩ := h.step s a e next hR hmeets.1 hstep
    obtain ⟨labels, a', hlabels, ha', hRa'⟩ := ih hRb hrest (hmeets.2 next hstep)
    refine ⟨first :: labels, a', .cons hfirst hlabels, ?_, hRa'⟩
    simp [run_append, hb, ha']

/-- What the follower reaches is related to what is reached. -/
theorem Refines.reachable (h : Refines M N P Stands R) {s : σ} (hs : M.ReachedBy P s) :
    ∃ a, N.Reachable a ∧ R s a := by
  obtain ⟨s₀, es, hs₀, hrun, hmeets⟩ := hs
  obtain ⟨a₀, ha₀, hR⟩ := h.init s₀ hs₀
  obtain ⟨labels, a, -, ha, hRa⟩ := h.run hR hrun hmeets
  exact ⟨a, ⟨a₀, labels.flatten, ha₀, ha⟩, hRa⟩

/-- What every step of the follower preserves, and what follows from it along the relation, holds
of what is reached. -/
theorem Refines.invariant (h : Refines M N P Stands R) {I : τ → Prop} {J : σ → Prop}
    (hinit : ∀ a, N.init a → I a) (hstep : ∀ a l a', I a → N.step a l = some a' → I a')
    (hread : ∀ s a, R s a → I a → J s) {s : σ} (hs : M.ReachedBy P s) : J s := by
  obtain ⟨a, ha, hR⟩ := h.reachable hs
  exact hread s a hR (ha.invariant hinit hstep)

end Machine

end AmqpAsio
