import Mathlib.Data.List.Basic

/-!
# Event-driven machines and their finite runs

A machine is a partial step function: `step state event` is `none` when the event cannot happen
in the state. A run is a list of events, each enabled where it happens. `Meets` says that every
step of a run satisfies a condition on the event and the state before it, and `ReachedBy` that a
state is the end of such a run from an initial state. The rule used everywhere is
`ReachedBy.invariant`, which derives an invariant of all states reached from its preservation by
one step.

Nothing here names a program: the modules of the development instantiate the machine with their
own states and events.
-/

set_option autoImplicit false
set_option relaxedAutoImplicit false

namespace AmqpAsio

/-- A machine with states `σ` driven by events `ε`. -/
structure Machine (σ ε : Type*) where
  /-- The states a run may start from. -/
  init : σ → Prop
  /-- The state after an event, or `none` when the event is not enabled. -/
  step : σ → ε → Option σ

namespace Machine

variable {σ ε : Type*} (M : Machine σ ε)

/-- The state at the end of a list of events, or `none` when one of them is not enabled. -/
def run : σ → List ε → Option σ
  | s, [] => some s
  | s, e :: es => (M.step s e).bind fun s' ↦ run s' es

/-- Every step of the run satisfies a condition on the state before the step and its event. -/
def Meets (P : σ → ε → Prop) : σ → List ε → Prop
  | _, [] => True
  | s, e :: es => P s e ∧ ∀ s', M.step s e = some s' → Meets P s' es

/-- The state is the end of a run from an initial state whose steps all meet the condition. -/
def ReachedBy (P : σ → ε → Prop) (s : σ) : Prop :=
  ∃ s₀ es, M.init s₀ ∧ M.run s₀ es = some s ∧ M.Meets P s₀ es

/-- The state is the end of some run from an initial state. -/
def Reachable (s : σ) : Prop := ∃ s₀ es, M.init s₀ ∧ M.run s₀ es = some s

variable {M}

/-- Whether a run meets a condition can be decided where that can be of one step. -/
instance decidableMeets {P : σ → ε → Prop} [∀ s e, Decidable (P s e)] :
    ∀ s es, Decidable (M.Meets P s es)
  | _, [] => isTrue trivial
  | s, e :: es =>
    match h : M.step s e with
    | none => decidable_of_iff (P s e) ⟨fun hfirst ↦ ⟨hfirst, by simp [h]⟩, And.left⟩
    | some s' =>
      have : Decidable (M.Meets P s' es) := decidableMeets s' es
      decidable_of_iff (P s e ∧ M.Meets P s' es)
        ⟨fun hmeets ↦ ⟨hmeets.1, by simpa [h] using hmeets.2⟩,
          fun hmeets ↦ ⟨hmeets.1, hmeets.2 s' h⟩⟩

@[simp] theorem run_nil (s : σ) : M.run s [] = some s := rfl

@[simp] theorem run_cons (s : σ) (e : ε) (es : List ε) :
    M.run s (e :: es) = (M.step s e).bind fun s' ↦ M.run s' es := rfl

/-- A run splits after any of its events. -/
theorem run_append (s : σ) (first second : List ε) :
    M.run s (first ++ second) = (M.run s first).bind fun s' ↦ M.run s' second := by
  induction first generalizing s with
  | nil => rfl
  | cons e es ih =>
    simp only [List.cons_append, run_cons]
    cases hstep : M.step s e with
    | none => rfl
    | some next => simpa using ih next

/-- A nonempty run exposes its first step. -/
theorem run_cons_eq_some {s s' : σ} {e : ε} {es : List ε} :
    M.run s (e :: es) = some s' ↔ ∃ next, M.step s e = some next ∧ M.run next es = some s' := by
  simp [Option.bind_eq_some_iff]

/-- A run meets a condition from its first step on. -/
theorem meets_cons {P : σ → ε → Prop} {s s' : σ} {e : ε} {es : List ε} (hfirst : P s e)
    (hstep : M.step s e = some s') (hrest : M.Meets P s' es) : M.Meets P s (e :: es) :=
  ⟨hfirst, fun _ hother ↦ Option.some.inj (hstep.symm.trans hother) ▸ hrest⟩

theorem meets_append {P : σ → ε → Prop} {s s' : σ} {first second : List ε}
    (hfirst : M.Meets P s first) (hrun : M.run s first = some s') (hsecond : M.Meets P s' second) :
    M.Meets P s (first ++ second) := by
  induction first generalizing s with
  | nil =>
    obtain rfl : s = s' := Option.some.inj hrun
    exact hsecond
  | cons e es ih =>
    obtain ⟨next, hstep, hrest⟩ := run_cons_eq_some.mp hrun
    refine ⟨hfirst.1, fun other hother ↦ ?_⟩
    obtain rfl : next = other := Option.some.inj (hstep.symm.trans hother)
    exact ih (hfirst.2 next hstep) hrest

/-- A condition that holds of every enabled step is met by every run. -/
theorem meets_of_forall {P : σ → ε → Prop} (h : ∀ s e, P s e) (s : σ) (es : List ε) :
    M.Meets P s es := by
  induction es generalizing s with
  | nil => trivial
  | cons e es ih => exact ⟨h s e, fun s' _ ↦ ih s'⟩

/-- A condition that the events of a run satisfy in every state is met by the run. -/
theorem meets_of_forall_mem {P : σ → ε → Prop} {s : σ} {es : List ε}
    (h : ∀ e ∈ es, ∀ s, P s e) : M.Meets P s es := by
  induction es generalizing s with
  | nil => trivial
  | cons e es ih =>
    exact ⟨h e List.mem_cons_self s, fun s' _ ↦ ih fun e' he' ↦ h e' (List.mem_cons_of_mem e he')⟩

theorem Meets.mono {P Q : σ → ε → Prop} (h : ∀ s e, P s e → Q s e) {s : σ} {es : List ε}
    (hmeets : M.Meets P s es) : M.Meets Q s es := by
  induction es generalizing s with
  | nil => trivial
  | cons e es ih => exact ⟨h s e hmeets.1, fun s' hstep ↦ ih (hmeets.2 s' hstep)⟩

/-- Two conditions that agree wherever an invariant holds, which the second keeps, are met by the
same runs. -/
theorem meets_congr {J : σ → Prop} {P Q : σ → ε → Prop}
    (hkeep : ∀ s e s', J s → Q s e → M.step s e = some s' → J s')
    (hagree : ∀ s e s', J s → M.step s e = some s' → (P s e ↔ Q s e)) {s s' : σ} {es : List ε}
    (hrun : M.run s es = some s') (hinv : J s) : M.Meets P s es ↔ M.Meets Q s es := by
  induction es generalizing s with
  | nil => exact Iff.rfl
  | cons e es ih =>
    obtain ⟨next, hnext, hrest⟩ := run_cons_eq_some.mp hrun
    have hdet : ∀ other, M.step s e = some other → other = next :=
      fun other hother ↦ Option.some.inj (hother.symm.trans hnext)
    have hhere := hagree s e next hinv hnext
    constructor
    · rintro ⟨hfirst, hlater⟩
      have hfirst' := hhere.mp hfirst
      have hnext' := ih hrest (hkeep s e next hinv hfirst' hnext)
      exact ⟨hfirst', fun other hother ↦ hdet other hother ▸ hnext'.mp (hlater next hnext)⟩
    · rintro ⟨hfirst, hlater⟩
      have hnext' := ih hrest (hkeep s e next hinv hfirst hnext)
      exact ⟨hhere.mpr hfirst, fun other hother ↦ hdet other hother ▸ hnext'.mpr
        (hlater next hnext)⟩

/-- Where, under an invariant that is kept as long as an assertion holds, a step of a run keeps the
assertion exactly when it meets a condition, the assertion holds all along the run exactly when
every step of it meets the condition. -/
theorem meets_iff_of_invariant {I J : σ → Prop} {P : σ → ε → Prop} {s s' : σ} {es : List ε}
    (hkeep : ∀ s e s', J s → I s → I s' → M.step s e = some s' → J s')
    (hstep : ∀ e ∈ es, ∀ s s', J s → I s → M.step s e = some s' → (I s' ↔ P s e))
    (hrun : M.run s es = some s') (hinvariant : J s) (hinv : I s) :
    (M.Meets (fun s _ ↦ I s) s es ∧ I s') ↔ M.Meets P s es := by
  induction es generalizing s with
  | nil =>
    obtain rfl : s = s' := Option.some.inj hrun
    exact ⟨fun _ ↦ trivial, fun _ ↦ ⟨trivial, hinv⟩⟩
  | cons e es ih =>
    obtain ⟨next, hnext, hrest⟩ := run_cons_eq_some.mp hrun
    have hdet : ∀ other, M.step s e = some other → other = next :=
      fun other hother ↦ Option.some.inj (hother.symm.trans hnext)
    have hhere := hstep e List.mem_cons_self s next hinvariant hinv hnext
    have hlater := fun e' he' ↦ hstep e' (List.mem_cons_of_mem e he')
    constructor
    · rintro ⟨⟨-, hmeets⟩, hend⟩
      have hinv' : I next := by
        cases es with
        | nil => exact Option.some.inj hrest ▸ hend
        | cons e' es => exact (hmeets next hnext).1
      have hinvariant' := hkeep s e next hinvariant hinv hinv' hnext
      refine ⟨hhere.mp hinv', fun other hother ↦ hdet other hother ▸ ?_⟩
      exact (ih hlater hrest hinvariant' hinv').mp ⟨hmeets next hnext, hend⟩
    · rintro ⟨hcond, hmeets⟩
      have hinv' := hhere.mpr hcond
      have hinvariant' := hkeep s e next hinvariant hinv hinv' hnext
      obtain ⟨hrest', hend⟩ := (ih hlater hrest hinvariant' hinv').mpr (hmeets next hnext)
      exact ⟨⟨hinv, fun other hother ↦ hdet other hother ▸ hrest'⟩, hend⟩

/-- What one step preserves under the condition, a run whose steps meet the condition preserves. -/
theorem Meets.invariant {P : σ → ε → Prop} {I : σ → Prop}
    (hstep : ∀ s e s', I s → P s e → M.step s e = some s' → I s') {s s' : σ} {es : List ε}
    (hmeets : M.Meets P s es) (hrun : M.run s es = some s') (hinv : I s) : I s' := by
  induction es generalizing s with
  | nil =>
    obtain rfl : s = s' := Option.some.inj hrun
    exact hinv
  | cons e es ih =>
    obtain ⟨next, hnext, hrest⟩ := run_cons_eq_some.mp hrun
    exact ih (hmeets.2 next hnext) hrest (hstep s e next hinv hmeets.1 hnext)

/-- What every step preserves, every run preserves. -/
theorem run_invariant {I : σ → Prop} (hstep : ∀ s e s', I s → M.step s e = some s' → I s')
    {s s' : σ} {es : List ε} (hrun : M.run s es = some s') (hinv : I s) : I s' :=
  (meets_of_forall (M := M) (fun _ _ ↦ trivial) s es).invariant
    (P := fun _ _ ↦ True) (fun s e s' hs _ ↦ hstep s e s' hs) hrun hinv

/-- The invariant rule: an assertion that holds initially and is preserved by every step that
meets the condition holds in every state reached by such steps. -/
theorem ReachedBy.invariant {P : σ → ε → Prop} {I : σ → Prop} (hinit : ∀ s, M.init s → I s)
    (hstep : ∀ s e s', I s → P s e → M.step s e = some s' → I s') {s : σ}
    (hs : M.ReachedBy P s) : I s := by
  obtain ⟨s₀, es, hs₀, hrun, hmeets⟩ := hs
  exact hmeets.invariant hstep hrun (hinit s₀ hs₀)

/-- A condition that an invariant implies is met by every run. -/
theorem meets_of_invariant {P : σ → ε → Prop} {I : σ → Prop}
    (hstep : ∀ s e s', I s → M.step s e = some s' → I s') (h : ∀ s e, I s → P s e) {s : σ}
    (hinv : I s) (es : List ε) : M.Meets P s es := by
  induction es generalizing s with
  | nil => trivial
  | cons e es ih => exact ⟨h s e hinv, fun s' hs' ↦ ih (hstep s e s' hinv hs')⟩

theorem ReachedBy.reachable {P : σ → ε → Prop} {s : σ} (hs : M.ReachedBy P s) :
    M.Reachable s := by
  obtain ⟨s₀, es, hs₀, hrun, -⟩ := hs
  exact ⟨s₀, es, hs₀, hrun⟩

/-- The invariant rule for all runs. -/
theorem Reachable.invariant {I : σ → Prop} (hinit : ∀ s, M.init s → I s)
    (hstep : ∀ s e s', I s → M.step s e = some s' → I s') {s : σ} (hs : M.Reachable s) : I s := by
  obtain ⟨s₀, es, hs₀, hrun⟩ := hs
  exact run_invariant hstep hrun (hinit s₀ hs₀)

/-- A run from a state reached by steps that meet the condition, itself meeting it, stays within
the states so reached. -/
theorem ReachedBy.trans {P : σ → ε → Prop} {s s' : σ} {es : List ε} (hs : M.ReachedBy P s)
    (hrun : M.run s es = some s') (hmeets : M.Meets P s es) : M.ReachedBy P s' := by
  obtain ⟨s₀, es₀, hs₀, hrun₀, hmeets₀⟩ := hs
  exact ⟨s₀, es₀ ++ es, hs₀, by simp [run_append, hrun₀, hrun], meets_append hmeets₀ hrun₀ hmeets⟩

end Machine

end AmqpAsio
