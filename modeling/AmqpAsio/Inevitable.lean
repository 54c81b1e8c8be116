import AmqpAsio.Machine

/-!
# What a machine comes to, whatever happens

`Machine.Inevitable may Q s` says that from the state `s` on, whichever of the events that may
happen do happen, a state with the property `Q` comes after finitely many of them, and that until
then some event may happen and none that may is disabled. So an inevitable state is reached by every
run, and no run fails or gets stuck on the way.

There are two rules: an invariant and a measure that goes down make a state inevitable, and an
invariant that some event can keep for ever makes it avoidable. `Machine.Within may Q n s` says in
addition that the state comes after at most `n` events, for which the measure is a bound, and
`Meets.countdown` is the rule for what comes after `n` events of a kind.
-/

set_option autoImplicit false
set_option relaxedAutoImplicit false

namespace AmqpAsio

namespace Machine

variable {σ ε : Type*} {M : Machine σ ε} {may : σ → ε → Prop} {Q I : σ → Prop} {s : σ}

/-- Every way of going on comes to a state with the property. -/
inductive Inevitable (M : Machine σ ε) (may : σ → ε → Prop) (Q : σ → Prop) : σ → Prop
  | now {s : σ} : Q s → Inevitable M may Q s
  | later {s : σ} : (∃ e, may s e) → (∀ e, may s e → M.step s e ≠ none) →
      (∀ e s', may s e → M.step s e = some s' → Inevitable M may Q s') → Inevitable M may Q s

/-- The rule for what is inevitable: while the property does not hold, an invariant says that some
event may happen and that every such event takes a step that lowers a measure. -/
theorem inevitable_of_measure (measure : σ → ℕ) (hmay : ∀ s, I s → ¬ Q s → ∃ e, may s e)
    (hstep : ∀ s e, I s → ¬ Q s → may s e →
      ∃ s', M.step s e = some s' ∧ measure s' < measure s ∧ (Q s' ∨ I s'))
    (hinv : I s) : M.Inevitable may Q s := by
  induction hn : measure s using Nat.strongRecOn generalizing s with
  | ind n ih =>
    subst hn
    by_cases hq : Q s
    · exact .now hq
    · refine .later (hmay s hinv hq) (fun e he ↦ ?_) fun e s' he hs' ↦ ?_
      · obtain ⟨s', hs', -⟩ := hstep s e hinv hq he
        simp [hs']
      · obtain ⟨next, hnext, hless, hend | hkeep⟩ := hstep s e hinv hq he
        all_goals obtain rfl : next = s' := Option.some.inj (hnext.symm.trans hs')
        · exact .now hend
        · exact ih _ hless hkeep rfl

/-- The rule for what is not: an invariant excludes the property, and some event that may happen
keeps the invariant. -/
theorem not_inevitable (hnot : ∀ s, I s → ¬ Q s)
    (hstep : ∀ s, I s → ∃ e s', may s e ∧ M.step s e = some s' ∧ I s') (hinv : I s) :
    ¬ M.Inevitable may Q s := by
  intro hinevitable
  induction hinevitable with
  | now hq => exact hnot _ hinv hq
  | later _ _ _ ih =>
    obtain ⟨e, s', he, hs', hkeep⟩ := hstep _ hinv
    exact ih e s' he hs' hkeep

/-- Every way of going on comes to a state with the property after at most so many events. -/
def Within (M : Machine σ ε) (may : σ → ε → Prop) (Q : σ → Prop) : ℕ → σ → Prop
  | 0, s => Q s
  | n + 1, s => Q s ∨
      (∃ e, may s e) ∧ ∀ e, may s e → ∃ s', M.step s e = some s' ∧ Within M may Q n s'

/-- The rule for what comes within a number of events: the measure counts the events still to
come. -/
theorem within_of_measure (measure : σ → ℕ) (hmay : ∀ s, I s → ¬ Q s → ∃ e, may s e)
    (hstep : ∀ s e, I s → ¬ Q s → may s e →
      ∃ s', M.step s e = some s' ∧ measure s' < measure s ∧ I s')
    (hinv : I s) {n : ℕ} (hn : measure s ≤ n) : M.Within may Q n s := by
  induction n generalizing s with
  | zero =>
    by_contra hq
    obtain ⟨e, he⟩ := hmay s hinv hq
    obtain ⟨s', -, hless, -⟩ := hstep s e hinv hq he
    omega
  | succ n ih =>
    by_cases hq : Q s
    · exact Or.inl hq
    · refine Or.inr ⟨hmay s hinv hq, ?_⟩
      intro e he
      obtain ⟨s', hs', hless, hkeep⟩ := hstep s e hinv hq he
      exact ⟨s', hs', ih hkeep (by omega)⟩

/-- The same where the measure says nothing of the states with the property, so that the event that
comes to one of them is counted apart. -/
theorem within_succ_of_measure (measure : σ → ℕ) (hmay : ∀ s, I s → ¬ Q s → ∃ e, may s e)
    (hstep : ∀ s e, I s → ¬ Q s → may s e →
      ∃ s', M.step s e = some s' ∧ (Q s' ∨ I s' ∧ measure s' < measure s))
    (hinv : I s) {n : ℕ} (hn : measure s ≤ n) : M.Within may Q (n + 1) s := by
  classical
  refine within_of_measure (I := fun s ↦ Q s ∨ I s) (fun s ↦ if Q s then 0 else measure s + 1)
    (fun s hs hq ↦ hmay s (hs.resolve_left hq) hq) (fun s e hs hq he ↦ ?_) (Or.inr hinv) ?_
  · obtain ⟨s', hs', hend⟩ := hstep s e (hs.resolve_left hq) hq he
    refine ⟨s', hs', ?_, hend.imp_right And.left⟩
    simp only [hq, ↓reduceIte]
    split
    · exact Nat.succ_pos _
    · next hq' => exact Nat.succ_lt_succ (hend.resolve_left hq').2
  · split
    · exact Nat.zero_le _
    · exact Nat.succ_le_succ hn

theorem Within.now (h : Q s) (n : ℕ) : M.Within may Q n s := by
  cases n with
  | zero => exact h
  | succ n => exact Or.inl h

theorem Within.mono {m n : ℕ} (h : M.Within may Q m s) (hmn : m ≤ n) : M.Within may Q n s := by
  induction n generalizing m s with
  | zero =>
    obtain rfl := Nat.le_zero.mp hmn
    exact h
  | succ n ih =>
    cases m with
    | zero => exact Or.inl h
    | succ m =>
      refine Or.imp_right (fun hlater ↦ ⟨hlater.1, ?_⟩) h
      intro e he
      obtain ⟨s', hs', hrest⟩ := hlater.2 e he
      exact ⟨s', hs', ih hrest (Nat.le_of_succ_le_succ hmn)⟩

/-- What comes within a number of events of a state that comes within another. -/
theorem Within.bind {R : σ → Prop} {m n : ℕ} (hfirst : M.Within may Q m s)
    (hsecond : ∀ s, Q s → M.Within may R n s) : M.Within may R (m + n) s := by
  induction m generalizing s with
  | zero => exact (hsecond s hfirst).mono (Nat.le_add_left n 0)
  | succ m ih =>
    rcases hfirst with hnow | ⟨hmay, hlater⟩
    · exact (hsecond s hnow).mono (Nat.le_add_left n (m + 1))
    · rw [Nat.add_right_comm]
      refine Or.inr ⟨hmay, ?_⟩
      intro e he
      obtain ⟨s', hs', hrest⟩ := hlater e he
      exact ⟨s', hs', ih hrest⟩

theorem Within.imp {R : σ → Prop} {n : ℕ} (h : M.Within may Q n s) (himp : ∀ s, Q s → R s) :
    M.Within may R n s :=
  h.bind (n := 0) fun s hs ↦ .now (himp s hs) 0

/-- The rule for what comes after some events of a kind, whatever else happens in between: an
assertion with a count, which every event keeps and every event of the kind lowers. -/
theorem Meets.countdown {P : σ → ε → Prop} {I : ℕ → σ → Prop} (counts : ε → Bool)
    (hstep : ∀ n s e s', I n s → P s e → M.step s e = some s' →
      I (n - if counts e then 1 else 0) s') {s s' : σ} {es : List ε} {n : ℕ}
    (hmeets : M.Meets P s es) (hrun : M.run s es = some s') (hinv : I n s) :
    I (n - es.countP counts) s' := by
  induction es generalizing s n with
  | nil =>
    obtain rfl : s = s' := Option.some.inj hrun
    exact hinv
  | cons e es ih =>
    obtain ⟨next, hnext, hrest⟩ := run_cons_eq_some.mp hrun
    have hkeep := ih (hmeets.2 next hnext) hrest (hstep n s e next hinv hmeets.1 hnext)
    have hcount : n - (e :: es).countP counts =
        n - (if counts e then 1 else 0) - es.countP counts := by
      rw [List.countP_cons]
      omega
    exact hcount ▸ hkeep

end Machine

end AmqpAsio
