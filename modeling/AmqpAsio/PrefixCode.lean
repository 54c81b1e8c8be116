import Mathlib.Data.Set.Basic

/-!
# Streams of framed messages

A code none of whose words begins with another can be read from a stream without a look ahead: a
list splits in one way into words and a rest that begins with none (`split_unique`). A reader that
does not know where the next word ends can only be sure that the list holds none while the list is
shorter than that word must be (`Awaits`).
-/

set_option autoImplicit false
set_option relaxedAutoImplicit false

namespace AmqpAsio

/-- A set of words over an alphabet, none of which is empty or begins with another. -/
structure PrefixCode (α : Type*) where
  words : Set (List α)
  nil_notMem : [] ∉ words
  prefixFree : ∀ f ∈ words, ∀ g ∈ words, f <+: g → f = g

namespace PrefixCode

variable {α : Type*} (C : PrefixCode α)

/-- The list begins with no word. -/
def Incomplete (l : List α) : Prop := ∀ f ∈ C.words, ¬ f <+: l

/-- The number does not exceed the length of the word that the list begins with, or may come to
begin with when more is added to it. -/
def Awaits (n : ℕ) (l : List α) : Prop := ∀ f ∈ C.words, f <+: l ∨ l <+: f → n ≤ f.length

variable {C} {l : List α} {n : ℕ}

theorem incomplete_nil : C.Incomplete [] := fun _ hf hprefix ↦
  C.nil_notMem (List.prefix_nil.mp hprefix ▸ hf)

/-- More input does not put the next word off. -/
theorem Awaits.append (h : C.Awaits n l) (more : List α) : C.Awaits n (l ++ more) := by
  intro f hf hcomparable
  refine h f hf ?_
  rcases hcomparable with hbegins | hbegun
  · exact List.prefix_or_prefix_of_prefix hbegins (List.prefix_append l more)
  · exact Or.inr ((List.prefix_append l more).trans hbegun)

/-- A list that is shorter than the next word must be holds no word. -/
theorem Awaits.incomplete (h : C.Awaits n l) (hlt : l.length < n) : C.Incomplete l := by
  intro f hf hprefix
  have hle := h f hf (Or.inl hprefix)
  have := hprefix.length_le
  omega

/-- Only no words at all are empty together. -/
theorem eq_nil_of_flatten {words : List (List α)} (hwords : ∀ f ∈ words, f ∈ C.words)
    (hempty : words.flatten = []) : words = [] := by
  cases words with
  | nil => rfl
  | cons f fs =>
    obtain ⟨rfl, -⟩ := List.append_eq_nil_iff.mp hempty
    exact absurd (hwords [] List.mem_cons_self) C.nil_notMem

/-- A list splits in one way into words and a rest that begins with none. -/
theorem split_unique {first second : List (List α)} {r s : List α}
    (hfirst : ∀ f ∈ first, f ∈ C.words) (hsecond : ∀ f ∈ second, f ∈ C.words)
    (hr : C.Incomplete r) (hs : C.Incomplete s) (hsame : first.flatten ++ r = second.flatten ++ s) :
    first = second ∧ r = s := by
  induction first generalizing second with
  | nil =>
    cases second with
    | nil => exact ⟨rfl, hsame⟩
    | cons g gs =>
      refine absurd ?_ (hr g (hsecond g List.mem_cons_self))
      exact ⟨gs.flatten ++ s, by simpa using hsame.symm⟩
  | cons f fs ih =>
    cases second with
    | nil =>
      refine absurd ?_ (hs f (hfirst f List.mem_cons_self))
      exact ⟨fs.flatten ++ r, by simpa using hsame⟩
    | cons g gs =>
      simp only [List.flatten_cons, List.append_assoc] at hsame
      have hf := hfirst f List.mem_cons_self
      have hg := hsecond g List.mem_cons_self
      obtain rfl : f = g := by
        rcases List.prefix_or_prefix_of_prefix (List.prefix_append f (fs.flatten ++ r))
          (hsame ▸ List.prefix_append g (gs.flatten ++ s)) with hprefix | hprefix
        · exact C.prefixFree f hf g hg hprefix
        · exact (C.prefixFree g hg f hf hprefix).symm
      obtain ⟨rfl, rfl⟩ := ih (fun w hw ↦ hfirst w (List.mem_cons_of_mem f hw))
        (fun w hw ↦ hsecond w (List.mem_cons_of_mem f hw)) (List.append_cancel_left hsame)
      exact ⟨rfl, rfl⟩

end PrefixCode

end AmqpAsio
