/-
  Albatross/FirstFree.lean
  ========================
  **The first free index of a numbering.**

  `firstFree` counts up from an index until it meets one that is not used.  It is given
  a number of turns; where one of the indices it may come to is free, it stops at the
  first free one (`firstFree_spec`).  A numbering that gives every index a name of its
  own has a free index among any `n + 1` when `n` names are taken (`exists_free`).
-/
import Mathlib.Data.Finset.Card
import Mathlib.Order.Interval.Finset.Nat

namespace Albatross.FirstFree

/-- `while used(index): index += 1`. -/
def firstFree (used : Nat → Bool) : Nat → Nat → Nat
  | 0, index => index
  | turns + 1, index => if used index then firstFree used turns (index + 1) else index

/-- The first index from `start` on that is not used. -/
structure IsFirst (used : Nat → Bool) (start index : Nat) : Prop where
  le : start ≤ index
  free : used index = false
  before : ∀ i, start ≤ i → i < index → used i = true

theorem IsFirst.here {used : Nat → Bool} {start : Nat} (h : used start = false) :
    IsFirst used start start :=
  ⟨le_refl _, h, fun i hle hlt => by omega⟩

theorem IsFirst.step {used : Nat → Bool} {start index : Nat} (hused : used start = true)
    (h : IsFirst used (start + 1) index) : IsFirst used start index := by
  refine ⟨by have := h.le; omega, h.free, fun i hle hlt => ?_⟩
  by_cases hi : i = start
  · rw [hi]
    exact hused
  · exact h.before i (by omega) hlt

theorem firstFree_spec {used : Nat → Bool} (turns : Nat) : ∀ {start : Nat},
    (∃ i, start ≤ i ∧ i ≤ start + turns ∧ used i = false) →
      IsFirst used start (firstFree used turns start) := by
  induction turns with
  | zero =>
    rintro start ⟨i, hle, hge, hfree⟩
    have hi : i = start := by omega
    rw [hi] at hfree
    exact IsFirst.here hfree
  | succ turns ih =>
    rintro start ⟨i, hle, hge, hfree⟩
    unfold firstFree
    split
    · next hused =>
      have hne : i ≠ start := by
        rintro rfl
        rw [hfree] at hused
        cases hused
      exact (ih ⟨i, by omega, by omega, hfree⟩).step hused
    · next hno => exact IsFirst.here (by simpa using hno)

/-- Among `n + 1` indices one has a name that is none of `n`. -/
theorem exists_free {α : Type} [DecidableEq α] {name : Nat → α} (hinj : Function.Injective name)
    (taken : List α) (start : Nat) :
    ∃ i, start ≤ i ∧ i ≤ start + taken.length ∧ name i ∉ taken := by
  by_contra hall
  have hsub : (Finset.Icc start (start + taken.length)).image name ⊆ taken.toFinset := by
    intro a ha
    obtain ⟨i, hi, rfl⟩ := Finset.mem_image.mp ha
    obtain ⟨hle, hge⟩ := Finset.mem_Icc.mp hi
    by_contra hno
    apply hall
    exact ⟨i, hle, hge, by simpa using hno⟩
  have hcard := Finset.card_le_card hsub
  rw [Finset.card_image_of_injective _ hinj, Nat.card_Icc] at hcard
  have hlength := List.toFinset_card_le taken
  omega

end Albatross.FirstFree
