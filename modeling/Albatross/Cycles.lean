/-
  Albatross/Cycles.lean
  =====================
  **Walks that lead into a cycle.**

  A walk along the steps of a relation ends, goes on among ever new elements, or comes back
  to one it has left.  Over a finite type only the first and the last can happen: the walks
  from an element end exactly when none leads into a cycle (`endsWithin_iff`), and then
  after fewer steps than there are elements in reach (`endsWithin_of_card_le`).

  Where steps from an element to itself are left out, a cycle has two different elements
  (`reachesCycle_ne_iff`).
-/
import Mathlib.Logic.Relation
import Mathlib.Data.Fintype.Card

namespace Albatross.Cycles

open Relation

variable {α : Type*} {r : α → α → Prop} {a b : α}

/-- Steps of `r` lead from `a` to an element, and from there back to it. -/
def ReachesCycle (r : α → α → Prop) (a : α) : Prop := ∃ b, ReflTransGen r a b ∧ TransGen r b b

/-! ### One step -/

theorem ReachesCycle.head (hstep : r a b) (h : ReachesCycle r b) : ReachesCycle r a := by
  obtain ⟨c, hwalk, hcycle⟩ := h
  exact ⟨c, hwalk.head hstep, hcycle⟩

/-- On the way to a cycle, and on it, there is a next step that stays on the way. -/
theorem ReachesCycle.exists_step (h : ReachesCycle r a) : ∃ b, r a b ∧ ReachesCycle r b := by
  obtain ⟨c, hwalk, hcycle⟩ := h
  rcases hwalk.cases_head with rfl | ⟨b, hstep, hrest⟩
  · obtain ⟨b, hstep, hback⟩ := TransGen.head'_iff.mp hcycle
    exact ⟨b, hstep, a, hback, hcycle⟩
  · exact ⟨b, hstep, c, hrest, hcycle⟩

/-! ### Walks that end -/

/-- Every walk from `a` takes fewer than `n` steps. -/
def EndsWithin (r : α → α → Prop) : ℕ → α → Prop
  | 0, _ => False
  | n + 1, a => ∀ b, r a b → EndsWithin r n b

theorem not_reachesCycle_of_endsWithin {n : ℕ} (h : EndsWithin r n a) : ¬ ReachesCycle r a := by
  induction n generalizing a with
  | zero => cases h
  | succ n ih =>
    intro hcycle
    obtain ⟨b, hstep, hb⟩ := hcycle.exists_step
    exact ih (h b hstep) hb

section Reach

variable [Fintype α]

open Classical in
/-- What the walks from `a` come to. -/
noncomputable def reach (r : α → α → Prop) (a : α) : Finset α :=
  Finset.univ.filter fun b => ReflTransGen r a b

theorem mem_reach : b ∈ reach r a ↔ ReflTransGen r a b := by simp [reach]

theorem reach_ssubset (hno : ¬ ReachesCycle r a) (hstep : r a b) : reach r b ⊂ reach r a := by
  rw [Finset.ssubset_iff_of_subset]
  · refine ⟨a, mem_reach.mpr .refl, ?_⟩
    intro hback
    exact hno ⟨a, .refl, .head' hstep (mem_reach.mp hback)⟩
  · intro c hc
    exact mem_reach.mpr ((mem_reach.mp hc).head hstep)

theorem endsWithin_of_card_le {n : ℕ} (hno : ¬ ReachesCycle r a) (hcard : (reach r a).card ≤ n) :
    EndsWithin r n a := by
  induction n generalizing a with
  | zero =>
    have hpos : 0 < (reach r a).card := Finset.card_pos.mpr ⟨a, mem_reach.mpr .refl⟩
    omega
  | succ n ih =>
    intro b hstep
    have hlt := Finset.card_lt_card (reach_ssubset hno hstep)
    apply ih
    · intro hb
      exact hno (hb.head hstep)
    · omega

end Reach

/-- **Over a finite type the walks from an element end exactly where no cycle is in reach.** -/
theorem endsWithin_iff [Finite α] : (∃ n, EndsWithin r n a) ↔ ¬ ReachesCycle r a := by
  constructor
  · rintro ⟨n, h⟩
    exact not_reachesCycle_of_endsWithin h
  · intro hno
    cases nonempty_fintype α
    exact ⟨_, endsWithin_of_card_le hno le_rfl⟩

/-! ### Steps to another element -/

section Proper

theorem reflTransGen_ne_iff :
    ReflTransGen (fun x y => r x y ∧ x ≠ y) a b ↔ ReflTransGen r a b := by
  constructor
  · intro h
    have hsub : (fun x y => r x y ∧ x ≠ y) ≤ r := fun x y hstep => hstep.1
    exact ReflTransGen.mono hsub a b h
  · intro h
    induction h with
    | refl => exact .refl
    | @tail b c _ hstep ih =>
      by_cases hbc : b = c
      · rw [← hbc]
        exact ih
      · exact ih.tail ⟨hstep, hbc⟩

theorem transGen_of_ne (hne : a ≠ b) (h : ReflTransGen r a b) : TransGen r a b := by
  rcases reflTransGen_iff_eq_or_transGen.mp h with heq | hwalk
  · exact absurd heq.symm hne
  · exact hwalk

/-- Without the steps to the same element, a cycle is two elements with walks between them. -/
theorem reachesCycle_ne_iff :
    ReachesCycle (fun x y => r x y ∧ x ≠ y) a ↔
      ∃ b c, b ≠ c ∧ ReflTransGen r a b ∧ TransGen r b c ∧ TransGen r c b := by
  constructor
  · rintro ⟨b, hwalk, hcycle⟩
    obtain ⟨c, ⟨hstep, hne⟩, hback⟩ := TransGen.head'_iff.mp hcycle
    refine ⟨b, c, hne, reflTransGen_ne_iff.mp hwalk, .single hstep, ?_⟩
    exact transGen_of_ne hne.symm (reflTransGen_ne_iff.mp hback)
  · rintro ⟨b, c, hne, hwalk, hout, hback⟩
    refine ⟨b, reflTransGen_ne_iff.mpr hwalk, ?_⟩
    have hout' := transGen_of_ne hne (reflTransGen_ne_iff.mpr hout.to_reflTransGen)
    have hback' := transGen_of_ne hne.symm (reflTransGen_ne_iff.mpr hback.to_reflTransGen)
    exact hout'.trans hback'

end Proper

end Albatross.Cycles
