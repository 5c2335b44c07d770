/-
  Albatross/Places.lean
  =====================
  **Items and the places they are in.**

  A list of holders, each of which has at most one item: what replacing one of them does to
  the items held, and to a number that the holders carry.  Items are counted with `Perm`:
  a system whose every step takes in its label's items and loses none has, after a run, what
  it had and what came in (`run_conserved`).
-/
import Albatross.Runs
import Mathlib.Algebra.GroupWithZero.Nat
import Mathlib.Data.List.Basic

namespace Albatross.Places

open Runs

section Holders

variable {α β : Type} {l : List β} {k : Nat} {b : β}

theorem set_split (hk : l[k]? = some b) :
    ∃ l₁ l₂, l = l₁ ++ b :: l₂ ∧ ∀ c, l.set k c = l₁ ++ c :: l₂ := by
  obtain ⟨hlt, hget⟩ := List.getElem?_eq_some_iff.mp hk
  refine ⟨l.take k, l.drop (k + 1), ?_, fun c => ?_⟩
  · rw [← hget, List.getElem_cons_drop, List.take_append_drop]
  · exact List.set_eq_take_append_cons_drop.trans (if_pos hlt)

variable (held : β → Option α) {a : α}

theorem held_fill (hk : l[k]? = some b) (hb : held b = none) (c : β) (hc : held c = some a) :
    ((l.set k c).filterMap held).Perm (l.filterMap held ++ [a]) := by
  obtain ⟨l₁, l₂, rfl, hset⟩ := set_split hk
  rw [hset, List.filterMap_append, List.filterMap_append, List.filterMap_cons_some hc,
    List.filterMap_cons_none hb]
  exact List.perm_middle.trans (List.perm_append_singleton a _).symm

theorem held_empty (hk : l[k]? = some b) (hb : held b = some a) (c : β) (hc : held c = none) :
    (l.filterMap held).Perm ((l.set k c).filterMap held ++ [a]) := by
  obtain ⟨l₁, l₂, rfl, hset⟩ := set_split hk
  rw [hset, List.filterMap_append, List.filterMap_append, List.filterMap_cons_some hb,
    List.filterMap_cons_none hc]
  exact List.perm_middle.trans (List.perm_append_singleton a _).symm

theorem held_same (hk : l[k]? = some b) (c : β) (hc : held c = held b) :
    (l.set k c).filterMap held = l.filterMap held := by
  obtain ⟨l₁, l₂, rfl, hset⟩ := set_split hk
  rw [hset, List.filterMap_append, List.filterMap_append, List.filterMap_cons,
    List.filterMap_cons, hc]

theorem flatMap_set (items : β → List α) (hk : l[k]? = some b) (c : β) :
    ((l.set k c).flatMap items ++ items b).Perm (l.flatMap items ++ items c) := by
  obtain ⟨l₁, l₂, rfl, hset⟩ := set_split hk
  rw [hset]
  simp only [List.flatMap_append, List.flatMap_cons, List.append_assoc]
  have hswap : (items c ++ (l₂.flatMap items ++ items b)).Perm
      (items b ++ l₂.flatMap items ++ items c) :=
    (List.perm_append_comm.append_left _).trans List.perm_append_comm
  rw [List.append_assoc] at hswap
  exact hswap.append_left _

theorem sum_set (f : β → Nat) (hk : l[k]? = some b) (c : β) :
    ((l.set k c).map f).sum + f b = (l.map f).sum + f c := by
  obtain ⟨l₁, l₂, rfl, hset⟩ := set_split hk
  rw [hset]
  simp only [List.map_append, List.map_cons, List.sum_append, List.sum_cons]
  omega

end Holders

/-- **Items are conserved over a run** whose steps lose none. -/
theorem run_conserved {σ ι α : Type} {step : σ → ι → Option σ} {places : σ → List α}
    {given : ι → List α}
    (hstep : ∀ s l s', step s l = some s' → (places s').Perm (places s ++ given l))
    {ls : List ι} {s s' : σ} (hrun : run step s ls = some s') :
    (places s').Perm (places s ++ ls.flatMap given) := by
  have hkeep : ∀ past a l b, l ∈ ls → (places a).Perm (places s ++ past.flatMap given) →
      step a l = some b → (places b).Perm (places s ++ (past ++ [l]).flatMap given) := by
    intro past a l b _ hpast hone
    rw [List.flatMap_append, List.flatMap_singleton, ← List.append_assoc]
    exact (hstep a l b hone).trans (hpast.append_right _)
  have h₀ : (places s).Perm (places s ++ ([] : List ι).flatMap given) := by simp
  exact run_history hkeep [] h₀ hrun

end Albatross.Places
