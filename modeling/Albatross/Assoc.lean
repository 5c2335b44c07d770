/-
  Albatross/Assoc.lean
  ====================
  **Dictionaries filled entry by entry.**

  A dictionary is an association list without repeated keys, and `d[k] = v` is
  `AList.insert`.  Filling one from a list of entries (`fill`) leaves, under each
  key, the value of the last entry that has it; with distinct keys that is every
  entry's own value.

  A table may also be a function that says what is under each key;
  `update_some_eq_some` and `update_none_eq_some` say where an entry comes from after
  one is set or removed, and `lookup_insert_eq_some` and `lookup_eraseAll_eq_some`
  say it of a dictionary.
-/
import Mathlib.Data.List.AList
import Mathlib.Logic.Function.Basic
import Mathlib.Tactic.Tauto

namespace Albatross.Assoc

abbrev Dict (κ ν : Type) := AList fun _ : κ => ν

variable {κ ν α : Type} [DecidableEq κ]

/-- `for e in l: d[key(e)] = val(e)`. -/
def fill (key : α → κ) (val : α → ν) (l : List α) (d : Dict κ ν) : Dict κ ν :=
  l.foldl (fun d e => d.insert (key e) (val e)) d

variable {key : α → κ} {val : α → ν}

@[simp] theorem fill_nil (d : Dict κ ν) : fill key val [] d = d := rfl

@[simp] theorem fill_cons (e : α) (l : List α) (d : Dict κ ν) :
    fill key val (e :: l) d = fill key val l (d.insert (key e) (val e)) := rfl

theorem lookup_fill_of_forall_ne {k : κ} {l : List α} (h : ∀ e ∈ l, key e ≠ k) :
    ∀ d : Dict κ ν, (fill key val l d).lookup k = d.lookup k := by
  induction l with
  | nil => intro d; rfl
  | cons e l ih =>
    intro d
    have hne : k ≠ key e := fun heq => h e List.mem_cons_self heq.symm
    rw [fill_cons, ih (fun x hx => h x (List.mem_cons_of_mem e hx)), AList.lookup_insert_ne hne]

theorem lookup_fill_of_mem {l : List α} (hnodup : (l.map key).Nodup) {e : α} (he : e ∈ l) :
    ∀ d : Dict κ ν, (fill key val l d).lookup (key e) = some (val e) := by
  induction l with
  | nil => cases he
  | cons x l ih =>
    intro d
    rw [List.map_cons, List.nodup_cons] at hnodup
    rcases List.mem_cons.mp he with rfl | he
    · have hfresh : ∀ y ∈ l, key y ≠ key e := by
        intro y hy heq
        exact hnodup.1 (heq ▸ List.mem_map_of_mem hy)
      rw [fill_cons, lookup_fill_of_forall_ne hfresh, AList.lookup_insert]
    · rw [fill_cons]
      exact ih hnodup.2 he _

/-- With distinct keys a dictionary that was empty holds the entries and nothing else. -/
theorem lookup_fill_empty_eq_some {k : κ} {v : ν} {l : List α} (hnodup : (l.map key).Nodup) :
    (fill key val l ∅).lookup k = some v ↔ ∃ e ∈ l, k = key e ∧ v = val e := by
  constructor
  · intro h
    by_cases hk : ∃ e ∈ l, key e = k
    · obtain ⟨e, he, rfl⟩ := hk
      rw [lookup_fill_of_mem hnodup he, Option.some.injEq] at h
      exact ⟨e, he, rfl, h.symm⟩
    · have hne : ∀ e ∈ l, key e ≠ k := fun e he heq => hk ⟨e, he, heq⟩
      rw [lookup_fill_of_forall_ne hne, AList.lookup_empty] at h
      cases h
  · rintro ⟨e, he, rfl, rfl⟩
    exact lookup_fill_of_mem hnodup he ∅

/-! ### Setting and removing entries -/

/-- `for k in ks: d.pop(k)`. -/
def eraseAll (ks : List κ) (d : Dict κ ν) : Dict κ ν := ks.foldl (fun d k => d.erase k) d

section Lookup

variable {d : Dict κ ν} {k l : κ} {v w : ν}

theorem mem_keys_of_lookup (h : d.lookup k = some v) : k ∈ d.keys := by
  refine AList.mem_keys.mp (AList.lookup_isSome.mp ?_)
  rw [h]
  rfl

theorem lookup_insert_eq_some :
    (d.insert k v).lookup l = some w ↔ (l = k ∧ w = v) ∨ (l ≠ k ∧ d.lookup l = some w) := by
  by_cases h : l = k
  · subst h
    simp [AList.lookup_insert, eq_comm]
  · simp [AList.lookup_insert_ne h, h]

theorem lookup_erase_eq_some : (d.erase k).lookup l = some w ↔ l ≠ k ∧ d.lookup l = some w := by
  by_cases h : l = k
  · subst h
    simp [AList.lookup_erase]
  · simp [AList.lookup_erase_ne h, h]

theorem lookup_eraseAll_eq_some {ks : List κ} :
    (eraseAll ks d).lookup l = some w ↔ l ∉ ks ∧ d.lookup l = some w := by
  induction ks generalizing d with
  | nil => simp [eraseAll]
  | cons k ks ih =>
    have hcons : eraseAll (k :: ks) d = eraseAll ks (d.erase k) := rfl
    rw [hcons, ih, lookup_erase_eq_some, List.mem_cons, not_or]
    tauto

end Lookup

/-- What holds of the values filled in and of those there were holds of all values. -/
theorem forall_lookup_fill {P : ν → Prop} {l : List α} (hl : ∀ e ∈ l, P (val e)) :
    ∀ {d : Dict κ ν}, (∀ k v, d.lookup k = some v → P v) →
      ∀ k v, (fill key val l d).lookup k = some v → P v := by
  induction l with
  | nil => exact fun hd => hd
  | cons e l ih =>
    intro d hd
    refine ih (fun x hx => hl x (List.mem_cons_of_mem e hx)) fun k v h => ?_
    rcases lookup_insert_eq_some.mp h with ⟨-, rfl⟩ | ⟨-, hold⟩
    · exact hl e List.mem_cons_self
    · exact hd k v hold

/-! ### Tables that are functions -/

section Update

variable {f : κ → Option ν} {k l : κ} {v w : ν}

theorem update_some_eq_some :
    Function.update f k (some v) l = some w ↔ (l = k ∧ w = v) ∨ (l ≠ k ∧ f l = some w) := by
  by_cases h : l = k
  · rw [h, Function.update_self]
    simp [eq_comm]
  · rw [Function.update_of_ne h]
    simp [h]

theorem update_none_eq_some : Function.update f k none l = some w ↔ l ≠ k ∧ f l = some w := by
  by_cases h : l = k
  · rw [h, Function.update_self]
    simp
  · rw [Function.update_of_ne h]
    simp [h]

end Update

end Albatross.Assoc
