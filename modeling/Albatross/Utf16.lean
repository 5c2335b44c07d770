/-
  Albatross/Utf16.lean
  ====================
  **UTF-16.**

  `utf16` writes a text in 16-bit units: one for a character of the Basic Multilingual
  Plane, two for any other.  Cutting the units after `k` of them is cutting the text after
  `k` characters exactly when the characters before the cut are all basic
  (`take_utf16_iff`, `drop_utf16_iff`).
-/
import Mathlib.Data.List.Basic
import Mathlib.Tactic.Common

namespace Albatross.Utf16

def Basic (c : Char) : Prop := c.toNat < 0x10000

instance (c : Char) : Decidable (Basic c) := inferInstanceAs (Decidable (_ < _))

def units (c : Char) : List UInt16 :=
  if Basic c then [UInt16.ofNat c.toNat]
  else [UInt16.ofNat (0xD800 + (c.toNat - 0x10000) / 0x400),
    UInt16.ofNat (0xDC00 + (c.toNat - 0x10000) % 0x400)]

def utf16 (s : List Char) : List UInt16 := s.flatMap units

/-- The text of basic characters that the units are. -/
def ofUnits (u : List UInt16) : List Char := u.map fun x => Char.ofNat x.toNat

section Lengths

variable {c : Char} {s t : List Char} {k : Nat}

theorem units_of_basic (h : Basic c) : units c = [UInt16.ofNat c.toNat] := if_pos h

theorem length_units (c : Char) : (units c).length = if Basic c then 1 else 2 := by
  unfold units
  split
  · rfl
  · rfl

@[simp] theorem utf16_nil : utf16 [] = [] := rfl

@[simp] theorem utf16_cons (c : Char) (s : List Char) : utf16 (c :: s) = units c ++ utf16 s := by
  simp [utf16]

@[simp] theorem utf16_append (s t : List Char) : utf16 (s ++ t) = utf16 s ++ utf16 t := by
  simp [utf16]

theorem length_le_utf16 (s : List Char) : s.length ≤ (utf16 s).length := by
  induction s with
  | nil => exact Nat.le_refl 0
  | cons c s ih =>
    have hc : 1 ≤ (units c).length := by
      rw [length_units]
      split <;> omega
    rw [utf16_cons, List.length_append, List.length_cons]
    omega

theorem length_utf16_eq_iff : (utf16 s).length = s.length ↔ ∀ c ∈ s, Basic c := by
  induction s with
  | nil => simp
  | cons c s ih =>
    have hle := length_le_utf16 s
    rw [utf16_cons, List.length_append, List.length_cons, length_units, List.forall_mem_cons, ← ih]
    split
    · next hc => simp only [hc, true_and]; omega
    · next hc => simp only [hc, false_and, iff_false]; omega

theorem length_utf16_take_iff (hk : k ≤ s.length) :
    (utf16 (s.take k)).length = k ↔ ∀ c ∈ s.take k, Basic c := by
  rw [← length_utf16_eq_iff, List.length_take_of_le hk]

theorem utf16_take_append_drop (s : List Char) (k : Nat) :
    utf16 s = utf16 (s.take k) ++ utf16 (s.drop k) := by
  rw [← utf16_append, List.take_append_drop]

theorem take_utf16_iff (hk : k ≤ s.length) :
    (utf16 s).take k = utf16 (s.take k) ↔ ∀ c ∈ s.take k, Basic c := by
  rw [← length_utf16_take_iff hk]
  constructor
  · intro h
    rw [← h, List.length_take_of_le (Nat.le_trans hk (length_le_utf16 s))]
  · intro h
    rw [utf16_take_append_drop s k]
    exact List.take_left' h

theorem drop_utf16_iff (hk : k ≤ s.length) :
    (utf16 s).drop k = utf16 (s.drop k) ↔ ∀ c ∈ s.take k, Basic c := by
  rw [← length_utf16_take_iff hk]
  constructor
  · intro h
    have hlen := congrArg List.length h
    have hsplit := congrArg List.length (utf16_take_append_drop s k)
    have hle := length_le_utf16 s
    rw [List.length_drop] at hlen
    rw [List.length_append] at hsplit
    omega
  · intro h
    rw [utf16_take_append_drop s k]
    exact List.drop_left' h

end Lengths

/-! ### Basic text -/

theorem ofUnits_utf16 {s : List Char} (h : ∀ c ∈ s, Basic c) : ofUnits (utf16 s) = s := by
  induction s with
  | nil => rfl
  | cons c s ih =>
    obtain ⟨hc, hs⟩ := List.forall_mem_cons.mp h
    have hmod : c.toNat % 65536 = c.toNat := Nat.mod_eq_of_lt hc
    rw [utf16_cons, units_of_basic hc, List.singleton_append, ofUnits, List.map_cons]
    rw [ofUnits] at ih
    rw [ih hs]
    simp [hmod]

/-! ### Characters as units -/

theorem toNat_lt (c : Char) : c.toNat < 0x110000 := by
  have h := c.valid
  simp only [UInt32.isValidChar, Nat.isValidChar] at h
  change c.val.toNat < 0x110000
  omega

section Unit

variable {c : Char} (hc : c.toNat < 0xD800)

include hc

/-- The unit of a character below the surrogates is a unit of no other character. -/
theorem mem_units_iff {d : Char} : UInt16.ofNat c.toNat ∈ units d ↔ c = d := by
  have hlt := toNat_lt d
  constructor
  · intro h
    have hunit : ∃ n, UInt16.ofNat c.toNat = UInt16.ofNat n ∧ n < 0x10000 ∧
        (n = d.toNat ∨ 0xD800 ≤ n) := by
      unfold units at h
      split at h
      · next hbasic => exact ⟨_, List.mem_singleton.mp h, hbasic, Or.inl rfl⟩
      · rcases List.mem_pair.mp h with h | h
        · exact ⟨_, h, by omega, by omega⟩
        · exact ⟨_, h, by omega, by omega⟩
    obtain ⟨n, hn, hbound, hcase⟩ := hunit
    have hnat := congrArg UInt16.toNat hn
    have hc' : c.toNat < 0x10000 := by omega
    simp only [UInt16.toNat_ofNat', Nat.reducePow, Nat.mod_eq_of_lt hbound,
      Nat.mod_eq_of_lt hc'] at hnat
    exact Char.toNat_inj.mp (by omega)
  · rintro rfl
    rw [units_of_basic (Nat.lt_trans hc (by decide))]
    exact List.mem_singleton_self _

theorem mem_utf16_iff {s : List Char} : UInt16.ofNat c.toNat ∈ utf16 s ↔ c ∈ s := by
  induction s with
  | nil => simp
  | cons d s ih => rw [utf16_cons, List.mem_append, List.mem_cons, ih, mem_units_iff hc]

theorem utf16_append_cons (s t : List Char) :
    utf16 (s ++ c :: t) = utf16 s ++ UInt16.ofNat c.toNat :: utf16 t := by
  rw [utf16_append, utf16_cons, units_of_basic (Nat.lt_trans hc (by decide))]
  rfl

end Unit

end Albatross.Utf16
