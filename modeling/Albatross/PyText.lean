/-
  Albatross/PyText.lean
  =====================
  **Operations of Python's `str`.**

  A text is the list of its characters.  `int` reads the digits from 0 to 9; the decimal
  digits of other scripts, which it also reads in Python, are left out.
-/
import Albatross.Decimal
import Albatross.Python
import Mathlib.Data.List.DropRight

namespace Albatross.PyText

open Decimal
open Python (PyExn)

abbrev Text := List Char

/-- `c.isspace()`. -/
def isSpace (c : Char) : Bool :=
  let n := c.toNat
  decide (9 ≤ n ∧ n ≤ 13 ∨ 28 ≤ n ∧ n ≤ 32 ∨ n = 0x85 ∨ n = 0xA0 ∨ n = 0x1680 ∨
    0x2000 ≤ n ∧ n ≤ 0x200A ∨ n = 0x2028 ∨ n = 0x2029 ∨ n = 0x202F ∨ n = 0x205F ∨ n = 0x3000)

/-- `s.strip()`. -/
def strip (s : Text) : Text := (s.dropWhile isSpace).rdropWhile isSpace

/-- `s.split()`. -/
def split (s : Text) : List Text := (s.splitOnP isSpace).filter fun w => !w.isEmpty

/-- `s.split(sep, maxsplit=n)`. -/
def splitMax (sep : Char) : Nat → Text → List Text
  | 0, s => [s]
  | n + 1, s =>
      if sep ∈ s then
        s.takeWhile (· ≠ sep) :: splitMax sep n (s.dropWhile (· ≠ sep)).tail
      else [s]

/-- The value that `if s:` lets through. -/
def truthy {α : Type} (s : Option (List α)) : Option (List α) := s.filter fun t => !t.isEmpty

def natGrouped (s : Text) : Option Nat :=
  if [] ∈ s.splitOn '_' then none else natOf (s.splitOn '_').flatten

/-- `int(s)`. -/
def int (s : Text) : Except PyExn Int :=
  let i := match strip s with
    | '-' :: t => (natGrouped t).map fun n : Nat => -(n : Int)
    | '+' :: t => (natGrouped t).map fun n : Nat => (n : Int)
    | t => (natGrouped t).map fun n : Nat => (n : Int)
  match i with
  | some i => .ok i
  | none => .error .valueError

/-! ### Numerals -/

theorem isSpace_of_isDigit {c : Char} (h : c.isDigit) : isSpace c = false := by
  have hrange : 48 ≤ c.toNat ∧ c.toNat ≤ 57 := by
    simpa [Char.isDigit, UInt32.le_iff_toNat_le] using h
  unfold isSpace
  simp
  omega

theorem range_of_isAlpha {c : Char} (h : c.isAlpha) :
    65 ≤ c.toNat ∧ c.toNat ≤ 90 ∨ 97 ≤ c.toNat ∧ c.toNat ≤ 122 := by
  delta Char.isAlpha Char.isUpper Char.isLower at h
  simpa [UInt32.le_iff_toNat_le] using h

theorem isSpace_of_isAlpha {c : Char} (h : c.isAlpha) : isSpace c = false := by
  have hrange := range_of_isAlpha h
  unfold isSpace
  simp
  omega

theorem strip_of_forall {s : Text} (h : ∀ c ∈ s, isSpace c = false) : strip s = s := by
  have hdrop : s.dropWhile isSpace = s := by
    cases s with
    | nil => rfl
    | cons c s => simp [h c List.mem_cons_self]
  rw [strip, hdrop, List.rdropWhile_eq_self_iff]
  intro hne
  simp [h _ (List.getLast_mem hne)]

theorem natGrouped_of_natOf {s : Text} {n : Nat} (h : natOf s = some n) :
    natGrouped s = some n := by
  have hunderscore : '_' ∉ s := by
    intro hmem
    cases isDigit_of_natOf h hmem
  have hne := ne_nil_of_natOf h
  rw [natGrouped, List.splitOn_eq_singleton hunderscore, if_neg (by simpa using hne.symm)]
  simpa using h

theorem int_of_intOf {s : Text} {i : Int} (h : intOf s = some i) : int s = .ok i := by
  have hspace : ∀ c ∈ s, isSpace c = false := by
    intro c hc
    rcases mem_of_intOf h hc with hdigit | rfl | rfl
    · exact isSpace_of_isDigit hdigit
    · decide
    · decide
  unfold int
  rw [strip_of_forall hspace]
  unfold intOf at h
  split at h
  · obtain ⟨n, hn, rfl⟩ := Option.map_eq_some_iff.mp h
    simp [natGrouped_of_natOf hn]
  · obtain ⟨n, hn, rfl⟩ := Option.map_eq_some_iff.mp h
    simp [natGrouped_of_natOf hn]
  · obtain ⟨n, hn, rfl⟩ := Option.map_eq_some_iff.mp h
    simp [natGrouped_of_natOf hn]

theorem splitMax_succ {sep : Char} {a : Text} (ha : sep ∉ a) (n : Nat) (s : Text) :
    splitMax sep (n + 1) (a ++ sep :: s) = a :: splitMax sep n s := by
  have hbefore : ∀ c ∈ a, decide (c ≠ sep) = true := by
    intro c hc
    exact decide_eq_true fun heq => ha (heq ▸ hc)
  rw [splitMax, if_pos (by simp), List.takeWhile_append_of_pos hbefore,
    List.dropWhile_append_of_pos hbefore]
  simp

theorem int_cons_error {c : Char} (hletter : c.isAlpha) (s : Text) :
    int (c :: s) = .error .valueError := by
  have hrange := range_of_isAlpha hletter
  have hspace : isSpace c = false := isSpace_of_isAlpha hletter
  have hne : ∀ d : Char, (d.toNat < 65 ∨ d.toNat = 95) → c ≠ d := by
    rintro d hd rfl
    omega
  obtain ⟨r, hr⟩ : ∃ r, strip (c :: s) = c :: r := by
    have hdrop : (c :: s).dropWhile isSpace = c :: s := by simp [hspace]
    have hnil : (c :: s).rdropWhile isSpace ≠ [] := by
      simp [List.rdropWhile_eq_nil_iff, hspace]
    have hprefix : (c :: s).rdropWhile isSpace <+: c :: s := List.rdropWhile_prefix _ _
    rw [strip, hdrop]
    obtain ⟨d, r, hd⟩ := List.exists_cons_of_ne_nil hnil
    rw [hd] at hprefix ⊢
    exact ⟨r, by rw [(List.cons_prefix_cons.mp hprefix).1]⟩
  have hnone : natGrouped (c :: r) = none := by
    unfold natGrouped
    split
    · rfl
    · cases hn : natOf ((c :: r).splitOn '_').flatten with
      | none => rfl
      | some n =>
        have hmem : c ∈ ((c :: r).splitOn '_').flatten := by
          rw [List.splitOn_cons_eq_if_modifyHead, if_neg (by simpa using hne '_' (by decide))]
          cases hsplit : r.splitOn '_' with
          | nil => exact absurd hsplit (List.splitOn_ne_nil _ _)
          | cons a l => simp
        have hdigit := isDigit_of_natOf hn hmem
        simp [Char.isDigit, UInt32.le_iff_toNat_le] at hdigit
        omega
  unfold int
  rw [hr]
  split
  · next heq =>
    exact absurd (List.cons.inj heq).1 (hne '-' (by decide))
  · next heq => exact absurd (List.cons.inj heq).1 (hne '+' (by decide))
  · rw [hnone]
    rfl

end Albatross.PyText
