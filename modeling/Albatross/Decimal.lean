/-
  Albatross/Decimal.lean
  ======================
  **Decimal numerals.**

  `Nat.toDigits 10` writes a number in decimal.  A numeral says which number it is
  (`toDigits_injective`) and has no characters but digits.  `padded` writes the last
  digits of a number, with leading zeros.

  `numeral` writes an integer, and `intOf` reads what has a sign or none and then digits;
  it reads every numeral back (`intOf_numeral`).
-/
import Mathlib.Data.Int.Basic
import Mathlib.Logic.Function.Basic
import Mathlib.Tactic.Common
import Mathlib.Tactic.IntervalCases

namespace Albatross.Decimal

theorem toDigits_injective : Function.Injective (Nat.toDigits 10) := by
  intro m n h
  have hvalue := congrArg (fun digits => Nat.ofDigitChars 10 digits 0) h
  simpa using hvalue

theorem isDigit_of_mem_toDigits {c : Char} {n : Nat} (h : c ∈ Nat.toDigits 10 n) : c.isDigit :=
  Nat.isDigit_of_mem_toDigits (by decide) (by decide) h

theorem not_mem_toDigits {c : Char} (hc : c.isDigit = false) (n : Nat) : c ∉ Nat.toDigits 10 n := by
  intro h
  have hdigit := isDigit_of_mem_toDigits h
  rw [hc] at hdigit
  cases hdigit

/-- The last `width` digits of `n`. -/
def padded : Nat → Nat → List Char
  | 0, _ => []
  | width + 1, n => padded width (n / 10) ++ [Nat.digitChar (n % 10)]

@[simp] theorem length_padded (width : Nat) : ∀ n, (padded width n).length = width := by
  induction width with
  | zero => exact fun _ => rfl
  | succ width ih => exact fun n => by simp [padded, ih]

theorem isDigit_of_mem_padded {c : Char} (width : Nat) :
    ∀ {n : Nat}, c ∈ padded width n → c.isDigit := by
  induction width with
  | zero => simp [padded]
  | succ width ih =>
    intro n h
    rw [padded, List.mem_append, List.mem_singleton] at h
    rcases h with h | rfl
    · exact ih h
    · have hlt : n % 10 < 10 := Nat.mod_lt n (by decide)
      interval_cases n % 10 <;> decide

theorem not_mem_padded {c : Char} (hc : c.isDigit = false) (width n : Nat) :
    c ∉ padded width n := by
  intro h
  have hdigit := isDigit_of_mem_padded width h
  rw [hc] at hdigit
  cases hdigit

/-! ### Signs -/

def natOf (t : List Char) : Option Nat :=
  if t ≠ [] ∧ t.all Char.isDigit then some (Nat.ofDigitChars 10 t 0) else none

/-- The integer that digits write, with or without a sign before them. -/
def intOf : List Char → Option Int
  | '-' :: t => (natOf t).map fun n : Nat => -(n : Int)
  | '+' :: t => (natOf t).map fun n : Nat => (n : Int)
  | t => (natOf t).map fun n : Nat => (n : Int)

def numeral : Int → List Char
  | .ofNat n => Nat.toDigits 10 n
  | .negSucc n => '-' :: Nat.toDigits 10 (n + 1)

theorem isDigit_of_natOf {t : List Char} {n : Nat} (h : natOf t = some n) {c : Char} (hc : c ∈ t) :
    c.isDigit := by
  unfold natOf at h
  split at h
  · next hdigits => exact List.all_eq_true.mp hdigits.2 c hc
  · cases h

theorem ne_nil_of_natOf {t : List Char} {n : Nat} (h : natOf t = some n) : t ≠ [] := by
  rintro rfl
  cases h

theorem mem_of_intOf {t : List Char} {i : Int} (h : intOf t = some i) {c : Char} (hc : c ∈ t) :
    c.isDigit ∨ c = '-' ∨ c = '+' := by
  unfold intOf at h
  split at h
  · obtain ⟨n, hn, -⟩ := Option.map_eq_some_iff.mp h
    rcases List.mem_cons.mp hc with rfl | hc
    · exact Or.inr (Or.inl rfl)
    · exact Or.inl (isDigit_of_natOf hn hc)
  · obtain ⟨n, hn, -⟩ := Option.map_eq_some_iff.mp h
    rcases List.mem_cons.mp hc with rfl | hc
    · exact Or.inr (Or.inr rfl)
    · exact Or.inl (isDigit_of_natOf hn hc)
  · obtain ⟨n, hn, -⟩ := Option.map_eq_some_iff.mp h
    exact Or.inl (isDigit_of_natOf hn hc)

theorem natOf_toDigits (n : Nat) : natOf (Nat.toDigits 10 n) = some n := by
  have hdigits : (Nat.toDigits 10 n).all Char.isDigit := by
    rw [List.all_eq_true]
    exact fun c hc => isDigit_of_mem_toDigits hc
  have hne : Nat.toDigits 10 n ≠ [] := by simp
  rw [natOf, if_pos ⟨hne, hdigits⟩]
  simp

theorem intOf_of_natOf {t : List Char} {n : Nat} (h : natOf t = some n) :
    intOf t = some (n : Int) := by
  unfold intOf
  split
  · cases isDigit_of_natOf h List.mem_cons_self
  · cases isDigit_of_natOf h List.mem_cons_self
  · rw [h]
    rfl

theorem intOf_numeral (i : Int) : intOf (numeral i) = some i := by
  cases i with
  | ofNat n => exact intOf_of_natOf (natOf_toDigits n)
  | negSucc n =>
    show (natOf (Nat.toDigits 10 (n + 1))).map _ = _
    rw [natOf_toDigits]
    rfl

theorem numeral_injective : Function.Injective numeral := by
  intro i j h
  have hread := congrArg intOf h
  rw [intOf_numeral, intOf_numeral] at hread
  exact Option.some.inj hread

end Albatross.Decimal
