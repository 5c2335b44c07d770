/-
  Albatross/LittleEndian.lean
  ===========================
  **Fixed-width little-endian integers as byte lists.**

  A natural number is laid out in exactly `w` bytes, least significant byte
  first (`toLE`), and a byte list is read back as a natural (`ofLE`).  Signed
  integers are the two's-complement reading of the same bytes (`ofLESigned`).
  The round trips are exact inside the width's range and are stated for every
  width, so that any packed record can use them.
-/
import Mathlib.Data.Nat.Log
import Mathlib.Tactic.Ring
import Mathlib.Tactic.NormNum

namespace Albatross.LittleEndian

/-- The `w` little-endian bytes of `n`; what does not fit in `w` bytes is
    dropped. -/
def toLE : Nat → Nat → List UInt8
  | 0, _ => []
  | w + 1, n => UInt8.ofNat (n % 256) :: toLE w (n / 256)

/-- The natural number a byte list spells, least significant byte first. -/
def ofLE : List UInt8 → Nat
  | [] => 0
  | b :: bs => b.toNat + 256 * ofLE bs

@[simp] theorem length_toLE (w n : Nat) : (toLE w n).length = w := by
  induction w generalizing n with
  | zero => rfl
  | succ w ih => simp only [toLE, List.length_cons, ih]

/-! ### Unsigned round trip -/

theorem ofLE_toLE_mod (w n : Nat) : ofLE (toLE w n) = n % 256 ^ w := by
  induction w generalizing n with
  | zero => simp [toLE, ofLE, Nat.mod_one]
  | succ w ih =>
    have hbyte : (UInt8.ofNat (n % 256)).toNat = n % 256 := by simp
    simp only [toLE, ofLE, ih, hbyte]
    rw [pow_succ', Nat.mod_mul]

theorem ofLE_toLE {w n : Nat} (h : n < 256 ^ w) : ofLE (toLE w n) = n := by
  rw [ofLE_toLE_mod, Nat.mod_eq_of_lt h]

/-! ### Signed integers -/

def ofLESigned (bs : List UInt8) : Int := (ofLE bs : Int).bmod (256 ^ bs.length)

/-- The `w` bytes of an integer in two's complement. -/
def toLESigned (w : Nat) (i : Int) : List UInt8 := toLE w (i % (256 ^ w : Nat)).toNat

@[simp] theorem length_toLESigned (w : Nat) (i : Int) : (toLESigned w i).length = w := by
  simp [toLESigned]

theorem ofLESigned_toLESigned {w : Nat} {i : Int}
    (hlo : -(256 ^ w : Nat) ≤ 2 * i) (hhi : 2 * i < (256 ^ w : Nat)) :
    ofLESigned (toLESigned w i) = i := by
  have hpos : 0 < 256 ^ w := Nat.pow_pos (by norm_num)
  have hnonneg : 0 ≤ i % ((256 ^ w : Nat) : Int) := Int.emod_nonneg _ (by omega)
  have hlt : (i % ((256 ^ w : Nat) : Int)).toNat < 256 ^ w := by
    have := Int.emod_lt_of_pos i (b := ((256 ^ w : Nat) : Int)) (by omega)
    omega
  have hread : ((ofLE (toLESigned w i) : Nat) : Int) = i % ((256 ^ w : Nat) : Int) := by
    rw [toLESigned, ofLE_toLE hlt, Int.toNat_of_nonneg hnonneg]
  rw [ofLESigned, length_toLESigned, hread, Int.emod_bmod]
  exact Int.bmod_eq_of_le_mul_two (by omega) (by omega)

/-! ### Records packed into one word -/

/-- A low field of `k` bits under a high field: both come back by masking and
    shifting, provided the low field fits. -/
theorem low_high_split {k low : Nat} (high : Nat) (h : low < 2 ^ k) :
    (low + high * 2 ^ k) % 2 ^ k = low ∧ (low + high * 2 ^ k) / 2 ^ k = high := by
  have hpos : 0 < 2 ^ k := Nat.pow_pos (by norm_num)
  constructor
  · rw [Nat.add_mul_mod_self_right, Nat.mod_eq_of_lt h]
  · rw [Nat.add_mul_div_right _ _ hpos, Nat.div_eq_of_lt h, Nat.zero_add]

end Albatross.LittleEndian
