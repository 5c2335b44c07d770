/-
  Albatross/PayloadBounds.lean
  ============================
  **What a receive function makes of a payload nobody encoded** (`rpc_common.py`:
  `create_receive_function` and the readers of `int`, `long`, `bool`, `byte`, `str` and
  `bytes`).

  A reader raises when the part of an argument that says how long it is lies outside the
  payload.  The length itself is believed: the bytes are sliced, slices are clamped, and
  the index goes on by what was announced.  A negative length therefore moves the index
  back, one that is too large moves it behind the payload, and a text whose end is not
  found is taken to be `0xffff` bytes long.

  `Readable` and `Honest` say of the payload alone what the readers will meet, and
  `receive_bounded_iff` that the arguments are consecutive slices of it, or the function
  raises, exactly when a readable payload is also honest.
-/
import Albatross.Marshal

namespace Albatross.PayloadBounds

open Python LittleEndian Marshal

inductive FieldType where
  | int
  | long
  | bool
  | byte
  | str
  | bytes
deriving DecidableEq, Repr

def FieldType.argType : FieldType → ArgType
  | .int => .int
  | .long => .long
  | .bool => .bool
  | .byte => .byte
  | .str => .str
  | .bytes => .bytes

def FieldType.reader : FieldType → Reader
  | .int => readInt
  | .long => readLong
  | .bool => readBool
  | .byte => readByte
  | .str => readString
  | .bytes => readBytes

theorem argReadTable_argType (lib : JsonLib) (t : FieldType) :
    argReadTable lib t.argType = .read t.reader := by
  cases t <;> rfl

/-! ### What the payload announces -/

def textPrefix (data : Bytes) (idx : Int) : Option Int :=
  match index data idx, index data (idx + 1) with
  | .ok lo, .ok hi => some (lo.toNat + hi.toNat * 2 ^ 8)
  | _, _ => none

def bytesPrefix (data : Bytes) (idx : Int) : Int := ofLESigned (slice data idx (idx + 4))

/-- How many bytes the argument at `idx` announces to take, with its prefix and terminator;
    `none` when the payload ends before that is known. -/
def fieldSize (data : Bytes) (idx : Int) : FieldType → Option Int
  | .int => if (slice data idx (idx + 4)).length = 4 then some 4 else none
  | .long => if (slice data idx (idx + 8)).length = 8 then some 8 else none
  | .bool | .byte => (index data idx).toOption.map fun _ => 1
  | .str => (textPrefix data idx).bind fun n =>
      if n = 0 then some 2 else (stringLen data idx n).toOption.map (2 + · + 1)
  | .bytes =>
      if (slice data idx (idx + 4)).length = 4 then some (4 + bytesPrefix data idx) else none

/-- A length that can be meant: it is not negative, and the end of a long text was found. -/
def Meant (data : Bytes) (idx size : Int) : FieldType → Prop
  | .bytes => 0 ≤ bytesPrefix data idx
  | .str => textPrefix data idx = some 0xffff → index data (idx + size - 1) = .ok 0
  | _ => True

/-- The payload says of every argument how long it is. -/
def Readable (data : Bytes) : List FieldType → Int → Prop
  | [], _ => True
  | t :: types, idx => ∃ size, fieldSize data idx t = some size ∧ Readable data types (idx + size)

/-- Every length can be meant, and together they do not exceed the payload. -/
def Honest (data : Bytes) : List FieldType → Int → Prop
  | [], idx => idx ≤ data.length
  | t :: types, idx => ∃ size, fieldSize data idx t = some size ∧ Meant data idx size t ∧
      Honest data types (idx + size)

/-! ### What the readers do -/

/-- The value a reader gives for the argument that takes the given size. -/
def readValue (data : Bytes) (idx size : Int) : FieldType → PyValue
  | .int => .int (ofLESigned (slice data idx (idx + 4)))
  | .long => .int (ofLESigned (slice data idx (idx + 8)))
  | .bool => .bool ((index data idx).toOption.any (· ≠ 0))
  | .byte => .ofInt ((index data idx).toOption.map fun b => (b.toNat : Int))
  | .str =>
      if textPrefix data idx = some 0 then .none
      else
        let bs := slice data (idx + 2) (idx + size - 1)
        .str ((utf8Decode bs).getD (reprBytes bs))
  | .bytes => .bytes (slice data (idx + 4) (idx + size))

section Readers

variable {data : Bytes} {idx size : Int} {t : FieldType}

theorem readSigned_eq (w : Nat) : readSigned w data idx =
    if (slice data idx (idx + w)).length = w then
      .ok (.int (ofLESigned (slice data idx (idx + w))), idx + w)
    else .error (.structError "") := by
  unfold readSigned unpackSigned
  split <;> rfl

theorem readString_of_textPrefix {n : Int} (h : textPrefix data idx = some n) :
    readString data idx = if n = 0 then .ok (.none, idx + 2) else do
      let k ← stringLen data idx n
      let bs := slice data (idx + 2) (idx + k + 2)
      return (.str ((utf8Decode bs).getD (reprBytes bs)), idx + 2 + k + 1) := by
  unfold textPrefix at h
  split at h
  · next lo hi hlo hhi =>
    cases h
    unfold readString
    rw [add_zero, hlo, bind_ok, hhi, bind_ok]
    rfl
  · cases h

theorem readString_of_textPrefix_none (h : textPrefix data idx = none) :
    ∃ e, readString data idx = .error e := by
  unfold readString
  rw [add_zero]
  cases hlo : index data idx with
  | error e => exact ⟨e, rfl⟩
  | ok lo =>
    rw [bind_ok]
    cases hhi : index data (idx + 1) with
    | error e => exact ⟨e, rfl⟩
    | ok hi =>
      rw [textPrefix, hlo, hhi] at h
      cases h

/-- A reader succeeds when the size is known, and goes on by it. -/
theorem reader_of_fieldSize (h : fieldSize data idx t = some size) :
    t.reader data idx = .ok (readValue data idx size t, idx + size) := by
  cases t with
  | int =>
    obtain ⟨hlen, hsize⟩ := Option.ite_none_right_eq_some.mp h
    cases hsize
    exact (readSigned_eq 4).trans (if_pos hlen)
  | long =>
    obtain ⟨hlen, hsize⟩ := Option.ite_none_right_eq_some.mp h
    cases hsize
    exact (readSigned_eq 8).trans (if_pos hlen)
  | bool | byte =>
    obtain ⟨b, hb, rfl⟩ := Option.map_eq_some_iff.mp h
    have hindex := toOption_eq_some hb
    simp only [FieldType.reader, readBool, readByte, readValue, hindex, bind_ok]
    rfl
  | str =>
    obtain ⟨n, hn, hsize⟩ := Option.bind_eq_some_iff.mp h
    simp only [FieldType.reader, readString_of_textPrefix hn, readValue, hn, Option.some.injEq]
    split at hsize
    · next hzero =>
      cases hsize
      rw [if_pos hzero, if_pos hzero]
    · next hzero =>
      rw [if_neg hzero, if_neg hzero]
      obtain ⟨k, hk, rfl⟩ := Option.map_eq_some_iff.mp hsize
      have hnext : idx + 2 + k + 1 = idx + (2 + k + 1) := by omega
      have hend : idx + (2 + k + 1) - 1 = idx + k + 2 := by omega
      rw [toOption_eq_some hk, bind_ok, hnext, hend]
      rfl
  | bytes =>
    obtain ⟨hlen, hsize⟩ := Option.ite_none_right_eq_some.mp h
    cases hsize
    simp only [FieldType.reader, readBytes, unpackSigned, if_pos hlen, bind_ok, readValue]
    rw [← add_assoc]
    rfl

theorem reader_of_fieldSize_none (h : fieldSize data idx t = none) :
    ∃ e, t.reader data idx = .error e := by
  cases t with
  | int =>
    have hlen : ¬ (slice data idx (idx + 4)).length = 4 := by
      intro hlen
      cases ite_eq_right_iff.mp h hlen
    exact ⟨_, (readSigned_eq 4).trans (if_neg hlen)⟩
  | long =>
    have hlen : ¬ (slice data idx (idx + 8)).length = 8 := by
      intro hlen
      cases ite_eq_right_iff.mp h hlen
    exact ⟨_, (readSigned_eq 8).trans (if_neg hlen)⟩
  | bool | byte =>
    obtain ⟨e, he⟩ := toOption_eq_none (Option.map_eq_none_iff.mp h)
    refine ⟨e, ?_⟩
    simp only [FieldType.reader, readBool, readByte, he]
    rfl
  | str =>
    cases hn : textPrefix data idx with
    | none => exact readString_of_textPrefix_none hn
    | some n =>
      simp only [fieldSize, hn, Option.bind_some] at h
      simp only [FieldType.reader, readString_of_textPrefix hn]
      have hzero : ¬ n = 0 := by
        rintro rfl
        rw [if_pos rfl] at h
        cases h
      rw [if_neg hzero] at h
      obtain ⟨e, he⟩ := toOption_eq_none (Option.map_eq_none_iff.mp h)
      rw [if_neg hzero, he]
      exact ⟨e, rfl⟩
  | bytes =>
    have hlen : ¬ (slice data idx (idx + 4)).length = 4 := by
      intro hlen
      cases ite_eq_right_iff.mp h hlen
    refine ⟨.structError "", ?_⟩
    simp only [FieldType.reader, readBytes, unpackSigned, if_neg hlen]
    rfl

end Readers

/-! ### The loop -/

section Loop

variable {lib : JsonLib} {sock : PyValue} {data : Bytes} {types : List FieldType} {idx : Int}

def parsers (lib : JsonLib) (types : List FieldType) : List Parser :=
  types.map fun t => argReadTable lib t.argType

theorem receiveArgs_of_readable (lib : JsonLib) (sock : PyValue) :
    Readable data types idx ↔
      ∃ r, receiveArgs sock (parsers lib types) (some data) idx = .ok r := by
  induction types generalizing idx with
  | nil => exact iff_of_true trivial ⟨_, rfl⟩
  | cons t types ih =>
    rw [parsers, List.map_cons, argReadTable_argType, ← parsers]
    unfold receiveArgs
    dsimp only
    cases hsize : fieldSize data idx t with
    | none =>
      obtain ⟨e, he⟩ := reader_of_fieldSize_none hsize
      rw [he]
      apply iff_of_false
      · rintro ⟨size, h, -⟩
        rw [hsize] at h
        cases h
      · rintro ⟨_, h⟩
        cases h
    | some size =>
      rw [reader_of_fieldSize hsize, bind_ok]
      dsimp only
      have hrest : Readable data (t :: types) idx ↔ Readable data types (idx + size) := by
        simp [Readable, hsize]
      rw [hrest, ih]
      cases receiveArgs sock (parsers lib types) (some data) (idx + size) with
      | error e =>
        apply iff_of_false
        · rintro ⟨_, h⟩
          cases h
        · rintro ⟨_, h⟩
          cases h
      | ok r => exact iff_of_true ⟨_, rfl⟩ ⟨_, rfl⟩

/-! ### Slices of the payload -/

/-- The value read at `idx` is as long as its prefix announces; a text announced with `0xffff`
    ends at a zero byte, at offset 65535 or later. -/
def Exact (data : Bytes) (idx next : Int) (v : PyValue) : FieldType → Prop
  | .bytes => ∃ bs, v = .bytes bs ∧ (bs.length : Int) = bytesPrefix data idx
  | .str => ∀ n, textPrefix data idx = some n → n ≠ 0 →
      let bs := slice data (idx + 2) (next - 1)
      v = .str ((utf8Decode bs).getD (reprBytes bs)) ∧
        if n = 0xffff then index data (next - 1) = .ok 0 ∧ 65535 ≤ next - 1 - (idx + 2)
        else (bs.length : Int) = n
  | _ => True

/-- The arguments are consecutive slices of the payload: the index never decreases, it ends
    inside, and every value has the length its prefix announces. -/
def Slices (data : Bytes) : List FieldType → Int → Prop
  | [], idx => idx ≤ data.length
  | t :: types, idx => ∃ v next, t.reader data idx = .ok (v, next) ∧ idx ≤ next ∧
      Exact data idx next v t ∧ Slices data types next

theorem scanZero_le {n : Nat} {i j : Int} (h : scanZero data n i = .ok (some j)) : i ≤ j := by
  induction n generalizing i with
  | zero => cases h
  | succ n ih =>
    unfold scanZero at h
    obtain ⟨b, -, h⟩ := bind_eq_ok h
    split at h
    · cases h
      exact le_refl _
    · have hrest := ih h
      omega

/-- A text announced with `0xffff` is taken to be at least that long. -/
theorem longStringLen_ge {k : Int} (h : longStringLen data idx = .ok k) : 65535 ≤ k := by
  unfold longStringLen at h
  split at h
  · cases h
  · dsimp only at h
    obtain ⟨found, hscan, h⟩ := bind_eq_ok h
    cases found with
    | none =>
      cases h
      decide
    | some j =>
      cases h
      have hle := scanZero_le hscan
      omega

/-- The size of a text: its prefix, its bytes and its terminator. -/
theorem fieldSize_str {size : Int} (h : fieldSize data idx .str = some size) :
    ∃ n, textPrefix data idx = some n ∧
      (n = 0 ∧ size = 2 ∨ n = 0xffff ∧ 0xffff + 3 ≤ size ∨
        0 < n ∧ n < 0xffff ∧ size = n + 3) := by
  obtain ⟨n, hn, hsize⟩ := Option.bind_eq_some_iff.mp h
  have hrange : 0 ≤ n ∧ n ≤ 0xffff := by
    unfold textPrefix at hn
    split at hn
    · next lo hi _ _ =>
      cases hn
      have hlo := lo.toNat_lt
      have hhi := hi.toNat_lt
      omega
    · cases hn
  refine ⟨n, hn, ?_⟩
  split at hsize
  · next hzero =>
    cases hsize
    exact Or.inl ⟨hzero, rfl⟩
  · next hzero =>
    obtain ⟨k, hk, rfl⟩ := Option.map_eq_some_iff.mp hsize
    have hk := toOption_eq_some hk
    unfold stringLen at hk
    split at hk
    · next hlong =>
      have hge := longStringLen_ge hk
      exact Or.inr (Or.inl ⟨hlong, by omega⟩)
    · next hshort =>
      cases hk
      exact Or.inr (Or.inr ⟨by omega, by omega, by omega⟩)

theorem Meant.size_pos {t : FieldType} {size : Int} (h : fieldSize data idx t = some size)
    (hm : Meant data idx size t) : 0 < size := by
  cases t with
  | int | long =>
    obtain ⟨-, hsize⟩ := Option.ite_none_right_eq_some.mp h
    cases hsize
    decide
  | bool | byte =>
    obtain ⟨-, -, rfl⟩ := Option.map_eq_some_iff.mp h
    decide
  | str =>
    obtain ⟨n, -, hcases⟩ := fieldSize_str h
    omega
  | bytes =>
    obtain ⟨-, hsize⟩ := Option.ite_none_right_eq_some.mp h
    cases hsize
    have hnonneg : 0 ≤ bytesPrefix data idx := hm
    omega

/-- **One argument**: where the announced size fits, the value is exact and the index does not
    go back if and only if the length can be meant. -/
theorem meant_iff {t : FieldType} {size : Int} (h : fieldSize data idx t = some size)
    (hidx : 0 ≤ idx) (hend : idx + size ≤ data.length) :
    Meant data idx size t ↔
      idx ≤ idx + size ∧ Exact data idx (idx + size) (readValue data idx size t) t := by
  cases t with
  | int | long | bool | byte =>
    have hpos : 0 < size := Meant.size_pos h trivial
    exact iff_of_true trivial ⟨by omega, trivial⟩
  | str =>
    obtain ⟨n, hn, hcases⟩ := fieldSize_str h
    simp only [Meant, Exact, readValue, hn, Option.some.injEq, forall_eq']
    rcases hcases with ⟨hzero, hsize⟩ | ⟨hlong, hsize⟩ | ⟨hpos, hshort, hsize⟩
    · exact iff_of_true (fun hlong => by omega) ⟨by omega, fun hne => absurd hzero hne⟩
    · rw [if_neg (by omega), if_pos hlong]
      constructor
      · intro hterminated
        exact ⟨by omega, fun _ => ⟨rfl, hterminated hlong, by omega⟩⟩
      · rintro ⟨-, hexact⟩ -
        exact (hexact (by omega)).2.1
    · rw [if_neg (by omega), if_neg (by omega)]
      have hslice := @length_slice data (idx + 2) (idx + size - 1) (by omega) (by omega)
        (by omega)
      exact iff_of_true (fun hlong => by omega) ⟨by omega, fun _ => ⟨rfl, by omega⟩⟩
  | bytes =>
    obtain ⟨hhead, hsize⟩ := Option.ite_none_right_eq_some.mp h
    cases hsize
    have hslice : ∀ hp : 0 ≤ bytesPrefix data idx,
        ((slice data (idx + 4) (idx + (4 + bytesPrefix data idx))).length : Int) =
          bytesPrefix data idx := by
      intro hp
      rw [length_slice (by omega) (by omega) hend]
      omega
    constructor
    · intro hp
      exact ⟨by change 0 ≤ bytesPrefix data idx at hp; omega, _, rfl, hslice hp⟩
    · rintro ⟨-, bs, -, hlen⟩
      show 0 ≤ bytesPrefix data idx
      omega

theorem Slices.le (h : Slices data types idx) : idx ≤ data.length := by
  induction types generalizing idx with
  | nil => exact h
  | cons t types ih =>
    obtain ⟨v, next, -, hle, -, hrest⟩ := h
    exact hle.trans (ih hrest)

theorem Honest.le (h : Honest data types idx) : idx ≤ data.length := by
  induction types generalizing idx with
  | nil => exact h
  | cons t types ih =>
    obtain ⟨size, hsize, hmeant, hrest⟩ := h
    have hpos := Meant.size_pos hsize hmeant
    have hend := ih hrest
    omega

/-- The run: from any index inside, the arguments are slices exactly when they are honest. -/
theorem slices_iff_honest (hidx : 0 ≤ idx) : Slices data types idx ↔ Honest data types idx := by
  induction types generalizing idx with
  | nil => exact Iff.rfl
  | cons t types ih =>
    constructor
    · rintro ⟨v, next, hread, hle, hexact, hrest⟩
      cases hsize : fieldSize data idx t with
      | none =>
        obtain ⟨e, he⟩ := reader_of_fieldSize_none hsize
        rw [hread] at he
        cases he
      | some size =>
        rw [reader_of_fieldSize hsize] at hread
        cases hread
        refine ⟨size, hsize, ?_, (ih (by omega)).mp hrest⟩
        exact (meant_iff hsize hidx hrest.le).mpr ⟨hle, hexact⟩
    · rintro ⟨size, hsize, hmeant, hrest⟩
      obtain ⟨hle, hexact⟩ := (meant_iff hsize hidx hrest.le).mp hmeant
      exact ⟨_, _, reader_of_fieldSize hsize, hle, hexact, (ih (by omega)).mpr hrest⟩

end Loop

/-- **When a malformed payload does no harm**: the receive function raises, or its arguments are
    consecutive slices of the payload with the announced lengths, exactly when the payload is
    either too short to say how long every argument is, or says so honestly. -/
theorem receive_bounded_iff (lib : JsonLib) (sock : PyValue) (types : List FieldType)
    (data : Bytes) :
    ((∃ e, createReceiveFunction (parsers lib types) (some data) sock = .error e) ∨
        Slices data types 0) ↔
      (Readable data types 0 → Honest data types 0) := by
  have hraises : (∃ e, createReceiveFunction (parsers lib types) (some data) sock = .error e) ↔
      ¬ Readable data types 0 := by
    rw [receiveArgs_of_readable lib sock, createReceiveFunction]
    cases receiveArgs sock (parsers lib types) (some data) 0 with
    | error e => exact iff_of_true ⟨e, rfl⟩ (fun ⟨_, h⟩ => nomatch h)
    | ok r => exact iff_of_false (fun ⟨_, h⟩ => nomatch h) (fun h => h ⟨r, rfl⟩)
  rw [hraises, slices_iff_honest (le_refl 0), imp_iff_not_or]

/-- A bytes value announced as five bytes of which one was sent, and one announced as minus five:
    both are returned, and the index ends outside the payload. -/
theorem receive_unbounded :
    receiveArgs (.sock 4) (parsers oneDocument [.bytes]) (some [5, 0, 0, 0, 1]) 0 =
        .ok ([.bytes [1]], 9) ∧
      receiveArgs (.sock 4) (parsers oneDocument [.bytes]) (some [0xfb, 0xff, 0xff, 0xff]) 0 =
        .ok ([.bytes []], -1) ∧
      ¬ Slices [5, 0, 0, 0, 1] [.bytes] 0 ∧ ¬ Slices [0xfb, 0xff, 0xff, 0xff] [.bytes] 0 := by
  have hover : FieldType.reader .bytes [5, 0, 0, 0, 1] 0 = .ok (.bytes [1], 9) := by decide +kernel
  have hback : FieldType.reader .bytes [0xfb, 0xff, 0xff, 0xff] 0 = .ok (.bytes [], -1) := by
    decide +kernel
  refine ⟨by decide +kernel, by decide +kernel, ?_, ?_⟩
  · rintro ⟨v, next, hread, -, -, hend⟩
    cases hover.symm.trans hread
    have hend : (9 : Int) ≤ 5 := hend
    omega
  · rintro ⟨v, next, hread, hle, -⟩
    cases hback.symm.trans hread
    omega

end Albatross.PayloadBounds
