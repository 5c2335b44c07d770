/-
  Albatross/Python.lean
  =====================
  **The Python values and built-ins the modelled code computes with.**

  Values are dynamically typed (`PyValue`): the client hands what a handler
  returned straight to `struct.pack`, `len` and `b"".join`, so whether a value
  has the right type is decided there, by raising, and not before.  The built-ins
  below are partial in the same places as Python's: a `struct` format that does
  not fit raises `struct.error`, an index outside the bytes raises `IndexError`,
  and so on.  Slicing never raises and clamps its bounds, negative bounds
  counting from the end.

  Text is a sequence of Unicode scalar values (`String`); a `str` that holds a
  lone surrogate is kept apart, since it is the text that has no UTF-8 form.
  Floating point is left out.
-/
import Albatross.LittleEndian

namespace Albatross.Python

open LittleEndian

abbrev Bytes := List UInt8

/-! ### Exceptions -/

/-- What a Python call may raise.  `user` is an exception class of the program
    itself, `exception` any other subclass of `Exception`, and `exit` one outside
    `Exception` (`SystemExit`, `KeyboardInterrupt`). -/
inductive PyExn where
  | structError (msg : String)
  | typeError
  | indexError
  | attributeError
  | assertionError
  | valueError
  | unicodeError
  | runtimeError (msg : String)
  | timeoutError
  | connectionError
  | osError (msg : String)
  | user (cls msg : String)
  | exception (tag : Nat)
  | exit (tag : Nat)
deriving DecidableEq, Repr

/-- Whether `except Exception` catches it. -/
def PyExn.isException : PyExn → Bool
  | .exit _ => false
  | _ => true

theorem bind_ok {α β : Type} (a : α) (f : α → Except PyExn β) : (Except.ok a >>= f) = f a := rfl

theorem bind_eq_ok {α β : Type} {x : Except PyExn α} {f : α → Except PyExn β} {b : β}
    (h : (x >>= f) = .ok b) : ∃ a, x = .ok a ∧ f a = .ok b := by
  cases x with
  | error e => cases h
  | ok a => exact ⟨a, rfl, h⟩

theorem toOption_eq_some {α : Type} {x : Except PyExn α} {a : α} (h : x.toOption = some a) :
    x = .ok a := by
  cases x with
  | error e => cases h
  | ok b =>
    cases h
    rfl

theorem toOption_eq_none {α : Type} {x : Except PyExn α} (h : x.toOption = none) :
    ∃ e, x = .error e := by
  cases x with
  | error e => exact ⟨e, rfl⟩
  | ok b => cases h

/-- A computation that fails with subclasses of `Exception` only. -/
def Ordinary {α : Type} (x : Except PyExn α) : Prop := ∀ e, x = .error e → e.isException = true

theorem Ordinary.ok {α : Type} (a : α) : Ordinary (.ok a : Except PyExn α) := by
  intro e h
  cases h

theorem Ordinary.error {α : Type} {e : PyExn} (he : e.isException = true) :
    Ordinary (.error e : Except PyExn α) := by
  intro e' h
  cases h
  exact he

theorem Ordinary.bind {α β : Type} {x : Except PyExn α} {f : α → Except PyExn β} (hx : Ordinary x)
    (hf : ∀ a, Ordinary (f a)) : Ordinary (x >>= f) := by
  cases x with
  | ok a => exact hf a
  | error e => intro e' h; cases h; exact hx e rfl

/-! ### Values -/

/-- An object of any other class: its identity, what `bool()` gives (`none` when
    that raises) and what `len()` gives (`none` when it has no length). -/
structure PyObj where
  id : Nat
  truth : Option Bool
  len : Option Nat
deriving DecidableEq, Repr

/-- A Python value.  `surrogates n` is a `str` of `n + 1` code points with a lone
    surrogate among them; `bytes` is any bytes-like value; `tuple` holds integers,
    as `struct.unpack` gives them; `sock` is a socket. -/
inductive PyValue where
  | none
  | bool (b : Bool)
  | int (i : Int)
  | str (s : String)
  | surrogates (n : Nat)
  | bytes (bs : Bytes)
  | tuple (items : List Int)
  | sock (id : Nat)
  | obj (o : PyObj)
deriving DecidableEq, Repr

/-- `None` or the bytes. -/
def PyValue.ofData : Option Bytes → PyValue
  | .none => .none
  | .some bs => .bytes bs

/-- `None` or the integer. -/
def PyValue.ofInt : Option Int → PyValue
  | .none => .none
  | .some i => .int i

/-- The integer a value is, `bool` being a subclass of `int`. -/
def PyValue.asInt : PyValue → Option Int
  | .bool b => some (if b then 1 else 0)
  | .int i => some i
  | _ => Option.none

/-- `bool(v)`, the test of `if v:`. -/
def PyValue.truth : PyValue → Except PyExn Bool
  | .none => .ok false
  | .bool b => .ok b
  | .int i => .ok (decide (i ≠ 0))
  | .str s => .ok (decide (s ≠ ""))
  | .surrogates _ => .ok true
  | .bytes bs => .ok (decide (bs ≠ []))
  | .tuple items => .ok (decide (items ≠ []))
  | .sock _ => .ok true
  | .obj o =>
      match o.truth with
      | some b => .ok b
      | Option.none => .error (.exception o.id)

/-- `len(v)`. -/
def PyValue.len : PyValue → Except PyExn Nat
  | .str s => .ok s.length
  | .surrogates n => .ok (n + 1)
  | .bytes bs => .ok bs.length
  | .tuple items => .ok items.length
  | .obj o =>
      match o.len with
      | some n => .ok n
      | Option.none => .error .typeError
  | _ => .error .typeError

theorem PyValue.truth_ordinary (v : PyValue) : Ordinary v.truth := by
  cases v with
  | obj o =>
    unfold PyValue.truth
    dsimp only
    split
    · exact .ok _
    · exact .error rfl
  | _ => exact .ok _

theorem PyValue.len_ordinary (v : PyValue) : Ordinary v.len := by
  cases v with
  | obj o =>
    unfold PyValue.len
    dsimp only
    split
    · exact .ok _
    · exact .error rfl
  | str s => exact .ok _
  | surrogates n => exact .ok _
  | bytes bs => exact .ok _
  | tuple items => exact .ok _
  | _ => exact .error rfl

/-! ### Text -/

/-- `s.encode('utf-8')` of a string of scalar values. -/
def utf8 (s : String) : Bytes := s.toByteArray.data.toList

/-- `bs.decode('utf-8')`, `none` where it raises. -/
def utf8Decode (bs : Bytes) : Option String := String.fromUTF8? ⟨bs.toArray⟩

theorem utf8Decode_utf8 (s : String) : utf8Decode (utf8 s) = some s := by
  have harray : (⟨(utf8 s).toArray⟩ : ByteArray) = s.toByteArray := by simp [utf8]
  have hvalid : s.toByteArray.IsValidUTF8 := s.isValidUTF8
  simp only [utf8Decode, harray, String.fromUTF8?]
  simp [hvalid, String.fromUTF8]

theorem utf8_of_utf8Decode {bs : Bytes} {s : String} (h : utf8Decode bs = some s) :
    utf8 s = bs := by
  unfold utf8Decode String.fromUTF8? at h
  split at h
  · cases h
    simp [utf8, String.fromUTF8]
  · cases h

theorem utf8_eq_nil {s : String} : utf8 s = [] ↔ s = "" := by
  constructor
  · intro h
    have hdec := utf8Decode_utf8 s
    rw [h] at hdec
    exact (Option.some.inj (hdec.symm.trans (by decide : utf8Decode [] = some "")))
  · rintro rfl; rfl

theorem utf8_eq_flatMap (s : String) : utf8 s = s.toList.flatMap String.utf8EncodeChar := by
  have h : s.toByteArray = s.toList.utf8Encode := by
    rw [← String.toByteArray_ofList, String.ofList_toList]
  simp [utf8, h, List.utf8Encode]

/-- Only the NUL character has a zero byte in its UTF-8 form. -/
theorem zero_mem_encodeChar {c : Char} (h : (0 : UInt8) ∈ String.utf8EncodeChar c) :
    c = Char.ofNat 0 := by
  have hbyte : ∀ n : Nat, (0 : UInt8) = UInt8.ofNat n → n % 256 = 0 := by
    intro n hn
    have := congrArg UInt8.toNat hn
    simpa using this.symm
  have hval : c.val.toNat = 0 := by
    unfold String.utf8EncodeChar at h
    dsimp only at h
    -- one, two, three or four bytes; every byte of a longer form is at least 0x80
    split at h
    · have := hbyte _ (List.mem_singleton.mp h)
      omega
    · split at h
      · simp only [List.mem_cons, List.not_mem_nil, or_false] at h
        rcases h with h | h
        all_goals have := hbyte _ h; omega
      · split at h
        · simp only [List.mem_cons, List.not_mem_nil, or_false] at h
          rcases h with h | h | h
          all_goals have := hbyte _ h; omega
        · simp only [List.mem_cons, List.not_mem_nil, or_false] at h
          rcases h with h | h | h | h
          all_goals have := hbyte _ h; omega
  apply Char.ext
  exact UInt32.toNat_inj.mp hval

theorem zero_mem_utf8 {s : String} (h : (0 : UInt8) ∈ utf8 s) : Char.ofNat 0 ∈ s.toList := by
  rw [utf8_eq_flatMap] at h
  obtain ⟨c, hc, hzero⟩ := List.mem_flatMap.mp h
  rwa [← zero_mem_encodeChar hzero]

/-- `v.encode('utf-8')`. -/
def PyValue.encode : PyValue → Except PyExn Bytes
  | .str s => .ok (utf8 s)
  | .surrogates _ => .error .unicodeError
  | _ => .error .attributeError

theorem PyValue.encode_ordinary (v : PyValue) : Ordinary v.encode := by
  cases v with
  | str s => exact .ok _
  | _ => exact .error rfl

theorem length_utf8_le (s : String) : (utf8 s).length ≤ 4 * s.length := by
  rw [utf8_eq_flatMap, ← String.length_toList]
  induction s.toList with
  | nil => exact Nat.le_refl 0
  | cons c cs ih =>
    have hc : (String.utf8EncodeChar c).length ≤ 4 := by
      rw [String.length_utf8EncodeChar]
      exact Char.utf8Size_le_four c
    rw [List.flatMap_cons, List.length_append, List.length_cons]
    omega

private def hexDigit (n : Nat) : Char :=
  if n < 10 then Char.ofNat (48 + n) else Char.ofNat (87 + n)

private def reprByte (quote : UInt8) (b : UInt8) : List Char :=
  if b = 92 ∨ b = quote then [Char.ofNat 92, Char.ofNat b.toNat]
  else if b = 9 then [Char.ofNat 92, 't']
  else if b = 10 then [Char.ofNat 92, 'n']
  else if b = 13 then [Char.ofNat 92, 'r']
  else if 32 ≤ b ∧ b < 127 then [Char.ofNat b.toNat]
  else [Char.ofNat 92, 'x', hexDigit (b.toNat / 16), hexDigit (b.toNat % 16)]

/-- `str(bs)`, the text of the bytes literal: double quotes (34) only when the
    bytes hold a single quote (39) and no double one. -/
def reprBytes (bs : Bytes) : String :=
  let quote : UInt8 := if 39 ∈ bs ∧ 34 ∉ bs then 34 else 39
  String.ofList ('b' :: Char.ofNat quote.toNat ::
    (bs.flatMap (reprByte quote) ++ [Char.ofNat quote.toNat]))

/-- The text of a bytes literal has no NUL, whose byte is escaped. -/
private theorem nul_notMem_reprByte : ∀ n : Fin 256,
    Char.ofNat 0 ∉ reprByte 34 (UInt8.ofNat n) ∧ Char.ofNat 0 ∉ reprByte 39 (UInt8.ofNat n) := by
  decide +kernel

theorem nul_notMem_reprBytes (bs : Bytes) : Char.ofNat 0 ∉ (reprBytes bs).toList := by
  have hbyte : ∀ quote : UInt8, quote = 34 ∨ quote = 39 → ∀ b : UInt8,
      Char.ofNat 0 ∉ reprByte quote b := by
    intro quote hquote b
    have hb := nul_notMem_reprByte ⟨b.toNat, b.toNat_lt⟩
    rw [UInt8.ofNat_toNat] at hb
    rcases hquote with rfl | rfl
    · exact hb.1
    · exact hb.2
  have hall : ∀ quote : UInt8, quote = 34 ∨ quote = 39 → Char.ofNat 0 ∉
      'b' :: Char.ofNat quote.toNat ::
        (bs.flatMap (reprByte quote) ++ [Char.ofNat quote.toNat]) := by
    intro quote hquote hmem
    have hq : Char.ofNat 0 ≠ Char.ofNat quote.toNat := by
      rcases hquote with rfl | rfl <;> decide
    have hb : Char.ofNat 0 ≠ 'b' := by decide
    simp only [List.mem_cons, List.mem_append, List.mem_flatMap, hb, hq, List.not_mem_nil,
      false_or, or_false] at hmem
    obtain ⟨b, -, hmem⟩ := hmem
    exact hbyte quote hquote b hmem
  unfold reprBytes
  dsimp only
  rw [String.toList_ofList]
  apply hall
  split
  · exact Or.inl rfl
  · exact Or.inr rfl

/-! ### struct -/

/-- `struct.pack` of one unsigned field of `w` bytes. -/
def packUnsigned (w : Nat) (v : PyValue) : Except PyExn Bytes :=
  match v.asInt with
  | some i =>
      if 0 ≤ i ∧ i < (256 ^ w : Nat) then .ok (toLE w i.toNat) else .error (.structError "")
  | Option.none => .error (.structError "")

/-- `struct.pack` of one signed field of `w` bytes. -/
def packSigned (w : Nat) (v : PyValue) : Except PyExn Bytes :=
  match v.asInt with
  | some i =>
      if -(256 ^ w : Nat) ≤ 2 * i ∧ 2 * i < (256 ^ w : Nat) then .ok (toLESigned w i)
      else .error (.structError "")
  | Option.none => .error (.structError "")

theorem of_packUnsigned {w n : Nat} {bs : Bytes} (h : packUnsigned w (.int n) = .ok bs) :
    n < 256 ^ w ∧ bs.length = w := by
  unfold packUnsigned at h
  dsimp only [PyValue.asInt] at h
  split at h
  · next hrange =>
    cases h
    exact ⟨by exact_mod_cast hrange.2, length_toLE w _⟩
  · cases h

theorem length_of_packSigned {w : Nat} {v : PyValue} {bs : Bytes} (h : packSigned w v = .ok bs) :
    bs.length = w := by
  unfold packSigned at h
  split at h
  · split at h
    · cases h
      exact length_toLESigned w _
    · cases h
  · cases h

/-- `struct.unpack` of one signed field: the buffer must have exactly its size. -/
def unpackSigned (w : Nat) (bs : Bytes) : Except PyExn Int :=
  if bs.length = w then .ok (ofLESigned bs) else .error (.structError "")

theorem packSigned_int {w : Nat} {i : Int}
    (hlo : -(256 ^ w : Nat) ≤ 2 * i) (hhi : 2 * i < (256 ^ w : Nat)) :
    packSigned w (.int i) = .ok (toLESigned w i) := by
  simp only [packSigned, PyValue.asInt]
  rw [if_pos ⟨hlo, hhi⟩]

theorem unpackSigned_toLESigned {w : Nat} {i : Int}
    (hlo : -(256 ^ w : Nat) ≤ 2 * i) (hhi : 2 * i < (256 ^ w : Nat)) :
    unpackSigned w (toLESigned w i) = .ok i := by
  rw [unpackSigned, if_pos (length_toLESigned w i), ofLESigned_toLESigned hlo hhi]

theorem packUnsigned_ordinary (w : Nat) (v : PyValue) : Ordinary (packUnsigned w v) := by
  unfold packUnsigned
  split
  · split
    · exact .ok _
    · exact .error rfl
  · exact .error rfl

theorem packSigned_ordinary (w : Nat) (v : PyValue) : Ordinary (packSigned w v) := by
  unfold packSigned
  split
  · split
    · exact .ok _
    · exact .error rfl
  · exact .error rfl

theorem unpackSigned_ordinary (w : Nat) (bs : Bytes) : Ordinary (unpackSigned w bs) := by
  unfold unpackSigned
  split
  · exact .ok _
  · exact .error rfl

/-! ### Indexing and slicing bytes -/

/-- A slice bound against a sequence of length `n`. -/
def sliceBound (n : Nat) (i : Int) : Nat :=
  if i < 0 then (n + i).toNat else min i.toNat n

/-- `data[i:j]`. -/
def slice (data : Bytes) (i j : Int) : Bytes :=
  (data.drop (sliceBound data.length i)).take
    (sliceBound data.length j - sliceBound data.length i)

/-- `data[i]`. -/
def index (data : Bytes) (i : Int) : Except PyExn UInt8 :=
  let k := if i < 0 then data.length + i else i
  if 0 ≤ k then
    match data[k.toNat]? with
    | some b => .ok b
    | Option.none => .error .indexError
  else .error .indexError

theorem index_ordinary (data : Bytes) (i : Int) : Ordinary (index data i) := by
  unfold index
  generalize (if i < 0 then (data.length : Int) + i else i) = k
  dsimp only
  split
  · split
    · exact .ok _
    · exact .error rfl
  · exact .error rfl

theorem sliceBound_of_le {n k : Nat} (h : k ≤ n) : sliceBound n (k : Int) = k := by
  simp [sliceBound, h]

theorem length_slice {data : Bytes} {i j : Int} (hi : 0 ≤ i) (hij : i ≤ j)
    (hj : j ≤ data.length) : ((slice data i j).length : Int) = j - i := by
  obtain ⟨m, rfl⟩ := Int.eq_ofNat_of_zero_le hi
  obtain ⟨n, rfl⟩ := Int.eq_ofNat_of_zero_le (hi.trans hij)
  rw [slice, sliceBound_of_le (by omega), sliceBound_of_le (by omega), List.length_take,
    List.length_drop]
  omega

theorem slice_middle (pre mid post : Bytes) {i j : Int} (hi : i = pre.length)
    (hj : j = pre.length + mid.length) : slice (pre ++ (mid ++ post)) i j = mid := by
  have hlen : (pre ++ (mid ++ post)).length = pre.length + (mid.length + post.length) := by simp
  have hbi : sliceBound (pre ++ (mid ++ post)).length i = pre.length := by
    rw [hi, sliceBound_of_le (by omega)]
  have hbj : sliceBound (pre ++ (mid ++ post)).length j = pre.length + mid.length := by
    rw [hj, show (pre.length : Int) + mid.length = ((pre.length + mid.length : Nat) : Int) by
      push_cast; rfl, sliceBound_of_le (by omega)]
  rw [slice, hbi, hbj, Nat.add_sub_cancel_left, List.drop_left, List.take_left]

theorem index_middle (pre post : Bytes) (b : UInt8) {i : Int} (hi : i = pre.length) :
    index (pre ++ (b :: post)) i = .ok b := by
  have hnonneg : ¬ ((pre.length : Int) < 0) := by omega
  subst hi
  simp [index, hnonneg]

/-! ### The json module -/

/-- `json.dumps(o, ensure_ascii=False)`, with the given indent, and
    `json.loads(s)`.  There is no empty document, and the module fails with
    subclasses of `Exception` only.  A document with a lone surrogate, which could
    not be encoded, counts as a failure of `dumps`. -/
structure JsonLib where
  dumps : Option Nat → PyValue → Except PyExn String
  loads : String → Except PyExn PyValue
  loads_empty : ∀ v, loads "" ≠ .ok v
  dumps_error : ∀ {indent v e}, dumps indent v = .error e → e.isException = true
  loads_error : ∀ {s e}, loads s = .error e → e.isException = true

end Albatross.Python
