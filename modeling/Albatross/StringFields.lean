/-
  Albatross/StringFields.lean
  ===========================
  **Which strings survive their encoding** (`rpc_common.py`: `put_string`,
  `convert_string`, `convert_json`, `read_string`).

  `put_string` announces at most `0xffff` bytes, and a reader that finds `0xffff` looks
  for the terminator from there on.  A text of at least that length is cut at the first
  zero byte in the part that is searched, so it comes back exactly when there is none
  (`readString_putString_iff`).

  `convert_string` announces characters instead of bytes.  The two encodings are the
  same for texts of ASCII characters that the prefix can count, and by chance for those
  of exactly `0xffff` characters (`encoders_agree_iff`).
-/
import Albatross.Marshal

namespace Albatross.Marshal

open Python LittleEndian

/-! ### The index after a string -/

/-- A text with a zero byte in the part that is searched ends there. -/
theorem longStringLen_cut {bs : Bytes} (hlong : 0xffff ≤ bs.length)
    (h0 : (0 : UInt8) ∈ bs.drop 0xffff) (pre post : Bytes) (lo hi : UInt8) :
    ∃ k : Nat, k < bs.length ∧
      longStringLen (pre ++ (lo :: hi :: (bs ++ 0 :: post))) pre.length = .ok k := by
  obtain ⟨body, rest, hdrop, hbody⟩ := List.eq_append_cons_of_mem h0
  -- the text that is found: it has no zero byte in the part that is searched
  have htake : (bs.take 0xffff).length = 0xffff := List.length_take_of_le hlong
  have hbs : bs = bs.take 0xffff ++ body ++ 0 :: rest := by
    rw [List.append_assoc, ← hdrop, List.take_append_drop]
  have hfound : (bs.take 0xffff ++ body).drop 0xffff = body := by
    rw [List.drop_append_of_le_length (by omega), List.drop_of_length_le (by omega),
      List.nil_append]
  have hlen := @longStringLen_spec (bs.take 0xffff ++ body)
    (by rw [List.length_append]; omega) (by rw [hfound]; exact hbody) pre (rest ++ 0 :: post) lo hi
  refine ⟨(bs.take 0xffff ++ body).length, ?_, ?_⟩
  · conv_rhs => rw [hbs]
    simp
  · have hdata : bs ++ 0 :: post = bs.take 0xffff ++ body ++ 0 :: (rest ++ 0 :: post) := by
      conv_lhs => rw [hbs]
      simp
    rw [hdata]
    exact hlen

theorem stringLen_long (data : Bytes) (idx : Int) :
    stringLen data idx ((0xffff : Nat) : Int) = longStringLen data idx := if_pos rfl

theorem packUnsigned_two {n : Nat} :
    packUnsigned 2 (.int n) = if n ≤ 0xffff then .ok (toLE 2 n) else .error (.structError "") := by
  unfold packUnsigned PyValue.asInt
  dsimp only
  by_cases hn : n ≤ 0xffff
  · rw [if_pos hn, if_pos (by omega), Int.toNat_natCast]
  · rw [if_neg hn, if_neg (by omega)]

theorem readString_stringBytes_cut {s : String} (hne : s ≠ "") (hno : ¬ TextOk s)
    (pre post : Bytes) :
    ∃ k, k < (utf8 s).length ∧ readString (pre ++ (stringBytes s ++ post)) pre.length =
      .ok (.str ((utf8Decode ((utf8 s).take k)).getD (reprBytes ((utf8 s).take k))),
        pre.length + 2 + k + 1) := by
  obtain ⟨hlong, h0⟩ := not_or.mp hno
  obtain ⟨lo, hi, hpre, hword⟩ := stringPrefix_spells (utf8 s).length
  have hdata : pre ++ (stringBytes s ++ post) = pre ++ (lo :: hi :: (utf8 s ++ 0 :: post)) := by
    rw [stringBytes, if_neg hne, hpre]
    simp
  obtain ⟨k, hk, hlen⟩ := longStringLen_cut (Nat.not_lt.mp hlong) (not_not.mp h0) pre post lo hi
  rw [Nat.min_eq_right (Nat.not_lt.mp hlong)] at hword
  refine ⟨k, hk, ?_⟩
  rw [hdata]
  exact readString_cut hword (by decide) hk.le ((stringLen_long _ _).trans hlen)

theorem length_stringBytes {s : String} (hne : s ≠ "") :
    (stringBytes s).length = 2 + (utf8 s).length + 1 := by
  rw [stringBytes, if_neg hne, List.length_append, List.length_append, stringPrefix, length_toLE]
  simp only [List.length_cons, List.length_nil]
  omega

/-- **The exact domain of the string round trip**: between any bytes, a text comes back exactly
    when it is shorter than `0xffff` bytes or has no zero byte from there on. -/
theorem readString_putString_iff {s : String} (hne : s ≠ "") (pre post : Bytes) :
    ∃ bs, putString (.str s) = .ok bs ∧
      (readString (pre ++ (bs ++ post)) pre.length = .ok (.str s, pre.length + bs.length) ↔
        (utf8 s).length < 65535 ∨ (0 : UInt8) ∉ (utf8 s).drop 65535) := by
  refine ⟨stringBytes s, putString_str s, ?_⟩
  constructor
  · intro hread
    by_contra hno
    obtain ⟨k, hk, hcut⟩ := readString_stringBytes_cut hne hno pre post
    have hindex := congrArg Prod.snd (Except.ok.inj (hread.symm.trans hcut))
    simp only [length_stringBytes hne] at hindex
    omega
  · intro hok
    have hread := readString_reads hok pre post
    rw [textValue, if_neg hne] at hread
    exact hread

theorem readString_putString_iff_short : ∃ bs, putString (.str "é") = .ok bs ∧
    (readString ([7] ++ (bs ++ [0, 1])) 1 = .ok (.str "é", 1 + bs.length) ↔
      (utf8 "é").length < 65535 ∨ (0 : UInt8) ∉ (utf8 "é").drop 65535) :=
  readString_putString_iff (by decide) [7] [0, 1]

/-! ### Characters and bytes -/

def Ascii (s : String) : Prop := ∀ c ∈ s.toList, c.val ≤ 127

instance (s : String) : Decidable (Ascii s) :=
  List.decidableBAll (fun c : Char => c.val ≤ 127) s.toList

/-- Every character has at least one byte, and an ASCII character has no more. -/
theorem length_utf8_cases (cs : List Char) :
    cs.length ≤ (cs.flatMap String.utf8EncodeChar).length ∧
      (cs.length = (cs.flatMap String.utf8EncodeChar).length ↔ ∀ c ∈ cs, c.val ≤ 127) := by
  induction cs with
  | nil => simp
  | cons c cs ih =>
    obtain ⟨hle, heq⟩ := ih
    have hpos := Char.utf8Size_pos c
    have hone := Char.utf8Size_eq_one_iff (c := c)
    rw [List.flatMap_cons, List.length_append, List.length_cons, String.length_utf8EncodeChar,
      List.forall_mem_cons, ← heq, ← hone]
    omega

theorem length_le_utf8 (s : String) : s.length ≤ (utf8 s).length := by
  rw [utf8_eq_flatMap, ← String.length_toList]
  exact (length_utf8_cases s.toList).1

theorem length_eq_utf8_iff (s : String) : s.length = (utf8 s).length ↔ Ascii s := by
  rw [utf8_eq_flatMap, ← String.length_toList]
  exact (length_utf8_cases s.toList).2

/-! ### The two encoders -/

/-- The number of characters is what `put_string` announces. -/
def SamePrefix (s : String) : Prop := (Ascii s ∧ s.length ≤ 65535) ∨ s.length = 65535

theorem samePrefix_iff (s : String) : SamePrefix s ↔ s.length = min (utf8 s).length 0xffff := by
  have hle := length_le_utf8 s
  rw [SamePrefix, ← length_eq_utf8_iff]
  omega

section Encoders

variable {cmd : Int} {idx : Nat} {s : String}

theorem convertString_str (hne : s ≠ "") :
    convertString cmd idx (.str s) =
      if s.length ≤ 0xffff then
        .ok ⟨.int cmd, idx, .bytes (toLE 2 s.length ++ (utf8 s ++ [0]))⟩
      else .error (.structError "") := by
  have ht : (PyValue.str s).truth = .ok true := by simp [PyValue.truth, hne]
  unfold convertString PyValue.len PyValue.encode
  rw [ht, bind_ok, if_pos rfl, bind_ok, packUnsigned_two]
  split
  · rfl
  · rfl

theorem toLE_two_injective {m n : Nat} (hm : m ≤ 0xffff) (hn : n ≤ 0xffff)
    (h : toLE 2 m = toLE 2 n) : m = n := by
  have hvalue := congrArg ofLE h
  rwa [ofLE_toLE (by omega), ofLE_toLE (by omega)] at hvalue

/-- The payload of `convert_string` is what `put_string` gives exactly when the prefixes agree. -/
theorem convertString_eq_iff :
    convertString cmd idx (.str s) = .ok ⟨.int cmd, idx, .bytes (stringBytes s)⟩ ↔
      SamePrefix s := by
  rw [samePrefix_iff]
  by_cases hne : s = ""
  · subst hne
    exact iff_of_true rfl rfl
  · rw [convertString_str hne, stringBytes, if_neg hne, stringPrefix]
    constructor
    · intro h
      split at h
      · next hchars =>
        have hbytes := congrArg Reply.toSend (Except.ok.inj h)
        rw [PyValue.bytes.injEq] at hbytes
        obtain ⟨hsame, -⟩ := List.append_inj hbytes (by rw [length_toLE, length_toLE])
        exact toLE_two_injective hchars (Nat.min_le_right _ _) hsame
      · cases h
    · intro h
      rw [if_pos (by omega), ← h]

/-- Read back, the payload of `convert_string` gives the text and ends at its end. -/
def ReadsBack (cmd : Int) (idx : Nat) (s : String) : Prop :=
  ∃ payload, convertString cmd idx (.str s) = .ok ⟨.int cmd, idx, .bytes payload⟩ ∧
    readString payload 0 = .ok (.str s, (payload.length : Int))

theorem readsBack_iff (hne : s ≠ "") (hnul : Char.ofNat 0 ∉ s.toList) :
    ReadsBack cmd idx s ↔ SamePrefix s := by
  have hok : TextOk s := Or.inr fun h => hnul (zero_mem_utf8 (List.mem_of_mem_drop h))
  constructor
  · rintro ⟨payload, hconvert, hread⟩
    rw [convertString_str hne] at hconvert
    split at hconvert
    · next hchars =>
      by_contra hno
      rw [samePrefix_iff] at hno
      have hle := length_le_utf8 s
      have hpos : s.length ≠ 0 := fun h => hne (String.length_eq_zero_iff.mp h)
      obtain ⟨lo, hi, hpre, hword⟩ := stringPrefix_spells s.length
      rw [stringPrefix, Nat.min_eq_left hchars] at hpre
      rw [Nat.min_eq_left hchars] at hword
      have hbytes : payload = lo :: hi :: (utf8 s ++ [0]) := by
        have h := congrArg Reply.toSend (Except.ok.inj hconvert)
        rw [PyValue.bytes.injEq, hpre] at h
        exact h.symm
      -- a prefix that is too small ends the text early
      have hlen : stringLen ([] ++ (lo :: hi :: (utf8 s ++ [0]))) (([] : Bytes).length : Int)
          s.length = .ok (s.length : Int) := if_neg (by omega)
      have hcut := readString_cut hword hpos hle hlen
      have hindex := congrArg Prod.snd (Except.ok.inj ((hbytes ▸ hread).symm.trans hcut))
      simp only [List.length_cons, List.length_append, List.length_nil] at hindex
      omega
    · cases hconvert
  · intro hsame
    refine ⟨stringBytes s, convertString_eq_iff.mpr hsame, ?_⟩
    have hread := readString_reads hok [] []
    rw [textValue, if_neg hne] at hread
    simpa using hread

end Encoders

/-- `text` is the JSON text of `o`: it is not empty, and a NUL in it is escaped. -/
structure JsonText (lib : JsonLib) (o : PyValue) (text : String) : Prop where
  dumps : lib.dumps (some 1) o = .ok text
  nonempty : text ≠ ""
  no_nul : Char.ofNat 0 ∉ text.toList

/-- **When the two string encoders agree**: for texts of at most `0xffff` characters that are all
    ASCII, and for texts of exactly `0xffff` characters.  For these, and no others, a JSON
    result can be read back. -/
theorem encoders_agree_iff (lib : JsonLib) (cmd : Int) (idx : Nat) :
    (∀ s, ∃ bs, putString (.str s) = .ok bs ∧
      (convertString cmd idx (.str s) = .ok ⟨.int cmd, idx, .bytes bs⟩ ↔ SamePrefix s)) ∧
    ∀ o text, JsonText lib o text →
      ((∃ payload, convertJson lib cmd idx o = .ok ⟨.int cmd, idx, .bytes payload⟩ ∧
        readString payload 0 = .ok (.str text, (payload.length : Int))) ↔ SamePrefix text) := by
  refine ⟨fun s => ⟨stringBytes s, putString_str s, convertString_eq_iff⟩, fun o text htext => ?_⟩
  unfold convertJson
  rw [htext.dumps, bind_ok]
  exact readsBack_iff htext.nonempty htext.no_nul

/-- A `json` module on the one document `1`. -/
def oneNumber : JsonLib where
  dumps _ v := if v = .int 1 then .ok "1" else .error .typeError
  loads s := if s = "1" then .ok (.int 1) else .error .valueError
  loads_empty := by intro v h; simp at h
  dumps_error := by
    intro indent v e h
    split at h <;> cases h
    rfl
  loads_error := by
    intro s e h
    split at h <;> cases h
    rfl

theorem encoders_agree_iff_number :
    ((∃ payload, convertJson oneNumber 0 1 (.int 1) = .ok ⟨.int 0, 1, .bytes payload⟩ ∧
      readString payload 0 = .ok (.str "1", (payload.length : Int))) ↔ SamePrefix "1") ∧
    SamePrefix "1" :=
  ⟨(encoders_agree_iff oneNumber 0 1).2 (.int 1) "1" ⟨rfl, by decide, by decide⟩,
    Or.inl (by decide)⟩

/-- One character of two bytes: the payload announces one byte, and half a character is read. -/
theorem encoders_disagree :
    putString (.str "é") = .ok [2, 0, 0xc3, 0xa9, 0] ∧
    convertString 0 1 (.str "é") = .ok ⟨.int 0, 1, .bytes [1, 0, 0xc3, 0xa9, 0]⟩ ∧
    readString [1, 0, 0xc3, 0xa9, 0] 0 = .ok (.str "b'\\xc3'", 4) := by
  have hpayload : toLE 2 "é".length ++ (utf8 "é" ++ [0]) = [1, 0, 0xc3, 0xa9, 0] := by
    decide +kernel
  refine ⟨by decide +kernel, ?_, by decide +kernel⟩
  rw [convertString_str (by decide), if_pos (by decide), hpayload]

end Albatross.Marshal
