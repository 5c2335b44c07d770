/-
  Albatross/Marshal.lean
  ======================
  **Argument payloads** (`rpc_common.py`: the `read_*`, `put_*` and `convert_*`
  functions, their tables, `create_call_function` and
  `create_receive_function`).

  A payload is the concatenation of its arguments' encodings, and it carries no
  types: the receiver walks it with the parsers of the declared signature, each
  of which starts at the index the one before it returned.  What makes this work
  is stated once for a single parser (`Reads`: located anywhere in a payload, it
  gives the value and moves the index past the encoding) and lifted to whole
  signatures by induction.

  Indices are integers with Python's reading of negative ones, since a length
  prefix read from the wire may be negative.  The two floating-point types are
  left out.
-/
import Albatross.Framing

namespace Albatross.Marshal

open Python LittleEndian

/-! ### Types and values of a signature -/

/-- The parameter types of the two argument tables; `str | None` is `str`. -/
inductive ArgType where
  | int
  | str
  | bytes
  | bool
  | byte
  | long
  | short
  | dict
  | list
  | socket
deriving DecidableEq, Repr

/-! ### Readers -/

abbrev Reader := Bytes → Int → Except PyExn (PyValue × Int)

/-- `for i in range(i, i + n)`: the first index in the range that holds a zero. -/
def scanZero (data : Bytes) : Nat → Int → Except PyExn (Option Int)
  | 0, _ => return none
  | n + 1, i => do
      let b ← index data i
      if b = 0 then return some i else scanZero data n (i + 1)

/-- The length of a string whose prefix is `0xffff`: up to the next zero byte, or
    `0xffff` when there is none. -/
def longStringLen (data : Bytes) (idx : Int) : Except PyExn Int := do
  if data.length - idx ≤ 0xffff then throw .assertionError
  match ← scanZero data (data.length - (idx + 2 + 0xffff)).toNat (idx + 2 + 0xffff) with
  | some i => return i - idx - 2
  | none => return 0xffff

def stringLen (data : Bytes) (idx strLen : Int) : Except PyExn Int :=
  if strLen = 0xffff then longStringLen data idx else return strLen

def readString : Reader := fun data idx => do
  let lo ← index data (idx + 0)
  let hi ← index data (idx + 1)
  let strLen : Int := lo.toNat + hi.toNat * 2 ^ 8
  if strLen = 0 then return (.none, idx + 2)
  else
    let strLen ← stringLen data idx strLen
    let bs := slice data (idx + 2) (idx + strLen + 2)
    let s := (utf8Decode bs).getD (reprBytes bs)
    return (.str s, idx + 2 + strLen + 1)

/-- `json.loads(s)` of what `readString` returned. -/
def jsonLoads (lib : JsonLib) : PyValue → Except PyExn PyValue
  | .str s => lib.loads s
  | _ => .error .typeError

def readJson (lib : JsonLib) : Reader := fun data idx => do
  let (s, idx) ← readString data idx
  match jsonLoads lib s with
  | .ok v => return (v, idx)
  | .error e => if e.isException then return (s, idx) else throw e

def readBytes : Reader := fun data idx => do
  let i ← unpackSigned 4 (slice data idx (idx + 4))
  let idx := idx + 4
  return (.bytes (slice data idx (idx + i)), idx + i)

/-- A signed field of `w` bytes. -/
def readSigned (w : Nat) : Reader := fun data idx => do
  let i ← unpackSigned w (slice data idx (idx + w))
  return (.int i, idx + w)

def readInt : Reader := readSigned 4

def readLong : Reader := readSigned 8

/-- The one reader that hands on the tuple `struct.unpack` returns. -/
def readShort : Reader := fun data idx => do
  let i ← unpackSigned 2 (slice data idx (idx + 2))
  return (.tuple [i], idx + 2)

def readBool : Reader := fun data idx => do
  let b ← index data idx
  return (.bool (decide (b ≠ 0)), idx + 1)

def readByte : Reader := fun data idx => do
  let b ← index data idx
  return (.int b.toNat, idx + 1)

/-! ### Writers -/

abbrev Writer := PyValue → Except PyExn Bytes

def putByte : Writer := fun v =>
  match v.asInt with
  | some i => if 0 ≤ i ∧ i < 256 then .ok [UInt8.ofNat i.toNat] else .error .valueError
  | none => .error .typeError

def putInt : Writer := packSigned 4

def putLong : Writer := packSigned 8

def putBool : Writer := fun v => do
  if ← v.truth then return [1] else return [0]

def putString : Writer := fun v => do
  if ← v.truth then
    let bs ← v.encode
    let bLen ← packUnsigned 2 (.int (min bs.length 0xffff : Nat))
    return bLen ++ (bs ++ [0])
  else return [0, 0]

def putDict (lib : JsonLib) : Writer := fun v => do
  let s ← lib.dumps none v
  putString (.str s)

def putBytes : Writer := fun v => do
  if ← v.truth then
    let n ← v.len
    let head ← packSigned 4 (.int n)
    match v with
    | .bytes bs => return head ++ bs
    | _ => throw .typeError
  else return [0, 0, 0, 0]

def nop : Writer := fun _ => return []

/-! ### The argument tables and the functions made from them -/

/-- `arg_convert_tables`; a type it lacks raises `KeyError` when the class is
    made. -/
def argConvertTable (lib : JsonLib) : ArgType → Option Writer
  | .int => some putInt
  | .str => some putString
  | .bytes => some putBytes
  | .bool => some putBool
  | .byte => some putByte
  | .long => some putLong
  | .socket => some nop
  | .dict => some (putDict lib)
  | .short | .list => none

/-- An entry of `arg_read_tables`: a reader, or the socket class itself. -/
inductive Parser where
  | read (f : Reader)
  | socket

def argReadTable (lib : JsonLib) : ArgType → Parser
  | .int => .read readInt
  | .str => .read readString
  | .byte => .read readByte
  | .bool => .read readBool
  | .short => .read readShort
  | .long => .read readLong
  | .dict => .read (readJson lib)
  | .list => .read (readJson lib)
  | .bytes => .read readBytes
  | .socket => .socket

/-- `new_args[idx] = v` for each keyword argument. -/
def bindKwargs (argIndex : List (String × Nat)) :
    List (String × PyValue) → List PyValue → Except PyExn (List PyValue)
  | [], newArgs => return newArgs
  | (k, v) :: kwargs, newArgs =>
      match argIndex.lookup k with
      | none => throw (.runtimeError (k ++ " is not supported argument"))
      | some i =>
          if i < newArgs.length then bindKwargs argIndex kwargs (newArgs.set i v)
          else throw .indexError

/-- The arguments the loop of a call function runs over. -/
def bindArgs (arity : Nat) (defaultArgs : Option (List PyValue)) (argIndex : List (String × Nat))
    (args : List PyValue) (kwargs : List (String × PyValue)) : Except PyExn (List PyValue) :=
  if args.length = arity then return args
  else if arity < args.length then throw (.runtimeError "too many arguments")
  else
    let defaults := defaultArgs.getD []
    if defaults = [] ∨ defaults.length + args.length < arity then
      throw (.runtimeError "too few arguments")
    else bindKwargs argIndex kwargs
      (args ++ defaults.drop (defaults.length - (arity - args.length)))

/-- `bs.append(arg_list[i](arg))` for each argument, joined. -/
def convertArgs : List Writer → List PyValue → Except PyExn Bytes
  | _, [] => return []
  | [], _ :: _ => throw .indexError
  | f :: argList, arg :: args => do
      let b ← f arg
      let bs ← convertArgs argList args
      return b ++ bs

def createCallFunction (argList : List Writer) (defaultArgs : Option (List PyValue))
    (argIndex : List (String × Nat)) (args : List PyValue) (kwargs : List (String × PyValue)) :
    Except PyExn Bytes := do
  let args ← bindArgs argList.length defaultArgs argIndex args kwargs
  convertArgs argList args

/-- The loop of a receive function, with the index it ends at.  Without a payload
    (`None`) every reader raises at its first access. -/
def receiveArgs (sock : PyValue) :
    List Parser → Option Bytes → Int → Except PyExn (List PyValue × Int)
  | [], _, idx => return ([], idx)
  | .socket :: argList, data, idx => do
      let (args, idx) ← receiveArgs sock argList data idx
      return (sock :: args, idx)
  | .read _ :: _, none, _ => throw .typeError
  | .read f :: argList, some data, idx => do
      let (arg, idx) ← f data idx
      let (args, idx) ← receiveArgs sock argList (some data) idx
      return (arg :: args, idx)

def createReceiveFunction (argList : List Parser) (data : Option Bytes) (sock : PyValue) :
    Except PyExn (List PyValue) := do
  let (args, _) ← receiveArgs sock argList data 0
  return args

/-! ### Result convertors -/

/-- The triple `(cmd, idx, to_send)` a convertor returns. -/
structure Reply where
  cmd : PyValue
  idx : Nat
  toSend : PyValue

abbrev Convertor := Int → Nat → PyValue → Except PyExn Reply

def convertInt : Convertor := fun cmd idx i => do
  let bs ← packSigned 4 i
  return ⟨.int cmd, idx, .bytes bs⟩

def convertShort : Convertor := fun cmd idx i => do
  let bs ← packSigned 2 i
  return ⟨.int cmd, idx, .bytes bs⟩

def convertBool : Convertor := fun _ idx b => do
  if ← b.truth then return ⟨.int 1, idx, .none⟩ else return ⟨.int 0, idx, .none⟩

def convertByte : Convertor := fun _ idx b => return ⟨b, idx, .none⟩

def convertBytes : Convertor := fun cmd idx b => return ⟨.int cmd, idx, b⟩

/-- Unlike `put_string` the prefix is the number of characters. -/
def convertString : Convertor := fun cmd idx s => do
  if ← s.truth then
    let n ← s.len
    let bLen ← packUnsigned 2 (.int n)
    let bs ← s.encode
    return ⟨.int cmd, idx, .bytes (bLen ++ (bs ++ [0]))⟩
  else return ⟨.int cmd, idx, .bytes [0, 0]⟩

def convertJson (lib : JsonLib) : Convertor := fun cmd idx o => do
  let s ← lib.dumps (some 1) o
  convertString cmd idx (.str s)

/-- The return types of a broadcast; `other` has no convertor (`long`, the
    floating-point types, no annotation at all). -/
inductive RetType where
  | bool
  | int
  | str
  | bytes
  | dict
  | list
  | void
  | short
  | byte
  | other
deriving DecidableEq, Repr

/-- `return_convert_mappings`. -/
def returnConvertMapping (lib : JsonLib) : RetType → Option Convertor
  | .bool => some convertBool
  | .int => some convertInt
  | .str => some convertString
  | .bytes => some convertBytes
  | .dict => some (convertJson lib)
  | .list => some (convertJson lib)
  | .short => some convertShort
  | .byte => some convertByte
  | .void | .other => none

/-! ### Reading one encoded value -/

/-- Wherever `bs` stands in a payload, `f` reads `v` there and moves the index
    past it. -/
def Reads (f : Reader) (bs : Bytes) (v : PyValue) : Prop :=
  ∀ pre post : Bytes, f (pre ++ (bs ++ post)) pre.length = .ok (v, pre.length + bs.length)

theorem readSigned_reads {w : Nat} {i : Int} (hlo : -(256 ^ w : Nat) ≤ 2 * i)
    (hhi : 2 * i < (256 ^ w : Nat)) : Reads (readSigned w) (toLESigned w i) (.int i) := by
  intro pre post
  have hslice : slice (pre ++ (toLESigned w i ++ post)) pre.length (pre.length + w) =
      toLESigned w i := slice_middle pre _ post rfl (by simp)
  simp only [readSigned, hslice, unpackSigned_toLESigned hlo hhi, bind, Except.bind]
  simp [pure, Except.pure]

theorem readBool_reads (b : Bool) : Reads readBool [if b then 1 else 0] (.bool b) := by
  intro pre post
  have hindex : index (pre ++ ((if b then 1 else 0) :: post)) pre.length =
      .ok (if b then 1 else 0) := index_middle pre post _ rfl
  simp only [readBool, List.cons_append, List.nil_append, hindex, bind, Except.bind]
  cases b <;> rfl

theorem readByte_reads {i : Int} (hlo : 0 ≤ i) (hhi : i < 256) :
    Reads readByte [UInt8.ofNat i.toNat] (.int i) := by
  intro pre post
  have hindex : index (pre ++ (UInt8.ofNat i.toNat :: post)) pre.length =
      .ok (UInt8.ofNat i.toNat) := index_middle pre post _ rfl
  have hbyte : ((UInt8.ofNat i.toNat).toNat : Int) = i := by
    rw [UInt8.toNat_ofNat_of_lt' (by simp [UInt8.size]; omega)]
    omega
  simp only [readByte, List.cons_append, List.nil_append, hindex, bind, Except.bind, hbyte]
  rfl

theorem readBytes_reads {bs : Bytes} (hlen : bs.length < 2 ^ 31) :
    Reads readBytes (toLESigned 4 bs.length ++ bs) (.bytes bs) := by
  intro pre post
  have hhead : slice (pre ++ (toLESigned 4 bs.length ++ bs ++ post)) pre.length (pre.length + 4) =
      toLESigned 4 bs.length := by
    rw [List.append_assoc (toLESigned 4 bs.length)]
    exact slice_middle pre _ _ rfl (by simp)
  have hbody : slice (pre ++ (toLESigned 4 bs.length ++ bs ++ post)) (pre.length + 4)
      (pre.length + 4 + bs.length) = bs := by
    rw [List.append_assoc (toLESigned 4 bs.length), ← List.append_assoc pre]
    exact slice_middle (pre ++ toLESigned 4 bs.length) bs post (by simp) (by simp)
  have hunpack : unpackSigned 4 (toLESigned 4 bs.length) = .ok (bs.length : Int) := by
    apply unpackSigned_toLESigned <;> push_cast <;> omega
  simp only [readBytes, hhead, hunpack, hbody, bind, Except.bind]
  simp [pure, Except.pure, add_assoc]

/-! ### Reading one encoded string -/

/-- The two-byte prefix of an encoding of `n` bytes. -/
def stringPrefix (n : Nat) : Bytes := toLE 2 (min n 0xffff)

/-- The bytes `put_string` makes of a text. -/
def stringBytes (s : String) : Bytes :=
  if s = "" then [0, 0] else stringPrefix (utf8 s).length ++ (utf8 s ++ [0])

/-- What `read_string` gives for a text: the empty one is read as `None`. -/
def textValue (s : String) : PyValue := if s = "" then .none else .str s

/-- A text whose end can be found again: its length fits the prefix, or no zero
    byte stands in the part that is scanned. -/
def TextOk (s : String) : Prop := (utf8 s).length < 65535 ∨ (0 : UInt8) ∉ (utf8 s).drop 65535

theorem putString_str (s : String) : putString (.str s) = .ok (stringBytes s) := by
  by_cases hne : s = ""
  · subst hne
    rfl
  · have hpack : ∀ n : Nat, packUnsigned 2 (.int (min n 0xffff : Nat)) = .ok (stringPrefix n) := by
      intro n
      have hrange : 0 ≤ ((min n 0xffff : Nat) : Int) ∧
          ((min n 0xffff : Nat) : Int) < ((256 ^ 2 : Nat) : Int) := by omega
      simp only [packUnsigned, PyValue.asInt]
      rw [if_pos hrange, Int.toNat_natCast, stringPrefix]
    have ht : (PyValue.str s).truth = .ok true := by simp [PyValue.truth, hne]
    unfold putString PyValue.encode
    rw [ht, bind_ok, if_pos rfl, bind_ok, hpack, bind_ok, stringBytes, if_neg hne]
    rfl

theorem stringPrefix_spells (n : Nat) : ∃ lo hi : UInt8, stringPrefix n = [lo, hi] ∧
    (lo.toNat : Int) + hi.toNat * 2 ^ 8 = (min n 0xffff : Nat) := by
  refine ⟨UInt8.ofNat (min n 0xffff % 256), UInt8.ofNat (min n 0xffff / 256 % 256), rfl, ?_⟩
  rw [UInt8.toNat_ofNat_of_lt' (by simp [UInt8.size]; omega),
    UInt8.toNat_ofNat_of_lt' (by simp [UInt8.size]; omega)]
  omega

/-- The scan passes over a stretch without zeros and stops at the zero after it. -/
theorem scanZero_spec {body : Bytes} (h0 : (0 : UInt8) ∉ body) :
    ∀ (pre post : Bytes) (n : Nat), body.length < n →
      scanZero (pre ++ (body ++ 0 :: post)) n pre.length =
        .ok (some (pre.length + body.length)) := by
  induction body with
  | nil =>
    intro pre post n hn
    obtain ⟨n, rfl⟩ : ∃ m, n = m + 1 := ⟨n - 1, by simp at hn; omega⟩
    simp only [scanZero, List.nil_append, index_middle pre post 0 rfl, bind, Except.bind]
    simp [pure, Except.pure]
  | cons b body ih =>
    intro pre post n hn
    obtain ⟨n, rfl⟩ : ∃ m, n = m + 1 := ⟨n - 1, by simp at hn; omega⟩
    have hb : b ≠ 0 := fun h => h0 (by simp [h])
    have hrest := ih (fun h => h0 (List.mem_cons_of_mem b h)) (pre ++ [b]) post n
      (by simpa using hn)
    have hsplit : pre ++ (b :: body ++ 0 :: post) = pre ++ [b] ++ (body ++ 0 :: post) := by simp
    have hlen : ((pre ++ [b]).length : Int) = pre.length + 1 := by simp
    rw [hlen, ← hsplit] at hrest
    have hindex : index (pre ++ (b :: body ++ 0 :: post)) pre.length = .ok b :=
      index_middle pre _ b rfl
    simp only [scanZero, hindex, bind, Except.bind, if_neg hb, hrest, List.length_cons]
    congr 2
    omega

/-- A long string ends at its terminator when no zero byte stands before it in the
    scanned part. -/
theorem longStringLen_spec {bs : Bytes} (hlong : 0xffff ≤ bs.length)
    (h0 : (0 : UInt8) ∉ bs.drop 0xffff) (pre post : Bytes) (lo hi : UInt8) :
    longStringLen (pre ++ (lo :: hi :: (bs ++ 0 :: post))) pre.length = .ok bs.length := by
  set data := pre ++ (lo :: hi :: (bs ++ 0 :: post)) with hdata
  have hdlen : (data.length : Int) = pre.length + 2 + bs.length + 1 + post.length := by
    simp only [hdata, List.length_append, List.length_cons]
    omega
  -- the scan starts `0xffff` bytes into the text
  have hsplit : pre ++ [lo, hi] ++ bs.take 0xffff ++ (bs.drop 0xffff ++ 0 :: post) = data := by
    rw [hdata]
    simp only [List.append_assoc, List.cons_append, List.nil_append]
    rw [← List.append_assoc (bs.take 0xffff), List.take_append_drop]
  have hstart : ((pre ++ [lo, hi] ++ bs.take 0xffff).length : Int) = pre.length + 2 + 0xffff := by
    simp only [List.length_append, List.length_take, List.length_cons, List.length_nil]
    omega
  have hscan := scanZero_spec h0 (pre ++ [lo, hi] ++ bs.take 0xffff) post
    (data.length - (pre.length + 2 + 0xffff : Int)).toNat (by rw [List.length_drop, hdlen]; omega)
  rw [hsplit, hstart, List.length_drop] at hscan
  have hassert : ¬ (data.length - (pre.length : Int) ≤ 0xffff) := by omega
  have hfound : (pre.length + 2 + 0xffff : Int) + ((bs.length - 0xffff : Nat) : Int) -
      pre.length - 2 = bs.length := by omega
  simp only [longStringLen, hscan, bind, Except.bind]
  rw [if_neg hassert]
  simp only [pure, Except.pure, hfound]

/-- Behind a non-zero prefix the text is as long as the prefix says, and the index goes on
    behind its terminator. -/
theorem readString_cut {pre : Bytes} {lo hi : UInt8} {bs post : Bytes} {n k : Nat}
    (hword : (lo.toNat : Int) + hi.toNat * 2 ^ 8 = n) (hn : n ≠ 0) (hk : k ≤ bs.length)
    (hlen : stringLen (pre ++ (lo :: hi :: (bs ++ post))) pre.length n = .ok (k : Int)) :
    readString (pre ++ (lo :: hi :: (bs ++ post))) pre.length =
      .ok
        (.str ((utf8Decode (bs.take k)).getD (reprBytes (bs.take k))), pre.length + 2 + k + 1) := by
  have hlo : index (pre ++ (lo :: hi :: (bs ++ post))) (pre.length + 0) = .ok lo :=
    index_middle pre _ lo (by omega)
  have hhi : index (pre ++ (lo :: hi :: (bs ++ post))) (pre.length + 1) = .ok hi := by
    have h := index_middle (pre ++ [lo]) (bs ++ post) hi rfl
    simpa using h
  have hslice : slice (pre ++ (lo :: hi :: (bs ++ post))) (pre.length + 2)
      (pre.length + k + 2) = bs.take k := by
    have hflat : pre ++ (lo :: hi :: (bs ++ post)) =
        (pre ++ [lo, hi]) ++ (bs.take k ++ (bs.drop k ++ post)) := by
      rw [← List.append_assoc (bs.take k), List.take_append_drop]
      simp
    rw [hflat]
    apply slice_middle
    · simp
    · simp only [List.length_append, List.length_take, List.length_cons, List.length_nil]
      omega
  unfold readString
  rw [hlo, bind_ok, hhi, bind_ok, hword]
  dsimp only
  rw [if_neg (by omega), hlen, bind_ok, hslice]
  rfl

theorem readString_nonempty {s : String} (hne : s ≠ "") (hok : TextOk s) :
    Reads readString (stringPrefix (utf8 s).length ++ (utf8 s ++ [0])) (.str s) := by
  intro pre post
  have hpos : (utf8 s).length ≠ 0 := fun h => hne (utf8_eq_nil.mp (List.length_eq_zero_iff.mp h))
  obtain ⟨lo, hi, hpre, hword⟩ := stringPrefix_spells (utf8 s).length
  have hflat : pre ++ (stringPrefix (utf8 s).length ++ (utf8 s ++ [0]) ++ post) =
      pre ++ (lo :: hi :: (utf8 s ++ 0 :: post)) := by simp [hpre]
  have htotal : ((stringPrefix (utf8 s).length ++ (utf8 s ++ [0])).length : Int) =
      2 + (utf8 s).length + 1 := by
    simp only [hpre, List.length_append, List.length_cons, List.length_nil]
    omega
  have hlen : stringLen (pre ++ (lo :: hi :: (utf8 s ++ 0 :: post))) pre.length
      (min (utf8 s).length 0xffff : Nat) = .ok ((utf8 s).length : Int) := by
    by_cases hshort : (utf8 s).length < 0xffff
    · rw [stringLen, if_neg (by omega), Nat.min_eq_left (by omega)]
      rfl
    · rw [stringLen, if_pos (by omega)]
      exact longStringLen_spec (by omega) (hok.resolve_left hshort) pre post lo hi
  have hread := readString_cut hword (by omega) (Nat.le_refl _) hlen
  rw [List.take_length, utf8Decode_utf8, Option.getD_some] at hread
  rw [hflat, hread, htotal]
  congr 2
  omega

/-- **The string round trip**, at any place of a payload: the length prefix is
    exact below `0xffff`, and from there on the terminator is found by scanning. -/
theorem readString_reads {s : String} (hok : TextOk s) :
    Reads readString (stringBytes s) (textValue s) := by
  by_cases hne : s = ""
  · subst hne
    intro pre post
    have hlo : index (pre ++ (0 :: 0 :: post)) (pre.length + 0) = .ok 0 :=
      index_middle pre _ 0 (by omega)
    have hhi : index (pre ++ (0 :: 0 :: post)) (pre.length + 1) = .ok 0 := by
      have h := index_middle (pre ++ [0]) post 0 (i := pre.length + 1) (by simp)
      simpa only [List.append_assoc, List.cons_append, List.nil_append] using h
    show readString (pre ++ (0 :: 0 :: post)) pre.length = _
    unfold readString
    rw [hlo, bind_ok, hhi, bind_ok, if_pos (by rfl)]
    rfl
  · rw [stringBytes, textValue, if_neg hne, if_neg hne]
    exact readString_nonempty hne hok

/-! ### What a receive function can raise -/

theorem scanZero_ordinary (data : Bytes) (n : Nat) : ∀ i : Int, Ordinary (scanZero data n i) := by
  induction n with
  | zero => intro i; exact .ok _
  | succ n ih =>
    intro i
    unfold scanZero
    refine (index_ordinary data i).bind fun b => ?_
    split
    · exact .ok _
    · exact ih (i + 1)

theorem longStringLen_ordinary (data : Bytes) (idx : Int) : Ordinary (longStringLen data idx) := by
  unfold longStringLen
  split
  · exact .error rfl
  · refine (scanZero_ordinary data _ _).bind fun found => ?_
    split <;> exact .ok _

theorem readString_ordinary (data : Bytes) (idx : Int) : Ordinary (readString data idx) := by
  unfold readString
  refine (index_ordinary data _).bind fun lo => (index_ordinary data _).bind fun hi => ?_
  dsimp only
  split
  · exact .ok _
  · refine Ordinary.bind ?_ fun strLen => .ok _
    unfold stringLen
    split
    · exact longStringLen_ordinary data idx
    · exact .ok _

theorem readJson_ordinary (lib : JsonLib) (data : Bytes) (idx : Int) :
    Ordinary (readJson lib data idx) := by
  unfold readJson
  refine (readString_ordinary data idx).bind fun a => ?_
  dsimp only
  split
  · exact .ok _
  · next e he =>
    split
    · exact .ok _
    · next hexn =>
      refine .error (absurd ?_ hexn)
      unfold jsonLoads at he
      split at he
      · exact lib.loads_error he
      · cases he
        rfl

theorem argReadTable_ordinary (lib : JsonLib) (t : ArgType) {f : Reader}
    (h : argReadTable lib t = .read f) (data : Bytes) (idx : Int) : Ordinary (f data idx) := by
  have hsigned : ∀ w, Ordinary (readSigned w data idx) :=
    fun w => (unpackSigned_ordinary w _).bind fun i => .ok _
  cases t with
  | int => cases h; exact hsigned 4
  | long => cases h; exact hsigned 8
  | str => cases h; exact readString_ordinary data idx
  | byte => cases h; exact (index_ordinary data idx).bind fun b => .ok _
  | bool => cases h; exact (index_ordinary data idx).bind fun b => .ok _
  | short => cases h; exact (unpackSigned_ordinary 2 _).bind fun i => .ok _
  | dict => cases h; exact readJson_ordinary lib data idx
  | list => cases h; exact readJson_ordinary lib data idx
  | bytes => cases h; exact (unpackSigned_ordinary 4 _).bind fun i => .ok _
  | socket => cases h

theorem receiveArgs_ordinary (lib : JsonLib) (sock : PyValue) (types : List ArgType)
    (data : Option Bytes) :
    ∀ idx, Ordinary (receiveArgs sock (types.map (argReadTable lib)) data idx) := by
  induction types with
  | nil => intro idx; exact .ok _
  | cons t types ih =>
    intro idx
    rw [List.map_cons]
    cases hparser : argReadTable lib t with
    | socket => exact (ih idx).bind fun a => .ok _
    | read f =>
      cases data with
      | none => exact .error rfl
      | some data =>
        exact (argReadTable_ordinary lib t hparser data idx).bind fun a =>
          (ih a.2).bind fun b => .ok _

theorem createReceiveFunction_ordinary (lib : JsonLib) (types : List ArgType) (data : Option Bytes)
    (sock : PyValue) :
    Ordinary (createReceiveFunction (types.map (argReadTable lib)) data sock) :=
  (receiveArgs_ordinary lib sock types data 0).bind fun _ => .ok _

/-! ### What a convertor makes of a result -/

/-- A reply under the frame's id that any frame can carry. -/
structure Reply.Fits (reply : Reply) (cmd : Int) (idx : Nat) : Prop where
  idx : reply.idx = idx
  cmd : reply.cmd = .int cmd ∨ reply.cmd = .int 0 ∨ reply.cmd = .int 1
  data : ∃ data, reply.toSend = .ofData data ∧ (data.getD []).length < 2 ^ 24

section Convertors

variable {cmd : Int} {idx : Nat} {v : PyValue} {reply : Reply}

theorem packed_fits {w : Nat} (hw : w ≤ 4) (h : (packSigned w v >>= fun bs =>
    (Except.ok ⟨.int cmd, idx, .bytes bs⟩ : Except PyExn Reply)) = .ok reply) :
    reply.Fits cmd idx := by
  obtain ⟨bs, hp, h⟩ := bind_eq_ok h
  cases h
  refine ⟨rfl, Or.inl rfl, some bs, rfl, ?_⟩
  rw [Option.getD_some, length_of_packSigned hp]
  omega

theorem convertBool_fits (h : convertBool cmd idx v = .ok reply) : reply.Fits cmd idx := by
  obtain ⟨t, -, h⟩ := bind_eq_ok h
  cases t with
  | false =>
    cases h
    exact ⟨rfl, Or.inr (Or.inl rfl), none, rfl, by simp⟩
  | true =>
    cases h
    exact ⟨rfl, Or.inr (Or.inr rfl), none, rfl, by simp⟩

/-- The length prefix bounds the number of characters, each of at most four bytes. -/
theorem convertString_str_fits {s : String} (h : (do
    let n ← (PyValue.str s).len
    let bLen ← packUnsigned 2 (.int n)
    let bs ← (PyValue.str s).encode
    return (⟨.int cmd, idx, .bytes (bLen ++ (bs ++ [0]))⟩ : Reply)) = .ok reply) :
    reply.Fits cmd idx := by
  unfold PyValue.len PyValue.encode at h
  rw [bind_ok] at h
  obtain ⟨bLen, hp, h⟩ := bind_eq_ok h
  cases h
  obtain ⟨hchars, hlen⟩ := of_packUnsigned hp
  have hutf8 := length_utf8_le s
  refine ⟨rfl, Or.inl rfl, some (bLen ++ (utf8 s ++ [0])), rfl, ?_⟩
  simp only [Option.getD_some, List.length_append, List.length_cons, List.length_nil]
  omega

theorem convertString_fits (h : convertString cmd idx v = .ok reply) : reply.Fits cmd idx := by
  unfold convertString at h
  obtain ⟨t, -, h⟩ := bind_eq_ok h
  cases t with
  | false =>
    cases h
    exact ⟨rfl, Or.inl rfl, some [0, 0], rfl, by simp⟩
  | true =>
    rw [if_pos rfl] at h
    cases v with
    | str s => exact convertString_str_fits h
    | _ =>
      -- only text can be encoded
      obtain ⟨n, -, h⟩ := bind_eq_ok h
      obtain ⟨bLen, -, h⟩ := bind_eq_ok h
      obtain ⟨bs, hencode, -⟩ := bind_eq_ok h
      cases hencode

/-- The convertors other than those of `byte` and `bytes` check the result. -/
theorem convert_fits (lib : JsonLib) {ret : RetType} (hbyte : ret ≠ .byte) (hbytes : ret ≠ .bytes)
    {convertor : Convertor} (hconv : returnConvertMapping lib ret = some convertor)
    (h : convertor cmd idx v = .ok reply) : reply.Fits cmd idx := by
  cases ret with
  | int =>
    cases hconv
    exact packed_fits (by decide) h
  | short =>
    cases hconv
    exact packed_fits (by decide) h
  | bool =>
    cases hconv
    exact convertBool_fits h
  | str =>
    cases hconv
    exact convertString_fits h
  | dict | list =>
    cases hconv
    obtain ⟨text, -, h⟩ := bind_eq_ok h
    exact convertString_fits h
  | bytes => exact absurd rfl hbytes
  | byte => exact absurd rfl hbyte
  | void | other => cases hconv

end Convertors

theorem convert_ordinary (lib : JsonLib) {ret : RetType} {convertor : Convertor}
    (hconv : returnConvertMapping lib ret = some convertor) (cmd : Int) (idx : Nat) (v : PyValue) :
    Ordinary (convertor cmd idx v) := by
  have hpacked : ∀ w, Ordinary (packSigned w v >>= fun bs =>
      (Except.ok ⟨.int cmd, idx, .bytes bs⟩ : Except PyExn Reply)) :=
    fun w => (packSigned_ordinary w v).bind fun bs => .ok _
  have hstring : ∀ v, Ordinary (convertString cmd idx v) := by
    intro v
    refine v.truth_ordinary.bind fun t => ?_
    split
    · exact v.len_ordinary.bind fun n => (packUnsigned_ordinary 2 _).bind fun bLen =>
        v.encode_ordinary.bind fun bs => .ok _
    · exact .ok _
  cases ret with
  | int => cases hconv; exact hpacked 4
  | short => cases hconv; exact hpacked 2
  | bool =>
    cases hconv
    refine v.truth_ordinary.bind fun t => ?_
    split <;> exact .ok _
  | str => cases hconv; exact hstring v
  | dict | list =>
    cases hconv
    refine Ordinary.bind (fun e h => lib.dumps_error h) fun text => ?_
    exact hstring (.str text)
  | bytes => cases hconv; exact .ok _
  | byte => cases hconv; exact .ok _
  | void | other => cases hconv

/-! ### Whole signatures -/

def InRange (lib : JsonLib) : ArgType → PyValue → Prop
  | .int, .int i => -2 ^ 31 ≤ i ∧ i < 2 ^ 31
  | .long, .int i => -2 ^ 63 ≤ i ∧ i < 2 ^ 63
  | .bool, .bool _ => True
  | .byte, .int i => 0 ≤ i ∧ i ≤ 255
  | .str, .str s => s ≠ "" ∧ TextOk s
  | .bytes, .bytes bs => bs.length < 2 ^ 31
  | .dict, v => ∃ text, lib.dumps none v = .ok text ∧ lib.loads text = .ok v ∧
      Char.ofNat 0 ∉ text.toList
  | .socket, .sock _ => True
  | _, _ => False

/-- What the two tables do with one argument: it is written as `bs`, and read back
    from there, or not sent at all. -/
structure Exchanged (lib : JsonLib) (t : ArgType) (v : PyValue) (f : Writer) (bs : Bytes) :
    Prop where
  writer : argConvertTable lib t = some f
  written : f v = .ok bs
  read : t ≠ .socket → ∃ g, argReadTable lib t = .read g ∧ Reads g bs v
  unsent : t = .socket → bs = []

theorem Exchanged.of_ne {lib : JsonLib} {t : ArgType} {v : PyValue} {f : Writer} {bs : Bytes}
    {g : Reader} (hne : t ≠ .socket) (hwriter : argConvertTable lib t = some f)
    (hwritten : f v = .ok bs) (hreader : argReadTable lib t = .read g) (hread : Reads g bs v) :
    Exchanged lib t v f bs :=
  ⟨hwriter, hwritten, fun _ => ⟨g, hreader, hread⟩, fun h => absurd h hne⟩

theorem readJson_reads {lib : JsonLib} {v : PyValue} {text : String}
    (hloads : lib.loads text = .ok v) (hnul : Char.ofNat 0 ∉ text.toList) :
    Reads (readJson lib) (stringBytes text) v := by
  have hne : text ≠ "" := by
    rintro rfl
    exact lib.loads_empty v hloads
  have hok : TextOk text := Or.inr fun h => hnul (zero_mem_utf8 (List.mem_of_mem_drop h))
  intro pre post
  unfold readJson
  rw [readString_reads hok pre post, bind_ok, textValue, if_neg hne]
  simp only [jsonLoads, hloads]
  rfl

theorem putDict_reads {lib : JsonLib} {v : PyValue} {text : String}
    (hdumps : lib.dumps none v = .ok text) (hloads : lib.loads text = .ok v)
    (hnul : Char.ofNat 0 ∉ text.toList) :
    ∃ bs, putDict lib v = .ok bs ∧ Reads (readJson lib) bs v := by
  refine ⟨stringBytes text, ?_, readJson_reads hloads hnul⟩
  unfold putDict
  rw [hdumps, bind_ok]
  exact putString_str text

theorem putBytes_bytes {bs : Bytes} (hlen : bs.length < 2 ^ 31) :
    putBytes (.bytes bs) = .ok (toLESigned 4 bs.length ++ bs) := by
  by_cases hnil : bs = []
  · rw [hnil]
    rfl
  · have ht : (PyValue.bytes bs).truth = .ok true := by simp [PyValue.truth, hnil]
    have hpack : packSigned 4 (.int bs.length) = .ok (toLESigned 4 bs.length) := by
      apply packSigned_int <;> push_cast <;> omega
    unfold putBytes PyValue.len
    rw [ht, bind_ok, if_pos rfl, bind_ok, hpack, bind_ok]
    rfl

theorem InRange.exchanged {lib : JsonLib} {t : ArgType} {v : PyValue} (h : InRange lib t v) :
    ∃ f bs, Exchanged lib t v f bs := by
  cases t with
  | int =>
    cases v with
    | int i =>
      have hlo : -((256 ^ 4 : Nat) : Int) ≤ 2 * i := by have := h.1; push_cast; omega
      have hhi : 2 * i < ((256 ^ 4 : Nat) : Int) := by have := h.2; push_cast; omega
      exact ⟨putInt, _, .of_ne (by decide) rfl (packSigned_int hlo hhi) rfl
        (readSigned_reads hlo hhi)⟩
    | _ => exact absurd h id
  | long =>
    cases v with
    | int i =>
      have hlo : -((256 ^ 8 : Nat) : Int) ≤ 2 * i := by have := h.1; push_cast; omega
      have hhi : 2 * i < ((256 ^ 8 : Nat) : Int) := by have := h.2; push_cast; omega
      exact ⟨putLong, _, .of_ne (by decide) rfl (packSigned_int hlo hhi) rfl
        (readSigned_reads hlo hhi)⟩
    | _ => exact absurd h id
  | bool =>
    cases v with
    | bool b =>
      have hwritten : putBool (.bool b) = .ok [if b then 1 else 0] := by cases b <;> rfl
      exact ⟨putBool, _, .of_ne (by decide) rfl hwritten rfl (readBool_reads b)⟩
    | _ => exact absurd h id
  | byte =>
    cases v with
    | int i =>
      obtain ⟨hlo, hhi⟩ := h
      have hwritten : putByte (.int i) = .ok [UInt8.ofNat i.toNat] := by
        simp only [putByte, PyValue.asInt]
        rw [if_pos ⟨hlo, by omega⟩]
      exact ⟨putByte, _, .of_ne (by decide) rfl hwritten rfl (readByte_reads hlo (by omega))⟩
    | _ => exact absurd h id
  | str =>
    cases v with
    | str s =>
      have hvalue : textValue s = .str s := if_neg h.1
      exact ⟨putString, stringBytes s, .of_ne (by decide) rfl (putString_str s) rfl
        (hvalue ▸ readString_reads h.2)⟩
    | _ => exact absurd h id
  | bytes =>
    cases v with
    | bytes bs =>
      exact ⟨putBytes, _, .of_ne (by decide) rfl (putBytes_bytes h) rfl (readBytes_reads h)⟩
    | _ => exact absurd h id
  | dict =>
    obtain ⟨text, hdumps, hloads, hnul⟩ := h
    obtain ⟨bs, hput, hread⟩ := putDict_reads hdumps hloads hnul
    exact ⟨putDict lib, bs, .of_ne (by decide) rfl hput rfl hread⟩
  | socket => exact ⟨nop, [], rfl, rfl, fun h => absurd rfl h, fun _ => rfl⟩
  | short => exact absurd h (by cases v <;> exact id)
  | list => exact absurd h (by cases v <;> exact id)

/-- The arguments the handler sees: a socket parameter is the receiving socket. -/
def received (sock : PyValue) (types : List ArgType) (values : List PyValue) : List PyValue :=
  List.zipWith (fun t v => if t = .socket then sock else v) types values

/-- The induction behind the payload round trip: the arguments still to be read
    start wherever the ones already read ended. -/
theorem receiveArgs_spec {lib : JsonLib} {types : List ArgType} {values : List PyValue}
    (h : List.Forall₂ (InRange lib) types values) (sock : PyValue) :
    ∃ writers payload, types.mapM (argConvertTable lib) = some writers ∧
      writers.length = values.length ∧ convertArgs writers values = .ok payload ∧
      ∀ pre post : Bytes, receiveArgs sock (types.map (argReadTable lib))
        (some (pre ++ (payload ++ post))) pre.length =
          .ok (received sock types values, pre.length + payload.length) := by
  induction h with
  | nil => exact ⟨[], [], rfl, rfl, rfl, by intro pre post; simp [receiveArgs, received]; rfl⟩
  | @cons t v types values hv _ ih =>
    obtain ⟨f, bs, hex⟩ := hv.exchanged
    obtain ⟨writers, payload, hwriters, hlen, hconvert, hread⟩ := ih
    refine ⟨f :: writers, bs ++ payload, ?_, by simp [hlen], ?_, ?_⟩
    · simp [List.mapM_cons, hex.writer, hwriters]
    · unfold convertArgs
      rw [hex.written, bind_ok, hconvert, bind_ok]
      rfl
    · intro pre post
      have hshift : pre ++ (bs ++ payload ++ post) = (pre ++ bs) ++ (payload ++ post) := by simp
      have hrest := hread (pre ++ bs) post
      rw [← hshift] at hrest
      by_cases hsock : t = .socket
      · have hbs : bs = [] := hex.unsent hsock
        subst hsock hbs
        simp only [List.append_nil, List.nil_append] at hrest ⊢
        simp only [List.map_cons, argReadTable, receiveArgs]
        rw [hrest, bind_ok]
        simp [received, pure, Except.pure]
      · obtain ⟨g, htable, hg⟩ := hex.read hsock
        have hvalue := hg pre (payload ++ post)
        rw [← List.append_assoc bs] at hvalue
        have hidx : ((pre ++ bs).length : Int) = pre.length + bs.length := by simp
        rw [hidx] at hrest
        simp only [List.map_cons, htable, receiveArgs]
        rw [hvalue, bind_ok, hrest, bind_ok]
        simp [received, hsock, pure, Except.pure, add_assoc]

/-- **Argument payloads come back.**  The payload the call function of a signature
    builds from values in range is read by the receive function of the same
    signature as the same values, and the reading ends exactly at its end. -/
theorem payload_round_trip (lib : JsonLib) {types : List ArgType} {values : List PyValue}
    (h : List.Forall₂ (InRange lib) types values) (defaultArgs : Option (List PyValue))
    (argIndex : List (String × Nat)) (kwargs : List (String × PyValue)) (sock : PyValue) :
    ∃ writers payload, types.mapM (argConvertTable lib) = some writers ∧
      createCallFunction writers defaultArgs argIndex values kwargs = .ok payload ∧
      createReceiveFunction (types.map (argReadTable lib)) (some payload) sock =
        .ok (received sock types values) ∧
      receiveArgs sock (types.map (argReadTable lib)) (some payload) 0 =
        .ok (received sock types values, (payload.length : Int)) := by
  obtain ⟨writers, payload, hwriters, hlen, hconvert, hread⟩ := receiveArgs_spec h sock
  have hall := hread [] []
  simp only [List.nil_append, List.append_nil, List.length_nil, Nat.cast_zero, zero_add] at hall
  refine ⟨writers, payload, hwriters, ?_, ?_, hall⟩
  · unfold createCallFunction bindArgs
    rw [if_pos hlen.symm]
    exact hconvert
  · unfold createReceiveFunction
    rw [hall, bind_ok]
    rfl

/-- A `json` module on the one document `{"a": 1}`, whose value is the object 1. -/
def oneDocument : JsonLib where
  dumps indent v :=
    if indent = none ∧ v = .obj ⟨1, some true, some 1⟩ then .ok "\x7b\"a\": 1\x7d"
    else .error .typeError
  loads s :=
    if s = "\x7b\"a\": 1\x7d" then .ok (.obj ⟨1, some true, some 1⟩) else .error .valueError
  loads_empty := by intro v h; simp at h
  dumps_error := by
    intro indent v e h
    split at h <;> cases h
    rfl
  loads_error := by
    intro s e h
    split at h <;> cases h
    rfl

theorem payload_round_trip_all_types :
    ∃ writers payload,
      [ArgType.int, .long, .bool, .byte, .str, .bytes, .dict, .socket].mapM
        (argConvertTable oneDocument) = some writers ∧
      createCallFunction writers none [] [.int (-5), .int 7, .bool true, .int 255, .str "hé",
        .bytes [0, 1], .obj ⟨1, some true, some 1⟩, .sock 3] [] = .ok payload ∧
      createReceiveFunction
        ([ArgType.int, .long, .bool, .byte, .str, .bytes, .dict, .socket].map
          (argReadTable oneDocument)) (some payload) (.sock 4) =
        .ok [.int (-5), .int 7, .bool true, .int 255, .str "hé", .bytes [0, 1],
          .obj ⟨1, some true, some 1⟩, .sock 4] ∧
      receiveArgs (.sock 4)
        ([ArgType.int, .long, .bool, .byte, .str, .bytes, .dict, .socket].map
          (argReadTable oneDocument)) (some payload) 0 =
        .ok ([.int (-5), .int 7, .bool true, .int 255, .str "hé", .bytes [0, 1],
          .obj ⟨1, some true, some 1⟩, .sock 4], (payload.length : Int)) := by
  have h : List.Forall₂ (InRange oneDocument)
      [.int, .long, .bool, .byte, .str, .bytes, .dict, .socket]
      [.int (-5), .int 7, .bool true, .int 255, .str "hé", .bytes [0, 1],
        .obj ⟨1, some true, some 1⟩, .sock 3] := by
    simp only [List.forall₂_cons, InRange, true_and]
    refine ⟨by decide, by decide, by decide, ⟨by decide, Or.inl (by decide)⟩, by decide, ?_, .nil⟩
    exact ⟨"\x7b\"a\": 1\x7d", rfl, rfl, by decide⟩
  exact payload_round_trip oneDocument h none [] [] (.sock 4)

end Albatross.Marshal
