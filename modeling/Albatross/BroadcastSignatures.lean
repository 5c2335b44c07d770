/-
  Albatross/BroadcastSignatures.lean
  ==================================
  **Which broadcast signatures can be decoded** (`rpc_client.py`: `RpcMeta.__new__`;
  `rpc_common.py`: `create_receive_function`, `EnumResultReader`).

  The metaclass accepts every type its reader table has, and every enumeration built on
  one.  The loop of a receive function expects each reader to take a payload and an index
  and to return a value and the next index.  Two of the readers do not fit it:
  `EnumResultReader` is called with one argument too few, and `read_short` hands on the
  tuple of `struct.unpack`.  Of the others only `read_string` can lose a value
  (`broadcast_decodes_iff`).
-/
import Albatross.Signatures
import Albatross.StringFields

namespace Albatross.Signatures

open Python LittleEndian Marshal

/-! ### The loop over the annotations of a broadcast -/

/-- `arg_read_tables[arg_type]`; `none` where that raises `KeyError`. -/
def baseReader (lib : JsonLib) (floats : FloatLib) : BaseType → Option Parser
  | .arg t => some (argReadTable lib t)
  | .float => some (.read floats.readFloat)
  | .double => some (.read floats.readDouble)
  | .other => none

/-- `EnumResultReader.__call__` takes `(cmd, idx, data)`, and a call with a payload and an
    index only raises `TypeError` before its body runs. -/
def enumResultReader : Reader := fun _ _ => throw .typeError

def argReader (lib : JsonLib) (floats : FloatLib) : Annotation → Option Parser
  | .base t => baseReader lib floats t
  | .enum e => (baseReader lib floats e.base).map fun _ => .read enumResultReader

def rpcMetaReaders (lib : JsonLib) (floats : FloatLib) :
    List (String × Annotation) → List Parser → Option (List Parser)
  | [], args => some args
  | (name, argType) :: annotations, args =>
      if name = "return" then some args
      else do
        let f ← argReader lib floats argType
        rpcMetaReaders lib floats annotations (args ++ [f])

/-- The readers of a declared broadcast; `none` where the class is refused. -/
def Signature.rpcMetaBroadcast (lib : JsonLib) (floats : FloatLib) (sig : Signature) :
    Option (List Parser) :=
  rpcMetaReaders lib floats sig.annotations []

/-- The loop collects one reader for each parameter and stops at the result. -/
theorem rpcMetaReaders_spec {lib : JsonLib} {floats : FloatLib} {ret : Option Annotation}
    {params : List Param} (hreserved : ∀ p ∈ params, p.name ≠ "return") (args : List Parser) :
    rpcMetaReaders lib floats (params.map (fun p => (p.name, p.type)) ++
        ret.toList.map fun t => ("return", t)) args =
      (params.mapM fun p => argReader lib floats p.type).map (args ++ ·) := by
  induction params generalizing args with
  | nil => cases ret <;> simp [rpcMetaReaders]
  | cons p params ih =>
    obtain ⟨hp, hparams⟩ := List.forall_mem_cons.mp hreserved
    rw [List.map_cons, List.cons_append, rpcMetaReaders, if_neg hp, List.mapM_cons]
    cases argReader lib floats p.type with
    | none => rfl
    | some f =>
      simp only [Option.bind_eq_bind, Option.bind_some, ih hparams]
      cases params.mapM fun p => argReader lib floats p.type <;> simp

theorem Signature.rpcMetaBroadcast_eq (lib : JsonLib) (floats : FloatLib) (sig : Signature) :
    sig.rpcMetaBroadcast lib floats = sig.params.mapM fun p => argReader lib floats p.type := by
  have hreserved : ∀ p ∈ sig.params, p.name ≠ "return" := fun p hp => (sig.not_reserved p hp).1
  rw [rpcMetaBroadcast, annotations, rpcMetaReaders_spec hreserved]
  simp

/-! ### Values and their encodings -/

/-- `bs` is the encoding of `v`, a value of the type.  A `str | None` may be `None`; a `dict`
    or a `list` is sent as its JSON text, in which a NUL is escaped. -/
inductive Encodes (lib : JsonLib) : Annotation → PyValue → Bytes → Prop
  | int {i : Int} (hlo : -2 ^ 31 ≤ i) (hhi : i < 2 ^ 31) :
      Encodes lib (.base (.arg .int)) (.int i) (toLESigned 4 i)
  | long {i : Int} (hlo : -2 ^ 63 ≤ i) (hhi : i < 2 ^ 63) :
      Encodes lib (.base (.arg .long)) (.int i) (toLESigned 8 i)
  | short {i : Int} (hlo : -2 ^ 15 ≤ i) (hhi : i < 2 ^ 15) :
      Encodes lib (.base (.arg .short)) (.int i) (toLESigned 2 i)
  | byte {i : Int} (hlo : 0 ≤ i) (hhi : i < 256) :
      Encodes lib (.base (.arg .byte)) (.int i) [UInt8.ofNat i.toNat]
  | bool (b : Bool) : Encodes lib (.base (.arg .bool)) (.bool b) [if b then 1 else 0]
  | str (s : String) : Encodes lib (.base (.arg .str)) (.str s) (stringBytes s)
  | noStr : Encodes lib (.base (.arg .str)) .none [0, 0]
  | bytes {bs : Bytes} (hlen : bs.length < 2 ^ 31) :
      Encodes lib (.base (.arg .bytes)) (.bytes bs) (toLESigned 4 bs.length ++ bs)
  | json {t : ArgType} (ht : t = .dict ∨ t = .list) {v : PyValue} {text : String}
      (hdumps : lib.dumps none v = .ok text) (hloads : lib.loads text = .ok v)
      (hnul : Char.ofNat 0 ∉ text.toList) : Encodes lib (.base (.arg t)) v (stringBytes text)
  | socket (s : Nat) : Encodes lib (.base (.arg .socket)) (.sock s) []
  | enum {e : EnumType} {t : ArgType} (hbase : e.base = .arg t)
      (ht : t = .int ∨ t = .byte ∨ t = .str) {v : PyValue} (hv : v ∈ e.values) {bs : Bytes}
      (h : Encodes lib (.base (.arg t)) v bs) : Encodes lib (.enum e) v bs

/-- The reader of the type gives the value back: it is no enumeration and no `short`, and a
    text is not empty and has no zero byte where its end is looked for. -/
def Decodable : Annotation → PyValue → Prop
  | .enum _, _ => False
  | .base (.arg .short), _ => False
  | .base (.arg .str), .str s =>
      s ≠ "" ∧ ((utf8 s).length < 65535 ∨ (0 : UInt8) ∉ (utf8 s).drop 65535)
  | _, _ => True

/-- `f` does not give `v` where `bs` stands in a payload. -/
def Misreads (f : Reader) (bs : Bytes) (v : PyValue) : Prop :=
  ∀ (pre post : Bytes) (idx : Int), f (pre ++ (bs ++ post)) pre.length ≠ .ok (v, idx)

/-! ### The readers one by one -/

section Readers

variable {lib : JsonLib}

theorem Misreads.of_reads {f : Reader} {bs : Bytes} {v w : PyValue} (h : Reads f bs w)
    (hne : w ≠ v) : Misreads f bs v := by
  intro pre post idx hread
  rw [h pre post] at hread
  exact hne (congrArg Prod.fst (Except.ok.inj hread))

theorem readShort_reads {i : Int} (hlo : -2 ^ 15 ≤ i) (hhi : i < 2 ^ 15) :
    Reads readShort (toLESigned 2 i) (.tuple [i]) := by
  intro pre post
  have hslice : slice (pre ++ (toLESigned 2 i ++ post)) pre.length (pre.length + 2) =
      toLESigned 2 i := slice_middle pre _ _ rfl (by rw [length_toLESigned]; rfl)
  have hunpack : unpackSigned 2 (toLESigned 2 i) = .ok i := by
    apply unpackSigned_toLESigned <;> push_cast <;> omega
  unfold readShort
  rw [hslice, hunpack, bind_ok, length_toLESigned]
  rfl

theorem readString_misreads {s : String} (hne : s ≠ "") (hno : ¬ TextOk s) :
    Misreads readString (stringBytes s) (.str s) := by
  intro pre post idx hread
  obtain ⟨k, hk, hcut⟩ := readString_stringBytes_cut hne hno pre post
  have hvalue := congrArg Prod.fst (Except.ok.inj (hcut.symm.trans hread))
  simp only [PyValue.str.injEq] at hvalue
  cases hdecode : utf8Decode ((utf8 s).take k) with
  | some t =>
    rw [hdecode, Option.getD_some] at hvalue
    subst hvalue
    have hlength := congrArg List.length (utf8_of_utf8Decode hdecode)
    rw [List.length_take] at hlength
    omega
  | none =>
    -- the text has a NUL, the literal of its bytes has none
    rw [hdecode, Option.getD_none] at hvalue
    apply nul_notMem_reprBytes ((utf8 s).take k)
    rw [hvalue]
    exact zero_mem_utf8 (List.mem_of_mem_drop (not_not.mp (not_or.mp hno).2))

/-- The reader gives the value back if and only if it is decodable. -/
structure Faithful (t : Annotation) (v : PyValue) (bs : Bytes) (f : Reader) : Prop where
  reads : Decodable t v → Reads f bs v
  misreads : ¬ Decodable t v → Misreads f bs v

theorem Faithful.of_reads {t : Annotation} {v : PyValue} {bs : Bytes} {f : Reader}
    (hdec : Decodable t v) (h : Reads f bs v) : Faithful t v bs f :=
  ⟨fun _ => h, fun hno => absurd hdec hno⟩

theorem Faithful.of_misreads {t : Annotation} {v : PyValue} {bs : Bytes} {f : Reader}
    (hno : ¬ Decodable t v) (h : Misreads f bs v) : Faithful t v bs f :=
  ⟨fun hdec => absurd hdec hno, fun _ => h⟩

theorem readString_faithful (s : String) :
    Faithful (.base (.arg .str)) (.str s) (stringBytes s) readString := by
  refine ⟨fun hok => ?_, fun hno => ?_⟩
  · have hvalue : textValue s = .str s := if_neg hok.1
    exact hvalue ▸ readString_reads hok.2
  · by_cases hne : s = ""
    · subst hne
      exact Misreads.of_reads (readString_reads (Or.inl (by decide))) nofun
    · exact readString_misreads hne fun hok => hno ⟨hne, hok⟩

/-- Either the parameter is the socket, which nothing is sent for, or it has a faithful reader. -/
theorem Encodes.reader {t : Annotation} {v : PyValue} {bs : Bytes} (h : Encodes lib t v bs)
    (floats : FloatLib) :
    ∃ parser, argReader lib floats t = some parser ∧
      ((t = .base (.arg .socket) ∧ parser = .socket ∧ bs = []) ∨
        t ≠ .base (.arg .socket) ∧ ∃ f, parser = .read f ∧ Faithful t v bs f) := by
  cases h with
  | int hlo hhi =>
    refine ⟨_, rfl, Or.inr ⟨nofun, readInt, rfl, .of_reads trivial ?_⟩⟩
    apply readSigned_reads <;> push_cast <;> omega
  | long hlo hhi =>
    refine ⟨_, rfl, Or.inr ⟨nofun, readLong, rfl, .of_reads trivial ?_⟩⟩
    apply readSigned_reads <;> push_cast <;> omega
  | short hlo hhi =>
    refine ⟨_, rfl, Or.inr ⟨nofun, readShort, rfl, .of_misreads id ?_⟩⟩
    exact Misreads.of_reads (readShort_reads hlo hhi) nofun
  | byte hlo hhi =>
    exact ⟨_, rfl, Or.inr ⟨nofun, readByte, rfl, .of_reads trivial (readByte_reads hlo hhi)⟩⟩
  | bool b =>
    exact ⟨_, rfl, Or.inr ⟨nofun, readBool, rfl, .of_reads trivial (readBool_reads b)⟩⟩
  | str s => exact ⟨_, rfl, Or.inr ⟨nofun, readString, rfl, readString_faithful s⟩⟩
  | noStr =>
    refine ⟨_, rfl, Or.inr ⟨nofun, readString, rfl, .of_reads trivial ?_⟩⟩
    exact readString_reads (s := "") (Or.inl (by decide))
  | bytes hlen =>
    exact ⟨_, rfl, Or.inr ⟨nofun, readBytes, rfl, .of_reads trivial (readBytes_reads hlen)⟩⟩
  | json ht hdumps hloads hnul =>
    rcases ht with rfl | rfl
    all_goals
      refine ⟨_, rfl, Or.inr ⟨nofun, readJson lib, rfl, .of_reads trivial ?_⟩⟩
      exact readJson_reads hloads hnul
  | socket s => exact ⟨_, rfl, Or.inl ⟨rfl, rfl, rfl⟩⟩
  | @enum e t hbase _ v _ bs _ =>
    refine ⟨.read enumResultReader, ?_, Or.inr ⟨nofun, _, rfl, .of_misreads id ?_⟩⟩
    · rw [argReader, hbase]
      rfl
    · intro pre post idx hread
      cases hread

end Readers

/-! ### Whole signatures -/

/-- What the handler should see: a socket parameter is the receiving socket. -/
def receivedArg (sock : PyValue) : Annotation → PyValue → PyValue
  | .base (.arg .socket), _ => sock
  | _, v => v

theorem receivedArg_of_ne {sock v : PyValue} {t : Annotation} (h : t ≠ .base (.arg .socket)) :
    receivedArg sock t v = v := by
  unfold receivedArg
  split
  · exact absurd rfl h
  · rfl

def receivedArgs (sock : PyValue) (params : List Param) (args : List (PyValue × Bytes)) :
    List PyValue :=
  List.zipWith (fun p arg => receivedArg sock p.type arg.1) params args

section Decoding

variable {lib : JsonLib} {params : List Param} {args : List (PyValue × Bytes)}

/-- A list comes out of the loop when its head and its tail do. -/
theorem exists_cons_ok_iff {x : Except PyExn (List PyValue × Int)} {v w : PyValue}
    {vs : List PyValue} :
    (∃ idx, (x >>= fun r => (Except.ok (v :: r.1, r.2) : Except PyExn _)) = .ok (w :: vs, idx)) ↔
      v = w ∧ ∃ idx, x = .ok (vs, idx) := by
  cases x with
  | error e => exact iff_of_false (fun ⟨_, h⟩ => nomatch h) (fun ⟨_, _, h⟩ => nomatch h)
  | ok r =>
    obtain ⟨rs, idx⟩ := r
    simp only [bind_ok, Except.ok.injEq, Prod.mk.injEq, List.cons.injEq]
    tauto

/-- The induction behind it: as long as the values are read back, the next one starts where its
    encoding does, and the first that is not spoils the list. -/
theorem receiveArgs_iff (floats : FloatLib) (sock : PyValue)
    (h : List.Forall₂ (fun p arg => Encodes lib p.type arg.1 arg.2) params args) :
    ∃ parsers, (params.mapM fun p => argReader lib floats p.type) = some parsers ∧
      ∀ pre post : Bytes,
        (∃ idx,
          receiveArgs sock parsers (some (pre ++ (args.flatMap Prod.snd ++ post))) pre.length =
            .ok (receivedArgs sock params args, idx)) ↔
        List.Forall₂ (fun p arg => Decodable p.type arg.1) params args := by
  induction h with
  | nil => exact ⟨[], rfl, fun pre post => iff_of_true ⟨_, rfl⟩ .nil⟩
  | @cons p arg params args henc hrest ih =>
    obtain ⟨v, bs⟩ := arg
    obtain ⟨parser, hparser, hread⟩ := henc.reader floats
    obtain ⟨parsers, hparsers, ih⟩ := ih
    refine ⟨parser :: parsers, ?_, fun pre post => ?_⟩
    · rw [List.mapM_cons, hparser, hparsers]
      rfl
    · rw [List.flatMap_cons, List.forall₂_cons]
      rcases hread with ⟨hsocket, rfl, rfl⟩ | ⟨hsocket, f, rfl, hfaithful⟩
      · have hvalue : receivedArg sock p.type v = sock := by rw [hsocket]; rfl
        have hdec : Decodable p.type v := by rw [hsocket]; trivial
        rw [List.nil_append, receivedArgs, List.zipWith_cons_cons, hvalue]
        exact exists_cons_ok_iff.trans (and_congr (iff_of_true rfl hdec) (ih pre post))
      · rw [receivedArgs, List.zipWith_cons_cons, receivedArg_of_ne hsocket]
        unfold receiveArgs
        dsimp only
        have hshift : pre ++ (bs ++ args.flatMap Prod.snd ++ post) =
            pre ++ (bs ++ (args.flatMap Prod.snd ++ post)) := by rw [List.append_assoc bs]
        rw [hshift]
        by_cases hdec : Decodable p.type v
        · have hidx : (pre.length : Int) + bs.length = (pre ++ bs).length := by simp
          rw [hfaithful.reads hdec pre, bind_ok]
          dsimp only
          rw [hidx, ← List.append_assoc pre]
          exact exists_cons_ok_iff.trans (and_congr (iff_of_true rfl hdec) (ih (pre ++ bs) post))
        · refine iff_of_false ?_ fun hall => hdec hall.1
          have hmis := hfaithful.misreads hdec pre (args.flatMap Prod.snd ++ post)
          cases hf : f (pre ++ (bs ++ (args.flatMap Prod.snd ++ post))) pre.length with
          | error e =>
            rintro ⟨_, h⟩
            cases h
          | ok r =>
            obtain ⟨w, idx⟩ := r
            rw [bind_ok]
            intro hok
            obtain ⟨rfl, -⟩ := exists_cons_ok_iff.mp hok
            exact hmis idx hf

/-- **Which broadcasts are decoded**: for values of the declared types, the receive function gives
    the values back exactly when no parameter is a `short` or an enumeration, no text is empty
    and no text has a zero byte from byte 65535 on. -/
theorem broadcast_decodes_iff (floats : FloatLib) (sig : Signature)
    (h : List.Forall₂ (fun p arg => Encodes lib p.type arg.1 arg.2) sig.params args)
    (sock : PyValue) :
    ∃ parsers, sig.rpcMetaBroadcast lib floats = some parsers ∧
      (createReceiveFunction parsers (some (args.flatMap Prod.snd)) sock =
          .ok (receivedArgs sock sig.params args) ↔
        List.Forall₂ (fun p arg => Decodable p.type arg.1) sig.params args) := by
  obtain ⟨parsers, hparsers, hiff⟩ := receiveArgs_iff floats sock h
  refine ⟨parsers, by rw [sig.rpcMetaBroadcast_eq, hparsers], ?_⟩
  have hall := hiff [] []
  rw [List.nil_append, List.append_nil, List.length_nil, Nat.cast_zero] at hall
  rw [← hall, createReceiveFunction]
  cases receiveArgs sock parsers (some (args.flatMap Prod.snd)) 0 with
  | error e => exact iff_of_false nofun (fun ⟨_, h⟩ => nomatch h)
  | ok r =>
    obtain ⟨values, idx⟩ := r
    rw [bind_ok]
    simp only [pure, Except.pure, Except.ok.injEq, Prod.mk.injEq, exists_and_left,
      exists_eq', and_true]

end Decoding

/-- `def tick(client, name: str, level: int)`. -/
def tickSignature : Signature where
  required := [⟨"name", .base (.arg .str)⟩, ⟨"level", .base (.arg .int)⟩]
  optional := []
  ret := none
  names_nodup := by decide
  not_reserved := by decide

theorem broadcast_decodes_iff_tick :
    ∃ parsers, tickSignature.rpcMetaBroadcast oneDocument noFloats = some parsers ∧
      (createReceiveFunction parsers (some [1, 0, 97, 0, 7, 0, 0, 0]) (.sock 4) =
          .ok [.str "a", .int 7] ↔
        List.Forall₂ (fun (p : Param) (arg : PyValue × Bytes) => Decodable p.type arg.1)
          tickSignature.params [(.str "a", [1, 0, 97, 0]), (.int 7, [7, 0, 0, 0])]) := by
  have hstr : stringBytes "a" = [1, 0, 97, 0] := by decide +kernel
  have hint : toLESigned 4 7 = [7, 0, 0, 0] := by decide
  have h : List.Forall₂ (fun (p : Param) (arg : PyValue × Bytes) =>
      Encodes oneDocument p.type arg.1 arg.2) tickSignature.params
      [(.str "a", [1, 0, 97, 0]), (.int 7, [7, 0, 0, 0])] := by
    rw [← hstr, ← hint]
    exact .cons (.str "a") (.cons (.int (by decide) (by decide)) .nil)
  exact broadcast_decodes_iff noFloats tickSignature h (.sock 4)

/-- `def tick(client, level: short)`. -/
def shortSignature : Signature where
  required := [⟨"level", .base (.arg .short)⟩]
  optional := []
  ret := none
  names_nodup := by decide
  not_reserved := by decide

/-- `def tick(client, level: Level)` for an enumeration of the integers 1 and 2. -/
def enumSignature : Signature where
  required := [⟨"level", .enum ⟨.arg .int, [.int 1, .int 2]⟩⟩]
  optional := []
  ret := none
  names_nodup := by decide
  not_reserved := by decide

/-- A `short` comes as a one-element tuple, and an enumeration raises; both signatures are
    accepted, and the payloads are encodings of the values. -/
theorem broadcast_not_decoded :
    (Encodes oneDocument (.base (.arg .short)) (.int 5) [5, 0] ∧
      shortSignature.rpcMetaBroadcast oneDocument noFloats = some [.read readShort] ∧
      createReceiveFunction [.read readShort] (some [5, 0]) (.sock 4) = .ok [.tuple [5]]) ∧
    (Encodes oneDocument (.enum ⟨.arg .int, [.int 1, .int 2]⟩) (.int 1) [1, 0, 0, 0] ∧
      enumSignature.rpcMetaBroadcast oneDocument noFloats = some [.read enumResultReader] ∧
      createReceiveFunction [.read enumResultReader] (some [1, 0, 0, 0]) (.sock 4) =
        .error .typeError) := by
  have hshort : toLESigned 2 5 = [5, 0] := by decide
  have hint : toLESigned 4 1 = [1, 0, 0, 0] := by decide
  refine ⟨⟨?_, rfl, by decide +kernel⟩, ?_, rfl, rfl⟩
  · rw [← hshort]
    exact .short (by decide) (by decide)
  · rw [← hint]
    exact .enum rfl (Or.inl rfl) (by decide) (.int (by decide) (by decide))

end Albatross.Signatures
