/-
  Albatross/Signatures.lean
  =========================
  **Declared signatures and the functions made from them** (`rpc_client.py`:
  `RpcMeta.__new__`; `rpc_common.py`: `create_call_function`).

  A class body declares its API functions and broadcasts by their annotations.  The
  metaclass walks these in the order they are written, collects a writer or a reader for
  each parameter and, for an API function, the position of each name.

  The call function merges what it is given with the defaults by position and then
  overwrites by name.  `Signature.bind` is Python's own rule for the same signature; where
  it accepts a call, the merge gives what the rule gives, unless a parameter without a
  default is passed by keyword (`callFunction_binds`).

  Floating point is left out of the values; what `struct` does with the two floating-point
  types is a parameter.
-/
import Albatross.Marshal
import Mathlib.Data.List.Forall2

namespace Albatross.Signatures

open Python Marshal

/-! ### Signatures -/

/-- A class of the argument tables; `other` is one that they lack. -/
inductive BaseType where
  | arg (t : ArgType)
  | float
  | double
  | other

/-- An `Enum` class: the type its members are built on (`get_enum_real_type`), and their
    values. -/
structure EnumType where
  base : BaseType
  values : List PyValue

/-- What a parameter or a result is annotated with. -/
inductive Annotation where
  | base (t : BaseType)
  | enum (e : EnumType)

structure Param where
  name : String
  type : Annotation

/-- A method's parameters after `client`, the optional ones with their defaults, and its
    result. -/
structure Signature where
  required : List Param
  optional : List (Param × PyValue)
  ret : Option Annotation
  names_nodup : ((required ++ optional.map Prod.fst).map Param.name).Nodup
  not_reserved : ∀ p ∈ required ++ optional.map Prod.fst, p.name ≠ "return" ∧ p.name ≠ "client"

def Signature.params (sig : Signature) : List Param :=
  sig.required ++ sig.optional.map Prod.fst

def Signature.names (sig : Signature) : List String := sig.params.map Param.name

/-- `__annotations__`. -/
def Signature.annotations (sig : Signature) : List (String × Annotation) :=
  sig.params.map (fun p => (p.name, p.type)) ++ sig.ret.toList.map fun t => ("return", t)

/-- `__defaults__`. -/
def Signature.defaults (sig : Signature) : Option (List PyValue) :=
  if sig.optional = [] then none else some (sig.optional.map Prod.snd)

/-! ### The loop over the annotations of an API function -/

/-- `put_float`, `put_double` and their readers. -/
structure FloatLib where
  putFloat : Writer
  putDouble : Writer
  readFloat : Reader
  readDouble : Reader

/-- `arg_convert_tables[arg_type]`; `none` where that raises `KeyError`. -/
def baseWriter (lib : JsonLib) (floats : FloatLib) : BaseType → Option Writer
  | .arg t => argConvertTable lib t
  | .float => some floats.putFloat
  | .double => some floats.putDouble
  | .other => none

/-- The writer of a parameter; an enumeration goes by the type it is built on. -/
def argWriter (lib : JsonLib) (floats : FloatLib) : Annotation → Option Writer
  | .base t => baseWriter lib floats t
  | .enum e => baseWriter lib floats e.base

def rpcMetaArgs (lib : JsonLib) (floats : FloatLib) :
    List (String × Annotation) → List (String × Nat) → List Writer →
    Option (List (String × Nat) × List Writer)
  | [], argIndex, args => some (argIndex, args)
  | (name, argType) :: annotations, argIndex, args =>
      let argIndex := argIndex ++ [(name, argIndex.length)]
      if name = "return" then some (argIndex, args)
      else do
        let f ← argWriter lib floats argType
        rpcMetaArgs lib floats annotations argIndex (args ++ [f])

/-- `arg_index` and the writers of a declared function. -/
def Signature.rpcMeta (lib : JsonLib) (floats : FloatLib) (sig : Signature) :
    Option (List (String × Nat) × List Writer) :=
  rpcMetaArgs lib floats sig.annotations [] []

/-- Every parameter adds its name and its writer, and `return` a name only. -/
theorem rpcMetaArgs_spec {lib : JsonLib} {floats : FloatLib} {ret : Option Annotation}
    {params : List Param}
    (hreserved : ∀ p ∈ params, p.name ≠ "return") {seen : List String} {args : List Writer}
    {argIndex : List (String × Nat)} {writers : List Writer}
    (h : rpcMetaArgs lib floats (params.map (fun p => (p.name, p.type)) ++
      ret.toList.map fun t => ("return", t)) seen.zipIdx args = some (argIndex, writers)) :
    argIndex = (seen ++ (params.map Param.name ++ ret.toList.map fun _ => "return")).zipIdx ∧
      ∃ added, writers = args ++ added ∧
        List.Forall₂ (fun p f => argWriter lib floats p.type = some f) params added := by
  induction params generalizing seen args with
  | nil =>
    cases ret with
    | none =>
      simp only [List.map_nil, Option.toList_none, List.append_nil, rpcMetaArgs,
        Option.some.injEq, Prod.mk.injEq] at h ⊢
      obtain ⟨rfl, rfl⟩ := h
      exact ⟨rfl, [], (List.append_nil args).symm, .nil⟩
    | some t =>
      simp only [List.map_nil, Option.toList_some, List.map_cons, List.nil_append, rpcMetaArgs,
        if_true, Option.some.injEq, Prod.mk.injEq] at h ⊢
      obtain ⟨rfl, rfl⟩ := h
      exact ⟨by simp [List.zipIdx_append], [], (List.append_nil args).symm, .nil⟩
  | cons p params ih =>
    obtain ⟨hp, hparams⟩ := List.forall_mem_cons.mp hreserved
    rw [List.map_cons, List.cons_append, rpcMetaArgs, if_neg hp, Option.bind_eq_bind,
      Option.bind_eq_some_iff] at h
    obtain ⟨f, hf, h⟩ := h
    have hseen : seen.zipIdx ++ [(p.name, seen.zipIdx.length)] = (seen ++ [p.name]).zipIdx := by
      simp [List.zipIdx_append]
    rw [hseen] at h
    obtain ⟨hindex, added, hwriters, hadded⟩ := ih hparams h
    refine ⟨?_, f :: added, ?_, .cons hf hadded⟩
    · rw [hindex]
      simp
    · rw [hwriters, List.append_assoc]
      rfl

/-! ### Python's binding rule -/

/-- The positional and the keyword arguments of a call; no keyword is given twice. -/
structure Call where
  args : List PyValue
  kwargs : List (String × PyValue)
  keys_nodup : (kwargs.map Prod.fst).Nodup

def Signature.slots (sig : Signature) : List (String × Option PyValue) :=
  sig.required.map (fun p => (p.name, none)) ++ sig.optional.map fun p => (p.1.name, some p.2)

/-- What a parameter that no positional argument reached is bound to; `none` where it is
    missing. -/
def Call.bindSlot (call : Call) (slot : String × Option PyValue) : Option PyValue :=
  (call.kwargs.lookup slot.1).or slot.2

/-- The values of the parameters, in the order they are declared; `none` where Python
    raises `TypeError`: too many positional arguments, a keyword that is no parameter or one
    that has its value already, a parameter without a value. -/
def Signature.bind (sig : Signature) (call : Call) : Option (List PyValue) :=
  if call.args.length ≤ sig.slots.length ∧
      ∀ key ∈ call.kwargs.map Prod.fst, key ∈ (sig.slots.drop call.args.length).map Prod.fst then
    ((sig.slots.drop call.args.length).mapM call.bindSlot).map (call.args ++ ·)
  else none

/-- A parameter without a default is passed by keyword. -/
def Signature.RequiredByKeyword (sig : Signature) (call : Call) : Prop :=
  ∃ p ∈ sig.required, p.name ∈ call.kwargs.map Prod.fst

instance (sig : Signature) (call : Call) : Decidable (sig.RequiredByKeyword call) :=
  inferInstanceAs (Decidable (∃ p ∈ sig.required, p.name ∈ call.kwargs.map Prod.fst))

theorem Signature.map_fst_slots (sig : Signature) : sig.slots.map Prod.fst = sig.names := by
  simp [slots, names, params, Function.comp_def]

theorem Signature.length_slots (sig : Signature) :
    sig.slots.length = sig.required.length + sig.optional.length := by
  simp [slots]

theorem Signature.drop_slots {sig : Signature} {k : Nat} (hk : sig.required.length ≤ k) :
    sig.slots.drop k =
      (sig.optional.drop (k - sig.required.length)).map fun p => (p.1.name, some p.2) := by
  rw [slots, List.drop_append, List.drop_of_length_le (by simpa using hk), List.nil_append,
    List.length_map, List.map_drop]

/-! ### Keyword arguments -/

theorem lookup_zipIdx {names : List String} (hnodup : names.Nodup) {i : Nat}
    (hi : i < names.length) (n : Nat) : (names.zipIdx n).lookup names[i] = some (n + i) := by
  induction names generalizing i n with
  | nil => cases hi
  | cons name names ih =>
    rw [List.nodup_cons] at hnodup
    cases i with
    | zero => simp [List.zipIdx_cons]
    | succ i =>
      have hi' : i < names.length := Nat.lt_of_succ_lt_succ hi
      have hne : (names[i] == name) = false := by
        rw [beq_eq_false_iff_ne]
        rintro rfl
        exact hnodup.1 (List.getElem_mem hi')
      rw [List.getElem_cons_succ, List.zipIdx_cons, List.lookup_cons, hne, ih hnodup.2 hi',
        Nat.add_right_comm]
      rfl

theorem lookup_eq_none_of_notMem {k : String} {kwargs : List (String × PyValue)}
    (h : k ∉ kwargs.map Prod.fst) : kwargs.lookup k = none := by
  rw [List.lookup_eq_none_iff]
  intro p hp
  rw [bne_iff_ne]
  rintro rfl
  exact h (List.mem_map_of_mem hp)

/-- What the keyword arguments make of values that stand for the parameters. -/
def override (kwargs : List (String × PyValue)) (names : List String) (values : List PyValue) :
    List PyValue :=
  List.zipWith (fun name v => (kwargs.lookup name).getD v) names values

theorem override_of_notMem {kwargs : List (String × PyValue)} {names : List String}
    {values : List PyValue} (h : ∀ name ∈ names, name ∉ kwargs.map Prod.fst)
    (hlen : values.length = names.length) : override kwargs names values = values := by
  apply List.ext_getElem
  · simp [override, hlen]
  · intro i hi hi'
    have hname := h names[i] (List.getElem_mem (hlen ▸ hi'))
    simp only [override, List.getElem_zipWith, lookup_eq_none_of_notMem hname, Option.getD_none]

theorem bindKwargs_spec {argIndex : List (String × Nat)} {names : List String}
    (hindex : ∀ i (hi : i < names.length), argIndex.lookup names[i] = some i)
    {kwargs : List (String × PyValue)} (hkeys : ∀ k ∈ kwargs.map Prod.fst, k ∈ names)
    (hnodup : (kwargs.map Prod.fst).Nodup) {newArgs : List PyValue}
    (hlen : newArgs.length = names.length) :
    bindKwargs argIndex kwargs newArgs =
      .ok (override kwargs names newArgs) := by
  induction kwargs generalizing newArgs with
  | nil =>
    rw [override_of_notMem (fun _ _ => List.not_mem_nil) hlen]
    rfl
  | cons kv kwargs ih =>
    obtain ⟨k, v⟩ := kv
    rw [List.map_cons, List.nodup_cons] at hnodup
    obtain ⟨hk, hrest⟩ := List.forall_mem_cons.mp hkeys
    obtain ⟨i, hi, rfl⟩ := List.getElem_of_mem hk
    have hi' : i < newArgs.length := hlen ▸ hi
    simp only [bindKwargs, hindex i hi, if_pos hi']
    rw [ih hrest hnodup.2 (by rw [List.length_set, hlen])]
    congr 1
    apply List.ext_getElem
    · simp [override]
    · intro j hj hj'
      have hjn : j < names.length := by
        rw [override, List.length_zipWith] at hj
        omega
      simp only [override]
      rw [List.getElem_zipWith, List.getElem_zipWith, List.lookup_cons]
      by_cases hij : i = j
      · subst hij
        rw [lookup_eq_none_of_notMem hnodup.1]
        simp
      · -- the index map has one position for each name
        have hne : (names[j] == names[i]) = false := by
          rw [beq_eq_false_iff_ne]
          intro hname
          have hsame := (hindex i hi).symm.trans (hname ▸ hindex j hjn)
          exact hij (Option.some.inj hsame)
        rw [hne, List.getElem_set_ne hij]

/-- Every parameter has a writer, and its name is found at its position. -/
theorem Signature.rpcMeta_spec {lib : JsonLib} {floats : FloatLib} {sig : Signature}
    {argIndex : List (String × Nat)} {writers : List Writer}
    (h : sig.rpcMeta lib floats = some (argIndex, writers)) :
    (∀ i (hi : i < sig.names.length), argIndex.lookup sig.names[i] = some i) ∧
      List.Forall₂ (fun p f => argWriter lib floats p.type = some f) sig.params writers := by
  have hloop : rpcMetaArgs lib floats (sig.params.map (fun p => (p.name, p.type)) ++
      sig.ret.toList.map fun t => ("return", t)) ([] : List String).zipIdx [] =
        some (argIndex, writers) := h
  have hreserved : ∀ p ∈ sig.params, p.name ≠ "return" := fun p hp => (sig.not_reserved p hp).1
  have hnodup : sig.names.Nodup := sig.names_nodup
  obtain ⟨hindex, added, rfl, hadded⟩ := rpcMetaArgs_spec hreserved hloop
  refine ⟨fun i hi => ?_, hadded⟩
  rw [hindex, List.nil_append, ← names, List.zipIdx_append, List.lookup_append,
    lookup_zipIdx hnodup hi, Nat.zero_add]
  rfl

/-! ### Agreement with the rule -/

section Binding

variable {sig : Signature} {call : Call} {values : List PyValue}

theorem Call.length_mapM {call : Call} {slots : List (String × Option PyValue)}
    (h : slots.mapM call.bindSlot = some values) : values.length = slots.length := by
  induction slots generalizing values with
  | nil =>
    cases h
    rfl
  | cons slot slots ih =>
    rw [List.mapM_cons, Option.bind_eq_bind, Option.bind_eq_some_iff] at h
    obtain ⟨v, -, h⟩ := h
    obtain ⟨rest, hrest, h⟩ := Option.bind_eq_some_iff.mp h
    cases h
    exact congrArg (· + 1) (ih hrest)

theorem Signature.bind_eq_some (h : sig.bind call = some values) :
    call.args.length ≤ sig.slots.length ∧
      (∀ key ∈ call.kwargs.map Prod.fst, key ∈ sig.names.drop call.args.length) ∧
      ∃ rest, (sig.slots.drop call.args.length).mapM call.bindSlot = some rest ∧
        values = call.args ++ rest := by
  unfold Signature.bind at h
  obtain ⟨⟨hle, hkeys⟩, h⟩ := Option.ite_none_right_eq_some.mp h
  obtain ⟨rest, hrest, rfl⟩ := Option.map_eq_some_iff.mp h
  refine ⟨hle, ?_, rest, hrest, rfl⟩
  rw [← sig.map_fst_slots, ← List.map_drop]
  exact hkeys

theorem Signature.length_bind (h : sig.bind call = some values) :
    values.length = sig.params.length := by
  obtain ⟨hle, -, rest, hrest, rfl⟩ := bind_eq_some h
  have hslots : sig.slots.length = sig.params.length := by
    rw [← List.length_map (f := Prod.fst), sig.map_fst_slots, names, List.length_map]
  rw [List.length_append, Call.length_mapM hrest, List.length_drop]
  omega

/-- In an accepted call a required parameter goes by keyword exactly when the positional
    arguments do not reach all of them. -/
theorem Signature.requiredByKeyword_iff (h : sig.bind call = some values) :
    sig.RequiredByKeyword call ↔ call.args.length < sig.required.length := by
  obtain ⟨-, hkeys, rest, hrest, -⟩ := bind_eq_some h
  constructor
  · rintro ⟨p, hp, hkey⟩
    by_contra hle
    have hoptional := hkeys p.name hkey
    rw [← sig.map_fst_slots, ← List.map_drop, drop_slots (Nat.not_lt.mp hle), List.map_map]
      at hoptional
    obtain ⟨q, hq, hname⟩ := List.mem_map.mp hoptional
    have hdisjoint := (List.nodup_append.mp (List.map_append ▸ sig.names_nodup)).2.2
    exact hdisjoint p.name (List.mem_map_of_mem hp) q.1.name
      (List.mem_map_of_mem (List.mem_map_of_mem (List.mem_of_mem_drop hq))) hname.symm
  · intro hlt
    -- the first parameter that is not reached has no default, so it needs a keyword
    have hrequired : sig.required.drop call.args.length =
        sig.required[call.args.length] :: sig.required.drop (call.args.length + 1) :=
      List.drop_eq_getElem_cons hlt
    rw [slots, List.drop_append_of_le_length (by simpa using hlt.le), ← List.map_drop, hrequired,
      List.map_cons, List.cons_append, List.mapM_cons, Option.bind_eq_bind,
      Option.bind_eq_some_iff] at hrest
    obtain ⟨v, hv, -⟩ := hrest
    refine ⟨_, List.getElem_mem hlt, ?_⟩
    by_contra hno
    rw [Call.bindSlot, lookup_eq_none_of_notMem hno] at hv
    cases hv

theorem Call.mapM_bindSlot (call : Call) (optional : List (Param × PyValue)) :
    (optional.map fun p => (p.1.name, some p.2)).mapM call.bindSlot =
      some (override call.kwargs (optional.map fun p => p.1.name) (optional.map Prod.snd)) := by
  induction optional with
  | nil => rfl
  | cons p optional ih =>
    have hslot : call.bindSlot (p.1.name, some p.2) =
        some ((call.kwargs.lookup p.1.name).getD p.2) := by
      cases hkey : call.kwargs.lookup p.1.name <;> simp [bindSlot, hkey]
    rw [List.map_cons, List.mapM_cons, hslot, ih]
    rfl

/-- The values the rule gives where every required parameter is reached by position. -/
theorem Signature.bind_values (h : sig.bind call = some values)
    (hle : sig.required.length ≤ call.args.length) :
    values = override call.kwargs sig.names
      (call.args ++ (sig.optional.map Prod.snd).drop (call.args.length - sig.required.length)) := by
  obtain ⟨hlen, hkeys, rest, hrest, rfl⟩ := bind_eq_some h
  have hnames : sig.names.length = sig.slots.length := by rw [← sig.map_fst_slots, List.length_map]
  -- a position that was reached is named by no keyword
  have hreached : override call.kwargs (sig.names.take call.args.length) call.args = call.args := by
    apply override_of_notMem
    · intro name hname hkey
      have hnodup : sig.names.Nodup := sig.names_nodup
      rw [← List.take_append_drop call.args.length sig.names] at hnodup
      exact (List.nodup_append.mp hnodup).2.2 name hname name (hkeys name hkey) rfl
    · rw [List.length_take, Nat.min_eq_left (hnames ▸ hlen)]
  have hrest' : rest = override call.kwargs (sig.names.drop call.args.length)
      ((sig.optional.map Prod.snd).drop (call.args.length - sig.required.length)) := by
    rw [drop_slots hle, Call.mapM_bindSlot, Option.some.injEq] at hrest
    rw [← hrest, ← sig.map_fst_slots, ← List.map_drop, ← List.map_drop, drop_slots hle,
      List.map_map]
    rfl
  have hsplit : sig.names = sig.names.take call.args.length ++ sig.names.drop call.args.length :=
    (List.take_append_drop _ _).symm
  rw [hrest']
  conv_rhs => rw [hsplit, override, List.zipWith_append (by
    rw [List.length_take, Nat.min_eq_left (hnames ▸ hlen)])]
  exact congrArg (· ++ _) hreached.symm

/-- What the call function binds, in the three cases of its merge. -/
theorem bindArgs_spec {lib : JsonLib} {floats : FloatLib} {argIndex : List (String × Nat)}
    {writers : List Writer}
    (hmeta : sig.rpcMeta lib floats = some (argIndex, writers))
    (hbind : sig.bind call = some values) :
    bindArgs writers.length sig.defaults argIndex call.args call.kwargs =
      if sig.RequiredByKeyword call then .error (.runtimeError "too few arguments")
      else .ok values := by
  obtain ⟨hlen, hkeys, -⟩ := Signature.bind_eq_some hbind
  obtain ⟨hindex, hforall⟩ := Signature.rpcMeta_spec hmeta
  have hwriters : writers.length = sig.names.length := by
    rw [← hforall.length_eq, Signature.names, List.length_map]
  have harity : sig.names.length = sig.required.length + sig.optional.length := by
    rw [← sig.length_slots, ← sig.map_fst_slots, List.length_map]
  have hdefaults : sig.defaults.getD [] = sig.optional.map Prod.snd := by
    unfold Signature.defaults
    split
    · next hnone => simp [hnone]
    · rfl
  rw [sig.length_slots] at hlen
  unfold bindArgs
  simp only [Signature.requiredByKeyword_iff hbind, hdefaults, hwriters, harity, List.length_map]
  by_cases hfull : call.args.length = sig.required.length + sig.optional.length
  · -- every parameter is reached, so no keyword is left to be given
    obtain ⟨-, -, rest, hrest, rfl⟩ := Signature.bind_eq_some hbind
    rw [List.drop_of_length_le (by rw [sig.length_slots]; omega), List.mapM_nil] at hrest
    cases hrest
    rw [if_pos hfull, if_neg (by omega), List.append_nil]
    rfl
  · rw [if_neg hfull, if_neg (by omega)]
    by_cases hshort : call.args.length < sig.required.length
    · rw [if_pos (Or.inr (by omega)), if_pos hshort]
      rfl
    · have hsome : sig.optional.map Prod.snd ≠ [] := by
        intro hnil
        have hzero : sig.optional = [] := List.map_eq_nil_iff.mp hnil
        rw [hzero, List.length_nil] at hfull hlen
        omega
      have hdrop : sig.optional.length -
          (sig.required.length + sig.optional.length - call.args.length) =
            call.args.length - sig.required.length := by omega
      rw [if_neg (not_or.mpr ⟨hsome, by omega⟩), if_neg hshort, hdrop,
        bindKwargs_spec hindex (fun k hk => List.mem_of_mem_drop (hkeys k hk)) call.keys_nodup ?_,
        Signature.bind_values hbind (by omega)]
      simp only [List.length_append, List.length_drop, List.length_map, harity]
      omega

/-- What each parameter's own writer makes of the value it is bound to, in the order of the
    declaration. -/
def Signature.written (lib : JsonLib) (floats : FloatLib) (sig : Signature)
    (values : List PyValue) : List (Option (Except PyExn Bytes)) :=
  List.zipWith (fun p v => (argWriter lib floats p.type).map fun f => f v) sig.params values

section Writers

variable {writers : List Writer}

theorem written_eq {lib : JsonLib} {floats : FloatLib} {params : List Param}
    (h : List.Forall₂ (fun p f => argWriter lib floats p.type = some f) params writers)
    (values : List PyValue) :
    List.zipWith (fun p v => (argWriter lib floats p.type).map fun f => f v) params values =
      (List.zipWith (fun f v => f v) writers values).map some := by
  induction h generalizing values with
  | nil => rfl
  | cons hf _ ih =>
    cases values with
    | nil => rfl
    | cons v values =>
      rw [List.zipWith_cons_cons, List.zipWith_cons_cons, List.map_cons, hf, ih]
      rfl

theorem convertArgs_ok_iff (hlen : values.length = writers.length) {payload : Bytes} :
    convertArgs writers values = .ok payload ↔ ∃ parts : List Bytes,
      List.zipWith (fun f v => f v) writers values = parts.map .ok ∧ payload = parts.flatten := by
  induction writers generalizing values payload with
  | nil =>
    rw [List.length_eq_zero_iff.mp hlen]
    constructor
    · intro h
      cases h
      exact ⟨[], rfl, rfl⟩
    · rintro ⟨parts, hparts, rfl⟩
      rw [List.map_eq_nil_iff.mp hparts.symm]
      rfl
  | cons f writers ih =>
    cases values with
    | nil => cases hlen
    | cons v values =>
      have hlen' : values.length = writers.length := Nat.succ.inj hlen
      rw [List.zipWith_cons_cons]
      constructor
      · intro h
        obtain ⟨part, hpart, h⟩ := bind_eq_ok h
        obtain ⟨rest, hrest, h⟩ := bind_eq_ok h
        cases h
        obtain ⟨parts, hparts, rfl⟩ := (ih hlen').mp hrest
        exact ⟨part :: parts, by rw [hpart, hparts]; rfl, rfl⟩
      · rintro ⟨parts, hparts, rfl⟩
        cases parts with
        | nil => cases hparts
        | cons part parts =>
          rw [List.map_cons, List.cons.injEq] at hparts
          have hrest := (ih hlen').mpr ⟨parts, hparts.2, rfl⟩
          rw [convertArgs, hparts.1, bind_ok, hrest, bind_ok]
          rfl

theorem convertArgs_error_iff (hlen : values.length = writers.length) {e : PyExn} :
    convertArgs writers values = .error e ↔ ∃ (parts : List Bytes)
      (later : List (Except PyExn Bytes)),
        List.zipWith (fun f v => f v) writers values = parts.map .ok ++ .error e :: later := by
  induction writers generalizing values with
  | nil =>
    rw [List.length_eq_zero_iff.mp hlen]
    refine iff_of_false (by rintro ⟨⟩) ?_
    rintro ⟨parts, later, h⟩
    simp at h
  | cons f writers ih =>
    cases values with
    | nil => cases hlen
    | cons v values =>
      have hlen' : values.length = writers.length := Nat.succ.inj hlen
      rw [List.zipWith_cons_cons, convertArgs]
      cases hf : f v with
      | error e' =>
        constructor
        · intro h
          cases h
          exact ⟨[], _, rfl⟩
        · rintro ⟨parts, later, h⟩
          cases parts with
          | nil =>
            cases h
            rfl
          | cons part parts => cases h
      | ok part =>
        rw [bind_ok]
        constructor
        · intro h
          cases hrest : convertArgs writers values with
          | ok rest =>
            rw [hrest] at h
            cases h
          | error e' =>
            rw [hrest] at h
            cases h
            obtain ⟨parts, later, hparts⟩ := (ih hlen').mp hrest
            exact ⟨part :: parts, later, by rw [hparts]; rfl⟩
        · rintro ⟨parts, later, h⟩
          cases parts with
          | nil => cases h
          | cons part' parts =>
            rw [List.map_cons, List.cons_append, List.cons.injEq] at h
            have hrest := (ih hlen').mpr ⟨parts, later, h.2⟩
            rw [hrest]
            rfl

end Writers

/-- **Binding follows Python's rule.**  Where the rule accepts a call, the call function raises
    `too few arguments` exactly when a parameter without a default is passed by keyword.  Every
    other call gives what the parameters' own writers make of the values the rule gives them,
    joined in the order of the declaration, or the exception of the first that raises. -/
theorem callFunction_binds {lib : JsonLib} {floats : FloatLib} {argIndex : List (String × Nat)}
    {writers : List Writer}
    (hmeta : sig.rpcMeta lib floats = some (argIndex, writers))
    (hbind : sig.bind call = some values) :
    (bindArgs writers.length sig.defaults argIndex call.args call.kwargs =
        .error (.runtimeError "too few arguments") ↔ sig.RequiredByKeyword call) ∧
      (sig.RequiredByKeyword call →
        createCallFunction writers sig.defaults argIndex call.args call.kwargs =
          .error (.runtimeError "too few arguments")) ∧
      (¬ sig.RequiredByKeyword call →
        (∀ payload, createCallFunction writers sig.defaults argIndex call.args call.kwargs =
            .ok payload ↔ ∃ parts : List Bytes,
          sig.written lib floats values = parts.map (fun part => some (.ok part)) ∧
            payload = parts.flatten) ∧
        ∀ e, createCallFunction writers sig.defaults argIndex call.args call.kwargs =
            .error e ↔ ∃ (parts : List Bytes) (later : List (Option (Except PyExn Bytes))),
          sig.written lib floats values =
            parts.map (fun part => some (.ok part)) ++ some (.error e) :: later) := by
  have hargs := bindArgs_spec hmeta hbind
  have hwriters := (Signature.rpcMeta_spec hmeta).2
  have hlen : values.length = writers.length := by
    rw [← hwriters.length_eq]
    exact Signature.length_bind hbind
  have hwritten : sig.written lib floats values =
      (List.zipWith (fun f v => f v) writers values).map some := written_eq hwriters values
  have hsome : ∀ parts : List Bytes, parts.map (fun part => some (Except.ok (ε := PyExn) part)) =
      (parts.map Except.ok).map some := fun parts => by rw [List.map_map]; rfl
  rw [createCallFunction, hargs]
  refine ⟨?_, fun hkey => ?_, fun hkey => ?_⟩
  · split
    · next hkey => exact iff_of_true rfl hkey
    · next hkey => exact iff_of_false nofun hkey
  · rw [if_pos hkey]
    rfl
  · rw [if_neg hkey, bind_ok]
    constructor
    · intro payload
      simp only [convertArgs_ok_iff hlen, hwritten, hsome,
        (List.map_injective_iff.mpr (Option.some_injective _)).eq_iff]
    · intro e
      rw [convertArgs_error_iff hlen, hwritten]
      constructor
      · rintro ⟨parts, later, hparts⟩
        exact ⟨parts, later.map some, by rw [hparts, hsome, List.map_append]; rfl⟩
      · rintro ⟨parts, later, hparts⟩
        rw [hsome] at hparts
        obtain ⟨before, after, hzip, hbefore, hafter⟩ := List.map_eq_append_iff.mp hparts
        obtain ⟨r, later', rfl, hr, -⟩ := List.map_eq_cons_iff.mp hafter
        cases hr
        exact ⟨parts, later', by
          rw [hzip, List.map_injective_iff.mpr (Option.some_injective _) hbefore]⟩

end Binding

/-- A `struct` module without the floating-point formats. -/
def noFloats : FloatLib where
  putFloat _ := .error (.structError "")
  putDouble _ := .error (.structError "")
  readFloat _ _ := .error (.structError "")
  readDouble _ _ := .error (.structError "")

/-- `def launch(client, package: str, flags: int = 0, wait: bool = True) -> bool`. -/
def launchSignature : Signature where
  required := [⟨"package", .base (.arg .str)⟩]
  optional := [(⟨"flags", .base (.arg .int)⟩, .int 0), (⟨"wait", .base (.arg .bool)⟩, .bool true)]
  ret := some (.base (.arg .bool))
  names_nodup := by decide
  not_reserved := by decide

theorem callFunction_binds_keyword :
    (bindArgs 3 launchSignature.defaults
        [("package", 0), ("flags", 1), ("wait", 2), ("return", 3)]
        [.str "a"] [("wait", .bool false)] =
          .error (.runtimeError "too few arguments") ↔
      launchSignature.RequiredByKeyword ⟨[.str "a"], [("wait", .bool false)], by decide⟩) ∧
    (launchSignature.RequiredByKeyword ⟨[.str "a"], [("wait", .bool false)], by decide⟩ →
      createCallFunction [putString, putInt, putBool] launchSignature.defaults
          [("package", 0), ("flags", 1), ("wait", 2), ("return", 3)]
          [.str "a"] [("wait", .bool false)] = .error (.runtimeError "too few arguments")) ∧
    (¬ launchSignature.RequiredByKeyword ⟨[.str "a"], [("wait", .bool false)], by decide⟩ →
      (∀ payload, createCallFunction [putString, putInt, putBool] launchSignature.defaults
          [("package", 0), ("flags", 1), ("wait", 2), ("return", 3)]
          [.str "a"] [("wait", .bool false)] = .ok payload ↔ ∃ parts : List Bytes,
        launchSignature.written oneDocument noFloats [.str "a", .int 0, .bool false] =
          parts.map (fun part => some (.ok part)) ∧ payload = parts.flatten) ∧
      ∀ e, createCallFunction [putString, putInt, putBool] launchSignature.defaults
          [("package", 0), ("flags", 1), ("wait", 2), ("return", 3)]
          [.str "a"] [("wait", .bool false)] = .error e ↔ ∃ (parts : List Bytes)
          (later : List (Option (Except PyExn Bytes))),
        launchSignature.written oneDocument noFloats [.str "a", .int 0, .bool false] =
          parts.map (fun part => some (.ok part)) ++ some (.error e) :: later) :=
  @callFunction_binds launchSignature ⟨[.str "a"], [("wait", .bool false)], by decide⟩ _
    oneDocument noFloats _ _ rfl rfl

end Albatross.Signatures
