/-
  Albatross/StackIds.lean
  =======================
  **Stack ids** (`StackManager.java`: `BKDRHash`, `getStackId`).

  The id of a text is made of its two hashes and its length.  The second hash has no sign
  bit, so the sum with the first, shifted into the upper half, keeps both (`key_toNat`),
  and ids are equal exactly when all three are (`stackId_eq_iff`).  A text is sent and
  logged when its id is new (`stack_ids_announced_once`).

  The calls come one after the other.  What is sent and what is logged are records that no
  code reads.
-/
import Albatross.Assoc
import Albatross.Decimal
import Albatross.Separated

namespace Albatross.StackIds

open Assoc Decimal Separated

/-- A `String`: its UTF-16 units. -/
abbrev Units := List UInt16

abbrev Text := List Char

/-! ### The code -/

def charAt (c : UInt16) : BitVec 32 := BitVec.ofNat 32 c.toNat

/-- `s.hashCode()`. -/
def hashCode (s : Units) : BitVec 32 := s.foldl (fun h c => 31#32 * h + charAt c) 0#32

/-- The units at 0, 3, 6 and so on. -/
def everyThird : Units → Units
  | [] => []
  | [c] => [c]
  | [c, _] => [c]
  | c :: _ :: _ :: s => c :: everyThird s

def BKDRHash (s : Units) : BitVec 32 :=
  (everyThird s).foldl (fun h c => 131#32 * h + charAt c) 0#32 &&& 0x7FFFFFFF#32

/-- `((long) s.hashCode() << 32) + BKDRHash(s)`, of two values of type `int`. -/
def key (hash bkdr : BitVec 32) : BitVec 64 := (hash.signExtend 64 <<< 32) + bkdr.signExtend 64

/-- `_stack_key + "." + length`. -/
def stackId (s : Units) : Text :=
  numeral (key (hashCode s) (BKDRHash s)).toInt ++ '.' :: Nat.toDigits 10 s.length

structure StackLabel where
  stackId : Text
  label : Int
deriving DecidableEq

/-- A call of `getStackId`.  `created` says that a logger can be created. -/
structure Call where
  s : Units
  extra : Units
  threadId : Int
  time : Int
  created : Bool

/-- What `String.format` puts together. -/
structure Message where
  stackId : Text
  thread : Int
  time : Int
  detail : Units
  extra : Units
deriving DecidableEq

/-- The static fields, and what has been sent and logged. -/
structure State where
  stackTables : Dict Text StackLabel
  stackLogger : Bool
  sent : List Message
  logged : List Message

def State.start : State := ⟨∅, false, [], []⟩

def message (c : Call) : Message := ⟨stackId c.s, c.threadId, c.time, c.s, c.extra⟩

def getStackId (c : Call) (st : State) : Option StackLabel × State :=
  let id := stackId c.s
  match st.stackTables.lookup id with
  | some label => (some label, st)
  | none =>
      if st.stackLogger || c.created then
        -- `put` returns null, for the key was not there
        (some ⟨id, 0⟩,
          { stackTables := st.stackTables.insert id ⟨id, 0⟩
            stackLogger := true
            sent := st.sent ++ [message c]
            logged := st.logged ++ [message c] })
      else (none, st)

def after (calls : List Call) : State := calls.foldl (fun st c => (getStackId c st).2) .start

/-! ### Ids -/

/-- Java's hash code, the BKDR hash and the length. -/
def triple (s : Units) : BitVec 32 × BitVec 32 × Nat := (hashCode s, BKDRHash s, s.length)

section Ids

variable {s t : Units} {hash bkdr hash' bkdr' : BitVec 32}

theorem BKDRHash_lt (s : Units) : (BKDRHash s).toNat < 2 ^ 31 := by
  unfold BKDRHash
  rw [BitVec.toNat_and]
  exact Nat.lt_of_le_of_lt Nat.and_le_right (by decide)

/-- The first hash is the upper half of the key, and the second one the lower. -/
theorem key_toNat (hbkdr : bkdr.toNat < 2 ^ 31) :
    (key hash bkdr).toNat = hash.toNat * 2 ^ 32 + bkdr.toNat := by
  have hmsb : bkdr.msb = false := by
    rw [BitVec.msb_eq_decide]
    simpa using hbkdr
  have hlt := hash.isLt
  unfold key
  rw [BitVec.toNat_add, BitVec.toNat_shiftLeft, BitVec.toNat_signExtend,
    BitVec.toNat_signExtend, hmsb]
  simp only [BitVec.toNat_setWidth, Nat.shiftLeft_eq]
  split <;> simp <;> omega

theorem key_inj (hbkdr : bkdr.toNat < 2 ^ 31) (hbkdr' : bkdr'.toNat < 2 ^ 31) :
    key hash bkdr = key hash' bkdr' ↔ hash = hash' ∧ bkdr = bkdr' := by
  constructor
  · intro h
    have hsum := congrArg BitVec.toNat h
    rw [key_toNat hbkdr, key_toNat hbkdr'] at hsum
    have hlt := bkdr.isLt
    have hlt' := bkdr'.isLt
    exact ⟨BitVec.eq_of_toNat_eq (by omega), BitVec.eq_of_toNat_eq (by omega)⟩
  · rintro ⟨rfl, rfl⟩
    rfl

/-- **Ids stand for the triples.** -/
theorem stackId_eq_iff : stackId s = stackId t ↔ triple s = triple t := by
  have hdot : ∀ n, '.' ∉ Nat.toDigits 10 n := not_mem_toDigits (by decide)
  constructor
  · intro h
    obtain ⟨hkey, hlength⟩ := append_sep_inj (hdot _) (hdot _) h
    have hhashes := BitVec.eq_of_toInt_eq (numeral_injective hkey)
    obtain ⟨hhash, hbkdr⟩ := (key_inj (BKDRHash_lt s) (BKDRHash_lt t)).mp hhashes
    rw [triple, triple, hhash, hbkdr, toDigits_injective hlength]
  · intro h
    simp only [triple, Prod.mk.injEq] at h
    obtain ⟨hhash, hbkdr, hlength⟩ := h
    rw [stackId, stackId, hhash, hbkdr, hlength]

end Ids

/-! ### A run of calls -/

section Run

variable {calls past : List Call} {c : Call} {st : State}

theorem after_concat (past : List Call) (c : Call) :
    after (past ++ [c]) = (getStackId c (after past)).2 := by
  simp [after, List.foldl_append]

/-- The table has the ids of the calls so far, each with its label. -/
def Tabulates (past : List Call) (st : State) : Prop :=
  ∀ id, st.stackTables.lookup id = if ∃ b ∈ past, stackId b.s = id then some ⟨id, 0⟩ else none

/-- The text of the call has the triple of an earlier one. -/
def Repeated (past : List Call) (c : Call) : Prop := ∃ b ∈ past, triple b.s = triple c.s

instance (past : List Call) (c : Call) : Decidable (Repeated past c) :=
  inferInstanceAs (Decidable (∃ b ∈ past, _))

theorem repeated_iff : Repeated past c ↔ ∃ b ∈ past, stackId b.s = stackId c.s := by
  simp only [Repeated, stackId_eq_iff]

theorem getStackId_of_repeated (htable : Tabulates past st) (h : Repeated past c) :
    getStackId c st = (some ⟨stackId c.s, 0⟩, st) := by
  have hlookup := htable (stackId c.s)
  rw [if_pos (repeated_iff.mp h)] at hlookup
  simp [getStackId, hlookup]

theorem getStackId_of_new (htable : Tabulates past st) (h : ¬ Repeated past c)
    (hcreated : c.created = true) :
    getStackId c st = (some ⟨stackId c.s, 0⟩,
      { stackTables := st.stackTables.insert (stackId c.s) ⟨stackId c.s, 0⟩
        stackLogger := true
        sent := st.sent ++ [message c]
        logged := st.logged ++ [message c] }) := by
  have hlookup := htable (stackId c.s)
  rw [if_neg (fun hmem => h (repeated_iff.mpr hmem))] at hlookup
  simp [getStackId, hlookup, hcreated]

theorem Tabulates.getStackId (htable : Tabulates past st) (hcreated : c.created = true) :
    Tabulates (past ++ [c]) (getStackId c st).2 := by
  intro id
  by_cases h : Repeated past c
  · have hsame : (∃ b ∈ past ++ [c], stackId b.s = id) ↔ ∃ b ∈ past, stackId b.s = id := by
      constructor
      · rintro ⟨b, hb, hid⟩
        rcases List.mem_append.mp hb with hb | hb
        · exact ⟨b, hb, hid⟩
        · obtain rfl := List.mem_singleton.mp hb
          obtain ⟨b', hb', heq⟩ := repeated_iff.mp h
          exact ⟨b', hb', heq.trans hid⟩
      · rintro ⟨b, hb, hid⟩
        exact ⟨b, List.mem_append_left _ hb, hid⟩
    rw [getStackId_of_repeated htable h]
    simp only [hsame]
    exact htable id
  · rw [getStackId_of_new htable h hcreated]
    by_cases hid : id = stackId c.s
    · subst hid
      simp
    · have hne : stackId c.s ≠ id := fun heq => hid heq.symm
      simp [AList.lookup_insert_ne hid, htable id, hne]

theorem tabulates_after (hcreated : ∀ c ∈ calls, c.created = true) :
    Tabulates calls (after calls) := by
  induction calls using List.reverseRecOn with
  | nil => intro id; simp [after, State.start]
  | append_singleton past c ih =>
    rw [after_concat]
    apply Tabulates.getStackId
    · exact ih fun b hb => hcreated b (List.mem_append_left _ hb)
    · exact hcreated c (by simp)

/-- Every call returns the label of its id, and announces its text when the triple is new. -/
theorem getStackId_after (hpast : ∀ b ∈ past, b.created = true) (hcreated : c.created = true) :
    (getStackId c (after past)).1 = some ⟨stackId c.s, 0⟩ ∧
    (after (past ++ [c])).sent =
      (after past).sent ++ (if Repeated past c then [] else [message c]) ∧
    (after (past ++ [c])).logged =
      (after past).logged ++ (if Repeated past c then [] else [message c]) := by
  have htable := tabulates_after hpast
  rw [after_concat]
  by_cases h : Repeated past c
  · rw [getStackId_of_repeated htable h]
    simp [h]
  · rw [getStackId_of_new htable h hcreated]
    simp [h]

/-- **Stack ids stand for the triples and are announced once.**  The ids of any two calls are the
    same exactly when the triples are, and a call sends and logs its text exactly when it is the
    first one with its triple. -/
theorem stack_ids_announced_once (calls : List Call) (hcreated : ∀ c ∈ calls, c.created = true) :
    (∀ past c later past' c' later', calls = past ++ c :: later → calls = past' ++ c' :: later' →
      ∃ l l', (getStackId c (after past)).1 = some l ∧ (getStackId c' (after past')).1 = some l' ∧
        (l.stackId = l'.stackId ↔ triple c.s = triple c'.s)) ∧
    ∀ past c later, calls = past ++ c :: later →
      (after (past ++ [c])).sent =
          (after past).sent ++ (if Repeated past c then [] else [message c]) ∧
        (after (past ++ [c])).logged =
          (after past).logged ++ (if Repeated past c then [] else [message c]) := by
  have hcall : ∀ past c later, calls = past ++ c :: later →
      (∀ b ∈ past, b.created = true) ∧ c.created = true := by
    rintro past c later rfl
    exact ⟨fun b hb => hcreated b (List.mem_append_left _ hb), hcreated c (by simp)⟩
  constructor
  · intro past c later past' c' later' h h'
    refine ⟨_, _, (getStackId_after (hcall _ _ _ h).1 (hcall _ _ _ h).2).1,
      (getStackId_after (hcall _ _ _ h').1 (hcall _ _ _ h').2).1, stackId_eq_iff⟩
  · intro past c later h
    exact (getStackId_after (hcall _ _ _ h).1 (hcall _ _ _ h).2).2

def sampleCall : Call := ⟨[0x61, 0x74, 0x20, 0x66], [], 7, 0, true⟩

theorem stack_ids_announced_once_twice :
    (after ([sampleCall] ++ [sampleCall])).sent = (after [sampleCall]).sent := by
  have h := (stack_ids_announced_once [sampleCall, sampleCall] (by decide)).2 [sampleCall]
    sampleCall [] rfl
  have hrepeated : Repeated [sampleCall] sampleCall := ⟨sampleCall, by simp, rfl⟩
  rw [if_pos hrepeated, List.append_nil] at h
  exact h.1

end Run

end Albatross.StackIds
