/-
  Albatross/Registry.lean
  =======================
  **The interception registry of the system-server agent**
  (`SystemServerInjectAgent.java`: `setInterceptApp`, `setIntercept`,
  `removeIntercept`, `clearIntercept`, `setInterceptAll`, `notifyProcessLaunch`;
  `ActivityManagerServiceH.java`: `interceptCheck`).

  The registry maps a uid to one string.  Up to `SYSTEM_UID` the string is a list
  of package names, each behind a `:`, or starts with the item `:A` that switches
  the filter off; above it only the presence of an entry counts.  The operations
  work on the string with `contains`, `+` and `replace`, never on a list of names.

  A Java string is a list of characters.  `itemsOf` cuts the entry of a uid at its
  colons, and the lemmas here say what each operation does to the items.
-/
import Albatross.Assoc
import Albatross.Separated

namespace Albatross.Registry

open Assoc Separated

abbrev JavaString := List Char

def SYSTEM_UID : Int := 1000

def SPLIT : Char := ':'

/-- `":A"`. -/
def NO_FILTER : JavaString := [SPLIT, 'A']

def sentinel : JavaString := ['A']

/-- `s.contains(t)`. -/
def contains (s t : JavaString) : Bool := decide (t <:+: s)

/-- What `SPLIT + pkg` appends: a null reference reads as `null`. -/
def text (pkg : Option JavaString) : JavaString := pkg.getD ['n', 'u', 'l', 'l']

/-- The static fields `interceptApps` and `interceptAll`. -/
structure Agent where
  interceptApps : Dict Int JavaString
  interceptAll : Bool

def Agent.initial : Agent := ⟨∅, false⟩

/-! ### The operations -/

def shouldInterceptUid (s : Agent) (callingUid : Int) : Option JavaString :=
  if s.interceptAll then some NO_FILTER else s.interceptApps.lookup callingUid

/-- The body that `setInterceptApp` and `setIntercept` share: append `SPLIT + name`
    unless the entry contains it. -/
def addItem (apps : Dict Int JavaString) (uid : Int) (name : JavaString) : Dict Int JavaString :=
  match apps.lookup uid with
  | some pkgs =>
      if contains pkgs (SPLIT :: name) then apps else apps.insert uid (pkgs ++ SPLIT :: name)
  | none => apps.insert uid (SPLIT :: name)

/-- `setInterceptApp(pkg, clear)`; `uidOf` is the package manager, which knows the uid
    of an installed package. -/
def setInterceptApp (uidOf : JavaString → Option Int) (pkg : Option JavaString) (clear : Bool)
    (s : Agent) : Int × Agent :=
  let apps := if clear then ∅ else s.interceptApps
  match pkg with
  | none => (0, { s with interceptApps := apps })
  | some pkg =>
      if pkg = ['a', 'l', 'l'] then (0, { s with interceptApps := apps, interceptAll := true })
      else
        match uidOf pkg with
        | none => (0, { s with interceptApps := apps })
        | some uid =>
            if uid ≤ SYSTEM_UID then (uid, { s with interceptApps := addItem apps uid pkg })
            else (uid, { s with interceptApps := apps.insert uid pkg })

def setIntercept (uid : Int) (process : Option JavaString) (s : Agent) : Agent :=
  match process with
  | none => { s with interceptApps := s.interceptApps.insert uid NO_FILTER }
  | some process => { s with interceptApps := addItem s.interceptApps uid process }

def removeIntercept (uid : Int) (pkg : Option JavaString) (s : Agent) : Agent :=
  if uid > SYSTEM_UID then { s with interceptApps := s.interceptApps.erase uid }
  else
    match s.interceptApps.lookup uid with
    | none => s
    | some pkgs =>
        -- `pkgs.replace(SPLIT + pkg, "")`
        let pkgs := delete SPLIT (text pkg) 0 pkgs
        if pkgs = [] then { s with interceptApps := s.interceptApps.erase uid }
        else { s with interceptApps := s.interceptApps.insert uid pkgs }

def clearIntercept (s : Agent) : Agent := { s with interceptApps := ∅ }

def setInterceptAll (intercept : Bool) (s : Agent) : Agent := { s with interceptAll := intercept }

inductive Op where
  | setInterceptApp (pkg : Option JavaString) (clear : Bool)
  | setIntercept (uid : Int) (process : Option JavaString)
  | removeIntercept (uid : Int) (pkg : Option JavaString)
  | clearIntercept
  | setInterceptAll (intercept : Bool)

def Agent.apply (uidOf : JavaString → Option Int) (s : Agent) : Op → Agent
  | .setInterceptApp pkg clear => (Registry.setInterceptApp uidOf pkg clear s).2
  | .setIntercept uid process => Registry.setIntercept uid process s
  | .removeIntercept uid pkg => Registry.removeIntercept uid pkg s
  | .clearIntercept => Registry.clearIntercept s
  | .setInterceptAll intercept => Registry.setInterceptAll intercept s

def history (uidOf : JavaString → Option Int) (ops : List Op) : Agent :=
  ops.foldl (Agent.apply uidOf) Agent.initial

/-! ### Launches -/

/-- What `interceptCheck` reads of a process record; `info` is the package name of its
    application info. -/
structure ProcessRecord where
  processName : String
  info : Option JavaString
  hostingType : Option String
  hostingName : Option String

/-- The arguments of `notifyProcessLaunch`; `data` holds the type and the name. -/
structure Launch where
  uid : Int
  pid : Int
  pkg : Option JavaString
  processName : String
  data : Option (String × Option String)

def launchOf (pid callingUid : Int) (r : ProcessRecord) : Launch :=
  ⟨callingUid, pid, r.info, r.processName, r.hostingType.map fun t => (t, r.hostingName)⟩

/-- The launch that `interceptCheck` reports, if it reports one. -/
def interceptCheck (s : Agent) (subscriberSize : Nat) (pid callingUid : Int) (r : ProcessRecord) :
    Option Launch :=
  match shouldInterceptUid s callingUid with
  | none => none
  | some interceptCondition =>
      if subscriberSize > 0 then
        match r.info with
        | none => some (launchOf pid callingUid r)
        | some pkg =>
            if callingUid ≤ SYSTEM_UID ∧ contains interceptCondition NO_FILTER = false ∧
                contains interceptCondition (SPLIT :: pkg) = false then none
            else some (launchOf pid callingUid r)
      else none

/-- `ret` is the byte the subscriber answered. -/
def notifyProcessLaunch (ret : Int) (l : Launch) (s : Agent) : Agent :=
  if ret = -1 then removeIntercept l.uid l.pkg s else s

/-! ### The items of an entry -/

def itemsOf (apps : Dict Int JavaString) (uid : Int) : List JavaString :=
  match apps.lookup uid with
  | some pkgs => items SPLIT pkgs
  | none => []

/-- Some item is the sentinel's or begins with `q`, as `contains` has it. -/
def Matched (xs : List JavaString) (q : JavaString) : Prop :=
  ∃ x ∈ xs, sentinel <+: x ∨ q <+: x

instance (xs : List JavaString) (q : JavaString) : Decidable (Matched xs q) :=
  inferInstanceAs (Decidable (∃ x ∈ xs, sentinel <+: x ∨ q <+: x))

section Items

variable {apps : Dict Int JavaString} {uid u : Int} {name pkgs : JavaString}

theorem itemsOf_some (h : apps.lookup uid = some pkgs) : itemsOf apps uid = items SPLIT pkgs := by
  rw [itemsOf, h]

theorem itemsOf_none (h : apps.lookup uid = none) : itemsOf apps uid = [] := by
  rw [itemsOf, h]

@[simp] theorem itemsOf_empty (uid : Int) :
    itemsOf ∅ uid = [] :=
  itemsOf_none (AList.lookup_empty uid)

theorem itemsOf_insert : itemsOf (apps.insert uid pkgs) uid = items SPLIT pkgs :=
  itemsOf_some (AList.lookup_insert apps)

theorem itemsOf_insert_ne (h : u ≠ uid) : itemsOf (apps.insert uid pkgs) u = itemsOf apps u := by
  rw [itemsOf, itemsOf, AList.lookup_insert_ne h]

theorem itemsOf_erase :
    itemsOf (apps.erase uid) uid = [] :=
  itemsOf_none (AList.lookup_erase uid apps)

theorem contains_iff (hname : SPLIT ∉ name) (t : JavaString) :
    contains t (SPLIT :: name) = true ↔ ∃ x ∈ items SPLIT t, name <+: x := by
  rw [contains, decide_eq_true_iff]
  exact infix_iff hname t

theorem itemsOf_addItem (hname : SPLIT ∉ name) :
    itemsOf (addItem apps uid name) uid =
      if ∃ x ∈ itemsOf apps uid, name <+: x then itemsOf apps uid
      else itemsOf apps uid ++ [name] := by
  unfold addItem
  cases h : apps.lookup uid with
  | none =>
    rw [itemsOf_none h, if_neg (by simp), itemsOf_insert]
    exact items_append_item hname []
  | some pkgs =>
    have hiff := contains_iff hname pkgs
    by_cases hc : contains pkgs (SPLIT :: name) = true
    · simp only [hc, if_true]
      rw [itemsOf_some h, if_pos (hiff.mp hc)]
    · simp only [hc]
      rw [itemsOf_some h, if_neg (fun hx => hc (hiff.mpr hx)), if_neg (by simp), itemsOf_insert]
      exact items_append_item hname pkgs

theorem lookup_addItem_ne (h : u ≠ uid) : (addItem apps uid name).lookup u = apps.lookup u := by
  unfold addItem
  split
  · split
    · rfl
    · exact AList.lookup_insert_ne h
  · exact AList.lookup_insert_ne h

theorem itemsOf_addItem_ne (h : u ≠ uid) : itemsOf (addItem apps uid name) u = itemsOf apps u := by
  rw [itemsOf, itemsOf, lookup_addItem_ne h]

theorem isSome_addItem : ((addItem apps uid name).lookup uid).isSome := by
  unfold addItem
  split
  · next h =>
    split
    · rw [h]; rfl
    · rw [AList.lookup_insert]; rfl
  · rw [AList.lookup_insert]; rfl

theorem removeIntercept_system {pkg : Option JavaString} (huid : uid > SYSTEM_UID) (s : Agent) :
    removeIntercept uid pkg s = { s with interceptApps := s.interceptApps.erase uid } :=
  if_pos huid

theorem itemsOf_removeIntercept {pkg : Option JavaString} (huid : uid ≤ SYSTEM_UID)
    (hpkg : SPLIT ∉ text pkg) (s : Agent) :
    itemsOf (removeIntercept uid pkg s).interceptApps uid =
      kept (text pkg) (itemsOf s.interceptApps uid) := by
  unfold removeIntercept
  rw [if_neg (Int.not_lt.mpr huid)]
  cases h : s.interceptApps.lookup uid with
  | none => rw [itemsOf_none h]; rfl
  | some pkgs =>
    rw [itemsOf_some h, ← items_delete hpkg]
    by_cases hnil : delete SPLIT (text pkg) 0 pkgs = []
    · simp only [hnil, if_true, itemsOf_erase, items_nil]
    · simp only [if_neg hnil, itemsOf_insert]

theorem lookup_removeIntercept_ne {pkg : Option JavaString} (h : u ≠ uid) (s : Agent) :
    (removeIntercept uid pkg s).interceptApps.lookup u = s.interceptApps.lookup u := by
  unfold removeIntercept
  split
  · exact AList.lookup_erase_ne h
  · split
    · rfl
    · next pkgs _ =>
      by_cases hnil : delete SPLIT (text pkg) 0 pkgs = []
      · simp only [hnil, if_true]
        exact AList.lookup_erase_ne h
      · simp only [if_neg hnil]
        exact AList.lookup_insert_ne h

theorem interceptAll_removeIntercept {pkg : Option JavaString} (s : Agent) :
    (removeIntercept uid pkg s).interceptAll = s.interceptAll := by
  unfold removeIntercept
  split
  · rfl
  · split
    · rfl
    · dsimp only
      split <;> rfl

end Items

/-! ### What is reported -/

/-- **A launch of a named package is reported** when everything is, when its uid has an
    entry above `SYSTEM_UID`, or when an item up to it matches. -/
theorem interceptCheck_isSome {s : Agent} {n : Nat} {pid uid : Int} {r : ProcessRecord}
    {q : JavaString} (hn : 0 < n) (hr : r.info = some q) (hq : SPLIT ∉ q) :
    (interceptCheck s n pid uid r).isSome = true ↔ s.interceptAll = true ∨
      if uid > SYSTEM_UID then (s.interceptApps.lookup uid).isSome = true
      else Matched (itemsOf s.interceptApps uid) q := by
  unfold interceptCheck shouldInterceptUid
  cases hall : s.interceptAll with
  | true =>
    have hself : contains NO_FILTER NO_FILTER = true := by decide
    simp [hn, hr, hself]
  | false =>
    cases h : s.interceptApps.lookup uid with
    | none => simp [itemsOf_none h, Matched]
    | some pkgs =>
      have hsent : contains pkgs NO_FILTER = true ↔ ∃ x ∈ items SPLIT pkgs, sentinel <+: x :=
        contains_iff (by decide) pkgs
      have hpkg := contains_iff hq pkgs
      have hmatched : Matched (items SPLIT pkgs) q ↔
          contains pkgs NO_FILTER = true ∨ contains pkgs (SPLIT :: q) = true := by
        rw [hsent, hpkg, ← exists_or]
        simp only [Matched, and_or_left]
      rw [itemsOf_some h, hmatched]
      by_cases huid : uid > SYSTEM_UID
      · simp [hn, hr, huid, Int.not_le.mpr huid]
      · have hle : uid ≤ SYSTEM_UID := Int.not_lt.mp huid
        by_cases hall : contains pkgs NO_FILTER = true
        · simp [hn, hr, huid, hall]
        · by_cases hone : contains pkgs (SPLIT :: q) = true
          · simp [hn, hr, huid, hone]
          · simp [hn, hr, huid, hle, hall, hone]

end Albatross.Registry
