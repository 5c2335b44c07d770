/-
  Albatross/MethodHooks.lean
  ==========================
  **Which method a listener is installed for** (`AppInjectAgent.java`: `hookMethod`,
  `unhookMethod`).

  The agent finds a method by its class, its name, the number of its arguments and their
  types, and keeps its listener under a key made of the first three.  Overloads with the
  same number of arguments share a key: hooking the second is refused as done already, and
  unhooking it removes the listener of the first.

  Both calls are right exactly when what the table has under the key, if anything, is the
  listener of the method the call means (`tracks_iff`).

  The reflection that finds classes and methods is a parameter, and so is whether
  `hookInstruction` succeeds at a call.
-/
import Albatross.Registry
import Mathlib.Data.List.Induction

namespace Albatross.MethodHooks

open Assoc Registry

def HOOK_SUCCESS : Int := 0

def ALREADY_HOOK : Int := 1

def CLASS_NOT_FIND : Int := -1

def METHOD_NOT_FIND : Int := -2

def HOOK_FAIL : Int := -3

/-! ### The agent -/

/-- What a caller names a method by; `args` may be a null reference. -/
structure Target where
  className : JavaString
  methodName : JavaString
  numArgs : Int
  args : Option JavaString
deriving DecidableEq

/-- `className + "." + methodName + "|" + numArgs`. -/
def Target.key (t : Target) : JavaString :=
  t.className ++ '.' :: (t.methodName ++ '|' :: (toString t.numArgs).toList)

/-- `findClassFromApplication` and `findDeclaredMethodWithCount`; `none` is a null reference
    or a `NoSuchMethodException`. -/
structure World (κ μ : Type) where
  findClass : JavaString → Option κ
  findMethod : κ → JavaString → Int → Option JavaString → Option μ

/-- A listener object and the method its hook is in. -/
structure Listener (μ : Type) where
  id : Nat
  method : μ
  minDexPc : Int
  maxDexPc : Int
  safeToString : Bool

/-- The table, the listeners whose hooks are in place, and a number for the next one. -/
structure Agent (μ : Type) where
  listeners : Dict JavaString (Listener μ)
  installed : List (Listener μ)
  next : Nat

variable {κ μ : Type} (w : World κ μ)

def Agent.initial : Agent μ := ⟨∅, [], 0⟩

/-- `res` is the result of `hookInstruction`. -/
def hookMethod (t : Target) (minDexPc maxDexPc : Int) (safeToString res : Bool) (s : Agent μ) :
    Int × Agent μ :=
  match w.findClass t.className with
  | none => (CLASS_NOT_FIND, s)
  | some clz =>
      if (s.listeners.lookup t.key).isSome then (ALREADY_HOOK, s)
      else
        match w.findMethod clz t.methodName t.numArgs t.args with
        | none => (METHOD_NOT_FIND, s)
        | some method =>
            let listener : Listener μ := ⟨s.next, method, minDexPc, maxDexPc, safeToString⟩
            if res then
              (HOOK_SUCCESS,
                ⟨s.listeners.insert t.key listener, listener :: s.installed, s.next + 1⟩)
            else (HOOK_FAIL, { s with next := s.next + 1 })

/-- `listener.unHook()`. -/
def unHook (listener : Listener μ) (installed : List (Listener μ)) : List (Listener μ) :=
  installed.filter fun l => l.id ≠ listener.id

def unhookMethod (t : Target) (s : Agent μ) : Bool × Agent μ :=
  match s.listeners.lookup t.key with
  | some listener =>
      (true, { s with listeners := s.listeners.erase t.key,
                      installed := unHook listener s.installed })
  | none => (false, s)

inductive Op where
  | hookMethod (t : Target) (minDexPc maxDexPc : Int) (safeToString res : Bool)
  | unhookMethod (t : Target)

def Agent.apply (s : Agent μ) : Op → Agent μ
  | .hookMethod t minDexPc maxDexPc safeToString res =>
      (MethodHooks.hookMethod w t minDexPc maxDexPc safeToString res s).2
  | .unhookMethod t => (MethodHooks.unhookMethod t s).2

def history (ops : List Op) : Agent μ := ops.foldl (Agent.apply w) Agent.initial

/-! ### Methods and listeners -/

/-- The method a caller means, if there is one. -/
def World.denoted (t : Target) : Option μ :=
  (w.findClass t.className).bind fun clz => w.findMethod clz t.methodName t.numArgs t.args

/-- A method is found under one class name, one name and one number of arguments only. -/
def World.Determined : Prop :=
  ∀ t t' method, w.denoted t = some method → w.denoted t' = some method →
    t.className = t'.className ∧ t.methodName = t'.methodName ∧ t.numArgs = t'.numArgs

def Hooked (s : Agent μ) (t : Target) : Prop :=
  ∃ l ∈ s.installed, w.denoted t = some l.method

/-- The table and the hooks agree: every entry is installed and stands under one key, and every
    installed listener is found under a name of its method. -/
structure Inv (s : Agent μ) : Prop where
  table : ∀ key l, s.listeners.lookup key = some l → l ∈ s.installed
  once : ∀ key key' l, s.listeners.lookup key = some l → s.listeners.lookup key' = some l →
    key = key'
  entry : ∀ l ∈ s.installed, ∃ t, s.listeners.lookup t.key = some l ∧ w.denoted t = some l.method
  fresh : ∀ l ∈ s.installed, l.id < s.next
  distinct : ∀ l ∈ s.installed, ∀ l' ∈ s.installed, l.id = l'.id → l = l'

variable {w} {s : Agent μ} {t : Target} {l : Listener μ}

theorem inv_initial : Inv w Agent.initial where
  table _ _ h := by cases h
  once _ _ _ h := by cases h
  entry _ h := by cases h
  fresh _ h := by cases h
  distinct _ h := by cases h

theorem mem_unHook {l' : Listener μ} {installed : List (Listener μ)} :
    l' ∈ unHook l installed ↔ l' ∈ installed ∧ l'.id ≠ l.id := by
  simp [unHook]

theorem hookMethod_cases (w : World κ μ) (t : Target) (minDexPc maxDexPc : Int)
    (safeToString res : Bool) (s : Agent μ) :
    (w.findClass t.className = none ∧
        hookMethod w t minDexPc maxDexPc safeToString res s = (CLASS_NOT_FIND, s)) ∨
      (w.findClass t.className ≠ none ∧ (∃ l, s.listeners.lookup t.key = some l) ∧
        hookMethod w t minDexPc maxDexPc safeToString res s = (ALREADY_HOOK, s)) ∨
      (s.listeners.lookup t.key = none ∧
        ((w.denoted t = none ∧
            hookMethod w t minDexPc maxDexPc safeToString res s = (METHOD_NOT_FIND, s)) ∨
          hookMethod w t minDexPc maxDexPc safeToString res s =
            (HOOK_FAIL, { s with next := s.next + 1 }) ∨
          ∃ l : Listener μ, l.id = s.next ∧ w.denoted t = some l.method ∧
            hookMethod w t minDexPc maxDexPc safeToString res s =
              (HOOK_SUCCESS, ⟨s.listeners.insert t.key l, l :: s.installed, s.next + 1⟩))) := by
  unfold hookMethod World.denoted
  cases hclass : w.findClass t.className with
  | none => exact Or.inl ⟨rfl, rfl⟩
  | some clz =>
    dsimp only
    cases hentry : s.listeners.lookup t.key with
    | some l => exact Or.inr (Or.inl ⟨nofun, ⟨l, rfl⟩, rfl⟩)
    | none =>
      refine Or.inr (Or.inr ⟨rfl, ?_⟩)
      rw [Option.bind_some]
      cases w.findMethod clz t.methodName t.numArgs t.args with
      | none => exact Or.inl ⟨rfl, rfl⟩
      | some method =>
        cases res with
        | false => exact Or.inr (Or.inl rfl)
        | true => exact Or.inr (Or.inr ⟨_, rfl, rfl, rfl⟩)

theorem unhookMethod_of_some (h : s.listeners.lookup t.key = some l) :
    unhookMethod t s = (true, { s with listeners := s.listeners.erase t.key,
                                       installed := unHook l s.installed }) := by
  unfold unhookMethod
  rw [h]

theorem unhookMethod_of_none (h : s.listeners.lookup t.key = none) :
    unhookMethod t s = (false, s) := by
  unfold unhookMethod
  rw [h]

theorem Inv.hook (h : Inv w s) (hid : l.id = s.next) (hnone : s.listeners.lookup t.key = none)
    (hmethod : w.denoted t = some l.method) :
    Inv w ⟨s.listeners.insert t.key l, l :: s.installed, s.next + 1⟩ where
  table key l' hl' := by
    rcases lookup_insert_eq_some.mp hl' with ⟨-, rfl⟩ | ⟨-, hold⟩
    · exact List.mem_cons_self
    · exact List.mem_cons_of_mem _ (h.table key l' hold)
  once key key' l' hl hl' := by
    -- the new listener is in no old entry
    have hnew : ∀ key, s.listeners.lookup key ≠ some l := by
      intro key hold
      have := h.fresh l (h.table key l hold)
      omega
    rcases lookup_insert_eq_some.mp hl with ⟨rfl, rfl⟩ | ⟨-, hold⟩
    · rcases lookup_insert_eq_some.mp hl' with ⟨rfl, -⟩ | ⟨-, hold'⟩
      · rfl
      · exact absurd hold' (hnew key')
    · rcases lookup_insert_eq_some.mp hl' with ⟨-, rfl⟩ | ⟨-, hold'⟩
      · exact absurd hold (hnew key)
      · exact h.once key key' l' hold hold'
  entry l' hl' := by
    rcases List.mem_cons.mp hl' with rfl | hold
    · exact ⟨t, AList.lookup_insert _, hmethod⟩
    · obtain ⟨t', hentry, hmethod'⟩ := h.entry l' hold
      refine ⟨t', ?_, hmethod'⟩
      have hne : t'.key ≠ t.key := by
        intro hkey
        rw [hkey, hnone] at hentry
        cases hentry
      rw [AList.lookup_insert_ne hne]
      exact hentry
  fresh l' hl' := by
    rcases List.mem_cons.mp hl' with rfl | hold
    · exact hid ▸ Nat.lt_succ_self _
    · exact Nat.lt_succ_of_lt (h.fresh l' hold)
  distinct := by
    have hother : ∀ l' ∈ s.installed, l'.id ≠ l.id := by
      intro l' hl'
      have := h.fresh l' hl'
      omega
    intro l₁ h₁ l₂ h₂ hsame
    rcases List.mem_cons.mp h₁ with rfl | hold₁
    · rcases List.mem_cons.mp h₂ with rfl | hold₂
      · rfl
      · exact absurd hsame.symm (hother l₂ hold₂)
    · rcases List.mem_cons.mp h₂ with rfl | hold₂
      · exact absurd hsame (hother l₁ hold₁)
      · exact h.distinct l₁ hold₁ l₂ hold₂ hsame

theorem Inv.skip (h : Inv w s) : Inv w { s with next := s.next + 1 } where
  table := h.table
  once := h.once
  entry := h.entry
  fresh l hl := Nat.lt_succ_of_lt (h.fresh l hl)
  distinct := h.distinct

theorem Inv.unhook (h : Inv w s) (hentry : s.listeners.lookup t.key = some l) :
    Inv w { s with listeners := s.listeners.erase t.key, installed := unHook l s.installed } where
  table key l' hl' := by
    obtain ⟨hkey, hold⟩ := lookup_erase_eq_some.mp hl'
    refine mem_unHook.mpr ⟨h.table key l' hold, fun hid => ?_⟩
    have hsame := h.distinct l' (h.table key l' hold) l (h.table t.key l hentry) hid
    exact hkey (h.once key t.key l (hsame ▸ hold) hentry)
  once key key' l' hl hl' :=
    h.once key key' l' (lookup_erase_eq_some.mp hl).2 (lookup_erase_eq_some.mp hl').2
  entry l' hl' := by
    obtain ⟨hold, hid⟩ := mem_unHook.mp hl'
    obtain ⟨t', hentry', hmethod⟩ := h.entry l' hold
    refine ⟨t', lookup_erase_eq_some.mpr ⟨fun hkey => hid ?_, hentry'⟩, hmethod⟩
    rw [hkey, hentry] at hentry'
    cases hentry'
    rfl
  fresh l' hl' := h.fresh l' (mem_unHook.mp hl').1
  distinct l₁ h₁ l₂ h₂ := h.distinct l₁ (mem_unHook.mp h₁).1 l₂ (mem_unHook.mp h₂).1

theorem inv_apply (h : Inv w s) (op : Op) : Inv w (s.apply w op) := by
  cases op with
  | hookMethod t minDexPc maxDexPc safeToString res =>
    unfold Agent.apply
    dsimp only
    rcases hookMethod_cases w t minDexPc maxDexPc safeToString res s with
      ⟨-, hres⟩ | ⟨-, -, hres⟩ | ⟨hnone, ⟨-, hres⟩ | hres | ⟨l, hid, hmethod, hres⟩⟩
    · rw [hres]; exact h
    · rw [hres]; exact h
    · rw [hres]; exact h
    · rw [hres]; exact h.skip
    · rw [hres]; exact h.hook hid hnone hmethod
  | unhookMethod t =>
    unfold Agent.apply
    dsimp only
    cases hentry : s.listeners.lookup t.key with
    | none =>
      rw [unhookMethod_of_none hentry]
      exact h
    | some l =>
      rw [unhookMethod_of_some hentry]
      exact h.unhook hentry

theorem inv_history (w : World κ μ) (ops : List Op) : Inv w (history w ops) := by
  induction ops using List.reverseRecOn with
  | nil => exact inv_initial
  | append_singleton ops op ih =>
    rw [history, List.foldl_append]
    exact inv_apply ih op

/-- With one name for each method, the listener installed for it is under its key. -/
theorem Inv.lookup_of_mem (h : Inv w s) (hw : w.Determined) (hl : l ∈ s.installed)
    (hmethod : w.denoted t = some l.method) : s.listeners.lookup t.key = some l := by
  obtain ⟨t', hentry, hmethod'⟩ := h.entry l hl
  obtain ⟨hclass, hname, hnum⟩ := hw t t' l.method hmethod hmethod'
  have hkey : t.key = t'.key := by rw [Target.key, Target.key, hclass, hname, hnum]
  rw [hkey]
  exact hentry

/-! ### When a call is right -/

/-- The call does what it should for the method it means: `hookMethod` reports it as hooked
    exactly when it is, and `unhookMethod` returns true exactly then and removes its listener and
    no other. -/
def Tracks (w : World κ μ) (s : Agent μ) : Op → Prop
  | .hookMethod t minDexPc maxDexPc safeToString res =>
      (hookMethod w t minDexPc maxDexPc safeToString res s).1 = ALREADY_HOOK ↔ Hooked w s t
  | .unhookMethod t =>
      ((unhookMethod t s).1 = true ↔ Hooked w s t) ∧
        ∀ l, l ∈ (unhookMethod t s).2.installed ↔ l ∈ s.installed ∧ w.denoted t ≠ some l.method

/-- What the table has under the key, if anything, is for the method that is meant. -/
def KeyMeans (w : World κ μ) (s : Agent μ) (t : Target) : Prop :=
  ∀ l, s.listeners.lookup t.key = some l → w.denoted t = some l.method

/-- A call that gets as far as the table finds there what it means. -/
def Unambiguous (w : World κ μ) (s : Agent μ) : Op → Prop
  | .hookMethod t _ _ _ _ => w.findClass t.className ≠ none → KeyMeans w s t
  | .unhookMethod t => KeyMeans w s t

theorem Inv.hooked_iff (h : Inv w s) (hw : w.Determined) :
    Hooked w s t ↔ ∃ l, s.listeners.lookup t.key = some l ∧ w.denoted t = some l.method := by
  constructor
  · rintro ⟨l, hl, hmethod⟩
    exact ⟨l, h.lookup_of_mem hw hl hmethod, hmethod⟩
  · rintro ⟨l, hentry, hmethod⟩
    exact ⟨l, h.table t.key l hentry, hmethod⟩

theorem Inv.tracks_iff_unambiguous (h : Inv w s) (hw : w.Determined) (op : Op) :
    Tracks w s op ↔ Unambiguous w s op := by
  cases op with
  | hookMethod t minDexPc maxDexPc safeToString res =>
    simp only [Tracks, Unambiguous, KeyMeans, h.hooked_iff hw]
    rcases hookMethod_cases w t minDexPc maxDexPc safeToString res s with
      ⟨hclass, hres⟩ | ⟨hclass, ⟨l, hentry⟩, hres⟩ | ⟨hnone, hres⟩
    · -- without the class there is no method
      have hdenoted : w.denoted t = none := by rw [World.denoted, hclass]; rfl
      rw [hres, hdenoted]
      refine iff_of_true (iff_of_false ?_ ?_) (fun hno => absurd hclass hno)
      · show CLASS_NOT_FIND ≠ ALREADY_HOOK
        decide
      · rintro ⟨l, -, h⟩
        cases h
    · rw [hres, hentry]
      simp [hclass]
    · have hres' : (hookMethod w t minDexPc maxDexPc safeToString res s).1 ≠ ALREADY_HOOK := by
        rcases hres with ⟨-, hres⟩ | hres | ⟨l, -, -, hres⟩
        all_goals
          rw [hres]
          dsimp only
          decide
      rw [hnone]
      simp [hres']
  | unhookMethod t =>
    simp only [Tracks, Unambiguous, KeyMeans, h.hooked_iff hw]
    cases hentry : s.listeners.lookup t.key with
    | none =>
      rw [unhookMethod_of_none hentry]
      refine iff_of_true ⟨by simp, fun l => ⟨fun hl => ⟨hl, fun hmethod => ?_⟩, And.left⟩⟩ nofun
      have hfound := h.lookup_of_mem hw hl hmethod
      rw [hentry] at hfound
      cases hfound
    | some l =>
      rw [unhookMethod_of_some hentry]
      constructor
      · rintro ⟨hresult, -⟩ l' hl'
        obtain ⟨l₁, hl₁, hmethod⟩ := hresult.mp rfl
        rw [← Option.some.inj (hl₁.symm.trans hl')]
        exact hmethod
      · intro hmeans
        have hmethod := hmeans l rfl
        refine ⟨iff_of_true rfl ⟨l, rfl, hmethod⟩, fun l' => ?_⟩
        dsimp only
        rw [mem_unHook]
        refine and_congr_right fun hl' => not_congr ⟨fun hid => ?_, fun hmethod' => ?_⟩
        · rw [h.distinct l' hl' l (h.table _ _ hentry) hid]
          exact hmethod
        · have hfound := h.lookup_of_mem hw hl' hmethod'
          rw [hentry] at hfound
          cases hfound
          rfl

/-- **When method hooks are tracked per method**: at every point of every history, a call is right
    exactly when the entry under its key, if it looks for one and there is one, belongs to the
    method it means. -/
theorem tracks_iff (w : World κ μ) (hw : w.Determined) (ops : List Op) (op : Op) :
    Tracks w (history w ops) op ↔ Unambiguous w (history w ops) op :=
  (inv_history w ops).tracks_iff_unambiguous hw op

/-- An app with one class `A` and two methods `f` of one argument. -/
def overloads : World Nat Nat where
  findClass className := if className = ['A'] then some 0 else none
  findMethod _ methodName numArgs args :=
    if methodName = ['f'] ∧ numArgs = 1 then
      if args = some ['I'] then some 0 else if args = some ['Z'] then some 1 else none
    else none

/-- The overload that takes an argument of the type. -/
def overload (type : Char) : Target := ⟨['A'], ['f'], 1, some [type]⟩

theorem overloads_determined : overloads.Determined := by
  have hnames : ∀ t method, overloads.denoted t = some method →
      t.className = ['A'] ∧ t.methodName = ['f'] ∧ t.numArgs = 1 := by
    intro t method h
    obtain ⟨clz, hclass, hmethod⟩ := Option.bind_eq_some_iff.mp h
    obtain ⟨hname, -⟩ := Option.ite_none_right_eq_some.mp hclass
    obtain ⟨hfound, -⟩ := Option.ite_none_right_eq_some.mp hmethod
    exact ⟨hname, hfound⟩
  intro t t' method h h'
  obtain ⟨hclass, hname, hnum⟩ := hnames t method h
  obtain ⟨hclass', hname', hnum'⟩ := hnames t' method h'
  exact ⟨hclass.trans hclass'.symm, hname.trans hname'.symm, hnum.trans hnum'.symm⟩

theorem tracks_iff_overloads :
    Tracks overloads (history overloads [.hookMethod (overload 'I') 0 0 true true])
        (.unhookMethod (overload 'I')) ↔
      Unambiguous overloads (history overloads [.hookMethod (overload 'I') 0 0 true true])
        (.unhookMethod (overload 'I')) :=
  tracks_iff overloads overloads_determined _ _

/-- With the first overload hooked, the second is reported as hooked, and unhooking it takes the
    first one's hook away. -/
theorem overloads_confused :
    let s := history overloads [.hookMethod (overload 'I') 0 0 true true]
    (s.installed.map fun l => l.method) = [0] ∧ overloads.denoted (overload 'Z') = some 1 ∧
      (hookMethod overloads (overload 'Z') 0 0 true true s).1 = ALREADY_HOOK ∧
      (unhookMethod (overload 'Z') s).1 = true ∧
      (unhookMethod (overload 'Z') s).2.installed.map (fun l => l.method) = [] := by
  decide +kernel

end Albatross.MethodHooks
