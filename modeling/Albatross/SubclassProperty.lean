/-
  Albatross/SubclassProperty.lean
  ===============================
  **Values cached per class** (`wrapper.py`: `cached_subclass_property`;
  `rpc_common.py`: `RpcApi.apis`).

  A class below the one that declares the property is the list of names on its way up to
  it, its own name first; the declaring class is the empty list.  Looking up the
  attribute goes up this list.  The descriptor computes the value of a class and stores
  it in the class, where the lookup for a class below finds it before it comes to the
  descriptor.  So an access returns the value of the class itself exactly when the
  nearest class that has got a value of its own, if there is one, has the same
  (`access_eq_func_iff`).  A class gets a value of its own when it is accessed before
  every class at or above it.

  Accesses come one after the other.  `func` returns a value, never `nil_value`.
-/
import Mathlib.Data.List.Infix
import Mathlib.Logic.Function.Basic

namespace Albatross.SubclassProperty

variable {ν V : Type} [DecidableEq ν]

abbrev Class (ν : Type) := List ν

/-- `get v cls` is what an attribute access makes of a value that it finds in a class:
    `v.__get__(None, cls)` where the value is a descriptor itself, and otherwise the value. -/
structure Property (ν V : Type) where
  func : Class ν → V
  get : V → Class ν → V

/-- The attribute in the `__dict__` of each class below the declaring one, and the
    `value_tables` of the descriptor. -/
structure State (ν V : Type) where
  attrs : Class ν → Option V
  value_tables : Class ν → Option V

def State.start : State ν V := ⟨fun _ => none, fun _ => none⟩

/-- The lookup along the base classes; `none` when it comes to the declaring class. -/
def lookup (attrs : Class ν → Option V) : Class ν → Option V
  | [] => none
  | name :: base =>
      match attrs (name :: base) with
      | some v => some v
      | none => lookup attrs base

/-- `cached_subclass_property.__get__(None, cls)`; `none` when it raises. -/
def Property.dunderGet (p : Property ν V) (cls : Class ν) (s : State ν V) : Option V × State ν V :=
  if cls = [] ∨ (s.attrs cls).isSome then (none, s)
  else
    let v := (s.value_tables cls).getD (p.func cls)
    let tables := Function.update s.value_tables cls (some v)
    (some v, ⟨Function.update s.attrs cls (some v), Function.update tables cls none⟩)

/-- `cls.name`. -/
def Property.access (p : Property ν V) (cls : Class ν) (s : State ν V) : Option V × State ν V :=
  match lookup s.attrs cls with
  | some v => (some (p.get v cls), s)
  | none => p.dunderGet cls s

def Property.after (p : Property ν V) (past : List (Class ν)) : State ν V :=
  past.foldl (fun s cls => (p.access cls s).2) .start

/-! ### The lookup -/

section Lookup

variable {attrs : Class ν → Option V} {C X : Class ν} {v : V}

omit [DecidableEq ν] in
/-- What the lookup finds is in the nearest class that has the attribute. -/
theorem lookup_eq_some (h : lookup attrs C = some v) :
    ∃ X, X ≠ [] ∧ X <:+ C ∧ attrs X = some v ∧
      ∀ Y, Y ≠ [] → Y <:+ C → attrs Y ≠ none → Y <:+ X := by
  induction C with
  | nil => cases h
  | cons name base ih =>
    unfold lookup at h
    split at h
    · next w hw =>
      cases h
      exact ⟨name :: base, by simp, List.suffix_refl _, hw, fun _ _ hY _ => hY⟩
    · next hnone =>
      obtain ⟨X, hne, hX, hv, hnearest⟩ := ih h
      refine ⟨X, hne, hX.trans (List.suffix_cons name base), hv, fun Y hYne hY hattr => ?_⟩
      rcases List.suffix_cons_iff.mp hY with rfl | hY
      · exact absurd hnone hattr
      · exact hnearest Y hYne hY hattr

omit [DecidableEq ν] in
theorem lookup_ne_none (hne : X ≠ []) (hX : X <:+ C) (hattr : attrs X ≠ none) :
    lookup attrs C ≠ none := by
  induction C with
  | nil => exact absurd (List.suffix_nil.mp hX) hne
  | cons name base ih =>
    unfold lookup
    split
    · simp
    · next hnone =>
      rcases List.suffix_cons_iff.mp hX with rfl | hX
      · exact absurd hnone hattr
      · exact ih hX

end Lookup

/-! ### Histories -/

/-- `X` was accessed before every class at or above it. -/
def First (past : List (Class ν)) (X : Class ν) : Prop :=
  ∃ earlier later, past = earlier ++ X :: later ∧ ∀ Y ∈ earlier, Y ≠ [] → ¬ Y <:+ X

/-- `X` is the nearest class, at `C` or above it, that was accessed before every class at or
    above itself. -/
def Nearest (past : List (Class ν)) (C X : Class ν) : Prop :=
  X ≠ [] ∧ X <:+ C ∧ First past X ∧ ∀ Y, Y ≠ [] → Y <:+ C → First past Y → Y <:+ X

section History

variable {past : List (Class ν)} {C X Y : Class ν}

omit [DecidableEq ν] in
theorem First.mem (h : First past X) : X ∈ past := by
  obtain ⟨earlier, later, rfl, -⟩ := h
  simp

omit [DecidableEq ν] in
theorem First.append (h : First past X) : First (past ++ [C]) X := by
  obtain ⟨earlier, later, rfl, hearlier⟩ := h
  exact ⟨earlier, later ++ [C], by simp, hearlier⟩

omit [DecidableEq ν] in
/-- The access that makes a class the first on its way up is to the class itself. -/
theorem first_append_iff :
    First (past ++ [C]) X ↔ First past X ∨ (X = C ∧ ∀ Y ∈ past, Y ≠ [] → ¬ Y <:+ C) := by
  constructor
  · rintro ⟨earlier, later, hpast, hearlier⟩
    rcases List.eq_nil_or_concat later with rfl | ⟨later, last, rfl⟩
    · obtain ⟨rfl, hC⟩ := List.append_inj' hpast rfl
      cases hC
      exact Or.inr ⟨rfl, hearlier⟩
    · rw [List.concat_eq_append, ← List.cons_append, ← List.append_assoc] at hpast
      obtain ⟨rfl, -⟩ := List.append_inj' hpast rfl
      exact Or.inl ⟨earlier, later, rfl, hearlier⟩
  · rintro (h | ⟨rfl, hpast⟩)
    · exact h.append
    · exact ⟨past, [], rfl, hpast⟩

omit [DecidableEq ν] in
/-- Above a class that was accessed there is one that was accessed first. -/
theorem exists_first (hY : Y ∈ past) (hne : Y ≠ []) (hYC : Y <:+ C) :
    ∃ X, X ≠ [] ∧ X <:+ C ∧ First past X := by
  induction past with
  | nil => cases hY
  | cons Z past ih =>
    by_cases hZ : Z ≠ [] ∧ Z <:+ C
    · exact ⟨Z, hZ.1, hZ.2, [], past, rfl, fun _ h => by cases h⟩
    · have htail : Y ∈ past := by
        rcases List.mem_cons.mp hY with rfl | htail
        · exact absurd ⟨hne, hYC⟩ hZ
        · exact htail
      obtain ⟨X, hXne, hX, earlier, later, rfl, hearlier⟩ := ih htail
      refine ⟨X, hXne, hX, Z :: earlier, later, rfl, fun W hW hWne hWX => ?_⟩
      rcases List.mem_cons.mp hW with rfl | hW
      · exact hZ ⟨hWne, hWX.trans hX⟩
      · exact hearlier W hW hWne hWX

end History

/-! ### What is stored -/

section Access

variable (p : Property ν V)

/-- The classes that hold a value after a history hold their own; between accesses
    `value_tables` is empty. -/
structure Stores (past : List (Class ν)) (s : State ν V) : Prop where
  own : ∀ X v, s.attrs X = some v → v = p.func X
  holds : ∀ X, X ≠ [] → (s.attrs X ≠ none ↔ First past X)
  tables : ∀ X, s.value_tables X = none

variable {p} {past : List (Class ν)} {C : Class ν} {s : State ν V}

theorem after_append (past : List (Class ν)) (C : Class ν) :
    p.after (past ++ [C]) = (p.access C (p.after past)).2 := by
  unfold Property.after
  rw [List.foldl_append]
  rfl

omit [DecidableEq ν] in
/-- The lookup comes to the declaring class exactly when no class on the way was accessed. -/
theorem lookup_eq_none_iff (hs : Stores p past s) :
    lookup s.attrs C = none ↔ ∀ Y ∈ past, Y ≠ [] → ¬ Y <:+ C := by
  constructor
  · intro hnone Y hY hne hYC
    obtain ⟨X, hXne, hX, hfirst⟩ := exists_first hY hne hYC
    exact lookup_ne_none hXne hX ((hs.holds X hXne).mpr hfirst) hnone
  · intro hno
    by_contra hsome
    obtain ⟨v, hv⟩ := Option.ne_none_iff_exists'.mp hsome
    obtain ⟨X, hXne, hX, hattr, -⟩ := lookup_eq_some hv
    have hfirst : First past X := (hs.holds X hXne).mp (by rw [hattr]; simp)
    exact hno X hfirst.mem hXne hX

/-- Where the lookup comes to the declaring class, the value is computed and stored. -/
theorem dunderGet_of_lookup (hs : Stores p past s) (hC : C ≠ []) (hnone : lookup s.attrs C = none) :
    p.dunderGet C s =
      (some (p.func C),
        ⟨Function.update s.attrs C (some (p.func C)),
          Function.update (Function.update s.value_tables C (some (p.func C))) C none⟩) := by
  have hattr : s.attrs C = none := by
    by_contra hattr
    exact lookup_ne_none hC (List.suffix_refl C) hattr hnone
  unfold Property.dunderGet
  rw [if_neg (by simp [hC, hattr]), hs.tables C]
  rfl

theorem Stores.access (hs : Stores p past s) (C : Class ν) :
    Stores p (past ++ [C]) (p.access C s).2 := by
  unfold Property.access
  split
  · next v hv =>
    have hsome : ¬ ∀ Y ∈ past, Y ≠ [] → ¬ Y <:+ C := by
      rw [← lookup_eq_none_iff hs, hv]
      simp
    refine ⟨hs.own, fun X hX => ?_, hs.tables⟩
    rw [hs.holds X hX, first_append_iff]
    exact ⟨Or.inl, fun h => h.elim id fun h => absurd h.2 hsome⟩
  · next hnone =>
    have hno := (lookup_eq_none_iff hs).mp hnone
    by_cases hC : C = []
    · subst hC
      have hsame : (p.dunderGet [] s).2 = s := by simp [Property.dunderGet]
      rw [hsame]
      refine ⟨hs.own, fun X hX => ?_, hs.tables⟩
      rw [hs.holds X hX, first_append_iff]
      exact ⟨Or.inl, fun h => h.elim id fun h => absurd h.1 hX⟩
    · rw [dunderGet_of_lookup hs hC hnone]
      refine ⟨fun X v h => ?_, fun X hX => ?_, fun X => ?_⟩
      · by_cases hXC : X = C
        · subst hXC
          dsimp only at h
          rw [Function.update_self] at h
          exact (Option.some.inj h).symm
        · dsimp only at h
          rw [Function.update_of_ne hXC] at h
          exact hs.own X v h
      · dsimp only
        rw [first_append_iff]
        by_cases hXC : X = C
        · subst hXC
          rw [Function.update_self]
          exact iff_of_true (by simp) (Or.inr ⟨rfl, hno⟩)
        · rw [Function.update_of_ne hXC, hs.holds X hX]
          exact ⟨Or.inl, fun h => h.elim id fun h => absurd h.1 hXC⟩
      · dsimp only
        by_cases hXC : X = C
        · rw [hXC, Function.update_self]
        · rw [Function.update_of_ne hXC, Function.update_of_ne hXC]
          exact hs.tables X

theorem stores_after (past : List (Class ν)) : Stores p past (p.after past) := by
  induction past using List.reverseRecOn with
  | nil =>
    refine ⟨fun X v h => (by cases h), fun X _ => iff_of_false (fun h => h rfl) ?_, fun _ => rfl⟩
    intro h
    cases h.mem
  | append_singleton past C ih =>
    rw [after_append]
    exact ih.access C

/-- **When an access returns the value of the class itself**, for every tree of classes and every
    history of accesses. -/
theorem access_eq_func_iff (past : List (Class ν)) {C : Class ν} (hC : C ≠ []) :
    (p.access C (p.after past)).1 = some (p.func C) ↔
      ∀ X, Nearest past C X → p.get (p.func X) C = p.func C := by
  have hs : Stores p past (p.after past) := stores_after past
  unfold Property.access
  split
  · next v hv =>
    obtain ⟨X, hXne, hX, hattr, hnearest⟩ := lookup_eq_some hv
    have hfirst : ∀ Y, Y ≠ [] → First past Y → (p.after past).attrs Y ≠ none := fun Y hY =>
      (hs.holds Y hY).mpr
    have hfound : Nearest past C X := by
      refine ⟨hXne, hX, (hs.holds X hXne).mp (by rw [hattr]; simp), fun Y hY hYC hYfirst => ?_⟩
      exact hnearest Y hY hYC (hfirst Y hY hYfirst)
    have hown : v = p.func X := hs.own X v hattr
    rw [Option.some.injEq, hown]
    constructor
    · intro h X' hX'
      have hsame : X' = X := by
        have hup := hfound.2.2.2 X' hX'.1 hX'.2.1 hX'.2.2.1
        have hdown := hX'.2.2.2 X hXne hX hfound.2.2.1
        exact hup.eq_of_length_le hdown.length_le
      rw [hsame]
      exact h
    · exact fun h => h X hfound
  · next hnone =>
    have hno := (lookup_eq_none_iff hs).mp hnone
    rw [dunderGet_of_lookup hs hC hnone]
    refine iff_of_true rfl fun X hX => ?_
    exact absurd hX.2.1 (hno X hX.2.2.1.mem hX.1)

/-- A class below `A` that was accessed before `A` still has its own value. -/
theorem access_eq_func_iff_childFirst :
    ((⟨fun C => C.length, fun v _ => v⟩ : Property Nat Nat).access [2, 1]
        ((⟨fun C => C.length, fun v _ => v⟩ : Property Nat Nat).after [[2, 1], [1]])).1 =
      some 2 := by
  refine (access_eq_func_iff [[2, 1], [1]] (C := [2, 1]) (by decide)).mpr fun X hX => ?_
  have hfirst : First [[2, 1], [1]] [2, 1] := ⟨[], [[1]], rfl, fun _ h => by cases h⟩
  have hnear := hX.2.2.2 [2, 1] (by decide) (List.suffix_refl _) hfirst
  have hsame : X = [2, 1] := hX.2.1.eq_of_length_le hnear.length_le
  rw [hsame]

end Access

/-! ### `RpcApi.apis` -/

/-- What `RpcApi.apis` reads of an item in the `__dict__` of a class. -/
structure Member where
  value : Nat
  callable : Bool
  _api : Bool
  deriving DecidableEq

/-- The `apis` of the classes below `RpcApi`; an access of a `dict` leaves it as it is. -/
def RpcApi.apis (dunderDict : Class String → List (String × Member)) :
    Property String (List (String × Member)) :=
  ⟨fun cls => (dunderDict cls).filter fun item => item.2.callable && item.2._api, fun v _ => v⟩

/-- A class with the api function `a` and a class below it with the api function `b`. -/
def baseAndDerived : Class String → List (String × Member)
  | ["Base"] => [("a", ⟨0, true, true⟩)]
  | ["Derived", "Base"] => [("b", ⟨1, true, true⟩)]
  | _ => []

/-- After the base class has been inspected, the class below it has the table of the base class. -/
theorem not_own_apis :
    ((RpcApi.apis baseAndDerived).access ["Derived", "Base"]
        ((RpcApi.apis baseAndDerived).after [["Base"]])).1 ≠
      some ((RpcApi.apis baseAndDerived).func ["Derived", "Base"]) := by
  decide

end Albatross.SubclassProperty
