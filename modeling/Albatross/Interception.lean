/-
  Albatross/Interception.lean
  ===========================
  **The registry as sets of names, and where its strings fall short of that.**

  What the registry is for can be said without strings: above `SYSTEM_UID` a uid is
  registered or not; up to it a uid has a set of package names and may be in
  no-filter mode (`Interests`).  For names that are not prefixes of each other
  and do not start like the sentinel the strings implement exactly that, over every
  history of calls (`history_reports`).

  For arbitrary names they do not.  An item answers for each of its prefixes, and
  taking out one name cuts into the items it begins; what is left of them joins the
  item before.  `untouched_iff` says precisely when the calls for one package leave
  the launches of another alone.
-/
import Albatross.Registry
import Mathlib.Data.Set.Insert
import Mathlib.Logic.Function.Basic

namespace Albatross.Interception

open Assoc Separated Registry

/-! ### What the registry is for -/

structure Entry where
  registered : Bool
  noFilter : Bool
  added : Set JavaString

def Entry.empty : Entry := ⟨false, false, ∅⟩

structure Interests where
  all : Bool
  entry : Int → Entry

namespace Interests

def empty : Interests := ⟨false, fun _ => .empty⟩

def register (uid : Int) (p : JavaString) (a : Interests) : Interests :=
  let e := a.entry uid
  { a with entry := Function.update a.entry uid ⟨true, e.noFilter, insert p e.added⟩ }

def registerAny (uid : Int) (a : Interests) : Interests :=
  { a with entry := Function.update a.entry uid ⟨true, true, ∅⟩ }

def remove (uid : Int) (p : JavaString) (a : Interests) : Interests :=
  let e := a.entry uid
  let e' := if uid > SYSTEM_UID then .empty else { e with added := e.added \ {p} }
  { a with entry := Function.update a.entry uid e' }

def clear (a : Interests) : Interests := { a with entry := fun _ => .empty }

def apply (uidOf : JavaString → Option Int) (a : Interests) : Op → Interests
  | .setInterceptApp pkg clearFirst =>
      let a := if clearFirst then a.clear else a
      match pkg with
      | none => a
      | some p =>
          if p = ['a', 'l', 'l'] then { a with all := true }
          else match uidOf p with
            | none => a
            | some uid => a.register uid p
  | .setIntercept uid none => a.registerAny uid
  | .setIntercept uid (some p) => a.register uid p
  | .removeIntercept uid pkg => a.remove uid (text pkg)
  | .clearIntercept => a.clear
  | .setInterceptAll intercept => { a with all := intercept }

/-- Whether a launch of `p` under `uid` is to be reported. -/
def Reports (a : Interests) (uid : Int) (p : JavaString) : Prop :=
  a.all = true ∨
    if uid > SYSTEM_UID then (a.entry uid).registered = true
    else (a.entry uid).noFilter = true ∨ p ∈ (a.entry uid).added

end Interests

/-! ### The names the strings are made for -/

structure PackageNames (names : Set JavaString) : Prop where
  nonempty : ∀ p ∈ names, p ≠ []
  noSplit : ∀ p ∈ names, SPLIT ∉ p
  noSentinel : ∀ p ∈ names, ¬ sentinel <+: p
  notAll : ∀ p ∈ names, p ≠ ['a', 'l', 'l']
  prefixFree : ∀ p ∈ names, ∀ q ∈ names, p <+: q → p = q

/-- A call whose package arguments are among the names; `setInterceptApp` also takes
    null and its keyword. -/
def Over (names : Set JavaString) : Op → Prop
  | .setInterceptApp pkg _ => ∀ p, pkg = some p → p ∈ names ∨ p = ['a', 'l', 'l']
  | .setIntercept _ process => ∀ p, process = some p → p ∈ names
  | .removeIntercept _ pkg => text pkg ∈ names
  | .clearIntercept => True
  | .setInterceptAll _ => True

/-- The items a history over the names can leave. -/
def Proper (names : Set JavaString) (xs : List JavaString) : Prop :=
  ∀ x ∈ xs, x = sentinel ∨ x ∈ names

section Names

variable {names : Set JavaString} (hnames : PackageNames names)

include hnames

theorem PackageNames.ne_sentinel {p : JavaString} (hp : p ∈ names) : p ≠ sentinel := by
  rintro rfl
  exact hnames.noSentinel sentinel hp List.prefix_rfl

theorem PackageNames.prefix_iff {xs : List JavaString} (hxs : Proper names xs) {p x : JavaString}
    (hp : p ∈ names) (hx : x ∈ xs) : p <+: x ↔ x = p := by
  constructor
  · intro hpre
    rcases hxs x hx with rfl | hmem
    · have hlen := hpre.length_le
      cases p with
      | nil => exact absurd rfl (hnames.nonempty [] hp)
      | cons c p =>
        have hnil : p = [] := by simpa [sentinel] using hlen
        subst hnil
        exact (hpre.eq_of_length rfl).symm
    · exact (hnames.prefixFree p hp x hmem hpre).symm
  · rintro rfl
    exact List.prefix_rfl

theorem PackageNames.exists_prefix_iff {xs : List JavaString} (hxs : Proper names xs)
    {p : JavaString} (hp : p ∈ names) : (∃ x ∈ xs, p <+: x) ↔ p ∈ xs := by
  constructor
  · rintro ⟨x, hx, hpre⟩
    rwa [← (hnames.prefix_iff hxs hp hx).mp hpre]
  · intro h
    exact ⟨p, h, List.prefix_rfl⟩

theorem PackageNames.sentinel_prefix_iff {xs : List JavaString} (hxs : Proper names xs)
    {x : JavaString} (hx : x ∈ xs) : sentinel <+: x ↔ x = sentinel := by
  constructor
  · intro hpre
    rcases hxs x hx with rfl | hmem
    · rfl
    · exact absurd hpre (hnames.noSentinel x hmem)
  · rintro rfl
    exact List.prefix_rfl

theorem PackageNames.matched_iff {xs : List JavaString} (hxs : Proper names xs) {p : JavaString}
    (hp : p ∈ names) : Matched xs p ↔ sentinel ∈ xs ∨ p ∈ xs := by
  constructor
  · rintro ⟨x, hx, hsent | hpre⟩
    · exact Or.inl ((hnames.sentinel_prefix_iff hxs hx).mp hsent ▸ hx)
    · exact Or.inr ((hnames.prefix_iff hxs hp hx).mp hpre ▸ hx)
  · rintro (h | h)
    · exact ⟨sentinel, h, Or.inl List.prefix_rfl⟩
    · exact ⟨p, h, Or.inr List.prefix_rfl⟩

end Names

/-! ### The refinement -/

/-- The entry of one uid says what the abstract entry says. -/
structure RefinesAt (names : Set JavaString) (apps : Dict Int JavaString) (uid : Int) (e : Entry) :
    Prop where
  above : uid > SYSTEM_UID → ((apps.lookup uid).isSome = true ↔ e.registered = true)
  proper : uid ≤ SYSTEM_UID → Proper names (itemsOf apps uid)
  noFilter : uid ≤ SYSTEM_UID → (sentinel ∈ itemsOf apps uid ↔ e.noFilter = true)
  added : uid ≤ SYSTEM_UID → ∀ p ∈ names, (p ∈ itemsOf apps uid ↔ p ∈ e.added)

structure Refines (names : Set JavaString) (s : Agent) (a : Interests) : Prop where
  all : s.interceptAll = a.all
  entries : ∀ uid, RefinesAt names s.interceptApps uid (a.entry uid)

section Refinement

variable {names : Set JavaString} {apps apps' : Dict Int JavaString} {s s' : Agent} {a : Interests}
  {uid : Int} {e : Entry}

theorem RefinesAt.congr (hlookup : apps'.lookup uid = apps.lookup uid)
    (h : RefinesAt names apps uid e) : RefinesAt names apps' uid e := by
  have hitems : itemsOf apps' uid = itemsOf apps uid := by rw [itemsOf, itemsOf, hlookup]
  refine ⟨?_, ?_, ?_, ?_⟩
  · rw [hlookup]; exact h.above
  · rw [hitems]; exact h.proper
  · rw [hitems]; exact h.noFilter
  · rw [hitems]; exact h.added

theorem RefinesAt.empty (hnone : apps.lookup uid = none) : RefinesAt names apps uid .empty := by
  have hitems : itemsOf apps uid = [] := itemsOf_none hnone
  refine ⟨?_, ?_, ?_, ?_⟩
  · intro _
    simp [hnone, Entry.empty]
  · intro _ x hx
    rw [hitems] at hx
    cases hx
  · intro _
    simp [hitems, Entry.empty]
  · intro _ p _
    simp [hitems, Entry.empty]

theorem Refines.update (h : Refines names s a) (hall : s'.interceptAll = s.interceptAll)
    (hother : ∀ u, u ≠ uid → s'.interceptApps.lookup u = s.interceptApps.lookup u)
    (hself : RefinesAt names s'.interceptApps uid e) :
    Refines names s' { a with entry := Function.update a.entry uid e } := by
  refine ⟨hall.trans h.all, fun u => ?_⟩
  by_cases hu : u = uid
  · subst hu
    simp only [Function.update_self]
    exact hself
  · simp only [Function.update_of_ne hu]
    exact (h.entries u).congr (hother u hu)

theorem Refines.clear (h : Refines names s a) : Refines names (clearIntercept s) a.clear :=
  ⟨h.all, fun uid => RefinesAt.empty (AList.lookup_empty uid)⟩

theorem Refines.setAll (h : Refines names s a) (b : Bool) :
    Refines names { s with interceptAll := b } { a with all := b } :=
  ⟨rfl, h.entries⟩

theorem RefinesAt.addItem (hnames : PackageNames names) {p : JavaString} (hp : p ∈ names)
    (h : RefinesAt names apps uid e) :
    RefinesAt names (addItem apps uid p) uid ⟨true, e.noFilter, insert p e.added⟩ := by
  have hitems : itemsOf (Registry.addItem apps uid p) uid = if ∃ x ∈ itemsOf apps uid, p <+: x then
      itemsOf apps uid else itemsOf apps uid ++ [p] := itemsOf_addItem (hnames.noSplit p hp)
  refine ⟨?_, ?_, ?_, ?_⟩
  · intro _
    simp [isSome_addItem]
  · intro huid x hx
    rw [hitems] at hx
    split at hx
    · exact h.proper huid x hx
    · rcases List.mem_append.mp hx with hx | hx
      · exact h.proper huid x hx
      · exact Or.inr (List.mem_singleton.mp hx ▸ hp)
  · intro huid
    rw [hitems, ← h.noFilter huid]
    split
    · exact Iff.rfl
    · simp [Ne.symm (hnames.ne_sentinel hp)]
  · intro huid q hq
    rw [hitems, Set.mem_insert_iff, ← h.added huid q hq]
    split
    · next hpre =>
      have hmem := (hnames.exists_prefix_iff (h.proper huid) hp).mp hpre
      constructor
      · exact Or.inr
      · rintro (rfl | hq)
        · exact hmem
        · exact hq
    · rw [List.mem_append, List.mem_singleton, or_comm]

theorem Refines.addItem (hnames : PackageNames names) {p : JavaString} (hp : p ∈ names)
    (h : Refines names s a) (uid : Int) :
    Refines names { s with interceptApps := Registry.addItem s.interceptApps uid p }
      (a.register uid p) :=
  h.update rfl (fun _ hu => lookup_addItem_ne hu) ((h.entries uid).addItem hnames hp)

theorem Refines.insert (h : Refines names s a) (huid : uid > SYSTEM_UID) (p : JavaString) :
    Refines names { s with interceptApps := s.interceptApps.insert uid p } (a.register uid p) := by
  refine h.update rfl (fun u hu => AList.lookup_insert_ne hu) ⟨?_, ?_, ?_, ?_⟩
  · intro _
    simp [AList.lookup_insert]
  all_goals
    intro hle
    exact absurd huid (Int.not_lt.mpr hle)

theorem Refines.setInterceptApp (hnames : PackageNames names) (uidOf : JavaString → Option Int)
    (h : Refines names s a) {pkg : Option JavaString} {clear : Bool}
    (hover : Over names (.setInterceptApp pkg clear)) :
    Refines names (Registry.setInterceptApp uidOf pkg clear s).2
      (a.apply uidOf (.setInterceptApp pkg clear)) := by
  have hcleared : Refines names { s with interceptApps := if clear then ∅ else s.interceptApps }
      (if clear then a.clear else a) := by
    cases clear with
    | true => exact h.clear
    | false => exact h
  unfold Registry.setInterceptApp Interests.apply
  cases pkg with
  | none => exact hcleared
  | some p =>
    dsimp only
    by_cases hall : p = ['a', 'l', 'l']
    · rw [if_pos hall, if_pos hall]
      exact hcleared.setAll true
    · have hp : p ∈ names := (hover p rfl).resolve_right hall
      rw [if_neg hall, if_neg hall]
      cases uidOf p with
      | none => exact hcleared
      | some uid =>
        by_cases huid : uid ≤ SYSTEM_UID
        · simp only [if_pos huid]
          exact hcleared.addItem hnames hp uid
        · simp only [if_neg huid]
          exact hcleared.insert (Int.not_le.mp huid) p

theorem RefinesAt.any (hnames : PackageNames names) :
    RefinesAt names (apps.insert uid NO_FILTER) uid ⟨true, true, ∅⟩ := by
  have hitems : itemsOf (apps.insert uid NO_FILTER) uid = [sentinel] := itemsOf_insert
  refine ⟨?_, ?_, ?_, ?_⟩
  · intro _
    simp [AList.lookup_insert]
  · intro _ x hx
    rw [hitems] at hx
    exact Or.inl (List.mem_singleton.mp hx)
  · intro _
    simp [hitems]
  · intro _ p hp
    simp [hitems, hnames.ne_sentinel hp]

theorem Refines.setIntercept (hnames : PackageNames names) (uidOf : JavaString → Option Int)
    (h : Refines names s a) {process : Option JavaString}
    (hover : Over names (.setIntercept uid process)) :
    Refines names (Registry.setIntercept uid process s)
      (a.apply uidOf (.setIntercept uid process)) := by
  cases process with
  | none => exact h.update rfl (fun _ hu => AList.lookup_insert_ne hu) (RefinesAt.any hnames)
  | some p => exact h.addItem hnames (hover p rfl) uid

/-- A name leaves the items of its uid, and nothing else does. -/
theorem Refines.removeIntercept (hnames : PackageNames names) (uidOf : JavaString → Option Int)
    (h : Refines names s a) {pkg : Option JavaString}
    (hover : Over names (.removeIntercept uid pkg)) :
    Refines names (Registry.removeIntercept uid pkg s)
      (a.apply uidOf (.removeIntercept uid pkg)) := by
  have hp : text pkg ∈ names := hover
  refine h.update (interceptAll_removeIntercept s) (fun _ hu => lookup_removeIntercept_ne hu s) ?_
  by_cases huid : uid > SYSTEM_UID
  · rw [if_pos huid, removeIntercept_system huid]
    exact RefinesAt.empty (AList.lookup_erase uid s.interceptApps)
  · have hle : uid ≤ SYSTEM_UID := Int.not_lt.mp huid
    have hproper := (h.entries uid).proper hle
    have hitems := itemsOf_removeIntercept hle (hnames.noSplit _ hp) s
    have hmem : ∀ x, x ∈ kept (text pkg) (itemsOf s.interceptApps uid) ↔
        x ∈ itemsOf s.interceptApps uid ∧ x ≠ text pkg := fun x =>
      mem_kept_iff fun y hy hpre => (hnames.prefix_iff hproper hp hy).mp hpre
    rw [if_neg huid]
    refine ⟨fun habove => absurd habove huid, ?_, ?_, ?_⟩
    · intro _ x hx
      rw [hitems, hmem] at hx
      exact hproper x hx.1
    · intro _
      rw [hitems, hmem, ← (h.entries uid).noFilter hle]
      exact and_iff_left (Ne.symm (hnames.ne_sentinel hp))
    · intro _ q hq
      rw [hitems, hmem, (h.entries uid).added hle q hq]
      exact Iff.rfl

/-- **Every call keeps the refinement.** -/
theorem Refines.apply (hnames : PackageNames names) (uidOf : JavaString → Option Int)
    (h : Refines names s a) {op : Op} (hover : Over names op) :
    Refines names (s.apply uidOf op) (a.apply uidOf op) := by
  cases op with
  | setInterceptApp pkg clear => exact h.setInterceptApp hnames uidOf hover
  | setIntercept uid process => exact h.setIntercept hnames uidOf hover
  | removeIntercept uid pkg => exact h.removeIntercept hnames uidOf hover
  | clearIntercept => exact h.clear
  | setInterceptAll intercept => exact h.setAll intercept

theorem Refines.foldl (hnames : PackageNames names) (uidOf : JavaString → Option Int)
    {ops : List Op} (hover : ∀ op ∈ ops, Over names op) : ∀ {s : Agent} {a : Interests},
    Refines names s a →
      Refines names (ops.foldl (Agent.apply uidOf) s) (ops.foldl (Interests.apply uidOf) a) := by
  induction ops with
  | nil => intro s a h; exact h
  | cons op ops ih =>
    intro s a h
    exact ih (fun o ho => hover o (List.mem_cons_of_mem op ho))
      (h.apply hnames uidOf (hover op List.mem_cons_self))

theorem refines_initial : Refines names Agent.initial .empty :=
  ⟨rfl, fun uid => RefinesAt.empty (AList.lookup_empty uid)⟩

/-- **A launch of one of the names is decided as the sets say.** -/
theorem Refines.interceptCheck (hnames : PackageNames names) (h : Refines names s a) {n : Nat}
    {pid : Int} {r : ProcessRecord} {p : JavaString} (hn : 0 < n) (hp : p ∈ names)
    (hr : r.info = some p) :
    (interceptCheck s n pid uid r).isSome = true ↔ a.Reports uid p := by
  rw [interceptCheck_isSome hn hr (hnames.noSplit p hp), h.all, Interests.Reports]
  by_cases huid : uid > SYSTEM_UID
  · rw [if_pos huid, if_pos huid, (h.entries uid).above huid]
  · have hle : uid ≤ SYSTEM_UID := Int.not_lt.mp huid
    rw [if_neg huid, if_neg huid, hnames.matched_iff ((h.entries uid).proper hle) hp,
      (h.entries uid).noFilter hle, (h.entries uid).added hle p hp]

end Refinement

/-- **The registry reports what the sets of names report**, after every history of calls
    over names that cannot be confused. -/
theorem history_reports {names : Set JavaString} (hnames : PackageNames names)
    (uidOf : JavaString → Option Int) {ops : List Op} (hover : ∀ op ∈ ops, Over names op)
    {n : Nat} (hn : 0 < n) (pid uid : Int) {p : JavaString} (hp : p ∈ names) {r : ProcessRecord}
    (hr : r.info = some p) :
    (interceptCheck (history uidOf ops) n pid uid r).isSome = true ↔
      (ops.foldl (Interests.apply uidOf) .empty).Reports uid p :=
  (refines_initial.foldl hnames uidOf hover).interceptCheck hnames hn hp hr

/-- `a.b`. -/
def ab : JavaString := ['a', '.', 'b']

/-- `a.c`. -/
def ac : JavaString := ['a', '.', 'c']

/-- `a.bc`. -/
def abc : JavaString := ['a', '.', 'b', 'c']

theorem packageNames_two : PackageNames {ab, ac} := by
  constructor
  all_goals
    simp only [Set.mem_insert_iff, Set.mem_singleton_iff, forall_eq_or_imp, forall_eq]
    decide

theorem history_reports_two :
    (interceptCheck (history (fun _ => some 1000)
        [.setInterceptApp (some ab) false, .setIntercept 1000 (some ac),
          .removeIntercept 1000 (some ab)])
      1 7 1000 ⟨"a.c", some ac, none, none⟩).isSome = true ↔
      ([Op.setInterceptApp (some ab) false, .setIntercept 1000 (some ac),
          .removeIntercept 1000 (some ab)].foldl
        (Interests.apply fun _ => some 1000) .empty).Reports 1000 ac := by
  refine history_reports packageNames_two (fun _ => some 1000) ?_ (by decide) 7 1000 ?_ rfl
  · intro op hop
    simp only [List.mem_cons, List.not_mem_nil, or_false] at hop
    rcases hop with rfl | rfl | rfl
    · intro p hp
      exact Or.inl (Or.inl (Option.some.inj hp).symm)
    · intro p hp
      exact Or.inr (Option.some.inj hp).symm
    · exact Or.inl rfl
  · exact Or.inr rfl

/-! ### One package's calls and another's launches -/

/-- Whether a launch of `q` under `uid` is reported to a subscriber. -/
def Reported (s : Agent) (uid : Int) (q : JavaString) : Prop :=
  ∀ n pid processName hostingType hostingName, 0 < n →
    (interceptCheck s n pid uid ⟨processName, some q, hostingType, hostingName⟩).isSome = true

/-- Registering `p` and removing it both leave it as it is whether `q` is reported. -/
def Untouched (uidOf : JavaString → Option Int) (s : Agent) (uid : Int) (p q : JavaString) : Prop :=
  (Reported (setInterceptApp uidOf (some p) false s).2 uid q ↔ Reported s uid q) ∧
    (Reported (removeIntercept uid (some p) s) uid q ↔ Reported s uid q)

/-- Registering `p` makes `q` match. -/
def Exposes (uidOf : JavaString → Option Int) (s : Agent) (uid : Int) (p q : JavaString) : Prop :=
  ¬ Matched (itemsOf s.interceptApps uid) q ∧
    (p = ['a', 'l', 'l'] ∨ uidOf p = some uid ∧ (sentinel <+: p ∨ q <+: p))

/-- An item that `p` does not begin, and more of what follows `p` in the items right behind
    it, spell `q` or the sentinel. -/
def Spells (p q : JavaString) (xs : List JavaString) : Prop :=
  ∃ (before : List JavaString) (x : JavaString) (rests after : List JavaString),
    xs = before ++ x :: (rests.map (p ++ ·) ++ after) ∧ ¬ p <+: x ∧
      ∃ t, t ≠ [] ∧ t <+: rests.flatten ∧ (x ++ t = sentinel ∨ x ++ t = q)

/-- There are items that match `q`, `p` begins all of them, and no others spell it. -/
def Hides (s : Agent) (uid : Int) (p q : JavaString) : Prop :=
  Matched (itemsOf s.interceptApps uid) q ∧
    (∀ x ∈ itemsOf s.interceptApps uid, sentinel <+: x ∨ q <+: x → p <+: x) ∧
    ¬ Spells p q (itemsOf s.interceptApps uid)

/-- No item matches `q`, but items spell it. -/
def Completes (s : Agent) (uid : Int) (p q : JavaString) : Prop :=
  ¬ Matched (itemsOf s.interceptApps uid) q ∧ Spells p q (itemsOf s.interceptApps uid)

section Untouched

variable {s : Agent} {uid : Int} {p q : JavaString}

theorem reported_iff (huid : uid ≤ SYSTEM_UID) (hq : SPLIT ∉ q) :
    Reported s uid q ↔ s.interceptAll = true ∨ Matched (itemsOf s.interceptApps uid) q := by
  have hone : ∀ n pid processName hostingType hostingName, 0 < n →
      ((interceptCheck s n pid uid ⟨processName, some q, hostingType, hostingName⟩).isSome = true ↔
        s.interceptAll = true ∨ Matched (itemsOf s.interceptApps uid) q) := by
    intro n pid processName hostingType hostingName hn
    rw [interceptCheck_isSome hn rfl hq, if_neg (Int.not_lt.mpr huid)]
  constructor
  · intro h
    exact (hone 1 0 "" none none Nat.one_pos).mp (h 1 0 "" none none Nat.one_pos)
  · intro h n pid processName hostingType hostingName hn
    exact (hone n pid processName hostingType hostingName hn).mpr h

theorem matched_append {xs ys : List JavaString} :
    Matched (xs ++ ys) q ↔ Matched xs q ∨ Matched ys q := by
  simp only [Matched, List.mem_append, or_and_right, exists_or]

theorem matched_singleton {x : JavaString} : Matched [x] q ↔ sentinel <+: x ∨ q <+: x := by
  simp only [Matched, List.mem_singleton, exists_eq_left]

/-- What begins a kept item begins an item that `p` does not begin, or goes on from the end of
    one into what is left of the items behind it. -/
theorem exists_kept_begins_iff {w : JavaString} {xs : List JavaString} :
    (∃ y ∈ kept p xs, w <+: y) ↔ (∃ x ∈ xs, w <+: x ∧ ¬ p <+: x) ∨
      ∃ (before : List JavaString) (x : JavaString) (rests after : List JavaString),
        xs = before ++ x :: (rests.map (p ++ ·) ++ after) ∧ ¬ p <+: x ∧
          ∃ t, t ≠ [] ∧ t <+: rests.flatten ∧ x ++ t = w := by
  rw [exists_kept_iff]
  constructor
  · rintro ⟨before, x, rests, after, rfl, hx, hw⟩
    rcases prefix_append_iff.mp hw with hw | ⟨t, ht, rfl, hpre⟩
    · exact Or.inl ⟨x, List.mem_append_right before List.mem_cons_self, hw, hx⟩
    · exact Or.inr ⟨before, x, rests, after, rfl, hx, t, ht, hpre, rfl⟩
  · rintro (⟨x, hmem, hw, hx⟩ | ⟨before, x, rests, after, hxs, hx, t, ht, hpre, rfl⟩)
    · obtain ⟨before, after, rfl⟩ := List.append_of_mem hmem
      exact ⟨before, x, [], after, rfl, hx, hw.trans (List.prefix_append x _)⟩
    · exact ⟨before, x, rests, after, hxs, hx, (List.prefix_append_right_inj x).mpr hpre⟩

/-- **What matches once `p` is taken out**: an item that `p` does not begin, by itself or with
    what is left of the items behind it. -/
theorem matched_kept_iff {xs : List JavaString} : Matched (kept p xs) q ↔
    (∃ x ∈ xs, (sentinel <+: x ∨ q <+: x) ∧ ¬ p <+: x) ∨ Spells p q xs := by
  have hsplit : Matched (kept p xs) q ↔
      (∃ y ∈ kept p xs, sentinel <+: y) ∨ ∃ y ∈ kept p xs, q <+: y := by
    simp only [Matched, and_or_left, exists_or]
  rw [hsplit, exists_kept_begins_iff, exists_kept_begins_iff]
  constructor
  · rintro ((⟨x, hmem, hw, hx⟩ | ⟨before, x, rests, after, hxs, hx, t, ht, hpre, hw⟩) |
      (⟨x, hmem, hw, hx⟩ | ⟨before, x, rests, after, hxs, hx, t, ht, hpre, hw⟩))
    · exact Or.inl ⟨x, hmem, Or.inl hw, hx⟩
    · exact Or.inr ⟨before, x, rests, after, hxs, hx, t, ht, hpre, Or.inl hw⟩
    · exact Or.inl ⟨x, hmem, Or.inr hw, hx⟩
    · exact Or.inr ⟨before, x, rests, after, hxs, hx, t, ht, hpre, Or.inr hw⟩
  · rintro (⟨x, hmem, hw | hw, hx⟩ | ⟨before, x, rests, after, hxs, hx, t, ht, hpre, hw | hw⟩)
    · exact Or.inl (Or.inl ⟨x, hmem, hw, hx⟩)
    · exact Or.inr (Or.inl ⟨x, hmem, hw, hx⟩)
    · exact Or.inl (Or.inr ⟨before, x, rests, after, hxs, hx, t, ht, hpre, hw⟩)
    · exact Or.inr (Or.inr ⟨before, x, rests, after, hxs, hx, t, ht, hpre, hw⟩)

theorem not_spells_of_begins {xs : List JavaString} (h : ∀ x ∈ xs, p <+: x → x = p) :
    ¬ Spells p q xs := by
  rintro ⟨before, x, rests, after, rfl, -, t, ht, hpre, -⟩
  have hnil : ∀ rest ∈ rests, rest = [] := by
    intro rest hrest
    have hmem : p ++ rest ∈ before ++ x :: (rests.map (p ++ ·) ++ after) :=
      List.mem_append_right before (List.mem_cons_of_mem x
        (List.mem_append_left after (List.mem_map_of_mem hrest)))
    simpa using h _ hmem (List.prefix_append p rest)
  rw [List.flatten_eq_nil_iff.mpr hnil] at hpre
  exact ht (List.prefix_nil.mp hpre)

/-- Registering `p` changes the answer for `q` when it makes it match. -/
theorem reported_setInterceptApp (uidOf : JavaString → Option Int) (hall : s.interceptAll = false)
    (huid : uid ≤ SYSTEM_UID) (hp : SPLIT ∉ p) (hq : SPLIT ∉ q) :
    (Reported (setInterceptApp uidOf (some p) false s).2 uid q ↔ Reported s uid q) ↔
      ¬ Exposes uidOf s uid p q := by
  rw [reported_iff huid hq, reported_iff huid hq, hall, Exposes]
  simp only [setInterceptApp, Bool.false_eq_true, if_false, false_or]
  by_cases hkey : p = ['a', 'l', 'l']
  · rw [if_pos hkey]
    simp [hkey]
  · rw [if_neg hkey]
    cases hu : uidOf p with
    | none => simp [hall, hkey]
    | some u =>
      dsimp only
      by_cases hself : u = uid
      · subst hself
        rw [if_pos huid, itemsOf_addItem hp]
        simp only [hall, hkey, Bool.false_eq_true, false_or, true_and]
        split
        · next hpre =>
          -- an item that `p` begins answers for every prefix of `p` already
          obtain ⟨x, hx, hpx⟩ := hpre
          have hmatched : sentinel <+: p ∨ q <+: p → Matched (itemsOf s.interceptApps u) q := by
            intro h
            exact ⟨x, hx, h.imp (·.trans hpx) (·.trans hpx)⟩
          simp only [true_iff, not_and]
          intro hno h
          exact hno (hmatched h)
        · rw [matched_append, matched_singleton, or_iff_left_iff_imp]
          exact ⟨fun h hexp => hexp.1 (h hexp.2), fun h hmatch => Classical.not_not.mp
            fun hno => h ⟨hno, hmatch⟩⟩
      · have hne : uid ≠ u := Ne.symm hself
        have hsome : ¬ (some u = some uid) := fun h => hself (Option.some.inj h)
        split
        · rw [itemsOf_addItem_ne hne]
          simp [hall, hkey, hself]
        · rw [itemsOf_insert_ne hne]
          simp [hall, hkey, hself]

/-- Removing `p` changes the answer for `q` when it hides or completes an item. -/
theorem reported_removeIntercept (hall : s.interceptAll = false) (huid : uid ≤ SYSTEM_UID)
    (hp : SPLIT ∉ p) (hq : SPLIT ∉ q) :
    (Reported (removeIntercept uid (some p) s) uid q ↔ Reported s uid q) ↔
      ¬ Hides s uid p q ∧ ¬ Completes s uid p q := by
  have htext : SPLIT ∉ text (some p) := hp
  have hitems : itemsOf (removeIntercept uid (some p) s).interceptApps uid =
      kept p (itemsOf s.interceptApps uid) := itemsOf_removeIntercept huid htext s
  rw [reported_iff huid hq, reported_iff huid hq, interceptAll_removeIntercept, hall, hitems, Hides,
    Completes]
  simp only [Bool.false_eq_true, false_or]
  generalize itemsOf s.interceptApps uid = xs
  rw [matched_kept_iff]
  constructor
  · intro hsame
    constructor
    · rintro ⟨hmatched, hbegun, hspells⟩
      rcases hsame.mpr hmatched with ⟨x, hx, hmatch, hnot⟩ | h
      · exact hnot (hbegun x hx hmatch)
      · exact hspells h
    · rintro ⟨hno, hspells⟩
      exact hno (hsame.mp (Or.inr hspells))
  · rintro ⟨hhide, hcomp⟩
    constructor
    · rintro (⟨x, hx, hmatch, -⟩ | hspells)
      · exact ⟨x, hx, hmatch⟩
      · exact Classical.not_not.mp fun hno => hcomp ⟨hno, hspells⟩
    · intro hmatched
      by_contra hno
      refine hhide ⟨hmatched, fun x hx hmatch => ?_, fun hspells => hno (Or.inr hspells)⟩
      exact Classical.not_not.mp fun hnot => hno (Or.inl ⟨x, hx, hmatch, hnot⟩)

end Untouched

/-- **The calls for `p` leave the launches of `q` alone exactly when** registering `p` does
    not expose `q` and removing `p` neither hides it nor completes it. -/
theorem untouched_iff (uidOf : JavaString → Option Int) {s : Agent} (hall : s.interceptAll = false)
    {uid : Int} (huid : uid ≤ SYSTEM_UID) {p q : JavaString} (hp : SPLIT ∉ p) (hq : SPLIT ∉ q) :
    Untouched uidOf s uid p q ↔
      ¬ Exposes uidOf s uid p q ∧ ¬ Hides s uid p q ∧ ¬ Completes s uid p q := by
  rw [Untouched, reported_setInterceptApp uidOf hall huid hp hq,
    reported_removeIntercept hall huid hp hq]

theorem untouched_iff_two :
    Untouched (fun _ => some 1000) (history (fun _ => some 1000) [.setInterceptApp (some ab) false])
        1000 ac ab ↔
      ¬ Exposes (fun _ => some 1000)
          (history (fun _ => some 1000) [.setInterceptApp (some ab) false]) 1000 ac ab ∧
        ¬ Hides (history (fun _ => some 1000) [.setInterceptApp (some ab) false]) 1000 ac ab ∧
        ¬ Completes (history (fun _ => some 1000) [.setInterceptApp (some ab) false]) 1000 ac ab :=
  untouched_iff _ (by decide) (by decide) (by decide) (by decide)

/-- Names that cannot be confused are left alone in every history over them. -/
theorem untouched_of_names {names : Set JavaString} (hnames : PackageNames names)
    (uidOf : JavaString → Option Int) {ops : List Op} (hover : ∀ op ∈ ops, Over names op)
    (hall : (history uidOf ops).interceptAll = false) {uid : Int} (huid : uid ≤ SYSTEM_UID)
    {p q : JavaString} (hp : p ∈ names) (hq : q ∈ names) (hne : p ≠ q) :
    Untouched uidOf (history uidOf ops) uid p q := by
  have hrefines : Refines names (history uidOf ops) (ops.foldl (Interests.apply uidOf) .empty) :=
    refines_initial.foldl hnames uidOf hover
  have hproper := (hrefines.entries uid).proper huid
  have hqp : ¬ (sentinel <+: p ∨ q <+: p) := by
    rintro (hsent | hpre)
    · exact hnames.noSentinel p hp hsent
    · exact hne (hnames.prefixFree q hq p hp hpre).symm
  have hbegins := fun x (hx : x ∈ itemsOf (history uidOf ops).interceptApps uid) (hpre : p <+: x) =>
    (hnames.prefix_iff hproper hp hx).mp hpre
  constructor
  · rw [reported_setInterceptApp uidOf hall huid (hnames.noSplit p hp) (hnames.noSplit q hq)]
    rintro ⟨-, hkey | ⟨-, hpre⟩⟩
    · exact hnames.notAll p hp hkey
    · exact hqp hpre
  · rw [reported_removeIntercept hall huid (hnames.noSplit p hp) (hnames.noSplit q hq)]
    constructor
    · rintro ⟨⟨x, hx, hmatch⟩, hall, -⟩
      rw [hbegins x hx (hall x hx hmatch)] at hmatch
      exact hqp hmatch
    · rintro ⟨-, hspells⟩
      exact not_spells_of_begins hbegins hspells

/-- After `a.bc` has been registered, removing `a.b` hides it. -/
theorem hidden_by_prefix :
    ¬ Untouched (fun _ => some 1000)
      (history (fun _ => some 1000) [.setInterceptApp (some abc) false]) 1000 ab abc := by
  intro h
  have hremove := (reported_removeIntercept (p := ab) (q := abc) (by decide) (by decide) (by decide)
    (by decide)).mp h.2
  have hitems : itemsOf (history (fun _ => some 1000)
      [.setInterceptApp (some abc) false]).interceptApps 1000 = [abc] := by decide
  refine hremove.1 ⟨by decide, by rw [hitems]; decide, ?_⟩
  rintro ⟨before, x, rests, after, hxs, hx, -⟩
  rw [hitems] at hxs
  have hmem : x ∈ [abc] := by rw [hxs]; exact List.mem_append_right before List.mem_cons_self
  rw [List.mem_singleton.mp hmem] at hx
  exact hx (by decide)

end Albatross.Interception
