/-
  Albatross/AppInfo.lean
  ======================
  **What an app's agent is told of its app** (`device.py`: `get_package_version_code`,
  `add_plugin_rule`; `PluginConnection.java`: `addPluginRule`; `AppInjectAgent.java`:
  `loadLibrary`).

  The server has to be told a package and its version before the app that it starts has a
  context.  Python and Java write `package:version`, and the agent in the app takes that
  apart at the colons.  Python asks `dumpsys` for the version, and writes what Python writes
  for the answer also when there is none.

  `app_info_read_iff` says when the agent reads what was written, and `versionOf_answer`
  what Python makes of the lines of an answer.
-/
import Albatross.ShellResults

namespace Albatross.AppInfo

open Decimal PyText ShellResults Utf16

/-! ### Python -/

/-- What `get_package_version_code` returns: a number, `False` or `None`. -/
inductive Version where
  | code (i : Int)
  | false
  | none
deriving DecidableEq, Repr

/-- `str(version)`. -/
def Version.str : Version → Text
  | .code i => numeral i
  | .false => "False".toList
  | .none => "None".toList

/-- `pkg + ":" + str(version)`; Java's `pkg + ":" + versionCode` is the same of a number. -/
def extraInfo (pkg : Text) (v : Version) : Text := pkg ++ ':' :: v.str

def KEY : Text := ['v', 'e', 'r', 's', 'i', 'o', 'n', 'C', 'o', 'd', 'e', '=']

/-- The digits of a match of `versionCode=(\d+)` at the beginning of a text. -/
def matchHere (s : Text) : Option Text :=
  let digits := (s.drop KEY.length).takeWhile Char.isDigit
  if s.take KEY.length = KEY ∧ digits ≠ [] then some digits else none

/-- The matches behind the next `skip` characters, which belong to the match before. -/
def findFrom : Nat → Text → List Text
  | _, [] => []
  | skip + 1, _ :: s => findFrom skip s
  | 0, c :: s =>
      match matchHere (c :: s) with
      | some digits => digits :: findFrom (KEY.length + digits.length - 1) s
      | none => findFrom 0 s

/-- `re.findall(r'versionCode=(\d+)', s)`. -/
def findall (s : Text) : List Text := findFrom 0 s

/-- `get_package_version_code`, of the answer of `dumpsys`. -/
def versionOf (retStr : Text) : Version :=
  if retStr = [] then .false
  else match findall retStr with
    | [] => .none
    | v :: more => if more.length + 1 < 3 then .code (Nat.ofDigitChars 10 v 0) else .none

/-! ### Java -/

/-- `s.split(":")`, without the empty parts at the end. -/
def split (s : Units) : List Units :=
  if COLON ∈ s then (s.splitOn COLON).rdropWhile List.isEmpty else [s]

structure AppMetaInfo where
  packageName : Option Units
  versionCode : Int
deriving DecidableEq

/-- The `try` block of `loadLibrary`. -/
def loadLibrary (extraInfo : Units) (m : AppMetaInfo) : AppMetaInfo :=
  match split extraInfo with
  | [] => m
  | [p] => { m with packageName := some p }
  | p :: v :: _ =>
      match parseInt v with
      | .ok i => ⟨some p, i⟩
      | .error _ => { m with packageName := some p }

/-! ### The text between them -/

section Colons

theorem colon_mem_utf16 {s : Text} : COLON ∈ utf16 s ↔ ':' ∈ s :=
  mem_utf16_iff (c := ':') (by decide)

theorem utf16_colon (s t : Text) : utf16 (s ++ ':' :: t) = utf16 s ++ COLON :: utf16 t :=
  utf16_append_cons (by decide) s t

/-- The parts of a text and what stands behind its last colon. -/
theorem split_append {p v : Units} (hv : COLON ∉ v) (hne : v ≠ []) :
    split (p ++ COLON :: v) = p.splitOn COLON ++ [v] := by
  rw [split, if_pos (by simp), List.splitOn_append_cons_self, List.splitOn_eq_singleton hv]
  exact List.rdropWhile_concat_neg _ _ _ (by simpa using hne)

theorem Version.colon_not_mem (v : Version) : COLON ∉ utf16 v.str := by
  rw [colon_mem_utf16]
  cases v with
  | code i => exact colon_not_mem_of_intOf (intOf_numeral i)
  | false => decide
  | none => decide

theorem Version.str_ne_nil (v : Version) : utf16 v.str ≠ [] := by
  have hne : v.str ≠ [] := by
    cases v with
    | code i =>
      intro hnil
      have hread := intOf_numeral i
      rw [show numeral i = [] from hnil] at hread
      cases hread
    | false => decide
    | none => decide
  intro hnil
  have hle := length_le_utf16 v.str
  rw [hnil] at hle
  exact hne (List.length_eq_zero_iff.mp (Nat.le_zero.mp hle))

/-- The number that Java reads is the one written, if it is an `int`. -/
theorem parseInt_str {v : Version} {n : Int} :
    parseInt (utf16 v.str) = .ok n ↔ v = .code n ∧ -2 ^ 31 ≤ n ∧ n < 2 ^ 31 := by
  cases v with
  | code i =>
    unfold parseInt
    rw [show Version.str (.code i) = numeral i from rfl,
      ofUnits_utf16 (basic_of_intOf (intOf_numeral i)), intOf_numeral]
    simp only [Version.code.injEq]
    constructor
    · intro h
      split at h
      · next hrange =>
        cases h
        exact ⟨rfl, hrange⟩
      · cases h
    · rintro ⟨rfl, hrange⟩
      rw [if_pos hrange]
  | false =>
    have herror : parseInt (utf16 Version.false.str) = .error .numberFormat := by decide
    rw [herror]
    exact iff_of_false (fun h => by cases h) fun h => by cases h.1
  | none =>
    have herror : parseInt (utf16 Version.none.str) = .error .numberFormat := by decide
    rw [herror]
    exact iff_of_false (fun h => by cases h) fun h => by cases h.1

end Colons

theorem app_info_read_iff (pkg : Text) (v : Version) (n : Int) :
    (∀ m, loadLibrary (utf16 (extraInfo pkg v)) m = ⟨some (utf16 pkg), n⟩) ↔
      ':' ∉ pkg ∧ v = .code n ∧ -2 ^ 31 ≤ n ∧ n < 2 ^ 31 := by
  have hsplit : split (utf16 (extraInfo pkg v)) = (utf16 pkg).splitOn COLON ++ [utf16 v.str] := by
    rw [extraInfo, utf16_colon, split_append v.colon_not_mem v.str_ne_nil]
  rw [← parseInt_str, ← colon_mem_utf16]
  by_cases hcolon : COLON ∈ utf16 pkg
  · refine iff_of_false (fun hall => ?_) fun h => h.1 hcolon
    obtain ⟨a, b, hab, ha⟩ := List.eq_append_cons_of_mem hcolon
    have hparts : ∃ q rest, split (utf16 (extraInfo pkg v)) = a :: q :: rest := by
      rw [hsplit, hab, List.splitOn_append_cons_self_of_not_mem ha]
      cases b.splitOn COLON with
      | nil => exact ⟨_, _, rfl⟩
      | cons c l => exact ⟨_, _, rfl⟩
    obtain ⟨q, rest, hq⟩ := hparts
    have hname := congrArg AppMetaInfo.packageName (hall ⟨none, 0⟩)
    have ha' : a = utf16 pkg := by
      unfold loadLibrary at hname
      rw [hq] at hname
      simp only at hname
      split at hname
      · exact Option.some.inj hname
      · exact Option.some.inj hname
    have hlen := congrArg List.length (ha'.trans hab)
    simp at hlen
  · have hpair : split (utf16 (extraInfo pkg v)) = [utf16 pkg, utf16 v.str] := by
      rw [hsplit, List.splitOn_eq_singleton hcolon]
      rfl
    unfold loadLibrary
    rw [hpair]
    simp only
    cases hparse : parseInt (utf16 v.str) with
    | ok i =>
      constructor
      · intro hall
        exact ⟨hcolon, congrArg Except.ok (congrArg AppMetaInfo.versionCode (hall ⟨none, 0⟩))⟩
      · rintro ⟨_, hi⟩ m
        cases hi
        rfl
    | error e =>
      refine iff_of_false (fun hall => ?_) fun h => by cases h.2
      have hcode := congrArg AppMetaInfo.versionCode (hall ⟨none, n + 1⟩)
      simp only at hcode
      omega

/-! ### Answers of dumpsys -/

/-- A line that `grep versionCode=` lets through: nothing but the key has a `v`, and a space
    follows the number. -/
structure Line where
  indent : Text
  code : Nat
  rest : Text
  indent_plain : 'v' ∉ indent
  rest_plain : 'v' ∉ rest

def Line.text (l : Line) : Text :=
  l.indent ++ (KEY ++ (Nat.toDigits 10 l.code ++ ' ' :: (l.rest ++ ['\n'])))

def answer (lines : List Line) : Text := lines.flatMap Line.text

section Answers

theorem findFrom_skip (a s : Text) : findFrom a.length (a ++ s) = findFrom 0 s := by
  induction a with
  | nil => rfl
  | cons c a ih => exact ih

theorem matchHere_none {c : Char} (hc : c ≠ 'v') (s : Text) : matchHere (c :: s) = none := by
  unfold matchHere
  refine if_neg fun h => hc ?_
  exact (List.cons.inj (show c :: s.take 11 = KEY from h.1)).1

theorem findFrom_plain {a : Text} (ha : 'v' ∉ a) (s : Text) :
    findFrom 0 (a ++ s) = findFrom 0 s := by
  induction a with
  | nil => rfl
  | cons c a ih =>
    have hc : c ≠ 'v' := fun h => ha (h ▸ List.mem_cons_self)
    rw [List.cons_append, findFrom, matchHere_none hc]
    exact ih fun h => ha (List.mem_cons_of_mem c h)

theorem findFrom_key {ds : Text} (hds : ∀ c ∈ ds, c.isDigit) (hne : ds ≠ []) {c : Char}
    (hc : c.isDigit = false) (s : Text) :
    findFrom 0 (KEY ++ (ds ++ c :: s)) = ds :: findFrom 0 (c :: s) := by
  have htake : (ds ++ c :: s).takeWhile Char.isDigit = ds := by
    rw [List.takeWhile_append_of_pos hds, List.takeWhile_cons, if_neg (by simp [hc]),
      List.append_nil]
  have hmatch : matchHere (KEY ++ (ds ++ c :: s)) = some ds := by
    unfold matchHere
    rw [List.drop_left, List.take_left, htake]
    exact if_pos ⟨rfl, hne⟩
  have hkey : KEY ++ (ds ++ c :: s) = 'v' :: (KEY.tail ++ ds ++ c :: s) := by
    rw [List.append_assoc]
    rfl
  rw [hkey] at hmatch ⊢
  rw [findFrom, hmatch]
  have hlen : KEY.length + ds.length - 1 = (KEY.tail ++ ds).length := by
    rw [List.length_append]
    change 12 + ds.length - 1 = 11 + ds.length
    omega
  simp only [hlen, findFrom_skip]

theorem findall_answer (lines : List Line) :
    findall (answer lines) = lines.map fun l => Nat.toDigits 10 l.code := by
  induction lines with
  | nil => rfl
  | cons l lines ih =>
    have hdigits : ∀ c ∈ Nat.toDigits 10 l.code, c.isDigit := fun c hc => isDigit_of_mem_toDigits hc
    have hend : 'v' ∉ ' ' :: (l.rest ++ ['\n']) := by simpa using l.rest_plain
    have htext : answer (l :: lines) = l.indent ++ (KEY ++ (Nat.toDigits 10 l.code ++
        ' ' :: (l.rest ++ ['\n'] ++ answer lines))) := by
      simp [answer, Line.text]
    rw [findall, htext, findFrom_plain l.indent_plain, findFrom_key hdigits (by simp) (by decide)]
    exact congrArg _ ((findFrom_plain hend (answer lines)).trans ih)

/-- The first of one or two lines is taken, and three are too many. -/
theorem versionOf_answer (l : Line) (more : List Line) :
    versionOf (answer (l :: more)) = if more.length < 2 then .code l.code else .none := by
  have hne : answer (l :: more) ≠ [] := by simp [answer, Line.text, KEY]
  unfold versionOf
  rw [if_neg hne, findall_answer]
  simp only [List.map_cons, List.length_map, Nat.ofDigitChars_ten_toDigits]
  by_cases hmore : more.length < 2
  · rw [if_pos hmore, if_pos (by omega)]
  · rw [if_neg hmore, if_neg (by omega)]

end Answers

/-- **When the agent is told the version that dumpsys names first**, whatever it knew before. -/
theorem answer_read_iff (pkg : Text) (l : Line) (more : List Line) :
    (∀ m, loadLibrary (utf16 (extraInfo pkg (versionOf (answer (l :: more))))) m =
        ⟨some (utf16 pkg), l.code⟩) ↔
      ':' ∉ pkg ∧ more.length < 2 ∧ l.code < 2 ^ 31 := by
  rw [app_info_read_iff, versionOf_answer]
  apply and_congr_right
  intro _
  by_cases hmore : more.length < 2
  · rw [if_pos hmore]
    constructor
    · rintro ⟨_, _, hhi⟩
      exact ⟨hmore, by omega⟩
    · rintro ⟨_, hhi⟩
      exact ⟨rfl, by omega, by omega⟩
  · rw [if_neg hmore]
    exact iff_of_false (fun h => by cases h.1) fun h => hmore h.1

/-- Of an answer without a version the agent learns the package only. -/
example : versionOf "Unable to find package".toList = .none ∧
    loadLibrary (utf16 (extraInfo ['a'] .none)) ⟨none, 0⟩ = ⟨some (utf16 ['a']), 0⟩ := by
  decide

end Albatross.AppInfo
