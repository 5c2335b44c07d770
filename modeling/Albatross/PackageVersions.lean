/-
  Albatross/PackageVersions.lean
  ==============================
  **The versions that a device remembers** (`device.py`: `cached_versions`,
  `get_package_version_code`, `install_if_not_exist`, `uninstall_package`).

  A version is asked for once and then taken from a dictionary, from which installing and
  uninstalling through the device remove it: after the package is installed, but before it
  is uninstalled.  Any number of threads do these things, and packages also change without
  the device being asked.  Asking, storing, removing and what adb does are steps of their
  own.

  A version is current when the package has it.  `versions_current`: what is remembered is,
  if no package changes while its version is being asked for.  Otherwise one that a thread
  has asked for may be stored after the package has changed, and the one removed for
  uninstalling may be asked for again before the package is gone.
-/
import Albatross.Runs
import Mathlib.Logic.Function.Basic

set_option linter.unusedSectionVars false

namespace Albatross.PackageVersions

open Runs

variable {P : Type} [DecidableEq P]

/-! ### State -/

inductive Phase (P : Type) where
  | idle
  /-- In `get_package_version_code`, before `dumpsys`. -/
  | asking (pkg : P)
  /-- In `get_package_version_code`, before the version is stored. -/
  | storing (pkg : P) (version : Nat)
  /-- In `install_if_not_exist`, behind `adb install`. -/
  | installed (pkg : P)
  /-- In `uninstall_package`, before `adb uninstall`. -/
  | uninstalling (pkg : P)
deriving DecidableEq

structure State (P : Type) where
  /-- What the device has. -/
  packages : P → Option Nat
  cachedVersions : P → Option Nat
  threads : Nat → Phase P

def State.initial (packages : P → Option Nat) : State P := ⟨packages, fun _ => none, fun _ => .idle⟩

def State.setPackage (s : State P) (pkg : P) (version : Option Nat) : State P :=
  { s with packages := Function.update s.packages pkg version }

def State.setCached (s : State P) (pkg : P) (version : Option Nat) : State P :=
  { s with cachedVersions := Function.update s.cachedVersions pkg version }

def State.setPhase (s : State P) (t : Nat) (p : Phase P) : State P :=
  { s with threads := Function.update s.threads t p }

/-! ### Steps -/

inductive Op (P : Type) where
  | getPackageVersionCode (t : Nat) (pkg : P)
  | dumpsys (t : Nat) (answers : Bool)
  | store (t : Nat)
  | install (t : Nat) (pkg : P) (version : Option Nat)
  | popInstalled (t : Nat)
  | uninstallPackage (t : Nat) (pkg : P)
  | uninstall (t : Nat) (done : Bool)
  | changed (pkg : P) (version : Option Nat)

/-- `install` gives the version that the package then has, or `none` when adb fails. -/
def step (s : State P) : Op P → Option (State P)
  | .getPackageVersionCode t pkg =>
      match s.threads t, s.cachedVersions pkg with
      | .idle, some _ => some s
      | .idle, none => some (s.setPhase t (.asking pkg))
      | _, _ => none
  | .dumpsys t answers =>
      match s.threads t with
      | .asking pkg =>
          match s.packages pkg, answers with
          | some version, true => some (s.setPhase t (.storing pkg version))
          | _, _ => some (s.setPhase t .idle)
      | _ => none
  | .store t =>
      match s.threads t with
      | .storing pkg version => some ((s.setCached pkg (some version)).setPhase t .idle)
      | _ => none
  | .install t pkg version =>
      match s.threads t, version with
      | .idle, some v => some ((s.setPackage pkg (some v)).setPhase t (.installed pkg))
      | .idle, none => some (s.setPhase t (.installed pkg))
      | _, _ => none
  | .popInstalled t =>
      match s.threads t with
      | .installed pkg => some ((s.setCached pkg none).setPhase t .idle)
      | _ => none
  | .uninstallPackage t pkg =>
      match s.threads t with
      | .idle => some ((s.setCached pkg none).setPhase t (.uninstalling pkg))
      | _ => none
  | .uninstall t done =>
      match s.threads t with
      | .uninstalling pkg =>
          some ((if done then s.setPackage pkg none else s).setPhase t .idle)
      | _ => none
  | .changed pkg version => some (s.setPackage pkg version)

/-! ### Freshness -/

/-- An installation is about to remove what is remembered of the package. -/
def Installing (s : State P) (pkg : P) : Prop := ∃ t, s.threads t = .installed pkg

/-- Every version remembered is current, or about to be removed. -/
def Fresh (s : State P) : Prop := ∀ pkg version, s.cachedVersions pkg = some version →
  s.packages pkg = some version ∨ Installing s pkg

/-- The step leaves no version that is out of date: the one it stores is current, and what it
    takes away or changes is not remembered. -/
def Op.KeepsFresh (s : State P) : Op P → Prop
  | .store t => ∀ pkg version, s.threads t = .storing pkg version →
      s.packages pkg = some version ∨ Installing s pkg
  | .uninstall t true => ∀ pkg, s.threads t = .uninstalling pkg →
      s.cachedVersions pkg = none ∨ Installing s pkg
  | .changed pkg version => ∀ v, s.cachedVersions pkg = some v → version = some v ∨ Installing s pkg
  | _ => True

section Lemmas

variable {s : State P} {t : Nat} {p : Phase P} {pkg q : P} {version : Option Nat}

@[simp] theorem packages_setPackage : (s.setPackage pkg version).packages q =
    if q = pkg then version else s.packages q := Function.update_apply _ _ _ _

@[simp] theorem cached_setCached : (s.setCached pkg version).cachedVersions q =
    if q = pkg then version else s.cachedVersions q := Function.update_apply _ _ _ _

@[simp] theorem packages_setPhase : (s.setPhase t p).packages = s.packages := rfl
@[simp] theorem packages_setCached : (s.setCached pkg version).packages = s.packages := rfl
@[simp] theorem cached_setPhase : (s.setPhase t p).cachedVersions = s.cachedVersions := rfl
@[simp] theorem cached_setPackage :
    (s.setPackage pkg version).cachedVersions = s.cachedVersions := rfl

theorem installing_setPhase (hold : s.threads t ≠ .installed q) (hnew : p ≠ .installed q) :
    Installing (s.setPhase t p) q ↔ Installing s q := by
  have hupdate : ∀ u, (s.setPhase t p).threads u = if u = t then p else s.threads u :=
    fun u => Function.update_apply _ _ _ _
  constructor
  · rintro ⟨u, hu⟩
    rw [hupdate] at hu
    split at hu
    · exact absurd hu hnew
    · exact ⟨u, hu⟩
  · rintro ⟨u, hu⟩
    have hne : u ≠ t := fun h => hold (h ▸ hu)
    exact ⟨u, by rw [hupdate, if_neg hne]; exact hu⟩

theorem installing_self : Installing (s.setPhase t (.installed pkg)) pkg :=
  ⟨t, Function.update_self _ _ _⟩

theorem fresh_uncache {s' : State P} (h : Fresh s)
    (hinstalling : ∀ q, q ≠ pkg → (Installing s' q ↔ Installing s q))
    (hpackages : s'.packages = s.packages)
    (hcached : s'.cachedVersions = Function.update s.cachedVersions pkg none) :
    Fresh s' := by
  intro q v hv
  rw [hcached, Function.update_apply] at hv
  split at hv
  · cases hv
  · next hq =>
    rw [hinstalling q hq, hpackages]
    exact h q v hv

theorem fresh_setPackage {s' : State P} (h : Fresh s) (version : Option Nat)
    (hinstalling : ∀ q, Installing s' q ↔ Installing s q)
    (hpackages : s'.packages = Function.update s.packages pkg version)
    (hcached : s'.cachedVersions = s.cachedVersions) :
    Fresh s' ↔ ∀ v, s.cachedVersions pkg = some v → version = some v ∨ Installing s pkg := by
  constructor
  · intro hfresh v hv
    have hnow := hfresh pkg v (by rw [hcached]; exact hv)
    rwa [hpackages, Function.update_self, hinstalling] at hnow
  · intro hall q v hv
    rw [hcached] at hv
    rw [hinstalling, hpackages, Function.update_apply]
    split
    · next hq =>
      subst hq
      exact hall v hv
    · exact h q v hv

end Lemmas

/-- One step leaves no version out of date exactly under its condition. -/
theorem step_fresh {s s' : State P} {op : Op P} (hstep : step s op = some s') (h : Fresh s) :
    Fresh s' ↔ op.KeepsFresh s := by
  cases op with
  | getPackageVersionCode t pkg =>
    refine iff_of_true ?_ trivial
    simp only [step] at hstep
    split at hstep
    · cases hstep
      exact h
    · next hidle _ =>
      cases hstep
      intro q v hv
      rw [installing_setPhase (by simp [hidle]) (by simp)]
      exact h q v hv
    · cases hstep
  | dumpsys t answers =>
    refine iff_of_true ?_ trivial
    simp only [step] at hstep
    split at hstep
    · next pkg hasking =>
      have hgoes : ∀ p : Phase P, (∀ q, p ≠ .installed q) → Fresh (s.setPhase t p) := by
        intro p hp q v hv
        rw [installing_setPhase (by simp [hasking]) (hp q)]
        exact h q v hv
      split at hstep
      · cases hstep
        exact hgoes _ (by simp)
      · cases hstep
        exact hgoes _ (by simp)
    · cases hstep
  | store t =>
    simp only [step] at hstep
    split at hstep
    · next pkg version hstoring =>
      cases hstep
      have hinstalling : ∀ q, Installing ((s.setCached pkg (some version)).setPhase t .idle) q ↔
          Installing s q := fun q =>
        installing_setPhase (s := s.setCached pkg (some version))
          (by simp [State.setCached, hstoring]) (by simp)
      constructor
      · intro hfresh q v hqv
        cases hstoring.symm.trans hqv
        exact (hfresh pkg version (by simp)).imp id (hinstalling pkg).mp
      · intro hcurrent q v hv
        rw [hinstalling]
        by_cases hq : q = pkg
        · subst hq
          simp only [cached_setPhase, cached_setCached, if_true, Option.some.injEq] at hv
          exact hv ▸ hcurrent q version hstoring
        · simp only [cached_setPhase, cached_setCached, if_neg hq] at hv
          exact h q v hv
    · cases hstep
  | install t pkg version =>
    refine iff_of_true ?_ trivial
    simp only [step] at hstep
    split at hstep
    · next v hidle =>
      cases hstep
      intro q w hw
      by_cases hq : q = pkg
      · exact Or.inr (hq ▸ installing_self)
      · have hold : (s.setPackage pkg (some v)).threads t ≠ .installed q := by
          simp [State.setPackage, hidle]
        rw [installing_setPhase hold (by simpa using Ne.symm hq)]
        exact (h q w hw).imp (by simp [hq]) id
    · next hidle =>
      cases hstep
      intro q w hw
      by_cases hq : q = pkg
      · exact Or.inr (hq ▸ installing_self)
      · rw [installing_setPhase (by simp [hidle]) (by simpa using Ne.symm hq)]
        exact h q w hw
    · cases hstep
  | popInstalled t =>
    refine iff_of_true ?_ trivial
    simp only [step] at hstep
    split at hstep
    · next pkg hpkg =>
      cases hstep
      refine fresh_uncache h (fun q hq => ?_) rfl rfl
      exact installing_setPhase (s := s.setCached pkg none)
        (by simpa [State.setCached, hpkg] using Ne.symm hq) (by simp)
    · cases hstep
  | uninstallPackage t pkg =>
    refine iff_of_true ?_ trivial
    simp only [step] at hstep
    split at hstep
    · next hidle =>
      cases hstep
      refine fresh_uncache h (fun q hq => ?_) rfl rfl
      exact installing_setPhase (s := s.setCached pkg none) (by simp [State.setCached, hidle])
        (by simp)
    · cases hstep
  | uninstall t done =>
    simp only [step] at hstep
    split at hstep
    · next pkg hpkg =>
      cases hstep
      cases done with
      | false =>
        refine iff_of_true (fun q v hv => ?_) trivial
        simp only [Bool.false_eq_true, if_false]
        rw [installing_setPhase (by simp [hpkg]) (by simp)]
        exact h q v hv
      | true =>
        have hinstalling : ∀ q, Installing ((s.setPackage pkg none).setPhase t .idle) q ↔
            Installing s q := fun q =>
          installing_setPhase (s := s.setPackage pkg none) (by simp [State.setPackage, hpkg])
            (by simp)
        have hpkgs := fresh_setPackage h none hinstalling rfl rfl
        simp only [if_true]
        rw [hpkgs]
        constructor
        · intro hall q hq
          cases hpkg.symm.trans hq
          cases hcached : s.cachedVersions pkg with
          | none => exact Or.inl rfl
          | some v => exact Or.inr ((hall v hcached).resolve_left (by simp))
        · intro hall v hv
          refine Or.inr ((hall pkg hpkg).resolve_left ?_)
          rw [hv]
          exact Option.some_ne_none v
    · cases hstep
  | changed pkg version =>
    cases hstep
    exact fresh_setPackage h version (fun _ => Iff.rfl) rfl rfl

theorem fresh_initial (packages : P → Option Nat) : Fresh (State.initial packages) := by
  intro pkg version h
  cases h

/-! ### Asking apart from changing -/

/-- A thread is asking for the version of the package, or about to store it. -/
def Asking (s : State P) (pkg : P) : Prop :=
  ∃ t, s.threads t = .asking pkg ∨ ∃ version, s.threads t = .storing pkg version

def Uninstalling (s : State P) (pkg : P) : Prop := ∃ t, s.threads t = .uninstalling pkg

/-- A package is not installed or uninstalled while its version is being asked for, nor asked for
    while it is being uninstalled, and changes behind the device only while nothing is known
    of it. -/
def Op.Apart (s : State P) : Op P → Prop
  | .getPackageVersionCode _ pkg => ¬ Uninstalling s pkg
  | .install _ pkg _ => ¬ Asking s pkg
  | .uninstallPackage _ pkg => ¬ Asking s pkg
  | .changed pkg _ => s.cachedVersions pkg = none ∧ ¬ Asking s pkg
  | _ => True

/-- What is about to be stored is current, and of a package that is being uninstalled nothing is
    known. -/
structure Inv (s : State P) : Prop where
  fresh : Fresh s
  stored : ∀ t pkg version, s.threads t = .storing pkg version → s.packages pkg = some version
  gone : ∀ pkg, Uninstalling s pkg → s.cachedVersions pkg = none ∧ ¬ Asking s pkg

section Apart

variable {s s' : State P} {op : Op P} {t : Nat} {p : Phase P} {pkg q : P}

theorem inv_initial (packages : P → Option Nat) : Inv (State.initial packages) where
  fresh := fresh_initial packages
  stored _ _ _ h := by cases h
  gone _ h := by
    obtain ⟨_, h⟩ := h
    cases h

theorem threads_setPhase (u : Nat) :
    (s.setPhase t p).threads u = if u = t then p else s.threads u := Function.update_apply _ _ _ _

/-- Who asks after a thread has gone on asked before, or is this thread. -/
theorem asking_setPhase (h : Asking (s.setPhase t p) q) :
    Asking s q ∨ p = .asking q ∨ ∃ version, p = .storing q version := by
  obtain ⟨u, hu⟩ := h
  rw [threads_setPhase] at hu
  split at hu
  · exact Or.inr hu
  · exact Or.inl ⟨u, hu⟩

theorem uninstalling_setPhase (h : Uninstalling (s.setPhase t p) q) :
    Uninstalling s q ∨ p = .uninstalling q := by
  obtain ⟨u, hu⟩ := h
  rw [threads_setPhase] at hu
  split at hu
  · exact Or.inr hu
  · exact Or.inl ⟨u, hu⟩

theorem asking_of_storing {version : Nat} (h : s.threads t = .storing pkg version) :
    Asking s pkg := ⟨t, Or.inr ⟨version, h⟩⟩

theorem stored_setPackage (h : Inv s) (hasking : ¬ Asking s pkg) (version : Option Nat) {u : Nat}
    {v : Nat} (hu : s.threads u = .storing q v) :
    (s.setPackage pkg version).packages q = some v := by
  have hq : q ≠ pkg := by
    rintro rfl
    exact hasking (asking_of_storing hu)
  rw [packages_setPackage, if_neg hq]
  exact h.stored u q v hu

theorem Inv.goOn {r : State P} (h : Inv s) (hthreads : r.threads = s.threads)
    (hfresh : Fresh (r.setPhase t p))
    (hstored : ∀ q v, p = .storing q v ∨ (∃ u, s.threads u = .storing q v) →
      r.packages q = some v)
    (hcached : ∀ q, Uninstalling s q → r.cachedVersions q = none)
    (hasks : ∀ q, (p = .asking q ∨ ∃ v, p = .storing q v) → ¬ Uninstalling s q)
    (hgone : ∀ q, p = .uninstalling q → r.cachedVersions q = none ∧ ¬ Asking s q) :
    Inv (r.setPhase t p) := by
  have hasking : ∀ q, Asking r q ↔ Asking s q := fun q => by simp only [Asking, hthreads]
  have huninstalling : ∀ q, Uninstalling r q ↔ Uninstalling s q := fun q => by
    simp only [Uninstalling, hthreads]
  refine ⟨hfresh, fun u q v hu => ?_, fun q hq => ?_⟩
  · rw [threads_setPhase, hthreads] at hu
    split at hu
    · exact hstored q v (Or.inl hu)
    · exact hstored q v (Or.inr ⟨u, hu⟩)
  · rcases uninstalling_setPhase hq with hold | rfl
    · rw [huninstalling] at hold
      refine ⟨hcached q hold, fun ha => ?_⟩
      rcases asking_setPhase ha with hbefore | hnew
      · exact (h.gone q hold).2 ((hasking q).mp hbefore)
      · exact hasks q hnew hold
    · refine ⟨(hgone q rfl).1, fun ha => ?_⟩
      rcases asking_setPhase ha with hbefore | ⟨⟨⟩⟩ | ⟨_, ⟨⟩⟩
      exact (hgone q rfl).2 ((hasking q).mp hbefore)

theorem keepsFresh_of_apart (h : Inv s) (hapart : op.Apart s) : op.KeepsFresh s := by
  cases op with
  | store t => exact fun pkg version hstoring => Or.inl (h.stored t pkg version hstoring)
  | uninstall t done =>
    cases done with
    | false => exact trivial
    | true => exact fun pkg hpkg => Or.inl (h.gone pkg ⟨t, hpkg⟩).1
  | changed pkg version =>
    intro v hv
    rw [hapart.1] at hv
    cases hv
  | _ => exact trivial

theorem step_inv (hstep : step s op = some s') (hapart : op.Apart s) (h : Inv s) : Inv s' := by
  have hfresh : Fresh s' := (step_fresh hstep h.fresh).mpr (keepsFresh_of_apart h hapart)
  have hstored : ∀ q v, (∃ u, s.threads u = .storing q v) → s.packages q = some v := by
    rintro q v ⟨u, hu⟩
    exact h.stored u q v hu
  have hcached : ∀ q, Uninstalling s q → s.cachedVersions q = none := fun q hq => (h.gone q hq).1
  cases op with
  | getPackageVersionCode t pkg =>
    simp only [step] at hstep
    split at hstep
    · cases hstep
      exact h
    · cases hstep
      refine h.goOn rfl hfresh (fun q v hq => ?_) hcached ?_ fun q hq => by cases hq
      · rcases hq with ⟨⟨⟩⟩ | hq
        exact hstored q v hq
      · rintro q (⟨⟨⟩⟩ | ⟨_, ⟨⟩⟩)
        exact hapart
    · cases hstep
  | dumpsys t answers =>
    simp only [step] at hstep
    split at hstep
    · next pkg hasking =>
      split at hstep
      · next version hversion =>
        cases hstep
        refine h.goOn rfl hfresh (fun q v hq => ?_) hcached ?_ fun q hq => by cases hq
        · rcases hq with ⟨⟨⟩⟩ | hq
          · exact hversion
          · exact hstored q v hq
        · rintro q (⟨⟨⟩⟩ | ⟨_, ⟨⟩⟩) hgone
          exact (h.gone pkg hgone).2 ⟨t, Or.inl hasking⟩
      · cases hstep
        refine h.goOn rfl hfresh (fun q v hq => ?_) hcached ?_ fun q hq => by cases hq
        · rcases hq with ⟨⟨⟩⟩ | hq
          exact hstored q v hq
        · rintro q (⟨⟨⟩⟩ | ⟨_, ⟨⟩⟩)
    · cases hstep
  | store t =>
    simp only [step] at hstep
    split at hstep
    · next pkg version hstoring =>
      cases hstep
      refine h.goOn (r := s.setCached pkg (some version)) rfl hfresh (fun q v hq => ?_)
        (fun q hq => ?_) ?_ fun q hq => by cases hq
      · rcases hq with ⟨⟨⟩⟩ | hq
        exact hstored q v hq
      · have hne : q ≠ pkg := by
          rintro rfl
          exact (h.gone q hq).2 (asking_of_storing hstoring)
        rw [cached_setCached, if_neg hne]
        exact hcached q hq
      · rintro q (⟨⟨⟩⟩ | ⟨_, ⟨⟩⟩)
    · cases hstep
  | install t pkg version =>
    simp only [step] at hstep
    split at hstep
    · next w _ =>
      cases hstep
      refine h.goOn (r := s.setPackage pkg (some w)) rfl hfresh (fun q v hq => ?_) hcached ?_
        fun q hq => by cases hq
      · rcases hq with ⟨⟨⟩⟩ | ⟨u, hu⟩
        exact stored_setPackage h hapart _ hu
      · rintro q (⟨⟨⟩⟩ | ⟨_, ⟨⟩⟩)
    · cases hstep
      refine h.goOn rfl hfresh (fun q v hq => ?_) hcached ?_ fun q hq => by cases hq
      · rcases hq with ⟨⟨⟩⟩ | hq
        exact hstored q v hq
      · rintro q (⟨⟨⟩⟩ | ⟨_, ⟨⟩⟩)
    · cases hstep
  | popInstalled t =>
    simp only [step] at hstep
    split at hstep
    · next pkg hpkg =>
      cases hstep
      refine h.goOn (r := s.setCached pkg none) rfl hfresh (fun q v hq => ?_) (fun q hq => ?_) ?_
        fun q hq => by cases hq
      · rcases hq with ⟨⟨⟩⟩ | hq
        exact hstored q v hq
      · rw [cached_setCached, hcached q hq, ite_self]
      · rintro q (⟨⟨⟩⟩ | ⟨_, ⟨⟩⟩)
    · cases hstep
  | uninstallPackage t pkg =>
    simp only [step] at hstep
    split at hstep
    · cases hstep
      refine h.goOn (r := s.setCached pkg none) rfl hfresh (fun q v hq => ?_) (fun q hq => ?_) ?_
        fun q hq => ?_
      · rcases hq with ⟨⟨⟩⟩ | hq
        exact hstored q v hq
      · rw [cached_setCached, hcached q hq, ite_self]
      · rintro q (⟨⟨⟩⟩ | ⟨_, ⟨⟩⟩)
      · cases hq
        exact ⟨by simp, hapart⟩
    · cases hstep
  | uninstall t done =>
    simp only [step] at hstep
    split at hstep
    · next pkg hpkg =>
      cases hstep
      refine h.goOn (by cases done <;> rfl) hfresh (fun q v hq => ?_) (fun q hq => ?_) ?_
        fun q hq => by cases hq
      · rcases hq with ⟨⟨⟩⟩ | ⟨u, hu⟩
        cases done with
        | false => exact h.stored u q v hu
        | true => exact stored_setPackage h (h.gone pkg ⟨t, hpkg⟩).2 none hu
      · cases done <;> exact hcached q hq
      · rintro q (⟨⟨⟩⟩ | ⟨_, ⟨⟩⟩)
    · cases hstep
  | changed pkg version =>
    cases hstep
    exact ⟨hfresh, fun u q v hu => stored_setPackage h hapart.2 version hu, h.gone⟩

/-- **A version that is remembered is current**, or about to be removed by an installation, in every
    interleaving in which no package is installed or uninstalled while its version is being asked
    for, and none is asked for while it is being uninstalled. -/
theorem versions_current {packages : P → Option Nat} {ops : List (Op P)}
    (hrun : run step (State.initial packages) ops = some s)
    (hapart : ∀ a k b, Takes step (State.initial packages) ops a k b → k.Apart a) :
    Fresh s ∧ ∀ t pkg version, s.threads t = .storing pkg version →
      s.packages pkg = some version := by
  have hinv : Inv s :=
    run_takes (inv_initial packages) (fun a k b ht ha => step_inv ht.one (hapart a k b ht) ha) hrun
  exact ⟨hinv.fresh, hinv.stored⟩

end Apart

/-- A version is asked for, the package is installed again, and its new version is asked for. -/
def reinstalled : List (Op Unit) :=
  [.getPackageVersionCode 0 (), .dumpsys 0 true, .store 0, .install 1 () (some 2), .popInstalled 1,
    .getPackageVersionCode 0 (), .dumpsys 0 true, .store 0]

theorem not_asking_of_idle {s : State P} {pkg : P} (h : ∀ t, s.threads t = .idle) :
    ¬ Asking s pkg := by
  rintro ⟨t, ht⟩
  rw [h t] at ht
  rcases ht with ht | ⟨_, ht⟩
  · cases ht
  · cases ht

theorem not_uninstalling_of_idle {s : State P} {pkg : P} (h : ∀ t, s.threads t = .idle) :
    ¬ Uninstalling s pkg := by
  rintro ⟨t, ht⟩
  rw [h t] at ht
  cases ht

theorem apart_reinstalled (a : State Unit) (k : Op Unit) (b : State Unit)
    (h : Takes step (State.initial fun _ => some 1) reinstalled a k b) : k.Apart a := by
  revert a k b
  refine forall_takes_cons.mpr fun s₁ h₁ => ⟨not_uninstalling_of_idle fun _ => rfl, ?_⟩
  refine forall_takes_cons.mpr fun s₂ h₂ => ⟨trivial, ?_⟩
  refine forall_takes_cons.mpr fun s₃ h₃ => ⟨trivial, ?_⟩
  obtain rfl := Option.some.inj h₁
  obtain rfl := Option.some.inj h₂
  obtain rfl := Option.some.inj h₃
  -- the first question has been answered
  refine forall_takes_cons.mpr fun s₄ h₄ => ⟨not_asking_of_idle fun t => ?_, ?_⟩
  · rcases t with _ | t <;> rfl
  refine forall_takes_cons.mpr fun s₅ h₅ => ⟨trivial, ?_⟩
  obtain rfl := Option.some.inj h₄
  obtain rfl := Option.some.inj h₅
  refine forall_takes_cons.mpr fun s₆ h₆ => ⟨not_uninstalling_of_idle fun t => ?_, ?_⟩
  · rcases t with _ | _ | t <;> rfl
  refine forall_takes_cons.mpr fun s₇ h₇ => ⟨trivial, ?_⟩
  refine forall_takes_cons.mpr fun s₈ h₈ => ⟨trivial, ?_⟩
  exact fun s l s' h => absurd h not_takes_nil

theorem versions_current_asked :
    ∃ s, run step (State.initial fun _ => some 1) reinstalled = some s ∧
      s.cachedVersions () = some 2 ∧ Fresh s ∧
        ∀ t pkg version, s.threads t = .storing pkg version → s.packages pkg = some version :=
  ⟨_, rfl, rfl, versions_current rfl apart_reinstalled⟩

/-- A version that was asked for before an installation is stored after it. -/
example : ∃ s, run step (State.initial (P := Unit) fun _ => some 1)
    [.getPackageVersionCode 0 (), .dumpsys 0 true, .install 1 () (some 2), .popInstalled 1,
      .store 0] = some s ∧ s.cachedVersions () = some 1 ∧ s.packages () = some 2 :=
  ⟨_, rfl, rfl, rfl⟩

/-- A package is asked for while it is being uninstalled. -/
example : ∃ s, run step (State.initial (P := Unit) fun _ => some 1)
    [.uninstallPackage 0 (), .getPackageVersionCode 1 (), .dumpsys 1 true, .store 1,
      .uninstall 0 true] = some s ∧ s.cachedVersions () = some 1 ∧ s.packages () = none :=
  ⟨_, rfl, rfl, rfl⟩

end Albatross.PackageVersions
