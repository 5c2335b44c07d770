/-
  Albatross/ReentrantLock.lean
  ============================
  **Reentrant locks.**

  A lock is free or has an owner, who may take it again and must release it as often as
  it was taken.  `holds` counts how often a thread has it; the operations are given by what
  they do to these counts.
-/
import Mathlib.Data.Option.Basic

namespace Albatross.ReentrantLock

variable {τ : Type} [DecidableEq τ]

/-- The owner of a lock and how often it has taken it after the first time. -/
structure Hold (τ : Type) where
  owner : τ
  again : Nat
deriving DecidableEq, Repr

abbrev Lock (τ : Type) := Option (Hold τ)

/-- `none` where the thread has to wait. -/
def acquire (t : τ) : Lock τ → Option (Lock τ)
  | none => some (some ⟨t, 0⟩)
  | some h => if h.owner = t then some (some ⟨t, h.again + 1⟩) else none

/-- `none` where the lock is not the thread's. -/
def release (t : τ) : Lock τ → Option (Lock τ)
  | none => none
  | some ⟨owner, again⟩ =>
      if owner = t then
        match again with
        | 0 => some none
        | n + 1 => some (some ⟨t, n⟩)
      else none

/-- How often thread `t` has the lock. -/
def holds (l : Lock τ) (t : τ) : Nat :=
  match l with
  | none => 0
  | some h => if h.owner = t then h.again + 1 else 0

@[simp] theorem holds_none (t : τ) : holds none t = 0 := rfl

theorem owner_unique {l : Lock τ} {t u : τ} (ht : 0 < holds l t) (hu : 0 < holds l u) : t = u := by
  cases l with
  | none => exact absurd ht (Nat.lt_irrefl 0)
  | some h =>
    have howner : ∀ w, 0 < holds (some h) w → h.owner = w := by
      intro w hw
      by_contra hne
      simp [holds, hne] at hw
    exact (howner t ht).symm.trans (howner u hu)

theorem free_of_holds {l : Lock τ} (h : ∀ t, holds l t = 0) : l = none := by
  cases l with
  | none => rfl
  | some h' => simpa [holds] using h h'.owner

theorem holds_acquire {l l' : Lock τ} {t : τ} (h : acquire t l = some l') (u : τ) :
    holds l' u = holds l u + if u = t then 1 else 0 := by
  cases l with
  | none =>
    cases h
    simp [holds, eq_comm]
  | some hold =>
    by_cases hown : hold.owner = t
    · simp only [acquire, hown, if_true, Option.some.injEq] at h
      subst h
      by_cases hu : u = t
      · simp [holds, hown, hu]
      · simp [holds, hown, hu, Ne.symm hu]
    · simp [acquire, hown] at h

theorem holds_release {l l' : Lock τ} {t : τ} (h : release t l = some l') (u : τ) :
    holds l u = holds l' u + if u = t then 1 else 0 := by
  cases l with
  | none => cases h
  | some hold =>
    obtain ⟨owner, again⟩ := hold
    by_cases hown : owner = t
    · subst hown
      by_cases hu : u = owner
      · cases again <;> simp [release] at h <;> subst h <;> simp [holds, hu]
      · cases again <;> simp [release] at h <;> subst h <;> simp [holds, hu, Ne.symm hu]
    · simp [release, hown] at h

theorem release_isSome_iff {l : Lock τ} {t : τ} : (release t l).isSome ↔ 0 < holds l t := by
  cases l with
  | none => simp [release]
  | some hold =>
    obtain ⟨owner, again⟩ := hold
    by_cases hown : owner = t
    · cases again <;> simp [release, holds, hown]
    · simp [release, holds, hown]

end Albatross.ReentrantLock
