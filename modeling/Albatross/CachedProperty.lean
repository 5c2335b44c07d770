/-
  Albatross/CachedProperty.lean
  =============================
  **Cached properties under threads** (`wrapper.py`: `TimeoutLock`, `cached_property`).

  A property looks into the object's dictionary, takes its lock, looks again, and calls its
  function when there is still nothing.  The lock belongs to the property: it is the same
  for all objects, and a function may use other properties, or the same one of another
  object.  Waiting for the lock ends after ten seconds, and the access then goes on without
  it.

  Every access to the dictionary, the acquisition, the call, the return of the function and
  the release are steps of their own.  Any thread may write or delete a value at any time.

  A lock is released only by a thread that has it, however accesses are nested, time out
  or raise (`locks_held`).  `computed` and `accesses` are records that no code reads.
-/
import Albatross.ReentrantLock
import Albatross.Runs
import Mathlib.Logic.Function.Basic

set_option linter.unusedSectionVars false

namespace Albatross.CachedProperty

open ReentrantLock Runs

variable {P O V : Type} [DecidableEq P] [DecidableEq O]

/-! ### State -/

/-- How a function, and with it an access, comes out; `nil` is `nil_value`. -/
inductive Outcome (V : Type) where
  | value (v : V)
  | nil
  | raised
deriving DecidableEq, Repr

/-- Where an access is: before the lock, before the second look, in the function, before the
    value is stored, and before the lock is released; with the field `acquire_lock` of its
    `TimeoutLock`. -/
inductive Phase (V : Type) where
  | waiting
  | checking (acquireLock : Bool)
  | computing (acquireLock : Bool)
  | storing (acquireLock : Bool) (v : V)
  | leaving (acquireLock : Bool) (r : Outcome V)
deriving DecidableEq, Repr

def Phase.acquireLock : Phase V → Bool
  | .waiting => false
  | .checking a => a
  | .computing a => a
  | .storing a _ => a
  | .leaving a _ => a

structure Frame (P O V : Type) where
  prop : P
  obj : O
  phase : Phase V
deriving DecidableEq, Repr

/-- An access that is over; `none` is the `RuntimeError` for a lock that is not the thread's. -/
structure Access (P O V : Type) where
  thread : Nat
  prop : P
  obj : O
  outcome : Option (Outcome V)
deriving DecidableEq, Repr

structure State (P O V : Type) where
  dicts : O → P → Option V
  locks : P → Lock Nat
  callStacks : Nat → List (Frame P O V)
  computed : List (P × O × V)
  accesses : List (Access P O V)

def State.initial : State P O V := ⟨fun _ _ => none, fun _ => none, fun _ => [], [], []⟩

/-- Thread `t` has the given accesses under way. -/
def State.setStack (s : State P O V) (t : Nat) (stack : List (Frame P O V)) : State P O V :=
  { s with callStacks := Function.update s.callStacks t stack }

def State.setLock (s : State P O V) (p : P) (l : Lock Nat) : State P O V :=
  { s with locks := Function.update s.locks p l }

def State.setDict (s : State P O V) (p : P) (o : O) (c : Option V) : State P O V :=
  { s with dicts := Function.update s.dicts o (Function.update (s.dicts o) p c) }

def State.gave (s : State P O V) (p : P) (o : O) (v : V) : State P O V :=
  { s with computed := s.computed ++ [(p, o, v)] }

def State.ended (s : State P O V) (a : Access P O V) : State P O V :=
  { s with accesses := s.accesses ++ [a] }

/-! ### Steps -/

/-- An access may start at the bottom of a thread or in a function. -/
def Callable : List (Frame P O V) → Bool
  | [] => true
  | ⟨_, _, .computing _⟩ :: _ => true
  | _ => false

/-- `__get__` up to its first look. -/
def get (t : Nat) (p : P) (o : O) (s : State P O V) : Option (State P O V) :=
  if Callable (s.callStacks t) then
    match s.dicts o p with
    | some v => some (s.ended ⟨t, p, o, some (.value v)⟩)
    | none => some (s.setStack t (⟨p, o, .waiting⟩ :: s.callStacks t))
  else none

def acquired (t : Nat) (s : State P O V) : Option (State P O V) :=
  match s.callStacks t with
  | ⟨p, o, .waiting⟩ :: rest =>
      (acquire t (s.locks p)).map fun l =>
        (s.setLock p l).setStack t (⟨p, o, .checking true⟩ :: rest)
  | _ => none

/-- The time is over while another thread has the lock. -/
def timedOut (t : Nat) (s : State P O V) : Option (State P O V) :=
  match s.callStacks t with
  | ⟨p, o, .waiting⟩ :: rest =>
      if acquire t (s.locks p) = none then some (s.setStack t (⟨p, o, .checking false⟩ :: rest))
      else none
  | _ => none

def check (t : Nat) (s : State P O V) : Option (State P O V) :=
  match s.callStacks t with
  | ⟨p, o, .checking a⟩ :: rest =>
      match s.dicts o p with
      | some v => some (s.setStack t (⟨p, o, .leaving a (.value v)⟩ :: rest))
      | none => some (s.setStack t (⟨p, o, .computing a⟩ :: rest))
  | _ => none

def finish (t : Nat) (r : Outcome V) (s : State P O V) : Option (State P O V) :=
  match s.callStacks t with
  | ⟨p, o, .computing a⟩ :: rest =>
      match r with
      | .value v => some ((s.gave p o v).setStack t (⟨p, o, .storing a v⟩ :: rest))
      | r => some (s.setStack t (⟨p, o, .leaving a r⟩ :: rest))
  | _ => none

def store (t : Nat) (s : State P O V) : Option (State P O V) :=
  match s.callStacks t with
  | ⟨p, o, .storing a v⟩ :: rest =>
      some ((s.setDict p o (some v)).setStack t (⟨p, o, .leaving a (.value v)⟩ :: rest))
  | _ => none

/-- `__exit__`. -/
def leave (t : Nat) (s : State P O V) : Option (State P O V) :=
  match s.callStacks t with
  | ⟨p, o, .leaving a r⟩ :: rest =>
      if a then
        match release t (s.locks p) with
        | some l => some (((s.setLock p l).ended ⟨t, p, o, some r⟩).setStack t rest)
        | none => some ((s.ended ⟨t, p, o, none⟩).setStack t rest)
      else some ((s.ended ⟨t, p, o, some r⟩).setStack t rest)
  | _ => none

/-- `write` is `reset` with a value, and `delete` and `pop` without one. -/
inductive Op (P O V : Type) where
  | get (t : Nat) (p : P) (o : O)
  | acquired (t : Nat)
  | timedOut (t : Nat)
  | check (t : Nat)
  | finish (t : Nat) (r : Outcome V)
  | store (t : Nat)
  | leave (t : Nat)
  | write (p : P) (o : O) (c : Option V)

def step (s : State P O V) : Op P O V → Option (State P O V)
  | .get t p o => get t p o s
  | .acquired t => acquired t s
  | .timedOut t => timedOut t s
  | .check t => check t s
  | .finish t r => finish t r s
  | .store t => store t s
  | .leave t => leave t s
  | .write p o c => some (s.setDict p o c)

section Cases

variable {s s' : State P O V} {t : Nat}

theorem get_cases {p : P} {o : O} (h : get t p o s = some s') :
    (∃ v, s.dicts o p = some v ∧ s' = s.ended ⟨t, p, o, some (.value v)⟩) ∨
      (s.dicts o p = none ∧ s' = s.setStack t (⟨p, o, .waiting⟩ :: s.callStacks t)) := by
  unfold get at h
  split at h
  · split at h
    · next v hv => exact Or.inl ⟨v, hv, (Option.some.inj h).symm⟩
    · next hnone => exact Or.inr ⟨hnone, (Option.some.inj h).symm⟩
  · cases h

theorem acquired_cases (h : acquired t s = some s') :
    ∃ p o rest l, s.callStacks t = ⟨p, o, .waiting⟩ :: rest ∧ acquire t (s.locks p) = some l ∧
      s' = (s.setLock p l).setStack t (⟨p, o, .checking true⟩ :: rest) := by
  unfold acquired at h
  split at h
  · next p o rest hstack =>
    obtain ⟨l, hl, rfl⟩ := Option.map_eq_some_iff.mp h
    exact ⟨p, o, rest, l, hstack, hl, rfl⟩
  · cases h

theorem timedOut_cases (h : timedOut t s = some s') :
    ∃ p o rest, s.callStacks t = ⟨p, o, .waiting⟩ :: rest ∧
      s' = s.setStack t (⟨p, o, .checking false⟩ :: rest) := by
  unfold timedOut at h
  split at h
  · next p o rest hstack =>
    split at h
    · exact ⟨p, o, rest, hstack, (Option.some.inj h).symm⟩
    · cases h
  · cases h

theorem check_cases (h : check t s = some s') :
    ∃ p o a rest phase, s.callStacks t = ⟨p, o, .checking a⟩ :: rest ∧
      ((∃ v, s.dicts o p = some v ∧ phase = .leaving a (.value v)) ∨
        (s.dicts o p = none ∧ phase = .computing a)) ∧
      s' = s.setStack t (⟨p, o, phase⟩ :: rest) := by
  unfold check at h
  split at h
  · next p o a rest hstack =>
    split at h
    · next v hv =>
      exact ⟨p, o, a, rest, _, hstack, Or.inl ⟨v, hv, rfl⟩, (Option.some.inj h).symm⟩
    · next hnone =>
      exact ⟨p, o, a, rest, _, hstack, Or.inr ⟨hnone, rfl⟩, (Option.some.inj h).symm⟩
  · cases h

theorem finish_cases {r : Outcome V} (h : finish t r s = some s') :
    ∃ p o a rest, s.callStacks t = ⟨p, o, .computing a⟩ :: rest ∧
      ((∃ v, r = .value v ∧ s' = (s.gave p o v).setStack t (⟨p, o, .storing a v⟩ :: rest)) ∨
        ((∀ v, r ≠ .value v) ∧ s' = s.setStack t (⟨p, o, .leaving a r⟩ :: rest))) := by
  unfold finish at h
  split at h
  · next p o a rest hstack =>
    refine ⟨p, o, a, rest, hstack, ?_⟩
    split at h
    · next v => exact Or.inl ⟨v, rfl, (Option.some.inj h).symm⟩
    · next hne => exact Or.inr ⟨hne, (Option.some.inj h).symm⟩
  · cases h

theorem store_cases (h : store t s = some s') :
    ∃ p o a v rest, s.callStacks t = ⟨p, o, .storing a v⟩ :: rest ∧
      s' = (s.setDict p o (some v)).setStack t (⟨p, o, .leaving a (.value v)⟩ :: rest) := by
  unfold store at h
  split at h
  · next p o a v rest hstack => exact ⟨p, o, a, v, rest, hstack, (Option.some.inj h).symm⟩
  · cases h

theorem leave_cases (h : leave t s = some s') :
    ∃ p o a r rest, s.callStacks t = ⟨p, o, .leaving a r⟩ :: rest ∧
      ((a = true ∧ ((∃ l, release t (s.locks p) = some l ∧
            s' = ((s.setLock p l).ended ⟨t, p, o, some r⟩).setStack t rest) ∨
          (release t (s.locks p) = none ∧ s' = (s.ended ⟨t, p, o, none⟩).setStack t rest))) ∨
        (a = false ∧ s' = (s.ended ⟨t, p, o, some r⟩).setStack t rest)) := by
  unfold leave at h
  split at h
  · next p o a r rest hstack =>
    refine ⟨p, o, a, r, rest, hstack, ?_⟩
    cases a with
    | false => exact Or.inr ⟨rfl, (Option.some.inj h).symm⟩
    | true =>
      refine Or.inl ⟨rfl, ?_⟩
      simp only [if_true] at h
      split at h
      · next l hl => exact Or.inl ⟨l, hl, (Option.some.inj h).symm⟩
      · next hnone => exact Or.inr ⟨hnone, (Option.some.inj h).symm⟩
  · cases h

end Cases

/-! ### The locks -/

/-- The accesses to property `p` that have its lock. -/
def held (p : P) (stack : List (Frame P O V)) : Nat :=
  stack.countP fun f => decide (f.prop = p) && f.phase.acquireLock

/-- A thread has a lock as often as its accesses say, and no release has failed. -/
structure Agrees (s : State P O V) : Prop where
  holds : ∀ p t, holds (s.locks p) t = held p (s.callStacks t)
  released : ∀ a ∈ s.accesses, a.outcome ≠ none

theorem held_cons (p : P) (f : Frame P O V) (rest : List (Frame P O V)) :
    held p (f :: rest) = held p rest + if f.prop = p ∧ f.phase.acquireLock then 1 else 0 := by
  simp [held, List.countP_cons]

/-- A step of a thread that neither takes nor releases a lock. -/
theorem Agrees.congr {s s' : State P O V} (h : Agrees s) {t : Nat} {stack : List (Frame P O V)}
    (hlocks : s'.locks = s.locks) (hstacks : s'.callStacks = Function.update s.callStacks t stack)
    (hheld : ∀ p, held p stack = held p (s.callStacks t))
    (hreleased : ∀ a ∈ s'.accesses, a.outcome ≠ none) : Agrees s' := by
  refine ⟨fun p u => ?_, hreleased⟩
  rw [hlocks, hstacks, h.holds p u]
  by_cases hu : u = t
  · rw [hu, Function.update_self, hheld]
  · rw [Function.update_of_ne hu]

/-- A step of a thread that takes or releases the lock of one property. -/
theorem Agrees.update {s s' : State P O V} (h : Agrees s) {t : Nat} {p : P} {l : Lock Nat}
    {stack : List (Frame P O V)} (hlocks : s'.locks = Function.update s.locks p l)
    (hstacks : s'.callStacks = Function.update s.callStacks t stack)
    (hself : ReentrantLock.holds l t = held p stack)
    (hothers : ∀ u, u ≠ t → ReentrantLock.holds l u = ReentrantLock.holds (s.locks p) u)
    (hheld : ∀ q, q ≠ p → held q stack = held q (s.callStacks t))
    (hreleased : ∀ a ∈ s'.accesses, a.outcome ≠ none) : Agrees s' := by
  refine ⟨fun q u => ?_, hreleased⟩
  rw [hlocks, hstacks]
  have hbefore := h.holds q u
  by_cases hq : q = p
  · subst hq
    rw [Function.update_self]
    by_cases hu : u = t
    · rw [hu, Function.update_self, hself]
    · rw [Function.update_of_ne hu, hothers u hu, hbefore]
  · rw [Function.update_of_ne hq, hbefore]
    by_cases hu : u = t
    · rw [hu, Function.update_self, hheld q hq]
    · rw [Function.update_of_ne hu]

theorem held_phase {p : P} {q : P} {o : O} {a b : Phase V} {rest : List (Frame P O V)}
    (h : b.acquireLock = a.acquireLock) :
    held p (⟨q, o, b⟩ :: rest) = held p (⟨q, o, a⟩ :: rest) := by
  rw [held_cons, held_cons, h]

theorem Agrees.release {s : State P O V} (h : Agrees s) {t : Nat} {p : P} {o : O} {r : Outcome V}
    {rest : List (Frame P O V)} (hstack : s.callStacks t = ⟨p, o, .leaving true r⟩ :: rest) :
    ∃ l, ReentrantLock.release t (s.locks p) = some l := by
  apply Option.isSome_iff_exists.mp
  rw [release_isSome_iff, h.holds p t, hstack, held_cons]
  simp [Phase.acquireLock]

theorem step_agrees (s : State P O V) (op : Op P O V) (s' : State P O V) (h : Agrees s)
    (hstep : step s op = some s') : Agrees s' := by
  have hpush : ∀ a : Access P O V, a.outcome ≠ none →
      ∀ b ∈ s.accesses ++ [a], b.outcome ≠ none := by
    intro a ha b hb
    rcases List.mem_append.mp hb with hb | hb
    · exact h.released b hb
    · rw [List.mem_singleton.mp hb]
      exact ha
  cases op with
  | get t p o =>
    rcases get_cases hstep with ⟨v, _, rfl⟩ | ⟨_, rfl⟩
    · exact ⟨h.holds, hpush _ (Option.some_ne_none _)⟩
    · exact h.congr rfl rfl (fun q => by simp [held_cons, Phase.acquireLock]) h.released
  | acquired t =>
    obtain ⟨p, o, rest, l, hstack, hl, rfl⟩ := acquired_cases hstep
    have htaken := holds_acquire hl
    refine h.update rfl rfl ?_ (fun u hu => ?_) (fun q hq => ?_) h.released
    · rw [htaken, h.holds, hstack, held_cons, held_cons]
      simp [Phase.acquireLock]
    · rw [htaken, if_neg hu, Nat.add_zero]
    · have hne : ∀ b : Bool, ¬ (p = q ∧ b = true) := fun b h => hq h.1.symm
      rw [hstack, held_cons, held_cons, if_neg (hne _), if_neg (hne _)]
  | timedOut t =>
    obtain ⟨p, o, rest, hstack, rfl⟩ := timedOut_cases hstep
    exact h.congr rfl rfl (fun q => hstack ▸ held_phase rfl) h.released
  | check t =>
    obtain ⟨p, o, a, rest, phase, hstack, hphase, rfl⟩ := check_cases hstep
    have hsame : phase.acquireLock = a := by
      rcases hphase with ⟨v, _, rfl⟩ | ⟨_, rfl⟩ <;> rfl
    exact h.congr rfl rfl (fun q => hstack ▸ held_phase hsame) h.released
  | finish t r =>
    obtain ⟨p, o, a, rest, hstack, ⟨v, _, rfl⟩ | ⟨_, rfl⟩⟩ := finish_cases hstep
    · exact h.congr rfl rfl (fun q => hstack ▸ held_phase rfl) h.released
    · exact h.congr rfl rfl (fun q => hstack ▸ held_phase rfl) h.released
  | store t =>
    obtain ⟨p, o, a, v, rest, hstack, rfl⟩ := store_cases hstep
    exact h.congr rfl rfl (fun q => hstack ▸ held_phase rfl) h.released
  | leave t =>
    obtain ⟨p, o, a, r, rest, hstack, ⟨rfl, ⟨l, hl, rfl⟩ | ⟨hnone, rfl⟩⟩ | ⟨rfl, rfl⟩⟩ :=
      leave_cases hstep
    · have hreleased := holds_release hl
      refine h.update rfl rfl ?_ (fun u hu => ?_) (fun q hq => ?_) (hpush _ (Option.some_ne_none _))
      · have := hreleased t
        rw [h.holds, hstack, held_cons] at this
        simpa [Phase.acquireLock] using this.symm
      · rw [hreleased u, if_neg hu, Nat.add_zero]
      · rw [hstack, held_cons, if_neg (fun h => hq h.1.symm), Nat.add_zero]
    · -- the lock is the thread's
      obtain ⟨l, hl⟩ := h.release hstack
      rw [hl] at hnone
      cases hnone
    · refine h.congr rfl rfl (fun q => ?_) (hpush _ (Option.some_ne_none _))
      simp [hstack, held_cons, Phase.acquireLock]
  | write p o c =>
    cases hstep
    exact ⟨h.holds, h.released⟩

theorem agrees_initial : Agrees (State.initial : State P O V) :=
  ⟨fun _ _ => rfl, fun _ ha => absurd ha List.not_mem_nil⟩

theorem run_agrees {ops : List (Op P O V)} {s : State P O V}
    (hrun : run step State.initial ops = some s) : Agrees s :=
  run_invariant (fun a op b _ => step_agrees a op b) agrees_initial hrun

theorem Agrees.leave {s s' : State P O V} (h : Agrees s) {t : Nat}
    (hstep : CachedProperty.leave t s = some s') :
    ∃ p o a r rest l, s.callStacks t = ⟨p, o, .leaving a r⟩ :: rest ∧
      s' = ((s.setLock p l).ended ⟨t, p, o, some r⟩).setStack t rest := by
  obtain ⟨p, o, a, r, rest, hstack, ⟨rfl, ⟨l, _, rfl⟩ | ⟨hnone, _⟩⟩ | ⟨rfl, rfl⟩⟩ :=
    leave_cases hstep
  · exact ⟨p, o, true, r, rest, l, hstack, rfl⟩
  · obtain ⟨l, hl⟩ := h.release hstack
    rw [hl] at hnone
    cases hnone
  · refine ⟨p, o, false, r, rest, s.locks p, hstack, ?_⟩
    rw [State.setLock, Function.update_eq_self]

/-- **A lock is released only by a thread that has it**: no release fails, a thread has the lock of
    a property as often as its accesses under way have obtained it, so no two threads have
    obtained one lock, and a lock is free when no access is under way. -/
theorem locks_held {ops : List (Op P O V)} {s : State P O V}
    (hrun : run step State.initial ops = some s) :
    (∀ a ∈ s.accesses, a.outcome ≠ none) ∧
      (∀ p t, ReentrantLock.holds (s.locks p) t = held p (s.callStacks t)) ∧
      (∀ p t u, 0 < held p (s.callStacks t) → 0 < held p (s.callStacks u) → t = u) ∧
        ∀ p, (∀ t, held p (s.callStacks t) = 0) → s.locks p = none := by
  have h := run_agrees hrun
  refine ⟨h.released, h.holds, fun p t u ht hu => ?_, fun p hfree => ?_⟩
  · rw [← h.holds] at ht hu
    exact owner_unique ht hu
  · exact free_of_holds fun t => (h.holds p t).trans (hfree t)

/-- Thread 0 computes property 0 of object 0, and property 1 inside it; thread 1 waits in vain and
    computes the value itself. -/
def nestedAndTimedOut : List (Op Nat Nat Nat) :=
  [.get 0 0 0, .get 1 0 0, .acquired 0, .check 0, .get 0 1 0, .acquired 0, .timedOut 1, .check 1,
    .check 0, .finish 0 .raised, .leave 0, .finish 0 (.value 7), .finish 1 (.value 8), .store 0,
    .store 1, .leave 1]

theorem locks_held_nested : ∃ s, run step State.initial nestedAndTimedOut = some s ∧
    ((∀ a ∈ s.accesses, a.outcome ≠ none) ∧
      (∀ p t, ReentrantLock.holds (s.locks p) t = held p (s.callStacks t)) ∧
      (∀ p t u, 0 < held p (s.callStacks t) → 0 < held p (s.callStacks u) → t = u) ∧
        ∀ p, (∀ t, held p (s.callStacks t) = 0) → s.locks p = none) ∧
    s.accesses = [⟨0, 1, 0, some .raised⟩, ⟨1, 0, 0, some (.value 8)⟩] ∧
      s.locks 0 = some ⟨0, 0⟩ := by
  have hrun : run step State.initial nestedAndTimedOut = some _ := rfl
  exact ⟨_, hrun, locks_held hrun, rfl, rfl⟩

end Albatross.CachedProperty
