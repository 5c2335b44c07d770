/-
  Albatross/AttachCallbacks.lean
  ==============================
  **Whose launch callbacks an attach invokes** (`device.py`: `attach_with_plugins`).

  The variable `uid` is that of the package, or `-1`; where it is negative, the first
  process in which a plugin has been loaded sets it to its own uid.  It is not reset, so
  what it is at a process depends on the package and on the processes before it alone
  (`firstUid`, `run_uid`), and the callbacks invoked there are those of this uid.  They
  are the right ones exactly where it is the process's own uid or neither has callbacks
  (`attach_right_iff`).

  The answers of the server, `process_uid` apart, are arbitrary at every turn, and so is
  what an invocation of callbacks leaves of the registered ones, and whether it raises;
  `LaunchCallbacks.lean` is about a single invocation.  `invoked` is a record that no
  code reads.
-/
import Albatross.Assoc
import Albatross.Python
import Albatross.Runs

namespace Albatross.AttachCallbacks

open Assoc Runs
open Python (PyExn)

variable {α ι : Type}

def DEX_LOAD_SUCCESS : Int := 20
def DEX_ALREADY_LOAD : Int := 21

/-- `client.launch_callback`. -/
abbrev Callbacks (α : Type) := Dict Int (List α)

/-- `client.invoke_callbacks(callbacks, uid, pid, None)`. -/
structure Invocation (α : Type) where
  uid : Int
  pid : Int
  callbacks : List α
deriving DecidableEq

/-- The device and what happens on it: `inject n` and `load n k` answer the `n`-th injection and its
    `k`-th load, and `effect n` is what the `n`-th invocation leaves. -/
structure Env (α : Type) where
  packageUid : String → Option Int
  javaProcesses : Int → List Int
  processUid : Int → Int
  inject : Nat → Int
  load : Nat → Nat → Int
  effect : Nat → Callbacks α → Callbacks α × Option PyExn

/-- The argument `package_or_pid`. -/
inductive Target where
  | package (name : String)
  | pid (pid : Int)
  | pids (pids : List Int)

/-- A turn of the loop over the processes, with what the server answers: to the injection, and for
    each plugin to its loading. -/
structure Attempt (ι : Type) where
  pid : Int
  inject : Int
  loads : List (ι × Int)

/-- `failed`: an invocation has raised, which ends the loop. -/
structure Attach (α ι : Type) where
  uid : Int
  launchCallback : Callbacks α
  success : List (Int × ι)
  failed : Bool
  invoked : List (Invocation α)

section Code

variable (env : Env α)

def getJavaProcessesByUid (uid : Option Int) : List Int :=
  match uid with
  | none => []
  | some uid => if uid = 0 then [] else env.javaProcesses uid

/-- The variables `uid` and `pids` before the loop.  Without a package uid there are no processes,
    and `uid` is not read. -/
def resolve : Target → Int × List Int
  | .package name =>
      ((env.packageUid name).getD (-1), getJavaProcessesByUid env (env.packageUid name))
  | .pid pid => (-1, [pid])
  | .pids pids => (-1, pids)

def attempts (pids : List Int) (plugins : List ι) : List (Attempt ι) :=
  if plugins = [] then []
  else pids.zipIdx.map fun e =>
    ⟨e.1, env.inject e.2, plugins.zipIdx.map fun p => (p.1, env.load e.2 p.2)⟩

def Attempt.loaded (a : Attempt ι) : List ι :=
  (a.loads.filter fun e => e.2 = DEX_LOAD_SUCCESS ∨ e.2 = DEX_ALREADY_LOAD).map Prod.fst

/-- `if callbacks: client.invoke_callbacks(callbacks, uid, pid, None)`. -/
def invoke (uid pid : Int) (s : Attach α ι) : Attach α ι :=
  match s.launchCallback.lookup uid with
  | some (c :: cs) =>
      let left := env.effect s.invoked.length s.launchCallback
      { s with
        launchCallback := left.1
        failed := left.2.isSome
        invoked := s.invoked ++ [⟨uid, pid, c :: cs⟩] }
  | _ => s

def turn (a : Attempt ι) (s : Attach α ι) : Attach α ι :=
  if 0 ≤ a.inject then
    let s := { s with success := s.success ++ a.loaded.map fun p => (a.pid, p) }
    if a.loaded = [] then s
    else
      let uid := if s.uid < 0 then env.processUid a.pid else s.uid
      invoke env uid a.pid { s with uid := uid }
  else s

def step (s : Attach α ι) (a : Attempt ι) : Option (Attach α ι) :=
  if s.failed then none else some (turn env a s)

def start (target : Target) (launchCallback : Callbacks α) : Attach α ι :=
  ⟨(resolve env target).1, launchCallback, [], false, []⟩

end Code

/-! ### One turn -/

variable {env : Env α}

def Attempt.Loads (a : Attempt ι) : Prop := 0 ≤ a.inject ∧ a.loaded ≠ []

instance (a : Attempt ι) : Decidable a.Loads := inferInstanceAs (Decidable (_ ∧ _))

def NoCallbacks (uid : Int) (callbacks : Callbacks α) : Prop :=
  ∀ c cs, callbacks.lookup uid ≠ some (c :: cs)

/-- The callbacks of a uid, with that uid and a process. -/
def invocationsOf (uid pid : Int) (callbacks : Callbacks α) : List (Invocation α) :=
  match callbacks.lookup uid with
  | some (c :: cs) => [⟨uid, pid, c :: cs⟩]
  | _ => []

/-- The turn invokes the callbacks of the process's own uid when a plugin was loaded, and none
    otherwise. -/
def Right (env : Env α) (s : Attach α ι) (a : Attempt ι) (s' : Attach α ι) : Prop :=
  s'.invoked = s.invoked ++
    if a.Loads then invocationsOf (env.processUid a.pid) a.pid s.launchCallback else []

/-- The uid of the package that is asked for. -/
def Target.uid (env : Env α) : Target → Option Int
  | .package name => env.packageUid name
  | .pid _ => none
  | .pids _ => none

/-- The uid whose callbacks belong to the attach by the time of a turn: that of the package, else
    that of the first process before the turn in which a plugin has been loaded.  A negative one
    stands for none. -/
def firstUid (env : Env α) (target : Target) (before : List (Attempt ι)) : Option Int :=
  ((target.uid env).toList ++
    (before.filter fun a => a.Loads).map fun a => env.processUid a.pid).find? fun uid => 0 ≤ uid

/-- No plugin is loaded, there is no uid yet, it is that of the process, or neither has
    callbacks. -/
def Agrees (env : Env α) (target : Target) (before : List (Attempt ι)) (a : Attempt ι)
    (callbacks : Callbacks α) : Prop :=
  a.Loads → ∀ uid, firstUid env target before = some uid → uid = env.processUid a.pid ∨
    NoCallbacks uid callbacks ∧ NoCallbacks (env.processUid a.pid) callbacks

section Turn

variable {s : Attach α ι} {a : Attempt ι} {uid uid' pid : Int} {callbacks : Callbacks α}

theorem invoke_invoked (uid pid : Int) (s : Attach α ι) :
    (invoke env uid pid s).invoked = s.invoked ++ invocationsOf uid pid s.launchCallback := by
  unfold invoke invocationsOf
  split <;> simp

theorem invoke_uid (uid pid : Int) (s : Attach α ι) : (invoke env uid pid s).uid = s.uid := by
  unfold invoke
  split <;> rfl

theorem invocationsOf_eq_nil_iff :
    invocationsOf uid pid callbacks = [] ↔ NoCallbacks uid callbacks := by
  unfold invocationsOf NoCallbacks
  split
  · next c cs h => simp [h]
  · next h => simpa using h

theorem uid_of_mem_invocationsOf {i : Invocation α} (h : i ∈ invocationsOf uid pid callbacks) :
    i.uid = uid := by
  unfold invocationsOf at h
  split at h
  · rw [List.mem_singleton.mp h]
  · cases h

/-- The callbacks of two uids are told apart, unless there are none. -/
theorem invocationsOf_eq_iff : invocationsOf uid pid callbacks = invocationsOf uid' pid callbacks ↔
    uid = uid' ∨ NoCallbacks uid callbacks ∧ NoCallbacks uid' callbacks := by
  rw [← @invocationsOf_eq_nil_iff α uid pid, ← @invocationsOf_eq_nil_iff α uid' pid]
  constructor
  · intro h
    cases hlist : invocationsOf uid pid callbacks with
    | nil => exact Or.inr ⟨rfl, by rw [← h, hlist]⟩
    | cons i is =>
      left
      have hmem : i ∈ invocationsOf uid pid callbacks := by simp [hlist]
      have huid := uid_of_mem_invocationsOf hmem
      rw [h] at hmem
      exact huid.symm.trans (uid_of_mem_invocationsOf hmem)
  · rintro (rfl | ⟨h, h'⟩)
    · rfl
    · rw [h, h']

theorem turn_of_loads (h : a.Loads) :
    ∃ uid, uid = (if s.uid < 0 then env.processUid a.pid else s.uid) ∧
    (turn env a s).uid = uid ∧
    (turn env a s).invoked = s.invoked ++ invocationsOf uid a.pid s.launchCallback := by
  refine ⟨_, rfl, ?_, ?_⟩
  · simp [turn, h.1, h.2, invoke_uid]
  · simp [turn, h.1, h.2, invoke_invoked]

theorem turn_of_not_loads (h : ¬ a.Loads) :
    (turn env a s).uid = s.uid ∧ (turn env a s).invoked = s.invoked := by
  unfold Attempt.Loads at h
  unfold turn
  split
  · next hinject =>
    have hnil : a.loaded = [] := by
      by_contra hne
      exact h ⟨hinject, hne⟩
    simp [hnil]
  · exact ⟨rfl, rfl⟩

/-- One turn is right exactly when the uid that the loop has agrees. -/
theorem turn_right_iff : Right env s a (turn env a s) ↔
    (a.Loads → 0 ≤ s.uid → s.uid = env.processUid a.pid ∨
      NoCallbacks s.uid s.launchCallback ∧ NoCallbacks (env.processUid a.pid) s.launchCallback) := by
  unfold Right
  by_cases hloads : a.Loads
  · obtain ⟨uid, huid, -, hinvoked⟩ := @turn_of_loads α ι env s a hloads
    rw [hinvoked, if_pos hloads, List.append_cancel_left_eq, invocationsOf_eq_iff]
    by_cases hneg : s.uid < 0
    · rw [if_pos hneg] at huid
      exact iff_of_true (Or.inl huid) fun _ hset => absurd hneg (Int.not_lt.mpr hset)
    · rw [if_neg hneg] at huid
      rw [huid]
      simp [hloads, Int.not_lt.mp hneg]
  · simp [hloads, turn_of_not_loads hloads]

end Turn

/-! ### The loop -/

section Loop

variable {target : Target} {launchCallback : Callbacks α} {s : Attach α ι}

theorem firstUid_concat (before : List (Attempt ι)) (a : Attempt ι) :
    firstUid env target (before ++ [a]) = (firstUid env target before).or
      (if a.Loads ∧ 0 ≤ env.processUid a.pid then some (env.processUid a.pid) else none) := by
  unfold firstUid
  rw [List.filter_append, List.map_append, ← List.append_assoc, List.find?_append]
  congr 1
  by_cases hloads : a.Loads
  · by_cases huid : 0 ≤ env.processUid a.pid
    · simp [hloads, huid]
    · simp [hloads, huid]
  · simp [hloads]

/-- **The uid that the loop has is the first one.** -/
theorem run_uid {before : List (Attempt ι)}
    (hrun : run (step env) (start env target launchCallback) before = some s) :
    firstUid env target before = if 0 ≤ s.uid then some s.uid else none := by
  have hstart : firstUid env target ([] : List (Attempt ι)) =
      if 0 ≤ (resolve env target).1 then some (resolve env target).1 else none := by
    cases target with
    | package name =>
      cases hname : env.packageUid name with
      | none => simp [firstUid, Target.uid, resolve, hname]
      | some uid => by_cases huid : 0 ≤ uid <;> simp [firstUid, Target.uid, resolve, hname, huid]
    | pid _ => rfl
    | pids _ => rfl
  have hkeep : ∀ past (s : Attach α ι) a s', a ∈ before →
      firstUid env target past = (if 0 ≤ s.uid then some s.uid else none) →
      step env s a = some s' →
      firstUid env target (past ++ [a]) = if 0 ≤ s'.uid then some s'.uid else none := by
    intro past s a s' _ hpast hone
    obtain ⟨-, hs'⟩ := Option.ite_none_left_eq_some.mp hone
    cases hs'
    rw [firstUid_concat, hpast]
    by_cases hloads : a.Loads
    · obtain ⟨uid, huid, hnext, -⟩ := @turn_of_loads α ι env s a hloads
      rw [hnext, huid]
      by_cases hneg : s.uid < 0
      · simp [hloads, hneg, Int.not_le.mpr hneg]
      · simp [hneg, Int.not_lt.mp hneg]
    · rw [(turn_of_not_loads hloads).1]
      simp [hloads]
  have hall := run_history (I := fun past (s : Attach α ι) =>
    firstUid env target past = if 0 ≤ s.uid then some s.uid else none) hkeep [] hstart hrun
  simpa using hall

end Loop

/-- **Whose callbacks an attach invokes.**  Every turn invokes the callbacks of its own process and
    no others exactly when every turn that is reached and loads a plugin is of a process with the
    first uid, or neither of the two uids has callbacks then. -/
theorem attach_right_iff (env : Env α) (target : Target) (plugins : List ι)
    (launchCallback : Callbacks α) :
    (∀ s a s', Takes (step env) (start env target launchCallback)
        (attempts env (resolve env target).2 plugins) s a s' → Right env s a s') ↔
      ∀ before a after s, attempts env (resolve env target).2 plugins = before ++ a :: after →
        run (step env) (start env target launchCallback) before = some s → s.failed = false →
          Agrees env target before a s.launchCallback := by
  have hturn : ∀ before a (s : Attach α ι), run (step env) (start env target launchCallback) before = some s →
      (Right env s a (turn env a s) ↔ Agrees env target before a s.launchCallback) := by
    intro before a s hrun
    have huid := run_uid hrun
    rw [turn_right_iff, Agrees, huid]
    by_cases hset : 0 ≤ s.uid
    · simp [hset]
    · simp [hset]
  constructor
  · intro h before a after s hsplit hrun hgoes
    have hone : step env s a = some (turn env a s) := if_neg (by simp [hgoes])
    exact (hturn before a s hrun).mp (h s a _ ⟨before, after, hsplit, hrun, hone⟩)
  · rintro h s a s' ⟨before, after, hsplit, hrun, hone⟩
    obtain ⟨hgoes, hs'⟩ := Option.ite_none_left_eq_some.mp hone
    cases hs'
    exact (hturn before a s hrun).mpr (h before a after s hsplit hrun (by simpa using hgoes))

/-- Two processes with uids of their own, and a plugin that loads in both. -/
def twoUids : Env Nat where
  packageUid _ := none
  javaProcesses _ := []
  processUid pid := pid * 1000
  inject _ := 0
  load _ _ := DEX_LOAD_SUCCESS
  effect _ callbacks := (callbacks, none)

def twoCallbacks : Callbacks Nat :=
  AList.insert (2000 : Int) [2] (AList.insert (1000 : Int) [1] (∅ : Callbacks Nat))

/-- The callbacks of the first process are invoked for the second one. -/
theorem callbacks_of_other_uid : ∃ s s',
    Takes (step twoUids) (start twoUids (.pids [1, 2]) twoCallbacks)
        (attempts twoUids (resolve twoUids (.pids [1, 2])).2 [()]) s
        ⟨2, 0, [((), DEX_LOAD_SUCCESS)]⟩ s' ∧
      s'.invoked = [⟨1000, 1, [1]⟩, ⟨1000, 2, [1]⟩] ∧
      ¬ Right twoUids s ⟨2, 0, [((), DEX_LOAD_SUCCESS)]⟩ s' := by
  refine ⟨_, _, ⟨[⟨1, 0, [((), DEX_LOAD_SUCCESS)]⟩], [], rfl, rfl, rfl⟩, rfl, ?_⟩
  intro hright
  cases hright

end Albatross.AttachCallbacks
