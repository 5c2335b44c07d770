/-
  Albatross/LaunchRaces.lean
  ==========================
  **Launches while processes start** (`device.py`: `AlbatrossDevice.launch`,
  `on_launch_process`).

  `on_launch_process` runs in the thread of the subscriber, and `launch` in any others.  The
  record and the count of an app id are set one after the other, and the count is raised by
  reading it and writing it back, so the threads may come between.  Here each access to
  the two tables is a step, and `launching` says which threads are between the two
  assignments of `launch`.

  With nothing in between the steps do what `Launches` says (`launch_alone`,
  `start_alone`).  `since` counts the starts that have been handled since the latest launch
  of an app id, which no code reads; the budget of a launch is kept exactly if no count
  changes while it is being raised (`budget_kept_iff`).
-/
import Albatross.Launches
import Albatross.Runs

namespace Albatross.LaunchRaces

open Assoc Runs
open Launches (Device PluginRecord onLaunchProcess)

/-! ### The threads -/

/-- Where `on_launch_process` is. -/
inductive Handler where
  | idle
  | found (uid : Int) (record : PluginRecord)
  | counted (uid : Int) (record : PluginRecord) (count : Nat)

structure Host where
  processLaunchCallback : Dict Int PluginRecord
  appLaunchCount : Dict Int Nat
  handler : Handler
  launching : Nat → Option Int
  since : Int → Nat

def Host.initial : Host := ⟨∅, ∅, .idle, fun _ => none, fun _ => 0⟩

/-- Sets the count of a uid, and what it should be. -/
def Host.store (s : Host) (uid : Int) (count since : Nat) : Host :=
  { s with
    appLaunchCount := s.appLaunchCount.insert uid count
    since := Function.update s.since uid since }

theorem Host.store_count (s : Host) (uid : Int) (count since : Nat) :
    (s.store uid count since).appLaunchCount = s.appLaunchCount.insert uid count := rfl

theorem Host.store_callback (s : Host) (uid : Int) (count since : Nat) :
    (s.store uid count since).processLaunchCallback = s.processLaunchCallback := rfl

theorem Host.store_since (s : Host) (uid : Int) (count since : Nat) :
    (s.store uid count since).since = Function.update s.since uid since := rfl

inductive Label where
  | clear
  | file (thread : Nat) (appId : Int) (record : PluginRecord)
  | reset (thread : Nat)
  | lookup (uid : Int)
  | read
  | write

/-- `launch_callback[app_id] = record`. -/
def file (thread : Nat) (appId : Int) (record : PluginRecord) (s : Host) : Option Host :=
  match s.launching thread with
  | none => some { s with
      processLaunchCallback := s.processLaunchCallback.insert appId record
      launching := Function.update s.launching thread (some appId) }
  | some _ => none

/-- `self.app_launch_count[app_id] = 0`. -/
def reset (thread : Nat) (s : Host) : Option Host :=
  match s.launching thread with
  | none => none
  | some appId =>
      some { s.store appId 0 0 with launching := Function.update s.launching thread none }

/-- `inject_record = self.process_launch_callback.get(uid)`. -/
def lookup (uid : Int) (s : Host) : Option Host :=
  match s.handler with
  | .idle => some (match s.processLaunchCallback.lookup uid with
      | none => s
      | some record => { s with handler := .found uid record })
  | _ => none

/-- `count = self.app_launch_count[uid]`: a `KeyError` ends the handler. -/
def read (s : Host) : Option Host :=
  match s.handler with
  | .found uid record => some (match s.appLaunchCount.lookup uid with
      | none => { s with handler := .idle }
      | some count => { s with handler := .counted uid record count })
  | _ => none

/-- `self.app_launch_count[uid] = count + 1`. -/
def write (s : Host) : Option Host :=
  match s.handler with
  | .counted uid _ count =>
      some { s.store uid (count + 1) (s.since uid + 1) with handler := .idle }
  | _ => none

def step (s : Host) : Label → Option Host
  | .clear => some { s with processLaunchCallback := ∅ }
  | .file thread appId record => file thread appId record s
  | .reset thread => reset thread s
  | .lookup uid => lookup uid s
  | .read => read s
  | .write => write s

/-- The record that is attached when the count has been written: `count < max_launch_count`. -/
def attached (maxLaunchCount : Nat) (s : Host) : Option PluginRecord :=
  match s.handler with
  | .counted _ record count => if count < maxLaunchCount then some record else none
  | _ => none

/-! ### One after the other -/

section Alone

variable {s : Host} {d : Device} {uid : Int}

structure Holds (s : Host) (d : Device) : Prop where
  callback : s.processLaunchCallback = d.processLaunchCallback
  count : s.appLaunchCount = d.appLaunchCount

theorem launch_alone (h : Holds s d) {thread : Nat} (hthread : s.launching thread = none)
    (appId : Int) (record : PluginRecord) :
    ∃ s', run step s [.file thread appId record, .reset thread] = some s' ∧
      Holds s' (d.file appId record) ∧ s'.launching = s.launching := by
  refine ⟨_, by simp [step, file, reset, hthread]; rfl, ⟨?_, ?_⟩, ?_⟩
  · exact congrArg (·.insert appId record) h.callback
  · exact congrArg (·.insert appId 0) h.count
  · simp [← hthread]

theorem onLaunchProcess_some {record : PluginRecord} {count : Nat}
    (hrecord : d.processLaunchCallback.lookup uid = some record)
    (hcount : d.appLaunchCount.lookup uid = some count) (maxLaunchCount : Nat) :
    onLaunchProcess maxLaunchCount uid d =
      if count < maxLaunchCount then (1, some record, d.count uid count)
      else (-1, none, d.count uid count) := by
  unfold onLaunchProcess
  split
  · next hnone =>
    rw [hrecord] at hnone
    cases hnone
  · next found hfound =>
    cases hrecord.symm.trans hfound
    simp only [hcount, Option.get_some]

theorem start_alone_none (h : Holds s d) (hidle : s.handler = .idle)
    (hnone : s.processLaunchCallback.lookup uid = none) (maxLaunchCount : Nat) :
    lookup uid s = some s ∧ onLaunchProcess maxLaunchCount uid d = (1, none, d) := by
  refine ⟨by simp [lookup, hidle, hnone], ?_⟩
  rw [h.callback] at hnone
  unfold onLaunchProcess
  split
  · rfl
  · next record hrecord =>
    rw [hnone] at hrecord
    cases hrecord

/-- **A handler that nothing interrupts**, for a uid with a record. -/
theorem start_alone (h : Holds s d) (hidle : s.handler = .idle) {record : PluginRecord}
    (hrecord : s.processLaunchCallback.lookup uid = some record) (maxLaunchCount : Nat) :
    ∃ s₂ s₃, run step s [.lookup uid, .read] = some s₂ ∧ write s₂ = some s₃ ∧
      attached maxLaunchCount s₂ = (onLaunchProcess maxLaunchCount uid d).2.1 ∧
      Holds s₃ (onLaunchProcess maxLaunchCount uid d).2.2 := by
  have hsome : d.processLaunchCallback.lookup uid = some record := h.callback ▸ hrecord
  obtain ⟨count, hcount⟩ := Option.isSome_iff_exists.mp (d.counted uid (by rw [hsome]; rfl))
  have hread : s.appLaunchCount.lookup uid = some count := h.count ▸ hcount
  have hd := onLaunchProcess_some hsome hcount maxLaunchCount
  have htables : ∀ s₃ : Host, s₃.processLaunchCallback = s.processLaunchCallback →
      s₃.appLaunchCount = s.appLaunchCount.insert uid (count + 1) →
        Holds s₃ (onLaunchProcess maxLaunchCount uid d).2.2 := by
    intro s₃ hcallback hcounts
    have hleft : (onLaunchProcess maxLaunchCount uid d).2.2 = d.count uid count := by
      rw [hd]
      split <;> rfl
    rw [hleft]
    exact ⟨hcallback.trans h.callback, hcounts.trans (congrArg (·.insert uid (count + 1)) h.count)⟩
  refine ⟨{ s with handler := .counted uid record count }, _, ?_, rfl, ?_, htables _ rfl rfl⟩
  · simp [step, lookup, read, hidle, hrecord, hread]
  · rw [hd]
    simp only [attached]
    split <;> rfl

end Alone

/-! ### Any interleaving -/

section Counts

variable {s s' : Host}

/-- The count of every uid is the number of starts handled since its latest launch. -/
def Right (s : Host) : Prop :=
  ∀ uid n, s.appLaunchCount.lookup uid = some n → n = s.since uid

/-- A count that has been read is in the table, and a record without a count is on the mind of
    a launch. -/
structure Inv (s : Host) : Prop where
  counted : ∀ uid record count, s.handler = .counted uid record count →
    (s.appLaunchCount.lookup uid).isSome
  launched : ∀ uid, (s.processLaunchCallback.lookup uid).isSome →
    (s.appLaunchCount.lookup uid).isSome ∨ ∃ thread, s.launching thread = some uid

/-- If the step writes a count, the one that it was read from is still there. -/
def Undisturbed (s : Host) (l : Label) : Prop :=
  l = .write → ∀ uid record count, s.handler = .counted uid record count →
    s.appLaunchCount.lookup uid = some count

theorem inv_initial : Inv Host.initial where
  counted _ _ _ h := by cases h
  launched _ h := by simp [Host.initial] at h

theorem isSome_lookup_insert {d : Dict Int Nat} {k u : Int} {n : Nat} (h : (d.lookup u).isSome) :
    ((d.insert k n).lookup u).isSome :=
  Launches.isSome_insert h

theorem isSome_lookup_insert_self (d : Dict Int Nat) (k : Int) (n : Nat) :
    ((d.insert k n).lookup k).isSome := by
  rw [AList.lookup_insert]
  rfl

theorem inv_file (hinv : Inv s) {thread : Nat} {appId : Int} {record : PluginRecord}
    (h : file thread appId record s = some s') : Inv s' := by
  unfold file at h
  split at h
  · next hthread =>
    cases h
    refine ⟨hinv.counted, fun uid hrecord => ?_⟩
    by_cases huid : uid = appId
    · subst huid
      exact Or.inr ⟨thread, Function.update_self ..⟩
    · rw [AList.lookup_insert_ne huid] at hrecord
      rcases hinv.launched uid hrecord with hcount | ⟨t, ht⟩
      · exact Or.inl hcount
      · refine Or.inr ⟨t, ?_⟩
        have hne : t ≠ thread := by
          rintro rfl
          rw [hthread] at ht
          cases ht
        exact (Function.update_of_ne hne ..).trans ht
  · cases h

theorem inv_reset (hinv : Inv s) {thread : Nat} (h : reset thread s = some s') : Inv s' := by
  unfold reset at h
  split at h
  · cases h
  · next appId hthread =>
    cases h
    refine ⟨fun uid record count hcounted => ?_, fun uid hrecord => ?_⟩
    · exact isSome_lookup_insert (hinv.counted uid record count hcounted)
    · by_cases huid : uid = appId
      · subst huid
        exact Or.inl (isSome_lookup_insert_self _ _ _)
      · rcases hinv.launched uid hrecord with hcount | ⟨t, ht⟩
        · exact Or.inl (isSome_lookup_insert hcount)
        · refine Or.inr ⟨t, ?_⟩
          have hne : t ≠ thread := by
            rintro rfl
            exact huid (Option.some.inj (ht.symm.trans hthread))
          exact (Function.update_of_ne hne ..).trans ht

theorem inv_lookup (hinv : Inv s) {uid : Int} (h : lookup uid s = some s') : Inv s' := by
  unfold lookup at h
  split at h
  · obtain rfl := Option.some.inj h
    split
    · exact hinv
    · exact ⟨fun _ _ _ hcounted => (by cases hcounted), hinv.launched⟩
  · cases h

theorem inv_read (hinv : Inv s) (h : read s = some s') : Inv s' := by
  unfold read at h
  split at h
  · obtain rfl := Option.some.inj h
    split
    · exact ⟨fun _ _ _ hcounted => (by cases hcounted), hinv.launched⟩
    · next count hcount =>
      refine ⟨fun uid record n hcounted => ?_, hinv.launched⟩
      cases hcounted
      rw [hcount]
      rfl
  · cases h

theorem inv_write (hinv : Inv s) (h : write s = some s') : Inv s' := by
  unfold write at h
  split at h
  · cases h
    refine ⟨fun _ _ _ hcounted => (by cases hcounted), fun uid hrecord => ?_⟩
    exact (hinv.launched uid hrecord).imp_left isSome_lookup_insert
  · cases h

theorem inv_step (hinv : Inv s) {l : Label} (h : step s l = some s') : Inv s' := by
  cases l with
  | clear =>
    obtain rfl := Option.some.inj h
    exact ⟨hinv.counted, fun uid hrecord => by simp at hrecord⟩
  | file thread appId record => exact inv_file hinv h
  | reset thread => exact inv_reset hinv h
  | lookup uid => exact inv_lookup hinv h
  | read => exact inv_read hinv h
  | write => exact inv_write hinv h

theorem inv_run {ls : List Label} (hrun : run step .initial ls = some s) : Inv s :=
  run_invariant (fun _ _ _ _ hs hone => inv_step hs hone) inv_initial hrun

/-- **A record without a count is on the mind of a launch**: the handler's reading raises only
    while a thread is between the two assignments for the uid. -/
theorem count_missing {ls : List Label} {uid : Int} {record : PluginRecord}
    (hrun : run step .initial ls = some s)
    (hrecord : s.processLaunchCallback.lookup uid = some record)
    (hcount : s.appLaunchCount.lookup uid = none) : ∃ thread, s.launching thread = some uid := by
  rcases (inv_run hrun).launched uid (by rw [hrecord]; rfl) with hthere | hlaunching
  · rw [hcount] at hthere
    cases hthere
  · exact hlaunching

theorem right_store (hright : Right s) (uid : Int) (count since : Nat) :
    Right (s.store uid count since) ↔ count = since := by
  constructor
  · intro h
    have hcount := h uid count (AList.lookup_insert _)
    rwa [Host.store_since, Function.update_self] at hcount
  · rintro rfl u n hlookup
    rw [Host.store_count] at hlookup
    rw [Host.store_since]
    rcases lookup_insert_eq_some.mp hlookup with ⟨rfl, rfl⟩ | ⟨hu, hold⟩
    · rw [Function.update_self]
    · rw [Function.update_of_ne hu]
      exact hright u n hold

theorem right_write (hinv : Inv s) (hright : Right s) (h : write s = some s') :
    Right s' ↔ Undisturbed s .write := by
  unfold write at h
  split at h
  · next uid record count hcounted =>
    cases h
    obtain ⟨stored, hstored⟩ := Option.isSome_iff_exists.mp (hinv.counted uid record count hcounted)
    have hsince : stored = s.since uid := hright uid stored hstored
    refine (right_store hright uid (count + 1) (s.since uid + 1)).trans ?_
    constructor
    · rintro hcount - _ _ _ hcounted'
      cases hcounted.symm.trans hcounted'
      rw [hstored, hsince, Nat.add_right_cancel hcount]
    · intro hundisturbed
      rw [hright uid count (hundisturbed rfl uid record count hcounted)]
  · cases h

theorem right_reset (hright : Right s) {thread : Nat} (h : reset thread s = some s') :
    Right s' := by
  unfold reset at h
  split at h
  · cases h
  · next appId hthread =>
    cases h
    exact (right_store hright appId 0 0).mpr rfl

theorem counts_of_step {l : Label} (h : step s l = some s') (hwrite : l ≠ .write)
    (hreset : ∀ thread, l ≠ .reset thread) :
    s'.appLaunchCount = s.appLaunchCount ∧ s'.since = s.since := by
  cases l with
  | clear =>
    obtain rfl := Option.some.inj h
    exact ⟨rfl, rfl⟩
  | file thread appId record =>
    simp only [step, file] at h
    split at h
    · cases h
      exact ⟨rfl, rfl⟩
    · cases h
  | reset thread => exact absurd rfl (hreset thread)
  | lookup uid =>
    simp only [step, lookup] at h
    split at h
    · obtain rfl := Option.some.inj h
      split <;> exact ⟨rfl, rfl⟩
    · cases h
  | read =>
    simp only [step, read] at h
    split at h
    · obtain rfl := Option.some.inj h
      split <;> exact ⟨rfl, rfl⟩
    · cases h
  | write => exact absurd rfl hwrite

theorem right_step {l : Label} (hinv : Inv s) (hright : Right s) (h : step s l = some s') :
    Right s' ↔ Undisturbed s l := by
  by_cases hwrite : l = .write
  · subst hwrite
    exact right_write hinv hright h
  · have hundisturbed : Undisturbed s l := fun hl => absurd hl hwrite
    refine iff_of_true ?_ hundisturbed
    by_cases hreset : ∃ thread, l = .reset thread
    · obtain ⟨thread, rfl⟩ := hreset
      exact right_reset hright h
    · obtain ⟨hcounts, hsince⟩ := counts_of_step h hwrite fun thread hl => hreset ⟨thread, hl⟩
      intro uid n hlookup
      rw [hsince]
      exact hright uid n (hcounts ▸ hlookup)

theorem right_initial : Right Host.initial := fun _ _ h => by cases h

/-- **The budget of a launch.**  Throughout a run the count of every uid is the number of starts
    handled since its latest launch, exactly if at no writing of a count another has taken the
    place of the one that was read: a launch between the two loses its reset. -/
theorem budget_kept_iff (ls : List Label) :
    (∀ s l s', Takes step Host.initial ls s l s' → Right s') ↔
      ∀ s l s', Takes step Host.initial ls s l s' → Undisturbed s l := by
  have hstep : ∀ s l s', Takes step Host.initial ls s l s' → Inv s ∧ Right s →
      (Inv s' ∧ Right s' ↔ Undisturbed s l) := by
    rintro s l s' ht ⟨hinv, hright⟩
    rw [and_iff_right (inv_step hinv ht.one)]
    exact right_step hinv hright ht.one
  have hiff := forall_takes_iff ⟨inv_initial, right_initial⟩ hstep
  rw [← hiff]
  refine ⟨fun h s l s' ht => ⟨?_, h s l s' ht⟩, fun h s l s' ht => (h s l s' ht).2⟩
  have hs : Inv s := ht.before inv_initial fun a k b hab ha => inv_step ha hab.one
  exact inv_step hs ht.one

/-- The start decides by the number of starts handled since the latest launch. -/
theorem attached_of_right {uid : Int} {record : PluginRecord} {count : Nat} (hright : Right s)
    (hcounted : s.handler = .counted uid record count)
    (hundisturbed : Undisturbed s .write) (maxLaunchCount : Nat) :
    attached maxLaunchCount s = if s.since uid < maxLaunchCount then some record else none := by
  have hcount := hright uid count (hundisturbed rfl uid record count hcounted)
  simp only [attached, hcounted, hcount]

end Counts

/-- The first launch of an app id, between its assignments. -/
def filed : Host :=
  { Host.initial with
    processLaunchCallback := AList.insert 10050 (Launches.plugin "B") ∅
    launching := Function.update (fun _ => none) 0 (some 10050) }

theorem count_missing_filed : ∃ thread, filed.launching thread = some 10050 := by
  have hrun : run step .initial [.file 0 10050 (Launches.plugin "B")] = some filed := rfl
  exact count_missing hrun (AList.lookup_insert _) rfl

end Albatross.LaunchRaces
