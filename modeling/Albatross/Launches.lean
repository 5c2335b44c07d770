/-
  Albatross/Launches.lean
  =======================
  **Launching packages with a plugin** (`device.py`: `AlbatrossDevice.launch`,
  `on_launch_process`).

  `launch` registers a package with the device's system server and files the plugin
  under the app id it gets back, which is the package's uid; `on_launch_process`
  answers the broadcast of a starting process by looking the plugin up under the
  process's uid.  Both sides are here: the registry decides which starts are
  broadcast, and an answer of -1 takes the package out of it.

  The trace lists the launches and the broadcasts.  A `tally` reads from it the
  record of the latest launch of a kind and the broadcasts of that kind since; the
  device's two tables hold the tally of each uid (`holds_history`), not that of
  each package.

  The packages launched are installed, the RPC calls succeed, and `attach` returns.
-/
import Albatross.Registry

namespace Albatross.Launches

open Assoc Registry

/-- `(plugin_dex, plugin_lib, plugin_class, plugin_params, plugin_flags)`. -/
structure PluginRecord where
  pluginDex : String
  pluginLib : Option String
  pluginClass : String
  pluginParams : Option String
  pluginFlags : Int
deriving DecidableEq

/-- `process_launch_callback` and `app_launch_count`; every app id with a record has a
    count. -/
structure Device where
  processLaunchCallback : Dict Int PluginRecord
  appLaunchCount : Dict Int Nat
  counted : ∀ uid, (processLaunchCallback.lookup uid).isSome = true →
    (appLaunchCount.lookup uid).isSome = true

def Device.initial : Device := ⟨∅, ∅, fun uid h => by simp at h⟩

theorem isSome_insert {ν : Type} {d : Dict Int ν} {k u : Int} {v : ν}
    (h : (d.lookup u).isSome = true) : ((d.insert k v).lookup u).isSome = true := by
  by_cases hu : u = k
  · rw [hu, AList.lookup_insert]; rfl
  · rw [AList.lookup_insert_ne hu]; exact h

/-- `launch_callback[app_id] = record; self.app_launch_count[app_id] = 0`. -/
def Device.file (d : Device) (appId : Int) (record : PluginRecord) : Device where
  processLaunchCallback := d.processLaunchCallback.insert appId record
  appLaunchCount := d.appLaunchCount.insert appId 0
  counted := by
    intro uid h
    by_cases hu : uid = appId
    · rw [hu, AList.lookup_insert]; rfl
    · rw [AList.lookup_insert_ne hu] at h ⊢
      exact d.counted uid h

/-- `self.app_launch_count[uid] = count + 1`. -/
def Device.count (d : Device) (uid : Int) (count : Nat) : Device where
  processLaunchCallback := d.processLaunchCallback
  appLaunchCount := d.appLaunchCount.insert uid (count + 1)
  counted := fun u h => isSome_insert (d.counted u h)

/-- `launch_callback.clear()`. -/
def Device.clearCallbacks (d : Device) : Device := ⟨∅, d.appLaunchCount, fun uid h => by simp at h⟩

/-- What `on_launch_process` answers and the record it attaches. -/
def onLaunchProcess (maxLaunchCount : Nat) (uid : Int) (d : Device) :
    Int × Option PluginRecord × Device :=
  match h : d.processLaunchCallback.lookup uid with
  | none => (1, none, d)
  | some injectRecord =>
      let count := (d.appLaunchCount.lookup uid).get (d.counted uid (by rw [h]; rfl))
      if count < maxLaunchCount then (1, some injectRecord, d.count uid count)
      else (-1, none, d.count uid count)

/-! ### The device and the system server together -/

inductive Notice where
  | launched (pkg : JavaString) (appId : Int) (record : PluginRecord)
  | reported (uid : Int) (pkg : JavaString) (attached : Option PluginRecord)
deriving DecidableEq

structure System where
  agent : Agent
  device : Device
  trace : List Notice

def System.initial : System := ⟨.initial, .initial, []⟩

/-- `launch(target_package, plugin)`. -/
def launch (clearHistoryLaunch : Bool) (uidOf : JavaString → Option Int) (pkg : JavaString)
    (record : PluginRecord) (s : System) : System :=
  let device := if clearHistoryLaunch then s.device.clearCallbacks else s.device
  let (appId, agent) := setInterceptApp uidOf (some pkg) clearHistoryLaunch s.agent
  ⟨agent, device.file appId record, s.trace ++ [.launched pkg appId record]⟩

/-- A process of a package starts under a uid: the system server checks it, the device
    answers the broadcast if there is one, and the system server takes the answer. -/
def processStart (maxLaunchCount : Nat) (pid uid : Int) (pkg : JavaString) (processName : String)
    (s : System) : System :=
  match interceptCheck s.agent 1 pid uid ⟨processName, some pkg, none, none⟩ with
  | none => s
  | some l =>
      let (ret, attached, device) := onLaunchProcess maxLaunchCount uid s.device
      ⟨notifyProcessLaunch ret l s.agent, device, s.trace ++ [.reported uid pkg attached]⟩

inductive Event where
  | launch (pkg : JavaString) (record : PluginRecord)
  | start (pid uid : Int) (pkg : JavaString) (processName : String)

/-- One event, with `clear_history_launch` off. -/
def System.step (uidOf : JavaString → Option Int) (maxLaunchCount : Nat) (s : System) :
    Event → System
  | .launch pkg record => Launches.launch false uidOf pkg record s
  | .start pid uid pkg processName => processStart maxLaunchCount pid uid pkg processName s

def history (uidOf : JavaString → Option Int) (maxLaunchCount : Nat) (events : List Event) :
    System :=
  events.foldl (System.step uidOf maxLaunchCount) System.initial

/-! ### Tallies -/

/-- The record of the latest of the launches in question, and the broadcasts in question
    since. -/
def tally (mine : Notice → Bool) (trace : List Notice) : Option PluginRecord × Nat :=
  trace.foldl (fun t notice => match notice with
    | .launched _ _ record => if mine notice then (some record, 0) else t
    | .reported _ _ _ => if mine notice then (t.1, t.2 + 1) else t) (none, 0)

def byPackage (p : JavaString) : Notice → Bool
  | .launched pkg _ _ => pkg = p
  | .reported _ pkg _ => pkg = p

def byUid (u : Int) : Notice → Bool
  | .launched _ appId _ => appId = u
  | .reported uid _ _ => uid = u

section Tally

variable {mine mine' : Notice → Bool} {trace : List Notice}

theorem tally_launched (pkg : JavaString) (appId : Int) (record : PluginRecord) :
    tally mine (trace ++ [.launched pkg appId record]) =
      if mine (.launched pkg appId record) then (some record, 0) else tally mine trace := by
  rw [tally, List.foldl_append]
  rfl

theorem tally_reported (uid : Int) (pkg : JavaString) (attached : Option PluginRecord) :
    tally mine (trace ++ [.reported uid pkg attached]) =
      if mine (.reported uid pkg attached) then ((tally mine trace).1, (tally mine trace).2 + 1)
      else tally mine trace := by
  rw [tally, List.foldl_append]
  rfl

theorem tally_congr (h : ∀ n ∈ trace, mine n = mine' n) : tally mine trace = tally mine' trace := by
  induction trace using List.reverseRecOn with
  | nil => rfl
  | append_singleton trace n ih =>
    have htail := ih fun x hx => h x (List.mem_append_left [n] hx)
    have hlast : mine n = mine' n := h n (List.mem_append_right trace List.mem_cons_self)
    cases n with
    | launched pkg appId record => rw [tally_launched, tally_launched, hlast, htail]
    | reported uid pkg attached => rw [tally_reported, tally_reported, hlast, htail]

end Tally

/-! ### What the device's tables hold -/

/-- Each uid has the record of its tally, and the count where there is a record. -/
def Holds (d : Device) (trace : List Notice) : Prop :=
  ∀ u, d.processLaunchCallback.lookup u = (tally (byUid u) trace).1 ∧
    (d.processLaunchCallback.lookup u ≠ none →
      d.appLaunchCount.lookup u = some (tally (byUid u) trace).2)

section Holds

variable {d : Device} {trace : List Notice} {uid : Int}

theorem holds_initial : Holds Device.initial [] := by
  intro u
  exact ⟨rfl, fun h => absurd rfl h⟩

theorem Holds.file (h : Holds d trace) (pkg : JavaString) (appId : Int) (record : PluginRecord) :
    Holds (d.file appId record) (trace ++ [.launched pkg appId record]) := by
  intro u
  rw [tally_launched, Device.file]
  by_cases hu : u = appId
  · subst hu
    simp [byUid, AList.lookup_insert]
  · simp only [byUid, Ne.symm hu, decide_false, Bool.false_eq_true, if_false,
      AList.lookup_insert_ne hu]
    exact h u

/-- **What `on_launch_process` does, by the tally of the uid.** -/
theorem Holds.onLaunchProcess (h : Holds d trace) (maxLaunchCount : Nat) (uid : Int) :
    Launches.onLaunchProcess maxLaunchCount uid d = match tally (byUid uid) trace with
      | (none, _) => (1, none, d)
      | (some record, n) =>
          if n < maxLaunchCount then (1, some record, d.count uid n)
          else (-1, none, d.count uid n) := by
  obtain ⟨hrecord, hcount⟩ := h uid
  unfold Launches.onLaunchProcess
  cases ht : tally (byUid uid) trace with
  | mk found n =>
    rw [ht] at hrecord hcount
    split
    · next hnone =>
      rw [hnone] at hrecord
      subst hrecord
      rfl
    · next record hsome =>
      have hn : d.appLaunchCount.lookup uid = some n :=
        hcount (by rw [hsome]; exact Option.some_ne_none record)
      rw [hsome] at hrecord
      subst hrecord
      simp only [hn, Option.get_some]

theorem Holds.count (h : Holds d trace) {record : PluginRecord} {n : Nat}
    (ht : tally (byUid uid) trace = (some record, n)) (pkg : JavaString)
    (attached : Option PluginRecord) :
    Holds (d.count uid n) (trace ++ [.reported uid pkg attached]) := by
  intro u
  rw [tally_reported, Device.count]
  by_cases hu : u = uid
  · subst hu
    simp only [byUid, decide_true, if_true, AList.lookup_insert, ht]
    exact ⟨by rw [(h u).1, ht], fun _ => trivial⟩
  · simp only [byUid, Ne.symm hu, decide_false, Bool.false_eq_true, if_false,
      AList.lookup_insert_ne hu]
    exact h u

/-- Without a record a broadcast leaves the tables and the tally's record as they are. -/
theorem Holds.ignored (h : Holds d trace) {n : Nat} (ht : tally (byUid uid) trace = (none, n))
    (pkg : JavaString) (attached : Option PluginRecord) :
    Holds d (trace ++ [.reported uid pkg attached]) := by
  intro u
  rw [tally_reported]
  by_cases hu : u = uid
  · subst hu
    have hnone : d.processLaunchCallback.lookup u = none := by rw [(h u).1, ht]
    simp only [byUid, decide_true, if_true, ht]
    exact ⟨hnone, fun hne => absurd hnone hne⟩
  · simp only [byUid, Ne.symm hu, decide_false, Bool.false_eq_true, if_false]
    exact h u

theorem Holds.reported (h : Holds d trace) (maxLaunchCount : Nat) (uid : Int) (pkg : JavaString)
    (attached : Option PluginRecord) :
    Holds (Launches.onLaunchProcess maxLaunchCount uid d).2.2
      (trace ++ [.reported uid pkg attached]) := by
  rw [h.onLaunchProcess]
  cases ht : tally (byUid uid) trace with
  | mk record n =>
    cases record with
    | none => exact h.ignored ht pkg attached
    | some record =>
      dsimp only
      split
      · exact h.count ht pkg attached
      · exact h.count ht pkg attached

end Holds

section Step

variable (uidOf : JavaString → Option Int) (maxLaunchCount : Nat)

theorem holds_step {s : System} (h : Holds s.device s.trace) (e : Event) :
    Holds (s.step uidOf maxLaunchCount e).device (s.step uidOf maxLaunchCount e).trace := by
  cases e with
  | launch pkg record => exact h.file pkg _ record
  | start pid uid pkg processName =>
    unfold System.step processStart
    dsimp only
    split
    · exact h
    · exact h.reported maxLaunchCount uid pkg _

/-- **In every history the tables hold the tally of each uid.** -/
theorem holds_history (events : List Event) :
    Holds (history uidOf maxLaunchCount events).device
      (history uidOf maxLaunchCount events).trace := by
  induction events using List.reverseRecOn with
  | nil => exact holds_initial
  | append_singleton events e ih =>
    rw [history, List.foldl_append]
    exact holds_step uidOf maxLaunchCount ih e

end Step

/-! ### Whose plugin a process gets -/

/-- `on_launch_process` for a process of `p` attaches the record of `p`'s most recent
    launch, as long as `p`'s own count has not reached the maximum. -/
def OwnPlugin (maxLaunchCount : Nat) (s : System) (uid : Int) (p : JavaString) : Prop :=
  ∀ record n, tally (byPackage p) s.trace = (some record, n) → n < maxLaunchCount →
    (onLaunchProcess maxLaunchCount uid s.device).2.1 = some record

/-- The latest launch filed under the uid gave the record of `p`'s latest, and fewer than
    the maximum were broadcast for the uid since, or `p`'s own count has reached it. -/
def UidAgrees (maxLaunchCount : Nat) (trace : List Notice) (uid : Int) (p : JavaString) : Prop :=
  ∀ record n, tally (byPackage p) trace = (some record, n) → n < maxLaunchCount →
    (tally (byUid uid) trace).1 = some record ∧ (tally (byUid uid) trace).2 < maxLaunchCount

theorem attached_iff {d : Device} {trace : List Notice} (h : Holds d trace) (maxLaunchCount : Nat)
    (uid : Int) (record : PluginRecord) :
    (onLaunchProcess maxLaunchCount uid d).2.1 = some record ↔
      (tally (byUid uid) trace).1 = some record ∧ (tally (byUid uid) trace).2 < maxLaunchCount := by
  rw [h.onLaunchProcess]
  cases ht : tally (byUid uid) trace with
  | mk found n =>
    cases found with
    | none => simp
    | some found =>
      by_cases hn : n < maxLaunchCount <;> simp [hn]

/-- **A process gets its own package's plugin exactly when the uid's tally agrees with the
    package's**, in every history of launches and process starts. -/
theorem own_plugin_iff (uidOf : JavaString → Option Int) (maxLaunchCount : Nat)
    (events : List Event) (uid : Int) (p : JavaString) :
    OwnPlugin maxLaunchCount (history uidOf maxLaunchCount events) uid p ↔
      UidAgrees maxLaunchCount (history uidOf maxLaunchCount events).trace uid p := by
  have h := holds_history uidOf maxLaunchCount events
  simp only [OwnPlugin, UidAgrees, attached_iff h]

/-- A package that has its uid to itself gets its own plugin. -/
theorem uidAgrees_of_alone {maxLaunchCount : Nat} {trace : List Notice} {uid : Int} {p : JavaString}
    (h : ∀ n ∈ trace, byUid uid n = byPackage p n) : UidAgrees maxLaunchCount trace uid p := by
  intro record n ht hn
  rw [tally_congr h, ht]
  exact ⟨rfl, hn⟩

def plugin (pluginClass : String) : PluginRecord := ⟨"/p.dex", none, pluginClass, none, 0⟩

/-- Two packages of one uid are launched with different plugins. -/
def sharedUid : List Event :=
  [.launch ['a', '.', 'b'] (plugin "B"), .launch ['a', '.', 'c'] (plugin "C")]

/-- A process of the first package is then broadcast, and gets the plugin of the second. -/
theorem other_plugin_attached :
    ¬ OwnPlugin 20 (history (fun _ => some 10050) 20 sharedUid) 10050 ['a', '.', 'b'] ∧
      (history (fun _ => some 10050) 20
        (sharedUid ++ [.start 7 10050 ['a', '.', 'b'] "a.b"])).trace =
        (history (fun _ => some 10050) 20 sharedUid).trace ++
          [.reported 10050 ['a', '.', 'b'] (some (plugin "C"))] := by
  constructor
  · intro h
    have hattached := h (plugin "B") 0 (by decide) (by decide)
    revert hattached
    decide
  · decide

end Albatross.Launches
