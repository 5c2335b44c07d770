/-
  Albatross/LaunchBudgets.lean
  ============================
  **How long a launched package is intercepted** (`device.py`: `launch`,
  `on_launch_process`; `SystemServerInjectAgent.java`: `setInterceptApp`,
  `notifyProcessLaunch`; `ActivityManagerServiceH.java`: `interceptCheck`).

  The host counts the starts of a uid since its latest launch, the system server knows only
  whether the uid is intercepted, and the two agree by the answer -1.  In every history of
  the two together a start under a uid above `SYSTEM_UID` is reported exactly if the uid was
  launched and at most `max_launch_count` starts have been reported since
  (`start_reported_iff`), unless everything is intercepted.
-/
import Albatross.Launches

namespace Albatross.Launches

open Assoc Registry

section Lookup

variable {uidOf : JavaString → Option Int} {pkg : JavaString} {clear : Bool} {s : Agent} {uid : Int}

theorem isSome_setInterceptApp (huid : uid > SYSTEM_UID) :
    ((setInterceptApp uidOf (some pkg) clear s).2.interceptApps.lookup uid).isSome ↔
      (setInterceptApp uidOf (some pkg) clear s).1 = uid ∨
        clear = false ∧ (s.interceptApps.lookup uid).isSome := by
  have hzero : (0 : Int) ≠ uid := fun h => absurd huid (by rw [← h]; decide)
  have hkept : ((if clear = true then ∅ else s.interceptApps).lookup uid).isSome ↔
      clear = false ∧ (s.interceptApps.lookup uid).isSome := by
    cases clear <;> simp
  unfold setInterceptApp
  dsimp only
  split
  · rw [hkept, or_iff_right hzero]
  · split
    · rw [hkept, or_iff_right hzero]
    · next appId _ =>
      by_cases hle : appId ≤ SYSTEM_UID
      · rw [if_pos hle]
        have hne : uid ≠ appId := fun h => absurd (h ▸ huid) (Int.not_lt.mpr hle)
        rw [lookup_addItem_ne hne, hkept, or_iff_right (Ne.symm hne)]
      · rw [if_neg hle]
        by_cases heq : uid = appId
        · rw [heq, AList.lookup_insert]
          simp
        · rw [AList.lookup_insert_ne heq, hkept, or_iff_right (Ne.symm heq)]

theorem interceptAll_setInterceptApp (h : s.interceptAll = true) :
    (setInterceptApp uidOf (some pkg) clear s).2.interceptAll = true := by
  unfold setInterceptApp
  dsimp only
  split
  · rfl
  · split
    · exact h
    · split <;> exact h

theorem isSome_notifyProcessLaunch (huid : uid > SYSTEM_UID) (ret : Int) (l : Launch) :
    ((notifyProcessLaunch ret l s).interceptApps.lookup uid).isSome ↔
      (s.interceptApps.lookup uid).isSome ∧ ¬ (ret = -1 ∧ l.uid = uid) := by
  unfold notifyProcessLaunch
  by_cases hret : ret = -1
  · rw [if_pos hret]
    by_cases hl : l.uid = uid
    · rw [hl, removeIntercept_system huid]
      simp [hret]
    · rw [lookup_removeIntercept_ne (Ne.symm hl)]
      simp [hl]
  · rw [if_neg hret]
    simp [hret]

theorem interceptAll_notifyProcessLaunch (ret : Int) (l : Launch) :
    (notifyProcessLaunch ret l s).interceptAll = s.interceptAll := by
  unfold notifyProcessLaunch
  split
  · exact interceptAll_removeIntercept s
  · rfl

theorem interceptCheck_of_gt (huid : uid > SYSTEM_UID) {n : Nat} (hn : 0 < n) (pid : Int)
    (r : ProcessRecord) : interceptCheck s n pid uid r =
      if (shouldInterceptUid s uid).isSome then some (launchOf pid uid r) else none := by
  have hle : ¬ uid ≤ SYSTEM_UID := Int.not_le.mpr huid
  unfold interceptCheck
  cases shouldInterceptUid s uid with
  | none => rfl
  | some condition => cases r.info <;> simp [hn, hle]

theorem interceptCheck_eq_some {n : Nat} {pid : Int} {r : ProcessRecord} {l : Launch}
    (h : interceptCheck s n pid uid r = some l) :
    l = launchOf pid uid r ∧ (shouldInterceptUid s uid).isSome := by
  unfold interceptCheck at h
  cases hcondition : shouldInterceptUid s uid with
  | none => simp [hcondition] at h
  | some condition =>
    refine ⟨?_, rfl⟩
    simp only [hcondition] at h
    split at h
    · split at h
      · exact (Option.some.inj h).symm
      · split at h
        · cases h
        · exact (Option.some.inj h).symm
    · cases h

theorem isSome_shouldInterceptUid :
    (shouldInterceptUid s uid).isSome ↔
      s.interceptAll = true ∨ (s.interceptApps.lookup uid).isSome := by
  unfold shouldInterceptUid
  split <;> simp_all

end Lookup

/-! ### Both sides together -/

/-- The uid was launched, and at most the maximum of its starts have been reported since. -/
def Budgeted (maxLaunchCount : Nat) (trace : List Notice) (uid : Int) : Prop :=
  ∃ record n, tally (byUid uid) trace = (some record, n) ∧ n ≤ maxLaunchCount

/-- A uid is intercepted as long as it has a budget. -/
structure Kept (maxLaunchCount : Nat) (agent : Agent) (trace : List Notice) (uid : Int) : Prop where
  intercepted : (agent.interceptApps.lookup uid).isSome ↔ Budgeted maxLaunchCount trace uid
  bounded : agent.interceptAll = false → (tally (byUid uid) trace).2 ≤ maxLaunchCount + 1

section Kept

variable {uidOf : JavaString → Option Int} {maxLaunchCount : Nat} {agent : Agent}
  {trace : List Notice} {uid : Int}

theorem Kept.launched (huid : uid > SYSTEM_UID) (h : Kept maxLaunchCount agent trace uid)
    (pkg : JavaString) (record : PluginRecord) :
    Kept maxLaunchCount (setInterceptApp uidOf (some pkg) false agent).2
      (trace ++ [.launched pkg (setInterceptApp uidOf (some pkg) false agent).1 record]) uid := by
  have hintercepted :
      ((setInterceptApp uidOf (some pkg) false agent).2.interceptApps.lookup uid).isSome ↔
        (setInterceptApp uidOf (some pkg) false agent).1 = uid ∨
          false = false ∧ (agent.interceptApps.lookup uid).isSome :=
    isSome_setInterceptApp huid
  have hall : (setInterceptApp uidOf (some pkg) false agent).2.interceptAll = false →
      agent.interceptAll = false := by
    intro hfalse
    by_contra htrue
    rw [interceptAll_setInterceptApp (by simpa using htrue)] at hfalse
    cases hfalse
  by_cases happ : (setInterceptApp uidOf (some pkg) false agent).1 = uid
  · have htally : tally (byUid uid) (trace ++
        [.launched pkg (setInterceptApp uidOf (some pkg) false agent).1 record]) =
          (some record, 0) := by
      rw [tally_launched, if_pos (by simpa [byUid] using happ)]
    refine ⟨iff_of_true (hintercepted.mpr (Or.inl happ)) ?_, fun _ => ?_⟩
    · exact ⟨record, 0, htally, Nat.zero_le _⟩
    · rw [htally]
      exact Nat.zero_le _
  · have htally : tally (byUid uid) (trace ++
        [.launched pkg (setInterceptApp uidOf (some pkg) false agent).1 record]) =
          tally (byUid uid) trace := by
      rw [tally_launched, if_neg (by simpa [byUid] using happ)]
    refine ⟨?_, fun hfalse => ?_⟩
    · rw [Budgeted, htally, ← Budgeted, hintercepted]
      simpa [happ] using h.intercepted
    · rw [htally]
      exact h.bounded (hall hfalse)

theorem Kept.other (huid : uid > SYSTEM_UID) (h : Kept maxLaunchCount agent trace uid)
    {l : Launch} (hne : l.uid ≠ uid) (ret : Int) (pkg : JavaString)
    (attached : Option PluginRecord) :
    Kept maxLaunchCount (notifyProcessLaunch ret l agent)
      (trace ++ [.reported l.uid pkg attached]) uid := by
  have htally : tally (byUid uid) (trace ++ [.reported l.uid pkg attached]) =
      tally (byUid uid) trace := by
    rw [tally_reported, if_neg (by simpa [byUid] using hne)]
  refine ⟨?_, fun hfalse => ?_⟩
  · rw [isSome_notifyProcessLaunch huid, Budgeted, htally, ← Budgeted]
    simpa [hne] using h.intercepted
  · rw [htally]
    exact h.bounded ((interceptAll_notifyProcessLaunch ret l).symm.trans hfalse)

theorem Kept.own {device : Device} (hholds : Holds device trace) {l : Launch}
    (huid : l.uid > SYSTEM_UID) (h : Kept maxLaunchCount agent trace l.uid)
    (hintercepted : (shouldInterceptUid agent l.uid).isSome) (pkg : JavaString)
    (attached : Option PluginRecord) :
    Kept maxLaunchCount
      (notifyProcessLaunch (onLaunchProcess maxLaunchCount l.uid device).1 l agent)
      (trace ++ [.reported l.uid pkg attached]) l.uid := by
  have htally : tally (byUid l.uid) (trace ++ [.reported l.uid pkg attached]) =
      ((tally (byUid l.uid) trace).1, (tally (byUid l.uid) trace).2 + 1) := by
    rw [tally_reported, if_pos (by simp [byUid])]
  constructor
  · rw [isSome_notifyProcessLaunch huid, h.intercepted, Budgeted, Budgeted, htally,
      hholds.onLaunchProcess]
    cases ht : tally (byUid l.uid) trace with
    | mk found n =>
      cases found with
      | none => simp
      | some record =>
        dsimp only
        split
        · next hlt => simp [Nat.le_of_lt hlt, Nat.succ_le_of_lt hlt]
        · next hge =>
          have hover : ¬ n + 1 ≤ maxLaunchCount := by omega
          simp [hover]
  · intro hfalse
    rw [interceptAll_notifyProcessLaunch] at hfalse
    have hentry : (agent.interceptApps.lookup l.uid).isSome :=
      (isSome_shouldInterceptUid.mp hintercepted).resolve_left (by simp [hfalse])
    obtain ⟨record, n, ht, hle⟩ := h.intercepted.mp hentry
    rw [htally, ht]
    exact Nat.succ_le_succ hle

theorem kept_step {s : System} (hholds : Holds s.device s.trace) (huid : uid > SYSTEM_UID)
    (h : Kept maxLaunchCount s.agent s.trace uid) (e : Event) :
    Kept maxLaunchCount (s.step uidOf maxLaunchCount e).agent
      (s.step uidOf maxLaunchCount e).trace uid := by
  cases e with
  | launch pkg record => exact h.launched huid pkg record
  | start pid uid' pkg processName =>
    unfold System.step processStart
    dsimp only
    split
    · exact h
    · next l hl =>
      obtain ⟨rfl, hintercepted⟩ := interceptCheck_eq_some hl
      by_cases hne : uid' = uid
      · subst hne
        exact Kept.own (l := launchOf pid uid' _) hholds huid h hintercepted pkg _
      · exact h.other (l := launchOf pid uid' _) huid hne _ pkg _

theorem kept_history (huid : uid > SYSTEM_UID) (events : List Event) :
    Kept maxLaunchCount (history uidOf maxLaunchCount events).agent
      (history uidOf maxLaunchCount events).trace uid := by
  induction events using List.reverseRecOn with
  | nil => exact ⟨by simp [history, System.initial, Agent.initial, Budgeted, tally],
      fun _ => Nat.zero_le _⟩
  | append_singleton events e ih =>
    rw [history, List.foldl_append]
    exact kept_step (holds_history uidOf maxLaunchCount events) huid ih e

/-- **How long a launched package is intercepted.**  In every history a start under a uid above
    `SYSTEM_UID` is reported exactly if everything is, or if the uid was launched and at most
    `max_launch_count` of its starts have been reported since; so no launch leads to more than
    one report beyond the maximum. -/
theorem start_reported_iff (huid : uid > SYSTEM_UID) (events : List Event) (pid : Int)
    (r : ProcessRecord) :
    ((interceptCheck (history uidOf maxLaunchCount events).agent 1 pid uid r).isSome ↔
        (history uidOf maxLaunchCount events).agent.interceptAll = true ∨
          Budgeted maxLaunchCount (history uidOf maxLaunchCount events).trace uid) ∧
      ((history uidOf maxLaunchCount events).agent.interceptAll = false →
        (tally (byUid uid) (history uidOf maxLaunchCount events).trace).2 ≤
          maxLaunchCount + 1) := by
  have hkept : Kept maxLaunchCount (history uidOf maxLaunchCount events).agent
      (history uidOf maxLaunchCount events).trace uid := kept_history huid events
  refine ⟨?_, hkept.bounded⟩
  rw [interceptCheck_of_gt huid Nat.one_pos, ← hkept.intercepted, ← isSome_shouldInterceptUid]
  split <;> simp_all

end Kept

/-- A package is launched, and two of its processes start. -/
def twoStarts : List Event :=
  [.launch ['a', '.', 'b'] (plugin "B"), .start 7 10050 ['a', '.', 'b'] "a.b",
    .start 8 10050 ['a', '.', 'b'] "a.b"]

def thirdStart : ProcessRecord := ⟨"a.b", some ['a', '.', 'b'], none, none⟩

/-- With a budget of one, the second is reported and a third is not. -/
theorem start_reported_iff_third :
    (((interceptCheck (history (fun _ => some 10050) 1 twoStarts).agent 1 9 10050
        thirdStart).isSome ↔
      (history (fun _ => some 10050) 1 twoStarts).agent.interceptAll = true ∨
        Budgeted 1 (history (fun _ => some 10050) 1 twoStarts).trace 10050) ∧
      ((history (fun _ => some 10050) 1 twoStarts).agent.interceptAll = false →
        (tally (byUid 10050) (history (fun _ => some 10050) 1 twoStarts).trace).2 ≤ 1 + 1)) ∧
    (tally (byUid 10050) (history (fun _ => some 10050) 1 twoStarts).trace).2 = 2 ∧
      (interceptCheck (history (fun _ => some 10050) 1 twoStarts).agent 1 9 10050
        thirdStart).isSome = false :=
  ⟨start_reported_iff (by decide) twoStarts 9 thirdStart, by decide, by decide⟩

end Albatross.Launches
