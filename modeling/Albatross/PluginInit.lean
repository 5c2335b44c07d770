/-
  Albatross/PluginInit.lean
  =========================
  **Starting the plugins** (`AppInjectAgent.init`).

  `init` goes through the plugin table in the order of the map.  It returns at the first
  plugin whose `load()` returns false, before the plugins after it and before it hooks
  `Instrumentation`.  So what a plugin gets is its own affair, and the hook is
  installed, exactly when every plugin starts (`isolated_iff`).
-/
import Albatross.PluginKeys

namespace Albatross.PluginInit

open Assoc Runs Plugins
open Registry (JavaString)

/-- What the plugin code that `init` runs does, and whether `hookClass` returns. -/
structure Replies where
  library : Nat → Bool
  load : Nat → Reply
  beforeMakeApplication : Nat → Reply
  hookClass : Bool

/-- How `init` ends: with the hook installed, at `return`, or by an exception. -/
inductive Ended where
  | hooked
  | returned
  | threw
deriving DecidableEq

variable (cls : Nat → Lifecycle) (replies : Replies)

/-- The loop of `init` over the keys still to come, and the statement after it. -/
def initLoop : List JavaString → Manager → Manager × Ended
  | [], s => (s, if replies.hookClass then .hooked else .threw)
  | key :: keys, s =>
      match s.pluginCache.lookup key with
      | none => initLoop keys s
      | some p =>
          match s.load cls (replies.library p) (replies.load p) p with
          | (s, none) => (s, .threw)
          | (s, some false) => (s, .returned)
          | (s, some true) =>
              match s.call .beforeMakeApplication ((cls p).callback .beforeMakeApplication)
                  (replies.beforeMakeApplication p) p with
              | (s, none) => (s, .threw)
              | (s, some _) => initLoop keys s

/-- `AppInjectAgent.init`; `order` lists the keys of the table as the map iterates over them. -/
def AppInjectAgent.init (order : List JavaString) (s : Manager) : Manager × Ended :=
  initLoop cls replies order s

/-! ### One plugin -/

/-- What `load()` of plugin `p` does. -/
def loading (s : Manager) (p : Nat) : AlbatrossPlugin × Reply :=
  (cls p).load (replies.library p) (replies.load p) (s.plugins p).object

/-- `load()` of plugin `p` returns true. -/
def WouldLoad (s : Manager) (p : Nat) : Prop := (loading cls replies s p).2 = some true

instance (s : Manager) (p : Nat) : Decidable (WouldLoad cls replies s p) :=
  inferInstanceAs (Decidable (_ = _))

/-- `load()` of plugin `p` returns true, and its `beforeMakeApplication` returns. -/
def Starts (s : Manager) (p : Nat) : Prop :=
  WouldLoad cls replies s p ∧
    ((cls p).callback .beforeMakeApplication (replies.beforeMakeApplication p)
      (loading cls replies s p).1).2 ≠ none

/-- The calls that plugin `p` gets when there is no other, the latest first. -/
def ownCalls (s : Manager) (p : Nat) : List (Nat × Call) :=
  if WouldLoad cls replies s p then [(p, .beforeMakeApplication), (p, .load)] else [(p, .load)]

/-- Every plugin gets its own calls, and the hook is installed. -/
structure Isolated (order : List JavaString) (s : Manager) : Prop where
  calls : ∃ recent, (AppInjectAgent.init cls replies order s).1.calls = recent ++ s.calls ∧
    ∀ k p, s.pluginCache.lookup k = some p →
      recent.filter (fun e => e.1 = p) = ownCalls cls replies s p
  hooked : (AppInjectAgent.init cls replies order s).2 = .hooked

variable {cls replies} {s : Manager} {p q : Nat}

/-! ### The loop -/

/-- The state after plugin `p` has been started. -/
def started (cls : Nat → Lifecycle) (replies : Replies) (s : Manager) (p : Nat) : Manager :=
  ((s.load cls (replies.library p) (replies.load p) p).1.call .beforeMakeApplication
    ((cls p).callback .beforeMakeApplication) (replies.beforeMakeApplication p) p).1

theorem started_quiet : Quiet s (started cls replies s p) :=
  (load_quiet s cls _ _ p).trans (call_quiet _ _ _ _ p)

theorem started_plugins_of_ne (h : q ≠ p) : (started cls replies s p).plugins q = s.plugins q :=
  (call_plugins_of_ne _ h).trans ((Function.update_of_ne h _ _).trans (call_plugins_of_ne s h))

theorem started_injective (hinj : s.Injective) : (started cls replies s p).Injective := hinj

theorem started_calls : (started cls replies s p).calls =
    [(p, .beforeMakeApplication), (p, .load)] ++ s.calls := rfl

theorem initLoop_skip {key : JavaString} {keys : List JavaString}
    (hp : s.pluginCache.lookup key = none) :
    initLoop cls replies (key :: keys) s = initLoop cls replies keys s := by
  rw [initLoop, hp]

/-- One turn of the loop goes on exactly when the plugin starts. -/
theorem initLoop_cons {key : JavaString} {keys : List JavaString}
    (hp : s.pluginCache.lookup key = some p) :
    (Starts cls replies s p ∧
      initLoop cls replies (key :: keys) s = initLoop cls replies keys (started cls replies s p)) ∨
    (¬ Starts cls replies s p ∧ (initLoop cls replies (key :: keys) s).2 ≠ .hooked) := by
  have hload : (s.load cls (replies.library p) (replies.load p) p).2 =
      (loading cls replies s p).2 :=
    rfl
  have hobject : ((s.load cls (replies.library p) (replies.load p) p).1.plugins p).object =
      (loading cls replies s p).1 := by
    unfold Manager.load
    dsimp only
    rw [Function.update_self, Manager.call]
    dsimp only
    rw [Function.update_self]
    rfl
  rw [initLoop, hp]
  dsimp only
  split
  · next s₁ hone =>
    rw [hone] at hload
    refine Or.inr ⟨fun h => ?_, by simp⟩
    rw [Starts, WouldLoad, ← hload] at h
    cases h.1
  · next s₁ hone =>
    rw [hone] at hload
    refine Or.inr ⟨fun h => ?_, by simp⟩
    rw [Starts, WouldLoad, ← hload] at h
    cases h.1
  · next s₁ hone =>
    rw [hone] at hload hobject
    have hloads : WouldLoad cls replies s p := hload.symm
    have hcallback : (s₁.call .beforeMakeApplication ((cls p).callback .beforeMakeApplication)
        (replies.beforeMakeApplication p) p).2 =
          ((cls p).callback .beforeMakeApplication (replies.beforeMakeApplication p)
            (loading cls replies s p).1).2 := by
      rw [← hobject]
      rfl
    split
    · next s₂ htwo =>
      rw [htwo] at hcallback
      exact Or.inr ⟨fun h => h.2 hcallback.symm, by simp⟩
    · next s₂ b htwo =>
      rw [htwo] at hcallback
      refine Or.inl ⟨⟨hloads, fun hnone => ?_⟩, ?_⟩
      · rw [← hcallback] at hnone
        cases hnone
      · rw [started, hone]
        dsimp only
        rw [htwo]

/-- Whether a plugin starts does not depend on the plugins started before it. -/
theorem starts_started_iff (h : q ≠ p) :
    Starts cls replies (started cls replies s p) q ↔ Starts cls replies s q := by
  unfold Starts WouldLoad loading
  rw [started_plugins_of_ne h]

/-- **`init` hooks `Instrumentation`** exactly when every plugin starts, and then every plugin has
    got its two calls and no other. -/
theorem initLoop_hooked_iff {keys : List JavaString} (hkeys : keys.Nodup) :
    ∀ {s : Manager}, s.Injective → ((initLoop cls replies keys s).2 = .hooked ↔
      replies.hookClass = true ∧ ∀ k ∈ keys, ∀ p, s.pluginCache.lookup k = some p →
        Starts cls replies s p) := by
  induction keys with
  | nil =>
    intro s _
    cases hhook : replies.hookClass with
    | false => simp [initLoop, hhook]
    | true => simp [initLoop, hhook]
  | cons key keys ih =>
    intro s hinj
    obtain ⟨hfresh, hkeys⟩ := List.nodup_cons.mp hkeys
    rw [List.forall_mem_cons]
    rcases hp : s.pluginCache.lookup key with _ | p
    · rw [initLoop_skip hp, ih hkeys hinj]
      simp
    · rcases @initLoop_cons cls replies s p key keys hp with
        ⟨hstarts, hloop⟩ | ⟨hstarts, hloop⟩
      · have hcache : (started cls replies s p).pluginCache = s.pluginCache :=
          started_quiet.pluginCache
        rw [hloop, ih hkeys (started_injective hinj), hcache]
        refine and_congr_right fun _ => ?_
        -- the later keys have other plugins
        have hlater : ∀ k ∈ keys, ∀ q, s.pluginCache.lookup k = some q →
            (Starts cls replies (started cls replies s p) q ↔ Starts cls replies s q) := by
          intro k hk q hq
          refine starts_started_iff ?_
          rintro rfl
          exact hfresh (hinj k key q hq hp ▸ hk)
        constructor
        · intro h
          refine ⟨fun q hq => ?_, fun k hk q hq => (hlater k hk q hq).mp (h k hk q hq)⟩
          rw [← Option.some.inj hq]
          exact hstarts
        · exact fun h k hk q hq => (hlater k hk q hq).mpr (h.2 k hk q hq)
      · refine iff_of_false hloop fun h => hstarts (h.2.1 p rfl)

theorem initLoop_calls {keys : List JavaString} (hkeys : keys.Nodup) :
    ∀ {s : Manager}, s.Injective → (initLoop cls replies keys s).2 = .hooked →
      ∃ recent, (initLoop cls replies keys s).1.calls = recent ++ s.calls ∧
        (∀ k ∈ keys, ∀ p, s.pluginCache.lookup k = some p →
          recent.filter (fun e => e.1 = p) = [(p, .beforeMakeApplication), (p, .load)]) ∧
        ∀ p, (∀ k ∈ keys, s.pluginCache.lookup k ≠ some p) →
          recent.filter (fun e => e.1 = p) = [] := by
  induction keys with
  | nil =>
    intro s _ _
    refine ⟨[], rfl, fun k hk => ?_, fun _ _ => rfl⟩
    cases hk
  | cons key keys ih =>
    intro s hinj hhooked
    obtain ⟨hfresh, hkeys⟩ := List.nodup_cons.mp hkeys
    rcases hp : s.pluginCache.lookup key with _ | p
    · rw [initLoop_skip hp] at hhooked ⊢
      obtain ⟨recent, hcalls, hown, hnone⟩ := ih hkeys hinj hhooked
      refine ⟨recent, hcalls, fun k hk q hq => ?_, fun q hq => ?_⟩
      · rcases List.mem_cons.mp hk with rfl | hk
        · rw [hp] at hq
          cases hq
        · exact hown k hk q hq
      · exact hnone q fun k hk => hq k (List.mem_cons_of_mem _ hk)
    · rcases @initLoop_cons cls replies s p key keys hp with
        ⟨-, hloop⟩ | ⟨-, hloop⟩
      · have hcache : (started cls replies s p).pluginCache = s.pluginCache :=
          started_quiet.pluginCache
        rw [hloop] at hhooked ⊢
        obtain ⟨recent, hcalls, hown, hnone⟩ := ih hkeys (started_injective hinj) hhooked
        rw [hcache] at hown hnone
        have habsent : ∀ k ∈ keys, s.pluginCache.lookup k ≠ some p := by
          intro k hk h
          exact hfresh (hinj k key p h hp ▸ hk)
        refine ⟨recent ++ [(p, .beforeMakeApplication), (p, .load)], ?_, fun k hk q hq => ?_,
          fun q hq => ?_⟩
        · rw [hcalls, started_calls, List.append_assoc]
        · rw [List.filter_append]
          rcases List.mem_cons.mp hk with rfl | hk
          · rw [hp] at hq
            cases hq
            rw [hnone p habsent]
            simp
          · have hne : p ≠ q := fun heq => habsent k hk (heq ▸ hq)
            rw [hown k hk q hq]
            simp [hne]
        · have hne : p ≠ q := fun heq => hq key List.mem_cons_self (heq ▸ hp)
          rw [List.filter_append, hnone q fun k hk => hq k (List.mem_cons_of_mem _ hk)]
          simp [hne]
      · exact absurd hhooked hloop

/-! ### Isolation -/

theorem isolated_iff_of_injective {order : List JavaString} (hinj : s.Injective)
    (horder : order.Perm s.pluginCache.keys) :
    Isolated cls replies order s ↔ replies.hookClass = true ∧
      ∀ k p, s.pluginCache.lookup k = some p → Starts cls replies s p := by
  have hnodup : order.Nodup := horder.nodup_iff.mpr (AList.keys_nodup _)
  have hmem : ∀ k p, s.pluginCache.lookup k = some p → k ∈ order := fun _ _ hk =>
    horder.mem_iff.mpr (mem_keys_of_lookup hk)
  constructor
  · intro h
    obtain ⟨hhook, hstarts⟩ := (initLoop_hooked_iff hnodup hinj).mp h.hooked
    exact ⟨hhook, fun k p hk => hstarts k (hmem k p hk) p hk⟩
  · rintro ⟨hhook, hstarts⟩
    have hhooked : (initLoop cls replies order s).2 = .hooked :=
      (initLoop_hooked_iff hnodup hinj).mpr ⟨hhook, fun k _ p hk => hstarts k p hk⟩
    obtain ⟨recent, hcalls, hown, -⟩ := initLoop_calls hnodup hinj hhooked
    refine ⟨⟨recent, hcalls, fun k p hk => ?_⟩, hhooked⟩
    rw [hown k (hmem k p hk) p hk, ownCalls, if_pos (hstarts k p hk).1]

/-- **When plugins are isolated from each other at the start**, for every set of registered plugins
    and every order of the table. -/
theorem isolated_iff {ops : List Op} (hrun : run (step cls) Manager.start ops = some s)
    {order : List JavaString} (horder : order.Perm s.pluginCache.keys) :
    Isolated cls replies order s ↔ replies.hookClass = true ∧
      ∀ k p, s.pluginCache.lookup k = some p → Starts cls replies s p :=
  isolated_iff_of_injective (inv_of_run hrun).injective horder

def registered : List Op :=
  [.appendPlugin ['d'] none ['A'] none 0 (.plugin true) none,
    .appendPlugin ['d'] none ['B'] none 0 (.plugin true) none]

/-- `load()` of plugin `p` returns `result p`, and everything else succeeds. -/
def Replies.loads (result : Nat → Bool) : Replies :=
  ⟨fun _ => true, fun p => some (result p), fun _ => some true, true⟩

theorem isolated_iff_registered : ∃ s, run (step fun _ => .base) Manager.start registered = some s ∧
    (Isolated (fun _ => .base) (.loads fun _ => true) [['d', 'A'], ['d', 'B']] s ↔ true = true ∧
      ∀ k p, s.pluginCache.lookup k = some p →
        Starts (fun _ => .base) (.loads fun _ => true) s p) := by
  have hrun : run (step fun _ => .base) Manager.start registered = some _ := rfl
  exact ⟨_, hrun, isolated_iff hrun (List.Perm.swap _ _ _)⟩

/-- The first plugin fails.  In one order the second is started, in the other it is not, although
    its `load()` would return true; the hook is installed in neither. -/
theorem not_isolated : ∃ s, run (step fun _ => .base) Manager.start registered = some s ∧
    WouldLoad (fun _ => .base) (.loads fun p => p = 1) s 1 ∧
    (AppInjectAgent.init (fun _ => .base) (.loads fun p => p = 1)
        [['d', 'A'], ['d', 'B']] s).1.calls =
      [(0, .load)] ∧
    (AppInjectAgent.init (fun _ => .base) (.loads fun p => p = 1)
        [['d', 'B'], ['d', 'A']] s).1.calls =
      [(0, .load), (1, .beforeMakeApplication), (1, .load)] ∧
    ¬ Isolated (fun _ => .base) (.loads fun p => p = 1) [['d', 'A'], ['d', 'B']] s ∧
    ¬ Isolated (fun _ => .base) (.loads fun p => p = 1) [['d', 'B'], ['d', 'A']] s := by
  refine ⟨_, rfl, rfl, rfl, rfl, fun h => ?_, fun h => ?_⟩
  · exact absurd h.hooked (by decide)
  · exact absurd h.hooked (by decide)

end Albatross.PluginInit
