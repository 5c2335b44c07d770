/-
  Albatross/PluginKeys.lean
  =========================
  **Which plugins an operation on one dex touches.**

  A plugin is cached under `dexPath + className`, and a dex is unloaded by the prefix of
  that key.  So `unloadPluginDex(d)` keeps to the plugins of `d` exactly when no cached
  key of another dex starts with `d`, and the operations for `(d, c)` keep to the plugin
  of `(d, c)` exactly when no other pair has the same concatenation (`dexOnly_iff`,
  `pairOnly_iff`).
-/
import Albatross.PluginTables

namespace Albatross.Plugins

open Assoc Runs
open Registry (JavaString)

/-! ### What an operation touches -/

/-- Between the two states a method of `p`, or the assignment to its flag, has been run. -/
def ActsOn (s s' : Manager) (p : Nat) : Prop :=
  ∃ recent c, s'.calls = recent ++ s.calls ∧ (p, c) ∈ recent

/-- Plugin `p` was loaded from `d` as class `c`. -/
def IsOf (s : Manager) (d c : JavaString) (p : Nat) : Prop :=
  (s.plugins p).dexPath = d ∧ (s.plugins p).className = c

/-- A plugin of class `c` from `d` is cached. -/
def Cached (s : Manager) (d c : JavaString) : Prop :=
  ∃ k p, s.pluginCache.lookup k = some p ∧ IsOf s d c p

/-- `unloadPluginDex(d)` neither unloads nor removes a plugin of another dex. -/
def DexOnly (cls : Nat → Lifecycle) (s : Manager) (d : JavaString) : Prop :=
  ∀ order reply, order.Perm s.pluginCache.keys → ∀ p, (s.plugins p).dexPath ≠ d →
    ¬ ActsOn s (unloadPluginDex cls d order reply s).1 p ∧
      ∀ k, s.pluginCache.lookup k = some p →
        (unloadPluginDex cls d order reply s).1.pluginCache.lookup k = some p

/-- The operations for `(d, c)` act on and report plugins of `(d, c)` only. -/
structure PairOnly (cls : Nat → Lifecycle) (s : Manager) (d c : JavaString) : Prop where
  append_acts : ∀ lib arguments flags built reply p,
    ActsOn s (appendPlugin cls d lib c arguments flags built reply s).1 p → IsOf s d c p
  append_reports : ∀ lib arguments flags built reply,
    (appendPlugin cls d lib c arguments flags built reply s).2 = .null DEX_ALREADY_LOAD →
      Cached s d c
  unload_acts : ∀ reply p, ActsOn s (unloadPlugin cls d c reply s).1 p → IsOf s d c p
  unload_reports : ∀ reply, (unloadPlugin cls d c reply s).2 = some true → Cached s d c
  disable_acts : ∀ reply p, ActsOn s (disablePlugin cls d c reply s).1 p → IsOf s d c p
  disable_reports : ∀ reply, (disablePlugin cls d c reply s).2 = some true → Cached s d c

/-! ### Calls -/

section Calls

variable {cls : Nat → Lifecycle} {s s' : Manager} {p q : Nat}

theorem not_actsOn_of_calls_eq (h : s'.calls = s.calls) : ¬ ActsOn s s' p := by
  rintro ⟨recent, c, hcalls, hmem⟩
  rw [h, List.self_eq_append_left] at hcalls
  rw [hcalls] at hmem
  cases hmem

theorem actsOn_call_iff {c : Call} {method : Method} {reply : Reply} :
    ActsOn s (s.call c method reply p).1 q ↔ q = p := by
  constructor
  · rintro ⟨recent, c', hcalls, hmem⟩
    have hrecent : [(p, c)] = recent := List.append_cancel_right hcalls
    rw [← hrecent, List.mem_singleton] at hmem
    exact congrArg Prod.fst hmem
  · rintro rfl
    exact ⟨[(q, c)], c, rfl, List.mem_singleton_self _⟩

theorem loaderOf_calls (d : JavaString) (dir : Option (List UInt16)) :
    (s.loaderOf d dir).1.calls = s.calls := by
  unfold Manager.loaderOf
  split
  · rfl
  · rfl

theorem modifyPluginConfig_calls (plugin : Option Nat) (config : Option JavaString) (flags : Int)
    (reply : Reply) : ∃ recent, (modifyPluginConfig cls plugin config flags reply s).1.calls =
      recent ++ s.calls ∧ ∀ q c, (q, c) ∈ recent → plugin = some q := by
  unfold modifyPluginConfig
  split
  · exact ⟨[], rfl, fun _ _ h => by cases h⟩
  · next p =>
    split
    · refine ⟨[(p, .onConfigChange)], rfl, fun q c h => ?_⟩
      rw [List.mem_singleton, Prod.mk.injEq] at h
      rw [h.1]
    · exact ⟨[], rfl, fun _ _ h => by cases h⟩

theorem unloading_calls {reply : Nat → Reply} :
    (unloading cls reply s p).calls = [(p, .unload)] ++ s.calls := rfl

theorem unloadMatching_calls {d : JavaString} {reply : Nat → Reply} {keys : List JavaString} :
    ∀ {s : Manager}, ∃ recent, (unloadMatching cls d reply keys s).1.calls = recent ++ s.calls ∧
      ∀ q c, (q, c) ∈ recent → ∃ k, s.pluginCache.lookup k = some q ∧ d <+: k := by
  induction keys with
  | nil => exact ⟨[], rfl, fun _ _ h => by cases h⟩
  | cons key keys ih =>
    intro s
    rcases @unloadMatching_cons cls d reply key keys s with
      ⟨-, hloop⟩ | ⟨p, hp, hstarts, ⟨-, hloop⟩ | ⟨-, hloop⟩⟩
    · rw [hloop]
      exact ih
    · rw [hloop]
      refine ⟨[(p, .unload)], unloading_calls, fun q c h => ?_⟩
      rw [List.mem_singleton, Prod.mk.injEq] at h
      exact ⟨key, h.1 ▸ hp, hstarts⟩
    · rw [hloop]
      obtain ⟨recent, hcalls, hrecent⟩ := @ih (unloading cls reply s p)
      refine ⟨recent ++ [(p, .unload)], ?_, fun q c h => ?_⟩
      · rw [List.append_assoc]
        exact hcalls
      · rcases List.mem_append.mp h with h | h
        · exact hrecent q c h
        · rw [List.mem_singleton, Prod.mk.injEq] at h
          exact ⟨key, h.1 ▸ hp, hstarts⟩

/-- The loop acts on the first plugin it comes to, when its key starts with the path. -/
theorem actsOn_unloadMatching_head {d key : JavaString} {reply : Nat → Reply}
    {keys : List JavaString} (hp : s.pluginCache.lookup key = some p) (hstarts : d <+: key) :
    ActsOn s (unloadMatching cls d reply (key :: keys) s).1 p := by
  rcases @unloadMatching_cons cls d reply key keys s with
    ⟨hno, -⟩ | ⟨q, hq, -, ⟨-, hloop⟩ | ⟨-, hloop⟩⟩
  · exact absurd hstarts (hno p hp)
  · rw [hp] at hq
    cases hq
    rw [hloop]
    exact actsOn_call_iff.mpr rfl
  · rw [hp] at hq
    cases hq
    rw [hloop]
    obtain ⟨recent, hcalls, -⟩ := @unloadMatching_calls cls d reply keys (unloading cls reply s p)
    refine ⟨recent ++ [(p, .unload)], .unload, ?_, by simp⟩
    rw [List.append_assoc]
    exact hcalls

end Calls

/-! ### Unloading a dex -/

section Dex

variable {cls : Nat → Lifecycle} {s : Manager} {d : JavaString}

theorem actsOn_unloadPluginDex {order : List JavaString} {reply : Nat → Reply} {p : Nat}
    (h : ActsOn s (unloadPluginDex cls d order reply s).1 p) :
    s.classLoaderCache.lookup d ≠ none ∧ ∃ k, s.pluginCache.lookup k = some p ∧ d <+: k := by
  unfold unloadPluginDex at h
  split at h
  · exact absurd h (not_actsOn_of_calls_eq rfl)
  · next L hL =>
    obtain ⟨recent, hcalls, hrecent⟩ := @unloadMatching_calls cls d reply order
      { s with classLoaderCache := s.classLoaderCache.erase d }
    have hacts : ActsOn s (unloadMatching cls d reply order
        { s with classLoaderCache := s.classLoaderCache.erase d }).1 p := by
      dsimp only at h
      split at h
      · next hone => rw [hone]; exact h
      · next hone => rw [hone]; exact h
    obtain ⟨recent', c, hcalls', hmem⟩ := hacts
    have hsame : recent = recent' := List.append_cancel_right (hcalls.symm.trans hcalls')
    refine ⟨by simp [hL], hrecent p c (hsame ▸ hmem)⟩

theorem lookup_unloadPluginDex (hinv : Inv s) {order : List JavaString} {reply : Nat → Reply}
    (horder : order.Perm s.pluginCache.keys) {k : JavaString} {p : Nat}
    (hk : s.pluginCache.lookup k = some p)
    (hother : s.classLoaderCache.lookup d = none ∨ ¬ d <+: k) :
    (unloadPluginDex cls d order reply s).1.pluginCache.lookup k = some p := by
  have hchange : Change cls s (.unloadPluginDex d order reply)
      (unloadPluginDex cls d order reply s).1 := unloadPluginDex_change hinv d horder reply
  generalize (unloadPluginDex cls d order reply s).1 = s' at hchange
  cases hchange with
  | quiet hquiet _ => rw [hquiet.pluginCache]; exact hk
  | aborted _ _ hquiet => rw [hquiet.pluginCache]; exact hk
  | unloaded hL _ hremoved hquiet =>
    refine lookup_eraseAll_eq_some.mpr ⟨fun hmem => ?_, by rw [hquiet.pluginCache]; exact hk⟩
    rcases hother with hnone | hother
    · rw [hnone] at hL
      cases hL
    · exact hother ((hremoved k).mp hmem).1

/-- **Unloading one dex leaves the others alone** exactly when there is nothing to unload or
    no cached key of another dex starts with its path. -/
theorem dexOnly_iff (hinv : Inv s) :
    DexOnly cls s d ↔ s.classLoaderCache.lookup d = none ∨
      ∀ k p, s.pluginCache.lookup k = some p →
        d <+: (s.plugins p).dexPath ++ (s.plugins p).className → (s.plugins p).dexPath = d := by
  constructor
  · intro h
    rcases hL : s.classLoaderCache.lookup d with _ | L
    · exact Or.inl rfl
    · refine Or.inr fun k p hk hstarts => ?_
      by_contra hne
      rw [← show k = (s.plugins p).dexPath ++ (s.plugins p).className from (hinv.key k p hk).2]
        at hstarts
      -- an order in which the plugin comes first
      have horder : (k :: s.pluginCache.keys.erase k).Perm s.pluginCache.keys :=
        (List.perm_cons_erase (mem_keys_of_lookup hk)).symm
      refine (h _ (fun _ => none) horder p hne).1 ?_
      unfold unloadPluginDex
      rw [hL]
      have hacts : ActsOn { s with classLoaderCache := s.classLoaderCache.erase d }
          (unloadMatching cls d (fun _ => none) (k :: s.pluginCache.keys.erase k)
            { s with classLoaderCache := s.classLoaderCache.erase d }).1 p :=
        actsOn_unloadMatching_head hk hstarts
      dsimp only
      split
      · next hone => rw [hone] at hacts; exact hacts
      · next hone => rw [hone] at hacts; exact hacts
  · intro h order reply horder p hne
    have hother : ∀ k, s.pluginCache.lookup k = some p →
        s.classLoaderCache.lookup d = none ∨ ¬ d <+: k := by
      intro k hk
      refine h.imp id fun hkeys hstarts => hne (hkeys k p hk ?_)
      rw [← show k = (s.plugins p).dexPath ++ (s.plugins p).className from (hinv.key k p hk).2]
      exact hstarts
    refine ⟨fun hacts => ?_, fun k hk => lookup_unloadPluginDex hinv horder hk (hother k hk)⟩
    obtain ⟨hL, k, hk, hstarts⟩ := actsOn_unloadPluginDex hacts
    rcases hother k hk with hnone | hno
    · exact hL hnone
    · exact hno hstarts

end Dex

/-! ### Operations on one pair -/

section Pair

variable {cls : Nat → Lifecycle} {s : Manager} {d c : JavaString} {reply : Reply}

theorem actsOn_onCached_iff {call : Call} {method : Nat → Method} {p : Nat} :
    ActsOn s (onCached call method d c reply s).1 p ↔
      s.pluginCache.lookup (generatePluginKey d c) = some p := by
  unfold onCached
  split
  · next hnone =>
    rw [hnone]
    exact iff_of_false (not_actsOn_of_calls_eq rfl) (by simp)
  · next q hq => rw [hq, actsOn_call_iff, Option.some.injEq, eq_comm]

theorem lookup_of_onCached {call : Call} {method : Nat → Method}
    (h : (onCached call method d c reply s).2 = some true) :
    ∃ p, s.pluginCache.lookup (generatePluginKey d c) = some p := by
  unfold onCached at h
  split at h
  · cases h
  · next p hp => exact ⟨p, hp⟩

variable {lib arguments : Option JavaString} {flags : Int} {built : Built}

theorem actsOn_appendPlugin {p : Nat}
    (h : ActsOn s (appendPlugin cls d lib c arguments flags built reply s).1 p) :
    s.pluginCache.lookup (generatePluginKey d c) = some p := by
  unfold appendPlugin at h
  split at h
  · next q hq =>
    obtain ⟨recent, hcalls, hrecent⟩ := @modifyPluginConfig_calls cls
      (s.call .setEnable setEnable none q).1 (some q) arguments flags reply
    have hacts : ActsOn s (modifyPluginConfig cls (some q) arguments flags reply
        (s.call .setEnable setEnable none q).1).1 p := by
      dsimp only at h
      split at h
      · next hone => rw [hone]; exact h
      · next hone => rw [hone]; exact h
    obtain ⟨recent', c', hcalls', hmem⟩ := hacts
    have hall : recent' = recent ++ [(q, .setEnable)] := by
      refine List.append_cancel_right (hcalls'.symm.trans (hcalls.trans ?_))
      rw [List.append_assoc]
      rfl
    rw [hall] at hmem
    rcases List.mem_append.mp hmem with hmem | hmem
    · rw [hq, hrecent p c' hmem]
    · rw [List.mem_singleton, Prod.mk.injEq] at hmem
      rw [hq, hmem.1]
  · split at h
    · exact absurd h (not_actsOn_of_calls_eq rfl)
    · next libDir libName _ =>
      split at h
      · exact absurd h (not_actsOn_of_calls_eq rfl)
      · cases built with
        | _ => exact absurd h (not_actsOn_of_calls_eq (loaderOf_calls d libDir))

theorem lookup_of_appendPlugin
    (h : (appendPlugin cls d lib c arguments flags built reply s).2 = .null DEX_ALREADY_LOAD) :
    ∃ p, s.pluginCache.lookup (generatePluginKey d c) = some p := by
  have hreason : Appended.null DEX_INIT_FAIL ≠ .null DEX_ALREADY_LOAD := by decide
  unfold appendPlugin at h
  split at h
  · next p hp => exact ⟨p, hp⟩
  · split at h
    · cases h
    · split at h
      · cases h
      · cases built with
        | plugin named =>
          cases named with
          | false => exact absurd h hreason
          | true => cases h
        | _ => exact absurd h hreason

/-- **The operations for one pair keep to it** exactly when no cached plugin of another pair has
    the same key. -/
theorem pairOnly_iff (hinv : Inv s) :
    PairOnly cls s d c ↔ ∀ k p, s.pluginCache.lookup k = some p →
      (s.plugins p).dexPath ++ (s.plugins p).className = d ++ c → IsOf s d c p := by
  constructor
  · intro h k p hk hkey
    refine h.disable_acts none p (actsOn_onCached_iff.mpr ?_)
    rw [generatePluginKey, ← hkey]
    rwa [← show k = (s.plugins p).dexPath ++ (s.plugins p).className from (hinv.key k p hk).2]
  · intro h
    have hown : ∀ p, s.pluginCache.lookup (generatePluginKey d c) = some p → IsOf s d c p :=
      fun p hp => h _ p hp (hinv.key _ p hp).2.symm
    have hcached : (∃ p, s.pluginCache.lookup (generatePluginKey d c) = some p) → Cached s d c :=
      fun ⟨p, hp⟩ => ⟨_, p, hp, hown p hp⟩
    exact {
      append_acts := fun _ _ _ _ _ p hacts => hown p (actsOn_appendPlugin hacts)
      append_reports := fun _ _ _ _ _ hreport => hcached (lookup_of_appendPlugin hreport)
      unload_acts := fun _ p hacts => hown p (actsOn_onCached_iff.mp hacts)
      unload_reports := fun _ hreport => hcached (lookup_of_onCached hreport)
      disable_acts := fun _ p hacts => hown p (actsOn_onCached_iff.mp hacts)
      disable_reports := fun _ hreport => hcached (lookup_of_onCached hreport) }

end Pair

/-- **When plugin operations on one dex leave the others alone**, in every reachable state. -/
theorem operations_isolated_iff {cls : Nat → Lifecycle} {ops : List Op} {s : Manager}
    (hrun : run (step cls) Manager.start ops = some s) (d : JavaString) :
    (DexOnly cls s d ↔ s.classLoaderCache.lookup d = none ∨
      ∀ k p, s.pluginCache.lookup k = some p →
        d <+: (s.plugins p).dexPath ++ (s.plugins p).className → (s.plugins p).dexPath = d) ∧
    ∀ c, (PairOnly cls s d c ↔ ∀ k p, s.pluginCache.lookup k = some p →
      (s.plugins p).dexPath ++ (s.plugins p).className = d ++ c → IsOf s d c p) :=
  ⟨dexOnly_iff (inv_of_run hrun), fun _ => pairOnly_iff (inv_of_run hrun)⟩

/-- Plugins of the dex paths `a` and `ab`. -/
def twoDexes : List Op :=
  [.appendPlugin ['a'] none ['X'] none 0 (.plugin true) none,
    .appendPlugin ['a', 'b'] none ['C'] none 0 (.plugin true) none]

theorem operations_isolated_iff_twoDexes : ∃ s,
    run (step fun _ => .base) Manager.start twoDexes = some s ∧
      (DexOnly (fun _ => .base) s ['a', 'b'] ↔ s.classLoaderCache.lookup ['a', 'b'] = none ∨
        ∀ k p, s.pluginCache.lookup k = some p →
          ['a', 'b'] <+: (s.plugins p).dexPath ++ (s.plugins p).className →
            (s.plugins p).dexPath = ['a', 'b']) ∧
      ∀ c, (PairOnly (fun _ => .base) s ['a', 'b'] c ↔ ∀ k p, s.pluginCache.lookup k = some p →
        (s.plugins p).dexPath ++ (s.plugins p).className = ['a', 'b'] ++ c →
          IsOf s ['a', 'b'] c p) := by
  have hrun : run (step fun _ => .base) Manager.start twoDexes = some _ := rfl
  exact ⟨_, hrun, operations_isolated_iff hrun ['a', 'b']⟩

/-- Unloading `a` unloads and removes the plugin of `ab`, and appending class `bC` of `a` finds
    that of class `C` of `ab`. -/
theorem not_operations_isolated : ∃ s, run (step fun _ => .base) Manager.start twoDexes = some s ∧
    ¬ DexOnly (fun _ => .base) s ['a'] ∧ ¬ PairOnly (fun _ => .base) s ['a'] ['b', 'C'] := by
  refine ⟨_, rfl, fun h => ?_, fun h => ?_⟩
  · have horder : [['a', 'X'], ['a', 'b', 'C']].Perm [['a', 'b', 'C'], ['a', 'X']] :=
      List.Perm.swap _ _ _
    have hkept := (h _ (fun _ => some true) horder 1 (by decide)).2 ['a', 'b', 'C'] rfl
    exact absurd hkept (by decide)
  · have hown :=
      h.append_acts none none 0 .failed none 1 ⟨[(1, .setEnable)], .setEnable, rfl, by simp⟩
    exact absurd hown.1 (by decide)

end Albatross.Plugins
