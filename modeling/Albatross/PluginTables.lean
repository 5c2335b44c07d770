/-
  Albatross/PluginTables.lean
  ===========================
  **The two tables of the plugin manager, over all histories.**

  Calls on plugins leave both tables alone (`Quiet`), so a step changes them in one of
  four ways (`Change`): a class loader is made, a plugin is made, a dex is unloaded,
  or its unloading is cut short by a plugin that throws.

  A plugin stays under the key of its own dex path and class, and its class loader is
  one that was made for its dex path (`Inv`); hence no plugin outlives the unloading of
  its class loader (`cached_loader_not_unloaded`).  The converse direction, a class
  loader for every cached plugin, holds as long as no unloading is cut short while
  plugins of its dex are cached (`reclaimable_iff`).
-/
import Albatross.Plugins

namespace Albatross.Plugins

open Assoc Runs
open Registry (JavaString)

/-! ### What calls on plugins leave alone -/

/-- Only the fields of plugins and the record of calls differ. -/
structure Quiet (s s' : Manager) : Prop where
  pluginCache : s'.pluginCache = s.pluginCache
  classLoaderCache : s'.classLoaderCache = s.classLoaderCache
  made : s'.made = s.made
  loaders : s'.loaders = s.loaders
  unloaded : s'.unloaded = s.unloaded
  dexPath : ∀ p, (s'.plugins p).dexPath = (s.plugins p).dexPath
  className : ∀ p, (s'.plugins p).className = (s.plugins p).className
  loader : ∀ p, (s'.plugins p).loader = (s.plugins p).loader
  attached : ∀ p, (s'.plugins p).attached = (s.plugins p).attached

theorem Quiet.refl (s : Manager) : Quiet s s :=
  ⟨rfl, rfl, rfl, rfl, rfl, fun _ => rfl, fun _ => rfl, fun _ => rfl, fun _ => rfl⟩

theorem Quiet.trans {s s' s'' : Manager} (h : Quiet s s') (h' : Quiet s' s'') : Quiet s s'' where
  pluginCache := h'.pluginCache.trans h.pluginCache
  classLoaderCache := h'.classLoaderCache.trans h.classLoaderCache
  made := h'.made.trans h.made
  loaders := h'.loaders.trans h.loaders
  unloaded := h'.unloaded.trans h.unloaded
  dexPath p := (h'.dexPath p).trans (h.dexPath p)
  className p := (h'.className p).trans (h.className p)
  loader p := (h'.loader p).trans (h.loader p)
  attached p := (h'.attached p).trans (h.attached p)

theorem Quiet.update {s s' : Manager} {p : Nat} {plugin : Plugin}
    (hplugins : s'.plugins = Function.update s.plugins p plugin)
    (htables : s'.pluginCache = s.pluginCache ∧ s'.classLoaderCache = s.classLoaderCache ∧
      s'.made = s.made ∧ s'.loaders = s.loaders ∧ s'.unloaded = s.unloaded)
    (horigin : plugin.dexPath = (s.plugins p).dexPath ∧
      plugin.className = (s.plugins p).className ∧ plugin.loader = (s.plugins p).loader ∧
      plugin.attached = (s.plugins p).attached) :
    Quiet s s' := by
  obtain ⟨hcache, hloaders, hmade, hlist, hunloaded⟩ := htables
  obtain ⟨hdex, hclass, hloader, hattached⟩ := horigin
  have hfield : ∀ q, s'.plugins q = s.plugins q ∨ (q = p ∧ s'.plugins q = plugin) := by
    intro q
    by_cases hq : q = p
    · exact Or.inr ⟨hq, by rw [hplugins, hq, Function.update_self]⟩
    · exact Or.inl (by rw [hplugins, Function.update_of_ne hq])
  refine ⟨hcache, hloaders, hmade, hlist, hunloaded, fun q => ?_, fun q => ?_, fun q => ?_,
    fun q => ?_⟩ <;>
    rcases hfield q with h | ⟨rfl, h⟩ <;> simp_all

variable (s : Manager)

theorem call_quiet (c : Call) (method : Method) (reply : Reply) (p : Nat) :
    Quiet s (s.call c method reply p).1 :=
  Quiet.update rfl ⟨rfl, rfl, rfl, rfl, rfl⟩ ⟨rfl, rfl, rfl, rfl⟩

theorem call_plugins_of_ne {c : Call} {method : Method} {reply : Reply} {p q : Nat} (h : q ≠ p) :
    (s.call c method reply p).1.plugins q = s.plugins q :=
  Function.update_of_ne h _ _

@[simp] theorem construct_plugins_self (plugin : Plugin) :
    (s.construct plugin).plugins s.made = plugin :=
  Function.update_self _ _ _

theorem construct_plugins_of_ne (plugin : Plugin) {p : Nat} (h : p ≠ s.made) :
    (s.construct plugin).plugins p = s.plugins p :=
  Function.update_of_ne h _ _

variable (cls : Nat → Lifecycle)

theorem load_quiet (library : Bool) (reply : Reply) (p : Nat) :
    Quiet s (s.load cls library reply p).1 :=
  (call_quiet s .load ((cls p).load library) reply p).trans
    (Quiet.update rfl ⟨rfl, rfl, rfl, rfl, rfl⟩ ⟨rfl, rfl, rfl, rfl⟩)

theorem modifyPluginConfig_quiet (plugin : Option Nat) (config : Option JavaString) (flags : Int)
    (reply : Reply) : Quiet s (modifyPluginConfig cls plugin config flags reply s).1 := by
  unfold modifyPluginConfig
  split
  · exact Quiet.refl s
  · split
    · apply call_quiet
    · exact Quiet.refl s

theorem onCached_quiet (c : Call) (method : Nat → Method) (d cl : JavaString) (reply : Reply) :
    Quiet s (onCached c method d cl reply s).1 := by
  unfold onCached
  split
  · exact Quiet.refl s
  · apply call_quiet

/-! ### The loop of `unloadPluginDex` -/

/-- `unload()` of plugin `p` throws. -/
def UnloadThrows (reply : Nat → Reply) (s : Manager) (p : Nat) : Prop :=
  ((cls p).unload (reply p) (s.plugins p).object).2 = none

def Manager.Injective (s : Manager) : Prop :=
  ∀ k k' p, s.pluginCache.lookup k = some p → s.pluginCache.lookup k' = some p → k = k'

/-- The state after `unload()` of plugin `p`. -/
def unloading (reply : Nat → Reply) (s : Manager) (p : Nat) : Manager :=
  (s.call .unload (cls p).unload (reply p) p).1

variable {s cls}
variable {d : JavaString} {reply : Nat → Reply}

theorem unloading_quiet (p : Nat) : Quiet s (unloading cls reply s p) :=
  call_quiet s .unload (cls p).unload (reply p) p

/-- One turn of the loop: it passes over the key, or the plugin's `unload()` throws, or it returns
    and the loop goes on. -/
theorem unloadMatching_cons (key : JavaString) (keys : List JavaString) (s : Manager) :
    ((∀ p, s.pluginCache.lookup key = some p → ¬ d <+: key) ∧
      unloadMatching cls d reply (key :: keys) s = unloadMatching cls d reply keys s) ∨
    ∃ p, s.pluginCache.lookup key = some p ∧ d <+: key ∧
      ((UnloadThrows cls reply s p ∧
        unloadMatching cls d reply (key :: keys) s = (unloading cls reply s p, none)) ∨
      (¬ UnloadThrows cls reply s p ∧
        unloadMatching cls d reply (key :: keys) s =
          ((unloadMatching cls d reply keys (unloading cls reply s p)).1,
            (unloadMatching cls d reply keys (unloading cls reply s p)).2.map (key :: ·)))) := by
  rw [unloadMatching]
  split
  · next hp =>
    refine Or.inl ⟨fun p h => ?_, rfl⟩
    rw [hp] at h
    cases h
  · next p hp =>
    split
    · next hstarts =>
      refine Or.inr ⟨p, hp, hstarts, ?_⟩
      have hsnd : (s.call .unload (cls p).unload (reply p) p).2 = none ↔
          UnloadThrows cls reply s p := Iff.rfl
      unfold unloading
      split
      · next s₁ hone =>
        rw [hone] at hsnd ⊢
        exact Or.inl ⟨hsnd.mp rfl, rfl⟩
      · next s₁ b hone =>
        rw [hone] at hsnd ⊢
        exact Or.inr ⟨fun h => Option.some_ne_none b (hsnd.mpr h), rfl⟩
    · next hno => exact Or.inl ⟨fun _ _ => hno, rfl⟩

theorem unloadMatching_quiet (keys : List JavaString) :
    ∀ s : Manager, Quiet s (unloadMatching cls d reply keys s).1 := by
  induction keys with
  | nil => exact Quiet.refl
  | cons key keys ih =>
    intro s
    rcases @unloadMatching_cons cls d reply key keys s with
      ⟨-, hloop⟩ | ⟨p, -, -, ⟨-, hloop⟩ | ⟨-, hloop⟩⟩
    · rw [hloop]
      exact ih s
    · rw [hloop]
      exact unloading_quiet p
    · rw [hloop]
      exact (unloading_quiet p).trans (ih _)

/-- The loop throws exactly when one of the plugins it comes to does. -/
theorem unloadMatching_eq_none_iff {keys : List JavaString} (hkeys : keys.Nodup) :
    ∀ {s : Manager}, s.Injective → ((unloadMatching cls d reply keys s).2 = none ↔
      ∃ k ∈ keys, ∃ p, s.pluginCache.lookup k = some p ∧ d <+: k ∧ UnloadThrows cls reply s p) := by
  induction keys with
  | nil => intro s _; simp [unloadMatching]
  | cons key keys ih =>
    intro s hinj
    obtain ⟨hfresh, hkeys⟩ := List.nodup_cons.mp hkeys
    rw [List.exists_mem_cons_iff]
    rcases @unloadMatching_cons cls d reply key keys s with
      ⟨hno, hloop⟩ | ⟨p, hp, hstarts, ⟨hthrows, hloop⟩ | ⟨hreturns, hloop⟩⟩
    · rw [hloop, ih hkeys hinj, or_iff_right]
      rintro ⟨p, hp, hstarts, -⟩
      exact hno p hp hstarts
    · rw [hloop]
      exact iff_of_true rfl (Or.inl ⟨p, hp, hstarts, hthrows⟩)
    · have hcache : (unloading cls reply s p).pluginCache = s.pluginCache := rfl
      -- the plugins of the later keys are others, which the call has not changed
      have hsame : ∀ k ∈ keys, ∀ q, s.pluginCache.lookup k = some q →
          (UnloadThrows cls reply (unloading cls reply s p) q ↔ UnloadThrows cls reply s q) := by
        intro k hk q hq
        have hne : q ≠ p := by
          rintro rfl
          exact hfresh (hinj k key q hq hp ▸ hk)
        unfold UnloadThrows unloading
        rw [call_plugins_of_ne s hne]
      have hinj₁ : (unloading cls reply s p).Injective := hinj
      rw [hloop, Option.map_eq_none_iff, ih hkeys hinj₁, hcache, or_iff_right]
      · refine exists_congr fun k => and_congr_right fun hk => exists_congr fun q => ?_
        exact and_congr_right fun hq => and_congr_right fun _ => hsame k hk q hq
      · rintro ⟨q, hq, -, hthrows⟩
        rw [hp, Option.some.injEq] at hq
        exact hreturns (hq ▸ hthrows)

/-- A loop that goes through returns the keys that start with the dex path. -/
theorem mem_of_unloadMatching {keys : List JavaString} :
    ∀ {s : Manager} {removed : List JavaString},
      (unloadMatching cls d reply keys s).2 = some removed →
      ∀ k, k ∈ removed ↔ k ∈ keys ∧ d <+: k ∧ ∃ p, s.pluginCache.lookup k = some p := by
  induction keys with
  | nil =>
    intro s removed h k
    simp only [unloadMatching, Option.some.injEq] at h
    simp [← h]
  | cons key keys ih =>
    intro s removed h k
    rw [List.mem_cons]
    rcases @unloadMatching_cons cls d reply key keys s with
      ⟨hno, hloop⟩ | ⟨p, hp, hstarts, ⟨-, hloop⟩ | ⟨-, hloop⟩⟩
    · rw [hloop] at h
      rw [ih h k]
      constructor
      · rintro ⟨hk, hmore⟩
        exact ⟨Or.inr hk, hmore⟩
      · rintro ⟨rfl | hk, hstarts, q, hq⟩
        · exact absurd hstarts (hno q hq)
        · exact ⟨hk, hstarts, q, hq⟩
    · rw [hloop] at h
      cases h
    · rw [hloop] at h
      obtain ⟨rest, hrest, rfl⟩ := Option.map_eq_some_iff.mp h
      have hcache : (unloading cls reply s p).pluginCache = s.pluginCache := rfl
      rw [List.mem_cons, ih hrest k, hcache]
      constructor
      · rintro (rfl | ⟨hk, hmore⟩)
        · exact ⟨Or.inl rfl, hstarts, p, hp⟩
        · exact ⟨Or.inr hk, hmore⟩
      · rintro ⟨rfl | hk, hmore⟩
        · exact Or.inl rfl
        · exact Or.inr ⟨hk, hmore⟩

/-! ### What a step does to the tables -/

section Step

/-- Where plugins and class loaders are, and where they came from. -/
structure Inv (s : Manager) : Prop where
  key : ∀ k p, s.pluginCache.lookup k = some p →
    p < s.made ∧ k = generatePluginKey (s.plugins p).dexPath (s.plugins p).className
  loader_path : ∀ d L, s.classLoaderCache.lookup d = some L →
    ∃ dir, s.loaders[L]? = some ⟨d, dir⟩
  plugin_path : ∀ p, p < s.made →
    ∃ dir, s.loaders[(s.plugins p).loader]? = some ⟨(s.plugins p).dexPath, dir⟩
  unloaded_lt : ∀ L ∈ s.unloaded, L < s.loaders.length
  cached_live : ∀ d L, s.classLoaderCache.lookup d = some L → L ∉ s.unloaded
  plugin_live : ∀ k p, s.pluginCache.lookup k = some p → (s.plugins p).loader ∉ s.unloaded

theorem Inv.start : Inv Manager.start := by
  constructor <;> simp [Manager.start]

theorem Inv.injective {s : Manager} (hinv : Inv s) : s.Injective := by
  intro k k' p hk hk'
  rw [(hinv.key k p hk).2, (hinv.key k' p hk').2]

inductive Change (cls : Nat → Lifecycle) (s : Manager) : Op → Manager → Prop where
  | quiet {op : Op} {s' : Manager} (hquiet : Quiet s s')
      (hno : ∀ d order reply, op = .unloadPluginDex d order reply →
        s.classLoaderCache.lookup d = none) : Change cls s op s'
  | loader {d lib c arguments flags built reply} {dir : Option (List UInt16)} :
      Change cls s (.appendPlugin d lib c arguments flags built reply) (s.loaderOf d dir).1
  | plugin {lib arguments flags built reply} {dir : Option (List UInt16)} {plugin : Plugin}
      (hfresh : s.pluginCache.lookup (generatePluginKey plugin.dexPath plugin.className) = none)
      (hloader : plugin.loader = (s.loaderOf plugin.dexPath dir).2)
      (hattached : plugin.attached = false) :
      Change cls s (.appendPlugin plugin.dexPath lib plugin.className arguments flags built reply)
        ((s.loaderOf plugin.dexPath dir).1.construct plugin)
  | aborted {d order reply} {L : Nat} {s' : Manager}
      (hL : s.classLoaderCache.lookup d = some L)
      (hthrows : ∃ k p, s.pluginCache.lookup k = some p ∧ d <+: k ∧ UnloadThrows cls reply s p)
      (hquiet : Quiet { s with classLoaderCache := s.classLoaderCache.erase d } s') :
      Change cls s (.unloadPluginDex d order reply) s'
  | unloaded {d order reply} {L : Nat} {s' : Manager} {removed : List JavaString}
      (hL : s.classLoaderCache.lookup d = some L)
      (hreturn : ∀ k p, s.pluginCache.lookup k = some p → d <+: k → ¬ UnloadThrows cls reply s p)
      (hremoved : ∀ k, k ∈ removed ↔ d <+: k ∧ ∃ p, s.pluginCache.lookup k = some p)
      (hquiet : Quiet { s with classLoaderCache := s.classLoaderCache.erase d } s') :
      Change cls s (.unloadPluginDex d order reply)
        { s' with
          pluginCache := eraseAll removed s'.pluginCache
          unloaded := L :: s'.unloaded }

variable {s s' : Manager} {op : Op}

theorem unloadPluginDex_change (hinv : Inv s) (d : JavaString) {order : List JavaString}
    (horder : order.Perm s.pluginCache.keys) (reply : Nat → Reply) :
    Change cls s (.unloadPluginDex d order reply) (unloadPluginDex cls d order reply s).1 := by
  have hmem : ∀ k p, s.pluginCache.lookup k = some p → k ∈ order := fun _ _ hk =>
    horder.mem_iff.mpr (mem_keys_of_lookup hk)
  have hnodup : order.Nodup := horder.nodup_iff.mpr (AList.keys_nodup _)
  unfold unloadPluginDex
  split
  · next hnone =>
    refine Change.quiet (Quiet.refl s) fun d' _ _ heq => ?_
    cases heq
    exact hnone
  · next L hL =>
    have hquiet := @unloadMatching_quiet cls d reply order
      { s with classLoaderCache := s.classLoaderCache.erase d }
    have hthrow := @unloadMatching_eq_none_iff cls d reply order hnodup
      { s with classLoaderCache := s.classLoaderCache.erase d } hinv.injective
    dsimp only
    split
    · next s₁ hloop =>
      rw [hloop] at hquiet hthrow
      obtain ⟨k, -, p, hthrows⟩ := hthrow.mp rfl
      exact Change.aborted hL ⟨k, p, hthrows⟩ hquiet
    · next s₁ removed hloop =>
      have hremoved := mem_of_unloadMatching (congrArg Prod.snd hloop)
      rw [hloop] at hquiet hthrow
      refine Change.unloaded hL (fun k p hk hstarts h => ?_) (fun k => ?_) hquiet
      · exact absurd (hthrow.mpr ⟨k, hmem k p hk, p, hk, hstarts, h⟩) (by simp)
      · rw [hremoved k]
        exact ⟨And.right, fun ⟨hstarts, p, hp⟩ => ⟨hmem k p hp, hstarts, p, hp⟩⟩

theorem appendPlugin_change (d : JavaString) (lib : Option JavaString) (c : JavaString)
    (arguments : Option JavaString) (flags : Int) (built : Built) (reply : Reply) :
    Change cls s (.appendPlugin d lib c arguments flags built reply)
      (appendPlugin cls d lib c arguments flags built reply s).1 := by
  unfold appendPlugin
  split
  · next p hp =>
    have hset := call_quiet s .setEnable setEnable none p
    have hmodify := modifyPluginConfig_quiet (s.call .setEnable setEnable none p).1 cls (some p)
      arguments flags reply
    refine Change.quiet ?_ (fun _ _ _ heq => by cases heq)
    dsimp only
    split
    · next s₁ hone =>
      rw [hone] at hmodify
      exact hset.trans hmodify
    · next s₁ b hone =>
      rw [hone] at hmodify
      exact hset.trans hmodify
  · next hfresh =>
    split
    · exact Change.quiet (Quiet.refl s) (fun _ _ _ heq => by cases heq)
    · next libDir libName _ =>
      split
      · exact Change.quiet (Quiet.refl s) (fun _ _ _ heq => by cases heq)
      · cases built with
        | plugin named =>
          let plugin : Plugin :=
            ⟨⟨arguments, flags, libName, false, none⟩, d, c, (s.loaderOf d libDir).2, false, false⟩
          exact @Change.plugin cls s lib arguments flags _ reply libDir plugin hfresh rfl rfl
        | _ => exact Change.loader

theorem step_change (hinv : Inv s) (h : step cls s op = some s') : Change cls s op s' := by
  cases op with
  | appendPlugin d lib c arguments flags built reply =>
    cases h
    apply appendPlugin_change
  | load p library reply =>
    obtain ⟨-, hs'⟩ := Option.ite_none_right_eq_some.mp h
    cases hs'
    exact Change.quiet (load_quiet s cls library reply p) (fun _ _ _ heq => by cases heq)
  | unloadPlugin d c reply =>
    cases h
    exact Change.quiet (onCached_quiet s _ _ d c reply) (fun _ _ _ heq => by cases heq)
  | disablePlugin d c reply =>
    cases h
    exact Change.quiet (onCached_quiet s _ _ d c reply) (fun _ _ _ heq => by cases heq)
  | unloadPluginDex d order reply =>
    obtain ⟨horder, hs'⟩ := Option.ite_none_right_eq_some.mp h
    cases hs'
    exact unloadPluginDex_change hinv d horder reply
  | modifyPluginConfig plugin config flags reply =>
    obtain ⟨-, hs'⟩ := Option.ite_none_right_eq_some.mp h
    cases hs'
    exact Change.quiet (modifyPluginConfig_quiet s cls plugin config flags reply)
      (fun _ _ _ heq => by cases heq)
  | enable p reply =>
    obtain ⟨-, hs'⟩ := Option.ite_none_right_eq_some.mp h
    cases hs'
    exact Change.quiet (call_quiet s .enable (cls p).enable reply p) (fun _ _ _ heq => by cases heq)

/-! ### The invariant -/

theorem Inv.quiet (hinv : Inv s) (h : Quiet s s') : Inv s' where
  key k p hk := by
    rw [h.pluginCache] at hk
    rw [h.made, h.dexPath, h.className]
    exact hinv.key k p hk
  loader_path d L hL := by
    rw [h.classLoaderCache] at hL
    rw [h.loaders]
    exact hinv.loader_path d L hL
  plugin_path p hp := by
    rw [h.made] at hp
    rw [h.loaders, h.loader, h.dexPath]
    exact hinv.plugin_path p hp
  unloaded_lt := by
    rw [h.unloaded, h.loaders]
    exact hinv.unloaded_lt
  cached_live d L hL := by
    rw [h.classLoaderCache] at hL
    rw [h.unloaded]
    exact hinv.cached_live d L hL
  plugin_live k p hk := by
    rw [h.pluginCache] at hk
    rw [h.loader, h.unloaded]
    exact hinv.plugin_live k p hk

theorem Inv.erase (hinv : Inv s) (d : JavaString) :
    Inv { s with classLoaderCache := s.classLoaderCache.erase d } :=
  { hinv with
    loader_path := fun d' L hL => hinv.loader_path d' L (lookup_erase_eq_some.mp hL).2
    cached_live := fun d' L hL => hinv.cached_live d' L (lookup_erase_eq_some.mp hL).2 }

theorem Inv.loaderOf (hinv : Inv s) (d : JavaString) (dir : Option (List UInt16)) :
    Inv (s.loaderOf d dir).1 := by
  unfold Manager.loaderOf
  split
  · exact hinv
  · have hgrow : ∀ (L : Nat) (l : DexClassLoader), s.loaders[L]? = some l →
        (s.loaders ++ [⟨d, dir⟩])[L]? = some l := fun L l hL =>
      List.getElem?_append_left (List.getElem?_eq_some_iff.mp hL).1 ▸ hL
    have hnew : s.loaders.length ∉ s.unloaded := fun h => Nat.lt_irrefl _ (hinv.unloaded_lt _ h)
    refine { hinv with
      loader_path := fun d' L hL => ?_
      plugin_path := fun p hp => ?_
      unloaded_lt := fun L hL => ?_
      cached_live := fun d' L hL => ?_ }
    · rcases lookup_insert_eq_some.mp hL with ⟨rfl, rfl⟩ | ⟨-, hold⟩
      · exact ⟨dir, by simp⟩
      · obtain ⟨dir', h⟩ := hinv.loader_path d' L hold
        exact ⟨dir', hgrow L _ h⟩
    · obtain ⟨dir', h⟩ := hinv.plugin_path p hp
      exact ⟨dir', hgrow _ _ h⟩
    · have hlt := hinv.unloaded_lt L hL
      rw [List.length_append]
      omega
    · rcases lookup_insert_eq_some.mp hL with ⟨-, rfl⟩ | ⟨-, hold⟩
      · exact hnew
      · exact hinv.cached_live d' L hold

theorem lookup_loaderOf (d : JavaString) (dir : Option (List UInt16)) :
    (s.loaderOf d dir).1.classLoaderCache.lookup d = some (s.loaderOf d dir).2 := by
  unfold Manager.loaderOf
  split
  · assumption
  · exact AList.lookup_insert _

/-- Making a plugin whose class loader is the cached one of its dex path. -/
theorem Inv.construct (hinv : Inv s) {plugin : Plugin}
    (hloader : s.classLoaderCache.lookup plugin.dexPath = some plugin.loader) :
    Inv (s.construct plugin) := by
  have hother : ∀ p, p < s.made → (s.construct plugin).plugins p = s.plugins p := fun p hp =>
    construct_plugins_of_ne s plugin (Nat.ne_of_lt hp)
  refine { hinv with
    key := fun k p hk => ?_
    plugin_path := fun p hp => ?_
    plugin_live := fun k p hk => ?_ }
  · rcases lookup_insert_eq_some.mp hk with ⟨rfl, rfl⟩ | ⟨-, hold⟩
    · rw [construct_plugins_self]
      exact ⟨Nat.lt_succ_self _, rfl⟩
    · obtain ⟨hp, hkey⟩ := hinv.key k p hold
      rw [hother p hp]
      exact ⟨Nat.lt_succ_of_lt hp, hkey⟩
  · rcases Nat.lt_succ_iff_lt_or_eq.mp hp with hlt | rfl
    · rw [hother p hlt]
      exact hinv.plugin_path p hlt
    · rw [construct_plugins_self]
      exact hinv.loader_path _ _ hloader
  · rcases lookup_insert_eq_some.mp hk with ⟨-, rfl⟩ | ⟨-, hold⟩
    · rw [construct_plugins_self]
      exact hinv.cached_live _ _ hloader
    · rw [hother p (hinv.key k p hold).1]
      exact hinv.plugin_live k p hold

/-- Unloading a dex that has left the table of class loaders, once every plugin that
    starts with its path has left the cache. -/
theorem Inv.unload (hinv : Inv s) {d : JavaString} {L : Nat} {removed : List JavaString}
    (hpath : ∃ dir, s.loaders[L]? = some ⟨d, dir⟩) (hgone : s.classLoaderCache.lookup d = none)
    (hremoved : ∀ k p, s.pluginCache.lookup k = some p → d <+: k → k ∈ removed) :
    Inv { s with pluginCache := eraseAll removed s.pluginCache, unloaded := L :: s.unloaded } := by
  obtain ⟨dir, hdir⟩ := hpath
  refine { hinv with
    key := fun k p hk => hinv.key k p (lookup_eraseAll_eq_some.mp hk).2
    unloaded_lt := fun L' hL' => ?_
    cached_live := fun d' L' hL' => ?_
    plugin_live := fun k p hk => ?_ }
  · rcases List.mem_cons.mp hL' with rfl | hold
    · exact (List.getElem?_eq_some_iff.mp hdir).1
    · exact hinv.unloaded_lt L' hold
  · -- another class loader of the table is one for another path
    have hne : L' ≠ L := by
      rintro rfl
      obtain ⟨dir', hdir'⟩ := hinv.loader_path d' L' hL'
      rw [hdir, Option.some.injEq, DexClassLoader.mk.injEq] at hdir'
      rw [← hdir'.1, hgone] at hL'
      cases hL'
    exact List.not_mem_cons_of_ne_of_not_mem hne (hinv.cached_live d' L' hL')
  · obtain ⟨hkept, hold⟩ := lookup_eraseAll_eq_some.mp hk
    obtain ⟨hp, hkey⟩ := hinv.key k p hold
    -- a plugin of this class loader has a key that starts with the path
    have hne : (s.plugins p).loader ≠ L := by
      rintro rfl
      obtain ⟨dir', hdir'⟩ := hinv.plugin_path p hp
      rw [hdir, Option.some.injEq, DexClassLoader.mk.injEq] at hdir'
      refine hkept (hremoved k p hold ?_)
      rw [hkey, hdir'.1]
      exact List.prefix_append _ _
    exact List.not_mem_cons_of_ne_of_not_mem hne (hinv.plugin_live k p hold)

theorem Inv.change (hinv : Inv s) (h : Change cls s op s') : Inv s' := by
  cases h with
  | quiet hquiet _ => exact hinv.quiet hquiet
  | loader => exact hinv.loaderOf _ _
  | plugin hfresh hloader _ =>
    exact (hinv.loaderOf _ _).construct (hloader ▸ lookup_loaderOf _ _)
  | @aborted d _ _ _ _ _ _ hquiet => exact (hinv.erase d).quiet hquiet
  | @unloaded d _ _ L s₁ removed hL _ hremoved hquiet =>
    refine Inv.unload ((hinv.erase d).quiet hquiet) (d := d) ?_ ?_ fun k p hk hstarts => ?_
    · rw [hquiet.loaders]
      exact hinv.loader_path d L hL
    · rw [hquiet.classLoaderCache]
      exact AList.lookup_erase _ _
    · rw [hquiet.pluginCache] at hk
      exact (hremoved k).mpr ⟨hstarts, p, hk⟩

theorem Inv.step (hinv : Inv s) (h : step cls s op = some s') : Inv s' :=
  hinv.change (step_change hinv h)

end Step

theorem inv_of_run {cls : Nat → Lifecycle} {ops : List Op} {s : Manager}
    (hrun : run (step cls) Manager.start ops = some s) : Inv s :=
  run_invariant (fun _ _ _ _ hinv h => hinv.step h) Inv.start hrun

/-- **No plugin outlives its dex.**  After any history, neither table leads to a class
    loader that has been unloaded. -/
theorem cached_loader_not_unloaded {cls : Nat → Lifecycle} {ops : List Op} {s : Manager}
    (hrun : run (step cls) Manager.start ops = some s) :
    (∀ k p, s.pluginCache.lookup k = some p → (s.plugins p).loader ∉ s.unloaded) ∧
      ∀ d L, s.classLoaderCache.lookup d = some L → L ∉ s.unloaded :=
  ⟨(inv_of_run hrun).plugin_live, (inv_of_run hrun).cached_live⟩

/-- A plugin of path `p` throws from `unload()`, and `p` gets a second class loader. -/
def abortedThenUnloaded : List Op :=
  [.appendPlugin ['p'] none ['A'] none 0 (.plugin true) none,
    .appendPlugin ['p', 'q'] none ['B'] none 0 (.plugin true) none,
    .unloadPluginDex ['p'] [['p', 'q', 'B'], ['p', 'A']] (fun _ => none),
    .appendPlugin ['p'] none ['C'] none 0 (.plugin true) none,
    .unloadPluginDex ['p'] [['p', 'A'], ['p', 'C'], ['p', 'q', 'B']] (fun _ => some true)]

theorem cached_loader_not_unloaded_aborted :
    ∃ s, run (step fun _ => .base) Manager.start abortedThenUnloaded = some s ∧
      ((∀ k p, s.pluginCache.lookup k = some p → (s.plugins p).loader ∉ s.unloaded) ∧
        ∀ d L, s.classLoaderCache.lookup d = some L → L ∉ s.unloaded) ∧
      s.unloaded = [2] ∧ s.classLoaderCache.keys = [['p', 'q']] := by
  have hrun : run (step fun _ => .base) Manager.start abortedThenUnloaded = some _ := rfl
  exact ⟨_, hrun, cached_loader_not_unloaded hrun, rfl, rfl⟩

/-! ### A class loader for every cached plugin -/

/-- `unloadPluginDex` can still remove every cached plugin. -/
def Reclaimable (s : Manager) : Prop :=
  ∀ k p, s.pluginCache.lookup k = some p →
    ∃ L, s.classLoaderCache.lookup (s.plugins p).dexPath = some L

/-- No `unload()` throws during the unloading of a dex that has a cached plugin. -/
def KeepsLoaders (cls : Nat → Lifecycle) (s : Manager) : Op → Prop
  | .unloadPluginDex d _ reply =>
      ∀ L, s.classLoaderCache.lookup d = some L →
        (∃ k p, s.pluginCache.lookup k = some p ∧ d <+: k ∧ UnloadThrows cls reply s p) →
        ∀ k p, s.pluginCache.lookup k = some p → (s.plugins p).dexPath ≠ d
  | _ => True

section Reclaim

variable {cls : Nat → Lifecycle} {s s' : Manager} {op : Op}

theorem Reclaimable.quiet (hs : Reclaimable s) (h : Quiet s s') : Reclaimable s' := by
  intro k p hk
  rw [h.pluginCache] at hk
  rw [h.classLoaderCache, h.dexPath]
  exact hs k p hk

theorem Reclaimable.loaderOf (hs : Reclaimable s) (d : JavaString) (dir : Option (List UInt16)) :
    Reclaimable (s.loaderOf d dir).1 := by
  unfold Manager.loaderOf
  split
  · exact hs
  · intro k p hk
    obtain ⟨L, hL⟩ := hs k p hk
    by_cases hd : (s.plugins p).dexPath = d
    · exact ⟨s.loaders.length, by rw [hd]; exact AList.lookup_insert _⟩
    · exact ⟨L, (AList.lookup_insert_ne hd).trans hL⟩

theorem Reclaimable.construct (hinv : Inv s) (hs : Reclaimable s) {plugin : Plugin} {L : Nat}
    (hL : s.classLoaderCache.lookup plugin.dexPath = some L) :
    Reclaimable (s.construct plugin) := by
  intro k p hk
  rcases lookup_insert_eq_some.mp hk with ⟨-, rfl⟩ | ⟨-, hold⟩
  · rw [construct_plugins_self]
    exact ⟨L, hL⟩
  · rw [construct_plugins_of_ne s plugin (Nat.ne_of_lt (hinv.key k p hold).1)]
    exact hs k p hold

/-- Dropping a class loader leaves every plugin one exactly when none of its dex is cached. -/
theorem reclaimable_erase_iff (hs : Reclaimable s) (d : JavaString) :
    Reclaimable { s with classLoaderCache := s.classLoaderCache.erase d } ↔
      ∀ k p, s.pluginCache.lookup k = some p → (s.plugins p).dexPath ≠ d := by
  constructor
  · intro h k p hk
    obtain ⟨L, hL⟩ := h k p hk
    exact (lookup_erase_eq_some.mp hL).1
  · intro h k p hk
    obtain ⟨L, hL⟩ := hs k p hk
    exact ⟨L, lookup_erase_eq_some.mpr ⟨h k p hk, hL⟩⟩

theorem Reclaimable.quiet_iff (h : Quiet s s') : Reclaimable s' ↔ Reclaimable s := by
  constructor
  · intro hs k p hk
    rw [← h.pluginCache] at hk
    rw [← h.classLoaderCache, ← h.dexPath]
    exact hs k p hk
  · exact fun hs => hs.quiet h

theorem change_reclaimable_iff (hinv : Inv s) (hs : Reclaimable s) (h : Change cls s op s') :
    Reclaimable s' ↔ KeepsLoaders cls s op := by
  cases h with
  | quiet hquiet hno =>
    refine iff_of_true (hs.quiet hquiet) ?_
    cases op with
    | unloadPluginDex d order reply =>
      intro L hL
      rw [hno d order reply rfl] at hL
      cases hL
    | _ => trivial
  | loader => exact iff_of_true (hs.loaderOf _ _) trivial
  | plugin hfresh hloader _ =>
    exact iff_of_true (Reclaimable.construct (hinv.loaderOf _ _) (hs.loaderOf _ _)
      (lookup_loaderOf _ _)) trivial
  | aborted hL hthrows hquiet =>
    rw [Reclaimable.quiet_iff hquiet, reclaimable_erase_iff hs]
    exact ⟨fun h _ _ _ => h, fun h => h _ hL hthrows⟩
  | @unloaded d order reply L s₁ removed hL hreturn hremoved hquiet =>
    refine iff_of_true (fun k p hk => ?_) fun _ _ ⟨k, p, hk, hstarts, hthrows⟩ =>
      absurd hthrows (hreturn k p hk hstarts)
    -- a plugin of the dex has a key that starts with its path, and has been removed
    obtain ⟨hkept, hold⟩ := lookup_eraseAll_eq_some.mp hk
    rw [hquiet.pluginCache] at hold
    have hne : (s.plugins p).dexPath ≠ d := by
      rintro rfl
      refine hkept ((hremoved k).mpr ⟨?_, p, hold⟩)
      rw [(hinv.key k p hold).2]
      exact List.prefix_append _ _
    obtain ⟨L', hL'⟩ := hs k p hold
    refine ⟨L', ?_⟩
    show s₁.classLoaderCache.lookup (s₁.plugins p).dexPath = some L'
    rw [hquiet.classLoaderCache, hquiet.dexPath]
    exact lookup_erase_eq_some.mpr ⟨hne, hL'⟩

end Reclaim

/-- **When cached plugins stay removable.** -/
theorem reclaimable_iff (cls : Nat → Lifecycle) (ops : List Op) :
    (∀ s op s', Takes (step cls) Manager.start ops s op s' → Reclaimable s') ↔
      ∀ s op s', Takes (step cls) Manager.start ops s op s' → KeepsLoaders cls s op := by
  refine forall_takes_iff (I := Reclaimable) ?_ fun s op s' htakes hs => ?_
  · intro k p hk
    simp [Manager.start] at hk
  · have hinv : Inv s := htakes.before Inv.start fun _ _ _ hone hinv => hinv.step hone.one
    exact change_reclaimable_iff hinv hs (step_change hinv htakes.one)

/-- Two plugins of one dex, the second of which throws from `unload()`: both stay cached,
    without a class loader. -/
theorem not_reclaimable_after_throw : ∃ s, run (step fun _ => .base) Manager.start
      [.appendPlugin ['d'] none ['A'] none 0 (.plugin true) none,
        .appendPlugin ['d'] none ['B'] none 0 (.plugin true) none,
        .unloadPluginDex ['d'] [['d', 'A'], ['d', 'B']]
          (fun p => if p = 1 then none else some true)] =
        some s ∧
      s.pluginCache.keys = [['d', 'B'], ['d', 'A']] ∧ s.classLoaderCache.keys = [] ∧
      ¬ Reclaimable s := by
  refine ⟨_, rfl, rfl, rfl, fun h => ?_⟩
  obtain ⟨L, hL⟩ := h ['d', 'A'] 0 rfl
  cases hL

end Albatross.Plugins
