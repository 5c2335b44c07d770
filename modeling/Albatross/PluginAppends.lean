/-
  Albatross/PluginAppends.lean
  ============================
  **What `DEX_ALREADY_LOAD` says** (`AppInjectAgent.java`: `appendPlugin`,
  `disablePlugin`, `unloadPluginDex`).

  `AppInjectAgent.appendPlugin` has the manager make the plugin, which caches it, and
  then loads it.  A plugin whose `load()` or callbacks fail stays cached, and the next
  `appendPlugin` of the pair answers `DEX_ALREADY_LOAD`; so does one for another pair
  with the same key.  Apart from these the answer is true: the pair was appended with
  success, and its dex has not been unloaded since (`already_loaded_after_success`).

  The history lists what the calls of the agent have returned, the latest first.
-/
import Albatross.PluginKeys

namespace Albatross.PluginAppends

open Assoc Runs Plugins
open Registry (JavaString)

/-! ### The agent -/

/-- The callbacks of `appendPlugin`, in its order. -/
def applicationCallbacks : List Call :=
  [.beforeNewApplication, .afterNewApplication, .beforeApplicationCreate, .afterApplicationCreate]

/-- What the plugin code that `appendPlugin` runs does. -/
structure Replies where
  built : Built
  onConfigChange : Reply
  library : Bool
  load : Reply
  callback : Call → Reply

variable (cls : Nat → Lifecycle)

/-- Calls the callbacks one after the other; `false` when one throws. -/
def callAll (p : Nat) (reply : Call → Reply) : List Call → Manager → Manager × Bool
  | [], s => (s, true)
  | c :: cs, s =>
      match s.call c ((cls p).callback c) (reply c) p with
      | (s, none) => (s, false)
      | (s, some _) => callAll p reply cs s

/-- Notes that the callbacks of plugin `p` have returned. -/
def attach (p : Nat) (s : Manager) : Manager :=
  { s with plugins := Function.update s.plugins p { s.plugins p with attached := true } }

/-- `AppInjectAgent.appendPlugin`; `none` when it throws. -/
def AppInjectAgent.appendPlugin (application : Bool) (pluginDexPath : JavaString)
    (pluginLibrary : Option JavaString) (className : JavaString) (pluginParams : Option JavaString)
    (pluginFlags : Int) (replies : Replies) (s : Manager) : Manager × Option Int :=
  match Plugins.appendPlugin cls pluginDexPath pluginLibrary className pluginParams pluginFlags
      replies.built replies.onConfigChange s with
  | (s, .threw) => (s, none)
  | (s, .null reason) => (s, some reason)
  | (s, .plugin p) =>
      if application then
        match s.load cls replies.library replies.load p with
        | (s, none) => (s, none)
        | (s, some false) => (s, some DEX_LOAD_FAIL)
        | (s, some true) =>
            match callAll cls p replies.callback applicationCallbacks s with
            | (s, false) => (s, none)
            | (s, true) => (attach p s, some 0)
      else (s, some 0)

/-! ### The process -/

inductive Event where
  | appended (dexPath className : JavaString) (result : Option Int)
  | unloadedDex (dexPath : JavaString) (result : Reply)

structure Process where
  manager : Manager
  history : List Event

def Process.start : Process := ⟨Manager.start, []⟩

inductive Op where
  | appendPlugin (pluginDexPath : JavaString) (pluginLibrary : Option JavaString)
      (className : JavaString) (pluginParams : Option JavaString) (pluginFlags : Int)
      (replies : Replies)
  | disablePlugin (pluginDexPath pluginClassName : JavaString) (reply : Reply)
  | unloadPluginDex (pluginDexPath : JavaString) (order : List JavaString) (reply : Nat → Reply)

/-- One call of the agent, in a process that has its application. -/
def step (pr : Process) : Op → Option Process
  | .appendPlugin d lib c params flags replies =>
      let result := AppInjectAgent.appendPlugin cls true d lib c params flags replies pr.manager
      some ⟨result.1, .appended d c result.2 :: pr.history⟩
  | .disablePlugin d c reply => some ⟨(disablePlugin cls d c reply pr.manager).1, pr.history⟩
  | .unloadPluginDex d order reply =>
      if order.Perm pr.manager.pluginCache.keys then
        let result := unloadPluginDex cls d order reply pr.manager
        some ⟨result.1, .unloadedDex d result.2 :: pr.history⟩
      else none

/-- An `appendPlugin` of the pair has returned 0, and its dex has not been unloaded since. -/
def Standing (d c : JavaString) (history : List Event) : Prop :=
  ∃ recent past, history = recent ++ .appended d c (some 0) :: past ∧
    .unloadedDex d (some true) ∉ recent

/-- `DEX_ALREADY_LOAD` is returned only for a pair that stands. -/
def Truthful (pr : Process) : Op → Prop
  | .appendPlugin d lib c params flags replies =>
      (AppInjectAgent.appendPlugin cls true d lib c params flags replies pr.manager).2 =
        some DEX_ALREADY_LOAD → Standing d c pr.history
  | _ => True

/-- A plugin under the key of the pair is of this pair, has been loaded, and its callbacks have
    returned. -/
def FindsOwn (pr : Process) : Op → Prop
  | .appendPlugin d _ c _ _ _ =>
      ∀ p, pr.manager.pluginCache.lookup (generatePluginKey d c) = some p →
        IsOf pr.manager d c p ∧ (pr.manager.plugins p).attached = true
  | _ => True

/-! ### Histories -/

section History

variable {d c : JavaString} {e : Event} {history : List Event}

theorem Standing.here : Standing d c (.appended d c (some 0) :: history) :=
  ⟨[], history, rfl, List.not_mem_nil⟩

theorem Standing.cons (h : Standing d c history) (he : e ≠ .unloadedDex d (some true)) :
    Standing d c (e :: history) := by
  obtain ⟨recent, past, rfl, hrecent⟩ := h
  refine ⟨e :: recent, past, rfl, fun hmem => ?_⟩
  rcases List.mem_cons.mp hmem with heq | hmem
  · exact he heq.symm
  · exact hrecent hmem

end History

/-! ### The invariant -/

structure Inv (pr : Process) : Prop where
  tables : Plugins.Inv pr.manager
  standing : ∀ k p, pr.manager.pluginCache.lookup k = some p →
    (pr.manager.plugins p).attached = true →
      Standing (pr.manager.plugins p).dexPath (pr.manager.plugins p).className pr.history

theorem Inv.start : Inv Process.start := by
  refine ⟨Plugins.Inv.start, fun k p h => ?_⟩
  cases h

section Keeps

variable {cls} {s s' s'' : Manager}

/-- What is cached and attached afterwards was so before, and has the same origin. -/
def Keeps (s s' : Manager) : Prop :=
  ∀ k p, s'.pluginCache.lookup k = some p → (s'.plugins p).attached = true →
    s.pluginCache.lookup k = some p ∧ (s.plugins p).attached = true ∧
      (s'.plugins p).dexPath = (s.plugins p).dexPath ∧
      (s'.plugins p).className = (s.plugins p).className

theorem Keeps.quiet (h : Quiet s s') : Keeps s s' := by
  intro k p hk hattached
  rw [h.pluginCache] at hk
  rw [h.attached] at hattached
  exact ⟨hk, hattached, h.dexPath p, h.className p⟩

theorem Keeps.trans (h : Keeps s s') (h' : Keeps s' s'') : Keeps s s'' := by
  intro k p hk hattached
  obtain ⟨hk', hattached', hdex', hclass'⟩ := h' k p hk hattached
  obtain ⟨hk₀, hattached₀, hdex, hclass⟩ := h k p hk' hattached'
  exact ⟨hk₀, hattached₀, hdex'.trans hdex, hclass'.trans hclass⟩

theorem Keeps.of_eq (hcache : s'.pluginCache = s.pluginCache) (hplugins : s'.plugins = s.plugins) :
    Keeps s s' := by
  intro k p hk hattached
  rw [hcache] at hk
  rw [hplugins] at hattached ⊢
  exact ⟨hk, hattached, rfl, rfl⟩

theorem Keeps.loaderOf (d : JavaString) (dir : Option (List UInt16)) :
    Keeps s (s.loaderOf d dir).1 := by
  unfold Manager.loaderOf
  split
  · exact Keeps.of_eq rfl rfl
  · exact Keeps.of_eq rfl rfl

theorem Keeps.construct (hinv : Plugins.Inv s) {plugin : Plugin} (h : plugin.attached = false) :
    Keeps s (s.construct plugin) := by
  intro k p hk hattached
  rcases lookup_insert_eq_some.mp hk with ⟨-, rfl⟩ | ⟨-, hold⟩
  · rw [construct_plugins_self, h] at hattached
    cases hattached
  · rw [construct_plugins_of_ne s plugin (Nat.ne_of_lt (hinv.key k p hold).1)] at hattached ⊢
    exact ⟨hold, hattached, rfl, rfl⟩

theorem Keeps.change (hinv : Plugins.Inv s) {op : Plugins.Op} (h : Change cls s op s') :
    Keeps s s' := by
  have hdrop : ∀ d, Keeps s { s with classLoaderCache := s.classLoaderCache.erase d } :=
    fun _ => Keeps.of_eq rfl rfl
  cases h with
  | quiet hquiet _ => exact Keeps.quiet hquiet
  | loader => exact Keeps.loaderOf _ _
  | plugin _ _ hattached =>
    exact (Keeps.loaderOf _ _).trans (Keeps.construct (hinv.loaderOf _ _) hattached)
  | aborted _ _ hquiet => exact (hdrop _).trans (Keeps.quiet hquiet)
  | @unloaded _ _ _ _ s₁ _ _ _ _ hquiet =>
    have hbefore : Keeps s s₁ := (hdrop _).trans (Keeps.quiet hquiet)
    refine hbefore.trans fun k p hk hattached => ?_
    exact ⟨(lookup_eraseAll_eq_some.mp hk).2, hattached, rfl, rfl⟩

theorem callAll_quiet (p : Nat) (reply : Call → Reply) (cs : List Call) :
    ∀ s : Manager, Quiet s (callAll cls p reply cs s).1 := by
  induction cs with
  | nil => exact Quiet.refl
  | cons c cs ih =>
    intro s
    have hcall := call_quiet s c ((cls p).callback c) (reply c) p
    unfold callAll
    split
    · next hone =>
      rw [hone] at hcall
      exact hcall
    · next s₁ _ hone =>
      rw [hone] at hcall
      exact hcall.trans (ih s₁)

@[simp] theorem attach_plugins_self (p : Nat) :
    (attach p s).plugins p = { s.plugins p with attached := true } :=
  Function.update_self _ _ _

theorem attach_plugins_of_ne {p q : Nat} (h : q ≠ p) : (attach p s).plugins q = s.plugins q :=
  Function.update_of_ne h _ _

theorem attach_inv (hinv : Plugins.Inv s) (p : Nat) : Plugins.Inv (attach p s) := by
  have hsame : ∀ q, ((attach p s).plugins q).dexPath = (s.plugins q).dexPath ∧
      ((attach p s).plugins q).className = (s.plugins q).className ∧
      ((attach p s).plugins q).loader = (s.plugins q).loader := by
    intro q
    by_cases hq : q = p
    · rw [hq, attach_plugins_self]
      exact ⟨rfl, rfl, rfl⟩
    · rw [attach_plugins_of_ne hq]
      exact ⟨rfl, rfl, rfl⟩
  refine { hinv with
    key := fun k q hk => ?_
    plugin_path := fun q hq => ?_
    plugin_live := fun k q hk => ?_ }
  · rw [(hsame q).1, (hsame q).2.1]
    exact hinv.key k q hk
  · rw [(hsame q).1, (hsame q).2.2]
    exact hinv.plugin_path q hq
  · rw [(hsame q).2.2]
    exact hinv.plugin_live k q hk

end Keeps

/-! ### The steps of the agent -/

section Step

variable {cls} {s s' : Manager} {history : List Event} {d c : JavaString}
  {lib params : Option JavaString} {flags : Int} {replies : Replies}

theorem Inv.keeps {e : Event} (hinv : Inv ⟨s, history⟩) (htables : Plugins.Inv s')
    (hkeeps : Keeps s s') (he : ∀ k p, s'.pluginCache.lookup k = some p →
      e ≠ .unloadedDex (s'.plugins p).dexPath (some true)) : Inv ⟨s', e :: history⟩ := by
  refine ⟨htables, fun k p hk hattached => ?_⟩
  obtain ⟨hk₀, hattached₀, hdex, hclass⟩ := hkeeps k p hk hattached
  have hstanding := hinv.standing k p hk₀ hattached₀
  have hne := he k p hk
  rw [hdex] at hne
  show Standing (s'.plugins p).dexPath (s'.plugins p).className (e :: history)
  rw [hdex, hclass]
  exact hstanding.cons hne

/-- A plugin that the manager has just made is of the pair asked for. -/
theorem isOf_of_appendPlugin {built : Built} {reply : Reply} {p : Nat}
    (h : Plugins.appendPlugin cls d lib c params flags built reply s = (s', .plugin p)) :
    IsOf s' d c p := by
  unfold Plugins.appendPlugin at h
  split at h
  · dsimp only at h
    split at h
    · cases h
    · cases h
  · split at h
    · cases h
    · next libDir libName _ =>
      split at h
      · cases h
      · cases built with
        | plugin named =>
          cases named with
          | false => cases h
          | true =>
            cases h
            unfold IsOf Manager.construct
            dsimp only
            rw [Function.update_self]
            exact ⟨rfl, rfl⟩
        | _ => cases h

/-- An `appendPlugin` attaches at most the plugin it has made, and then it returns 0. -/
theorem agentAppend_cases (hinv : Plugins.Inv s) :
    ∃ s', Plugins.Inv s' ∧ Keeps s s' ∧
      ((AppInjectAgent.appendPlugin cls true d lib c params flags replies s).1 = s' ∨
        ∃ p, AppInjectAgent.appendPlugin cls true d lib c params flags replies s =
          (attach p s', some 0) ∧ IsOf s' d c p) := by
  have hchange :=
    @appendPlugin_change cls s d lib c params flags replies.built replies.onConfigChange
  unfold AppInjectAgent.appendPlugin
  split
  · next s₁ h =>
    rw [h] at hchange
    exact ⟨s₁, hinv.change hchange, Keeps.change hinv hchange, Or.inl rfl⟩
  · next s₁ reason h =>
    rw [h] at hchange
    exact ⟨s₁, hinv.change hchange, Keeps.change hinv hchange, Or.inl rfl⟩
  · next s₁ p h =>
    have hp := isOf_of_appendPlugin h
    rw [h] at hchange
    have hinv₁ := hinv.change hchange
    have hkeeps₁ := Keeps.change hinv hchange
    have hload := load_quiet s₁ cls replies.library replies.load p
    rw [if_pos rfl]
    split
    · next s₂ hone =>
      rw [hone] at hload
      exact ⟨s₂, hinv₁.quiet hload, hkeeps₁.trans (Keeps.quiet hload), Or.inl rfl⟩
    · next s₂ hone =>
      rw [hone] at hload
      exact ⟨s₂, hinv₁.quiet hload, hkeeps₁.trans (Keeps.quiet hload), Or.inl rfl⟩
    · next s₂ hone =>
      rw [hone] at hload
      have hcalls := @callAll_quiet cls p replies.callback applicationCallbacks s₂
      split
      · next s₃ hall =>
        rw [hall] at hcalls
        have hquiet := hload.trans hcalls
        exact ⟨s₃, hinv₁.quiet hquiet, hkeeps₁.trans (Keeps.quiet hquiet), Or.inl rfl⟩
      · next s₃ hall =>
        rw [hall] at hcalls
        have hquiet := hload.trans hcalls
        refine ⟨s₃, hinv₁.quiet hquiet, hkeeps₁.trans (Keeps.quiet hquiet), Or.inr ⟨p, rfl, ?_⟩⟩
        exact ⟨(hquiet.dexPath p).trans hp.1, (hquiet.className p).trans hp.2⟩

theorem Inv.agentAppend (hinv : Inv ⟨s, history⟩) :
    Inv ⟨(AppInjectAgent.appendPlugin cls true d lib c params flags replies s).1,
      .appended d c (AppInjectAgent.appendPlugin cls true d lib c params flags replies s).2 ::
        history⟩ := by
  obtain ⟨s₁, htables, hkeeps, heq | ⟨p, heq, hp⟩⟩ := @agentAppend_cases cls s d c lib params flags
    replies hinv.tables
  · rw [heq]
    exact hinv.keeps htables hkeeps fun _ _ _ h => by cases h
  · rw [heq]
    refine ⟨attach_inv htables p, fun k q hk hattached => ?_⟩
    by_cases hq : q = p
    · dsimp only
      rw [hq, attach_plugins_self, hp.1, hp.2]
      exact Standing.here
    · dsimp only at hattached ⊢
      rw [attach_plugins_of_ne hq] at hattached ⊢
      exact (hinv.keeps htables hkeeps fun _ _ _ h => by cases h).standing k q hk hattached

/-- An unloading that returns true leaves no key that starts with the path. -/
theorem not_prefix_of_unloadPluginDex {order : List JavaString}
    (horder : order.Perm s.pluginCache.keys) {reply : Nat → Reply}
    (h : (unloadPluginDex cls d order reply s).2 = some true) {k : JavaString} {p : Nat}
    (hk : (unloadPluginDex cls d order reply s).1.pluginCache.lookup k = some p) : ¬ d <+: k := by
  have hquiet := @unloadMatching_quiet cls d reply order
    { s with classLoaderCache := s.classLoaderCache.erase d }
  unfold unloadPluginDex at h hk
  split at h
  · cases h
  · next L hL =>
    rw [hL] at hk
    dsimp only at h hk
    split at h
    · cases h
    · next s₁ removed hloop =>
      rw [hloop] at hk hquiet
      obtain ⟨hkept, hold⟩ := lookup_eraseAll_eq_some.mp hk
      rw [hquiet.pluginCache] at hold
      intro hstarts
      refine hkept ((mem_of_unloadMatching (congrArg Prod.snd hloop) k).mpr ⟨?_, hstarts, p, hold⟩)
      exact horder.mem_iff.mpr (mem_keys_of_lookup hold)

theorem Inv.step {pr pr' : Process} {op : Op} (hinv : Inv pr) (h : step cls pr op = some pr') :
    Inv pr' := by
  cases op with
  | appendPlugin d lib c params flags replies =>
    cases h
    exact hinv.agentAppend
  | disablePlugin d c reply =>
    cases h
    have hquiet : Quiet pr.manager (disablePlugin cls d c reply pr.manager).1 :=
      onCached_quiet pr.manager _ _ d c reply
    refine ⟨hinv.tables.quiet hquiet, fun k p hk hattached => ?_⟩
    obtain ⟨hk₀, hattached₀, hdex, hclass⟩ := Keeps.quiet hquiet k p hk hattached
    dsimp only
    rw [hdex, hclass]
    exact hinv.standing k p hk₀ hattached₀
  | unloadPluginDex d order reply =>
    obtain ⟨horder, hs'⟩ := Option.ite_none_right_eq_some.mp h
    cases hs'
    have hchange : Change cls pr.manager (.unloadPluginDex d order reply)
        (unloadPluginDex cls d order reply pr.manager).1 :=
      unloadPluginDex_change hinv.tables d horder reply
    have htables := hinv.tables.change hchange
    refine hinv.keeps htables (Keeps.change hinv.tables hchange) fun k p hk heq => ?_
    rw [Event.unloadedDex.injEq] at heq
    refine not_prefix_of_unloadPluginDex horder heq.2 hk ?_
    rw [(htables.key k p hk).2, ← heq.1]
    exact List.prefix_append _ _

theorem lookup_of_alreadyLoad
    (h : (AppInjectAgent.appendPlugin cls true d lib c params flags replies s).2 =
      some DEX_ALREADY_LOAD) :
    ∃ p, s.pluginCache.lookup (generatePluginKey d c) = some p := by
  have hload : (some DEX_LOAD_FAIL : Option Int) ≠ some DEX_ALREADY_LOAD := by decide
  have hzero : (some 0 : Option Int) ≠ some DEX_ALREADY_LOAD := by decide
  unfold AppInjectAgent.appendPlugin at h
  split at h
  · cases h
  · next s₁ reason hone =>
    rw [Option.some.injEq] at h
    refine @lookup_of_appendPlugin cls s d c replies.onConfigChange lib params flags
      replies.built ?_
    rw [hone, h]
  · rw [if_pos rfl] at h
    split at h
    · cases h
    · exact absurd h hload
    · split at h
      · cases h
      · exact absurd h hzero

end Step

theorem inv_before {cls : Nat → Lifecycle} {ops : List Op} {pr pr' : Process} {op : Op}
    (htakes : Takes (step cls) Process.start ops pr op pr') : Inv pr :=
  htakes.before Inv.start fun _ _ _ hone hinv => hinv.step hone.one

/-- **When `DEX_ALREADY_LOAD` is true.**  In every history, an `appendPlugin` that finds only
    the plugin of its own pair, and this one loaded and attached, returns it for a pair that
    stands. -/
theorem already_loaded_after_success {cls : Nat → Lifecycle} {ops : List Op} {pr pr' : Process}
    {op : Op} (htakes : Takes (step cls) Process.start ops pr op pr') (hown : FindsOwn pr op) :
    Truthful cls pr op := by
  cases op with
  | appendPlugin d lib c params flags replies =>
    intro hresult
    obtain ⟨p, hp⟩ := lookup_of_alreadyLoad hresult
    obtain ⟨⟨hdex, hclass⟩, hattached⟩ := hown p hp
    have hstanding := (inv_before htakes).standing _ p hp hattached
    rw [hdex, hclass] at hstanding
    exact hstanding
  | _ => trivial

def Replies.fine : Replies := ⟨.plugin true, some true, true, some true, fun _ => some true⟩

/-- `load()` returns false. -/
def Replies.failing : Replies := { Replies.fine with load := some false }

theorem already_loaded_after_success_disabled : ∃ pr pr',
    Takes (step fun _ => .base) Process.start
      [.appendPlugin ['d'] none ['A'] none 0 .fine, .disablePlugin ['d'] ['A'] (some true),
        .appendPlugin ['d'] none ['A'] none 0 .fine] pr
      (.appendPlugin ['d'] none ['A'] none 0 .fine) pr' ∧
    Truthful (fun _ => .base) pr (.appendPlugin ['d'] none ['A'] none 0 .fine) := by
  have htakes : Takes (step fun _ => .base) Process.start
      [.appendPlugin ['d'] none ['A'] none 0 .fine, .disablePlugin ['d'] ['A'] (some true),
        .appendPlugin ['d'] none ['A'] none 0 .fine] _
      (.appendPlugin ['d'] none ['A'] none 0 .fine) _ :=
    ⟨[_, _], [], rfl, rfl, rfl⟩
  refine ⟨_, _, htakes, already_loaded_after_success htakes fun p hp => ?_⟩
  cases hp
  exact ⟨⟨rfl, rfl⟩, rfl⟩

/-- `load()` has returned false and the pair was never appended with success; the retry is told
    that it is loaded. -/
theorem not_truthful_after_failed_load : ∃ pr, run (step fun _ => .base) Process.start
      [.appendPlugin ['d'] none ['A'] none 0 .failing] = some pr ∧
    (AppInjectAgent.appendPlugin (fun _ => .base) true ['d'] none ['A'] none 0 .failing
      pr.manager).2 = some DEX_ALREADY_LOAD ∧ ¬ Standing ['d'] ['A'] pr.history := by
  refine ⟨_, rfl, rfl, ?_⟩
  rintro ⟨recent, past, hhistory, -⟩
  rcases recent with _ | ⟨e, recent⟩
  · cases hhistory
  · have hnil := (List.cons.inj hhistory).2
    simp [Process.start] at hnil

end Albatross.PluginAppends
