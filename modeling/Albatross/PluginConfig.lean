/-
  Albatross/PluginConfig.lean
  ===========================
  **Whether an enabled plugin runs with its current configuration**, for plugins that
  use the methods of `AlbatrossPlugin` (`DynamicPluginManager.modifyPluginConfig`,
  `appendPlugin`, `unloadPlugin`, `disablePlugin`; `AlbatrossPlugin.enable`).

  Every method leaves a plugin enabled with its last `parseParams` call on its current
  fields (`Current`), or disabled with the last call on `(null, 0)` (`Settled`).  The
  assignment `plugin.enable = true` of `appendPlugin` is no method: it enables a
  disabled plugin without a `parseParams` call, and `modifyPluginConfig` makes one only
  when the configuration differs (`configured_iff`).
-/
import Albatross.PluginTables

namespace Albatross.Plugins

open Assoc Runs
open Registry (JavaString)

/-- When enabled, the last `parseParams` call got the current fields. -/
def Current (o : AlbatrossPlugin) : Prop :=
  o.enable = true → o.parsed = some (o.params, o.flags)

/-- When disabled, the last `parseParams` call got `(null, 0)`. -/
def Settled (o : AlbatrossPlugin) : Prop := o.enable = false → o.parsed = some (none, 0)

/-- Holds of every plugin whose `load()` succeeded. -/
def Everywhere (P : AlbatrossPlugin → Prop) (s : Manager) : Prop :=
  ∀ p, (s.plugins p).loaded = true → P (s.plugins p).object

/-! ### What the methods keep -/

/-- What the methods of `AlbatrossPlugin` establish or keep. -/
structure Stable (P : AlbatrossPlugin → Prop) : Prop where
  disable : ∀ reply o, P (AlbatrossPlugin.disable reply o).1
  enabled : ∀ reply o, P (AlbatrossPlugin.enabled reply o).1
  load : ∀ library reply o, (AlbatrossPlugin.load library reply o).2 = some true →
    P (AlbatrossPlugin.load library reply o).1
  onConfigChange : ∀ config flags reply o, P o →
    P (AlbatrossPlugin.onConfigChange config flags reply o).1

theorem load_eq_true {library : Bool} {reply : Reply} {o : AlbatrossPlugin}
    (h : (AlbatrossPlugin.load library reply o).2 = some true) :
    (AlbatrossPlugin.load library reply o).1 =
      { o with enable := true, parsed := some (o.params, o.flags) } := by
  unfold AlbatrossPlugin.load AlbatrossPlugin.parseParams at h ⊢
  split at h
  · cases h
  · next hlib =>
    rw [if_neg hlib]
    cases reply with
    | none => cases h
    | some b => rfl

theorem stable_current : Stable Current where
  disable reply o := by
    intro h
    cases h
  enabled reply o := fun _ => rfl
  load library reply o h := by
    rw [load_eq_true h]
    exact fun _ => rfl
  onConfigChange config flags reply o _ := by
    unfold AlbatrossPlugin.onConfigChange
    intro h
    by_cases hon : o.enable = true
    · simp [hon, AlbatrossPlugin.parseParams]
    · simp [hon] at h

theorem stable_settled : Stable Settled where
  disable reply o := fun _ => rfl
  enabled reply o := by
    intro h
    cases h
  load library reply o h := by
    rw [load_eq_true h]
    intro hoff
    cases hoff
  onConfigChange config flags reply o ho := by
    unfold AlbatrossPlugin.onConfigChange
    intro h
    by_cases hon : o.enable = true
    · simp [hon, AlbatrossPlugin.parseParams] at h
    · simpa [hon] using ho (by simpa using hon)

/-! ### Calls -/

section Calls

variable {P : AlbatrossPlugin → Prop} {s : Manager} {p : Nat}

theorem call_plugins_self (c : Call) (method : Method) (reply : Reply) :
    (s.call c method reply p).1.plugins p =
      { s.plugins p with object := (method reply (s.plugins p).object).1 } :=
  Function.update_self _ _ _

/-- A call that keeps `P` on the object it is made on keeps it everywhere. -/
theorem Everywhere.call (hs : Everywhere P s) {c : Call} {method : Method} {reply : Reply}
    (hp : P (s.plugins p).object → P (method reply (s.plugins p).object).1) :
    Everywhere P (s.call c method reply p).1 := by
  intro q hloaded
  by_cases hq : q = p
  · subst hq
    rw [call_plugins_self] at hloaded ⊢
    exact hp (hs q hloaded)
  · rw [call_plugins_of_ne s hq] at hloaded ⊢
    exact hs q hloaded

theorem Everywhere.onCached (hs : Everywhere P s) (c : Call) {method : Nat → Method}
    (hmethod : ∀ p reply o, P (method p reply o).1) (d cl : JavaString) (reply : Reply) :
    Everywhere P (onCached c method d cl reply s).1 := by
  unfold Plugins.onCached
  split
  · exact hs
  · exact hs.call fun _ => hmethod _ _ _

variable (hP : Stable P)

include hP

theorem Everywhere.load (hs : Everywhere P s) (library : Bool) (reply : Reply) :
    Everywhere P (s.load (fun _ => .base) library reply p).1 := by
  intro q hloaded
  by_cases hq : q = p
  · subst hq
    have hself : (s.load (fun _ => .base) library reply q).1.plugins q =
        { s.plugins q with
          object := (AlbatrossPlugin.load library reply (s.plugins q).object).1
          loaded :=
            decide ((AlbatrossPlugin.load library reply (s.plugins q).object).2 = some true) } := by
      refine (Function.update_self _ _ _).trans ?_
      rw [call_plugins_self]
      rfl
    rw [hself] at hloaded ⊢
    exact hP.load library reply _ (of_decide_eq_true hloaded)
  · have hother : (s.load (fun _ => .base) library reply p).1.plugins q = s.plugins q :=
      (Function.update_of_ne hq _ _).trans (call_plugins_of_ne s hq)
    rw [hother] at hloaded ⊢
    exact hs q hloaded

theorem Everywhere.modifyPluginConfig (hs : Everywhere P s) (plugin : Option Nat)
    (config : Option JavaString) (flags : Int) (reply : Reply) :
    Everywhere P (modifyPluginConfig (fun _ => .base) plugin config flags reply s).1 := by
  unfold Plugins.modifyPluginConfig
  split
  · exact hs
  · split
    · exact hs.call (hP.onConfigChange config flags reply _)
    · exact hs

theorem Everywhere.unloadMatching (d : JavaString) (reply : Nat → Reply) (keys : List JavaString) :
    ∀ {s : Manager}, Everywhere P s →
      Everywhere P (unloadMatching (fun _ => .base) d reply keys s).1 := by
  induction keys with
  | nil => exact fun hs => hs
  | cons key keys ih =>
    intro s hs
    have hcall : ∀ p, Everywhere P (unloading (fun _ => .base) reply s p) := fun _ =>
      hs.call fun _ => hP.disable _ _
    rcases @unloadMatching_cons (fun _ => .base) d reply key keys s with
      ⟨-, hloop⟩ | ⟨p, -, -, ⟨-, hloop⟩ | ⟨-, hloop⟩⟩
    · rw [hloop]
      exact ih hs
    · rw [hloop]
      exact hcall p
    · rw [hloop]
      exact ih (hcall p)

theorem Everywhere.unloadPluginDex (hs : Everywhere P s) (d : JavaString)
    (order : List JavaString) (reply : Nat → Reply) :
    Everywhere P (unloadPluginDex (fun _ => .base) d order reply s).1 := by
  unfold Plugins.unloadPluginDex
  split
  · exact hs
  · have hloop := Everywhere.unloadMatching hP d reply order
      (show Everywhere P { s with classLoaderCache := s.classLoaderCache.erase d } from hs)
    dsimp only
    split
    · next hone =>
      rw [hone] at hloop
      exact hloop
    · next hone =>
      rw [hone] at hloop
      exact hloop

end Calls

/-! ### Steps -/

/-- An `appendPlugin` that finds a disabled plugin finds it with another configuration, or
    with `(null, 0)`. -/
def Reconfigures (s : Manager) : Op → Prop
  | .appendPlugin d _ c arguments flags _ _ =>
      ∀ p, s.pluginCache.lookup (generatePluginKey d c) = some p → (s.plugins p).loaded = true →
        (s.plugins p).object.enable = false → arguments = (s.plugins p).object.params →
        flags = (s.plugins p).object.flags → arguments = none ∧ flags = 0
  | _ => True

section Step

variable {P : AlbatrossPlugin → Prop} {s s' : Manager} {op : Op}

theorem Everywhere.construct (hs : Everywhere P s) {plugin : Plugin} (h : plugin.loaded = false) :
    Everywhere P (s.construct plugin) := by
  intro q hloaded
  by_cases hq : q = s.made
  · rw [hq, construct_plugins_self, h] at hloaded
    cases hloaded
  · rw [construct_plugins_of_ne s plugin hq] at hloaded ⊢
    exact hs q hloaded

theorem Everywhere.loaderOf (hs : Everywhere P s) (d : JavaString) (dir : Option (List UInt16)) :
    Everywhere P (s.loaderOf d dir).1 := by
  unfold Manager.loaderOf
  split
  · exact hs
  · exact hs

theorem Everywhere.appendPlugin_fresh (hs : Everywhere P s) {d lib c arguments flags built reply}
    (hfresh : s.pluginCache.lookup (generatePluginKey d c) = none) :
    Everywhere P (appendPlugin (fun _ => .base) d lib c arguments flags built reply s).1 := by
  unfold appendPlugin
  rw [hfresh]
  dsimp only
  split
  · exact hs
  · split
    · exact hs
    · cases built with
      | plugin named => exact (hs.loaderOf d _).construct rfl
      | _ => exact hs.loaderOf d _

theorem appendPlugin_cached {d lib c arguments flags built reply} {p : Nat}
    (hp : s.pluginCache.lookup (generatePluginKey d c) = some p) :
    (appendPlugin (fun _ => .base) d lib c arguments flags built reply s).1 =
      (modifyPluginConfig (fun _ => .base) (some p) arguments flags reply
        (s.call .setEnable setEnable none p).1).1 := by
  unfold appendPlugin
  rw [hp]
  dsimp only
  split
  · next h => exact (congrArg Prod.fst h).symm
  · next h => exact (congrArg Prod.fst h).symm

theorem Everywhere.step (hP : Stable P) (hs : Everywhere P s)
    (h : step (fun _ => .base) s op = some s')
    (happend : ∀ d lib c arguments flags built reply,
      op = .appendPlugin d lib c arguments flags built reply →
        Everywhere P (appendPlugin (fun _ => .base) d lib c arguments flags built reply s).1) :
    Everywhere P s' := by
  cases op with
  | appendPlugin d lib c arguments flags built reply =>
    cases h
    exact happend d lib c arguments flags built reply rfl
  | load p library reply =>
    obtain ⟨-, hs'⟩ := Option.ite_none_right_eq_some.mp h
    cases hs'
    exact hs.load hP library reply
  | unloadPlugin d c reply =>
    cases h
    exact hs.onCached .unload (fun _ => hP.disable) d c reply
  | disablePlugin d c reply =>
    cases h
    exact hs.onCached .disable (fun _ => hP.disable) d c reply
  | unloadPluginDex d order reply =>
    obtain ⟨-, hs'⟩ := Option.ite_none_right_eq_some.mp h
    cases hs'
    exact hs.unloadPluginDex hP d order reply
  | modifyPluginConfig plugin config flags reply =>
    obtain ⟨-, hs'⟩ := Option.ite_none_right_eq_some.mp h
    cases hs'
    exact hs.modifyPluginConfig hP plugin config flags reply
  | enable p reply =>
    obtain ⟨-, hs'⟩ := Option.ite_none_right_eq_some.mp h
    cases hs'
    exact hs.call fun _ => hP.enabled reply _

theorem settled_step (hs : Everywhere Settled s) (h : step (fun _ => .base) s op = some s') :
    Everywhere Settled s' := by
  refine hs.step stable_settled h fun d lib c arguments flags built reply _ => ?_
  rcases hp : s.pluginCache.lookup (generatePluginKey d c) with _ | p
  · exact hs.appendPlugin_fresh hp
  · rw [appendPlugin_cached hp]
    refine Everywhere.modifyPluginConfig stable_settled (hs.call fun _ hoff => ?_) _ _ _ _
    cases hoff

/-- Enabling a cached plugin leaves its configuration current exactly when it is
    reconfigured, or was current with `(null, 0)`. -/
theorem appendPlugin_current_iff (hcurrent : Everywhere Current s) (hsettled : Everywhere Settled s)
    {d lib c arguments flags built reply} :
    Everywhere Current (appendPlugin (fun _ => .base) d lib c arguments flags built reply s).1 ↔
      Reconfigures s (.appendPlugin d lib c arguments flags built reply) := by
  rcases hp : s.pluginCache.lookup (generatePluginKey d c) with _ | p
  · refine iff_of_true (hcurrent.appendPlugin_fresh hp) fun q hq => ?_
    rw [hp] at hq
    cases hq
  · have hself := call_plugins_self (s := s) (p := p) .setEnable setEnable none
    rw [appendPlugin_cached hp]
    unfold modifyPluginConfig
    constructor
    · intro h q hq hloaded hoff hparams hflags
      rw [hp] at hq
      cases hq
      have hsame : ¬ (flags ≠ ((s.call .setEnable setEnable none p).1.plugins p).object.flags ∨
          arguments ≠ ((s.call .setEnable setEnable none p).1.plugins p).object.params) := by
        rw [hself]
        simp [setEnable, hparams, hflags]
      dsimp only at h
      rw [if_neg hsame] at h
      have hnow := h p (by rw [hself]; exact hloaded)
      rw [hself] at hnow
      have hparsed : some ((s.plugins p).object.params, (s.plugins p).object.flags) =
          some (none, 0) := (hnow rfl).symm.trans (hsettled p hloaded hoff)
      rw [hparams, hflags]
      simpa using hparsed
    · intro h
      dsimp only
      split
      · next hdiffer =>
        -- `onConfigChange` finds the plugin enabled
        intro q hloaded
        by_cases hq : q = p
        · subst hq
          rw [call_plugins_self, hself]
          exact fun _ => rfl
        · rw [call_plugins_of_ne _ hq, call_plugins_of_ne s hq] at hloaded ⊢
          exact hcurrent q hloaded
      · next hsame =>
        rw [hself, not_or, not_not, not_not] at hsame
        intro q hloaded
        by_cases hq : q = p
        · subst hq
          rw [hself] at hloaded ⊢
          intro _
          by_cases hon : (s.plugins q).object.enable = true
          · exact hcurrent q hloaded hon
          · have hoff : (s.plugins q).object.enable = false := by simpa using hon
            obtain ⟨hnone, hzero⟩ := h q hp hloaded hoff hsame.2 hsame.1
            have hparsed := hsettled q hloaded hoff
            show (s.plugins q).object.parsed =
              some ((s.plugins q).object.params, (s.plugins q).object.flags)
            rw [hparsed, ← hnone, hsame.2, ← hzero, hsame.1]
            rfl
        · rw [call_plugins_of_ne s hq] at hloaded ⊢
          exact hcurrent q hloaded

theorem current_step_iff (hcurrent : Everywhere Current s) (hsettled : Everywhere Settled s)
    (h : step (fun _ => .base) s op = some s') : Everywhere Current s' ↔ Reconfigures s op := by
  cases op with
  | appendPlugin d lib c arguments flags built reply =>
    cases h
    exact appendPlugin_current_iff hcurrent hsettled
  | _ =>
    have hcurrent' := hcurrent.step stable_current h fun _ _ _ _ _ _ _ heq => by cases heq
    exact iff_of_true hcurrent' trivial

end Step

theorem Everywhere.start (P : AlbatrossPlugin → Prop) : Everywhere P Manager.start := by
  intro p h
  cases h

/-- **When enabled plugins run with their current configuration.** -/
theorem configured_iff (ops : List Op) :
    (∀ s op s', Takes (step fun _ => .base) Manager.start ops s op s' → Everywhere Current s') ↔
      ∀ s op s', Takes (step fun _ => .base) Manager.start ops s op s' → Reconfigures s op := by
  refine forall_takes_iff (Everywhere.start Current) fun s op s' htakes hcurrent => ?_
  have hsettled : Everywhere Settled s :=
    htakes.before (Everywhere.start Settled) fun _ _ _ hone hs => settled_step hs hone.one
  exact current_step_iff hcurrent hsettled htakes.one

/-- Disabled and appended again with the same arguments: enabled, its last configuration
    `(null, 0)`. -/
theorem not_current_after_append : ∃ s, run (step fun _ => .base) Manager.start
      [.appendPlugin ['d'] none ['A'] (some ['x']) 1 (.plugin true) none,
        .load 0 true (some true),
        .disablePlugin ['d'] ['A'] (some true),
        .appendPlugin ['d'] none ['A'] (some ['x']) 1 (.plugin true) (some true)] = some s ∧
      (s.plugins 0).loaded = true ∧
      (s.plugins 0).object = ⟨some ['x'], 1, none, true, some (none, 0)⟩ ∧
      ¬ Everywhere Current s := by
  refine ⟨_, rfl, rfl, rfl, fun h => ?_⟩
  have hnow := h 0 rfl rfl
  cases hnow

end Albatross.Plugins
