/-
  Albatross/PluginFailures.lean
  =============================
  **What a failed `appendPlugin` leaves behind.**

  The manager slices the library path, makes a class loader and caches it before its
  `try` block, and caches the plugin inside it before it asks for the plugin's name.  So a
  path that cannot be sliced, or a class loader that cannot be made, makes the call throw.

  After any failure in the block a class loader of the dex path is cached, and a retry
  uses it, also when the dex file has been replaced (`retry_reuses_loader`).  So the call
  keeps its promise, to leave no trace and to load afresh the next time, only where it does
  not fail (`appendPlugin_harmless_iff`).
-/
import Albatross.PluginTables

namespace Albatross.Plugins

open Assoc Utf16
open Registry (JavaString)

/-! ### The library path -/

/-- The path can be sliced: there is none, it is short, or it has six UTF-16 units behind its last
    slash. -/
def SliceFits (nativeLibPath : Option JavaString) : Prop :=
  ∀ path, nativeLibPath = some path → (utf16 path).length < 5 ∨
    ∃ dir name, path = dir ++ '/' :: name ∧ '/' ∉ name ∧ 6 ≤ (utf16 name).length

theorem findIdx_reverse {s : List UInt16} {c : UInt16} (h : c ∉ s) :
    s.reverse.findIdx? (· = c) = none := by
  rw [List.findIdx?_eq_none_iff]
  intro x hx
  have hne : x ≠ c := by
    rintro rfl
    exact h (List.mem_reverse.mp hx)
  simpa using hne

theorem lastIndexOf_of_notMem {s : List UInt16} {c : UInt16} (h : c ∉ s) :
    lastIndexOf s c = -1 := by
  simp [lastIndexOf, findIdx_reverse h]

theorem lastIndexOf_append {dir name : List UInt16} {c : UInt16} (h : c ∉ name) :
    lastIndexOf (dir ++ c :: name) c = dir.length := by
  have hfind : (dir ++ c :: name).reverse.findIdx? (· = c) = some name.length := by
    rw [List.reverse_append, List.reverse_cons, List.append_assoc, List.findIdx?_append]
    simp [findIdx_reverse h, List.findIdx?_cons]
  unfold lastIndexOf
  rw [hfind]
  simp only [List.length_append, List.length_cons]
  omega

theorem eq_append_last {s : JavaString} {c : Char} (h : c ∈ s) :
    ∃ dir name, s = dir ++ c :: name ∧ c ∉ name := by
  obtain ⟨name, dir, hs, hname⟩ := List.eq_append_cons_of_mem (List.mem_reverse.mpr h)
  refine ⟨dir.reverse, name.reverse, ?_, by simpa using hname⟩
  rw [← List.reverse_reverse s, hs]
  simp

theorem slash_mem_utf16 {s : JavaString} : SLASH ∈ utf16 s ↔ '/' ∈ s :=
  mem_utf16_iff (c := '/') (by decide)

theorem utf16_slash (dir name : JavaString) :
    utf16 (dir ++ '/' :: name) = utf16 dir ++ SLASH :: utf16 name :=
  utf16_append_cons (by decide) dir name

theorem substring_eq_none_iff {s : List UInt16} {b e : Int} :
    substring s b e = none ↔ ¬ (0 ≤ b ∧ b ≤ e ∧ e ≤ s.length) := by
  unfold substring
  split <;> simp [*]

theorem nativeLib_slash {dir name : JavaString} (hname : '/' ∉ name)
    (hlong : ¬ (utf16 (dir ++ '/' :: name)).length < 5) :
    nativeLib (some (dir ++ '/' :: name)) ≠ none ↔ 6 ≤ (utf16 name).length := by
  have hunits : SLASH ∉ utf16 name := fun h => hname (slash_mem_utf16.mp h)
  have hsub : ∀ b e, substring (utf16 dir ++ SLASH :: utf16 name) b e = none ↔
      ¬ (0 ≤ b ∧ b ≤ e ∧ e ≤ (utf16 dir).length + (utf16 name).length + 1) := by
    intro b e
    rw [substring_eq_none_iff]
    simp only [List.length_append, List.length_cons]
    omega
  have hdir : ∃ t, substring (utf16 dir ++ SLASH :: utf16 name) 0 (utf16 dir).length = some t :=
    Option.ne_none_iff_exists'.mp fun hnone => (hsub _ _).mp hnone (by omega)
  obtain ⟨libDir, hdir⟩ := hdir
  rw [utf16_slash] at hlong
  have hlength : ((utf16 dir ++ SLASH :: utf16 name).length : Int) =
      (utf16 dir).length + (utf16 name).length + 1 := by
    simp only [List.length_append, List.length_cons]
    omega
  simp only [nativeLib, utf16_slash, if_neg hlong, lastIndexOf_append hunits, hdir, hlength]
  have hlib := hsub ((utf16 dir).length + 4) ((utf16 dir).length + (utf16 name).length + 1 - 3)
  cases hcut : substring (utf16 dir ++ SLASH :: utf16 name) ((utf16 dir).length + 4)
      ((utf16 dir).length + (utf16 name).length + 1 - 3) with
  | none =>
    rw [hcut] at hlib
    refine iff_of_false (by simp) ?_
    have hshort := hlib.mp rfl
    omega
  | some libName =>
    rw [hcut] at hlib
    refine iff_of_true (by simp) ?_
    by_contra hshort
    cases hlib.mpr (by omega)

/-- **The slicing throws exactly when the path does not fit.** -/
theorem nativeLib_ne_none_iff (nativeLibPath : Option JavaString) :
    nativeLib nativeLibPath ≠ none ↔ SliceFits nativeLibPath := by
  cases nativeLibPath with
  | none => exact iff_of_true nofun nofun
  | some path =>
    simp only [SliceFits, Option.some.injEq, forall_eq']
    by_cases hshort : (utf16 path).length < 5
    · exact iff_of_true (by simp [nativeLib, hshort]) (Or.inl hshort)
    by_cases hslash : '/' ∈ path
    · obtain ⟨dir, name, rfl, hname⟩ := eq_append_last hslash
      rw [nativeLib_slash hname hshort, or_iff_right hshort]
      constructor
      · exact fun hlength => ⟨dir, name, rfl, hname, hlength⟩
      · rintro ⟨dir', name', heq, hname', hlength⟩
        rw [heq] at hshort
        rw [← nativeLib_slash hname (heq ▸ hshort), heq]
        exact (nativeLib_slash hname' hshort).mpr hlength
    · have hunits : SLASH ∉ utf16 path := fun h => hslash (slash_mem_utf16.mp h)
      have hnone : substring (utf16 path) 0 (-1) = none := by
        rw [substring_eq_none_iff]
        omega
      refine iff_of_false ?_ (not_or.mpr ⟨hshort, ?_⟩)
      · simp [nativeLib, hshort, lastIndexOf_of_notMem hunits, hnone]
      · rintro ⟨dir, name, rfl, -⟩
        simp at hslash

/-! ### Failures -/

variable (cls : Nat → Lifecycle)

/-- The same append again, where the loading goes well, gives a plugin of a new class loader. -/
def FreshRetry (pluginDexPath : JavaString) (nativeLibPath : Option JavaString)
    (pluginClassName : JavaString) (arguments : Option JavaString) (flags : Int) (s : Manager) :
    Prop :=
  ∀ reply, ∃ s' p,
    appendPlugin cls pluginDexPath nativeLibPath pluginClassName arguments flags (.plugin true)
        reply s = (s', .plugin p) ∧
      (s'.plugins p).loader = s.loaders.length ∧ s'.loaders.length = s.loaders.length + 1

/-- The call does not throw, and when it reports `DEX_INIT_FAIL` both caches are as before and a
    retry loads the dex file with a fresh class loader. -/
def Harmless (pluginDexPath : JavaString) (nativeLibPath : Option JavaString)
    (pluginClassName : JavaString) (arguments : Option JavaString) (flags : Int) (s : Manager)
    (r : Manager × Appended) : Prop :=
  r.2 ≠ .threw ∧ (r.2 = .null DEX_INIT_FAIL →
    r.1.pluginCache = s.pluginCache ∧ r.1.classLoaderCache = s.classLoaderCache ∧
      FreshRetry cls pluginDexPath nativeLibPath pluginClassName arguments flags r.1)

/-- The plugin's `onConfigChange`, where the call reaches it, returns. -/
def Settles (p : Nat) (arguments : Option JavaString) (flags : Int) (reply : Reply)
    (s : Manager) : Prop :=
  flags ≠ (s.plugins p).object.flags ∨ arguments ≠ (s.plugins p).object.params →
    ((cls p).onConfigChange arguments flags reply
      { (s.plugins p).object with enable := true }).2 ≠ none

/-- The condition on the arguments, on the plugin code and on what is cached. -/
def Appendable (pluginDexPath : JavaString) (nativeLibPath : Option JavaString)
    (pluginClassName : JavaString) (arguments : Option JavaString) (flags : Int) (built : Built)
    (reply : Reply) (s : Manager) : Prop :=
  match s.pluginCache.lookup (generatePluginKey pluginDexPath pluginClassName) with
  | some p => Settles cls p arguments flags reply s
  | none => SliceFits nativeLibPath ∧ built = .plugin true

section Append

variable {cls} {d c : JavaString} {lib arguments : Option JavaString} {flags : Int} {built : Built}
  {reply : Reply} {s : Manager}

theorem modifyPluginConfig_threw_iff {p : Nat} :
    (modifyPluginConfig cls (some p) arguments flags reply
      (s.call .setEnable setEnable none p).1).2 = none ↔
      ¬ Settles cls p arguments flags reply s := by
  have hobject : ((s.call .setEnable setEnable none p).1.plugins p).object =
      { (s.plugins p).object with enable := true } := by
    simp [Manager.call, setEnable]
  unfold modifyPluginConfig Settles
  dsimp only
  rw [hobject]
  split
  · next h => simp [h, Manager.call, setEnable]
  · next h => simp [h]

theorem harmless_cached {p : Nat}
    (hlookup : s.pluginCache.lookup (generatePluginKey d c) = some p) :
    Harmless cls d lib c arguments flags s
        (appendPlugin cls d lib c arguments flags built reply s) ↔
      Settles cls p arguments flags reply s := by
  have hthrew := @modifyPluginConfig_threw_iff cls arguments flags reply s p
  conv_lhs => rw [appendPlugin, hlookup]
  dsimp only
  generalize modifyPluginConfig cls (some p) arguments flags reply
    (s.call .setEnable setEnable none p).1 = r at hthrew
  obtain ⟨s₁, result⟩ := r
  cases result with
  | none =>
    refine iff_of_false (fun h => h.1 rfl) ?_
    exact hthrew.mp rfl
  | some b =>
    refine iff_of_true ⟨by simp, fun h => ?_⟩ ?_
    · simp [DEX_ALREADY_LOAD, DEX_INIT_FAIL] at h
    · by_contra hno
      cases hthrew.mpr hno

/-- A call for a plugin that is not cached ends well, throws or reports `DEX_INIT_FAIL`. -/
theorem appended_fresh (hlookup : s.pluginCache.lookup (generatePluginKey d c) = none) :
    let r := (appendPlugin cls d lib c arguments flags built reply s).2
    (SliceFits lib ∧ built = .plugin true) ∧ r = .plugin s.made ∨
      ¬ (SliceFits lib ∧ built = .plugin true) ∧ (r = .threw ∨ r = .null DEX_INIT_FAIL) := by
  intro r
  have hr : r = (appendPlugin cls d lib c arguments flags built reply s).2 := rfl
  unfold appendPlugin at hr
  rw [← nativeLib_ne_none_iff]
  cases hlib : nativeLib lib with
  | none =>
    rw [hlookup, hlib] at hr
    exact Or.inr ⟨fun h => h.1 rfl, Or.inl hr⟩
  | some parts =>
    simp only [hlookup, hlib] at hr
    cases built with
    | unopened =>
      refine Or.inr ⟨by simp, ?_⟩
      split at hr
      · exact Or.inl hr
      · exact Or.inr hr
    | failed => exact Or.inr ⟨by simp, Or.inr hr⟩
    | plugin named =>
      cases named with
      | true =>
        have hmade : (s.loaderOf d parts.1).1.made = s.made := by
          unfold Manager.loaderOf
          split <;> rfl
        exact Or.inl ⟨⟨by simp, rfl⟩, hr.trans (congrArg Appended.plugin hmade)⟩
      | false => exact Or.inr ⟨by simp, Or.inr hr⟩

theorem lookup_of_failed
    (hfail : (appendPlugin cls d lib c arguments flags built reply s).2 = .null DEX_INIT_FAIL) :
    ∃ loader, (appendPlugin cls d lib c arguments flags built reply s).1.classLoaderCache.lookup d =
      some loader := by
  unfold appendPlugin at hfail ⊢
  cases hlookup : s.pluginCache.lookup (generatePluginKey d c) with
  | some p =>
    rw [hlookup] at hfail
    dsimp only at hfail
    split at hfail
    · cases hfail
    · simp [DEX_ALREADY_LOAD, DEX_INIT_FAIL] at hfail
  | none =>
    cases hlib : nativeLib lib with
    | none => simp [hlookup, hlib] at hfail
    | some parts =>
      have hloader := @lookup_loaderOf s d parts.1
      simp only [hlookup, hlib] at hfail
      dsimp only
      split at hfail
      · cases hfail
      · next hopens =>
        rw [if_neg hopens]
        cases built with
        | _ => exact ⟨_, hloader⟩

theorem appendPlugin_loaders {loader : Nat} (h : s.classLoaderCache.lookup d = some loader) :
    (appendPlugin cls d lib c arguments flags built reply s).1.loaders = s.loaders := by
  have hold : ∀ dir, s.loaderOf d dir = (s, loader) := by
    intro dir
    simp [Manager.loaderOf, h]
  have hchange := @appendPlugin_change cls s d lib c arguments flags built reply
  generalize (appendPlugin cls d lib c arguments flags built reply s).1 = s' at hchange
  cases hchange with
  | quiet hquiet => exact hquiet.loaders
  | loader => rw [hold]
  | plugin =>
    rw [hold]
    rfl

/-- After a failure a retry is given the class loader that is cached by then, also when the dex file
    has been replaced. -/
theorem retry_reuses_loader {lib' arguments' : Option JavaString} {flags' : Int} {built' : Built}
    {reply' : Reply}
    (hfail : (appendPlugin cls d lib c arguments flags built reply s).2 = .null DEX_INIT_FAIL) :
    (appendPlugin cls d lib' c arguments' flags' built' reply'
        (appendPlugin cls d lib c arguments flags built reply s).1).1.loaders =
      (appendPlugin cls d lib c arguments flags built reply s).1.loaders := by
  obtain ⟨loader, hloader⟩ := lookup_of_failed hfail
  exact appendPlugin_loaders hloader

theorem not_harmless_of_failed
    (hfail : (appendPlugin cls d lib c arguments flags built reply s).2 = .null DEX_INIT_FAIL) :
    ¬ Harmless cls d lib c arguments flags s
      (appendPlugin cls d lib c arguments flags built reply s) := by
  intro h
  obtain ⟨-, -, hretry⟩ := h.2 hfail
  obtain ⟨s', p, happend, -, hlength⟩ := hretry none
  have hsame := @retry_reuses_loader cls d c lib arguments flags built reply s lib arguments flags
    (.plugin true) none hfail
  rw [happend] at hsame
  rw [hsame] at hlength
  omega

theorem harmless_fresh (hlookup : s.pluginCache.lookup (generatePluginKey d c) = none) :
    Harmless cls d lib c arguments flags s
        (appendPlugin cls d lib c arguments flags built reply s) ↔
      SliceFits lib ∧ built = .plugin true := by
  rcases @appended_fresh cls d c lib arguments flags built reply s hlookup with
    ⟨hfits, hend⟩ | ⟨hno, hthrew | hfail⟩
  · exact iff_of_true ⟨by simp [hend], by simp [hend]⟩ hfits
  · exact iff_of_false (fun h => h.1 hthrew) hno
  · exact iff_of_false (not_harmless_of_failed hfail) hno

/-- **When an append that fails is harmless**, for all arguments, plugin code and states. -/
theorem appendPlugin_harmless_iff (cls : Nat → Lifecycle) (pluginDexPath : JavaString)
    (nativeLibPath : Option JavaString) (pluginClassName : JavaString)
    (arguments : Option JavaString) (flags : Int) (built : Built) (reply : Reply) (s : Manager) :
    Harmless cls pluginDexPath nativeLibPath pluginClassName arguments flags s
        (appendPlugin cls pluginDexPath nativeLibPath pluginClassName arguments flags built
          reply s) ↔
      Appendable cls pluginDexPath nativeLibPath pluginClassName arguments flags built reply s := by
  unfold Appendable
  split
  · next p hlookup => exact harmless_cached hlookup
  · next hlookup => exact harmless_fresh hlookup

end Append

/-- The class cannot be loaded; then it can. -/
theorem failed_append_keeps_loader : ∃ s s' p,
    appendPlugin (fun _ => Lifecycle.base) ['d'] none ['c'] none 0 .failed (some true)
        Manager.start = (s, .null DEX_INIT_FAIL) ∧
      s.classLoaderCache.lookup ['d'] ≠ Manager.start.classLoaderCache.lookup ['d'] ∧
      appendPlugin (fun _ => Lifecycle.base) ['d'] none ['c'] none 0 (.plugin true) (some true) s =
        (s', .plugin p) ∧
      s'.loaders = s.loaders ∧ (s'.plugins p).loader = 0 := by
  refine ⟨_, _, _, rfl, ?_, rfl, rfl, rfl⟩
  decide

/-- A library path of five characters without a slash makes the call throw. -/
example :
    (appendPlugin (fun _ => Lifecycle.base) ['d'] (some ['l', 'i', 'b', 's', 'o']) ['c'] none 0
      (.plugin true) (some true) Manager.start).2 = .threw := rfl

end Albatross.Plugins
