/-
  Albatross/PluginHandles.lean
  ============================
  **What a plugin handle stands for** (`device.py`: `AlbatrossDevice.register_plugin`, with
  `Plugin.create` of `plugin.py`).

  A handle is the one `Plugin` object of its dex file: registering the file again, with
  another class too, changes the object and returns it.  So a handle stands for the last
  registration of its file (`handles_keep_meaning`).  On the device a file lies under its
  base name, so two handles have the same path there exactly when their files have the same
  base name.

  A call carries what it meets: the working directory, whether the files exist, what the
  pushes return, and what the device answers.  The `random` naming of the plugin library is
  left out.
-/
import Albatross.PluginRegistry

namespace Albatross.PluginHandles

open Assoc PluginRegistry

/-- `posixpath.basename`. -/
def basename (path : Path) : Path := (path.reverse.takeWhile (· ≠ '/')).reverse

/-- `Configuration.app_plugin_home` and the library directories of the device. -/
structure Dirs where
  app_plugin_home : Path
  lib_dir : Path
  lib32_dir : Path

/-- A call of `register_plugin`.  `pushDex` and `pushLib` are what `push_file` returns, `none` when
    it raises; `registered` says that `client.register_plugin` returns, and `deviceId` what
    `client.get_plugin_id` does, `none` when it raises. -/
structure Call where
  plugin_dex : Path
  plugin_class : List Char
  plugin_params : Option (List Char)
  plugin_flags : Int
  plugin_lib : Option Path
  cwd : Path
  generate_id : Bool
  dexExists : Bool
  pushDex : Option Bool
  libExists : Bool
  pushLib : Option Bool
  registered : Bool
  deviceId : Option Int

/-- The class `Plugin` with its objects, and the two attributes that are set on them later. -/
structure Host where
  cls : PluginRegistry.State
  dex_device_dst : Nat → Option Path
  plugin_updated : Nat → Bool

def Host.start : Host := ⟨.start, fun _ => none, fun _ => false⟩

/-- The block `if plugin_lib:`, with the library's path on the device and whether it was pushed;
    `none` when it raises. -/
def Call.deviceLib (dirs : Dirs) (c : Call) : Option (Option Path × Bool) :=
  match c.plugin_lib with
  | none => some (none, false)
  | some [] => some (some [], false)
  | some lib =>
      if c.libExists then
        let dir := if ['6', '4'] <:+: lib then dirs.lib_dir else dirs.lib32_dir
        c.pushLib.map fun pushed => (some (dir ++ basename lib), pushed)
      else none

def Call.dst (dirs : Dirs) (c : Call) : Path := dirs.app_plugin_home ++ basename c.plugin_dex

/-- The attributes that the end of a call sets. -/
def Host.finish (s : Host) (plugin : Nat) (dst : Path) (isUpdate : Bool) : Host :=
  { s with
    dex_device_dst := Function.update s.dex_device_dst plugin (some dst)
    plugin_updated :=
      if isUpdate then Function.update s.plugin_updated plugin true else s.plugin_updated }

/-- `plugin.plugin_id = plugin_id`. -/
def Host.setId (s : Host) (plugin : Nat) (id : Int) : Host :=
  { s with cls := { s.cls with
      plugins := s.cls.plugins.modify plugin fun p => { p with plugin_id := id } } }

def Host.pluginId (s : Host) (plugin : Nat) : Int :=
  (s.cls.plugins[plugin]?.map Plugin.plugin_id).getD nil_plugin_id

-- the directories on the device, and `os.path.abspath` on the host
variable (dirs : Dirs) (abspath : Path → Path → Path)

def Call.file (c : Call) : Path := abspath c.cwd c.plugin_dex

/-- `register_plugin`: the handle it returns, `none` when it raises. -/
def registerPlugin (c : Call) (s : Host) : Option Nat × Host :=
  if !c.dexExists then (none, s)
  else
    match c.pushDex, c.deviceLib dirs with
    | some pushed, some (lib, pushedLib) =>
        match create abspath ⟨c.cwd, c.generate_id⟩
          ⟨c.plugin_dex, c.plugin_class, lib, c.plugin_params, c.plugin_flags⟩ s.cls with
        | (none, cls) => (none, { s with cls := cls })
        | (some plugin, cls) =>
            let s := { s with cls := cls }
            if !c.registered then (none, s)
            else if s.pluginId plugin = nil_plugin_id then
              match c.deviceId with
              | none => (none, s)
              | some id =>
                  (some plugin,
                    (s.setId plugin id).finish plugin (c.dst dirs) (pushed || pushedLib))
            else (some plugin, s.finish plugin (c.dst dirs) (pushed || pushedLib))
    | _, _ => (none, s)

/-- The call gets as far as `Plugin.create`. -/
def Call.Creates (c : Call) : Prop :=
  c.dexExists = true ∧ c.pushDex.isSome = true ∧ (c.deviceLib dirs).isSome = true

instance (c : Call) : Decidable (c.Creates dirs) :=
  inferInstanceAs (Decidable (_ ∧ _ ∧ _))

def after (s : Host) (calls : List Call) : Host :=
  calls.foldl (fun s c => (registerPlugin dirs abspath c s).2) s

/-! ### The registry under registrations -/

/-- The class, class parameters and flags of the object are those of the call. -/
structure Denotes (plugin : Plugin) (c : Call) : Prop where
  plugin_class : plugin.plugin_class = c.plugin_class
  plugin_params : plugin.plugin_params = c.plugin_params
  plugin_flags : plugin.plugin_flags = c.plugin_flags

/-- The registry can be read, and has an object of its own for each file. -/
structure Good (t : PluginRegistry.State) : Prop where
  wellFormed : WellFormed t
  attr : t.plugin_tables ≠ none
  inj : ∀ k k' h, (registry t).lookup k = some h → (registry t).lookup k' = some h → k = k'
  bound : ∀ k h, (registry t).lookup k = some h → h < t.plugins.length

theorem good_start : Good .start where
  wellFormed := ⟨fun d h => (by cases h), fun _ => rfl⟩
  attr := nofun
  inj _ _ _ h := by cases h
  bound _ _ h := by cases h

/-- What `Plugin.create` does to the class: the object of the file, which stays the same, denotes
    the call, and the entries and objects of other files stay as they are. -/
structure Registered (t t' : PluginRegistry.State) (file : Path) (h : Nat) (c : Call) : Prop where
  good : Good t'
  found : (registry t').lookup file = some h
  kept : ∀ h', (registry t).lookup file = some h' → h' = h
  denotes : ∃ plugin, t'.plugins[h]? = some plugin ∧ Denotes plugin c
  entries : ∀ k, k ≠ file → (registry t').lookup k = (registry t).lookup k
  objects : ∀ k h', k ≠ file → (registry t).lookup k = some h' → t'.plugins[h']? = t.plugins[h']?

section Create

variable {abspath} {t t' : PluginRegistry.State} {found : Found} {args : Args} {c : Call} {h : Nat}
  {file : Path}

/-- The arguments that `register_plugin` passes on from the call. -/
structure Passes (args : Args) (c : Call) : Prop where
  plugin_class : args.plugin_class = c.plugin_class
  plugin_params : args.plugin_params = c.plugin_params
  plugin_flags : args.plugin_flags = c.plugin_flags

theorem create_registered (ht : Good t) (hargs : Passes args c) :
    ∃ h t', create abspath found args t = (some h, t') ∧
      Registered t t' (abspath found.cwd args.plugin_dex) h c := by
  cases hfind : (registry t).lookup (abspath found.cwd args.plugin_dex) with
  | some h =>
    obtain ⟨t', hcreate, hwell, hattr, hreg, hplugins⟩ :=
      create_of_some ht.wellFormed ht.attr hfind
    refine ⟨h, t', hcreate, ⟨⟨hwell, hattr, ?_, ?_⟩, ?_, ?_, ?_, ?_, ?_⟩⟩
    · rw [hreg]
      exact ht.inj
    · rw [hreg, hplugins, List.length_modify]
      exact ht.bound
    · rw [hreg]
      exact hfind
    · exact fun h' hold => Option.some.inj (hold.symm.trans hfind)
    · have hbound := ht.bound _ h hfind
      refine ⟨.update args t.plugins[h], ?_, ?_⟩
      · rw [hplugins, List.getElem?_modify_eq, List.getElem?_eq_getElem hbound]
        rfl
      · exact ⟨hargs.plugin_class, hargs.plugin_params, hargs.plugin_flags⟩
    · exact fun k _ => by rw [hreg]
    · intro k h' hk hold
      have hne : h ≠ h' := fun heq => hk (ht.inj _ _ h (heq ▸ hold) hfind)
      rw [hplugins, List.getElem?_modify_ne _ _ hne]
  | none =>
    obtain ⟨t', plugin_id, hcreate, hwell, hattr, hreg, hplugins⟩ :=
      create_of_lookup_none ht.wellFormed ht.attr hfind
    have hnew : ∀ k, (registry t).lookup k ≠ some t.plugins.length :=
      fun k hold => absurd (ht.bound k _ hold) (Nat.lt_irrefl _)
    refine ⟨_, t', hcreate, ⟨⟨hwell, hattr, ?_, ?_⟩, ?_, ?_, ?_, ?_, ?_⟩⟩
    · rw [hreg]
      intro k k' h hk hk'
      rcases lookup_insert_eq_some.mp hk with ⟨rfl, rfl⟩ | ⟨-, hold⟩
      · rcases lookup_insert_eq_some.mp hk' with ⟨rfl, -⟩ | ⟨-, hold'⟩
        · rfl
        · exact absurd hold' (hnew k')
      · rcases lookup_insert_eq_some.mp hk' with ⟨-, rfl⟩ | ⟨-, hold'⟩
        · exact absurd hold (hnew k)
        · exact ht.inj k k' h hold hold'
    · rw [hreg, hplugins, List.length_append]
      intro k h hk
      rcases lookup_insert_eq_some.mp hk with ⟨-, rfl⟩ | ⟨-, hold⟩
      · exact Nat.lt_succ_self _
      · exact Nat.lt_succ_of_lt (ht.bound k h hold)
    · rw [hreg, AList.lookup_insert]
    · intro h' hold
      rw [hfind] at hold
      cases hold
    · refine ⟨_, by rw [hplugins, List.getElem?_concat_length], ?_⟩
      exact ⟨hargs.plugin_class, hargs.plugin_params, hargs.plugin_flags⟩
    · intro k hk
      rw [hreg, AList.lookup_insert_ne hk]
    · intro k h' hk hold
      rw [hplugins, List.getElem?_append_left (ht.bound k h' hold)]

theorem registry_plugins (t : PluginRegistry.State) (plugins : List Plugin) :
    registry { t with plugins := plugins } = registry t := by
  unfold registry getattr dunderGet
  cases t.plugin_tables with
  | none => rfl
  | some attr =>
    cases attr with
    | value d => rfl
    | cached_class_property => cases t.v <;> rfl

theorem Registered.setId (hreg : Registered t t' file h c) (id : Int) :
    Registered t { t' with plugins := t'.plugins.modify h fun p => { p with plugin_id := id } }
      file h c := by
  have hsame := registry_plugins t' (t'.plugins.modify h fun p => { p with plugin_id := id })
  refine ⟨⟨⟨hreg.good.wellFormed.dict, hreg.good.wellFormed.descriptor⟩, hreg.good.attr, ?_, ?_⟩,
    ?_, hreg.kept, ?_, ?_, ?_⟩
  · rw [hsame]
    exact hreg.good.inj
  · rw [hsame, List.length_modify]
    exact hreg.good.bound
  · rw [hsame]
    exact hreg.found
  · obtain ⟨plugin, hplugin, hdenotes⟩ := hreg.denotes
    refine ⟨{ plugin with plugin_id := id }, ?_, ⟨hdenotes.1, hdenotes.2, hdenotes.3⟩⟩
    rw [List.getElem?_modify_eq, hplugin]
    rfl
  · rw [hsame]
    exact hreg.entries
  · intro k h' hk hold
    have hne : h ≠ h' := by
      rintro rfl
      exact hk (hreg.good.inj _ _ h ((hreg.entries k hk).trans hold) hreg.found)
    rw [List.getElem?_modify_ne _ _ hne]
    exact hreg.objects k h' hk hold

/-- What a registration does: nothing before `Plugin.create`, and then it leaves the object of the
    file with its own meaning, and with its path on the device when it returns. -/
theorem registerPlugin_spec {s : Host} (hs : Good s.cls) (c : Call) :
    (¬ c.Creates dirs ∧ registerPlugin dirs abspath c s = (none, s)) ∨
      (c.Creates dirs ∧ ∃ h,
        Registered s.cls (registerPlugin dirs abspath c s).2.cls (c.file abspath) h c ∧
        ((registerPlugin dirs abspath c s).1 = none ∧
            (registerPlugin dirs abspath c s).2.dex_device_dst = s.dex_device_dst ∨
          (registerPlugin dirs abspath c s).1 = some h ∧
            (registerPlugin dirs abspath c s).2.dex_device_dst =
              Function.update s.dex_device_dst h (some (c.dst dirs)))) := by
  unfold registerPlugin Call.Creates
  cases hexists : c.dexExists with
  | false => exact Or.inl ⟨nofun, rfl⟩
  | true =>
    cases hpush : c.pushDex with
    | none => exact Or.inl ⟨nofun, rfl⟩
    | some pushed =>
      cases hlib : c.deviceLib dirs with
      | none => exact Or.inl ⟨nofun, rfl⟩
      | some lib =>
        obtain ⟨lib, pushedLib⟩ := lib
        refine Or.inr ⟨⟨rfl, rfl, rfl⟩, ?_⟩
        obtain ⟨h, t, hcreate, hreg⟩ := @create_registered abspath s.cls ⟨c.cwd, c.generate_id⟩
          ⟨c.plugin_dex, c.plugin_class, lib, c.plugin_params, c.plugin_flags⟩ c hs ⟨rfl, rfl, rfl⟩
        refine ⟨h, ?_⟩
        simp only [Bool.not_true, Bool.false_eq_true, if_false]
        rw [hcreate]
        dsimp only
        cases c.registered with
        | false => exact ⟨hreg, Or.inl ⟨rfl, rfl⟩⟩
        | true =>
          simp only [Bool.not_true, Bool.false_eq_true, if_false]
          split
          · cases c.deviceId with
            | none => exact ⟨hreg, Or.inl ⟨rfl, rfl⟩⟩
            | some id => exact ⟨hreg.setId id, Or.inr ⟨rfl, rfl⟩⟩
          · exact ⟨hreg, Or.inr ⟨rfl, rfl⟩⟩

end Create

/-! ### Histories -/

/-- The last call for the file that got as far as `Plugin.create`, starting from `c`. -/
def latest (file : Path) (c : Call) (later : List Call) : Call :=
  later.foldl (fun last d => if d.Creates dirs ∧ d.file abspath = file then d else last) c

/-- The call returns the handle when it comes after the history. -/
def Returns (past : List Call) (c : Call) (h : Nat) : Prop :=
  (registerPlugin dirs abspath c (after dirs abspath .start past)).1 = some h

/-- In the history the call returns the handle, and no later call for its file returns. -/
def LastReturn (calls : List Call) (c : Call) (h : Nat) : Prop :=
  ∃ past later, calls = past ++ c :: later ∧ Returns dirs abspath past c h ∧
    ∀ mid d rest, later = mid ++ d :: rest → d.file abspath = c.file abspath →
      ∀ h', ¬ Returns dirs abspath (past ++ c :: mid) d h'

/-- The handle is that of the file, and denotes the call. -/
structure Stands (file : Path) (h : Nat) (c : Call) (s : Host) : Prop where
  good : Good s.cls
  found : (registry s.cls).lookup file = some h
  denotes : ∃ plugin, s.cls.plugins[h]? = some plugin ∧ Denotes plugin c

section Histories

variable {dirs abspath} {s : Host} {file : Path} {h : Nat} {c : Call}

theorem after_append (s : Host) (past later : List Call) :
    after dirs abspath s (past ++ later) = after dirs abspath (after dirs abspath s past) later :=
  List.foldl_append ..

theorem after_cons (s : Host) (d : Call) (later : List Call) :
    after dirs abspath s (d :: later) =
      after dirs abspath (registerPlugin dirs abspath d s).2 later := rfl

theorem good_registerPlugin (hs : Good s.cls) (d : Call) :
    Good (registerPlugin dirs abspath d s).2.cls := by
  rcases @registerPlugin_spec dirs abspath s hs d with ⟨-, hsame⟩ | ⟨-, h, hreg, -⟩
  · rw [hsame]
    exact hs
  · exact hreg.good

theorem good_after (calls : List Call) : ∀ {s : Host}, Good s.cls →
    Good (after dirs abspath s calls).cls := by
  induction calls with
  | nil => exact fun hs => hs
  | cons d calls ih => exact fun hs => ih (good_registerPlugin hs d)

/-- The step: a call for the same file takes the handle over, and any other leaves it. -/
theorem Stands.registerPlugin (hs : Stands file h c s) (d : Call) :
    Stands file h (if d.Creates dirs ∧ d.file abspath = file then d else c)
      (registerPlugin dirs abspath d s).2 := by
  rcases @registerPlugin_spec dirs abspath s hs.good d with
    ⟨hno, hsame⟩ | ⟨hcreates, h', hreg, -⟩
  · rw [hsame, if_neg fun hd => hno hd.1]
    exact hs
  · by_cases hfile : d.file abspath = file
    · rw [if_pos ⟨hcreates, hfile⟩]
      subst hfile
      rw [hreg.kept h hs.found]
      exact ⟨hreg.good, hreg.found, hreg.denotes⟩
    · rw [if_neg fun hd => hfile hd.2]
      have hne : file ≠ d.file abspath := fun heq => hfile heq.symm
      refine ⟨hreg.good, ?_, ?_⟩
      · rw [hreg.entries file hne]
        exact hs.found
      · rw [hreg.objects file h hne hs.found]
        exact hs.denotes

/-- The run: after any calls the handle denotes the latest one for its file. -/
theorem Stands.after (later : List Call) : ∀ {c : Call} {s : Host}, Stands file h c s →
    Stands file h (latest dirs abspath file c later) (after dirs abspath s later) := by
  induction later with
  | nil => exact fun hs => hs
  | cons d later ih => exact fun hs => ih (hs.registerPlugin d)

theorem Returns.stands {past : List Call} (h' : Returns dirs abspath past c h) :
    Stands (c.file abspath) h c (PluginHandles.after dirs abspath .start (past ++ [c])) ∧
      (PluginHandles.after dirs abspath .start (past ++ [c])).dex_device_dst h =
        some (c.dst dirs) := by
  have hgood : Good (PluginHandles.after dirs abspath .start past).cls := good_after past good_start
  rw [after_append, after_cons]
  rcases @registerPlugin_spec dirs abspath _ hgood c with
    ⟨-, hsame⟩ | ⟨-, h₁, hreg, ⟨hnone, -⟩ | ⟨hsome, hdst⟩⟩
  · rw [Returns, hsame] at h'
    cases h'
  · rw [Returns, hnone] at h'
    cases h'
  · rw [Returns, hsome] at h'
    cases h'
    refine ⟨⟨hreg.good, hreg.found, hreg.denotes⟩, ?_⟩
    show (registerPlugin dirs abspath c _).2.dex_device_dst h = _
    rw [hdst, Function.update_self]

/-- A call for another file, or one that does not return, leaves a handle's path on the device. -/
theorem Stands.dst_registerPlugin (hs : Stands file h c s) (d : Call)
    (hother : d.file abspath = file → (PluginHandles.registerPlugin dirs abspath d s).1 = none) :
    (PluginHandles.registerPlugin dirs abspath d s).2.dex_device_dst h = s.dex_device_dst h := by
  rcases @registerPlugin_spec dirs abspath s hs.good d with
    ⟨-, hsame⟩ | ⟨-, h', hreg, ⟨-, hdst⟩ | ⟨hsome, hdst⟩⟩
  · rw [hsame]
  · rw [hdst]
  · have hfile : file ≠ d.file abspath := by
      intro heq
      rw [hother heq.symm] at hsome
      cases hsome
    -- another file has another object
    have hne : h ≠ h' := by
      rintro rfl
      have hfound := hreg.entries file hfile
      rw [hs.found] at hfound
      exact hfile (hreg.good.inj _ _ h hfound hreg.found)
    rw [hdst, Function.update_of_ne hne]

theorem Stands.dst_after (later : List Call) : ∀ {c : Call} {s : Host}, Stands file h c s →
    (∀ mid d rest, later = mid ++ d :: rest → d.file abspath = file →
      (PluginHandles.registerPlugin dirs abspath d (PluginHandles.after dirs abspath s mid)).1 =
        none) →
    (PluginHandles.after dirs abspath s later).dex_device_dst h = s.dex_device_dst h := by
  induction later with
  | nil => exact fun _ _ => rfl
  | cons d later ih =>
    intro c s hs hnone
    rw [after_cons, ih (hs.registerPlugin d) fun mid e rest hlater =>
      hnone (d :: mid) e rest (by rw [hlater, List.cons_append])]
    exact hs.dst_registerPlugin d (hnone [] d later rfl)

/-- A handle that no later call returns has the path of the call that returned it. -/
theorem LastReturn.dst {calls : List Call} (hlast : LastReturn dirs abspath calls c h) :
    (PluginHandles.after dirs abspath .start calls).dex_device_dst h = some (c.dst dirs) := by
  obtain ⟨past, later, rfl, hreturns, hnone⟩ := hlast
  obtain ⟨hstands, hdst⟩ := hreturns.stands
  have hsplit : ∀ mid, PluginHandles.after dirs abspath .start (past ++ c :: mid) =
      PluginHandles.after dirs abspath
        (PluginHandles.after dirs abspath .start (past ++ [c])) mid := by
    intro mid
    rw [← after_append, List.append_assoc]
    rfl
  rw [hsplit, hstands.dst_after later ?_, hdst]
  intro mid d rest hlater hfile
  rw [← hsplit]
  exact Option.eq_none_iff_forall_ne_some.mpr (hnone mid d rest hlater hfile)

/-- With no later call for its file the latest is the one it was returned by. -/
theorem latest_of_forall_ne {later : List Call}
    (hother : ∀ d ∈ later, d.Creates dirs → d.file abspath ≠ file) :
    latest dirs abspath file c later = c := by
  induction later with
  | nil => rfl
  | cons d later ih =>
    obtain ⟨hd, hlater⟩ := List.forall_mem_cons.mp hother
    unfold latest
    rw [List.foldl_cons, if_neg fun h => hd h.1 h.2]
    exact ih hlater

end Histories

/-- **What handles mean**, in every history of registrations: a handle denotes the latest call for
    its dex file, hence the call that returned it as long as later ones are for other files;
    and the handles of two files have different paths on the device exactly when the files'
    base names differ. -/
theorem handles_keep_meaning (dirs : Dirs) (abspath : Path → Path → Path) (calls : List Call) :
    (∀ past c later h, calls = past ++ c :: later → Returns dirs abspath past c h →
      ∃ plugin, (after dirs abspath .start calls).cls.plugins[h]? = some plugin ∧
        Denotes plugin (latest dirs abspath (c.file abspath) c later) ∧
        ((∀ d ∈ later, d.Creates dirs → d.file abspath ≠ c.file abspath) → Denotes plugin c)) ∧
    ∀ c₁ h₁ c₂ h₂, LastReturn dirs abspath calls c₁ h₁ → LastReturn dirs abspath calls c₂ h₂ →
      c₁.file abspath ≠ c₂.file abspath →
        ((after dirs abspath .start calls).dex_device_dst h₁ ≠
            (after dirs abspath .start calls).dex_device_dst h₂ ↔
          basename c₁.plugin_dex ≠ basename c₂.plugin_dex) := by
  constructor
  · rintro past c later h rfl hreturns
    have hstands : Stands (c.file abspath) h (latest dirs abspath (c.file abspath) c later)
        (after dirs abspath (after dirs abspath .start (past ++ [c])) later) :=
      hreturns.stands.1.after later
    rw [← after_append, List.append_assoc] at hstands
    obtain ⟨plugin, hplugin, hdenotes⟩ := hstands.denotes
    refine ⟨plugin, hplugin, hdenotes, fun hother => ?_⟩
    rw [latest_of_forall_ne hother] at hdenotes
    exact hdenotes
  · intro c₁ h₁ c₂ h₂ hlast₁ hlast₂ _
    rw [hlast₁.dst, hlast₂.dst, not_iff_not, Option.some.injEq, Call.dst, Call.dst]
    exact List.append_right_inj _

def sampleDirs : Dirs := ⟨"/data/dalvik-cache/".toList, "/lib64/".toList, "/lib/".toList⟩

/-- A registration that meets no failure, with id 7 from the device. -/
def registration (plugin_dex plugin_class : String) : Call :=
  ⟨plugin_dex.toList, plugin_class.toList, none, 0, none, "/srv".toList, false, true,
    some true, true, some true, true, some 7⟩

theorem handles_keep_meaning_two :
    let a := registration "/srv/a.dex" "A"
    let b := registration "/srv/b.dex" "B"
    let s := after sampleDirs posixpath.abspath .start [a, b]
    (∃ plugin, s.cls.plugins[0]? = some plugin ∧ Denotes plugin a) ∧
      (s.dex_device_dst 0 ≠ s.dex_device_dst 1 ↔
        basename a.plugin_dex ≠ basename b.plugin_dex) := by
  intro a b s
  have hfirst : Returns sampleDirs posixpath.abspath [] a 0 := by
    show (registerPlugin sampleDirs posixpath.abspath a .start).1 = some 0
    decide +kernel
  have hsecond : Returns sampleDirs posixpath.abspath [a] b 1 := by
    show (registerPlugin sampleDirs posixpath.abspath b
      (after sampleDirs posixpath.abspath .start [a])).1 = some 1
    decide +kernel
  have hfiles : b.file posixpath.abspath ≠ a.file posixpath.abspath := by decide +kernel
  have hother : ∀ d ∈ [b], d.Creates sampleDirs →
      d.file posixpath.abspath ≠ a.file posixpath.abspath := by
    intro d hd _
    rw [List.mem_singleton.mp hd]
    exact hfiles
  have hmeaning := handles_keep_meaning sampleDirs posixpath.abspath [a, b]
  constructor
  · obtain ⟨plugin, hplugin, -, hdenotes⟩ := hmeaning.1 [] a [b] 0 rfl hfirst
    exact ⟨plugin, hplugin, hdenotes hother⟩
  · refine hmeaning.2 a 0 b 1 ⟨[], [b], rfl, hfirst, ?_⟩ ⟨[a], [], rfl, hsecond, ?_⟩ hfiles.symm
    · intro mid d rest hlater hfile
      have hd : d ∈ [b] := hlater ▸ List.mem_append_right mid List.mem_cons_self
      rw [List.mem_singleton.mp hd] at hfile
      exact absurd hfile hfiles
    · intro mid d rest hlater
      simp at hlater

/-- A second class of one dex file takes over the first one's handle, and two files with one base
    name get one path on the device. -/
theorem handles_lose_meaning :
    let first := registration "/srv/a.dex" "A"
    let second := registration "/srv/a.dex" "B"
    let other := registration "/tmp/a.dex" "A"
    let s := after sampleDirs posixpath.abspath .start [first, second, other]
    Returns sampleDirs posixpath.abspath [] first 0 ∧
      (s.cls.plugins[0]?.map fun plugin => plugin.plugin_class) = some "B".toList ∧
      Returns sampleDirs posixpath.abspath [first, second] other 1 ∧
      first.file posixpath.abspath ≠ other.file posixpath.abspath ∧
      s.dex_device_dst 0 = s.dex_device_dst 1 := by
  unfold Returns
  decide +kernel

end Albatross.PluginHandles
