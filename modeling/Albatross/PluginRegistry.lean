/-
  Albatross/PluginRegistry.lean
  =============================
  **The registry of plugins on the host** (`plugin.py`: `Plugin.create`, `clear_plugin`;
  `wrapper.py`: `cached_class_property`).

  The registry is a dictionary that a descriptor makes at the first access and puts into
  the class in its own place.  `clear_plugin` takes the attribute out of the class, and
  with it whichever of the two stood there.  No later access brings it back, so
  `Plugin.create` works exactly as long as nothing has been cleared
  (`create_registers_iff`).

  The class is `Plugin` itself, which has no subclass.  Paths are lists of characters.
-/
import Albatross.Assoc
import Albatross.Separated
import Mathlib.Data.List.Dedup
import Mathlib.Data.List.Perm.Lattice

namespace Albatross.PluginRegistry

open Assoc

abbrev Path := List Char

/-! ### `posixpath` -/

namespace posixpath

def join (a b : Path) : Path :=
  if b.head? = some '/' then b
  else if a = [] ∨ a.getLast? = some '/' then a ++ b
  else a ++ '/' :: b

/-- The loop of `normpath` over the components; the last one kept comes first. -/
def kept (initial_slashes : Nat) : List Path → List Path → List Path
  | new_comps, [] => new_comps
  | new_comps, comp :: comps =>
      if comp = [] ∨ comp = ['.'] then kept initial_slashes new_comps comps
      else if comp ≠ ['.', '.'] ∨ (initial_slashes = 0 ∧ new_comps = []) ∨
          new_comps.head? = some ['.', '.'] then
        kept initial_slashes (comp :: new_comps) comps
      else kept initial_slashes new_comps.tail comps

def initialSlashes (path : Path) : Nat :=
  if ¬ ['/'] <+: path then 0
  else if ['/', '/'] <+: path ∧ ¬ ['/', '/', '/'] <+: path then 2
  else 1

def normpath (path : Path) : Path :=
  let comps := Separated.leading '/' path :: Separated.items '/' path
  let new_comps := (kept (initialSlashes path) [] comps).reverse
  let normal := List.replicate (initialSlashes path) '/' ++ ['/'].intercalate new_comps
  if normal = [] then ['.'] else normal

def abspath (cwd path : Path) : Path := normpath (join cwd path)

example : abspath "/home/me".toList "../you//./a.dex".toList = "/home/you/a.dex".toList := by
  decide

end posixpath

/-! ### The class -/

/-- A `Plugin` object. -/
structure Plugin where
  plugin_id : Int
  plugin_dex : Path
  plugin_class : List Char
  plugin_lib : Option (List Char)
  plugin_params : Option (List Char)
  plugin_flags : Int

/-- What stands under `plugin_tables` in `Plugin.__dict__`: the descriptor, or a dictionary. -/
inductive ClassAttr where
  | cached_class_property
  | value (dict : Nat)
deriving DecidableEq

/-- `v` is the field of the descriptor.  Dictionaries and plugins are objects, numbered as they are
    made. -/
structure State where
  plugin_tables : Option ClassAttr
  v : Option Nat
  dicts : List (Dict Path Nat)
  plugins : List Plugin

def State.start : State := ⟨some .cached_class_property, none, [], []⟩

def State.dict (s : State) (d : Nat) : Dict Path Nat := s.dicts[d]?.getD ∅

/-- The arguments of `Plugin.create`. -/
structure Args where
  plugin_dex : Path
  plugin_class : List Char
  plugin_lib : Option (List Char)
  plugin_params : Option (List Char)
  plugin_flags : Int

/-- What `create` finds: the working directory and `Plugin.generate_id`. -/
structure Found where
  cwd : Path
  generate_id : Bool

def nil_plugin_id : Int := -100

/-- `cached_class_property.__get__(None, Plugin)`, with `plugin_tables` for its function. -/
def dunderGet (s : State) : Nat × State :=
  match s.v with
  | none =>
      let v := s.dicts.length
      (v, { s with
        plugin_tables := some (.value v)
        v := some v
        dicts := s.dicts ++ [∅] })
  | some v => (v, { s with plugin_tables := some (.value v) })

/-- `Plugin.plugin_tables`; `none` when it raises `AttributeError`. -/
def getattr (s : State) : Option Nat × State :=
  match s.plugin_tables with
  | none => (none, s)
  | some (.value d) => (some d, s)
  | some .cached_class_property => ((dunderGet s).1, (dunderGet s).2)

/-- `cached_class_property.pop(Plugin, "plugin_tables")`; `hasattr` is an access of its own. -/
def pop (s : State) : Option Nat × State :=
  match getattr s with
  | (none, s) => (none, s)
  | (some _, s) =>
      match getattr s with
      | (none, s) => (none, s)
      | (some v, s) => (some v, { s with plugin_tables := none })

/-- `clear_plugin()`. -/
def clear_plugin (s : State) : State :=
  match pop s with
  | (none, s) => s
  | (some d, s) => { s with dicts := s.dicts.modify d fun _ => ∅ }

/-- `plugin_tables[file_path_abs] = plugin`. -/
def State.store (s : State) (d : Nat) (file_path_abs : Path) (plugin : Plugin) : State :=
  { s with
    dicts :=
      s.dicts.modify d fun plugin_tables => plugin_tables.insert file_path_abs s.plugins.length
    plugins := s.plugins ++ [plugin] }

def Plugin.update (args : Args) (plugin : Plugin) : Plugin :=
  { plugin with
    plugin_class := args.plugin_class
    plugin_lib := args.plugin_lib
    plugin_params := args.plugin_params
    plugin_flags := args.plugin_flags }

-- `os.path.abspath` of the working directory and a path: `posixpath.abspath`, or what it is on
-- another system.
variable (abspath : Path → Path → Path)

/-- `Plugin.create`; `none` when it raises `AttributeError`. -/
def create (found : Found) (args : Args) (s : State) : Option Nat × State :=
  let file_path_abs := abspath found.cwd args.plugin_dex
  match getattr s with
  | (none, s) => (none, s)
  | (some d, s) =>
      match (s.dict d).lookup file_path_abs with
      | some plugin => (some plugin, { s with plugins := s.plugins.modify plugin (.update args) })
      | none =>
          let plugin_id :=
            if found.generate_id then ((s.dict d).keys.length : Int) else nil_plugin_id
          let plugin : Plugin := ⟨plugin_id, args.plugin_dex, args.plugin_class, args.plugin_lib,
            args.plugin_params, args.plugin_flags⟩
          (some s.plugins.length, s.store d file_path_abs plugin)

inductive Op where
  | create (found : Found) (args : Args)
  | clear_plugin

def step (s : State) : Op → State
  | .create found args => (create abspath found args s).2
  | .clear_plugin => clear_plugin s

/-- The state after a history; a `create` that raises leaves it as it is. -/
def after (past : List Op) : State := past.foldl (step abspath) .start

def registry (s : State) : Dict Path Nat :=
  match getattr s with
  | (none, _) => ∅
  | (some d, s) => s.dict d

/-- The absolute paths created since the last `clear_plugin`. -/
def created (past : List Op) : List Path :=
  past.foldl
    (fun paths op =>
      match op with
      | .create found args => paths ++ [abspath found.cwd args.plugin_dex]
      | .clear_plugin => [])
    []

/-- After `past`, `create` returns the object stored under its path, and the registry has one entry
    for each path. -/
def Registers (past : List Op) (found : Found) (args : Args) : Prop :=
  let result := create abspath found args (after abspath past)
  result.1 ≠ none ∧
    (registry result.2).lookup (abspath found.cwd args.plugin_dex) = result.1 ∧
    (registry result.2).keys.Perm (created abspath (past ++ [.create found args])).dedup

/-! ### Reading the attribute -/

section Reading

variable {s : State}

/-- The dictionary in the class exists; while the descriptor is there, it has made none. -/
structure WellFormed (s : State) : Prop where
  dict : ∀ d, s.plugin_tables = some (.value d) → d < s.dicts.length
  descriptor : s.plugin_tables = some .cached_class_property → s.v = none

theorem registry_of_value {d : Nat} (h : s.plugin_tables = some (.value d)) :
    registry s = s.dict d := by
  simp [registry, getattr, h]

theorem wellFormed_of_value {d : Nat} (h : s.plugin_tables = some (.value d))
    (hd : d < s.dicts.length) : WellFormed s := by
  constructor
  · intro e he
    rw [h] at he
    cases he
    exact hd
  · intro he
    rw [h] at he
    cases he

theorem dict_store {d : Nat} (hd : d < s.dicts.length) (k : Path) (plugin : Plugin) :
    (s.store d k plugin).dict d = (s.dict d).insert k s.plugins.length := by
  simp [State.store, State.dict, hd]

/-- An access leaves a dictionary in the class, and the registry and the objects as they are. -/
theorem getattr_eq (hs : WellFormed s) (h : s.plugin_tables ≠ none) :
    ∃ d t, getattr s = (some d, t) ∧ t.plugin_tables = some (.value d) ∧ d < t.dicts.length ∧
      registry s = t.dict d ∧ t.plugins = s.plugins := by
  obtain ⟨attr, hattr⟩ := Option.ne_none_iff_exists'.mp h
  cases attr with
  | value d =>
    have hread : getattr s = (some d, s) := by simp [getattr, hattr]
    exact ⟨d, s, hread, hattr, hs.dict d hattr, registry_of_value hattr, rfl⟩
  | cached_class_property =>
    have hread : getattr s =
        (some s.dicts.length,
          { s with
            plugin_tables := some (.value s.dicts.length)
            v := some s.dicts.length
            dicts := s.dicts ++ [∅] }) := by
      simp [getattr, hattr, dunderGet, hs.descriptor hattr]
    refine ⟨_, _, hread, rfl, by simp, ?_, rfl⟩
    unfold registry
    rw [hread]

end Reading

/-! ### The operations -/

section Operations

variable {s : State}

theorem clear_plugin_tables (hs : WellFormed s) : (clear_plugin s).plugin_tables = none := by
  by_cases h : s.plugin_tables = none
  · simp [clear_plugin, pop, getattr, h]
  · obtain ⟨d, t, hread, ht, -⟩ := getattr_eq hs h
    have hagain : getattr t = (some d, t) := by simp [getattr, ht]
    simp [clear_plugin, pop, hread, hagain]

variable {abspath}

theorem create_of_none (h : s.plugin_tables = none) (found : Found) (args : Args) :
    create abspath found args s = (none, s) := by
  simp [create, getattr, h]

/-- A path that was created before gives the object made then, with the new arguments. -/
theorem create_of_some (hs : WellFormed s) (h : s.plugin_tables ≠ none) {found : Found}
    {args : Args}
    {plugin : Nat} (hfind : (registry s).lookup (abspath found.cwd args.plugin_dex) = some plugin) :
    ∃ t, create abspath found args s = (some plugin, t) ∧ WellFormed t ∧ t.plugin_tables ≠ none ∧
      registry t = registry s ∧ t.plugins = s.plugins.modify plugin (.update args) := by
  obtain ⟨d, t, hread, ht, hd, hsame, hplugins⟩ := getattr_eq hs h
  let t' : State := { t with plugins := t.plugins.modify plugin (.update args) }
  have ht' : t'.plugin_tables = some (.value d) := ht
  refine ⟨t', ?_, wellFormed_of_value ht' hd, by simp [ht'], ?_, ?_⟩
  · rw [hsame] at hfind
    unfold create
    rw [hread]
    dsimp only
    rw [hfind]
  · rw [registry_of_value ht', hsame]
    rfl
  · show t.plugins.modify plugin (.update args) = _
    rw [hplugins]

theorem create_of_lookup_none (hs : WellFormed s) (h : s.plugin_tables ≠ none) {found : Found}
    {args : Args} (hfind : (registry s).lookup (abspath found.cwd args.plugin_dex) = none) :
    ∃ t plugin_id, create abspath found args s = (some s.plugins.length, t) ∧ WellFormed t ∧
      t.plugin_tables ≠ none ∧
      registry t = (registry s).insert (abspath found.cwd args.plugin_dex) s.plugins.length ∧
      t.plugins = s.plugins ++ [⟨plugin_id, args.plugin_dex, args.plugin_class, args.plugin_lib,
        args.plugin_params, args.plugin_flags⟩] := by
  obtain ⟨d, t, hread, ht, hd, hsame, hplugins⟩ := getattr_eq hs h
  let plugin_id := if found.generate_id then ((t.dict d).keys.length : Int) else nil_plugin_id
  let plugin : Plugin := ⟨plugin_id, args.plugin_dex, args.plugin_class, args.plugin_lib,
    args.plugin_params, args.plugin_flags⟩
  let t' : State := t.store d (abspath found.cwd args.plugin_dex) plugin
  have ht' : t'.plugin_tables = some (.value d) := ht
  have hlength : t'.dicts.length = t.dicts.length := by simp [t', State.store]
  refine ⟨t', plugin_id, ?_, wellFormed_of_value ht' (by rw [hlength]; exact hd), by simp [ht'],
    ?_, ?_⟩
  · rw [hsame] at hfind
    unfold create
    rw [hread]
    dsimp only
    rw [hfind, hplugins]
  · rw [registry_of_value ht', dict_store hd, hsame, hplugins]
  · show t.plugins ++ [plugin] = _
    rw [hplugins]

/-- While the attribute is in the class, `create` stores its object under its path and leaves the
    other entries. -/
theorem create_spec (hs : WellFormed s) (h : s.plugin_tables ≠ none) (found : Found) (args : Args) :
    ∃ plugin t, create abspath found args s = (some plugin, t) ∧ WellFormed t ∧
      t.plugin_tables ≠ none ∧
      (registry t).lookup (abspath found.cwd args.plugin_dex) = some plugin ∧
      ∀ k, k ∈ registry t ↔ k = abspath found.cwd args.plugin_dex ∨ k ∈ registry s := by
  cases hfind : (registry s).lookup (abspath found.cwd args.plugin_dex) with
  | some plugin =>
    obtain ⟨t, hcreate, hwell, ht, hreg, -⟩ := create_of_some hs h hfind
    refine ⟨plugin, t, hcreate, hwell, ht, by rw [hreg, hfind], fun k => ?_⟩
    rw [hreg]
    constructor
    · exact Or.inr
    · rintro (rfl | hk)
      · exact AList.lookup_isSome.mp (by rw [hfind]; rfl)
      · exact hk
  | none =>
    obtain ⟨t, _, hcreate, hwell, ht, hreg, -⟩ := create_of_lookup_none hs h hfind
    refine ⟨_, t, hcreate, hwell, ht, ?_, fun k => ?_⟩
    · rw [hreg, AList.lookup_insert]
    · rw [hreg, AList.mem_insert]

end Operations

/-! ### Histories -/

section Histories

variable {abspath} {past : List Op} {s : State}

/-- The attribute is in the class until the first `clear_plugin`, and the registry then has the
    paths created so far. -/
structure Inv (abspath : Path → Path → Path) (past : List Op) (s : State) : Prop where
  wellFormed : WellFormed s
  cleared : s.plugin_tables = none ↔ .clear_plugin ∈ past
  paths : .clear_plugin ∉ past → ∀ k, k ∈ registry s ↔ k ∈ created abspath past

theorem after_append (past : List Op) (op : Op) :
    after abspath (past ++ [op]) = step abspath (after abspath past) op := by
  unfold after
  rw [List.foldl_append]
  rfl

theorem created_append_create (past : List Op) (found : Found) (args : Args) :
    created abspath (past ++ [.create found args]) =
      created abspath past ++ [abspath found.cwd args.plugin_dex] := by
  unfold created
  rw [List.foldl_append]
  rfl

theorem Inv.create (hs : Inv abspath past s) (found : Found) (args : Args) :
    Inv abspath (past ++ [.create found args]) (create abspath found args s).2 := by
  by_cases hcleared : .clear_plugin ∈ past
  · have hnone := hs.cleared.mpr hcleared
    rw [create_of_none hnone]
    refine ⟨hs.wellFormed, iff_of_true hnone ?_, fun hno => ?_⟩
    · exact List.mem_append_left _ hcleared
    · exact absurd (List.mem_append_left _ hcleared) hno
  · have hsome : s.plugin_tables ≠ none := fun h => hcleared (hs.cleared.mp h)
    obtain ⟨plugin, t, hcreate, hwell, ht, -, hkeys⟩ := create_spec hs.wellFormed hsome found args
    rw [hcreate]
    refine ⟨hwell, iff_of_false ht ?_, fun _ k => ?_⟩
    · simpa using hcleared
    · rw [hkeys, hs.paths hcleared, created_append_create, List.mem_append, List.mem_singleton]
      exact or_comm

theorem Inv.clear_plugin (hs : Inv abspath past s) :
    Inv abspath (past ++ [.clear_plugin]) (clear_plugin s) := by
  have hnone := clear_plugin_tables hs.wellFormed
  refine ⟨⟨fun d h => ?_, fun h => ?_⟩, iff_of_true hnone (by simp), fun h => absurd (by simp) h⟩
  · rw [hnone] at h
    cases h
  · rw [hnone] at h
    cases h

theorem inv_after (past : List Op) : Inv abspath past (after abspath past) := by
  induction past using List.reverseRecOn with
  | nil =>
    refine ⟨⟨fun d h => (by cases h), fun _ => rfl⟩, iff_of_false (by simp [after, State.start])
      (by simp), fun _ k => iff_of_false ?_ ?_⟩
    · exact AList.notMem_empty k
    · exact List.not_mem_nil
  | append_singleton past op ih =>
    rw [after_append]
    cases op with
    | create found args => exact ih.create found args
    | clear_plugin => exact ih.clear_plugin

/-- **When `create` registers its plugin**, for every history of creations and clearings. -/
theorem create_registers_iff (abspath : Path → Path → Path) (past : List Op) (found : Found)
    (args : Args) :
    Registers abspath past found args ↔ .clear_plugin ∉ past := by
  have hs : Inv abspath past (after abspath past) := inv_after past
  constructor
  · rintro ⟨hsome, -⟩ hcleared
    rw [create_of_none (hs.cleared.mpr hcleared)] at hsome
    exact hsome rfl
  · intro hcleared
    have hattr : (after abspath past).plugin_tables ≠ none := fun h => hcleared (hs.cleared.mp h)
    obtain ⟨plugin, t, hcreate, -, -, hfound, hkeys⟩ := create_spec hs.wellFormed hattr found args
    unfold Registers
    rw [hcreate]
    refine ⟨Option.some_ne_none plugin, hfound, ?_⟩
    refine (List.perm_ext_iff_of_nodup (registry t).nodupKeys (List.nodup_dedup _)).mpr fun k => ?_
    rw [List.mem_dedup, created_append_create, List.mem_append, List.mem_singleton,
      ← hs.paths hcleared, or_comm, ← hkeys]
    rfl

end Histories

/-- After one `clear_plugin` the next `create` raises. -/
theorem not_registers_after_clear :
    ¬ Registers posixpath.abspath [.clear_plugin] ⟨"/srv".toList, false⟩
      ⟨"demo.dex".toList, "qing.albatross.Demo".toList, none, none, 0⟩ := by
  rintro ⟨hsome, -⟩
  exact hsome rfl

end Albatross.PluginRegistry
