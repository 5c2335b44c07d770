/-
  Albatross/Plugins.lean
  ======================
  **The plugin manager** (`DynamicPluginManager.java`, `AlbatrossPlugin.java`).

  `pluginCache` maps the concatenation of a dex path and a class name to a plugin,
  `classLoaderCache` a dex path to its class loader.  Plugins and class loaders are
  objects, numbered as they are made.  Texts are their characters; the library path alone
  is sliced, by its UTF-16 units.

  A plugin class may override the methods of `AlbatrossPlugin`: its `Lifecycle` says
  what they do to the fields of the object, and `Lifecycle.base` is the class itself.
  Where plugin code runs, a `Reply` says what it gives back, or that it throws
  (`none`).  Plugin code does not call the manager.

  No code reads where a plugin came from (`dexPath`, `className`, `loader`), whether
  its last `load()` returned true (`loaded`), whether an `AppInjectAgent.appendPlugin`
  has run its callbacks to the end (`attached`), what its last `parseParams` was given
  (`parsed`), the calls made on plugins (`calls`) and the class loaders handed to
  `Albatross.unloadDex` (`unloaded`).
-/
import Albatross.Assoc
import Albatross.Registry
import Albatross.Runs
import Albatross.Utf16

namespace Albatross.Plugins

open Assoc Runs Utf16
open Registry (JavaString)

def DEX_LOAD_FAIL : Int := 4
def DEX_INIT_FAIL : Int := 6
def DEX_ALREADY_LOAD : Int := 21

/-! ### Plugins -/

structure AlbatrossPlugin where
  params : Option JavaString
  flags : Int
  libName : Option (List UInt16)
  enable : Bool
  parsed : Option (Option JavaString × Int)
deriving DecidableEq, Inhabited

/-- What plugin code gives back (anything for a `void` method), or `none` when it throws. -/
abbrev Reply := Option Bool

abbrev Method := Reply → AlbatrossPlugin → AlbatrossPlugin × Reply

namespace AlbatrossPlugin

/-- The hook of a plugin class; its own answer is the environment's. -/
def parseParams (params : Option JavaString) (flags : Int) : Method := fun reply p =>
  ({ p with parsed := some (params, flags) }, reply)

/-- `library`: the plugin class has a `loadLibrary` that loads `libName`. -/
def load (library : Bool) : Method := fun reply p =>
  if p.libName.isSome ∧ library = false then ({ p with enable := false }, some false)
  else
    match parseParams p.params p.flags reply { p with enable := true } with
    | (p, some result) => (p, some result)
    | (p, none) => ({ p with enable := false }, some false)

def onConfigChange (config : Option JavaString) (flags : Int) : Method := fun reply p =>
  let p := { p with params := config, flags := flags }
  if p.enable then parseParams config flags reply p else (p, some true)

def disable : Method := fun reply p => parseParams none 0 reply { p with enable := false }

def unload : Method := disable

def enabled : Method := fun reply p => parseParams p.params p.flags reply { p with enable := true }

end AlbatrossPlugin

/-- A method that the manager or an agent calls, or the assignment `plugin.enable = true`. -/
inductive Call where
  | setEnable
  | load
  | onConfigChange
  | disable
  | unload
  | enable
  | beforeMakeApplication
  | beforeNewApplication
  | afterNewApplication
  | beforeApplicationCreate
  | afterApplicationCreate
deriving DecidableEq

structure Lifecycle where
  load : Bool → Method
  onConfigChange : Option JavaString → Int → Method
  disable : Method
  unload : Method
  enable : Method
  callback : Call → Method

/-- `AlbatrossPlugin` itself, whose application callbacks are empty. -/
def Lifecycle.base : Lifecycle where
  load := AlbatrossPlugin.load
  onConfigChange := AlbatrossPlugin.onConfigChange
  disable := AlbatrossPlugin.disable
  unload := AlbatrossPlugin.unload
  enable := AlbatrossPlugin.enabled
  callback := fun _ _ p => (p, some true)

structure Plugin where
  object : AlbatrossPlugin
  dexPath : JavaString
  className : JavaString
  loader : Nat
  loaded : Bool
  attached : Bool
deriving DecidableEq, Inhabited

structure DexClassLoader where
  dexPath : JavaString
  librarySearchPath : Option (List UInt16)
deriving DecidableEq

/-! ### The manager -/

structure Manager where
  pluginCache : Dict JavaString Nat
  classLoaderCache : Dict JavaString Nat
  plugins : Nat → Plugin
  made : Nat
  loaders : List DexClassLoader
  unloaded : List Nat
  calls : List (Nat × Call)

def Manager.start : Manager where
  pluginCache := ∅
  classLoaderCache := ∅
  plugins := fun _ => default
  made := 0
  loaders := []
  unloaded := []
  calls := []

def generatePluginKey (dexPath className : JavaString) : JavaString := dexPath ++ className

/-- Calls a method of plugin `p`. -/
def Manager.call (c : Call) (method : Method) (reply : Reply) (p : Nat) (s : Manager) :
    Manager × Reply :=
  let result := method reply (s.plugins p).object
  let plugin := { s.plugins p with object := result.1 }
  ({ s with plugins := Function.update s.plugins p plugin, calls := (p, c) :: s.calls }, result.2)

/-- `plugin.enable = true`. -/
def setEnable : Method := fun _ p => ({ p with enable := true }, some true)

variable (cls : Nat → Lifecycle)

/-- `plugin.load(agent)`. -/
def Manager.load (library : Bool) (reply : Reply) (p : Nat) (s : Manager) : Manager × Reply :=
  let result := s.call .load ((cls p).load library) reply p
  let plugin := { result.1.plugins p with loaded := decide (result.2 = some true) }
  ({ result.1 with plugins := Function.update result.1.plugins p plugin }, result.2)

def modifyPluginConfig (plugin : Option Nat) (config : Option JavaString) (flags : Int)
    (reply : Reply) (s : Manager) : Manager × Reply :=
  match plugin with
  | none => (s, some false)
  | some p =>
      if flags ≠ (s.plugins p).object.flags ∨ config ≠ (s.plugins p).object.params then
        let result := s.call .onConfigChange ((cls p).onConfigChange config flags) reply p
        (result.1, result.2.map fun _ => true)
      else (s, some false)

/-- The body that `unloadPlugin` and `disablePlugin` share. -/
def onCached (c : Call) (method : Nat → Method) (pluginDexPath pluginClassName : JavaString)
    (reply : Reply) (s : Manager) : Manager × Reply :=
  match s.pluginCache.lookup (generatePluginKey pluginDexPath pluginClassName) with
  | none => (s, some false)
  | some p =>
      let result := s.call c (method p) reply p
      (result.1, result.2.map fun _ => true)

def unloadPlugin : JavaString → JavaString → Reply → Manager → Manager × Reply :=
  onCached .unload fun p => (cls p).unload

def disablePlugin : JavaString → JavaString → Reply → Manager → Manager × Reply :=
  onCached .disable fun p => (cls p).disable

/-- The first loop of `unloadPluginDex`, over the keys still to come, with the keys it
    puts into `toRemoved`; `none` when an `unload()` throws. -/
def unloadMatching (pluginDexPath : JavaString) (reply : Nat → Reply) :
    List JavaString → Manager → Manager × Option (List JavaString)
  | [], s => (s, some [])
  | key :: keys, s =>
      match s.pluginCache.lookup key with
      | none => unloadMatching pluginDexPath reply keys s
      | some p =>
          if pluginDexPath <+: key then
            match s.call .unload (cls p).unload (reply p) p with
            | (s, none) => (s, none)
            | (s, some _) =>
                let rest := unloadMatching pluginDexPath reply keys s
                (rest.1, rest.2.map (key :: ·))
          else unloadMatching pluginDexPath reply keys s

/-- `order` lists the keys of `pluginCache` as the map iterates over them. -/
def unloadPluginDex (pluginDexPath : JavaString) (order : List JavaString) (reply : Nat → Reply)
    (s : Manager) : Manager × Reply :=
  match s.classLoaderCache.lookup pluginDexPath with
  | none => (s, some false)
  | some dexClassLoader =>
      let s := { s with classLoaderCache := s.classLoaderCache.erase pluginDexPath }
      match unloadMatching cls pluginDexPath reply order s with
      | (s, none) => (s, none)
      | (s, some toRemoved) =>
          ({ s with
              pluginCache := eraseAll toRemoved s.pluginCache
              unloaded := dexClassLoader :: s.unloaded }, some true)

/-! ### Appending -/

def SLASH : UInt16 := 47

/-- `s.substring(b, e)` of the UTF-16 units of a text; `none` when it throws. -/
def substring (s : List UInt16) (b e : Int) : Option (List UInt16) :=
  if 0 ≤ b ∧ b ≤ e ∧ e ≤ s.length then some ((s.take e.toNat).drop b.toNat) else none

def lastIndexOf (s : List UInt16) (c : UInt16) : Int :=
  match s.reverse.findIdx? (· = c) with
  | some i => s.length - 1 - i
  | none => -1

/-- The directory and the name of a native library; `none` when the slicing throws. -/
def nativeLib :
    Option JavaString → Option (Option (List UInt16) × Option (List UInt16))
  | none => some (none, none)
  | some nativeLibPath =>
      let s := utf16 nativeLibPath
      if s.length < 5 then some (none, none)
      else
        let i := lastIndexOf s SLASH
        match substring s 0 i, substring s (i + 4) (s.length - 3) with
        | some libDir, some libName => some (some libDir, some libName)
        | _, _ => none

/-- How the loading goes: `new DexClassLoader` throws (where a class loader is cached, its
    `loadClass` does), `loadClass` or the constructor throws, or there is a plugin, and its
    `pluginName()` returns or throws. -/
inductive Built where
  | unopened
  | failed
  | plugin (named : Bool)
deriving DecidableEq

/-- How `appendPlugin` ends; with `null` comes the reason. -/
inductive Appended where
  | threw
  | null (reason : Int)
  | plugin (p : Nat)
deriving DecidableEq

/-- The class loader of a dex path, made when there is none. -/
def Manager.loaderOf (pluginDexPath : JavaString) (libDir : Option (List UInt16)) (s : Manager) :
    Manager × Nat :=
  match s.classLoaderCache.lookup pluginDexPath with
  | some dexClassLoader => (s, dexClassLoader)
  | none =>
      ({ s with
          classLoaderCache := s.classLoaderCache.insert pluginDexPath s.loaders.length
          loaders := s.loaders ++ [⟨pluginDexPath, libDir⟩] }, s.loaders.length)

/-- `constructor.newInstance(libName, arguments, flags)` and `pluginCache.put`. -/
def Manager.construct (plugin : Plugin) (s : Manager) : Manager :=
  { s with
    pluginCache := s.pluginCache.insert (generatePluginKey plugin.dexPath plugin.className) s.made
    plugins := Function.update s.plugins s.made plugin
    made := s.made + 1 }

def appendPlugin (pluginDexPath : JavaString) (nativeLibPath : Option JavaString)
    (pluginClassName : JavaString) (arguments : Option JavaString) (flags : Int) (built : Built)
    (reply : Reply) (s : Manager) : Manager × Appended :=
  match s.pluginCache.lookup (generatePluginKey pluginDexPath pluginClassName) with
  | some p =>
      let s := (s.call .setEnable setEnable none p).1
      match modifyPluginConfig cls (some p) arguments flags reply s with
      | (s, none) => (s, .threw)
      | (s, some _) => (s, .null DEX_ALREADY_LOAD)
  | none =>
      match nativeLib nativeLibPath with
      | none => (s, .threw)
      | some (libDir, libName) =>
          if built = .unopened ∧ s.classLoaderCache.lookup pluginDexPath = none then (s, .threw)
          else
            let (s, loader) := s.loaderOf pluginDexPath libDir
            match built with
            | .plugin named =>
                let object : AlbatrossPlugin := ⟨arguments, flags, libName, false, none⟩
                let p := s.made
                let s :=
                  s.construct ⟨object, pluginDexPath, pluginClassName, loader, false, false⟩
                (s, if named then .plugin p else .null DEX_INIT_FAIL)
            | _ => (s, .null DEX_INIT_FAIL)

/-! ### Steps -/

inductive Op where
  | appendPlugin (pluginDexPath : JavaString) (nativeLibPath : Option JavaString)
      (pluginClassName : JavaString) (arguments : Option JavaString) (flags : Int) (built : Built)
      (reply : Reply)
  | load (p : Nat) (library : Bool) (reply : Reply)
  | unloadPlugin (pluginDexPath pluginClassName : JavaString) (reply : Reply)
  | disablePlugin (pluginDexPath pluginClassName : JavaString) (reply : Reply)
  | unloadPluginDex (pluginDexPath : JavaString) (order : List JavaString) (reply : Nat → Reply)
  | modifyPluginConfig (plugin : Option Nat) (config : Option JavaString) (flags : Int)
      (reply : Reply)
  | enable (p : Nat) (reply : Reply)

/-- One call from outside: of the manager, or of a method of a plugin there is. -/
def step (s : Manager) : Op → Option Manager
  | .appendPlugin d lib c arguments flags built reply =>
      some (appendPlugin cls d lib c arguments flags built reply s).1
  | .load p library reply => if p < s.made then some (s.load cls library reply p).1 else none
  | .unloadPlugin d c reply => some (unloadPlugin cls d c reply s).1
  | .disablePlugin d c reply => some (disablePlugin cls d c reply s).1
  | .unloadPluginDex d order reply =>
      if order.Perm s.pluginCache.keys then some (unloadPluginDex cls d order reply s).1 else none
  | .modifyPluginConfig plugin config flags reply =>
      if ∀ p ∈ plugin, p < s.made then some (modifyPluginConfig cls plugin config flags reply s).1
      else none
  | .enable p reply =>
      if p < s.made then some (s.call .enable (cls p).enable reply p).1 else none

end Albatross.Plugins
