/-
  Albatross/ServerUpdates.lean
  ============================
  **Bringing the server on a device up to date** (`device.py`: `get_client`; `common.py`:
  `get_server_path`, `abi_lib_names`).

  `get_client` pushes the host's server and library onto the device.  If a push has changed
  a file it kills the server and starts it again; otherwise it connects to the server that
  runs, and starts one only if that fails.

  A push, a kill and a launch are one step each, and may go wrong (`Reacts`).  An `Image` is
  what a server has been started from; no code reads it.  Whether a push fails or a kill
  misses its process is not seen in what `push_file` and `kill_process` return.
-/
import Albatross.Python
import Albatross.Worlds

namespace Albatross.ServerUpdates

open Dialogues
open Python (Bytes PyExn)

/-! ### The code -/

abbrev Text := List Char

inductive Abi where
  | arm64V8a
  | armeabiV7a
  | x86_64
  | x86
deriving DecidableEq

/-- `Configuration.abi_lib_names`. -/
def Abi.libName : Abi → Text
  | .arm64V8a => "arm64".toList
  | .armeabiV7a => "arm".toList
  | .x86_64 => "x86_64".toList
  | .x86 => "x86".toList

/-- The files of `jni_libs`: `{abi}/albatross_server` and `{abi}/libalbatross_base.so`. -/
inductive File where
  | server (abi : Abi)
  | lib (abi : Abi)
deriving DecidableEq

/-- `Configuration.get_server_path`. -/
def getServerPath (abi : Abi) : File × File × Option (File × Abi) :=
  (.server abi, .lib abi, match abi with
    | .arm64V8a => some (.lib .armeabiV7a, .armeabiV7a)
    | .x86_64 => some (.lib .x86, .x86)
    | _ => none)

/-- Where a file is pushed: `'/data/local/tmp/' + server_dst_path` or `{lib_path}{dir}/{name}`. -/
inductive Dst where
  | server
  | lib (dir name : Text)
deriving DecidableEq

def libOriginName : Text := "libalbatross_base.so".toList

inductive Port where
  | tcp (number : Int)
  | named (text : Text)
deriving DecidableEq

structure Configuration where
  serverPort : Port
  libName : Text

abbrev Content := Bytes

/-- The server and the library that a server has been started from. -/
structure Image where
  server : Option Content
  lib : Option Content
deriving DecidableEq

/-- What the server at the other end has been started from. -/
structure Client where
  image : Image
deriving DecidableEq

/-- What `push_file` has done. -/
inductive Pushed where
  | pushed
  | same
  | missing
  | failed
deriving DecidableEq

def Pushed.result : Pushed → Bool
  | .pushed => true
  | _ => false

/-- What `kill_process` has done. -/
inductive Killed where
  | killed
  | missed
deriving DecidableEq

inductive Question where
  | isRoot
  | deviceConfig (key : Text)
  | getForwardPort (port : Port)
  | cpuAbi
  | pathExists (file : File)
  | fileType
  | pushFile (file : File) (dst : Dst) (check : Bool)
  | support32
  | killProcess
  | connect (localPort : Int)
  | setArchLib (client : Client) (dst : Dst)
  | set2ndArchLib (client : Client) (dst : Dst)
  | launch (libDir : Text) (port : Port)
  | isSelinuxOn
  | patchSelinux (client : Client)
deriving DecidableEq

abbrev Answer : Question → Type
  | .isRoot => Except PyExn Bool
  | .deviceConfig _ => Except PyExn Text
  | .getForwardPort _ => Except PyExn Int
  | .cpuAbi => Except PyExn Abi
  | .pathExists _ => Bool
  | .fileType => Except PyExn (Option Text)
  | .pushFile _ _ _ => Except PyExn Pushed
  | .support32 => Except PyExn Bool
  | .killProcess => Except PyExn Killed
  | .connect _ => Except PyExn Client
  | .setArchLib _ _ => Except PyExn Unit
  | .set2ndArchLib _ _ => Except PyExn Unit
  | .launch _ _ => Except PyExn Unit
  | .isSelinuxOn => Except PyExn Bool
  | .patchSelinux _ => Except PyExn Unit

abbrev Adb := Dialogue Question Answer PyExn

def isRoot : Adb Bool := .ask .isRoot .done

def deviceConfig (key : Text) : Adb Text := .ask (.deviceConfig key) .done

def getForwardPort (port : Port) : Adb Int := .ask (.getForwardPort port) .done

def cpuAbi : Adb Abi := .ask .cpuAbi .done

def pathExists (file : File) : Adb Bool := .ask (.pathExists file) fun found => .done (.ok found)

def fileType : Adb (Option Text) := .ask .fileType .done

def pushFile (file : File) (dst : Dst) (check : Bool) : Adb Bool :=
  .ask (.pushFile file dst check) fun answer => .done (answer.map Pushed.result)

def support32 : Adb Bool := .ask .support32 .done

def killProcess : Adb Unit := .ask .killProcess fun answer => .done (answer.map fun _ => ())

def connect (localPort : Int) : Adb Client := .ask (.connect localPort) .done

def setArchLib (client : Client) (dst : Dst) : Adb Unit := .ask (.setArchLib client dst) .done

def set2ndArchLib (client : Client) (dst : Dst) : Adb Unit :=
  .ask (.set2ndArchLib client dst) .done

def launch (libDir : Text) (port : Port) : Adb Unit := .ask (.launch libDir port) .done

def isSelinuxOn : Adb Bool := .ask .isSelinuxOn .done

def patchSelinux (client : Client) : Adb Unit := .ask (.patchSelinux client) .done

/-- `DeviceNotRoot(self)`. -/
def deviceNotRoot : PyExn := .user "DeviceNotRoot" ""

section Code

variable (config : Configuration)

def serverPort : Adb Port :=
  if config.serverPort = .named "random".toList then do
    let port ← deviceConfig "server_port".toList
    pure (.named port)
  else pure config.serverPort

def libName : Adb Text :=
  if config.libName = "random".toList then deviceConfig "lib_name".toList
  else pure config.libName

/-- The push onto `server_lib_dst`. -/
def pushServerLib (file : File) (libDir : Text) : Adb Bool := do
  let _ ← fileType
  pushFile file (.lib libDir libOriginName) false

/-- The push onto `app_lib_dst`, if that is another path. -/
def pushAppLib (file : File) (libDir name : Text) : Adb Unit :=
  if name ≠ libOriginName then do
    let _ ← fileType
    let _ ← pushFile file (.lib libDir name) false
    pure ()
  else pure ()

/-- The block `if abi_lib32 and self.support_32:`, with the `lib_dst_32` that it leaves. -/
def pushLib32 (second : Option (File × Abi)) (name : Text) : Adb (Option Dst) :=
  match second with
  | none => pure none
  | some (file, abi) => do
      if ← support32 then
        if ← pathExists file then
          let _ ← fileType
          let _ ← pushFile file (.lib abi.libName name) false
          pure (some (.lib abi.libName name))
        else pure none
      else pure none

/-- `if lib_dst_32: client.set_2nd_arch_lib(self.lib32_dst)`. -/
def setSecond (client : Client) (second : Option Dst) : Adb Unit :=
  match second with
  | none => pure ()
  | some dst => set2ndArchLib client dst

def connectLibs (localPort : Int) (lib : Dst) (second : Option Dst) : Adb Client := do
  let client ← connect localPort
  setArchLib client lib
  setSecond client second
  pure client

/-- The part of a port behind `localabstract:`. -/
def launchPort : Port → Port
  | .tcp number => .tcp number
  | .named text =>
      if "localabstract:".toList <+: text then .named ((text.splitOn ':').getD 1 [])
      else .named text

/-- `if self.is_selinux_on(): client.patch_selinux()`. -/
def patchIfOn (client : Client) : Adb Unit := do
  if ← isSelinuxOn then patchSelinux client

def startServer (port : Port) (localPort : Int) (libDir : Text) (lib : Dst) (second : Option Dst) :
    Adb Client := do
  launch libDir (launchPort port)
  let client ← connectLibs localPort lib second
  patchIfOn client
  pure client

/-- The server that runs, unless it is to be killed. -/
def reuseServer (kill : Bool) (localPort : Int) (lib : Dst) (second : Option Dst) :
    Adb (Option Client) :=
  if kill then do
    killProcess
    pure none
  else do
    match ← (connectLibs localPort lib second).attempt with
    | .ok client => pure (some client)
    | .error _ =>
        killProcess
        pure none

def serve (port : Port) (localPort : Int) (libDir : Text) (kill : Bool) (lib : Dst)
    (second : Option Dst) : Adb Client := do
  match ← reuseServer kill localPort lib second with
  | some client => pure client
  | none => startServer port localPort libDir lib second

/-- The pushes.  `updateKill` is `self.update_kill`. -/
def pushAll (updateKill : Bool) (port : Port) (localPort : Int) (abi : Abi) : Adb Client := do
  let (serverFile, abiLib, abiLib32) := getServerPath abi
  if ← pathExists serverFile then
    let update ← pushFile serverFile .server true
    let libUpdate ← pushServerLib abiLib abi.libName
    let name ← libName config
    pushAppLib abiLib abi.libName name
    let second ← pushLib32 abiLib32 name
    serve port localPort abi.libName ((update || libUpdate) && updateKill) (.lib abi.libName name)
      second
  else .raise .assertionError

def getClient (updateKill : Bool) : Adb Client := do
  if ← isRoot then
    let port ← serverPort config
    let localPort ← getForwardPort port
    let abi ← cpuAbi
    pushAll config updateKill port localPort abi
  else .raise deviceNotRoot

end Code

/-! ### The device -/

structure Device where
  files : Dst → Option Content
  server : Option Image

def Dst.served (abi : Abi) (dst : Dst) : Prop :=
  dst = .server ∨ dst = .lib abi.libName libOriginName

instance (abi : Abi) : DecidablePred (Dst.served abi) :=
  fun dst => inferInstanceAs (Decidable (dst = .server ∨ dst = .lib abi.libName libOriginName))

namespace Device

variable (d : Device) (abi : Abi)

def image : Image := ⟨d.files .server, d.files (.lib abi.libName libOriginName)⟩

def put (dst : Dst) (content : Option Content) : Device :=
  { d with files := Function.update d.files dst content }

/-- The server, if there is one, has been started from the files that are there. -/
def Current : Prop := ∀ image, d.server = some image → image = d.image abi

@[simp] theorem put_server (dst : Dst) (content : Option Content) :
    (d.put dst content).server = d.server := rfl

theorem put_image {dst : Dst} (hdst : ¬ dst.served abi) (content : Option Content) :
    (d.put dst content).image abi = d.image abi := by
  have hserver : Dst.server ≠ dst := fun h => hdst (Or.inl h.symm)
  have hlib : Dst.lib abi.libName libOriginName ≠ dst := fun h => hdst (Or.inr h.symm)
  simp only [image, put, Function.update_of_ne hserver, Function.update_of_ne hlib]

end Device

/-- What a host has under `jni_libs`. -/
abbrev Host := File → Option Content

section Reactions

variable (abi : Abi)

/-- What a push may do with a file that a host has or has not.  The digests are compared if
    `check` says so or the file is large. -/
inductive Pushes (content : Option Content) (dst : Dst) (check : Bool) (d : Device) :
    Except PyExn Pushed → Device → Prop where
  | pushed {c : Content} (hcontent : content = some c) :
      Pushes content dst check d (.ok .pushed) (d.put dst (some c))
  | same {c : Content} (hcontent : content = some c) (hsame : d.files dst = some c)
      (hcompare : check = true ∨ 8192 < c.length) : Pushes content dst check d (.ok .same) d
  | missing (hcontent : content = none) : Pushes content dst check d (.ok .missing) d
  | failed (left : Option Content) : Pushes content dst check d (.ok .failed) (d.put dst left)
  | raised (e : PyExn) (left : Option Content) :
      Pushes content dst check d (.error e) (d.put dst left)

inductive Kills (d : Device) : Except PyExn Killed → Device → Prop where
  | killed : Kills d (.ok .killed) { d with server := none }
  | missed : Kills d (.ok .missed) d
  | raised (e : PyExn) (server : Option Image) (hserver : server = none ∨ server = d.server) :
      Kills d (.error e) { d with server := server }

/-- What a launch may do: the port may be in use. -/
def Launches (d d' : Device) : Prop := d' = d ∨ d' = { d with server := some (d.image abi) }

/-- What a device of this kind may answer a call from `host`. -/
def Reacts (host : Host) : Reaction Answer Device
  | d, ⟨.pushFile file dst check, answer⟩, d' => Pushes (host file) dst check d answer d'
  | d, ⟨.killProcess, answer⟩, d' => Kills d answer d'
  | d, ⟨.connect _, answer⟩, d' =>
      d' = d ∧ ∀ client, answer = .ok client → d.server = some client.image
  | d, ⟨.launch _ _, _⟩, d' => Launches abi d d'
  | d, ⟨.cpuAbi, answer⟩, d' => d' = d ∧ ∀ a, answer = .ok a → a = abi
  | d, _, d' => d' = d

def Drifts (d d' : Device) : Prop := d' = { d with server := none }

/-- The push or the kill of this exchange has not failed unseen. -/
def Worked : Exchange Answer → Prop
  | ⟨.pushFile _ _ _, answer⟩ => answer ≠ .ok .failed
  | ⟨.killProcess, answer⟩ => answer ≠ .ok .missed
  | _ => True

/-- Whether a call knows the server to be out of date. -/
def owes (owing : Bool) : Exchange Answer → Bool
  | ⟨.pushFile _ dst _, answer⟩ =>
      owing || decide (dst.served abi ∧ answer ≠ .ok .same ∧ answer ≠ .ok .missing)
  | ⟨.killProcess, answer⟩ => owing && decide (answer ≠ .ok .killed)
  | _ => owing

end Reactions

/-! ### Questions that change little -/

/-- A question that changes neither the server nor its files. -/
def Question.Plain (abi : Abi) : Question → Prop
  | .pushFile _ dst _ => ¬ dst.served abi
  | .killProcess => False
  | .launch _ _ => False
  | _ => True

section Plain

variable {abi : Abi} {ω α : Type} {reacts : Reaction Answer ω}

def Overlooks (abi : Abi) (reacts : Reaction Answer ω) : Prop :=
  ∀ w q a w', q.Plain abi → reacts w ⟨q, a⟩ w' → w' = w

theorem Overlooks.question (h : Overlooks abi reacts) {q : Question}
    {f : Answer q → Except PyExn α} (hq : q.Plain abi) :
    Dialogue.Quiet reacts (.ask q fun a => .done (f a)) :=
  Dialogue.quiet_ask (fun w a w' => h w q a w' hq) fun _ => Dialogue.quiet_done _

theorem not_served_of_name {dir name : Text} (hname : name ≠ libOriginName) :
    ¬ (Dst.lib dir name).served abi := by
  rintro (⟨⟨⟩⟩ | hlib)
  exact hname (Dst.lib.inj hlib).2

theorem not_served_of_second {file : File} {second : Abi} (name : Text)
    (hsecond : (getServerPath abi).2.2 = some (file, second)) :
    ¬ (Dst.lib second.libName name).served abi := by
  have hdir : second.libName ≠ abi.libName := by
    cases abi <;> cases hsecond <;> decide
  rintro (⟨⟨⟩⟩ | hlib)
  exact hdir (Dst.lib.inj hlib).1

variable (h : Overlooks abi reacts)

include h

theorem quiet_serverPort (config : Configuration) :
    Dialogue.Quiet reacts (serverPort config) := by
  unfold serverPort
  split
  · exact (h.question (q := .deviceConfig _) trivial).bind fun _ => Dialogue.quiet_done _
  · exact Dialogue.quiet_done _

theorem quiet_libName (config : Configuration) : Dialogue.Quiet reacts (libName config) := by
  unfold libName
  split
  · exact h.question (q := .deviceConfig _) trivial
  · exact Dialogue.quiet_done _

theorem quiet_pushAppLib (file : File) (libDir name : Text) :
    Dialogue.Quiet reacts (pushAppLib file libDir name) := by
  unfold pushAppLib
  split
  · next hname =>
    refine (h.question (q := .fileType) trivial).bind fun _ => ?_
    refine (h.question (q := .pushFile _ _ _) (not_served_of_name hname)).bind fun _ => ?_
    exact Dialogue.quiet_done _
  · exact Dialogue.quiet_done _

theorem quiet_pushLib32 (name : Text) :
    Dialogue.Quiet reacts (pushLib32 (getServerPath abi).2.2 name) := by
  unfold pushLib32
  split
  · exact Dialogue.quiet_done _
  · next file second hsecond =>
    refine (h.question (q := .support32) trivial).bind fun supported => ?_
    split
    · refine (h.question (q := .pathExists file) trivial).bind fun found => ?_
      split
      · refine (h.question (q := .fileType) trivial).bind fun _ => ?_
        have hdst := not_served_of_second name hsecond
        refine (h.question (q := .pushFile _ _ _) hdst).bind fun _ => ?_
        exact Dialogue.quiet_done _
      · exact Dialogue.quiet_done _
    · exact Dialogue.quiet_done _

theorem quiet_setSecond (client : Client) (second : Option Dst) :
    Dialogue.Quiet reacts (setSecond client second) := by
  cases second with
  | none => exact Dialogue.quiet_done _
  | some dst => exact h.question (q := .set2ndArchLib _ _) trivial

theorem quiet_connectLibs (localPort : Int) (lib : Dst) (second : Option Dst) :
    Dialogue.Quiet reacts (connectLibs localPort lib second) := by
  refine (h.question (q := .connect _) trivial).bind fun client => ?_
  refine (h.question (q := .setArchLib _ _) trivial).bind fun _ => ?_
  exact (quiet_setSecond h client second).bind fun _ => Dialogue.quiet_done _

theorem quiet_patchIfOn (client : Client) : Dialogue.Quiet reacts (patchIfOn client) := by
  refine (h.question (q := .isSelinuxOn) trivial).bind fun on => ?_
  split
  · exact h.question (q := .patchSelinux _) trivial
  · exact Dialogue.quiet_done _

end Plain

end Albatross.ServerUpdates
