/-
  Albatross/AdbShell.lean
  =======================
  **A shell command over USB or IP** (`device.py`: `AlbatrossDevice.shell`, with
  `switch_to_ip_connect`, `switch_to_usb_connect`, `get_device_ip` and `su_file`).

  The command is run up to four times.  A run whose text says that the device id is not
  found is repeated, from the third on after a switch of the connection; any other text
  that says `not found` is returned, also adb's own about the address that a switch has put
  into use, and so is every text of a run that failed in another way.  Behind the fourth
  run there is no turn for a switch to lead to, and the call returns `None`.
  `shell_sound_iff` says which runs end well.

  A result is the decoded text of a run (output that is no UTF-8 is left out) and carries
  whether the run reached the device, which no code reads.  How `get_device_ip` finds an
  address in a text is left open (`firstIp`).
-/
import Albatross.Dialogues
import Albatross.PyText
import Mathlib.Data.List.Infix

namespace Albatross.AdbShell

open Dialogues PyText
open Python (PyExn)

/-! ### The code -/

/-- The argument of `run_shell`. -/
inductive Command where
  | argv (words : List Text)
  | line (text : Text)
deriving DecidableEq

/-- What `run_shell` returns, and whether the run reached the device. -/
structure Result where
  code : Int
  text : Text
  reached : Bool
deriving DecidableEq

abbrev Adb := Dialogue Command (fun _ => Result) PyExn

/-- What stays the same, with the platform and the search of `get_device_ip` in a text. -/
structure Device where
  adbPath : Text
  deviceId : Text
  usbMode : Bool
  tcpPort : Text
  win32 : Bool
  firstIp : Text → Option Text

/-- The connection in use.  `suFile` is the cached property. -/
structure Conn where
  cmd : Text
  shellcmd : Text
  shellcmdList : List Text
  connectIp : Option Text
  suFile : Option Text
deriving DecidableEq

/-- The text that a call returns, from a run that reached the device or not. -/
structure Output where
  text : Text
  reached : Bool
deriving DecidableEq

section Code

variable (dev : Device)

def runShell (command : Command) : Adb Result := .ask command fun r => .done (.ok r)

/-- `DeviceOffline(self)`. -/
def deviceOffline : PyExn :=
  .user "DeviceOffline" ("device Device: " ++ String.ofList dev.deviceId ++ " offline")

/-- The loop of `get_device_ip`. -/
def getDeviceIp (c : Conn) : List Text → Adb (Option Text)
  | [] => pure none
  | cmd :: cmds => do
      let r ← runShell (.line (c.shellcmd ++ cmd))
      if r.code ≠ 0 then getDeviceIp c cmds
      else match dev.firstIp r.text with
        | some ip => pure (some ip)
        | none => getDeviceIp c cmds

def ipCommands : List Text :=
  ["ip addr show wlan0".toList, "ifconfig wlan0".toList, "ip addr".toList]

/-- `for i in range(n)`: says hello. -/
def hello (shellCmd : Text) : Nat → Adb Bool
  | 0 => pure false
  | n + 1 => do
      let r ← runShell (.line (shellCmd ++ "echo hello".toList))
      if "hello".toList <:+: r.text then pure true else hello shellCmd n

/-- `for z in range(n)`: connects, and says hello. -/
def connect (ip shellCmd : Text) : Nat → Adb Bool
  | 0 => pure false
  | n + 1 => do
      let r ← runShell (.line (dev.adbPath ++ " connect ".toList ++ ip ++ [':'] ++ dev.tcpPort))
      if ¬ "failed".toList <:+: r.text ∧ "connected to".toList <:+: r.text then
        if ← hello shellCmd 2 then pure true else connect ip shellCmd n
      else connect ip shellCmd n

/-- `f'{adb_path} -s {target} '`. -/
def adbFor (target : Text) : Text := dev.adbPath ++ " -s ".toList ++ target ++ [' ']

def Conn.use (c : Conn) (cmd shellcmd : Text) : Conn :=
  { c with cmd := cmd, shellcmd := shellcmd, shellcmdList := split (strip shellcmd) }

def switchToIpConnect (c : Conn) : Adb (Bool × Conn) := do
  if dev.usbMode then
    let found ← getDeviceIp dev c ipCommands
    match (truthy found).or (truthy c.connectIp) with
    | none => pure (false, c)
    | some ip =>
      let _ ← runShell (.line (adbFor dev dev.deviceId ++ "tcpip ".toList ++ dev.tcpPort))
      let cmd := adbFor dev ip
      let shellCmd := cmd ++ "shell ".toList
      if ← connect dev ip shellCmd 2 then
        pure (true, { c.use cmd shellCmd with connectIp := some ip })
      else pure (false, c)
  else pure (false, c)

def switchToUsbConnect (c : Conn) : Adb (Bool × Conn) := do
  if dev.usbMode ∧ '.' ∈ c.cmd then
    let cmd := adbFor dev dev.deviceId
    let shellcmd := cmd ++ "shell ".toList
    if ← hello shellcmd 1 then
      let _ ← runShell (.line (dev.adbPath ++ " disconnect ".toList ++
        c.connectIp.getD "None".toList ++ [':'] ++ dev.tcpPort))
      pure (true, c.use cmd shellcmd)
    else pure (false, c)
  else pure (false, c)

/-- The switch of a turn, if there is one to make. -/
def switchConnect (c : Conn) : Adb (Bool × Conn) :=
  if dev.usbMode ∧ truthy c.connectIp ≠ none then
    if '.' ∉ c.shellcmd then switchToIpConnect dev c else switchToUsbConnect dev c
  else pure (false, c)

/-- What `shell` takes a text for. -/
inductive Verdict where
  | notFound
  | offline
  | output
deriving DecidableEq

def notFoundMessage (target : Text) : Text := "device '".toList ++ target ++ "' not found".toList

def verdict (result : Text) : Verdict :=
  if "not found".toList <:+: result then
    if notFoundMessage dev.deviceId <:+: result then .notFound else .output
  else if "error: device offline".toList <:+: result then .offline
  else .output

def settle (i : Nat) (ret : Result) (c : Conn) : Adb (Option Output × Conn) :=
  match verdict dev (strip ret.text) with
  | .output => pure (some ⟨strip ret.text, ret.reached⟩, c)
  | .offline => .raise (deviceOffline dev)
  | .notFound =>
      -- `if i < 1: continue` and `if i < 2: time.sleep(0.2); continue`
      if i < 2 then pure (none, c)
      else do
        let (switched, c) ← switchConnect dev c
        if switched then pure (none, c) else .raise (deviceOffline dev)

/-- The run of a turn, of the command that `build` makes. -/
def runTurn (build : Conn → Adb (List Text × Conn)) (c : Conn) : Adb (Result × Conn) := do
  let (command, c) ← build c
  let ret ← runShell (.argv command)
  pure (ret, c)

/-- The loop of `shell`. -/
def shellLoop (build : Conn → Adb (List Text × Conn)) : List Nat → Conn → Adb (Option Output × Conn)
  | [], c => pure (none, c)
  | i :: is, c => do
      let (ret, c) ← runTurn build c
      let (output, c) ← settle dev i ret c
      match output with
      | some output => pure (some output, c)
      | none => shellLoop build is c

/-- `range(4)`. -/
def turns : List Nat := [0, 1, 2, 3]

/-- The command of a turn without `su_cmd`. -/
def plainCommand (cmd : Text) (c : Conn) : Adb (List Text × Conn) :=
  pure (c.shellcmdList ++ [cmd], c)

def suFiles : List Text :=
  ["/system/bin/su".toList, "/system/xbin/su".toList, "/sbin/su".toList, "/system/su".toList,
    "/system/bin/.ext/su".toList, "/system/usr/we-need-root/su".toList,
    "/data/local/xbin/su".toList, "/data/local/bin/su".toList, "/data/local/su".toList]

def findSu (c : Conn) : List Text → Adb Text
  | [] => pure "su".toList
  | file :: files => do
      let r ← runShell (.line (c.shellcmd ++ "ls ".toList ++ file))
      if r.code = 0 then pure file else findSu c files

/-- The cached property `self.su_file`. -/
def suFile (c : Conn) : Adb (Text × Conn) :=
  match c.suFile with
  | some file => pure (file, c)
  | none => do
      let (output, c) ← shellLoop dev (plainCommand "which su".toList) turns c
      match truthy (output.map Output.text) with
      | some file => pure (file, { c with suFile := some file })
      | none => do
          let file ← findSu c suFiles
          pure (file, { c with suFile := some file })

/-- The command of a turn with `su_cmd`: the prefix is read before `su_file` may switch. -/
def suCommand (cmd : Text) (c : Conn) : Adb (List Text × Conn) := do
  let (file, c') ← suFile dev c
  let quote := if dev.win32 ∨ Char.ofNat 39 ∉ cmd then Char.ofNat 39 else Char.ofNat 34
  pure (c.shellcmdList ++ [file ++ " -c ".toList ++ [quote] ++ cmd ++ [quote]], c')

/-- `self.shell(cmd, su_cmd=suCmd)`. -/
def shell (cmd : Text) (suCmd : Bool) : Conn → Adb (Option Output × Conn) :=
  shellLoop dev (if suCmd then suCommand dev cmd else plainCommand cmd) turns

end Code

/-! ### How a call ends -/

/-- It returns the text of a run that reached the device, or raises `DeviceOffline`. -/
def Sound (dev : Device) : Except PyExn (Option Output × Conn) → Prop
  | .ok (some output, _) => output.reached = true
  | .ok (none, _) => False
  | .error e => e = deviceOffline dev

/-- The loop makes a run in the turn `i`, with the result `ret`; then the connection is `c'`, and
    the answers to come are `answers'`. -/
inductive Sees (dev : Device) (build : Conn → Adb (List Text × Conn)) : List Nat → Conn →
    Answers Command (fun _ => Result) → Nat → Result → Conn →
      Answers Command (fun _ => Result) → Prop
  | here {i is c c' answers ret} (hrun : ((runTurn build c).run answers).2 = .ok (ret, c')) :
      Sees dev build (i :: is) c answers i ret c' ((runTurn build c).left answers)
  | later {i j is c c₁ c₂ c' answers answers' ret ret'}
      (hrun : ((runTurn build c).run answers).2 = .ok (ret, c₁))
      (hsettle : ((settle dev i ret c₁).run ((runTurn build c).left answers)).2 = .ok (none, c₂))
      (hrest : Sees dev build is c₂
        ((settle dev i ret c₁).left ((runTurn build c).left answers)) j ret' c' answers') :
      Sees dev build (i :: is) c answers j ret' c' answers'

/-- A text that is taken for output comes from the device, and the last run is not answered by a
    switch that succeeds. -/
def Fine (dev : Device) (i : Nat) (ret : Result) (c : Conn)
    (answers : Answers Command fun _ => Result) : Prop :=
  match verdict dev (strip ret.text) with
  | .output => ret.reached = true
  | .offline => True
  | .notFound => i = 3 → ∀ c', ((switchConnect dev c).run answers).2 ≠ .ok (true, c')

section Ends

variable {dev : Device} {build : Conn → Adb (List Text × Conn)} {i : Nat} {ret : Result} {c : Conn}
  {answers : Answers Command fun _ => Result}

/-- Only `DeviceOffline` is raised. -/
def OnlyOffline {α : Type} (dev : Device) (d : Adb α) : Prop :=
  d.Always (fun _ => True) (fun _ => True) fun e => e = deviceOffline dev

theorem OnlyOffline.pure {α : Type} (a : α) : OnlyOffline dev (pure a) := by
  simp [OnlyOffline]

theorem OnlyOffline.raise {α : Type} : OnlyOffline dev (.raise (deviceOffline dev) : Adb α) := by
  simp [OnlyOffline]

theorem OnlyOffline.runShell (command : Command) : OnlyOffline dev (runShell command) := by
  simp [OnlyOffline, AdbShell.runShell]

theorem OnlyOffline.bind {α β : Type} {d : Adb α} {f : α → Adb β} (hd : OnlyOffline dev d)
    (hf : ∀ a, OnlyOffline dev (f a)) : OnlyOffline dev (d >>= f) :=
  Dialogue.always_bind.mpr (hd.mono fun a _ => hf a)

theorem onlyOffline_getDeviceIp (c : Conn) (cmds : List Text) :
    OnlyOffline dev (getDeviceIp dev c cmds) := by
  induction cmds with
  | nil => exact .pure none
  | cons cmd cmds ih =>
    apply OnlyOffline.bind (.runShell _)
    intro r
    split
    · exact ih
    · split
      · exact .pure _
      · exact ih

theorem onlyOffline_hello (shellCmd : Text) (n : Nat) : OnlyOffline dev (hello shellCmd n) := by
  induction n with
  | zero => exact .pure false
  | succ n ih =>
    apply OnlyOffline.bind (.runShell _)
    intro r
    split
    · exact .pure true
    · exact ih

theorem onlyOffline_connect (ip shellCmd : Text) (n : Nat) :
    OnlyOffline dev (connect dev ip shellCmd n) := by
  induction n with
  | zero => exact .pure false
  | succ n ih =>
    apply OnlyOffline.bind (.runShell _)
    intro r
    split
    · apply OnlyOffline.bind (onlyOffline_hello shellCmd 2)
      intro greeted
      split
      · exact .pure true
      · exact ih
    · exact ih

theorem onlyOffline_switchToIpConnect (c : Conn) : OnlyOffline dev (switchToIpConnect dev c) := by
  unfold switchToIpConnect
  split
  · apply OnlyOffline.bind (onlyOffline_getDeviceIp c _)
    intro found
    split
    · exact .pure _
    · apply OnlyOffline.bind (.runShell _)
      intro _
      apply OnlyOffline.bind (onlyOffline_connect _ _ 2)
      intro connected
      split
      · exact .pure _
      · exact .pure _
  · exact .pure _

theorem onlyOffline_switchToUsbConnect (c : Conn) : OnlyOffline dev (switchToUsbConnect dev c) := by
  unfold switchToUsbConnect
  split
  · apply OnlyOffline.bind (onlyOffline_hello _ 1)
    intro greeted
    split
    · apply OnlyOffline.bind (.runShell _)
      intro _
      exact .pure _
    · exact .pure _
  · exact .pure _

theorem onlyOffline_switchConnect (c : Conn) : OnlyOffline dev (switchConnect dev c) := by
  unfold switchConnect
  split
  · split
    · exact onlyOffline_switchToIpConnect c
    · exact onlyOffline_switchToUsbConnect c
  · exact .pure _

theorem onlyOffline_settle (i : Nat) (ret : Result) (c : Conn) :
    OnlyOffline dev (settle dev i ret c) := by
  unfold settle
  split
  · exact .pure _
  · exact .raise
  · split
    · exact .pure _
    · apply OnlyOffline.bind (onlyOffline_switchConnect c)
      intro switched
      dsimp only
      split
      · exact .pure _
      · exact .raise

theorem onlyOffline_runTurn (hbuild : ∀ c, OnlyOffline dev (build c)) (c : Conn) :
    OnlyOffline dev (runTurn build c) := by
  apply OnlyOffline.bind (hbuild c)
  intro command
  apply OnlyOffline.bind (.runShell _)
  intro ret
  exact .pure _

theorem onlyOffline_shellLoop (hbuild : ∀ c, OnlyOffline dev (build c)) (is : List Nat) :
    ∀ c, OnlyOffline dev (shellLoop dev build is c) := by
  induction is with
  | nil => exact fun c => .pure _
  | cons i is ih =>
    intro c
    apply OnlyOffline.bind (onlyOffline_runTurn hbuild c)
    intro ret
    apply OnlyOffline.bind (onlyOffline_settle i _ _)
    intro settled
    dsimp only
    split
    · exact .pure _
    · exact ih _

theorem onlyOffline_plainCommand (cmd : Text) (c : Conn) : OnlyOffline dev (plainCommand cmd c) :=
  .pure _

theorem onlyOffline_findSu (c : Conn) (files : List Text) : OnlyOffline dev (findSu c files) := by
  induction files with
  | nil => exact .pure _
  | cons file files ih =>
    apply OnlyOffline.bind (.runShell _)
    intro r
    split
    · exact .pure file
    · exact ih

theorem onlyOffline_suFile (c : Conn) : OnlyOffline dev (suFile dev c) := by
  unfold suFile
  split
  · exact .pure _
  · apply OnlyOffline.bind (onlyOffline_shellLoop (onlyOffline_plainCommand _) turns c)
    intro output
    dsimp only
    split
    · exact .pure _
    · apply OnlyOffline.bind (onlyOffline_findSu _ suFiles)
      intro file
      exact .pure _

theorem onlyOffline_suCommand (cmd : Text) (c : Conn) : OnlyOffline dev (suCommand dev cmd c) := by
  apply OnlyOffline.bind (onlyOffline_suFile c)
  intro file
  exact .pure _

theorem onlyOffline_command (cmd : Text) (suCmd : Bool) (c : Conn) :
    OnlyOffline dev ((if suCmd then suCommand dev cmd else plainCommand cmd) c) := by
  split
  · exact onlyOffline_suCommand cmd c
  · exact onlyOffline_plainCommand cmd c

theorem OnlyOffline.eq {α : Type} {d : Adb α} (hd : OnlyOffline dev d) {e : PyExn}
    (he : (d.run answers).2 = .error e) : e = deviceOffline dev :=
  (hd.run answers).2.2 e he

/-! ### Turns -/

theorem settle_output (h : verdict dev (strip ret.text) = .output) :
    ((settle dev i ret c).run answers).2 = .ok (some ⟨strip ret.text, ret.reached⟩, c) := by
  unfold settle
  rw [h]
  rfl

theorem settle_offline (h : verdict dev (strip ret.text) = .offline) :
    ((settle dev i ret c).run answers).2 = .error (deviceOffline dev) := by
  unfold settle
  rw [h]
  rfl

theorem settle_early (h : verdict dev (strip ret.text) = .notFound) (hi : i < 2) :
    ((settle dev i ret c).run answers).2 = .ok (none, c) := by
  unfold settle
  rw [h]
  simp [hi]

/-- From the third turn on a device that is not found takes a switch. -/
theorem settle_late (h : verdict dev (strip ret.text) = .notFound) (hi : ¬ i < 2) :
    (∃ c', ((switchConnect dev c).run answers).2 = .ok (true, c') ∧
      ((settle dev i ret c).run answers).2 = .ok (none, c')) ∨
    ((∀ c', ((switchConnect dev c).run answers).2 ≠ .ok (true, c')) ∧
      ((settle dev i ret c).run answers).2 = .error (deviceOffline dev)) := by
  have hrun : ((settle dev i ret c).run answers).2 =
      match ((switchConnect dev c).run answers).2 with
      | .ok (switched, c') => if switched then .ok (none, c') else .error (deviceOffline dev)
      | .error e => .error e := by
    unfold settle
    rw [h]
    dsimp only
    rw [if_neg hi, Dialogue.run_bind]
    cases ((switchConnect dev c).run answers).2 with
    | error e => rfl
    | ok switched =>
      obtain ⟨switched, c'⟩ := switched
      cases switched with
      | false => rfl
      | true => rfl
  cases hswitch : ((switchConnect dev c).run answers).2 with
  | error e =>
    right
    rw [hrun, hswitch, (onlyOffline_switchConnect c).eq hswitch]
    exact ⟨fun c' => nofun, rfl⟩
  | ok switched =>
    obtain ⟨switched, c'⟩ := switched
    rw [hrun, hswitch]
    cases switched with
    | false => exact Or.inr ⟨fun c' => nofun, rfl⟩
    | true => exact Or.inl ⟨c', rfl, rfl⟩

theorem shellLoop_run {is : List Nat} {c' : Conn}
    (hrun : ((runTurn build c).run answers).2 = .ok (ret, c')) :
    ((shellLoop dev build (i :: is) c).run answers).2 =
      match ((settle dev i ret c').run ((runTurn build c).left answers)).2 with
      | .ok (some output, c'') => .ok (some output, c'')
      | .ok (none, c'') => ((shellLoop dev build is c'').run
          ((settle dev i ret c').left ((runTurn build c).left answers))).2
      | .error e => .error e := by
  rw [shellLoop, Dialogue.run_bind, hrun]
  dsimp only
  rw [Dialogue.run_bind]
  cases ((settle dev i ret c').run ((runTurn build c).left answers)).2 with
  | error e => rfl
  | ok settled =>
    obtain ⟨output, c''⟩ := settled
    cases output with
    | none => rfl
    | some output => rfl

/-- The runs that a loop sees are that of its first turn and, after a retry, those of the rest. -/
theorem forall_sees_cons {is : List Nat} {c' : Conn}
    (hrun : ((runTurn build c).run answers).2 = .ok (ret, c')) :
    (∀ j ret' c'' answers', Sees dev build (i :: is) c answers j ret' c'' answers' →
        Fine dev j ret' c'' answers') ↔
      Fine dev i ret c' ((runTurn build c).left answers) ∧
      ∀ next, ((settle dev i ret c').run ((runTurn build c).left answers)).2 = .ok (none, next) →
        ∀ j ret' c'' answers', Sees dev build is next
          ((settle dev i ret c').left ((runTurn build c).left answers)) j ret' c'' answers' →
            Fine dev j ret' c'' answers' := by
  constructor
  · intro h
    refine ⟨h _ _ _ _ (.here hrun), fun next hsettle j ret' c'' answers' hsees => ?_⟩
    exact h _ _ _ _ (.later hrun hsettle hsees)
  · rintro ⟨hfine, hrest⟩ j ret' c'' answers' hsees
    cases hsees with
    | here h =>
      rw [hrun] at h
      cases h
      exact hfine
    | later h hsettle hsees =>
      rw [hrun] at h
      cases h
      exact hrest _ hsettle _ _ _ _ hsees

/-- In the turns from `i` on, of which the last is the one with the number 3. -/
theorem sound_shellLoop_iff (hbuild : ∀ c, OnlyOffline dev (build c)) {is : List Nat}
    (hne : is ≠ []) (hlast : ∀ i rest, (i :: rest) <:+ is → (i = 3 ↔ rest = [])) :
    ∀ (c : Conn) answers, Sound dev ((shellLoop dev build is c).run answers).2 ↔
      ∀ i ret c' answers', Sees dev build is c answers i ret c' answers' →
        Fine dev i ret c' answers' := by
  induction is with
  | nil => exact absurd rfl hne
  | cons i is ih =>
    intro c answers
    cases hrun : ((runTurn build c).run answers).2 with
    | error e =>
      have hsound : Sound dev ((shellLoop dev build (i :: is) c).run answers).2 := by
        rw [shellLoop, Dialogue.run_bind, hrun]
        exact (onlyOffline_runTurn hbuild c).eq hrun
      refine iff_of_true hsound fun j ret' c'' answers' hsees => ?_
      cases hsees with
      | here h => rw [hrun] at h; cases h
      | later h => rw [hrun] at h; cases h
    | ok run =>
      obtain ⟨ret, c'⟩ := run
      rw [forall_sees_cons hrun, shellLoop_run hrun]
      cases hverdict : verdict dev (strip ret.text) with
      | output =>
        rw [settle_output hverdict]
        simp [Sound, Fine, hverdict]
      | offline =>
        rw [settle_offline hverdict]
        simp [Sound, Fine, hverdict]
      | notFound =>
        -- the turns after a retry: there are none after the last one
        have htail : ∀ next answers, Sound dev ((shellLoop dev build is next).run answers).2 ↔
            i ≠ 3 ∧ ∀ j ret' c'' answers', Sees dev build is next answers j ret' c'' answers' →
              Fine dev j ret' c'' answers' := by
          intro next answers
          have hi := hlast i is (List.suffix_refl _)
          by_cases hnil : is = []
          · subst hnil
            simp [shellLoop, Sound, hi]
          · rw [ih hnil fun j rest h => hlast j rest (h.trans (List.suffix_cons i is))]
            simp [hi, hnil]
        have hfine : Fine dev i ret c' ((runTurn build c).left answers) ↔
            (i = 3 → ∀ next, ((switchConnect dev c').run ((runTurn build c).left answers)).2 ≠
              .ok (true, next)) := by
          simp [Fine, hverdict]
        by_cases hi : i < 2
        · have hne : i ≠ 3 := by omega
          rw [settle_early hverdict hi, hfine]
          simp [htail, hne]
        · rcases @settle_late dev i ret c' ((runTurn build c).left answers) hverdict hi with
            ⟨next, hswitch, hsettle⟩ | ⟨hswitch, hsettle⟩
          · rw [hsettle, hfine]
            simp [htail, hswitch]
          · rw [hsettle, hfine]
            simp [Sound, hswitch]

/-- **How a call of `shell` ends.**  It returns the text of a run that reached the device or raises
    `DeviceOffline`, exactly when all the runs of the command that it makes are fine. -/
theorem shell_sound_iff (dev : Device) (cmd : Text) (suCmd : Bool) (c : Conn)
    (answers : Answers Command fun _ => Result) :
    Sound dev ((shell dev cmd suCmd c).run answers).2 ↔
      ∀ i ret c' answers', Sees dev (if suCmd then suCommand dev cmd else plainCommand cmd) turns c
        answers i ret c' answers' → Fine dev i ret c' answers' := by
  apply sound_shellLoop_iff (onlyOffline_command cmd suCmd) (by decide)
  intro i rest hsuffix
  simp only [turns, List.suffix_cons_iff, List.cons.injEq, List.suffix_nil] at hsuffix
  rcases hsuffix with ⟨rfl, rfl⟩ | ⟨rfl, rfl⟩ | ⟨rfl, rfl⟩ | ⟨rfl, rfl⟩ | h
  · decide
  · decide
  · decide
  · decide
  · cases h

end Ends

/-! ### Two bad ends -/

def usbDevice : Device where
  adbPath := "adb".toList
  deviceId := "X1".toList
  usbMode := true
  tcpPort := "5555".toList
  win32 := false
  firstIp _ := none

def usbConn : Conn where
  cmd := "adb -s X1 ".toList
  shellcmd := "adb -s X1 shell ".toList
  shellcmdList := ["adb".toList, "-s".toList, "X1".toList, "shell".toList]
  connectIp := some "10.0.0.7".toList
  suFile := none

def ipConn : Conn where
  cmd := "adb -s 10.0.0.7 ".toList
  shellcmd := "adb -s 10.0.0.7 shell ".toList
  shellcmdList := ["adb".toList, "-s".toList, "10.0.0.7".toList, "shell".toList]
  connectIp := some "10.0.0.7".toList
  suFile := none

/-- A run that finds no device under the address. -/
def missing (target : Text) : Result := ⟨1, "error: ".toList ++ notFoundMessage target, false⟩

/-- The device id is not found three times, and the switch to IP succeeds without a new address. -/
def switched : List Result :=
  [missing "X1".toList, missing "X1".toList, missing "X1".toList, missing "X1".toList,
    missing "X1".toList, missing "X1".toList, missing "X1".toList,
    ⟨0, "connected to 10.0.0.7:5555".toList, false⟩, ⟨0, "hello".toList, true⟩]

def answersOf (results : List Result) : Answers Command fun _ => Result :=
  fun n _ => results.getD n (missing [])

/-- `self.shell("ls")` on USB, with these results after the switch. -/
def outcomeAfterSwitch (results : List Result) : Except PyExn (Option Output × Conn) :=
  ((shell usbDevice "ls".toList false usbConn).run (answersOf (switched ++ results))).2

/-- After the switch adb's message about the address in use is returned as output. -/
theorem message_returned :
    outcomeAfterSwitch [missing "10.0.0.7".toList] =
        .ok (some ⟨"error: ".toList ++ notFoundMessage "10.0.0.7".toList, false⟩, ipConn) ∧
      ¬ Sound usbDevice (outcomeAfterSwitch [missing "10.0.0.7".toList]) := by
  have hout : outcomeAfterSwitch [missing "10.0.0.7".toList] =
      .ok (some ⟨"error: ".toList ++ notFoundMessage "10.0.0.7".toList, false⟩, ipConn) := by
    decide +kernel
  refine ⟨hout, ?_⟩
  rw [hout]
  exact Bool.false_ne_true

/-- Where the fourth run finds no device either and the switch back succeeds, `None` is returned. -/
theorem none_returned :
    outcomeAfterSwitch [missing "X1".toList, ⟨0, "hello".toList, true⟩] = .ok (none, usbConn) := by
  decide +kernel

end Albatross.AdbShell
