/-
  Albatross/PushFile.lean
  =======================
  **What a push changes on the device** (`device.py`: `AlbatrossDevice.push_file`, with
  `delete_file`).

  The attribute commands name the destination as it is passed.  The commands that delete
  and move name it completed with the name of the file, but it is completed only in the
  branch that compares the digests, for a checked push or a file of more than 8192 bytes.
  So a destination that ends in `/` is itself deleted, or changed, on the other paths
  (`push_touches_target_iff`).

  What adb, the digests and the local file system answer is arbitrary, and so is how the
  device's shell reads the text behind a command as paths (`reads`): a text with blanks may
  be several.  The words in front of it are taken to be words, and the local shell is taken
  to hand on what stands between double quotes.
-/
import Albatross.Dialogues
import Albatross.PluginHandles
import Albatross.PyText

namespace Albatross.PushFile

open Dialogues
open PluginRegistry (Path)
open PluginHandles (basename)
open PyText (truthy)
open Python (Bytes PyExn utf8)

/-! ### The code -/

/-- The commands of `push_file`, each with the text behind it: `rm -rf {path}`,
    `chmod {mode} {path}`, `chcon u:object_r:{fileType}:s0 {path}`, `chown {owner}:{owner} {path}`
    and `mkdir -p {dir} && mv {source} {path}`. -/
inductive Command where
  | rmRf (path : Path)
  | chmod (mode : String) (path : Path)
  | chcon (fileType : String) (path : Path)
  | chown (owner : String) (path : Path)
  | mkdirMv (dir source path : Path)
deriving DecidableEq

/-- What the command deletes, changes or moves a file to. -/
def Command.operand : Command → Path
  | .rmRf path => path
  | .chmod _ path => path
  | .chcon _ path => path
  | .chown _ path => path
  | .mkdirMv _ _ path => path

inductive Question where
  | pathExists (file : Path)
  | fileMd5 (file : Path)
  | getFileMd5 (path : Path)
  | rootShell (commands : List Command)
  | push (file path : Path)
  | isRoot
deriving DecidableEq

/-- The commands that a question has the device execute. -/
def Question.commands : Question → List Command
  | .rootShell commands => commands
  | _ => []

/-- `self.shell_user`. -/
inductive ShellUser where
  | shell
  | root
deriving DecidableEq

/-- The property `self.is_root`: `adb` also sets `self.shell_user` to `root`. -/
inductive Root where
  | adb
  | su
  | no
deriving DecidableEq

/-- A shell may raise, and its text may be `None`. -/
abbrev Answer : Question → Type
  | .pathExists _ => Bool
  | .fileMd5 _ => Except PyExn (Option (List Char))
  | .getFileMd5 _ => Except PyExn (Option (List Char))
  | .rootShell _ => Except PyExn (Option (List Char))
  | .push _ _ => Int × Bytes
  | .isRoot => Except PyExn Root

instance (q : Question) : Nonempty (Answer q) := by
  cases q with
  | pathExists => exact ⟨false⟩
  | push => exact ⟨(0, [])⟩
  | isRoot => exact ⟨.ok Root.no⟩
  | _ => exact ⟨.ok none⟩

abbrev Adb := Dialogue Question Answer PyExn

structure LocalFile where
  path : Path
  st_size : Nat

def fileMd5 (file : Path) : Adb (Option (List Char)) := .ask (.fileMd5 file) .done

def getFileMd5 (path : Path) : Adb (Option (List Char)) := .ask (.getFileMd5 path) .done

def rootShell (commands : List Command) : Adb (Option (List Char)) :=
  .ask (.rootShell commands) .done

def pathExists (file : Path) : Adb Bool := .ask (.pathExists file) fun found => .done (.ok found)

def push (file path : Path) : Adb (Int × Bytes) := .ask (.push file path) fun ret => .done (.ok ret)

def isRoot : Adb Root := .ask .isRoot .done

def deleteFile (path : Path) : Adb Unit := do
  let _ ← rootShell [.rmRf path]
  pure ()

/-- `posixpath.dirname`. -/
def dirname (path : Path) : Path :=
  let head := path.rdropWhile (· ≠ '/')
  if head.all (· = '/') then head else head.rdropWhile (· = '/')

/-- A mode, file type or owner that is given. -/
def given (s : Option String) : Option String := s.filter fun t => t ≠ ""

def extraCmds (dst : Path) (mode fileType owner : Option String) : List Command :=
  ((given mode).map fun mode => .chmod mode dst).toList ++
    ((given fileType).map fun fileType => .chcon fileType dst).toList ++
      ((given owner).map fun owner => .chown owner dst).toList

/-- `if extra_cmds: self.root_shell(';'.join(extra_cmds))`. -/
def runExtra (extra : List Command) : Adb Unit :=
  if extra = [] then pure () else do
    let _ ← rootShell extra
    pure ()

/-- `if dst[-1] == "/": dst += os.path.basename(file)`. -/
def complete (file dst : Path) : Except PyExn Path :=
  match dst.getLast? with
  | none => .error .indexError
  | some c => .ok (if c = '/' then dst ++ basename file else dst)

def tmpDir : Path := "/data/local/tmp/".toList

/-- The block `if self.is_root and self.shell_user == 'shell':`. -/
def pushViaTmp (user : ShellUser) (file : Path) (md5Dst : List Char) (dst : Path)
    (extra : List Command) : Adb Bool := do
  let root ← isRoot
  if root = .su ∧ user = .shell then
    let tmpPath := tmpDir ++ md5Dst
    let (retCode, _) ← push file tmpPath
    if retCode = 0 then
      let command ← rootShell [.mkdirMv (dirname dst) tmpPath dst]
      if truthy command = none then
        runExtra extra
        pure true
      else pure false
    else pure false
  else pure false

def transfer (user : ShellUser) (file : Path) (md5Dst : List Char) (dst : Path)
    (extra : List Command) : Adb Bool := do
  let (retCode, s) ← push file dst
  if retCode = 0 then
    runExtra extra
    pure true
  else if utf8 "pushed" <:+: s then
    let newMd5 ← getFileMd5 dst
    if newMd5 = some md5Dst then pure true
    else pushViaTmp user file md5Dst dst extra
  else pushViaTmp user file md5Dst dst extra

/-- `stale` is `md5_current is not None`. -/
def replace (user : ShellUser) (file : Path) (md5Dst : List Char) (stale : Bool) (dst : Path)
    (extra : List Command) : Adb Bool := do
  if user = .shell ∧ stale then deleteFile dst
  transfer user file md5Dst dst extra

def pushDigested (user : ShellUser) (file : LocalFile) (md5Dst : List Char) (dst : Path)
    (check : Bool) (extra : List Command) : Adb Bool := do
  if check ∨ 8192 < file.st_size then
    let dst ← .done (complete file.path dst)
    let md5Current ← getFileMd5 dst
    if md5Current = some md5Dst then
      runExtra extra
      pure false
    else replace user file.path md5Dst md5Current.isSome dst extra
  else replace user file.path md5Dst true dst extra

def pushFile (user : ShellUser) (file : LocalFile) (dst : Path) (check : Bool)
    (mode fileType owner : Option String) : Adb Bool := do
  if ← pathExists file.path then
    match truthy (← fileMd5 file.path) with
    | none => pure false
    | some md5Dst => pushDigested user file md5Dst dst check (extraCmds dst mode fileType owner)
  else pure false

/-! ### What the commands name -/

/-- Where adb puts the file: a path that ends in `/` is a directory. -/
def destination (file dst : Path) : Path :=
  if dst.getLast? = some '/' then dst ++ basename file else dst

section Names

variable {reads : Path → List Path} {target : Path}

/-- The text behind every command is read as the one path. -/
def Names (reads : Path → List Path) (target : Path) (q : Question) : Prop :=
  ∀ c ∈ q.commands, reads c.operand = [target]

variable {user : ShellUser} {file dst : Path} {md5Dst : List Char} {stale : Bool}
  {extra : List Command}

/-- Every command that may be issued names the target. -/
abbrev OnlyNames {α : Type} (reads : Path → List Path) (target : Path) (d : Adb α) : Prop :=
  d.Always (Names reads target) (fun _ => True) fun _ => True

theorem names_rootShell (commands : List Command) : Names reads target (.rootShell commands) ↔
    ∀ c ∈ commands, reads c.operand = [target] := Iff.rfl

theorem names_of_nil {q : Question} (hq : q.commands = []) : Names reads target q := by
  unfold Names
  simp [hq]

/-! What may follow a question. -/

section Asking

variable {R : Option (List Char) → Prop}

theorem always_rootShell {commands : List Command} :
    (rootShell commands).Always (Names reads target) R (fun _ => True) ↔
      (∀ c ∈ commands, reads c.operand = [target]) ∧ ∀ text, R text := by
  rw [rootShell, Dialogue.always_ask, names_rootShell]
  exact and_congr_right fun _ => Dialogue.always_answer

theorem always_getFileMd5 {path : Path} :
    (getFileMd5 path).Always (Names reads target) R (fun _ => True) ↔ ∀ digest, R digest := by
  have hquiet : Names reads target (.getFileMd5 path) := names_of_nil rfl
  rw [getFileMd5, Dialogue.always_ask, and_iff_right hquiet]
  exact Dialogue.always_answer

theorem always_fileMd5 :
    (fileMd5 file).Always (Names reads target) R (fun _ => True) ↔ ∀ digest, R digest := by
  have hquiet : Names reads target (.fileMd5 file) := names_of_nil rfl
  rw [fileMd5, Dialogue.always_ask, and_iff_right hquiet]
  exact Dialogue.always_answer

theorem always_isRoot {R : Root → Prop} :
    isRoot.Always (Names reads target) R (fun _ => True) ↔ ∀ root, R root := by
  have hquiet : Names reads target .isRoot := names_of_nil rfl
  rw [isRoot, Dialogue.always_ask, and_iff_right hquiet]
  exact Dialogue.always_answer

theorem always_push {path : Path} {R : Int × Bytes → Prop} :
    (push file path).Always (Names reads target) R (fun _ => True) ↔ ∀ ret, R ret := by
  have hquiet : Names reads target (.push file path) := names_of_nil rfl
  simp only [push, Dialogue.always_ask, hquiet, Dialogue.always_ok, true_and]

theorem always_pathExists {R : Bool → Prop} :
    (pathExists file).Always (Names reads target) R (fun _ => True) ↔ ∀ found, R found := by
  have hquiet : Names reads target (.pathExists file) := names_of_nil rfl
  simp only [pathExists, Dialogue.always_ask, hquiet, Dialogue.always_ok, true_and]

end Asking

theorem onlyNames_runExtra :
    OnlyNames reads target (runExtra extra) ↔ ∀ c ∈ extra, reads c.operand = [target] := by
  unfold OnlyNames runExtra
  split
  · next hnil => simp [hnil]
  · simp [always_rootShell]

theorem onlyNames_pushViaTmp : OnlyNames reads target (pushViaTmp user file md5Dst dst extra) ↔
    (user = .shell → reads dst = [target] ∧ ∀ c ∈ extra, reads c.operand = [target]) := by
  simp only [OnlyNames, pushViaTmp, Dialogue.always_bind, always_isRoot, Dialogue.always_ite,
    always_push, always_rootShell, onlyNames_runExtra, Dialogue.pure_eq, Dialogue.always_ok,
    List.forall_mem_singleton, Command.operand, implies_true, and_true]
  constructor
  · intro h huser
    obtain ⟨hmove, hextra⟩ := h .su ⟨rfl, huser⟩ (0, []) rfl
    exact ⟨hmove, hextra none rfl⟩
  · intro h root hroot ret hret
    obtain ⟨hdst, hextra⟩ := h hroot.2
    exact ⟨hdst, fun text htext => hextra⟩

theorem onlyNames_transfer : OnlyNames reads target (transfer user file md5Dst dst extra) ↔
    (user = .shell → reads dst = [target]) ∧ ∀ c ∈ extra, reads c.operand = [target] := by
  simp only [OnlyNames, transfer, Dialogue.always_bind, always_push, Dialogue.always_ite,
    always_getFileMd5, onlyNames_runExtra, onlyNames_pushViaTmp, Dialogue.pure_eq,
    Dialogue.always_ok, implies_true, true_and]
  constructor
  · intro h
    have hpushed : ¬ utf8 "pushed" <:+: ([] : Bytes) := by
      rw [List.infix_nil, Python.utf8_eq_nil]
      decide
    refine ⟨fun huser => ?_, (h (0, [])).1 rfl⟩
    exact (((h (1, [])).2 (by decide)).2 hpushed huser).1
  · rintro ⟨hdst, hextra⟩ ret
    refine ⟨fun _ => hextra, fun _ => ⟨fun _ digest _ huser => ?_, fun _ huser => ?_⟩⟩
    · exact ⟨hdst huser, hextra⟩
    · exact ⟨hdst huser, hextra⟩

theorem onlyNames_replace :
    OnlyNames reads target (replace user file md5Dst stale dst extra) ↔
      (user = .shell → reads dst = [target]) ∧ ∀ c ∈ extra, reads c.operand = [target] := by
  have hdelete : ∀ {R : Prop}, (deleteFile dst).Always (Names reads target) (fun _ => R)
      (fun _ => True) ↔ reads dst = [target] ∧ R := by
    simp [deleteFile, always_rootShell, Command.operand]
  simp only [OnlyNames, replace, Dialogue.always_bind, Dialogue.always_ite, hdelete,
    onlyNames_transfer]
  constructor
  · rintro ⟨hstale, hfresh⟩
    by_cases h : user = .shell ∧ stale = true
    · exact (hstale h).2
    · exact hfresh h
  · exact fun h => ⟨fun hstale => ⟨h.1 hstale.1, h⟩, fun _ => h⟩

end Names

/-! ### A push -/

/-- A mode, a file type or an owner is to be set. -/
def Attributes (mode fileType owner : Option String) : Prop :=
  given mode ≠ none ∨ given fileType ≠ none ∨ given owner ≠ none

/-- The attribute commands, if there are any, name the destination as passed, and a deletion or
    move, which takes the shell user, names it completed only if digests are compared. -/
def Targeted (reads : Path → List Path) (user : ShellUser) (file : LocalFile) (dst : Path)
    (check : Bool) (mode fileType owner : Option String) : Prop :=
  (Attributes mode fileType owner → reads dst = [destination file.path dst]) ∧
    (user = .shell →
      reads (if check ∨ 8192 < file.st_size then destination file.path dst else dst) =
        [destination file.path dst])

section Push

variable {reads : Path → List Path} {target : Path} {user : ShellUser} {file : LocalFile}
  {dst : Path} {check : Bool} {mode fileType owner : Option String}

theorem complete_eq {file : Path} (hdst : dst ≠ []) :
    complete file dst = .ok (destination file dst) := by
  unfold complete destination
  cases hlast : dst.getLast? with
  | none => exact absurd (List.getLast?_eq_none_iff.mp hlast) hdst
  | some c => simp

theorem extraCmds_names : (∀ c ∈ extraCmds dst mode fileType owner, reads c.operand = [target]) ↔
    (Attributes mode fileType owner → reads dst = [target]) := by
  unfold extraCmds Attributes
  cases given mode <;> cases given fileType <;> cases given owner <;> simp [Command.operand]

theorem onlyNames_pushDigested (hdst : dst ≠ []) (md5Dst : List Char) :
    OnlyNames reads (destination file.path dst)
        (pushDigested user file md5Dst dst check (extraCmds dst mode fileType owner)) ↔
      Targeted reads user file dst check mode fileType owner := by
  unfold OnlyNames pushDigested Targeted
  by_cases hcompare : check = true ∨ 8192 < file.st_size
  · simp only [hcompare, if_true, complete_eq hdst, Dialogue.done_ok_bind, Dialogue.always_bind,
      always_getFileMd5, Dialogue.always_ite, onlyNames_runExtra, extraCmds_names,
      onlyNames_replace, Dialogue.pure_eq, Dialogue.always_ok]
    constructor
    · intro h
      obtain ⟨huser, hattributes⟩ := (h none).2 (by simp)
      exact ⟨hattributes, huser⟩
    · rintro ⟨hattributes, huser⟩ digest
      exact ⟨fun _ => hattributes, fun _ => ⟨huser, hattributes⟩⟩
  · simp only [hcompare, if_false, onlyNames_replace, extraCmds_names]
    exact and_comm

theorem onlyNames_pushFile (hdst : dst ≠ []) :
    OnlyNames reads (destination file.path dst)
        (pushFile user file dst check mode fileType owner) ↔
      Targeted reads user file dst check mode fileType owner := by
  simp only [OnlyNames, pushFile, Dialogue.always_bind, always_pathExists, Dialogue.always_ite,
    always_fileMd5, Dialogue.pure_eq, Dialogue.always_ok, implies_true, and_true]
  constructor
  · intro h
    exact (onlyNames_pushDigested hdst ['0']).mp (h true rfl (some ['0']))
  · intro h found _ digest
    split
    · exact (Dialogue.always_ok _).mpr trivial
    · exact (onlyNames_pushDigested hdst _).mpr h

/-- **What a push touches.**  Whatever adb and the digests answer, every command names the path of
    the pushed file, exactly when the texts behind the commands do. -/
theorem push_touches_target_iff (reads : Path → List Path) (user : ShellUser) (file : LocalFile)
    (dst : Path) (hdst : dst ≠ []) (check : Bool) (mode fileType owner : Option String) :
    (∀ answers, ∀ e ∈ ((pushFile user file dst check mode fileType owner).run answers).1,
        ∀ c ∈ e.1.commands, reads c.operand = [destination file.path dst]) ↔
      Targeted reads user file dst check mode fileType owner := by
  rw [← onlyNames_pushFile hdst, OnlyNames, Dialogue.always_iff]
  constructor
  · exact fun h answers => ⟨h answers, fun _ _ => trivial, fun _ _ => trivial⟩
  · exact fun h answers => (h answers).1

/-- A checked push into a directory without attributes. -/
theorem push_touches_target_iff_directory :
    Targeted (fun path => [path]) .shell ⟨"/home/a.dex".toList, 100⟩ "/data/local/tmp/".toList true
        none none none ∧
      ∀ answers, ∀ e ∈ ((pushFile .shell ⟨"/home/a.dex".toList, 100⟩ "/data/local/tmp/".toList true
          none none none).run answers).1,
        ∀ c ∈ e.1.commands, [c.operand] = ["/data/local/tmp/a.dex".toList] := by
  have htargeted : Targeted (fun path => [path]) .shell ⟨"/home/a.dex".toList, 100⟩
      "/data/local/tmp/".toList true none none none :=
    ⟨fun h => by simp [Attributes, given] at h, fun _ => by decide⟩
  exact ⟨htargeted, (push_touches_target_iff (fun path => [path]) .shell
    ⟨"/home/a.dex".toList, 100⟩ "/data/local/tmp/".toList (by decide) true none none none).mpr
      htargeted⟩

/-- Where the shell reads both texts as they are, the trouble is a directory. -/
theorem targeted_iff_of_plain (hdst : reads dst = [dst])
    (htarget : reads (destination file.path dst) = [destination file.path dst]) :
    Targeted reads user file dst check mode fileType owner ↔ dst = destination file.path dst ∨
      ¬ Attributes mode fileType owner ∧ (user = .shell → check ∨ 8192 < file.st_size) := by
  unfold Targeted
  by_cases hsame : dst = destination file.path dst
  · simp [← hsame, hdst]
  · by_cases hcompare : check = true ∨ 8192 < file.st_size
    · simp [hcompare, hdst, hsame, htarget]
    · simp [hcompare, hdst, hsame]

/-- An unchecked push of a small file into a directory deletes the directory. -/
theorem directory_deleted : ¬ ∀ answers : Dialogues.Answers Question Answer,
    ∀ e ∈ ((pushFile .shell ⟨"/home/a.dex".toList, 100⟩ "/data/local/tmp/".toList false
        none none none).run answers).1,
      ∀ c ∈ e.1.commands, c.operand =
        destination "/home/a.dex".toList "/data/local/tmp/".toList := by
  intro h
  have hrm := h (fun _ q => match q with
    | .pathExists _ => true
    | .fileMd5 _ => .ok (some ['0'])
    | .getFileMd5 _ => .ok none
    | .rootShell _ => .ok none
    | .push _ _ => (0, [])
    | .isRoot => .ok .no)
    ⟨.rootShell [.rmRf "/data/local/tmp/".toList], .ok none⟩
    (List.mem_cons_of_mem _ (List.mem_cons_of_mem _ List.mem_cons_self))
    (.rmRf "/data/local/tmp/".toList) List.mem_cons_self
  revert hrm
  decide

end Push

end Albatross.PushFile
