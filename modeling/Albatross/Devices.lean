/-
  Albatross/Devices.lean
  ======================
  **Which devices are handed out** (`device.py`: `get_devices`, `check_device_alive`,
  `device_alive`, `check_alive`, `disconnect`, `DeviceManager`, `destroy_device`).

  The manager keeps one object for each device id that it has handed out.  It hands out a
  device that adb lists as usable and that answers a ping then: a call ends with the device,
  unless its id is no address, exactly if the last thing that the call hears is the answer
  to a ping (`answered_iff`).  An object is handed out again until its id is removed or
  disconnected (`same_object_iff`).

  What adb answers is arbitrary, and `cached_ip` is off, so that making an object runs no
  command.  An object is named by the number of its creation, which no code reads.
-/
import Albatross.Assoc
import Albatross.PyText
import Albatross.Runs
import Albatross.Worlds
import Mathlib.Data.List.Infix

namespace Albatross.Devices

open Dialogues PyText Runs
open Python (PyExn)

/-! ### The code -/

/-- The commands of adb that are run: `devices`, `disconnect {id}`, `connect {target}` and
    `-s {target} shell echo ping`, with their timeouts in seconds. -/
inductive Question where
  | devices
  | disconnect (id : Text)
  | connect (target : Text) (timeout : Nat)
  | ping (target : Text) (timeout : Nat)
deriving DecidableEq

/-- How `run_shell` ends: the exception's text is the result of a run that fails. -/
inductive Result where
  | ended (text : Text)
  | timedOut
  | failed (text : Text)
deriving DecidableEq

def Result.text : Result → Text
  | .ended text => text
  | .timedOut => []
  | .failed text => text

abbrev Answer (_ : Question) : Type := Result

abbrev Adb := Dialogue Question Answer PyExn

def runShell (q : Question) : Adb Result := .ask q fun result => .done (.ok result)

/-- `re.split("[\r\n]+", text.strip())`: what is stripped neither begins nor ends with a line
    break, so the empty pieces are those inside a run of them. -/
def splitLines (text : Text) : List Text :=
  if strip text = [] then [[]]
  else ((strip text).splitOnP fun c => c = '\r' ∨ c = '\n').filter fun line => !line.isEmpty

def listed (line : Text) : Option (Text × Text) :=
  match split (strip line) with
  | [id, status] => some (id, status)
  | _ => none

def OFFLINE : Text := "offline".toList

def UNAUTHORIZED : Text := "unauthorized".toList

/-- The loop of `get_devices`. -/
def listDevices : List Text → Adb (List Text)
  | [] => pure []
  | line :: lines =>
      match listed line with
      | none => listDevices lines
      | some (id, status) => do
          if status = OFFLINE then
            let _ ← runShell (.disconnect id)
            listDevices lines
          else
            let ids ← listDevices lines
            pure (if status = UNAUTHORIZED then ids else id :: ids)

/-- For a run that does not end, `"Error" in lines` asks for a text in bytes and raises. -/
def getDevices : Adb (List Text) := do
  match ← runShell .devices with
  | .ended text =>
      if (splitLines text).contains "Error".toList then pure []
      else listDevices (splitLines text).tail
  | _ => pure []

def defaultTryTime : Nat := 3

def defaultTimeout : Nat := 2

/-- The loop of `check_device_alive`. -/
def pingLoop (name : Text) : Nat → Nat → Adb Bool
  | 0, _ => pure false
  | n + 1, timeout => do
      let bs ← runShell (.ping name timeout)
      if "ping".toList <+: bs.text then pure true
      else if '.' ∈ name then
        let res ← runShell (.connect name 2)
        if "failed".toList <:+: res.text then pure false
        else if "connected".toList <:+: res.text then pingLoop name n (8 + defaultTimeout)
        else pingLoop name n (timeout + 1)
      else pingLoop name n timeout

def checkDeviceAlive (name : Text) (tryTime : Option Nat) : Adb Bool :=
  pingLoop name ((tryTime.filter fun n => n ≠ 0).getD defaultTryTime)
    (if '.' ∈ name then min (defaultTimeout * 2) 10 else defaultTimeout)

/-- An `AlbatrossDevice`, with `cached_ip` off. -/
structure Device where
  object : Nat
  deviceId : Text
  usbMode : Bool
  connectIp : Text
deriving DecidableEq

/-- `AlbatrossDevice(device_id)`: in an address there is one colon at most. -/
def Device.create (object : Nat) (id : Text) : Except PyExn Device :=
  if '.' ∈ id then
    match id.splitOn ':' with
    | [ip] => .ok ⟨object, id, false, ip⟩
    | [ip, _] => .ok ⟨object, id, false, ip⟩
    | _ => .error .valueError
  else .ok ⟨object, id, true, []⟩

theorem Device.create_ok {object : Nat} {id : Text} {dev : Device}
    (h : Device.create object id = .ok dev) :
    dev.object = object ∧ dev.deviceId = id := by
  unfold create at h
  split at h
  · split at h
    · cases h
      exact ⟨rfl, rfl⟩
    · cases h
      exact ⟨rfl, rfl⟩
    · cases h
  · cases h
    exact ⟨rfl, rfl⟩

theorem Device.create_error {object : Nat} {id : Text} {e : PyExn}
    (h : Device.create object id = .error e) : e = .valueError := by
  unfold create at h
  split at h
  · split at h
    · cases h
    · cases h
    · exact (Except.error.inj h).symm
  · cases h

def Device.target (dev : Device) : Text := if dev.usbMode then dev.deviceId else dev.connectIp

def Device.deviceAlive (dev : Device) (tryTime : Option Nat) : Adb Bool := do
  let _ ← getDevices
  checkDeviceAlive dev.target tryTime

/-- `DeviceOffline(device_id)`. -/
def deviceOffline (id : Text) : PyExn :=
  .user "DeviceOffline" ("device " ++ String.ofList id ++ " offline")

/-- `DeviceNoFindErr(device_id)`. -/
def deviceNoFindErr (id : Text) : PyExn :=
  .user "DeviceNoFindErr" ("device " ++ String.ofList id ++ " not find")

def noDeviceFound : PyExn := .user "NoDeviceFound" ""

def Device.checkAlive (dev : Device) : Adb Unit := do
  if ← dev.deviceAlive (some (if dev.usbMode then 2 else 3)) then pure ()
  else .raise (deviceOffline dev.deviceId)

/-- `DeviceManager.devices`, and how many objects have been created. -/
structure Manager where
  devices : Text → Option Device
  created : Nat

namespace Manager

def empty : Manager := ⟨fun _ => none, 0⟩

def defaultConnectTimeout : Nat := 5

/-- adb connects to `id` unless it is listed. -/
def connectFirst (id : Text) : Adb Unit := do
  let out ← runShell .devices
  if id <:+: out.text then pure ()
  else if '.' ∈ id ∨ "localhost".toList <:+: id then
    let _ ← runShell (.connect id defaultConnectTimeout)
    pure ()
  else
    let port := (id.splitOn ':').getD 1 []
    let _ ← runShell (.connect ("127.0.0.1:".toList ++ port) 2)
    pure ()

/-- The block `if device_id and ":" in device_id:`. -/
def connectWanted (wanted : Option Text) : Adb Unit :=
  match truthy wanted with
  | none => pure ()
  | some id => if ':' ∈ id then connectFirst id else pure ()

/-- The id to hand out, of those that are listed. -/
def choose (wanted : Option Text) (devices : List Text) : Except PyExn Text :=
  match devices with
  | [] => .error noDeviceFound
  | first :: _ =>
      match truthy wanted with
      | none => .ok first
      | some id => if devices.contains id then .ok id else .error (deviceNoFindErr id)

def handOut (m : Manager) (id : Text) : Adb (Device × Manager) :=
  match m.devices id with
  | some dev => do
      dev.checkAlive
      pure (dev, m)
  | none => do
      if ← checkDeviceAlive id none then
        let dev ← .done (Device.create m.created id)
        pure (dev, ⟨Function.update m.devices id (some dev), m.created + 1⟩)
      else .raise (deviceOffline id)

def getDevices (m : Manager) (wanted : Option Text) : Adb (Device × Manager) := do
  connectWanted wanted
  let devices ← Devices.getDevices
  let id ← .done (choose wanted devices)
  handOut m id

def removeDevice (m : Manager) (id : Text) : Manager :=
  { m with devices := Function.update m.devices id none }

/-- `destroy_device`: the next manager is a new one. -/
def destroy (m : Manager) : Manager := { m with devices := fun _ => none }

end Manager

/-! ### What is said -/

def Answered (e : Exchange Answer) : Prop :=
  ∃ target timeout result, e = ⟨.ping target timeout, result⟩ ∧ "ping".toList <+: result.text

def usable (lines : List Text) : List Text :=
  lines.filterMap fun line => ((listed line).filter fun d =>
    d.2 ≠ OFFLINE ∧ d.2 ≠ UNAUTHORIZED).map Prod.fst

/-- The usable devices of an answer to `adb devices`. -/
def Result.usable : Result → List Text
  | .ended text =>
      if (splitLines text).contains "Error".toList then []
      else Devices.usable (splitLines text).tail
  | _ => []

/-- In what has been said since, no ping was answered. -/
def Unanswered (past now : List (Exchange Answer)) : Prop :=
  ∃ more, now = past ++ more ∧ ∀ e ∈ more, ¬ Answered e

theorem Unanswered.refl (past : List (Exchange Answer)) : Unanswered past past :=
  ⟨[], (List.append_nil past).symm, fun _ h => by cases h⟩

theorem Unanswered.trans {past mid now : List (Exchange Answer)} (h : Unanswered past mid)
    (h' : Unanswered mid now) : Unanswered past now := by
  obtain ⟨more, rfl, hmore⟩ := h
  obtain ⟨rest, rfl, hrest⟩ := h'
  refine ⟨more ++ rest, List.append_assoc .., fun e he => ?_⟩
  rcases List.mem_append.mp he with he | he
  · exact hmore e he
  · exact hrest e he

theorem Unanswered.snoc {past : List (Exchange Answer)} {e : Exchange Answer} (he : ¬ Answered e) :
    Unanswered past (past ++ [e]) := by
  refine ⟨[e], rfl, fun x hx => ?_⟩
  obtain rfl := List.mem_singleton.mp hx
  exact he

theorem not_answered_of_not_ping {q : Question} {result : Result}
    (hq : ∀ target timeout, q ≠ .ping target timeout) : ¬ Answered ⟨q, result⟩ := by
  rintro ⟨target, timeout, _, h, -⟩
  exact hq target timeout (congrArg Sigma.fst h)

section Said

variable {α : Type} {R : List (Exchange Answer) → Except PyExn α → Prop}
  {past : List (Exchange Answer)}

theorem wp_runShell {q : Question} {f : Result → Adb α} :
    (runShell q >>= f).Wp Dialogue.Remembers R past ↔
      ∀ result, (f result).Wp Dialogue.Remembers R (past ++ [⟨q, result⟩]) := by
  constructor
  · exact fun h result => h result _ rfl
  · rintro h result _ rfl
    exact h result

/-- The listing is told as it is, with commands to disconnect between. -/
theorem wp_listDevices (lines : List Text) : ∀ past, (listDevices lines).Wp Dialogue.Remembers
    (fun now outcome => Unanswered past now ∧ outcome = .ok (usable lines)) past := by
  induction lines with
  | nil => exact fun past => ⟨.refl past, rfl⟩
  | cons line lines ih =>
    intro past
    unfold listDevices
    cases hline : listed line with
    | none =>
      have hnone : usable (line :: lines) = usable lines := by simp [usable, hline]
      rw [hnone]
      exact ih past
    | some d =>
      obtain ⟨id, status⟩ := d
      dsimp only
      by_cases hoff : status = OFFLINE
      · have hnone : usable (line :: lines) = usable lines := by
          simp [usable, hline, Option.filter, hoff]
        rw [if_pos hoff, hnone]
        refine wp_runShell.mpr fun result => (ih _).mono fun now outcome h => ⟨?_, h.2⟩
        exact (Unanswered.snoc (not_answered_of_not_ping (by rintro _ _ ⟨⟩))).trans h.1
      · rw [if_neg hoff]
        refine Dialogue.wp_bind.mpr ((ih past).mono ?_)
        rintro now outcome ⟨hnow, rfl⟩
        refine ⟨hnow, ?_⟩
        by_cases hstatus : status = UNAUTHORIZED
        · simp [usable, hline, Option.filter, hstatus]
        · simp [usable, hline, Option.filter, hoff, hstatus]

/-- The devices have been listed since, and no ping answered. -/
def Listed (past now : List (Exchange Answer)) (ids : List Text) : Prop :=
  ∃ result, Unanswered (past ++ [⟨.devices, result⟩]) now ∧ ids = result.usable

theorem Listed.unanswered {now : List (Exchange Answer)} {ids : List Text}
    (h : Listed past now ids) : Unanswered past now := by
  obtain ⟨result, hnow, -⟩ := h
  exact (Unanswered.snoc (not_answered_of_not_ping (by rintro _ _ ⟨⟩))).trans hnow

theorem wp_getDevices (past : List (Exchange Answer)) : getDevices.Wp Dialogue.Remembers
    (fun now outcome => ∃ ids, Listed past now ids ∧ outcome = .ok ids) past := by
  refine wp_runShell.mpr fun result => ?_
  cases result with
  | ended text =>
    dsimp only
    split
    · next herror => exact ⟨[], ⟨_, .refl _, (if_pos herror).symm⟩, rfl⟩
    · next herror =>
      exact (wp_listDevices _ _).mono fun now outcome h =>
        ⟨_, ⟨_, h.1, (if_neg herror).symm⟩, h.2⟩
  | timedOut => exact ⟨[], ⟨_, .refl _, rfl⟩, rfl⟩
  | failed text => exact ⟨[], ⟨_, .refl _, rfl⟩, rfl⟩

/-- The last thing said is a ping of `name` with its answer, the first one since. -/
def Pinged (name : Text) (past now : List (Exchange Answer)) : Prop :=
  ∃ mid timeout result, Unanswered past mid ∧ now = mid ++ [⟨.ping name timeout, result⟩] ∧
    "ping".toList <+: result.text

theorem Pinged.after {name : Text} {mid now : List (Exchange Answer)} (h : Unanswered past mid)
    (hping : Pinged name mid now) : Pinged name past now := by
  obtain ⟨last, timeout, result, hlast, hnow, hanswer⟩ := hping
  exact ⟨last, timeout, result, h.trans hlast, hnow, hanswer⟩

def Checked (name : Text) (past now : List (Exchange Answer)) (outcome : Except PyExn Bool) :
    Prop :=
  (outcome = .ok true ∧ Pinged name past now) ∨ (outcome = .ok false ∧ Unanswered past now)

theorem Checked.after {name : Text} {mid now : List (Exchange Answer)}
    {outcome : Except PyExn Bool} (h : Unanswered past mid)
    (hcheck : Checked name mid now outcome) : Checked name past now outcome := by
  rcases hcheck with ⟨hout, hping⟩ | ⟨hout, hnone⟩
  · exact Or.inl ⟨hout, hping.after h⟩
  · exact Or.inr ⟨hout, h.trans hnone⟩

/-- **A check succeeds with the first answer** to its pings. -/
theorem wp_pingLoop (name : Text) (n : Nat) : ∀ timeout past,
    (pingLoop name n timeout).Wp Dialogue.Remembers (Checked name past) past := by
  induction n with
  | zero => exact fun _ past => Or.inr ⟨rfl, .refl past⟩
  | succ n ih =>
    intro timeout past
    refine wp_runShell.mpr fun bs => ?_
    split
    · next hping => exact Or.inl ⟨rfl, past, timeout, bs, .refl past, rfl, hping⟩
    · next hping =>
      have hsilent : Unanswered past (past ++ [⟨.ping name timeout, bs⟩]) := by
        refine Unanswered.snoc ?_
        rintro ⟨_, _, _, h, hanswer⟩
        cases h
        exact hping hanswer
      split
      · refine wp_runShell.mpr fun res => ?_
        have hconnect := hsilent.trans (.snoc (e := ⟨.connect name 2, res⟩)
          (not_answered_of_not_ping (by rintro _ _ ⟨⟩)))
        split
        · exact Or.inr ⟨rfl, hconnect⟩
        · split
          · exact (ih _ _).mono fun _ _ => Checked.after hconnect
          · exact (ih _ _).mono fun _ _ => Checked.after hconnect
      · exact (ih _ _).mono fun _ _ => Checked.after hsilent

theorem wp_checkDeviceAlive (name : Text) (tryTime : Option Nat) (past : List (Exchange Answer)) :
    (checkDeviceAlive name tryTime).Wp Dialogue.Remembers (Checked name past) past :=
  wp_pingLoop name _ _ past

theorem wp_deviceAlive (dev : Device) (tryTime : Option Nat) (past : List (Exchange Answer)) :
    (dev.deviceAlive tryTime).Wp Dialogue.Remembers (Checked dev.target past) past := by
  refine Dialogue.wp_bind.mpr ((wp_getDevices past).mono ?_)
  rintro mid outcome ⟨ids, hlisted, rfl⟩
  exact (wp_checkDeviceAlive _ _ mid).mono fun _ _ => Checked.after hlisted.unanswered

theorem wp_checkAlive (dev : Device) (past : List (Exchange Answer)) :
    dev.checkAlive.Wp Dialogue.Remembers (fun now outcome =>
      (outcome = .ok () ∧ Pinged dev.target past now) ∨
        (outcome = .error (deviceOffline dev.deviceId) ∧ Unanswered past now)) past := by
  refine Dialogue.wp_bind.mpr ((wp_deviceAlive dev _ past).mono ?_)
  rintro now outcome (⟨rfl, hping⟩ | ⟨rfl, hnone⟩)
  · exact Or.inl ⟨rfl, hping⟩
  · exact Or.inr ⟨rfl, hnone⟩

theorem wp_connectFirst (id : Text) (past : List (Exchange Answer)) :
    (Manager.connectFirst id).Wp Dialogue.Remembers
      (fun now outcome => outcome = .ok () ∧ Unanswered past now) past := by
  refine wp_runShell.mpr fun out => ?_
  have hlist : Unanswered past (past ++ [⟨.devices, out⟩]) :=
    .snoc (not_answered_of_not_ping (by rintro _ _ ⟨⟩))
  have hconnect : ∀ target timeout result,
      Unanswered past (past ++ [⟨.devices, out⟩] ++ [⟨.connect target timeout, result⟩]) :=
    fun _ _ _ => hlist.trans (.snoc (not_answered_of_not_ping (by rintro _ _ ⟨⟩)))
  split
  · exact ⟨rfl, hlist⟩
  · split
    · exact wp_runShell.mpr fun result => ⟨rfl, hconnect _ _ result⟩
    · exact wp_runShell.mpr fun result => ⟨rfl, hconnect _ _ result⟩

end Said

/-! ### A call of the manager -/

namespace Manager

variable {m m' : Manager} {id : Text} {dev : Device} {wanted : Option Text}
  {past : List (Exchange Answer)}

/-- The device for `id` and the table that is left: an object that there is or a new one. -/
def HandsOut (m : Manager) (id : Text) (dev : Device) (m' : Manager) : Prop :=
  (m.devices id = some dev ∧ m' = m) ∨
    (m.devices id = none ∧ Device.create m.created id = .ok dev ∧
      m' = ⟨Function.update m.devices id (some dev), m.created + 1⟩)

/-- How the part behind the choice of an id ends. -/
def Ends (m : Manager) (id : Text) (past now : List (Exchange Answer)) :
    Except PyExn (Device × Manager) → Prop
  | .ok (dev, m') => HandsOut m id dev m' ∧ (Pinged id past now ∨ Pinged dev.target past now)
  | .error e =>
      (e = .valueError ∧ Pinged id past now) ∨ (e ≠ .valueError ∧ Unanswered past now)

theorem wp_handOut (m : Manager) (id : Text) (past : List (Exchange Answer)) :
    (handOut m id).Wp Dialogue.Remembers (Ends m id past) past := by
  unfold handOut
  cases hdev : m.devices id with
  | some dev =>
    refine Dialogue.wp_bind.mpr ((wp_checkAlive dev past).mono ?_)
    rintro now outcome (⟨rfl, hping⟩ | ⟨rfl, hnone⟩)
    · exact ⟨Or.inl ⟨hdev, rfl⟩, Or.inr hping⟩
    · exact Or.inr ⟨by rintro ⟨⟩, hnone⟩
  | none =>
    refine Dialogue.wp_bind.mpr ((wp_checkDeviceAlive id none past).mono ?_)
    rintro now outcome (⟨rfl, hping⟩ | ⟨rfl, hnone⟩)
    · dsimp only [Dialogue.between, if_true]
      cases hcreate : Device.create m.created id with
      | error e => exact Or.inl ⟨Device.create_error hcreate, hping⟩
      | ok dev => exact ⟨Or.inr ⟨hdev, hcreate, rfl⟩, Or.inl hping⟩
    · exact Or.inr ⟨by rintro ⟨⟩, hnone⟩

/-- The id that is handed out is the one that is wanted, if any. -/
theorem mem_of_choose {ids : List Text} (h : choose wanted ids = .ok id) :
    id ∈ ids ∧ ∀ w, truthy wanted = some w → w = id := by
  unfold choose at h
  cases ids with
  | nil => cases h
  | cons first rest =>
    dsimp only at h
    split at h
    · next hwanted =>
      obtain rfl := Except.ok.inj h
      refine ⟨List.mem_cons_self, fun w hw => ?_⟩
      rw [hwanted] at hw
      cases hw
    · next w hwanted =>
      split at h
      · next hmem =>
        obtain rfl := Except.ok.inj h
        refine ⟨List.contains_iff_mem.mp hmem, fun w' hw => ?_⟩
        rw [hwanted] at hw
        exact (Option.some.inj hw).symm
      · cases h

theorem choose_ne_valueError {ids : List Text} {e : PyExn} (h : choose wanted ids = .error e) :
    e ≠ .valueError := by
  unfold choose at h
  cases ids with
  | nil =>
    cases h
    rintro ⟨⟩
  | cons first rest =>
    dsimp only at h
    split at h
    · cases h
    · split at h
      · cases h
      · cases h
        rintro ⟨⟩

/-- How a call ends that has said `now`. -/
def CallEnds (m : Manager) (wanted : Option Text) (now : List (Exchange Answer)) :
    Except PyExn (Device × Manager) → Prop
  | .ok (dev, m') => ∃ id before mid ids, Listed before mid ids ∧ id ∈ ids ∧
      (∀ w, truthy wanted = some w → w = id) ∧ Ends m id mid now (.ok (dev, m'))
  | .error e => (e = .valueError ∧ ∃ name mid, Pinged name mid now) ∨
      (e ≠ .valueError ∧ Unanswered [] now)

theorem wp_connectWanted (wanted : Option Text) (past : List (Exchange Answer)) :
    (connectWanted wanted).Wp Dialogue.Remembers
      (fun now outcome => outcome = .ok () ∧ Unanswered past now) past := by
  unfold connectWanted
  split
  · exact ⟨rfl, .refl past⟩
  · split
    · exact wp_connectFirst _ past
    · exact ⟨rfl, .refl past⟩

theorem wp_managerGetDevices (m : Manager) (wanted : Option Text) :
    (getDevices m wanted).Wp Dialogue.Remembers (CallEnds m wanted) [] := by
  refine Dialogue.wp_bind.mpr ((wp_connectWanted wanted []).mono ?_)
  rintro before outcome ⟨rfl, hbefore⟩
  refine Dialogue.wp_bind.mpr ((wp_getDevices before).mono ?_)
  rintro mid outcome ⟨ids, hlisted, rfl⟩
  have hmid : Unanswered [] mid := hbefore.trans hlisted.unanswered
  rw [Dialogue.between_ok]
  cases hchoose : choose wanted ids with
  | error e => exact Or.inr ⟨choose_ne_valueError hchoose, hmid⟩
  | ok id =>
    obtain ⟨hmem, hwanted⟩ := mem_of_choose hchoose
    refine (wp_handOut m id mid).mono fun now outcome hends => ?_
    cases outcome with
    | ok result => exact ⟨id, before, mid, ids, hlisted, hmem, hwanted, hends⟩
    | error e =>
      rcases hends with ⟨rfl, hping⟩ | ⟨he, hnone⟩
      · exact Or.inl ⟨rfl, id, mid, hping⟩
      · exact Or.inr ⟨he, hmid.trans hnone⟩

theorem answered_of_pinged {name : Text} {mid now : List (Exchange Answer)}
    (h : Pinged name mid now) : ∃ e ∈ now, Answered e := by
  obtain ⟨last, timeout, result, -, rfl, hanswer⟩ := h
  exact ⟨⟨.ping name timeout, result⟩, by simp, name, timeout, result, rfl, hanswer⟩

/-- **A device that answers is handed out.**  Whatever adb answers, the call ends with a device,
    or with the `ValueError` of an id that is no address, exactly if a ping is answered. -/
theorem answered_iff (m : Manager) (wanted : Option Text) (answers : Answers Question Answer) :
    ((∃ r, ((getDevices m wanted).run answers).2 = .ok r) ∨
      ((getDevices m wanted).run answers).2 = .error .valueError) ↔
      ∃ e ∈ ((getDevices m wanted).run answers).1, Answered e := by
  have hends := (wp_managerGetDevices m wanted).run answers
  rw [List.nil_append] at hends
  cases houtcome : ((getDevices m wanted).run answers).2 with
  | ok r =>
    rw [houtcome] at hends
    obtain ⟨id, _, mid, _, _, _, _, _, hping⟩ := hends
    have hanswered : ∃ e ∈ ((getDevices m wanted).run answers).1, Answered e :=
      hping.elim answered_of_pinged answered_of_pinged
    simp [hanswered]
  | error e =>
    rw [houtcome] at hends
    rcases hends with ⟨rfl, name, mid, hping⟩ | ⟨he, more, hmore, hnone⟩
    · simp [answered_of_pinged hping]
    · rw [List.nil_append] at hmore
      have hother : ¬ ∃ e ∈ ((getDevices m wanted).run answers).1, Answered e := by
        rintro ⟨x, hx, hanswered⟩
        exact hnone x (hmore ▸ hx) hanswered
      simp [hother, he]

/-! ### Histories -/

/-- A call with what adb answers, `remove_device` or `disconnect`, or `destroy_device`. -/
inductive Op where
  | getDevices (wanted : Option Text) (answers : Answers Question Answer)
  | removeDevice (id : Text)
  | destroy

/-- A call that raises leaves the table as it was. -/
def next (m : Manager) : Op → Manager
  | .getDevices wanted answers =>
      match ((getDevices m wanted).run answers).2 with
      | .ok (_, m') => m'
      | .error _ => m
  | .removeDevice id => m.removeDevice id
  | .destroy => m.destroy

theorem next_of_ok {answers : Answers Question Answer} {r : Device × Manager}
    (h : ((getDevices m wanted).run answers).2 = .ok r) :
    m.next (.getDevices wanted answers) = r.2 := by
  simp [next, h]

theorem next_of_error {answers : Answers Question Answer} {e : PyExn}
    (h : ((getDevices m wanted).run answers).2 = .error e) :
    m.next (.getDevices wanted answers) = m := by
  simp [next, h]

def step (m : Manager) (op : Op) : Option Manager := some (m.next op)

/-- The object for `id` is dropped. -/
def Op.Drops (id : Text) : Op → Prop
  | .getDevices _ _ => False
  | .removeDevice removed => removed = id
  | .destroy => True

/-- Each object is there once, under its own id. -/
structure Inv (m : Manager) : Prop where
  own : ∀ id dev, m.devices id = some dev → dev.deviceId = id ∧ dev.object < m.created
  once : ∀ id id' dev dev', m.devices id = some dev → m.devices id' = some dev' →
    dev.object = dev'.object → id = id'

theorem handsOut_of_ok {answers : Answers Question Answer}
    (h : ((getDevices m wanted).run answers).2 = .ok (dev, m')) : ∃ id, HandsOut m id dev m' := by
  have hends := (wp_managerGetDevices m wanted).run answers
  rw [h] at hends
  obtain ⟨id, _, _, _, _, _, _, hout, -⟩ := hends
  exact ⟨id, hout⟩

theorem HandsOut.deviceId (h : HandsOut m id dev m') (hinv : Inv m) : dev.deviceId = id := by
  rcases h with ⟨hdev, -⟩ | ⟨-, hcreate, -⟩
  · exact (hinv.own id dev hdev).1
  · exact (Device.create_ok hcreate).2

/-- What a call leaves in the table: the device, and what was there. -/
theorem HandsOut.devices (h : HandsOut m id dev m') {id' : Text} {dev' : Device} :
    m'.devices id' = some dev' ↔
      (id' = id ∧ dev' = dev) ∨ (id' ≠ id ∧ m.devices id' = some dev') := by
  rcases h with ⟨hdev, rfl⟩ | ⟨-, -, rfl⟩
  · by_cases hid : id' = id
    · subst hid
      simp [hdev, eq_comm]
    · simp [hid]
  · exact Assoc.update_some_eq_some

theorem HandsOut.created_le (h : HandsOut m id dev m') : m.created ≤ m'.created := by
  rcases h with ⟨-, rfl⟩ | ⟨-, -, rfl⟩
  · exact Nat.le_refl _
  · exact Nat.le_succ _

theorem HandsOut.object_lt (h : HandsOut m id dev m') (hinv : Inv m) : dev.object < m'.created := by
  rcases h with ⟨hdev, rfl⟩ | ⟨-, hcreate, rfl⟩
  · exact (hinv.own id dev hdev).2
  · rw [(Device.create_ok hcreate).1]
    exact Nat.lt_succ_self _

theorem HandsOut.object_ne (h : HandsOut m id dev m') (hinv : Inv m) {id' : Text} {dev' : Device}
    (hdev' : m.devices id' = some dev') (hid : id' ≠ id) : dev'.object ≠ dev.object := by
  rcases h with ⟨hdev, rfl⟩ | ⟨-, hcreate, rfl⟩
  · exact fun hobject => hid (hinv.once _ _ _ _ hdev' hdev hobject)
  · rw [(Device.create_ok hcreate).1]
    exact Nat.ne_of_lt (hinv.own _ _ hdev').2

theorem HandsOut.inv (h : HandsOut m id dev m') (hinv : Inv m) : Inv m' where
  own := by
    intro id' dev' hdev'
    rcases h.devices.mp hdev' with ⟨rfl, rfl⟩ | ⟨-, hold⟩
    · exact ⟨h.deviceId hinv, h.object_lt hinv⟩
    · exact ⟨(hinv.own _ _ hold).1, Nat.lt_of_lt_of_le (hinv.own _ _ hold).2 h.created_le⟩
  once := by
    intro a b dev₁ dev₂ h₁ h₂ hobject
    rcases h.devices.mp h₁ with ⟨rfl, rfl⟩ | ⟨ha, hold₁⟩
    · rcases h.devices.mp h₂ with ⟨rfl, -⟩ | ⟨hb, hold₂⟩
      · rfl
      · exact absurd hobject.symm (h.object_ne hinv hold₂ hb)
    · rcases h.devices.mp h₂ with ⟨rfl, rfl⟩ | ⟨hb, hold₂⟩
      · exact absurd hobject (h.object_ne hinv hold₁ ha)
      · exact hinv.once _ _ _ _ hold₁ hold₂ hobject

theorem Inv.of_le (hinv : Inv m) {devices : Text → Option Device}
    (hless : ∀ id dev, devices id = some dev → m.devices id = some dev) :
    Inv { m with devices := devices } where
  own id dev h := hinv.own id dev (hless id dev h)
  once _ _ _ _ h h' := hinv.once _ _ _ _ (hless _ _ h) (hless _ _ h')

theorem removeDevice_eq_some {removed : Text} :
    (m.removeDevice removed).devices id = some dev ↔ id ≠ removed ∧ m.devices id = some dev :=
  Assoc.update_none_eq_some

theorem inv_next (hinv : Inv m) (op : Op) : Inv (m.next op) := by
  cases op with
  | getDevices wanted answers =>
    cases houtcome : ((getDevices m wanted).run answers).2 with
    | error e =>
      rw [next_of_error houtcome]
      exact hinv
    | ok r =>
      obtain ⟨id, hout⟩ := handsOut_of_ok houtcome
      rw [next_of_ok houtcome]
      exact hout.inv hinv
  | removeDevice removed => exact hinv.of_le fun id dev h => (removeDevice_eq_some.mp h).2
  | destroy => exact hinv.of_le fun _ _ h => by cases h

theorem inv_empty : Inv empty where
  own _ _ h := by cases h
  once _ _ _ _ h _ _ := by cases h

theorem inv_run {ops : List Op} (hrun : run step m ops = some m') (hinv : Inv m) : Inv m' := by
  refine run_invariant (fun a op b _ ha hb => ?_) hinv hrun
  obtain rfl := Option.some.inj hb
  exact inv_next ha op

/-! What becomes of an object. -/

/-- The object is in nobody's place, and will not be created again. -/
def Gone (object : Nat) (m : Manager) : Prop :=
  object < m.created ∧ ∀ id dev, m.devices id = some dev → dev.object ≠ object

theorem HandsOut.not_gone {object : Nat} (h : HandsOut m id dev m') (hgone : Gone object m) :
    dev.object ≠ object := by
  rcases h with ⟨hdev, -⟩ | ⟨-, hcreate, -⟩
  · exact hgone.2 id dev hdev
  · rw [(Device.create_ok hcreate).1]
    exact Nat.ne_of_gt hgone.1

theorem gone_next {object : Nat} (hgone : Gone object m) (op : Op) : Gone object (m.next op) := by
  cases op with
  | getDevices wanted answers =>
    cases houtcome : ((getDevices m wanted).run answers).2 with
    | error e =>
      rw [next_of_error houtcome]
      exact hgone
    | ok r =>
      obtain ⟨id, hout⟩ := handsOut_of_ok houtcome
      rw [next_of_ok houtcome]
      refine ⟨Nat.lt_of_lt_of_le hgone.1 hout.created_le, fun id' dev' hdev' => ?_⟩
      rcases hout.devices.mp hdev' with ⟨-, rfl⟩ | ⟨-, hold⟩
      · exact hout.not_gone hgone
      · exact hgone.2 id' dev' hold
  | removeDevice removed =>
    exact ⟨hgone.1, fun id dev hdev => hgone.2 id dev (removeDevice_eq_some.mp hdev).2⟩
  | destroy => exact ⟨hgone.1, fun _ _ h => by cases h⟩

/-- An object that is there stays until it is dropped, and then is gone. -/
theorem kept_next (hinv : Inv m) (hdev : m.devices id = some dev) (op : Op) :
    (¬ op.Drops id → (m.next op).devices id = some dev) ∧
      (op.Drops id → Gone dev.object (m.next op)) := by
  have hobject := (hinv.own id dev hdev).2
  cases op with
  | getDevices wanted answers =>
    refine ⟨fun _ => ?_, fun h => h.elim⟩
    cases houtcome : ((getDevices m wanted).run answers).2 with
    | error e =>
      rw [next_of_error houtcome]
      exact hdev
    | ok r =>
      obtain ⟨id', hout⟩ := handsOut_of_ok houtcome
      rw [next_of_ok houtcome]
      by_cases hid : id = id'
      · subst hid
        have hsame : r.1 = dev := by
          rcases hout with ⟨hthere, -⟩ | ⟨hnone, -⟩
          · exact Option.some.inj (hthere.symm.trans hdev)
          · rw [hdev] at hnone
            cases hnone
        exact hout.devices.mpr (Or.inl ⟨rfl, hsame.symm⟩)
      · exact hout.devices.mpr (Or.inr ⟨hid, hdev⟩)
  | removeDevice removed =>
    refine ⟨fun hother => removeDevice_eq_some.mpr ⟨fun h => hother h.symm, hdev⟩, ?_⟩
    rintro rfl
    refine ⟨hobject, fun id' dev' hdev' hsame => ?_⟩
    obtain ⟨hne, hold⟩ := removeDevice_eq_some.mp hdev'
    exact hne (hinv.once _ _ _ _ hold hdev hsame)
  | destroy => exact ⟨fun h => absurd trivial h, fun _ => ⟨hobject, fun _ _ h => by cases h⟩⟩

theorem gone_run {object : Nat} {ops : List Op} (hgone : Gone object m)
    (hrun : run step m ops = some m') : Gone object m' := by
  refine run_invariant (fun a op b _ ha hb => ?_) hgone hrun
  obtain rfl := Option.some.inj hb
  exact gone_next ha op

theorem kept_run {ops : List Op} (hinv : Inv m) (hdev : m.devices id = some dev)
    (hrun : run step m ops = some m') :
    ((∀ op ∈ ops, ¬ op.Drops id) ∧ m'.devices id = some dev) ∨
      ((∃ op ∈ ops, op.Drops id) ∧ Gone dev.object m') := by
  induction ops generalizing m with
  | nil =>
    cases hrun
    exact Or.inl ⟨fun _ h => (by cases h), hdev⟩
  | cons op ops ih =>
    obtain ⟨hkept, hdropped⟩ := kept_next hinv hdev op
    by_cases hdrops : op.Drops id
    · exact Or.inr ⟨⟨op, List.mem_cons_self, hdrops⟩, gone_run (hdropped hdrops) hrun⟩
    · rcases ih (inv_next hinv op) (hkept hdrops) hrun with ⟨hnone, hthere⟩ | ⟨⟨x, hx, hd⟩, hgone⟩
      · exact Or.inl ⟨List.forall_mem_cons.mpr ⟨hdrops, hnone⟩, hthere⟩
      · exact Or.inr ⟨⟨x, List.mem_cons_of_mem _ hx, hd⟩, hgone⟩

/-- **One object for one device.**  Two calls, with anything done to the manager before and
    between, end with the same object exactly if they end with devices of one id and the id has
    not been removed, disconnected or destroyed in between. -/
theorem same_object_iff {before between : List Op} {m₀ m₁ m₂ m₃ : Manager}
    {wanted wanted' : Option Text} {answers answers' : Answers Question Answer} {dev dev' : Device}
    (hbefore : run step empty before = some m₀)
    (hfirst : ((getDevices m₀ wanted).run answers).2 = .ok (dev, m₁))
    (hbetween : run step m₁ between = some m₂)
    (hsecond : ((getDevices m₂ wanted').run answers').2 = .ok (dev', m₃)) :
    dev'.object = dev.object ↔
      dev'.deviceId = dev.deviceId ∧ ∀ op ∈ between, ¬ op.Drops dev.deviceId := by
  have hinv₀ : Inv m₀ := inv_run hbefore inv_empty
  obtain ⟨id, hout⟩ := handsOut_of_ok hfirst
  obtain ⟨id', hout'⟩ := handsOut_of_ok hsecond
  have hinv₁ : Inv m₁ := hout.inv hinv₀
  have hinv₂ : Inv m₂ := inv_run hbetween hinv₁
  have hdev : m₁.devices id = some dev := hout.devices.mpr (Or.inl ⟨rfl, rfl⟩)
  rw [hout.deviceId hinv₀, hout'.deviceId hinv₂]
  rcases kept_run hinv₁ hdev hbetween with ⟨hnone, hthere⟩ | ⟨⟨op, hop, hdrops⟩, hgone⟩
  · constructor
    · intro hobject
      refine ⟨?_, hnone⟩
      by_contra hid
      exact hout'.object_ne hinv₂ hthere (fun h => hid h.symm) hobject.symm
    · rintro ⟨rfl, -⟩
      rcases hout' with ⟨hdev', -⟩ | ⟨habsent, -⟩
      · rw [Option.some.inj (hdev'.symm.trans hthere)]
      · rw [hthere] at habsent
        cases habsent
  · constructor
    · exact fun hobject => absurd hobject (hout'.not_gone hgone)
    · exact fun h => absurd hdrops (h.2 op hop)

/-! One device that answers. -/

def plugged : Answers Question Answer
  | _, .devices => .ended ['L', '\n', 'x', ' ', 'd', 'e', 'v', 'i', 'c', 'e']
  | _, .ping _ _ => .ended ['p', 'i', 'n', 'g']
  | _, _ => .timedOut

def pluggedDevice (object : Nat) : Device := ⟨object, ['x'], true, []⟩

/-- A manager that has created some objects, the latest for the device. -/
def onePlugged (object : Nat) : Manager :=
  ⟨Function.update (fun _ => none) ['x'] (some (pluggedDevice object)), object + 1⟩

theorem empty_plugged :
    ((getDevices empty none).run plugged).2 = .ok (pluggedDevice 0, onePlugged 0) := by rfl

theorem removed_plugged : ∃ m, ((getDevices ((onePlugged 0).removeDevice ['x']) none).run
    plugged).2 = .ok (pluggedDevice 1, m) := ⟨_, by rfl⟩

/-- The device is removed between two calls. -/
theorem same_object_iff_removed : (pluggedDevice 1).object = (pluggedDevice 0).object ↔
    (pluggedDevice 1).deviceId = (pluggedDevice 0).deviceId ∧
      ∀ op ∈ [Op.removeDevice ['x']], ¬ op.Drops (pluggedDevice 0).deviceId := by
  have hbefore : run step empty [] = some empty := rfl
  have hbetween : run step (onePlugged 0) [.removeDevice ['x']] =
      some ((onePlugged 0).removeDevice ['x']) := rfl
  obtain ⟨m, hsecond⟩ := removed_plugged
  exact same_object_iff hbefore empty_plugged hbetween hsecond

/-- **What a device is vouched for by.**  In every history, a device that a call ends with has
    the id that was wanted; adb listed it as usable in this call; and then a ping to its id or
    its address was answered, as the last thing of the call. -/
theorem vouched {before : List Op} {wanted : Option Text} {answers : Answers Question Answer}
    {dev : Device} (hbefore : run step empty before = some m)
    (hcall : ((getDevices m wanted).run answers).2 = .ok (dev, m')) :
    (∀ w, truthy wanted = some w → w = dev.deviceId) ∧
      ∃ first listing between name timeout answer,
        ((getDevices m wanted).run answers).1 =
          first ++ ⟨.devices, listing⟩ :: between ++ [⟨.ping name timeout, answer⟩] ∧
        dev.deviceId ∈ listing.usable ∧ "ping".toList <+: answer.text ∧
          (name = dev.deviceId ∨ name = dev.target) := by
  have hends := (wp_managerGetDevices m wanted).run answers
  rw [hcall, List.nil_append] at hends
  obtain ⟨id, past, mid, ids, ⟨listing, ⟨more, rfl, -⟩, rfl⟩, hmem, hwanted, hout, hping⟩ := hends
  have hid : dev.deviceId = id := hout.deviceId (inv_run hbefore inv_empty)
  obtain ⟨name, hname, last, timeout, answer, ⟨rest, rfl, -⟩, hsaid, hanswer⟩ :
      ∃ name, (name = dev.deviceId ∨ name = dev.target) ∧
        Pinged name (past ++ [⟨.devices, listing⟩] ++ more)
          ((getDevices m wanted).run answers).1 := by
    rcases hping with hping | hping
    · exact ⟨id, Or.inl hid.symm, hping⟩
    · exact ⟨dev.target, Or.inr rfl, hping⟩
  refine ⟨fun w hw => (hwanted w hw).trans hid.symm, past, listing, more ++ rest, name, timeout,
    answer, ?_, hid ▸ hmem, hanswer, hname⟩
  rw [hsaid]
  simp

/-- The first call for the device. -/
theorem vouched_plugged : ∃ first listing between name timeout answer,
    ((getDevices empty none).run plugged).1 =
      first ++ ⟨.devices, listing⟩ :: between ++ [⟨.ping name timeout, answer⟩] ∧
    (pluggedDevice 0).deviceId ∈ listing.usable ∧ "ping".toList <+: answer.text ∧
      (name = (pluggedDevice 0).deviceId ∨ name = (pluggedDevice 0).target) := by
  have hbefore : run step empty [] = some empty := rfl
  exact (vouched hbefore empty_plugged).2

end Manager

end Albatross.Devices
