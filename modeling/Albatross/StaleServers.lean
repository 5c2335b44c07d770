/-
  Albatross/StaleServers.lean
  ===========================
  **Which server a client talks to** (`device.py`: `get_client`).

  Only the call whose push has changed a file knows that the server which runs is out of
  date, and it knows so until it ends.  Any number of calls run at the same time, from
  several programs and for one device; an out-of-date server is always on the mind of one of
  them (`stale_owed_iff`), unless that one has raised.  Then nobody is left to kill the
  server, and every later call that finds the files as they should be is connected to it
  (`served_current_iff`).
-/
import Albatross.ServerUpdates

namespace Albatross.ServerUpdates

open Dialogues
open Python (PyExn)

/-! ### What a call knows -/

section Calls

variable {abi : Abi} {α : Type}

/-- An exchange with a device of this kind that has worked. -/
def Good (abi : Abi) (e : Exchange Answer) : Prop :=
  Worked e ∧ ∀ a, e = ⟨.cpuAbi, .ok a⟩ → a = abi

/-- Watches whether the call owes the device a new start of the server. -/
abbrev Watched (abi : Abi) : Reaction Answer Bool := Watches (owes abi) (Good abi)

theorem overlooks_watched : Overlooks abi (Watched abi) := by
  rintro owing q a _ hq ⟨-, rfl⟩
  cases q with
  | pushFile file dst check => simp [owes, show ¬ dst.served abi from hq]
  | killProcess => exact hq.elim
  | launch => exact hq.elim
  | _ => rfl

theorem quiet_startServer (port : Port) (localPort : Int) (libDir : Text) (lib : Dst)
    (second : Option Dst) :
    Dialogue.Quiet (Watched abi) (startServer port localPort libDir lib second) := by
  have hlaunch : Dialogue.Quiet (Watched abi) (launch libDir (launchPort port)) :=
    Dialogue.quiet_ask (fun _ _ _ hnoted => hnoted.2) fun _ => Dialogue.quiet_done _
  refine hlaunch.bind fun _ => ?_
  refine (quiet_connectLibs overlooks_watched localPort lib second).bind fun client => ?_
  exact (quiet_patchIfOn overlooks_watched client).bind fun _ => Dialogue.quiet_done _

theorem returns_pushFile {dst : Dst} (hdst : dst.served abi) (file : File) (check owing : Bool) :
    (pushFile file dst check).Returns (Watched abi)
      (fun owing' update => owing' = (owing || update)) owing := by
  intro answer owing' hnoted
  obtain ⟨hgood, rfl⟩ := hnoted
  intro update hupdate
  cases answer with
  | error e => cases hupdate
  | ok did =>
    cases hupdate
    cases did with
    | failed => exact absurd rfl hgood.1
    | pushed => simp [owes, hdst, Pushed.result]
    | same => simp [owes, Pushed.result]
    | missing => simp [owes, Pushed.result]

theorem returns_killProcess (owing : Bool) :
    killProcess.Returns (Watched abi) (fun owing' _ => owing' = false) owing := by
  intro answer owing' hnoted
  obtain ⟨hgood, rfl⟩ := hnoted
  intro _ hdone
  cases answer with
  | error e => cases hdone
  | ok did =>
    cases did with
    | missed => exact absurd rfl hgood.1
    | killed => simp [owes]

variable {updateKill : Bool}

theorem returns_reuseServer (owing : Bool) (localPort : Int) (lib : Dst) (second : Option Dst) :
    (reuseServer (owing && updateKill) localPort lib second).Returns (Watched abi)
      (fun owing' _ => owing' = true → updateKill = false) owing := by
  have hkilled : ∀ owing : Bool, (do killProcess; pure none : Adb (Option Client)).Returns
      (Watched abi) (fun owing' _ => owing' = true → updateKill = false) owing := by
    intro owing
    refine Dialogue.returns_bind.mpr ((returns_killProcess owing).mono fun owing' _ howing => ?_)
    exact (Dialogue.returns_ok _).mpr fun h => absurd h (by simp [howing])
  unfold reuseServer
  split
  · exact hkilled owing
  · next hkill =>
    refine Dialogue.returns_bind.mpr ?_
    have hquiet : Dialogue.Quiet (Watched abi) (connectLibs localPort lib second) :=
      quiet_connectLibs overlooks_watched localPort lib second
    refine hquiet.attempt.returns fun result => ?_
    cases result with
    | ok client => exact (Dialogue.returns_ok _).mpr fun h => by simpa [h] using hkill
    | error e => exact hkilled owing

/-- **A call that kills after its pushes** does not owe anything when it returns. -/
theorem returns_serve (owing : Bool) (port : Port) (localPort : Int) (libDir : Text) (lib : Dst)
    (second : Option Dst) :
    (serve port localPort libDir (owing && updateKill) lib second).Returns (Watched abi)
      (fun owing' _ => owing' = true → updateKill = false) owing := by
  refine Dialogue.returns_bind.mpr ?_
  refine (returns_reuseServer owing localPort lib second).mono fun owing' reused howing => ?_
  cases reused with
  | some client => exact (Dialogue.returns_ok _).mpr howing
  | none => exact (quiet_startServer port localPort libDir lib second).returns fun _ => howing

theorem returns_pushAll (config : Configuration) (port : Port) (localPort : Int) :
    (pushAll config updateKill port localPort abi).Returns (Watched abi)
      (fun owing' _ => owing' = true → updateKill = false) false := by
  refine Dialogue.returns_bind.mpr ?_
  refine (overlooks_watched.question (q := .pathExists _) trivial).returns fun found => ?_
  split
  · refine Dialogue.returns_bind.mpr ?_
    refine (returns_pushFile (Or.inl rfl) _ true false).mono fun owing update howing => ?_
    rw [Bool.false_or] at howing
    subst howing
    refine Dialogue.returns_bind.mpr (Dialogue.returns_bind.mpr ?_)
    refine (overlooks_watched.question (q := .fileType) trivial).returns fun _ => ?_
    refine (returns_pushFile (Or.inr rfl) _ false owing).mono fun owing' libUpdate howing => ?_
    subst howing
    refine Dialogue.returns_bind.mpr ?_
    refine (quiet_libName overlooks_watched config).returns fun name => ?_
    refine Dialogue.returns_bind.mpr ?_
    refine (quiet_pushAppLib overlooks_watched _ _ name).returns fun _ => ?_
    refine Dialogue.returns_bind.mpr ?_
    refine (quiet_pushLib32 overlooks_watched name).returns fun second => ?_
    exact returns_serve (owing || libUpdate) port localPort _ _ second
  · exact Dialogue.returns_error _

theorem returns_getClient (config : Configuration) :
    (getClient config updateKill).Returns (Watched abi)
      (fun owing' _ => owing' = true → updateKill = false) false := by
  refine Dialogue.returns_bind.mpr ?_
  refine (overlooks_watched.question (q := .isRoot) trivial).returns fun root => ?_
  split
  · refine Dialogue.returns_bind.mpr ?_
    refine (quiet_serverPort overlooks_watched config).returns fun port => ?_
    refine Dialogue.returns_bind.mpr ?_
    have hport : Dialogue.Quiet (Watched abi) (getForwardPort port) :=
      overlooks_watched.question (q := .getForwardPort port) trivial
    refine hport.returns fun localPort => ?_
    refine Dialogue.returns_bind.mpr ?_
    intro answer owing hnoted
    obtain ⟨hgood, rfl⟩ := hnoted
    intro found hanswer
    subst hanswer
    obtain rfl := hgood.2 found rfl
    exact returns_pushAll config port localPort
  · exact Dialogue.returns_error _

end Calls

/-! ### Any number of calls -/

section Scenes

variable {ι : Type} [DecidableEq ι] (abi : Abi) (hosts : ι → Host)

/-- One call of `get_client` for each `i`, all for one device. -/
abbrev Reachable (config : Configuration) (updateKill : Bool) (d : Device)
    (t : Scene Device ι Question Answer PyExn Client) : Prop :=
  Reaches (fun i => Reacts abi (hosts i)) Drifts
    (.start d fun _ => getClient config updateKill) t

/-- The server is current, or some call owes it a new start. -/
def Inv (d : Device) (said : ι → List (Exchange Answer)) : Prop :=
  d.Current abi ∨ ∃ i, (said i).foldl (owes abi) false = true

variable {abi hosts}

theorem foldl_owes_update {said : ι → List (Exchange Answer)} (i j : ι) (e : Exchange Answer) :
    (Function.update said i (said i ++ [e]) j).foldl (owes abi) false =
      if j = i then owes abi ((said i).foldl (owes abi) false) e
      else (said j).foldl (owes abi) false := by
  by_cases hj : j = i
  · subst hj
    simp
  · simp [hj]

/-- An exchange that leaves the server and its files alone, and what the caller owes. -/
theorem Inv.of_same {said : ι → List (Exchange Answer)} {d d' : Device} {i : ι}
    {e : Exchange Answer} (h : Inv abi d said) (hd : d.Current abi → d'.Current abi)
    (howes : ∀ owing, owing = true → owes abi owing e = true) :
    Inv abi d' (Function.update said i (said i ++ [e])) := by
  rcases h with hcurrent | ⟨j, hj⟩
  · exact Or.inl (hd hcurrent)
  · refine Or.inr ⟨j, ?_⟩
    rw [foldl_owes_update]
    split
    · next hji =>
      subst hji
      exact howes _ hj
    · exact hj

theorem current_of_none {d : Device} (h : d.server = none) : d.Current abi := by
  intro image himage
  rw [h] at himage
  cases himage

theorem inv_push {said : ι → List (Exchange Answer)} {d d' : Device} {i : ι} {file : File}
    {dst : Dst} {check : Bool} {answer : Except PyExn Pushed} {content : Option Content}
    (h : Inv abi d said) (hgood : Worked ⟨.pushFile file dst check, answer⟩)
    (hpush : Pushes content dst check d answer d') :
    Inv abi d' (Function.update said i (said i ++ [⟨.pushFile file dst check, answer⟩])) := by
  have hmono : ∀ owing, owing = true →
      owes abi owing ⟨.pushFile file dst check, answer⟩ = true := by
    rintro _ rfl
    rfl
  -- a push that may have changed a file of the server leaves the caller in debt
  have hchange : ∀ left, answer ≠ .ok .same → answer ≠ .ok .missing → d' = d.put dst left →
      Inv abi d' (Function.update said i (said i ++ [⟨.pushFile file dst check, answer⟩])) := by
    intro left hsame hmissing hput
    by_cases hdst : dst.served abi
    · refine Or.inr ⟨i, ?_⟩
      rw [foldl_owes_update, if_pos rfl]
      simp [owes, hdst, hsame, hmissing]
    · refine h.of_same (fun hcurrent image himage => ?_) hmono
      subst hput
      rw [Device.put_image d abi hdst]
      exact hcurrent image himage
  cases hpush with
  | pushed hcontent => exact hchange _ (by decide) (by decide) rfl
  | same => exact h.of_same id hmono
  | missing => exact h.of_same id hmono
  | failed left => exact absurd rfl hgood
  | raised e left => exact hchange left (by rintro ⟨⟩) (by rintro ⟨⟩) rfl

theorem inv_kill {said : ι → List (Exchange Answer)} {d d' : Device} {i : ι}
    {answer : Except PyExn Killed} (h : Inv abi d said) (hgood : Worked ⟨.killProcess, answer⟩)
    (hkill : Kills d answer d') :
    Inv abi d' (Function.update said i (said i ++ [⟨.killProcess, answer⟩])) := by
  cases hkill with
  | killed => exact Or.inl (current_of_none rfl)
  | missed => exact absurd rfl hgood
  | raised e server hserver =>
    refine h.of_same (fun hcurrent image himage => ?_) ?_
    · rcases hserver with rfl | rfl
      · cases himage
      · exact hcurrent image himage
    · rintro _ rfl
      rfl

theorem current_of_launches {d d' : Device} (h : Launches abi d d') (hcurrent : d.Current abi) :
    d'.Current abi := by
  rcases h with rfl | rfl
  · exact hcurrent
  · intro image himage
    exact (Option.some.inj himage).symm

/-- **An exchange with a device that works keeps the invariant.** -/
theorem step_inv (i : ι) (d : Device) (said : ι → List (Exchange Answer)) (e : Exchange Answer)
    (d' : Device) (hgood : Worked e) (hreacts : Reacts abi (hosts i) d e d') (h : Inv abi d said) :
    Inv abi d' (Function.update said i (said i ++ [e])) := by
  obtain ⟨q, answer⟩ := e
  cases q with
  | pushFile file dst check => exact inv_push h hgood hreacts
  | killProcess => exact inv_kill h hgood hreacts
  | launch libDir port => exact h.of_same (current_of_launches hreacts) fun _ => id
  | connect localPort =>
    obtain ⟨rfl, -⟩ := hreacts
    exact h.of_same id fun _ => id
  | cpuAbi =>
    obtain ⟨rfl, -⟩ := hreacts
    exact h.of_same id fun _ => id
  | _ =>
    cases hreacts
    exact h.of_same id fun _ => id

end Scenes

section Rest

variable {ι : Type} [DecidableEq ι] {abi : Abi} {hosts : ι → Host} {config : Configuration}
  {updateKill : Bool} {d : Device} {t : Scene Device ι Question Answer PyExn Client}

theorem inv_of_reachable (h : Reachable abi hosts config updateKill d t) (hd : d.Current abi)
    (hworked : ∀ i, ∀ e ∈ t.said i, Worked e) : Inv abi t.world t.said := by
  refine Reaches.invariant (I := Inv abi) h step_inv ?_ hworked (Or.inl hd)
  rintro d said _ rfl _
  exact Or.inl (current_of_none rfl)

theorem cpuAbi_of_reacts {host : Host} {d d' : Device} {e : Exchange Answer}
    (h : Reacts abi host d e d') : ∀ a, e = ⟨.cpuAbi, .ok a⟩ → a = abi := by
  rintro a rfl
  exact h.2 a rfl

/-- A call that owes the device a new start has not returned. -/
theorem not_owing_of_returned (h : Reachable abi hosts config true d t) {i : ι}
    (hworked : ∀ e ∈ t.said i, Worked e) {client : Client}
    (hdone : t.now i = .done (.ok client)) : (t.said i).foldl (owes abi) false = false := by
  have habi := h.said (P := fun _ e => ∀ a, e = ⟨.cpuAbi, .ok a⟩ → a = abi)
    (fun _ _ _ _ => cpuAbi_of_reacts) (fun _ _ he => by cases he) i
  have hends := h.alone (fun e he => ⟨hworked e he, habi e he⟩) (returns_getClient config)
  rw [hdone, Dialogue.wp_done] at hends
  simpa using hends client rfl

end Rest

/-! A call that is not to kill the server, from the files of before. -/

def plainConfig : Configuration := ⟨.tcp 0, libOriginName⟩

def before : Device := ⟨fun _ => some [0], some ⟨some [0], some [0]⟩⟩

def after : Device :=
  (before.put .server (some [1])).put (.lib Abi.armeabiV7a.libName libOriginName) (some [1])

abbrev Alone (abi : Abi) (host : Host) : Reaction Answer Device :=
  fun d e d' => Reacts abi host d e d' ∧ Worked e

section Converses

variable {abi : Abi} {host : Host} {d d' : Device} {file : File} {dst : Dst} {check : Bool}
  {c : Content} {outcome : Except PyExn Client} {k : Except PyExn Pushed → Adb Client}

theorem converses_pushed (hcontent : host file = some c)
    (hrest : Dialogue.Converses (Alone abi host) (d.put dst (some c)) (k (.ok .pushed)) d'
      outcome) :
    Dialogue.Converses (Alone abi host) d (.ask (.pushFile file dst check) k) d' outcome :=
  .ask ⟨Pushes.pushed hcontent, by rintro ⟨⟩⟩ hrest

theorem converses_same (hcontent : host file = some c) (hsame : d.files dst = some c)
    (hcompare : check = true ∨ 8192 < c.length)
    (hrest : Dialogue.Converses (Alone abi host) d (k (.ok .same)) d' outcome) :
    Dialogue.Converses (Alone abi host) d (.ask (.pushFile file dst check) k) d' outcome :=
  .ask ⟨Pushes.same hcontent hsame hcompare, by rintro ⟨⟩⟩ hrest

theorem converses_connect {image : Image} {localPort : Int} {k : Except PyExn Client → Adb Client}
    (hserver : d.server = some image)
    (hrest : Dialogue.Converses (Alone abi host) d (k (.ok ⟨image⟩)) d' outcome) :
    Dialogue.Converses (Alone abi host) d (.ask (.connect localPort) k) d' outcome := by
  refine .ask ⟨⟨rfl, fun client hclient => ?_⟩, trivial⟩ hrest
  cases hclient
  exact hserver

end Converses

theorem converses_before :
    Dialogue.Converses (Alone .armeabiV7a fun _ => some [1]) before (getClient plainConfig false)
      after (.ok ⟨⟨some [0], some [0]⟩⟩) := by
  refine .ask (a := .ok true) ⟨rfl, trivial⟩ ?_
  refine .ask (a := .ok 0) ⟨rfl, trivial⟩ ?_
  refine .ask (a := .ok .armeabiV7a) ⟨⟨rfl, fun _ h => (Except.ok.inj h).symm⟩, trivial⟩ ?_
  refine .ask (a := true) ⟨rfl, trivial⟩ ?_
  refine converses_pushed rfl ?_
  refine .ask (a := .ok none) ⟨rfl, trivial⟩ ?_
  refine converses_pushed rfl ?_
  refine converses_connect rfl ?_
  exact .ask (a := .ok ()) ⟨rfl, trivial⟩ (.done _ _)

theorem reachable_after : ∃ t : Scene Device Unit Question Answer PyExn Client,
    Reachable .armeabiV7a (fun _ _ => some [1]) plainConfig false before t ∧ t.world = after ∧
      t.now () = .done (.ok ⟨⟨some [0], some [0]⟩⟩) ∧ ∀ i, ∀ e ∈ t.said i, Worked e := by
  obtain ⟨t, hreaches, hworld, hnow, hsaid, -⟩ := converses_before.reaches
    (fun _ : Unit => Reacts .armeabiV7a fun _ => some [1]) Drifts
    (s := .start before fun _ => getClient plainConfig false) (i := ()) (P := Worked)
    (fun _ _ _ h => h) rfl rfl
  refine ⟨t, hreaches, hworld, hnow, fun _ e he => ?_⟩
  rcases hsaid e he with hnil | hworked
  · cases hnil
  · exact hworked

theorem before_current : before.Current .armeabiV7a := fun _ h => (Option.some.inj h).symm

theorem after_not_current : ¬ after.Current .armeabiV7a := by
  intro h
  have himage : (⟨some [0], some [0]⟩ : Image) = after.image .armeabiV7a := h _ rfl
  exact absurd himage (by decide)

/-- **An out-of-date server is on somebody's mind.**  Among any number of calls, whichever host
    they come from and however they are interleaved: when the server has been started from
    other files than those that are there now, then a call that has changed a file and not
    killed the server since is still under way or has raised.  So it is exactly under
    `update_kill`. -/
theorem stale_owed_iff (updateKill : Bool) :
    (∀ (ι : Type) [DecidableEq ι] (abi : Abi) (hosts : ι → Host) (config : Configuration)
      (d : Device) (t : Scene Device ι Question Answer PyExn Client), d.Current abi →
      Reachable abi hosts config updateKill d t → (∀ i, ∀ e ∈ t.said i, Worked e) →
      ¬ t.world.Current abi → ∃ i, (t.said i).foldl (owes abi) false = true ∧
        ∀ client, t.now i ≠ .done (.ok client)) ↔ updateKill = true := by
  constructor
  · intro h
    cases updateKill with
    | true => rfl
    | false =>
      obtain ⟨t, hreaches, hworld, hnow, hworked⟩ := reachable_after
      obtain ⟨i, -, hopen⟩ := h Unit .armeabiV7a (fun _ _ => some [1]) plainConfig before t
        before_current hreaches hworked (hworld ▸ after_not_current)
      exact absurd hnow (hopen _)
  · rintro rfl ι _ abi hosts config d t hd hreaches hworked hstale
    obtain ⟨i, hi⟩ := (inv_of_reachable hreaches hd hworked).resolve_left hstale
    refine ⟨i, hi, fun client hdone => ?_⟩
    rw [not_owing_of_returned hreaches (hworked i) hdone] at hi
    cases hi

/-! ### A call alone -/

structure View where
  image : Image
  server : Option Image

def Device.view (d : Device) (abi : Abi) : View := ⟨d.image abi, d.server⟩

/-- What a host means a server to be started from. -/
def hostImage (abi : Abi) (host : Host) : Image := ⟨host (.server abi), host (.lib abi)⟩

section Alone

variable {abi : Abi} {host : Host}

/-- `Alone`, as far as a call sees it. -/
def Seen (abi : Abi) (host : Host) : Reaction Answer View :=
  fun v e v' => ∃ d d', d.view abi = v ∧ d'.view abi = v' ∧ Alone abi host d e d'

theorem overlooks_seen : Overlooks abi (Seen abi host) := by
  rintro _ q answer _ hq ⟨d, d', rfl, rfl, hreacts, -⟩
  cases q with
  | pushFile file dst check =>
    have hput : ∀ left, (d.put dst left).view abi = d.view abi := by
      intro left
      simp [Device.view, d.put_image abi (show ¬ dst.served abi from hq)]
    cases (show Pushes _ _ _ _ _ _ from hreacts) with
    | pushed => exact hput _
    | same => rfl
    | missing => rfl
    | failed left => exact hput left
    | raised e left => exact hput left
  | killProcess => exact hq.elim
  | launch => exact hq.elim
  | connect =>
    obtain ⟨rfl, -⟩ := hreacts
    rfl
  | cpuAbi =>
    obtain ⟨rfl, -⟩ := hreacts
    rfl
  | _ =>
    cases hreacts
    rfl

theorem returns_cpuAbi (v : View) :
    cpuAbi.Returns (Seen abi host) (fun v' a => v' = v ∧ a = abi) v := by
  rintro answer _ ⟨d, d', rfl, rfl, ⟨rfl, habi⟩, -⟩ a ha
  exact ⟨rfl, habi a ha⟩

theorem returns_kill (v : View) :
    killProcess.Returns (Seen abi host) (fun v' _ => v' = ⟨v.image, none⟩) v := by
  rintro answer _ ⟨d, d', rfl, rfl, hkill, hworked⟩ _ hdone
  cases (show Kills _ _ _ from hkill) with
  | killed => rfl
  | missed => exact absurd rfl hworked
  | raised => cases hdone

/-- A push of a file that the host has, onto one of the server's. -/
theorem returns_push {file : File} {c : Content} (hcontent : host file = some c) {dst : Dst}
    {check : Bool} (v : View) :
    (pushFile file dst check).Returns (Seen abi host) (fun v' update => v'.server = v.server ∧
      (dst = .server → v'.image = ⟨some c, v.image.lib⟩ ∧
        (update = false → v.image.server = some c)) ∧
      (dst = .lib abi.libName libOriginName → v'.image = ⟨v.image.server, some c⟩ ∧
        (update = false → v.image.lib = some c ∧ (check = true ∨ 8192 < c.length)))) v := by
  rintro answer _ ⟨d, d', rfl, rfl, hpush, hworked⟩ update hupdate
  cases (show Pushes (host file) dst check d answer d' from hpush) with
  | pushed hfound =>
    cases hcontent.symm.trans hfound
    cases hupdate
    refine ⟨rfl, ?_, ?_⟩
    · rintro rfl
      exact ⟨by simp [Device.view, Device.image, Device.put], by rintro ⟨⟩⟩
    · rintro rfl
      exact ⟨by simp [Device.view, Device.image, Device.put], by rintro ⟨⟩⟩
  | same hfound hsame hcompare =>
    cases hcontent.symm.trans hfound
    refine ⟨rfl, ?_, ?_⟩
    · rintro rfl
      exact ⟨by simp [Device.view, Device.image, hsame], fun _ => hsame⟩
    · rintro rfl
      exact ⟨by simp [Device.view, Device.image, hsame], fun _ => ⟨hsame, hcompare⟩⟩
  | missing hnone =>
    rw [hcontent] at hnone
    cases hnone
  | failed => exact absurd rfl hworked
  | raised => cases hupdate

/-- The server, if there is one, has been started from these files. -/
def View.Current (v : View) : Prop := ∀ image, v.server = some image → image = v.image

theorem returns_connectLibs (localPort : Int) (lib : Dst) (second : Option Dst) (v : View) :
    (connectLibs localPort lib second).Returns (Seen abi host)
      (fun v' client => v' = v ∧ v.server = some client.image) v := by
  refine Dialogue.returns_bind.mpr ?_
  rintro answer _ ⟨d, d', rfl, rfl, ⟨rfl, hserver⟩, -⟩ client hclient
  refine Dialogue.returns_bind.mpr ?_
  refine (overlooks_seen.question (q := .setArchLib _ _) trivial).returns fun _ => ?_
  refine Dialogue.returns_bind.mpr ?_
  refine (quiet_setSecond overlooks_seen client second).returns fun _ => ?_
  exact (Dialogue.returns_ok _).mpr ⟨rfl, hserver client hclient⟩

theorem returns_startServer {v : View} (hcurrent : v.Current) (port : Port) (localPort : Int)
    (libDir : Text) (lib : Dst) (second : Option Dst) :
    (startServer port localPort libDir lib second).Returns (Seen abi host)
      (fun _ client => client.image = v.image) v := by
  refine Dialogue.returns_bind.mpr ?_
  rintro answer _ ⟨d, d', rfl, rfl, hlaunch, -⟩ _ _
  have hsame : (d'.view abi).image = (d.view abi).image ∧ (d'.view abi).Current := by
    rcases hlaunch with rfl | rfl
    · exact ⟨rfl, hcurrent⟩
    · exact ⟨rfl, fun image himage => (Option.some.inj himage).symm⟩
  refine Dialogue.returns_bind.mpr ?_
  refine (returns_connectLibs localPort lib second _).mono fun v' client hclient => ?_
  obtain ⟨rfl, hserver⟩ := hclient
  refine Dialogue.returns_bind.mpr ?_
  refine (quiet_patchIfOn overlooks_seen client).returns fun _ => (Dialogue.returns_ok _).mpr ?_
  exact (hsame.2 _ hserver).trans hsame.1

theorem returns_reuse {v : View} {kill : Bool} (hcurrent : kill = false → v.Current)
    (localPort : Int) (lib : Dst) (second : Option Dst) :
    (reuseServer kill localPort lib second).Returns (Seen abi host)
      (fun v' reused => v'.image = v.image ∧ v'.Current ∧
        ∀ client, reused = some client → client.image = v.image) v := by
  have hkilled : (do killProcess; pure none : Adb (Option Client)).Returns (Seen abi host)
      (fun v' reused => v'.image = v.image ∧ v'.Current ∧
        ∀ client, reused = some client → client.image = v.image) v := by
    refine Dialogue.returns_bind.mpr ((returns_kill v).mono fun v' _ hv => ?_)
    subst hv
    exact (Dialogue.returns_ok _).mpr ⟨rfl, fun _ h => (by cases h), fun _ h => (by cases h)⟩
  unfold reuseServer
  split
  · exact hkilled
  · next hkill =>
    have hnow : v.Current := hcurrent (by simpa using hkill)
    have hquiet : Dialogue.Quiet (Seen abi host) (connectLibs localPort lib second) :=
      quiet_connectLibs overlooks_seen localPort lib second
    refine Dialogue.returns_bind.mpr
      ((hquiet.returns_attempt (returns_connectLibs localPort lib second v)).mono ?_)
    rintro v' result ⟨rfl, hclient⟩
    cases result with
    | ok client =>
      refine (Dialogue.returns_ok _).mpr ⟨rfl, hnow, ?_⟩
      rintro _ ⟨⟩
      exact hnow _ (hclient client rfl).2
    | error e => exact hkilled

theorem returns_serve_alone {v : View} {kill : Bool} (hcurrent : kill = false → v.Current)
    (port : Port) (localPort : Int) (libDir : Text) (lib : Dst) (second : Option Dst) :
    (serve port localPort libDir kill lib second).Returns (Seen abi host)
      (fun _ client => client.image = v.image) v := by
  refine Dialogue.returns_bind.mpr ?_
  refine (returns_reuse hcurrent localPort lib second).mono ?_
  rintro v' reused ⟨himage, hnow, hclient⟩
  cases reused with
  | some client => exact (Dialogue.returns_ok _).mpr (hclient client rfl)
  | none =>
    rw [← himage]
    exact returns_startServer hnow port localPort libDir lib second

/-- An old server on a device whose files need no push. -/
def Forgotten (abi : Abi) (host : Host) (v : View) : Prop :=
  v.image = hostImage abi host ∧ ¬ v.Current ∧
    ∃ c, host (.lib abi) = some c ∧ 8192 < c.length

theorem returns_pushAll_alone {v : View} {server lib : Content}
    (hserver : host (.server abi) = some server) (hlib : host (.lib abi) = some lib)
    (hforgotten : ¬ Forgotten abi host v) (config : Configuration) (port : Port) (localPort : Int) :
    (pushAll config true port localPort abi).Returns (Seen abi host)
      (fun _ client => client.image = hostImage abi host) v := by
  refine Dialogue.returns_bind.mpr ?_
  refine (overlooks_seen.question (q := .pathExists _) trivial).returns fun found => ?_
  split
  · refine Dialogue.returns_bind.mpr ((returns_push hserver v).mono ?_)
    rintro v₁ update ⟨hsame₁, hpushed, -⟩
    obtain ⟨himage₁, hserver₁⟩ := hpushed rfl
    refine Dialogue.returns_bind.mpr (Dialogue.returns_bind.mpr ?_)
    refine (overlooks_seen.question (q := .fileType) trivial).returns fun _ => ?_
    refine (returns_push hlib v₁).mono ?_
    rintro v₂ libUpdate ⟨hsame₂, -, hpushed⟩
    obtain ⟨himage₂, hlib₂⟩ := hpushed rfl
    have himage : v₂.image = hostImage abi host := by
      rw [himage₂, himage₁, hostImage, hserver, hlib]
    refine Dialogue.returns_bind.mpr ?_
    refine (quiet_libName overlooks_seen config).returns fun name => ?_
    refine Dialogue.returns_bind.mpr ?_
    refine (quiet_pushAppLib overlooks_seen _ _ name).returns fun _ => ?_
    refine Dialogue.returns_bind.mpr ?_
    refine (quiet_pushLib32 overlooks_seen name).returns fun second => ?_
    rw [← himage]
    refine returns_serve_alone (fun hkill => ?_) port localPort _ _ second
    -- nothing has been pushed, so the files were the host's before
    obtain ⟨rfl, rfl⟩ : update = false ∧ libUpdate = false := by simpa using hkill
    have hbefore : v.image = hostImage abi host := by
      have hv := hlib₂ rfl
      rw [himage₁] at hv
      rw [hostImage, hserver, hlib, ← hserver₁ rfl, ← hv.1]
    have hlarge : 8192 < lib.length := by simpa using (hlib₂ rfl).2
    have hcurrent : v.Current := by
      by_contra hold
      exact hforgotten ⟨hbefore, hold, lib, hlib, hlarge⟩
    intro image hrunning
    rw [himage, ← hbefore]
    exact hcurrent image (by rw [← hsame₁, ← hsame₂, hrunning])
  · exact Dialogue.returns_error _

theorem returns_getClient_alone {v : View} {server lib : Content}
    (hserver : host (.server abi) = some server) (hlib : host (.lib abi) = some lib)
    (hforgotten : ¬ Forgotten abi host v) (config : Configuration) :
    (getClient config true).Returns (Seen abi host)
      (fun _ client => client.image = hostImage abi host) v := by
  refine Dialogue.returns_bind.mpr ?_
  refine (overlooks_seen.question (q := .isRoot) trivial).returns fun root => ?_
  split
  · refine Dialogue.returns_bind.mpr ?_
    refine (quiet_serverPort overlooks_seen config).returns fun port => ?_
    refine Dialogue.returns_bind.mpr ?_
    refine (overlooks_seen.question (q := .getForwardPort port) trivial).returns fun localPort => ?_
    refine Dialogue.returns_bind.mpr ((returns_cpuAbi v).mono ?_)
    rintro v' found ⟨rfl, rfl⟩
    exact returns_pushAll_alone hserver hlib hforgotten config port localPort
  · exact Dialogue.returns_error _

theorem converses_forgotten {d : Device} {server lib : Content} {image : Image}
    (hserver : host (.server abi) = some server) (hlib : host (.lib abi) = some lib)
    (hfiles : d.image abi = hostImage abi host) (hlarge : 8192 < lib.length)
    (hrunning : d.server = some image) :
    Dialogue.Converses (Alone abi host) d (getClient plainConfig true) d (.ok ⟨image⟩) := by
  have hfile : d.files .server = some server := by
    rw [← hserver]
    exact congrArg Image.server hfiles
  have hlibFile : d.files (.lib abi.libName libOriginName) = some lib := by
    rw [← hlib]
    exact congrArg Image.lib hfiles
  refine .ask (a := .ok true) ⟨rfl, trivial⟩ ?_
  refine .ask (a := .ok 0) ⟨rfl, trivial⟩ ?_
  refine .ask (a := .ok abi) ⟨⟨rfl, fun _ h => (Except.ok.inj h).symm⟩, trivial⟩ ?_
  refine .ask (a := true) ⟨rfl, trivial⟩ ?_
  refine converses_same hserver hfile (Or.inl rfl) ?_
  refine .ask (a := .ok none) ⟨rfl, trivial⟩ ?_
  refine converses_same hlib hlibFile (Or.inr hlarge) ?_
  have hserve : Dialogue.Converses (Alone abi host) d
      (serve (.tcp 0) 0 abi.libName false (.lib abi.libName libOriginName) none) d
      (.ok ⟨image⟩) := by
    refine converses_connect hrunning ?_
    exact .ask (a := .ok ()) ⟨rfl, trivial⟩ (.done _ _)
  cases abi with
  | arm64V8a =>
    refine .ask (a := .ok false) ⟨rfl, trivial⟩ ?_
    exact hserve
  | armeabiV7a => exact hserve
  | x86_64 =>
    refine .ask (a := .ok false) ⟨rfl, trivial⟩ ?_
    exact hserve
  | x86 => exact hserve

end Alone

/-- **What a call makes of a server that another has left behind.**  Alone with a device that
    works, and from a host that has the files, every call is connected to a server that has
    been started from its host's files, exactly if it does not find these files there beside an
    older server.  A library of no more than 8192 bytes is pushed again, and saves the call. -/
theorem served_current_iff (abi : Abi) (host : Host) (d : Device)
    (hserver : (host (.server abi)).isSome) (hlib : (host (.lib abi)).isSome) :
    (∀ config d' client,
      Dialogue.Converses (Alone abi host) d (getClient config true) d' (.ok client) →
        client.image = hostImage abi host) ↔ ¬ Forgotten abi host (d.view abi) := by
  obtain ⟨server, hserver⟩ := Option.isSome_iff_exists.mp hserver
  obtain ⟨lib, hlib⟩ := Option.isSome_iff_exists.mp hlib
  constructor
  · rintro h ⟨hfiles, hold, c, hc, hlarge⟩
    cases hlib.symm.trans hc
    refine hold fun image hrunning => ?_
    have hconverses := converses_forgotten hserver hlib hfiles hlarge hrunning
    rw [hfiles]
    exact h plainConfig d ⟨image⟩ hconverses
  · intro hforgotten config d' client hconverses
    have hseen : Dialogue.Converses (Seen abi host) (d.view abi) (getClient config true)
        (d'.view abi) (.ok client) :=
      hconverses.map (Device.view · abi) fun d₁ _ d₂ h => ⟨d₁, d₂, rfl, rfl, h⟩
    exact Dialogue.wp_iff.mp (returns_getClient_alone hserver hlib hforgotten config) _ _ hseen
      client rfl

/-- An old server beside new files: the library is small. -/
theorem served_current_iff_smallLib :
    ((∀ config d' client,
      Dialogue.Converses (Alone .armeabiV7a fun _ => some [1]) after (getClient config true) d'
        (.ok client) → client.image = hostImage .armeabiV7a fun _ => some [1]) ↔
      ¬ Forgotten .armeabiV7a (fun _ => some [1]) (after.view .armeabiV7a)) ∧
    ¬ Forgotten .armeabiV7a (fun _ => some [1]) (after.view .armeabiV7a) := by
  refine ⟨served_current_iff .armeabiV7a (fun _ => some [1]) after rfl rfl, ?_⟩
  rintro ⟨-, -, c, hc, hlarge⟩
  cases hc
  exact absurd hlarge (by decide)

end Albatross.ServerUpdates
