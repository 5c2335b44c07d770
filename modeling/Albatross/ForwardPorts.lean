/-
  Albatross/ForwardPorts.lean
  ===========================
  **Ports that adb forwards** (`device.py`: `forward_list`, `get_forward_port`,
  `get_valid_port`, `forward`, `remove_forward_port`).

  `get_forward_port` looks in adb's list for a local port that leads to the address on its
  device, and when there is none takes a free port of the host and has adb forward it.  Any
  number of threads do so, for any devices, and so do other users of adb.  The listing, the
  choice of the port and the forwarding are steps of their own.

  adb's server is a parameter, with what its documentation says of it (`Adb.Documented`):
  forwarding a port that is forwarded already takes it over.  The result of the forwarding
  is not looked at.  The loop looks for the device's id, but the forwarding is asked of the
  device that `cmd` names then, under its id or under an address; its serial is told.
  `leases` is a record of the ports that calls have returned, which no code reads;
  `ports_safe_iff` says when all of them lead where they should, and `alone_safe` that they
  do when calls do not overlap.
-/
import Albatross.PyLines
import Albatross.Runs
import Mathlib.Logic.Function.Basic

namespace Albatross.ForwardPorts

open Decimal PyText Runs
open Python (PyExn)

/-! ### What adb lists -/

/-- What a local end can be beside a TCP port. -/
inductive Kind where
  | vsock
  | unix
  | reserved
  | abstract
  | filesystem
deriving DecidableEq

def Kind.text : Kind → Text
  | .vsock => ['v', 's', 'o', 'c', 'k']
  | .unix => ['l', 'o', 'c', 'a', 'l']
  | .reserved => ['l', 'o', 'c', 'a', 'l', 'r', 'e', 's', 'e', 'r', 'v', 'e', 'd']
  | .abstract => ['l', 'o', 'c', 'a', 'l', 'a', 'b', 's', 't', 'r', 'a', 'c', 't']
  | .filesystem =>
      ['l', 'o', 'c', 'a', 'l', 'f', 'i', 'l', 'e', 's', 'y', 's', 't', 'e', 'm']

theorem Kind.letters (kind : Kind) : kind.text.all Char.isAlpha = true := by
  cases kind <;> decide

/-- Behind four characters a kind goes on with a letter, where a TCP port has its number. -/
theorem Kind.drop_four (kind : Kind) : ∃ c s, kind.text.drop 4 = c :: s ∧ c.isAlpha := by
  cases kind <;> exact ⟨_, _, rfl, by decide⟩

inductive LocalEnd where
  | tcp (port : Nat)
  | named (kind : Kind) (name : Word)
deriving DecidableEq

namespace LocalEnd

def kindText : LocalEnd → Text
  | .tcp _ => ['t', 'c', 'p']
  | .named kind _ => kind.text

def name : LocalEnd → Text
  | .tcp port => Nat.toDigits 10 port
  | .named _ name => name.text

def text (l : LocalEnd) : Text := l.kindText ++ ':' :: l.name

theorem plain (l : LocalEnd) : ∀ c ∈ l.text, isSpace c = false := by
  have hletters : l.kindText.all Char.isAlpha = true := by
    cases l with
    | tcp port => rfl
    | named kind name => exact kind.letters
  intro c hc
  rcases List.mem_append.mp hc with hc | hc
  · exact isSpace_of_isAlpha (List.all_eq_true.mp hletters c hc)
  · rcases List.mem_cons.mp hc with rfl | hc
    · decide
    · cases l with
      | tcp port => exact isSpace_of_isDigit (isDigit_of_mem_toDigits hc)
      | named kind name => exact name.plain c hc

def word (l : LocalEnd) : Word := ⟨l.text, by simp [text], l.plain⟩

theorem int_drop (l : LocalEnd) (p : Int) :
    int (l.text.drop 4) = .ok p ↔ ∃ port : Nat, l = .tcp port ∧ p = port := by
  cases l with
  | tcp port =>
    have hread : int (Nat.toDigits 10 port) = .ok (port : Int) :=
      int_of_intOf (intOf_of_natOf (natOf_toDigits port))
    change int (Nat.toDigits 10 port) = .ok p ↔ _
    rw [hread]
    constructor
    · intro h
      cases h
      exact ⟨port, rfl, rfl⟩
    · rintro ⟨_, hl, rfl⟩
      cases hl
      rfl
  | named kind name =>
    obtain ⟨c, s, hdrop, hletter⟩ := kind.drop_four
    have hlen : 4 ≤ kind.text.length := by cases kind <;> decide
    have htext : (named kind name).text.drop 4 = c :: (s ++ ':' :: name.text) := by
      rw [text, kindText, List.drop_append_of_le_length hlen, hdrop]
      rfl
    rw [htext, int_cons_error hletter]
    constructor
    · rintro ⟨⟩
    · rintro ⟨_, hl, _⟩
      cases hl

end LocalEnd

/-- A line of `forward --list`. -/
structure Forward where
  serial : Word
  lcl : LocalEnd
  remote : Word
deriving DecidableEq

def Forward.words (f : Forward) : List Word := [f.serial, f.lcl.word, f.remote]

def listing (rows : List Forward) : Text := tableText (rows.map Forward.words)

/-! ### The code -/

structure Target where
  serial : Word
  remote : Word
deriving DecidableEq

/-- `forward_list`, on what adb writes. -/
def forwardList (text : Text) : List (List Text) :=
  (splitlines (strip text)).map fun line => split (strip line)

/-- The loop of `get_forward_port`; `usable` is `not_check or check_socket_port(..)`. -/
def search (c : Target) (usable : Int → Bool) : List (List Text) → Except PyExn (Option Int)
  | [] => .ok none
  | [s, lp, rp] :: rows =>
      if rp = c.remote.text ∧ s = c.serial.text then
        match int (lp.drop 4) with
        | .error e => .error e
        | .ok localPort => if usable localPort then .ok (some localPort) else search c usable rows
      else search c usable rows
  | _ :: _ => .error .valueError

theorem forwardList_listing (rows : List Forward) :
    forwardList (listing rows) = rows.map fun f => f.words.map Word.text := by
  rw [forwardList, listing, table_read, List.map_map]
  · rfl
  · intro words hwords
    obtain ⟨f, _, rfl⟩ := List.mem_map.mp hwords
    exact List.cons_ne_nil _ _

theorem search_listing {c : Target} {usable : Int → Bool} {rows : List Forward} {p : Int}
    (h : search c usable (forwardList (listing rows)) = .ok (some p)) :
    ∃ port : Nat, p = port ∧ ⟨c.serial, .tcp port, c.remote⟩ ∈ rows := by
  rw [forwardList_listing] at h
  induction rows with
  | nil => cases h
  | cons f rows ih =>
    have hrest : search c usable (rows.map fun f => f.words.map Word.text) = .ok (some p) →
        ∃ port : Nat, p = port ∧ ⟨c.serial, .tcp port, c.remote⟩ ∈ f :: rows := by
      intro hrest
      obtain ⟨port, hp, hmem⟩ := ih hrest
      exact ⟨port, hp, List.mem_cons_of_mem f hmem⟩
    simp only [List.map_cons, Forward.words, List.map_nil, search] at h
    split at h
    · next heq =>
      split at h
      · cases h
      · next q hq =>
        split at h
        · cases h
          obtain ⟨port, hlcl, rfl⟩ := (f.lcl.int_drop p).mp hq
          obtain ⟨serial, lcl, remote⟩ := f
          cases Word.ext heq.1
          cases Word.ext heq.2
          cases hlcl
          exact ⟨port, rfl, List.mem_cons_self⟩
        · exact hrest h
    · exact hrest h

/-! ### State -/

structure Adb (A : Type) where
  start : A
  /-- What it forwards. -/
  rows : A → List Forward
  /-- `adb -s serial forward local remote`. -/
  forward : Forward → A → A
  /-- `adb forward --remove local`. -/
  remove : LocalEnd → A → A
  /-- The device goes away. -/
  gone : Word → A → A

/-- A server that has just started forwards nothing, and a local end leads to one address. -/
structure Adb.Documented {A : Type} (adb : Adb A) : Prop where
  start : adb.rows adb.start = []
  forward : ∀ f a g, g ∈ adb.rows (adb.forward f a) ↔ g = f ∨ g ∈ adb.rows a ∧ g.lcl ≠ f.lcl
  remove : ∀ lcl a g, g ∈ adb.rows (adb.remove lcl a) ↔ g ∈ adb.rows a ∧ g.lcl ≠ lcl
  gone : ∀ serial a g, g ∈ adb.rows (adb.gone serial a) ↔ g ∈ adb.rows a ∧ g.serial ≠ serial

/-- A call of `get_forward_port`. -/
inductive Call where
  | choosing (c : Target)
  | forwarding (c : Target) (localPort : Nat)
deriving DecidableEq

/-- A port that a call has returned and nobody has removed. -/
structure Lease where
  target : Target
  localPort : Int
deriving DecidableEq

structure State (A : Type) where
  adb : A
  calls : Nat → Option Call
  leases : List Lease

variable {A : Type}

def State.initial (adb : Adb A) : State A := ⟨adb.start, fun _ => none, []⟩

def State.setCall (s : State A) (t : Nat) (c : Option Call) : State A :=
  { s with calls := Function.update s.calls t c }

def State.returned (s : State A) (c : Target) (localPort : Int) : State A :=
  { s with leases := s.leases ++ [⟨c, localPort⟩] }

/-! ### Steps -/

variable (adb : Adb A)

/-- `get_forward_port` up to the end of its loop; adb's answer is empty when it takes too long. -/
def getForwardPort (t : Nat) (c : Target) (usable : Int → Bool) (timedOut : Bool) (s : State A) :
    Option (State A) :=
  match s.calls t with
  | some _ => none
  | none =>
      let text := if timedOut then [] else listing (adb.rows s.adb)
      match search c usable (forwardList text) with
      | .error _ => some s
      | .ok (some localPort) => some (s.returned c localPort)
      | .ok none => some (s.setCall t (some (.choosing c)))

/-- `get_valid_port`: a port at which nobody listens. -/
def getValidPort (t port : Nat) (s : State A) : Option (State A) :=
  match s.calls t with
  | some (.choosing c) =>
      if ∀ f ∈ adb.rows s.adb, f.lcl ≠ .tcp port then
        some (s.setCall t (some (.forwarding c port)))
      else none
  | _ => none

/-- `forward` on the device that `cmd` names, which adb may refuse, and the end of the call. -/
def forward (t : Nat) (serial : Word) (done : Bool) (s : State A) : Option (State A) :=
  match s.calls t with
  | some (.forwarding c port) =>
      let a := if done then adb.forward ⟨serial, .tcp port, c.remote⟩ s.adb else s.adb
      some (({ s with adb := a }.setCall t none).returned ⟨serial, c.remote⟩ port)
  | _ => none

/-- `remove_forward_port`. -/
def removeForwardPort (port : Nat) (done : Bool) (s : State A) : State A :=
  { s with
    adb := if done then adb.remove (.tcp port) s.adb else s.adb
    leases := s.leases.filter fun l => l.localPort ≠ port }

/-- A device goes away, and with it what its ports were for. -/
def gone (serial : Word) (s : State A) : State A :=
  { s with
    adb := adb.gone serial s.adb
    leases := s.leases.filter fun l => l.target.serial ≠ serial }

inductive Op where
  | getForwardPort (t : Nat) (c : Target) (usable : Int → Bool) (timedOut : Bool)
  | getValidPort (t port : Nat)
  | forward (t : Nat) (serial : Word) (done : Bool)
  | removeForwardPort (port : Nat) (done : Bool)
  | gone (serial : Word)
  /-- Another user of adb. -/
  | otherForward (f : Forward)
  | otherRemove (lcl : LocalEnd)

def step (s : State A) : Op → Option (State A)
  | .getForwardPort t c usable timedOut => getForwardPort adb t c usable timedOut s
  | .getValidPort t port => getValidPort adb t port s
  | .forward t serial done => forward adb t serial done s
  | .removeForwardPort port done => some (removeForwardPort adb port done s)
  | .gone serial => some (gone adb serial s)
  | .otherForward f => some { s with adb := adb.forward f s.adb }
  | .otherRemove lcl => some { s with adb := adb.remove lcl s.adb }

/-! ### A server that is a list -/

def listAdb : Adb (List Forward) where
  start := []
  rows a := a
  forward f a := a.filter (fun g => g.lcl ≠ f.lcl) ++ [f]
  remove lcl a := a.filter fun g => g.lcl ≠ lcl
  gone serial a := a.filter fun g => g.serial ≠ serial

theorem listAdb_documented : listAdb.Documented where
  start := rfl
  forward f a g := by simp [listAdb, or_comm]
  remove lcl a g := by simp [listAdb]
  gone serial a g := by simp [listAdb]

def phone : Word := ⟨['p'], by decide, by simp [isSpace]⟩
def manager : Word := ⟨['m'], by decide, by simp [isSpace]⟩
def agent : Word := ⟨['a'], by decide, by simp [isSpace]⟩

/-- A call of `get_forward_port` from beginning to end. -/
def callOps (t : Nat) (remote : Word) (port : Nat) : List Op :=
  [.getForwardPort t ⟨phone, remote⟩ (fun _ => true) false, .getValidPort t port,
    .forward t phone true]

/-! ### Leases -/

/-- The port leads to the address for which it was asked. -/
def Lease.Leads (l : Lease) (rows : List Forward) : Prop :=
  ∃ port : Nat, l.localPort = port ∧ ⟨l.target.serial, .tcp port, l.target.remote⟩ ∈ rows

def Safe (s : State A) : Prop := ∀ l ∈ s.leases, l.Leads (adb.rows s.adb)

/-- A step leaves the ports that have been returned to their users: adb forwards the port that
    it is asked to, which nobody has been given for another address, and other users of adb
    leave the ports alone. -/
def Op.Respects (s : State A) : Op → Prop
  | .forward t serial true => ∀ c port, s.calls t = some (.forwarding c port) →
      ∀ l ∈ s.leases, l.localPort = port → l.target = ⟨serial, c.remote⟩
  | .forward t serial false => ∀ c port, s.calls t = some (.forwarding c port) →
      ⟨serial, .tcp port, c.remote⟩ ∈ adb.rows s.adb
  | .otherForward f => ∀ port, f.lcl = .tcp port →
      ∀ l ∈ s.leases, l.localPort = port → l.target = ⟨f.serial, f.remote⟩
  | .otherRemove lcl => ∀ port, lcl = .tcp port → ∀ l ∈ s.leases, l.localPort ≠ port
  | _ => True

section Leases

variable {adb} (hdoc : adb.Documented) {l : Lease} {a : A}

include hdoc

/-- A port goes on leading to its address unless it is forwarded to another. -/
theorem leads_forward (f : Forward) (h : l.Leads (adb.rows a)) :
    l.Leads (adb.rows (adb.forward f a)) ↔ ∀ port : Nat, f.lcl = .tcp port →
      l.localPort = port → l.target = ⟨f.serial, f.remote⟩ := by
  obtain ⟨port, hp, hmem⟩ := h
  constructor
  · rintro ⟨port', hp', hnew⟩ q hlcl hq
    cases Int.ofNat.inj (hq.symm.trans hp')
    rcases (hdoc.forward _ _ _).mp hnew with heq | ⟨_, hne⟩
    · rw [← heq]
    · exact absurd hlcl.symm hne
  · intro hsame
    refine ⟨port, hp, (hdoc.forward _ _ _).mpr ?_⟩
    by_cases hlcl : f.lcl = .tcp port
    · left
      rw [hsame port hlcl hp, ← hlcl]
    · exact Or.inr ⟨hmem, Ne.symm hlcl⟩

theorem leads_remove (lcl : LocalEnd) (h : l.Leads (adb.rows a)) :
    l.Leads (adb.rows (adb.remove lcl a)) ↔ ∀ port : Nat, lcl = .tcp port →
      l.localPort ≠ port := by
  obtain ⟨port, hp, hmem⟩ := h
  constructor
  · rintro ⟨port', hp', hnew⟩ q hlcl hq
    cases Int.ofNat.inj (hq.symm.trans hp')
    exact ((hdoc.remove _ _ _).mp hnew).2 hlcl.symm
  · intro hne
    refine ⟨port, hp, (hdoc.remove _ _ _).mpr ⟨hmem, ?_⟩⟩
    intro hlcl
    exact hne port hlcl.symm hp

theorem leads_gone {serial : Word} (h : l.Leads (adb.rows a)) (hne : l.target.serial ≠ serial) :
    l.Leads (adb.rows (adb.gone serial a)) := by
  obtain ⟨port, hp, hmem⟩ := h
  exact ⟨port, hp, (hdoc.gone _ _ _).mpr ⟨hmem, hne⟩⟩

end Leases

section Steps

variable {adb} {s s' : State A}

theorem getForwardPort_cases {t : Nat} {c : Target} {usable : Int → Bool} {timedOut : Bool}
    (h : getForwardPort adb t c usable timedOut s = some s') :
    s.calls t = none ∧ (s' = s ∨ s' = s.setCall t (some (.choosing c)) ∨
      ∃ p, s' = s.returned c p ∧ Lease.Leads ⟨c, p⟩ (adb.rows s.adb)) := by
  unfold getForwardPort at h
  split at h
  · cases h
  · next hnone =>
    refine ⟨hnone, ?_⟩
    simp only at h
    split at h
    · exact Or.inl (Option.some.inj h).symm
    · next p hsearch =>
      refine Or.inr (Or.inr ⟨p, (Option.some.inj h).symm, ?_⟩)
      cases timedOut with
      | true => cases hsearch
      | false => exact search_listing hsearch
    · exact Or.inr (Or.inl (Option.some.inj h).symm)

theorem getValidPort_cases {t port : Nat} (h : getValidPort adb t port s = some s') :
    ∃ c, s.calls t = some (.choosing c) ∧ (∀ f ∈ adb.rows s.adb, f.lcl ≠ .tcp port) ∧
      s' = s.setCall t (some (.forwarding c port)) := by
  unfold getValidPort at h
  split at h
  · next c hc =>
    split at h
    · next hfree => exact ⟨c, hc, hfree, (Option.some.inj h).symm⟩
    · cases h
  · cases h

theorem forward_cases {t : Nat} {serial : Word} {done : Bool}
    (h : forward adb t serial done s = some s') :
    ∃ c port, s.calls t = some (.forwarding c port) ∧
      s' = (({ s with adb :=
        if done then adb.forward ⟨serial, .tcp port, c.remote⟩ s.adb else s.adb }).setCall
          t none).returned ⟨serial, c.remote⟩ port := by
  unfold forward at h
  split at h
  · next c port hc => exact ⟨c, port, hc, (Option.some.inj h).symm⟩
  · cases h

end Steps

/-! ### Safety -/

section Safety

variable {adb} (hdoc : adb.Documented)

include hdoc

theorem forward_safe {t port : Nat} {c : Target} {serial : Word} {done : Bool} {s : State A}
    (hc : s.calls t = some (.forwarding c port)) (h : Safe adb s) :
    Safe adb ((({ s with adb :=
        if done then adb.forward ⟨serial, .tcp port, c.remote⟩ s.adb else s.adb }).setCall
          t none).returned ⟨serial, c.remote⟩ port) ↔
      (Op.forward t serial done).Respects adb s := by
  have hcall : ∀ {c' : Target} {port' : Nat},
      s.calls t = some (.forwarding c' port') → c' = c ∧ port' = port := by
    intro c' port' hc'
    cases hc.symm.trans hc'
    exact ⟨rfl, rfl⟩
  cases done with
  | true =>
    constructor
    · intro hsafe c' port' hc' l hl hport
      obtain ⟨rfl, rfl⟩ := hcall hc'
      have hleads := hsafe l (List.mem_append_left _ hl)
      exact (leads_forward hdoc _ (h l hl)).mp hleads port' rfl hport
    · intro hall l hl
      rcases List.mem_append.mp hl with hl | hl
      · refine (leads_forward hdoc _ (h l hl)).mpr ?_
        rintro q hq hport
        cases hq
        exact hall c port hc l hl hport
      · cases List.mem_singleton.mp hl
        exact ⟨port, rfl, (hdoc.forward _ _ _).mpr (Or.inl rfl)⟩
  | false =>
    constructor
    · intro hsafe c' port' hc'
      obtain ⟨rfl, rfl⟩ := hcall hc'
      obtain ⟨q, hq, hmem⟩ := hsafe ⟨⟨serial, c'.remote⟩, port'⟩
        (List.mem_append_right _ (by simp))
      cases Int.ofNat.inj hq
      exact hmem
    · intro hrow l hl
      rcases List.mem_append.mp hl with hl | hl
      · exact h l hl
      · cases List.mem_singleton.mp hl
        exact ⟨port, rfl, hrow c port hc⟩

theorem step_safe {s : State A} {op : Op} {s' : State A} (hstep : step adb s op = some s')
    (h : Safe adb s) : Safe adb s' ↔ op.Respects adb s := by
  cases op with
  | getForwardPort t c usable timedOut =>
    refine iff_of_true ?_ trivial
    obtain ⟨_, rfl | rfl | ⟨p, rfl, hleads⟩⟩ := getForwardPort_cases hstep
    · exact h
    · exact h
    · intro l hl
      rcases List.mem_append.mp hl with hl | hl
      · exact h l hl
      · cases List.mem_singleton.mp hl
        exact hleads
  | getValidPort t port =>
    refine iff_of_true ?_ trivial
    obtain ⟨c, _, _, rfl⟩ := getValidPort_cases hstep
    exact h
  | forward t serial done =>
    obtain ⟨c, port, hc, rfl⟩ := forward_cases hstep
    exact forward_safe hdoc hc h
  | removeForwardPort port done =>
    refine iff_of_true ?_ trivial
    cases hstep
    intro l hl
    obtain ⟨hmem, hne⟩ := List.mem_filter.mp hl
    cases done with
    | true =>
      refine (leads_remove hdoc _ (h l hmem)).mpr ?_
      rintro q hq
      cases hq
      simpa using hne
    | false => exact h l hmem
  | gone serial =>
    refine iff_of_true ?_ trivial
    cases hstep
    intro l hl
    obtain ⟨hmem, hne⟩ := List.mem_filter.mp hl
    exact leads_gone hdoc (h l hmem) (by simpa using hne)
  | otherForward f =>
    cases hstep
    constructor
    · intro hsafe port hlcl l hl hport
      exact (leads_forward hdoc f (h l hl)).mp (hsafe l hl) port hlcl hport
    · intro hall l hl
      exact (leads_forward hdoc f (h l hl)).mpr fun port hlcl hport => hall port hlcl l hl hport
  | otherRemove lcl =>
    cases hstep
    constructor
    · intro hsafe port hlcl l hl
      exact (leads_remove hdoc lcl (h l hl)).mp (hsafe l hl) port hlcl
    · intro hall l hl
      exact (leads_remove hdoc lcl (h l hl)).mpr fun port hlcl => hall port hlcl l hl

omit hdoc in
theorem initial_safe : Safe adb (State.initial adb) := by
  intro l hl
  cases hl

/-- **When every port leads where its user asked**: throughout a run, exactly when all steps
    respect the ports that have been returned. -/
theorem ports_safe_iff (ops : List Op) :
    (∀ s op s', Takes (step adb) (State.initial adb) ops s op s' → Safe adb s') ↔
      ∀ s op s', Takes (step adb) (State.initial adb) ops s op s' → op.Respects adb s :=
  forall_takes_iff initial_safe fun _ _ _ ht hsafe => step_safe hdoc ht.one hsafe

end Safety

def sameFreePort : List Op :=
  [.getForwardPort 0 ⟨phone, manager⟩ (fun _ => true) false,
    .getForwardPort 1 ⟨phone, agent⟩ (fun _ => true) false,
    .getValidPort 0 5000, .getValidPort 1 5000, .forward 0 phone true,
    .forward 1 phone true]

theorem ports_safe_iff_sameFreePort :
    ((∀ s op s', Takes (step listAdb) (State.initial listAdb) sameFreePort s op s' →
        Safe listAdb s') ↔
      ∀ s op s', Takes (step listAdb) (State.initial listAdb) sameFreePort s op s' →
        op.Respects listAdb s) ∧
    ∃ s, run (step listAdb) (State.initial listAdb) sameFreePort = some s ∧
      s.leases = [⟨⟨phone, manager⟩, 5000⟩, ⟨⟨phone, agent⟩, 5000⟩] ∧
      s.adb = [⟨phone, .tcp 5000, agent⟩] :=
  ⟨ports_safe_iff listAdb_documented sameFreePort, _, rfl, rfl, rfl⟩

/-! ### Calls that do not overlap -/

/-- Calls do not overlap, adb forwards what it is asked to, and other users leave the ports
    alone. -/
def Op.Alone (adb : Adb A) (s : State A) : Op → Prop
  | .getForwardPort _ _ _ _ => ∀ u, s.calls u = none
  | .forward _ _ done => done = true
  | op => op.Respects adb s

/-- One call is under way at most, and nobody has the port that it has chosen. -/
structure Inv (adb : Adb A) (s : State A) : Prop where
  safe : Safe adb s
  one : ∀ t u, s.calls t ≠ none → s.calls u ≠ none → t = u
  fresh : ∀ t c port, s.calls t = some (.forwarding c port) → ∀ l ∈ s.leases, l.localPort ≠ port

theorem calls_setCall (s : State A) (t u : Nat) (c : Option Call) :
    (s.setCall t c).calls u = if u = t then c else s.calls u := Function.update_apply _ _ _ _

section Alone

variable {adb} (hdoc : adb.Documented)

theorem Inv.of_idle {s : State A} (hsafe : Safe adb s) (h : ∀ u, s.calls u = none) : Inv adb s := by
  refine ⟨hsafe, fun t _ ht => absurd (h t) ht, fun t c port hc => ?_⟩
  rw [h t] at hc
  cases hc

/-- When no call starts, goes on or ends, and no port is returned. -/
theorem Inv.congr {s s' : State A} (h : Inv adb s) (hsafe : Safe adb s')
    (hcalls : s'.calls = s.calls) (hleases : ∀ l ∈ s'.leases, l ∈ s.leases) : Inv adb s' := by
  refine ⟨hsafe, ?_, fun t c port hc l hl => ?_⟩
  · rw [hcalls]
    exact h.one
  · rw [hcalls] at hc
    exact h.fresh t c port hc l (hleases l hl)

include hdoc in
theorem step_inv {s : State A} {op : Op} {s' : State A} (hstep : step adb s op = some s')
    (halone : op.Alone adb s) (h : Inv adb s) : Inv adb s' := by
  cases op with
  | getForwardPort t c usable timedOut =>
    have hsafe : Safe adb s' := (step_safe hdoc hstep h.safe).mpr trivial
    obtain ⟨_, rfl | rfl | ⟨p, rfl, _⟩⟩ := getForwardPort_cases hstep
    · exact h
    · refine ⟨hsafe, fun a b ha hb => ?_, fun a c' port hc => ?_⟩
      · rw [calls_setCall] at ha hb
        split at ha
        · next hat =>
          split at hb
          · next hbt => exact hat.trans hbt.symm
          · exact absurd (halone b) hb
        · exact absurd (halone a) ha
      · rw [calls_setCall, halone a] at hc
        split at hc <;> cases hc
    · exact Inv.of_idle hsafe halone
  | getValidPort t port =>
    have hsafe : Safe adb s' := (step_safe hdoc hstep h.safe).mpr trivial
    obtain ⟨c, hc, hfree, rfl⟩ := getValidPort_cases hstep
    have ht : s.calls t ≠ none := by simp [hc]
    refine ⟨hsafe, fun a b ha hb => ?_, fun a c' port' hc' l hl hport => ?_⟩
    · rw [calls_setCall] at ha hb
      have hself : ∀ u, (if u = t then some (.forwarding c port) else s.calls u) ≠ none →
          u = t := by
        intro u hu
        split at hu
        · next heq => exact heq
        · exact h.one u t hu ht
      exact (hself a ha).trans (hself b hb).symm
    · rw [calls_setCall] at hc'
      split at hc'
      · cases hc'
        -- a port that somebody has is in adb's list
        obtain ⟨q, hq, hmem⟩ := h.safe l hl
        cases Int.ofNat.inj (hport.symm.trans hq)
        exact hfree _ hmem rfl
      · exact h.fresh a c' port' hc' l hl hport
  | forward t serial done =>
    obtain ⟨c, port, hc, rfl⟩ := forward_cases hstep
    have hdone : done = true := halone
    subst hdone
    have hrespects : (Op.forward t serial true).Respects adb s := by
      intro c' port' hc' l hl hport
      exact absurd hport (h.fresh t c' port' hc' l hl)
    refine Inv.of_idle ((forward_safe hdoc hc h.safe).mpr hrespects) fun u => ?_
    change Function.update s.calls t none u = none
    rw [Function.update_apply]
    split
    · rfl
    · next hne =>
      by_contra hu
      exact hne (h.one u t hu (by simp [hc]))
  | removeForwardPort port done =>
    have hsafe : Safe adb s' := (step_safe hdoc hstep h.safe).mpr trivial
    cases hstep
    exact h.congr hsafe rfl fun l hl => (List.mem_filter.mp hl).1
  | gone serial =>
    have hsafe : Safe adb s' := (step_safe hdoc hstep h.safe).mpr trivial
    cases hstep
    exact h.congr hsafe rfl fun l hl => (List.mem_filter.mp hl).1
  | otherForward f =>
    have hsafe : Safe adb s' := (step_safe hdoc hstep h.safe).mpr halone
    cases hstep
    exact h.congr hsafe rfl fun _ hl => hl
  | otherRemove lcl =>
    have hsafe : Safe adb s' := (step_safe hdoc hstep h.safe).mpr halone
    cases hstep
    exact h.congr hsafe rfl fun _ hl => hl

include hdoc in
/-- **Calls that do not overlap take no port from anybody.** -/
theorem alone_safe {ops : List Op} {s : State A}
    (hrun : run (step adb) (State.initial adb) ops = some s)
    (halone : ∀ a op b, Takes (step adb) (State.initial adb) ops a op b → op.Alone adb a) :
    Safe adb s := by
  have hinv : Inv adb s :=
    run_takes (Inv.of_idle initial_safe fun _ => rfl)
      (fun a op b ht => step_inv hdoc ht.one (halone a op b ht)) hrun
  exact hinv.safe

end Alone

def twoPorts : List Op := callOps 0 manager 5000 ++ callOps 1 agent 5001

theorem twoPorts_alone (s : State (List Forward)) (op : Op) (s' : State (List Forward))
    (h : Takes (step listAdb) (State.initial listAdb) twoPorts s op s') : op.Alone listAdb s := by
  revert s op s'
  simp only [twoPorts, callOps, List.cons_append, List.nil_append, forall_takes_cons]
  rintro _ ⟨⟩
  refine ⟨fun _ => rfl, ?_⟩
  rintro _ ⟨⟩
  refine ⟨trivial, ?_⟩
  rintro _ ⟨⟩
  refine ⟨rfl, ?_⟩
  rintro _ ⟨⟩
  refine ⟨?_, ?_⟩
  · intro u
    by_cases hu : u = 0 <;>
      simp [State.returned, State.setCall, State.initial, hu]
  rintro _ ⟨⟩
  refine ⟨trivial, ?_⟩
  rintro _ ⟨⟩
  refine ⟨rfl, ?_⟩
  intro s op s' h
  exact absurd h not_takes_nil

theorem alone_safe_twoPorts : ∃ s,
    run (step listAdb) (State.initial listAdb) twoPorts = some s ∧ Safe listAdb s ∧
      s.leases = [⟨⟨phone, manager⟩, 5000⟩, ⟨⟨phone, agent⟩, 5001⟩] := by
  have hrun : run (step listAdb) (State.initial listAdb) twoPorts = some _ := rfl
  exact ⟨_, hrun, alone_safe listAdb_documented hrun twoPorts_alone, rfl⟩

end Albatross.ForwardPorts
