/-
  Albatross/Disconnects.lean
  ==========================
  **Lost connections of the system server clients** (`rpc_client.py`:
  `RpcClient.close`, `on_close`, `add_close_listener` and the end of
  `__subscribe_loop`; `device.py`: `system_server_client`,
  `system_server_subscriber` and their close listeners).

  A device keeps one client of each kind.  When a connection is lost, the monitor
  calls `on_close` of the client it is registered for, and the loop that was
  receiving from it ends with `close()`; both are one step each, in any order.
  What a reconnection and a subscription meet is given with the step
  (`Attempt`), and so is whether the call of `init` returns, which a new
  `system_server_client` makes before it has its listener.

  Connections are numbered as they are opened, and the monitor's table has them by
  that number.  `ended` records who closed a connection.
-/
import Albatross.Runs
import Albatross.Assoc

namespace Albatross.Disconnects

open Runs Assoc

/-! ### Clients and the device -/

inductive Kind where
  | systemServerClient
  | systemServerSubscriber
deriving DecidableEq

/-- `listening`: the listener that the device adds to clients of this kind is in
    `on_close_callbacks`. -/
structure Client where
  kind : Kind
  sock : Option Nat
  listening : Bool
deriving DecidableEq

/-- Who closed a connection: the monitor's notification, or the end of a subscribe loop,
    named by the connection it served. -/
inductive Cause where
  | notification
  | loop (k : Nat)
deriving DecidableEq

/-- How `subscribe()` ends: a loop is started, or the server declines, or it raises. -/
inductive Subscribed where
  | started
  | declined
  | raised

/-- What a connect and the subscription after it meet. -/
structure Attempt where
  connects : Bool
  subscribed : Subscribed

structure Device where
  reconnect : Bool
  autoSubscribeSystemServer : Bool
  systemServerClient : Option Nat
  systemServerSubscriber : Option Nat
  made : Nat
  clients : Nat → Client
  opened : Nat
  registered : Nat → Option Nat
  serving : Nat → Option Nat
  ended : Nat → Option Cause

def Device.new (reconnect autoSubscribeSystemServer : Bool) : Device where
  reconnect := reconnect
  autoSubscribeSystemServer := autoSubscribeSystemServer
  systemServerClient := none
  systemServerSubscriber := none
  made := 0
  clients := fun _ => ⟨.systemServerClient, none, false⟩
  opened := 0
  registered := fun _ => none
  serving := fun _ => none
  ended := fun _ => none

/-! ### Connecting -/

/-- `connect()` of a client that has no socket. -/
def openConnection (c : Nat) (d : Device) : Device := { d with
  clients := Function.update d.clients c { d.clients c with sock := some d.opened }
  registered := Function.update d.registered d.opened (some c)
  opened := d.opened + 1 }

/-- `client.reconnect()`. -/
def reconnect (connects : Bool) (c : Nat) (d : Device) : Bool × Device :=
  match (d.clients c).sock with
  | some _ => (false, d)
  | none => if connects then (true, openConnection c d) else (false, d)

/-- A new client object with its first connection, and the device's listener if it is added. -/
def create (kind : Kind) (listening : Bool) (d : Device) : Device :=
  openConnection d.made { d with
    clients := Function.update d.clients d.made ⟨kind, none, listening⟩
    made := d.made + 1 }

/-- The loop thread that `parse_subscribe` starts, for the connection the client has. -/
def startLoop (c : Nat) (d : Device) : Device :=
  match (d.clients c).sock with
  | some k => { d with serving := Function.update d.serving k (some c) }
  | none => d

/-- `client.subscribe()`; whether it returns. -/
def subscribe (s : Subscribed) (c : Nat) (d : Device) : Bool × Device :=
  match s with
  | .started => (true, startLoop c d)
  | .declined => (true, d)
  | .raised => (false, d)

/-! ### Close listeners -/

/-- `on_system_subscribe_close`. -/
def onSystemSubscribeClose (a : Attempt) (c : Nat) (d : Device) : Device :=
  if d.reconnect then
    match reconnect a.connects c d with
    | (true, d) =>
        match subscribe a.subscribed c d with
        | (true, d) => d
        | (false, d) => { d with systemServerSubscriber := none }
    | (false, d) => { d with systemServerSubscriber := none }
  else { d with systemServerSubscriber := none }

/-- `on_system_client_close`. -/
def onSystemClientClose (a : Attempt) (c : Nat) (d : Device) : Device :=
  if d.reconnect then
    match reconnect a.connects c d with
    | (true, d) => d
    | (false, d) => { d with systemServerClient := none }
  else d

/-- The listener that the device adds to a client. -/
def listener (a : Attempt) (c : Nat) (d : Device) : Device :=
  match (d.clients c).kind with
  | .systemServerClient => onSystemClientClose a c d
  | .systemServerSubscriber => onSystemSubscribeClose a c d

def drop (cause : Cause) (k c : Nat) (d : Device) : Device := { d with
  clients := Function.update d.clients c { d.clients c with sock := none }
  registered := Function.update d.registered k none
  ended := Function.update d.ended k (some cause) }

/-- `callbacks.clear()`. -/
def clearListeners (c : Nat) (d : Device) : Device :=
  { d with clients := Function.update d.clients c { d.clients c with listening := false } }

/-- `client.close()`: the listeners run after the socket is closed, and are then dropped. -/
def close (cause : Cause) (a : Attempt) (c : Nat) (d : Device) : Device :=
  match (d.clients c).sock with
  | none => d
  | some k =>
      let d := drop cause k c d
      if (d.clients c).listening then clearListeners c (listener a c d) else d

/-! ### The cached properties -/

/-- A new subscriber, kept on the device once it has subscribed; whether nothing raises. -/
def newSubscriber (a : Attempt) (d : Device) : Bool × Device :=
  if a.connects then
    match subscribe a.subscribed d.made (create .systemServerSubscriber true d) with
    | (true, d') => (true, { d' with systemServerSubscriber := some d.made })
    | (false, d') => (false, d')
  else (false, d)

/-- `device.system_server_subscriber`. -/
def getSystemServerSubscriber (a : Attempt) (d : Device) : Device :=
  match d.systemServerSubscriber with
  | some _ => d
  | none => (newSubscriber a d).2

/-- `device.system_server_client`, when its agent can be loaded; `a` is what its own
    connection meets and `b` what the subscriber's does, and `inits` says whether `init()`
    returns, which is called before the listener is added. -/
def getSystemServerClient (inits : Bool) (a b : Attempt) (d : Device) : Device :=
  match d.systemServerClient with
  | some _ => d
  | none =>
      if a.connects then
        let c := d.made
        let d := create .systemServerClient inits d
        if inits then
          if d.autoSubscribeSystemServer then
            match newSubscriber b d with
            | (true, d) => { d with systemServerClient := some c }
            | (false, d) => d
          else { d with systemServerClient := some c }
        else d
      else d

/-! ### Steps -/

inductive Op where
  | getSystemServerClient (inits : Bool) (a b : Attempt)
  | getSystemServerSubscriber (a : Attempt)
  | addCloseListener (c : Nat)
  | reconnect (connects : Bool) (c : Nat)
  | notify (k : Nat) (a : Attempt)
  | exit (k : Nat) (a : Attempt)

/-- `notify k` is the monitor's callback for the connection, `exit k` the end of the loop
    that serves it. -/
def step (d : Device) : Op → Option Device
  | .getSystemServerClient inits a b => some (Disconnects.getSystemServerClient inits a b d)
  | .getSystemServerSubscriber a => some (Disconnects.getSystemServerSubscriber a d)
  | .addCloseListener c =>
      if c < d.made then some { d with
        clients := Function.update d.clients c { d.clients c with listening := true } }
      else none
  | .reconnect connects c =>
      if c < d.made then some (Disconnects.reconnect connects c d).2 else none
  | .notify k a =>
      match d.registered k with
      | some c => some (close .notification a c d)
      | none => some d
  | .exit k a =>
      match d.serving k with
      | some c => some (close (.loop k) a c { d with serving := Function.update d.serving k none })
      | none => none

/-! ### What always holds -/

structure Inv (d : Device) : Prop where
  registered_iff : ∀ k c, d.registered k = some c ↔ (d.clients c).sock = some k
  registered_lt : ∀ k c, d.registered k = some c → k < d.opened ∧ c < d.made
  ended_lt : ∀ k, (d.ended k).isSome = true → k < d.opened ∧ d.registered k = none
  loop_lt : ∀ j k, d.ended j = some (.loop k) → k < d.opened ∧ d.registered k = none
  serving_lt : ∀ k c, d.serving k = some c → k < d.opened ∧ c < d.made
  served : ∀ k c, d.serving k = some c → (d.clients c).sock = some k ∨ (d.ended k).isSome = true
  running : ∀ k c j, d.serving k = some c → d.ended j ≠ some (.loop k)
  client_kind : ∀ c, d.systemServerClient = some c →
    c < d.made ∧ (d.clients c).kind = .systemServerClient

theorem inv_new (reconnect auto : Bool) : Inv (Device.new reconnect auto) where
  registered_iff := fun _ _ => iff_of_false (fun h => by cases h) (fun h => by cases h)
  registered_lt := fun _ _ h => by cases h
  ended_lt := fun _ h => by cases h
  loop_lt := fun _ _ h => by cases h
  serving_lt := fun _ _ h => by cases h
  served := fun _ _ h => by cases h
  running := fun _ _ _ h => by cases h
  client_kind := fun _ h => by cases h

section Parts

variable {d d' : Device} {c k : Nat}

theorem Inv.same_socks (hinv : Inv d) {f : Nat → Client}
    (hsock : ∀ c, (f c).sock = (d.clients c).sock)
    (hkind : ∀ c, (f c).kind = (d.clients c).kind) : Inv { d with clients := f } := by
  refine { hinv with registered_iff := ?_, served := ?_, client_kind := ?_ }
  · intro k c
    dsimp only
    rw [hsock]
    exact hinv.registered_iff k c
  · intro k c hserving
    dsimp only
    rw [hsock]
    exact hinv.served k c hserving
  · intro c hc
    dsimp only
    rw [hkind]
    exact hinv.client_kind c hc

theorem Inv.update_sock_kind (hinv : Inv d) (c : Nat) (sock : Option Nat) {c' : Nat}
    (h : d.systemServerClient = some c') :
    c' < d.made ∧ (Function.update d.clients c { d.clients c with sock := sock } c').kind =
      .systemServerClient := by
  obtain ⟨hlt, hkind⟩ := hinv.client_kind c' h
  refine ⟨hlt, ?_⟩
  by_cases hcc : c' = c
  · rw [hcc, Function.update_self]
    exact hcc ▸ hkind
  · rw [Function.update_of_ne hcc]
    exact hkind

theorem openConnection_inv (hinv : Inv d) (hc : c < d.made) (hnone : (d.clients c).sock = none) :
    Inv (openConnection c d) := by
  have hfresh : d.registered d.opened = none := by
    cases h : d.registered d.opened with
    | none => rfl
    | some c' => exact absurd (hinv.registered_lt _ _ h).1 (Nat.lt_irrefl _)
  unfold openConnection
  constructor
  case registered_iff =>
    intro k c'
    dsimp only
    by_cases hk : k = d.opened <;> by_cases hcc : c' = c
    · rw [hk, hcc, Function.update_self, Function.update_self]
      exact iff_of_true rfl rfl
    · rw [hk, Function.update_self, Function.update_of_ne hcc, ← hinv.registered_iff, hfresh]
      refine iff_of_false (fun h => hcc (Option.some.inj h).symm) (fun h => by cases h)
    · rw [hcc, Function.update_of_ne hk, Function.update_self, hinv.registered_iff, hnone]
      refine iff_of_false (fun h => by cases h) (fun h => hk (Option.some.inj h).symm)
    · rw [Function.update_of_ne hk, Function.update_of_ne hcc]
      exact hinv.registered_iff k c'
  case registered_lt =>
    intro k c' h
    rcases update_some_eq_some.mp h with ⟨rfl, rfl⟩ | ⟨_, h⟩
    · exact ⟨Nat.lt_succ_self _, hc⟩
    · exact ⟨Nat.lt_succ_of_lt (hinv.registered_lt k c' h).1, (hinv.registered_lt k c' h).2⟩
  case ended_lt =>
    intro k h
    obtain ⟨hlt, hnot⟩ := hinv.ended_lt k h
    refine ⟨Nat.lt_succ_of_lt hlt, ?_⟩
    dsimp only
    rw [Function.update_of_ne (Nat.ne_of_lt hlt)]
    exact hnot
  case loop_lt =>
    intro j k h
    obtain ⟨hlt, hnot⟩ := hinv.loop_lt j k h
    refine ⟨Nat.lt_succ_of_lt hlt, ?_⟩
    dsimp only
    rw [Function.update_of_ne (Nat.ne_of_lt hlt)]
    exact hnot
  case serving_lt => exact fun k c' h =>
    ⟨Nat.lt_succ_of_lt (hinv.serving_lt k c' h).1, (hinv.serving_lt k c' h).2⟩
  case served =>
    intro k c' h
    dsimp only
    by_cases hcc : c' = c
    · rcases hinv.served k c' h with hsock | hended
      · rw [hcc, hnone] at hsock
        cases hsock
      · exact Or.inr hended
    · rw [Function.update_of_ne hcc]
      exact hinv.served k c' h
  case running => exact hinv.running
  case client_kind => exact fun c' h => hinv.update_sock_kind c _ h

theorem create_inv (hinv : Inv d) (kind : Kind) (listening : Bool) :
    Inv (create kind listening d) := by
  have hunused : (d.clients d.made).sock = none := by
    cases h : (d.clients d.made).sock with
    | none => rfl
    | some k =>
      exact absurd (hinv.registered_lt k _ ((hinv.registered_iff k _).mpr h)).2 (Nat.lt_irrefl _)
  have hnew : Inv { d with
      clients := Function.update d.clients d.made ⟨kind, none, listening⟩
      made := d.made + 1 } := by
    constructor
    case registered_iff =>
      intro k c
      dsimp only
      rw [hinv.registered_iff]
      by_cases hc : c = d.made
      · rw [hc, Function.update_self, hunused]
      · rw [Function.update_of_ne hc]
    case registered_lt =>
      exact fun k c h =>
        ⟨(hinv.registered_lt k c h).1, Nat.lt_succ_of_lt (hinv.registered_lt k c h).2⟩
    case ended_lt => exact hinv.ended_lt
    case loop_lt => exact hinv.loop_lt
    case serving_lt =>
      exact fun k c h => ⟨(hinv.serving_lt k c h).1, Nat.lt_succ_of_lt (hinv.serving_lt k c h).2⟩
    case served =>
      intro k c h
      have hc : c ≠ d.made := Nat.ne_of_lt (hinv.serving_lt k c h).2
      dsimp only
      rw [Function.update_of_ne hc]
      exact hinv.served k c h
    case running => exact hinv.running
    case client_kind =>
      intro c h
      obtain ⟨hlt, hkind⟩ := hinv.client_kind c h
      refine ⟨Nat.lt_succ_of_lt hlt, ?_⟩
      dsimp only
      rw [Function.update_of_ne (Nat.ne_of_lt hlt)]
      exact hkind
  apply openConnection_inv hnew
  · exact Nat.lt_succ_self _
  · dsimp only
    rw [Function.update_self]

theorem reconnect_inv (hinv : Inv d) (connects : Bool) (hc : c < d.made) :
    Inv (reconnect connects c d).2 := by
  unfold reconnect
  split
  · exact hinv
  · next hnone =>
    split
    · exact openConnection_inv hinv hc hnone
    · exact hinv

theorem startLoop_inv (hinv : Inv d) (c : Nat) : Inv (startLoop c d) := by
  unfold startLoop
  split
  · next k hsock =>
    have hreg := (hinv.registered_iff k c).mpr hsock
    refine { hinv with serving_lt := ?_, served := ?_, running := ?_ }
    · intro k' c' h
      rcases update_some_eq_some.mp h with ⟨rfl, rfl⟩ | ⟨_, hold⟩
      · exact hinv.registered_lt k' c' hreg
      · exact hinv.serving_lt k' c' hold
    · intro k' c' h
      rcases update_some_eq_some.mp h with ⟨rfl, rfl⟩ | ⟨_, hold⟩
      · exact Or.inl hsock
      · exact hinv.served k' c' hold
    · intro k' c' j h hended
      rcases update_some_eq_some.mp h with ⟨rfl, rfl⟩ | ⟨_, hold⟩
      · have hgone := (hinv.loop_lt j k' hended).2
        rw [hreg] at hgone
        cases hgone
      · exact hinv.running k' c' j hold hended
  · exact hinv

theorem subscribe_inv (hinv : Inv d) (s : Subscribed) (c : Nat) : Inv (subscribe s c d).2 := by
  cases s with
  | started => exact startLoop_inv hinv c
  | declined => exact hinv
  | raised => exact hinv

theorem Inv.no_client (hinv : Inv d) : Inv { d with systemServerClient := none } :=
  { hinv with client_kind := fun _ h => by cases h }

theorem Inv.subscriber (hinv : Inv d) (o : Option Nat) :
    Inv { d with systemServerSubscriber := o } :=
  { hinv with }

/-- A socket is dropped, by a loop that no longer runs or by the monitor. -/
theorem drop_inv {cause : Cause} (hinv : Inv d) (hsock : (d.clients c).sock = some k)
    (hcause : ∀ k', cause = .loop k' →
      d.serving k' = none ∧ k' < d.opened ∧ (k' = k ∨ d.registered k' = none)) :
    Inv (drop cause k c d) := by
  have hreg := (hinv.registered_iff k c).mpr hsock
  have hgone : ∀ {k' : Nat}, k' = k ∨ d.registered k' = none →
      Function.update d.registered k none k' = none := by
    intro k' h
    by_cases hk : k' = k
    · rw [hk, Function.update_self]
    · rw [Function.update_of_ne hk]
      exact h.resolve_left hk
  unfold drop
  constructor
  case registered_iff =>
    intro k' c'
    dsimp only
    by_cases hcc : c' = c
    · rw [hcc, Function.update_self]
      refine iff_of_false (fun h => ?_) (fun h => by cases h)
      obtain ⟨hk, h⟩ := update_none_eq_some.mp h
      rw [hinv.registered_iff, hsock] at h
      exact hk (Option.some.inj h).symm
    · rw [Function.update_of_ne hcc, ← hinv.registered_iff]
      by_cases hk : k' = k
      · rw [hk, Function.update_self, hreg]
        exact iff_of_false (fun h => by cases h) (fun h => hcc (Option.some.inj h).symm)
      · rw [Function.update_of_ne hk]
  case registered_lt =>
    exact fun k' c' h => hinv.registered_lt k' c' (update_none_eq_some.mp h).2
  case ended_lt =>
    intro k' h
    dsimp only at h ⊢
    by_cases hk : k' = k
    · rw [hk]
      exact ⟨(hinv.registered_lt k c hreg).1, Function.update_self _ _ _⟩
    · rw [Function.update_of_ne hk] at h
      exact ⟨(hinv.ended_lt k' h).1, hgone (Or.inr (hinv.ended_lt k' h).2)⟩
  case loop_lt =>
    intro j k' h
    rcases update_some_eq_some.mp h with ⟨_, hj⟩ | ⟨_, h⟩
    · obtain ⟨_, hlt, hno⟩ := hcause k' hj.symm
      exact ⟨hlt, hgone hno⟩
    · exact ⟨(hinv.loop_lt j k' h).1, hgone (Or.inr (hinv.loop_lt j k' h).2)⟩
  case serving_lt => exact hinv.serving_lt
  case served =>
    intro k' c' h
    dsimp only
    by_cases hk : k' = k
    · right
      rw [hk, Function.update_self]
      rfl
    · rw [Function.update_of_ne hk]
      rcases hinv.served k' c' h with hold | hended
      · by_cases hcc : c' = c
        · rw [hcc, hsock] at hold
          exact absurd (Option.some.inj hold).symm hk
        · rw [Function.update_of_ne hcc]
          exact Or.inl hold
      · exact Or.inr hended
  case running =>
    intro k' c' j h hended
    rcases update_some_eq_some.mp hended with ⟨_, hj⟩ | ⟨_, hended⟩
    · obtain ⟨hstopped, -⟩ := hcause k' hj.symm
      rw [show d.serving k' = some c' from h] at hstopped
      cases hstopped
    · exact hinv.running k' c' j h hended
  case client_kind => exact fun c' h => hinv.update_sock_kind c _ h

theorem onSystemClientClose_inv (hinv : Inv d) (a : Attempt) (hc : c < d.made) :
    Inv (onSystemClientClose a c d) := by
  have hrec := reconnect_inv hinv a.connects hc
  unfold onSystemClientClose
  split
  · split
    · next d' heq => rw [heq] at hrec; exact hrec
    · next d' heq => rw [heq] at hrec; exact hrec.no_client
  · exact hinv

theorem onSystemSubscribeClose_inv (hinv : Inv d) (a : Attempt) (hc : c < d.made) :
    Inv (onSystemSubscribeClose a c d) := by
  have hrec := reconnect_inv hinv a.connects hc
  unfold onSystemSubscribeClose
  split
  · split
    · next d' heq =>
      rw [heq] at hrec
      have hsub := subscribe_inv hrec a.subscribed c
      split
      · next d'' heq' => rw [heq'] at hsub; exact hsub
      · next d'' heq' => rw [heq'] at hsub; exact hsub.subscriber none
    · next d' heq => rw [heq] at hrec; exact hrec.subscriber none
  · exact hinv.subscriber none

theorem listener_inv (hinv : Inv d) (a : Attempt) (hc : c < d.made) : Inv (listener a c d) := by
  unfold listener
  split
  · exact onSystemClientClose_inv hinv a hc
  · exact onSystemSubscribeClose_inv hinv a hc

theorem Inv.listening (hinv : Inv d) (c : Nat) (b : Bool) :
    Inv { d with clients := Function.update d.clients c { d.clients c with listening := b } } := by
  apply hinv.same_socks
  · intro c'
    by_cases hcc : c' = c
    · rw [hcc, Function.update_self]
    · rw [Function.update_of_ne hcc]
  · intro c'
    by_cases hcc : c' = c
    · rw [hcc, Function.update_self]
    · rw [Function.update_of_ne hcc]

theorem close_inv {cause : Cause} (hinv : Inv d) (a : Attempt) (hc : c < d.made)
    (hcause : ∀ k', cause = .loop k' → d.serving k' = none ∧ k' < d.opened ∧
      ((d.clients c).sock = some k' ∨ d.registered k' = none)) : Inv (close cause a c d) := by
  unfold close
  split
  · exact hinv
  · next k hsock =>
    have hdrop : Inv (drop cause k c d) := by
      apply drop_inv hinv hsock
      intro k' hk'
      obtain ⟨hstopped, hlt, hno⟩ := hcause k' hk'
      refine ⟨hstopped, hlt, hno.imp_left fun h => ?_⟩
      rw [hsock] at h
      exact (Option.some.inj h).symm
    dsimp only
    split
    · exact (listener_inv hdrop a hc).listening c false
    · exact hdrop

/-! #### The cached properties -/

theorem create_kind (kind : Kind) (listening : Bool) (d : Device) :
    ((create kind listening d).clients d.made).kind = kind := by
  unfold create openConnection
  simp

theorem create_kind_of_lt (kind : Kind) (listening : Bool) (hc : c < d.made) :
    ((create kind listening d).clients c).kind = (d.clients c).kind := by
  have hne : c ≠ d.made := Nat.ne_of_lt hc
  unfold create openConnection
  simp [Function.update_of_ne hne]

theorem subscribe_keeps (s : Subscribed) (c : Nat) (d : Device) :
    (subscribe s c d).2.made = d.made ∧ (subscribe s c d).2.clients = d.clients := by
  cases s with
  | started =>
    show (startLoop c d).made = d.made ∧ (startLoop c d).clients = d.clients
    unfold startLoop
    split <;> exact ⟨rfl, rfl⟩
  | declined => exact ⟨rfl, rfl⟩
  | raised => exact ⟨rfl, rfl⟩

theorem newSubscriber_inv (hinv : Inv d) (a : Attempt) : Inv (newSubscriber a d).2 := by
  have hsub := subscribe_inv (create_inv hinv .systemServerSubscriber true) a.subscribed d.made
  unfold newSubscriber
  split
  · split
    · next d' heq => rw [heq] at hsub; exact hsub.subscriber (some d.made)
    · next d' heq => rw [heq] at hsub; exact hsub
  · exact hinv

theorem newSubscriber_keeps (a : Attempt) (hc : c < d.made) :
    c < (newSubscriber a d).2.made ∧
      ((newSubscriber a d).2.clients c).kind = (d.clients c).kind := by
  obtain ⟨hmade, hclients⟩ := subscribe_keeps a.subscribed d.made (create .systemServerSubscriber true d)
  have hkind := create_kind_of_lt .systemServerSubscriber true hc
  have hlt : c < (create .systemServerSubscriber true d).made := Nat.lt_succ_of_lt hc
  unfold newSubscriber
  split
  · split
    · next d' heq =>
      rw [heq] at hmade hclients
      exact ⟨hmade ▸ hlt, hclients ▸ hkind⟩
    · next d' heq =>
      rw [heq] at hmade hclients
      exact ⟨hmade ▸ hlt, hclients ▸ hkind⟩
  · exact ⟨hc, rfl⟩

theorem Inv.cache (hinv : Inv d) (hc : c < d.made)
    (hkind : (d.clients c).kind = .systemServerClient) :
    Inv { d with systemServerClient := some c } := by
  refine { hinv with client_kind := ?_ }
  intro c' h
  cases h
  exact ⟨hc, hkind⟩

theorem getSystemServerClient_inv (hinv : Inv d) (inits : Bool) (a b : Attempt) :
    Inv (getSystemServerClient inits a b d) := by
  have hnew := create_inv hinv .systemServerClient inits
  have hlt : d.made < (create .systemServerClient inits d).made := Nat.lt_succ_self _
  have hkind := create_kind .systemServerClient inits d
  have hsub := newSubscriber_inv hnew b
  obtain ⟨hlt', hkind'⟩ := newSubscriber_keeps b hlt
  unfold getSystemServerClient
  split
  · exact hinv
  · split
    · dsimp only
      split
      · split
        · split
          · next d' heq =>
            rw [heq] at hsub hlt' hkind'
            exact hsub.cache hlt' (hkind'.trans hkind)
          · next d' heq =>
            rw [heq] at hsub
            exact hsub
        · exact hnew.cache hlt hkind
      · exact hnew
    · exact hinv

theorem getSystemServerSubscriber_inv (hinv : Inv d) (a : Attempt) :
    Inv (getSystemServerSubscriber a d) := by
  unfold getSystemServerSubscriber
  split
  · exact hinv
  · exact newSubscriber_inv hinv a

/-! #### All steps -/

theorem Inv.stopped (hinv : Inv d) (k : Nat) :
    Inv { d with serving := Function.update d.serving k none } := by
  have hold : ∀ {k' c : Nat}, Function.update d.serving k none k' = some c →
      d.serving k' = some c :=
    fun h => (update_none_eq_some.mp h).2
  exact { hinv with
    serving_lt := fun k' c h => hinv.serving_lt k' c (hold h)
    served := fun k' c h => hinv.served k' c (hold h)
    running := fun k' c j h => hinv.running k' c j (hold h) }

inductive Stepped (d : Device) : Op → Device → Prop where
  | client (inits : Bool) (a b : Attempt) :
      Stepped d (.getSystemServerClient inits a b) (getSystemServerClient inits a b d)
  | subscriber (a : Attempt) :
      Stepped d (.getSystemServerSubscriber a) (getSystemServerSubscriber a d)
  | addCloseListener {c : Nat} : c < d.made → Stepped d (.addCloseListener c)
      { d with clients := Function.update d.clients c { d.clients c with listening := true } }
  | reconnect (connects : Bool) {c : Nat} : c < d.made →
      Stepped d (.reconnect connects c) (reconnect connects c d).2
  | notify (a : Attempt) {k c : Nat} : d.registered k = some c →
      Stepped d (.notify k a) (close .notification a c d)
  | unheard (a : Attempt) {k : Nat} : d.registered k = none → Stepped d (.notify k a) d
  | exit (a : Attempt) {k c : Nat} : d.serving k = some c → Stepped d (.exit k a)
      (close (.loop k) a c { d with serving := Function.update d.serving k none })

theorem step_cases {op : Op} (h : step d op = some d') : Stepped d op d' := by
  cases op with
  | getSystemServerClient inits a b => cases h; exact .client inits a b
  | getSystemServerSubscriber a => cases h; exact .subscriber a
  | addCloseListener c =>
    simp only [step] at h
    split at h
    · next hc => cases h; exact .addCloseListener hc
    · cases h
  | reconnect connects c =>
    simp only [step] at h
    split at h
    · next hc => cases h; exact .reconnect connects hc
    · cases h
  | notify k a =>
    simp only [step] at h
    split at h
    · next c hreg => cases h; exact .notify a hreg
    · next hreg => cases h; exact .unheard a hreg
  | exit k a =>
    simp only [step] at h
    split at h
    · next c hserving => cases h; exact .exit a hserving
    · cases h

theorem step_inv {op : Op} (hinv : Inv d) (h : step d op = some d') : Inv d' := by
  cases step_cases h with
  | client inits a b => exact getSystemServerClient_inv hinv inits a b
  | subscriber a => exact getSystemServerSubscriber_inv hinv a
  | addCloseListener _ => exact hinv.listening _ true
  | reconnect connects hc => exact reconnect_inv hinv connects hc
  | notify a hreg =>
    exact close_inv hinv a (hinv.registered_lt _ _ hreg).2 fun _ hk' => by cases hk'
  | unheard a _ => exact hinv
  | @exit a k c hserving =>
    obtain ⟨hlt, hc⟩ := hinv.serving_lt k c hserving
    apply close_inv (hinv.stopped k) a hc
    intro k' hk'
    cases hk'
    refine ⟨Function.update_self _ _ _, hlt, ?_⟩
    rcases hinv.served k c hserving with hsock | hended
    · exact Or.inl hsock
    · exact Or.inr (hinv.ended_lt k hended).2

/-! ### What stays as it is -/

theorem reconnect_keeps (connects : Bool) (c : Nat) (d : Device) :
    (reconnect connects c d).2.reconnect = d.reconnect ∧
      (reconnect connects c d).2.ended = d.ended := by
  unfold reconnect
  split
  · exact ⟨rfl, rfl⟩
  · split <;> exact ⟨rfl, rfl⟩

theorem subscribe_ended (s : Subscribed) (c : Nat) (d : Device) :
    (subscribe s c d).2.reconnect = d.reconnect ∧ (subscribe s c d).2.ended = d.ended := by
  cases s with
  | started =>
    show (startLoop c d).reconnect = d.reconnect ∧ (startLoop c d).ended = d.ended
    unfold startLoop
    split <;> exact ⟨rfl, rfl⟩
  | declined => exact ⟨rfl, rfl⟩
  | raised => exact ⟨rfl, rfl⟩

theorem listener_keeps (a : Attempt) (c : Nat) (d : Device) :
    (listener a c d).reconnect = d.reconnect ∧ (listener a c d).ended = d.ended := by
  have hrec := reconnect_keeps a.connects c d
  unfold listener
  split
  · unfold onSystemClientClose
    split
    · split
      · next d' heq => rw [heq] at hrec; exact hrec
      · next d' heq => rw [heq] at hrec; exact hrec
    · exact ⟨rfl, rfl⟩
  · unfold onSystemSubscribeClose
    split
    · split
      · next d' heq =>
        rw [heq] at hrec
        have hsub := subscribe_ended a.subscribed c d'
        split
        · next d'' heq' =>
          rw [heq'] at hsub
          exact ⟨hsub.1.trans hrec.1, hsub.2.trans hrec.2⟩
        · next d'' heq' =>
          rw [heq'] at hsub
          exact ⟨hsub.1.trans hrec.1, hsub.2.trans hrec.2⟩
      · next d' heq => rw [heq] at hrec; exact hrec
    · exact ⟨rfl, rfl⟩

theorem close_reconnect (cause : Cause) (a : Attempt) (c : Nat) (d : Device) :
    (close cause a c d).reconnect = d.reconnect := by
  unfold close
  split
  · rfl
  · next k _ =>
    dsimp only
    split
    · exact (listener_keeps a c (drop cause k c d)).1
    · rfl

theorem close_ended (cause : Cause) (a : Attempt) (hsock : (d.clients c).sock = some k) :
    (close cause a c d).ended = Function.update d.ended k (some cause) := by
  unfold close
  rw [hsock]
  dsimp only
  split
  · exact (listener_keeps a c (drop cause k c d)).2
  · rfl

theorem newSubscriber_ended (a : Attempt) (d : Device) :
    (newSubscriber a d).2.reconnect = d.reconnect ∧ (newSubscriber a d).2.ended = d.ended := by
  have hsub := subscribe_ended a.subscribed d.made (create .systemServerSubscriber true d)
  unfold newSubscriber
  split
  · split
    · next d' heq => rw [heq] at hsub; exact hsub
    · next d' heq => rw [heq] at hsub; exact hsub
  · exact ⟨rfl, rfl⟩

theorem getSystemServerClient_keeps (inits : Bool) (a b : Attempt) (d : Device) :
    (getSystemServerClient inits a b d).reconnect = d.reconnect ∧
      (getSystemServerClient inits a b d).ended = d.ended := by
  have hsub := newSubscriber_ended b (create .systemServerClient inits d)
  unfold getSystemServerClient
  split
  · exact ⟨rfl, rfl⟩
  · split
    · dsimp only
      split
      · split
        · split
          · next d' heq => rw [heq] at hsub; exact hsub
          · next d' heq => rw [heq] at hsub; exact hsub
        · exact ⟨rfl, rfl⟩
      · exact ⟨rfl, rfl⟩
    · exact ⟨rfl, rfl⟩

theorem getSystemServerSubscriber_keeps (a : Attempt) (d : Device) :
    (getSystemServerSubscriber a d).reconnect = d.reconnect ∧
      (getSystemServerSubscriber a d).ended = d.ended := by
  unfold getSystemServerSubscriber
  split
  · exact ⟨rfl, rfl⟩
  · exact newSubscriber_ended a d

theorem step_reconnect {op : Op} (h : step d op = some d') : d'.reconnect = d.reconnect := by
  cases step_cases h with
  | client inits a b => exact (getSystemServerClient_keeps inits a b d).1
  | subscriber a => exact (getSystemServerSubscriber_keeps a d).1
  | addCloseListener _ => rfl
  | reconnect connects _ => exact (reconnect_keeps connects _ d).1
  | notify a _ => exact close_reconnect _ a _ d
  | unheard a _ => rfl
  | exit a _ => exact close_reconnect _ a _ _

end Parts

/-! ### Dead clients -/

/-- The client is connected, or no longer the cached one. -/
def Usable (c : Nat) (d : Device) : Prop :=
  (d.clients c).sock.isSome = true ∨ d.systemServerClient ≠ some c

section Usable

variable {d d' : Device} {c k : Nat}

theorem onSystemClientClose_usable (a : Attempt) (hrec : d.reconnect = true)
    (hdown : (d.clients c).sock = none) : Usable c (onSystemClientClose a c d) := by
  unfold onSystemClientClose reconnect
  rw [if_pos hrec, hdown]
  dsimp only
  cases a.connects with
  | true =>
    left
    simp [openConnection]
  | false =>
    right
    intro h
    cases h

/-- Without its listener a client that is closed stays where it is. -/
theorem close_usable_iff {cause : Cause} (a : Attempt) (hrec : d.reconnect = true)
    (hkind : (d.clients c).kind = .systemServerClient) (hsock : (d.clients c).sock = some k)
    (hcached : d.systemServerClient = some c) :
    Usable c (close cause a c d) ↔ (d.clients c).listening = true := by
  have hdown : ((drop cause k c d).clients c).sock = none := by
    simp [drop]
  have hlistening : ((drop cause k c d).clients c).listening = (d.clients c).listening := by
    simp [drop]
  have hkind' : ((drop cause k c d).clients c).kind = .systemServerClient := by
    simp [drop, hkind]
  unfold close
  rw [hsock]
  dsimp only
  rw [hlistening]
  by_cases hl : (d.clients c).listening = true
  · rw [if_pos hl, listener, hkind']
    refine iff_of_true ?_ hl
    have husable := onSystemClientClose_usable a (d := drop cause k c d) hrec hdown
    exact husable.imp_left fun h => by simpa [clearListeners] using h
  · rw [if_neg hl]
    refine iff_of_false ?_ hl
    rintro (hup | hgone)
    · rw [hdown] at hup
      cases hup
    · exact hgone hcached

end Usable

/-- **A disconnected client stays usable exactly while its close listener is still there.** -/
theorem usable_after_disconnect_iff {auto : Bool} {ops : List Op} {d d' : Device} {k c : Nat}
    {a : Attempt} (ht : Takes step (Device.new true auto) ops d (.notify k a) d')
    (hreg : d.registered k = some c) (hcached : d.systemServerClient = some c) :
    Usable c d' ↔ (d.clients c).listening = true := by
  have hinv : Inv d := ht.before (inv_new true auto) fun _ _ _ hab ha => step_inv ha hab.one
  have hrec : d.reconnect = true := ht.before (I := fun d => d.reconnect = true) rfl
    fun _ _ _ hab ha => (step_reconnect hab.one).trans ha
  have hstep := ht.one
  simp only [step, hreg] at hstep
  cases hstep
  exact close_usable_iff a hrec (hinv.client_kind c hcached).2
    ((hinv.registered_iff k c).mp hreg) hcached

/-- A connection attempt that succeeds, and a subscription that does. -/
def up : Attempt := ⟨true, .started⟩

theorem usable_after_disconnect_iff_first :
    ∃ d d', Takes step (Device.new true false) [.getSystemServerClient true up up, .notify 0 up] d
        (.notify 0 up) d' ∧ (Usable 0 d' ↔ (d.clients 0).listening = true) :=
  have ht : Takes step (Device.new true false) [.getSystemServerClient true up up, .notify 0 up] _
      (.notify 0 up) _ := ⟨[.getSystemServerClient true up up], [], rfl, rfl, rfl⟩
  ⟨_, _, ht, usable_after_disconnect_iff ht rfl rfl⟩

/-- The second disconnection leaves a dead client in the cache. -/
theorem second_disconnect_dead :
    ∃ d, run step (Device.new true false)
        [.getSystemServerClient true up up, .notify 0 up, .notify 1 up] = some d ∧
      d.systemServerClient = some 0 ∧ (d.clients 0).sock = none :=
  ⟨_, rfl, rfl, rfl⟩

/-! ### Loops that end -/

/-- No loop has closed another connection than the one it served. -/
def LoopsCloseOwn (d : Device) : Prop := ∀ j k, d.ended j = some (.loop k) → j = k

/-- A loop whose connection the monitor has already closed ends while the client has none. -/
def EndsFirst (d : Device) : Op → Prop
  | .exit k _ =>
      ∀ c, d.serving k = some c → d.ended k = some .notification → (d.clients c).sock = none
  | _ => True

section Loops

variable {d d' : Device} {c k : Nat}

theorem loopsCloseOwn_congr (h : d'.ended = d.ended) : LoopsCloseOwn d' ↔ LoopsCloseOwn d := by
  rw [LoopsCloseOwn, h]
  rfl

theorem loopsCloseOwn_close {cause : Cause} (a : Attempt) (hsock : (d.clients c).sock = some k)
    (hown : LoopsCloseOwn d) :
    LoopsCloseOwn (close cause a c d) ↔ ∀ k', cause = .loop k' → k = k' := by
  rw [LoopsCloseOwn, close_ended cause a hsock]
  constructor
  · intro h k' hcause
    apply h k k'
    rw [Function.update_self, hcause]
  · intro h j k' hended
    rcases update_some_eq_some.mp hended with ⟨hj, hcause⟩ | ⟨_, hended⟩
    · exact hj.trans (h k' hcause.symm)
    · exact hown j k' hended

theorem exit_closes_own_iff (hinv : Inv d) (a : Attempt) (hserving : d.serving k = some c)
    (hown : LoopsCloseOwn d) :
    LoopsCloseOwn (close (.loop k) a c { d with serving := Function.update d.serving k none }) ↔
      EndsFirst d (.exit k a) := by
  have hwhose : EndsFirst d (.exit k a) ↔
      (d.ended k = some .notification → (d.clients c).sock = none) := by
    constructor
    · intro h
      exact h c hserving
    · intro h c' hc'
      rw [hserving] at hc'
      cases hc'
      exact h
  rw [hwhose]
  cases hsock : (d.clients c).sock with
  | none =>
    have hsame :
        (close (.loop k) a c { d with serving := Function.update d.serving k none }).ended =
        d.ended := by
      unfold close
      dsimp only
      rw [hsock]
    rw [loopsCloseOwn_congr hsame]
    exact iff_of_true hown fun _ => rfl
  | some j =>
    have hcurrent := (hinv.registered_iff j c).mpr hsock
    rw [loopsCloseOwn_close a
      (d := { d with serving := Function.update d.serving k none }) hsock hown]
    constructor
    · intro h hended
      have hjk : j = k := h k rfl
      have hgone := (hinv.ended_lt k (by rw [hended]; rfl)).2
      rw [← hjk, hcurrent] at hgone
      cases hgone
    · intro h k' hk'
      cases hk'
      rcases hinv.served k c hserving with hstill | hended
      · rw [hsock] at hstill
        exact Option.some.inj hstill
      · obtain ⟨cause, hcause⟩ := Option.isSome_iff_exists.mp hended
        cases cause with
        | notification => cases h hcause
        | loop k' =>
          have hself : k = k' := hown k k' hcause
          exact absurd (hself ▸ hcause) (hinv.running k c k hserving)

theorem step_closes_own_iff {op : Op} (hinv : Inv d) (hown : LoopsCloseOwn d)
    (h : step d op = some d') : LoopsCloseOwn d' ↔ EndsFirst d op := by
  have hsame : d'.ended = d.ended → EndsFirst d op → (LoopsCloseOwn d' ↔ EndsFirst d op) := by
    intro hended hfirst
    rw [loopsCloseOwn_congr hended]
    exact iff_of_true hown hfirst
  cases step_cases h with
  | client inits a b => exact hsame (getSystemServerClient_keeps inits a b d).2 trivial
  | subscriber a => exact hsame (getSystemServerSubscriber_keeps a d).2 trivial
  | addCloseListener _ => exact hsame rfl trivial
  | reconnect connects _ => exact hsame (reconnect_keeps connects _ d).2 trivial
  | notify a hreg =>
    rw [loopsCloseOwn_close a ((hinv.registered_iff _ _).mp hreg) hown]
    exact iff_of_true (fun _ hk' => by cases hk') trivial
  | unheard a _ => exact hsame rfl trivial
  | exit a hserving => exact exit_closes_own_iff hinv a hserving hown

end Loops

/-- **A lost connection closes only itself exactly in the runs where each loop ends before the
    monitor has closed its connection, or while the client has none.** -/
theorem loops_close_own_iff (reconnect auto : Bool) (ops : List Op) :
    (∀ d op d', Takes step (Device.new reconnect auto) ops d op d' → LoopsCloseOwn d') ↔
      ∀ d op d', Takes step (Device.new reconnect auto) ops d op d' → EndsFirst d op := by
  apply forall_takes_iff
  · intro j k h
    cases h
  · intro d op d' ht hown
    have hinv : Inv d := ht.before (inv_new reconnect auto) fun _ _ _ hab ha => step_inv ha hab.one
    exact step_closes_own_iff hinv hown ht.one

/-- The monitor is first, the listener reconnects, and the old loop then closes the new
    connection. -/
theorem loop_closes_new_connection :
    ∃ d, run step (Device.new true false)
        [.getSystemServerSubscriber up, .notify 0 up, .exit 0 up] = some d ∧
      d.ended 1 = some (.loop 0) ∧ (d.clients 0).sock = none :=
  ⟨_, rfl, rfl, rfl⟩

end Albatross.Disconnects
