/-
  Albatross/Monitor.lean
  ======================
  **The socket monitor** (`rpc_client.py`: `SocketMonitor.register_socket`,
  `unregister_socket` and the epoll branch of `run`, with what `RpcClient.connect`,
  `close` and `on_close` do to it).

  Any number of clients connect and close, from any thread and from the close
  listeners that a callback runs.  The operating system gives a new socket some
  descriptor number that no open socket has, so a number that has just been given up
  may come back at once.  The monitor polls, and then handles the events one after
  the other: `handle` looks up the callback and runs `on_close` up to its listeners,
  `finish` is the `unregister_socket` after the callback, and whatever the listeners
  and the other threads do stands between the two.

  The descriptors epoll watches are the keys of `callbacks`: both are changed
  together, and a socket is unregistered before it is closed.  A socket counts as
  closed when `close` has closed it.
-/
import Albatross.Runs
import Albatross.Assoc

namespace Albatross.Monitor

open Runs Assoc

/-! ### Sockets, clients and the table -/

/-- What is filed under a descriptor: the socket, and the client whose `on_close` is the
    callback. -/
structure Entry where
  sock : Nat
  client : Nat
deriving DecidableEq

/-- Sockets are numbered in the order they are opened; `polled` is how many there were at
    the last poll. -/
structure State where
  wakeFileno : Nat
  opened : Nat
  fileno : Nat → Nat
  isOpen : Nat → Bool
  reported : Nat → Bool
  sock : Nat → Option Nat
  callbacks : Nat → Option Entry
  events : List Nat
  handling : Option Nat
  polled : Nat

def State.start (wakeFileno : Nat) : State where
  wakeFileno := wakeFileno
  opened := 0
  fileno := fun _ => 0
  isOpen := fun _ => false
  reported := fun _ => false
  sock := fun _ => none
  callbacks := fun _ => none
  events := []
  handling := none
  polled := 0

def registerSocket (k client : Nat) (s : State) : State :=
  let fileno := s.fileno k
  if fileno = s.wakeFileno then s
  else { s with callbacks := Function.update s.callbacks fileno (some ⟨k, client⟩) }

def unregisterSocket (fileno : Nat) (s : State) : State :=
  if fileno = s.wakeFileno then s
  else { s with callbacks := Function.update s.callbacks fileno none }

def State.Free (s : State) (fileno : Nat) : Prop :=
  fileno ≠ s.wakeFileno ∧ ∀ k < s.opened, s.isOpen k = true → s.fileno k ≠ fileno

instance (s : State) (fileno : Nat) : Decidable (s.Free fileno) :=
  inferInstanceAs (Decidable (_ ∧ _))

/-- `connect()` of a client, when the new socket gets the given number. -/
def connect (c fileno : Nat) (s : State) : State :=
  registerSocket s.opened c { s with
    opened := s.opened + 1
    fileno := Function.update s.fileno s.opened fileno
    isOpen := Function.update s.isOpen s.opened true
    sock := Function.update s.sock c (some s.opened) }

/-- `close()` of a client up to its listeners. -/
def close (c : Nat) (s : State) : State :=
  match s.sock c with
  | none => s
  | some k =>
      let s := unregisterSocket (s.fileno k) { s with sock := Function.update s.sock c none }
      { s with isOpen := Function.update s.isOpen k false }

/-! ### The loop -/

/-- `poll()` returns error or hang-up events for some of the descriptors. -/
def poll (filenos : List Nat) (s : State) : State := { s with
  events := filenos
  polled := s.opened
  reported := fun k => s.reported k || (s.isOpen k && filenos.contains (s.fileno k)) }

/-- The lookup and the callback for the next event. -/
def handle (fileno : Nat) (rest : List Nat) (s : State) : State :=
  let s := { s with handling := some fileno, events := rest }
  match s.callbacks fileno with
  | none => s
  | some e => close e.client s

inductive Op where
  | connect (c fileno : Nat)
  | close (c : Nat)
  | poll (filenos : List Nat)
  | handle
  | finish

def step (s : State) : Op → Option State
  | .connect c fileno => if s.Free fileno then some (Monitor.connect c fileno s) else none
  | .close c => some (Monitor.close c s)
  | .poll filenos =>
      if s.handling = none ∧ s.events = [] ∧ filenos.Nodup ∧
          ∀ fileno ∈ filenos, (s.callbacks fileno).isSome = true then
        some (Monitor.poll filenos s)
      else none
  | .handle =>
      match s.handling, s.events with
      | none, fileno :: rest => some (Monitor.handle fileno rest s)
      | _, _ => none
  | .finish =>
      match s.handling with
      | some fileno => some { unregisterSocket fileno s with handling := none }
      | none => none

/-! ### What always holds -/

structure Inv (s : State) : Prop where
  opened : ∀ k, s.isOpen k = true → k < s.opened
  number : ∀ k k', s.isOpen k = true → s.isOpen k' = true → s.fileno k = s.fileno k' → k = k'
  not_wake : ∀ k, s.isOpen k = true → s.fileno k ≠ s.wakeFileno
  filed : ∀ fileno e, s.callbacks fileno = some e →
    s.isOpen e.sock = true ∧ s.fileno e.sock = fileno
  held : ∀ c k, s.sock c = some k → s.isOpen k = true
  holder : ∀ c c' k, s.sock c = some k → s.sock c' = some k → c = c'
  polled_le : s.polled ≤ s.opened
  reported_lt : ∀ k, s.reported k = true → k < s.polled
  pending : ∀ fileno, fileno ∈ s.events ∨ s.handling = some fileno →
    ∀ k < s.polled, s.isOpen k = true → s.fileno k = fileno → s.reported k = true

theorem inv_start (wakeFileno : Nat) : Inv (State.start wakeFileno) where
  opened := fun _ h => by cases h
  number := fun _ _ h => by cases h
  not_wake := fun _ h => by cases h
  filed := fun _ _ h => by cases h
  held := fun _ _ h => by cases h
  holder := fun _ _ _ h => by cases h
  polled_le := Nat.le_refl 0
  reported_lt := fun _ h => by cases h
  pending := fun _ h => by rcases h with h | h <;> cases h

/-- Every open socket that has reported nothing is in the table, under its number. -/
def Monitored (s : State) : Prop :=
  ∀ k, s.isOpen k = true → s.reported k = false → ∃ c, s.callbacks (s.fileno k) = some ⟨k, c⟩

section Steps

variable {s s' : State} {c fileno : Nat}

/-- With a number the system may give, `connect` files the new socket. -/
theorem connect_callbacks (hfree : s.Free fileno) :
    connect c fileno s = { s with
      opened := s.opened + 1
      fileno := Function.update s.fileno s.opened fileno
      isOpen := Function.update s.isOpen s.opened true
      sock := Function.update s.sock c (some s.opened)
      callbacks := Function.update s.callbacks fileno (some ⟨s.opened, c⟩) } := by
  unfold connect registerSocket
  simp only [Function.update_self]
  rw [if_neg hfree.1]

theorem close_some (hinv : Inv s) {k : Nat} (hk : s.sock c = some k) :
    close c s = { s with
      sock := Function.update s.sock c none
      callbacks := Function.update s.callbacks (s.fileno k) none
      isOpen := Function.update s.isOpen k false } := by
  have hwake := hinv.not_wake k (hinv.held c k hk)
  unfold close unregisterSocket
  rw [hk]
  dsimp only
  rw [if_neg hwake]

theorem State.Free.ne (hfree : s.Free fileno) (hinv : Inv s) {k : Nat} (hk : s.isOpen k = true) :
    s.fileno k ≠ fileno := hfree.2 k (hinv.opened k hk) hk

theorem open_connect {k : Nat} (h : Function.update s.isOpen s.opened true k = true) :
    k = s.opened ∨ (k ≠ s.opened ∧ s.isOpen k = true) := by
  by_cases hk : k = s.opened
  · exact Or.inl hk
  · rw [Function.update_of_ne hk] at h
    exact Or.inr ⟨hk, h⟩

theorem open_close {k k' : Nat} (h : Function.update s.isOpen k false k' = true) :
    k' ≠ k ∧ s.isOpen k' = true := by
  by_cases hk : k' = k
  · rw [hk, Function.update_self] at h
    cases h
  · rw [Function.update_of_ne hk] at h
    exact ⟨hk, h⟩

theorem connect_inv (hinv : Inv s) (hfree : s.Free fileno) : Inv (connect c fileno s) := by
  have hold : ∀ {k : Nat}, s.isOpen k = true →
      Function.update s.fileno s.opened fileno k = s.fileno k :=
    fun hk => Function.update_of_ne (Nat.ne_of_lt (hinv.opened _ hk)) _ _
  have hstill : ∀ {k : Nat}, s.isOpen k = true →
      Function.update s.isOpen s.opened true k = true := by
    intro k hk
    rw [Function.update_of_ne (Nat.ne_of_lt (hinv.opened k hk))]
    exact hk
  rw [connect_callbacks hfree]
  constructor
  case opened =>
    intro k hk
    rcases open_connect hk with rfl | ⟨_, hk⟩
    · exact Nat.lt_succ_self _
    · exact Nat.lt_succ_of_lt (hinv.opened k hk)
  case number =>
    intro k k' hk hk' heq
    dsimp only at heq
    rcases open_connect hk with rfl | ⟨_, hk⟩ <;> rcases open_connect hk' with rfl | ⟨_, hk'⟩
    · rfl
    · rw [Function.update_self, hold hk'] at heq
      exact absurd heq.symm (hfree.ne hinv hk')
    · rw [Function.update_self, hold hk] at heq
      exact absurd heq (hfree.ne hinv hk)
    · rw [hold hk, hold hk'] at heq
      exact hinv.number k k' hk hk' heq
  case not_wake =>
    intro k hk
    dsimp only
    rcases open_connect hk with rfl | ⟨_, hk⟩
    · rw [Function.update_self]
      exact hfree.1
    · rw [hold hk]
      exact hinv.not_wake k hk
  case filed =>
    intro fd e he
    rcases update_some_eq_some.mp he with ⟨rfl, rfl⟩ | ⟨_, he⟩
    · exact ⟨Function.update_self _ _ _, Function.update_self _ _ _⟩
    · obtain ⟨hopen, hnum⟩ := hinv.filed fd e he
      exact ⟨hstill hopen, (hold hopen).trans hnum⟩
  case held =>
    intro c' k hk
    rcases update_some_eq_some.mp hk with ⟨_, rfl⟩ | ⟨_, hk⟩
    · exact Function.update_self _ _ _
    · exact hstill (hinv.held c' k hk)
  case holder =>
    have hne : ∀ {c' : Nat}, s.sock c' ≠ some s.opened := by
      intro c' hc'
      exact absurd (hinv.opened _ (hinv.held c' _ hc')) (Nat.lt_irrefl _)
    intro c₁ c₂ k h₁ h₂
    rcases update_some_eq_some.mp h₁ with ⟨rfl, rfl⟩ | ⟨_, hold₁⟩ <;>
      rcases update_some_eq_some.mp h₂ with ⟨rfl, heq⟩ | ⟨_, hold₂⟩
    · rfl
    · exact absurd hold₂ hne
    · exact absurd (heq ▸ hold₁) hne
    · exact hinv.holder c₁ c₂ k hold₁ hold₂
  case polled_le => exact Nat.le_succ_of_le hinv.polled_le
  case reported_lt => exact hinv.reported_lt
  case pending =>
    intro fd hfd k hk hopen hnum
    dsimp only at hnum
    rcases open_connect hopen with rfl | ⟨_, hopen⟩
    · exact absurd hk (Nat.not_lt.mpr hinv.polled_le)
    · rw [hold hopen] at hnum
      exact hinv.pending fd hfd k hk hopen hnum

theorem close_inv (hinv : Inv s) : Inv (close c s) := by
  cases hc : s.sock c with
  | none =>
    unfold close
    rw [hc]
    exact hinv
  | some k =>
    rw [close_some hinv hc]
    constructor
    case opened => exact fun k' hk' => hinv.opened k' (open_close hk').2
    case number => exact fun k₁ k₂ h₁ h₂ => hinv.number k₁ k₂ (open_close h₁).2 (open_close h₂).2
    case not_wake => exact fun k' hk' => hinv.not_wake k' (open_close hk').2
    case filed =>
      intro fd e he
      obtain ⟨hfd, he⟩ := update_none_eq_some.mp he
      obtain ⟨hopen, hnum⟩ := hinv.filed fd e he
      have hne : e.sock ≠ k := fun heq => hfd (by rw [← hnum, heq])
      exact ⟨(Function.update_of_ne hne _ _).trans hopen, hnum⟩
    case held =>
      intro c' k' hk'
      obtain ⟨hcc, hk'⟩ := update_none_eq_some.mp hk'
      have hne : k' ≠ k := fun heq => hcc (hinv.holder c' c k (heq ▸ hk') hc)
      exact (Function.update_of_ne hne _ _).trans (hinv.held c' k' hk')
    case holder =>
      intro c₁ c₂ k' h₁ h₂
      exact hinv.holder c₁ c₂ k' (update_none_eq_some.mp h₁).2 (update_none_eq_some.mp h₂).2
    case polled_le => exact hinv.polled_le
    case reported_lt => exact hinv.reported_lt
    case pending => exact fun fd hfd k' hk' hopen => hinv.pending fd hfd k' hk' (open_close hopen).2

theorem poll_inv (filenos : List Nat) (hinv : Inv s) (hidle : s.handling = none) :
    Inv (poll filenos s) := by
  refine { hinv with polled_le := Nat.le_refl _, reported_lt := ?_, pending := ?_ }
  · intro k hk
    rcases Bool.or_eq_true_iff.mp hk with hold | hnew
    · exact Nat.lt_of_lt_of_le (hinv.reported_lt k hold) hinv.polled_le
    · exact hinv.opened k (Bool.and_eq_true_iff.mp hnew).1
  · intro fd hfd k _ hopen hnum
    rcases hfd with hmem | hhandling
    · have hcontains : filenos.contains (s.fileno k) = true := by
        rw [List.contains_iff_mem, show s.fileno k = fd from hnum]
        exact hmem
      show (s.reported k || (s.isOpen k && filenos.contains (s.fileno k))) = true
      rw [hcontains, show s.isOpen k = true from hopen]
      exact Bool.or_true _
    · rw [show (poll filenos s).handling = s.handling from rfl, hidle] at hhandling
      cases hhandling

theorem take_inv {rest : List Nat} (hinv : Inv s) (hevents : s.events = fileno :: rest) :
    Inv { s with handling := some fileno, events := rest } := by
  refine { hinv with pending := ?_ }
  intro fd hfd
  have hpending : fd ∈ s.events := by
    rw [hevents]
    rcases hfd with hmem | hhandling
    · exact List.mem_cons_of_mem _ hmem
    · cases hhandling
      exact List.mem_cons_self
  exact hinv.pending fd (Or.inl hpending)

theorem finish_inv (hinv : Inv s) : Inv { unregisterSocket fileno s with handling := none } := by
  unfold unregisterSocket
  have hpending : ∀ fd, fd ∈ s.events ∨ (none : Option Nat) = some fd → ∀ k < s.polled,
      s.isOpen k = true → s.fileno k = fd → s.reported k = true := by
    intro fd hfd
    rcases hfd with hmem | hnone
    · exact hinv.pending fd (Or.inl hmem)
    · cases hnone
  split
  · exact { hinv with pending := hpending }
  · refine { hinv with pending := hpending, filed := ?_ }
    exact fun fd e he => hinv.filed fd e (update_none_eq_some.mp he).2

theorem handle_inv {rest : List Nat} (hinv : Inv s) (hevents : s.events = fileno :: rest) :
    Inv (handle fileno rest s) := by
  have htaken := take_inv hinv hevents
  unfold handle
  dsimp only
  split
  · exact htaken
  · exact close_inv htaken

/-- **What a step can do.** -/
theorem step_cases {op : Op} (h : step s op = some s') :
    (∃ c fileno, op = .connect c fileno ∧ s.Free fileno ∧ s' = connect c fileno s) ∨
    (∃ c, op = .close c ∧ s' = close c s) ∨
    (∃ filenos, op = .poll filenos ∧ s.handling = none ∧ s' = poll filenos s) ∨
    (∃ fileno rest, op = .handle ∧ s.events = fileno :: rest ∧ s' = handle fileno rest s) ∨
    (∃ fileno, op = .finish ∧ s.handling = some fileno ∧
      s' = { unregisterSocket fileno s with handling := none }) := by
  cases op with
  | connect c fileno =>
    simp only [step] at h
    split at h
    · next hfree => exact Or.inl ⟨c, fileno, rfl, hfree, (Option.some.inj h).symm⟩
    · cases h
  | close c => exact Or.inr (Or.inl ⟨c, rfl, (Option.some.inj h).symm⟩)
  | poll filenos =>
    simp only [step] at h
    split at h
    · next hok => exact Or.inr (Or.inr (Or.inl ⟨filenos, rfl, hok.1, (Option.some.inj h).symm⟩))
    · cases h
  | handle =>
    simp only [step] at h
    split at h
    · next fileno rest _ hevents =>
      exact Or.inr (Or.inr (Or.inr (Or.inl ⟨fileno, rest, rfl, hevents, (Option.some.inj h).symm⟩)))
    · cases h
  | finish =>
    simp only [step] at h
    split at h
    · next fileno hhandling =>
      exact Or.inr (Or.inr (Or.inr (Or.inr ⟨fileno, rfl, hhandling, (Option.some.inj h).symm⟩)))
    · cases h

theorem step_inv {op : Op} (hinv : Inv s) (h : step s op = some s') : Inv s' := by
  rcases step_cases h with ⟨c, fileno, _, hfree, rfl⟩ | ⟨c, _, rfl⟩ | ⟨filenos, _, hidle, rfl⟩ |
    ⟨fileno, rest, _, hevents, rfl⟩ | ⟨fileno, _, _, rfl⟩
  · exact connect_inv hinv hfree
  · exact close_inv hinv
  · exact poll_inv filenos hinv hidle
  · exact handle_inv hinv hevents
  · exact finish_inv hinv

/-! ### Open sockets stay in the table -/

/-- When an event has been handled, no open socket that was opened since the poll has its
    descriptor number. -/
def NotReused (s : State) : Op → Prop
  | .finish => ∀ fileno, s.handling = some fileno →
      ∀ k, s.isOpen k = true → s.fileno k = fileno → k < s.polled
  | _ => True

theorem connect_monitored (hinv : Inv s) (hfree : s.Free fileno) (hm : Monitored s) :
    Monitored (connect c fileno s) := by
  rw [connect_callbacks hfree]
  intro k hk hquiet
  dsimp only at hquiet ⊢
  rcases open_connect hk with rfl | ⟨hne, hk⟩
  · rw [Function.update_self, Function.update_self]
    exact ⟨c, rfl⟩
  · rw [Function.update_of_ne hne, Function.update_of_ne (hfree.ne hinv hk)]
    exact hm k hk hquiet

theorem close_monitored (hinv : Inv s) (hm : Monitored s) : Monitored (close c s) := by
  cases hc : s.sock c with
  | none =>
    unfold close
    rw [hc]
    exact hm
  | some k =>
    rw [close_some hinv hc]
    intro k' hk' hquiet
    dsimp only at hquiet ⊢
    obtain ⟨hne, hopen⟩ := open_close hk'
    have hnum : s.fileno k' ≠ s.fileno k :=
      fun heq => hne (hinv.number k' k hopen (hinv.held c k hc) heq)
    rw [Function.update_of_ne hnum]
    exact hm k' hopen hquiet

theorem poll_monitored (filenos : List Nat) (hm : Monitored s) : Monitored (poll filenos s) := by
  intro k hk hquiet
  exact hm k hk (Bool.or_eq_false_iff.mp hquiet).1

theorem handle_monitored {rest : List Nat} (hinv : Inv s) (hevents : s.events = fileno :: rest)
    (hm : Monitored s) : Monitored (handle fileno rest s) := by
  have htaken : Monitored { s with handling := some fileno, events := rest } := hm
  unfold handle
  dsimp only
  split
  · exact htaken
  · exact close_monitored (take_inv hinv hevents) htaken

/-- The `unregister_socket` after the callback is the step that can lose a socket. -/
theorem finish_monitored_iff (hinv : Inv s) (hm : Monitored s)
    (hhandling : s.handling = some fileno) :
    Monitored { unregisterSocket fileno s with handling := none } ↔ NotReused s .finish := by
  constructor
  · intro hm' fd hfd k hopen hnum
    rw [hhandling] at hfd
    cases hfd
    by_contra hlate
    have hquiet : s.reported k = false := by
      rw [← Bool.not_eq_true]
      exact fun hrep => hlate (hinv.reported_lt k hrep)
    have hwake : fileno ≠ s.wakeFileno := hnum ▸ hinv.not_wake k hopen
    unfold unregisterSocket at hm'
    rw [if_neg hwake] at hm'
    obtain ⟨c, hc⟩ := hm' k hopen hquiet
    dsimp only at hc
    rw [hnum, Function.update_self] at hc
    cases hc
  · intro hold
    unfold unregisterSocket
    split
    · exact hm
    · intro k hopen hquiet
      dsimp only at hopen hquiet ⊢
      have hne : s.fileno k ≠ fileno := by
        intro hnum
        have hearly := hold fileno hhandling k hopen hnum
        rw [hinv.pending fileno (Or.inr hhandling) k hearly hopen hnum] at hquiet
        cases hquiet
      rw [Function.update_of_ne hne]
      exact hm k hopen hquiet

theorem step_monitored_iff {op : Op} (hinv : Inv s) (hm : Monitored s) (h : step s op = some s') :
    Monitored s' ↔ NotReused s op := by
  rcases step_cases h with ⟨c, fileno, rfl, hfree, rfl⟩ | ⟨c, rfl, rfl⟩ | ⟨filenos, rfl, _, rfl⟩ |
    ⟨fileno, rest, rfl, hevents, rfl⟩ | ⟨fileno, rfl, hhandling, rfl⟩
  · exact iff_of_true (connect_monitored hinv hfree hm) trivial
  · exact iff_of_true (close_monitored hinv hm) trivial
  · exact iff_of_true (poll_monitored filenos hm) trivial
  · exact iff_of_true (handle_monitored hinv hevents hm) trivial
  · exact finish_monitored_iff hinv hm hhandling

end Steps

/-- **Open sockets stay monitored exactly in the runs where no number of a pending event is
    given out again to a socket that is still open when the event has been handled.** -/
theorem open_sockets_monitored_iff (wakeFileno : Nat) (ops : List Op) :
    (∀ s op s', Takes step (State.start wakeFileno) ops s op s' → Monitored s') ↔
      ∀ s op s', Takes step (State.start wakeFileno) ops s op s' → NotReused s op := by
  apply forall_takes_iff
  · intro k hk
    cases hk
  · intro s op s' ht hm
    have hinv : Inv s := ht.before (inv_start wakeFileno) fun a k b hab ha => step_inv ha hab.one
    exact step_monitored_iff hinv hm ht.one

/-- The close listener of a client whose connection was lost gets the old number again. -/
theorem reconnected_unmonitored : ∃ s,
    run step (State.start 3) [.connect 0 5, .poll [5], .handle, .connect 0 5, .finish] = some s ∧
      s.isOpen 1 = true ∧ s.reported 1 = false ∧ s.callbacks (s.fileno 1) = none :=
  ⟨_, rfl, rfl, rfl, rfl⟩

end Albatross.Monitor
