/-
  Albatross/Matching.lean
  =======================
  **Whose response a call returns.**

  A call takes the first frame whose id is not below its own.  What comes before
  its own response are the responses that were outstanding when it wrote its
  request, so it takes its own exactly when all of those have smaller ids.  That
  holds of every call in every interleaving (`inv_run`, `matched_iff`).

  What is left for a particular kind of run is what can be outstanding when a
  request is written (`wrote_step`).
-/
import Albatross.Calls

namespace Albatross.Matching

open Python Wire Framing Runs Calls

/-! ### The stream of responses -/

/-- The bytes still to be read are the responses in `unread`. -/
structure Streams (s : Client) : Prop where
  data : Data s.inbox
  bytes : bytesOf s.inbox = frames.encodeAll (s.unread.map Response.frame)
  answers : ∀ x ∈ s.unread, x.frame.Valid ∧ x.frame.idx = x.request.id

theorem Streams.receive {s : Client} (h : Streams s) :
    s.unread = [] ∧ rpcReceiveData s.inbox = .blocked [] ∨
    ∃ x later inbox, s.unread = x :: later ∧ rpcReceiveData s.inbox = .ok x.frame inbox ∧
      Data inbox ∧ bytesOf inbox = frames.encodeAll (later.map Response.frame) := by
  have hbytes := h.bytes
  cases hunread : s.unread with
  | nil =>
    rw [hunread] at hbytes
    refine Or.inl ⟨rfl, ?_⟩
    have hskip := rpcReceiveData_skip h.data hbytes []
    rw [List.append_nil] at hskip
    exact hskip
  | cons x later =>
    rw [hunread, List.map_cons, Codec.encodeAll_cons] at hbytes
    have hvalid : x.frame.Valid := (h.answers x (by rw [hunread]; exact List.mem_cons_self)).1
    obtain ⟨inbox, hrecv, hdata, hrest⟩ := frames.receive_data hvalid h.data hbytes []
    rw [List.append_nil, List.append_nil] at hrecv
    exact Or.inr ⟨x, later, inbox, rfl, hrecv, hdata, hrest⟩

theorem Streams.taken {s : Client} (h : Streams s) {f : Frame} {inbox : Inbox}
    (hrecv : rpcReceiveData s.inbox = .ok f inbox) :
    ∃ x, s.unread = x :: s.unread.tail ∧ x.frame = f ∧ Data inbox ∧
      bytesOf inbox = frames.encodeAll (s.unread.tail.map Response.frame) := by
  rcases h.receive with ⟨_, hblocked⟩ | ⟨x, later, inbox', hunread, hok, hdata, hbytes⟩
  · rw [hrecv] at hblocked
    cases hblocked
  · rw [hrecv] at hok
    cases hok
    rw [hunread]
    exact ⟨x, rfl, rfl, hdata, hbytes⟩

theorem Streams.unbroken {s : Client} (h : Streams s) {e : PyExn} {inbox : Inbox} :
    rpcReceiveData s.inbox ≠ .raised e inbox := by
  intro hraised
  rcases h.receive with ⟨_, hblocked⟩ | ⟨x, later, inbox', _, hok, _⟩
  · rw [hraised] at hblocked
    cases hblocked
  · rw [hraised] at hok
    cases hok

theorem streams_step {s s' : Client} {l : Label} (hstep : Step s l s') (h : Streams s) :
    Streams s' := by
  cases hstep with
  | skip _ hrecv _ | take _ hrecv _ =>
    obtain ⟨x, hunread, _, hdata, hbytes⟩ := h.taken hrecv
    refine ⟨hdata, hbytes, fun y hy => h.answers y ?_⟩
    rw [hunread]
    exact List.mem_cons_of_mem x hy
  | broken _ hrecv => exact absurd hrecv h.unbroken
  | @answer a sizes r pending _ _ =>
    constructor
    · exact h.data.append (data_chop _ _)
    · show bytesOf (s.inbox ++ chop sizes (a.to r).frame.encode) = _
      rw [bytesOf_append, h.bytes, bytesOf_chop]
      simp [frames]
    · intro y hy
      rcases List.mem_append.mp hy with hy | hy
      · exact h.answers y hy
      · rw [List.mem_singleton.mp hy]
        exact ⟨a.to_valid r, rfl⟩
  | _ => exact ⟨h.data, h.bytes, h.answers⟩

/-! ### Threads and the lock -/

/-- The call is between acquiring and releasing the lock. -/
def HoldsLock : Phase → Prop
  | .locked _ _ | .waiting _ _ _ | .unlocking _ => True
  | _ => False

section Threads

variable {s s' : Client} {l : Label} {t u : Nat} {p : Phase}

/-- What holds of a thread after one of them has moved on. -/
theorem of_setPhase (P : Phase → Prop) (h : P ((s.setPhase t p).threads u)) :
    u = t ∧ P p ∨ u ≠ t ∧ P (s.threads u) := by
  by_cases heq : u = t
  · rw [heq, Client.setPhase_self] at h
    exact Or.inl ⟨heq, h⟩
  · have hother : (s.setPhase t p).threads u = s.threads u := by simp [Client.setPhase, heq]
    rw [hother] at h
    exact Or.inr ⟨heq, h⟩

theorem of_finished (P : Phase → Prop) {e : Ended} (h : P ((s.finished t e).threads u)) :
    u = t ∧ P .idle ∨ u ≠ t ∧ P (s.threads u) := of_setPhase P h

/-- Only the thread that holds the lock is past acquiring it. -/
def Locked (s : Client) : Prop := ∀ t, HoldsLock (s.threads t) → s.requestLock = some t

theorem Locked.only (h : Locked s) (ht : HoldsLock (s.threads t)) (hu : HoldsLock (s.threads u)) :
    u = t := Option.some.inj ((h u hu).symm.trans (h t ht))

/-- A thread moves on with the lock it holds, or outside it. -/
theorem Locked.setPhase (h : Locked s) (hp : HoldsLock p → HoldsLock (s.threads t)) :
    Locked (s.setPhase t p) := by
  intro u hu
  rcases of_setPhase HoldsLock hu with ⟨rfl, hhold⟩ | ⟨_, hhold⟩
  · exact h u (hp hhold)
  · exact h u hhold

theorem locked_step (hstep : Step s l s') (h : Locked s) : Locked s' := by
  cases hstep with
  | read _ => exact h.setPhase False.elim
  | write _ => exact Locked.setPhase (s := { s with callCounter := _ }) h False.elim
  | draw _ => exact Locked.setPhase (s := { s with callCounter := _ }) h False.elim
  | refuse _ => exact Locked.setPhase (s := { s with log := _ }) h False.elim
  | leave _ _ => exact Locked.setPhase (s := { s with log := _ }) h False.elim
  | acquire _ hfree _ =>
    intro u hu
    rcases of_setPhase HoldsLock hu with ⟨rfl, _⟩ | ⟨_, hhold⟩
    · rfl
    · have hlock := h u hhold
      rw [hfree] at hlock
      cases hlock
  | unsent hlocked _ =>
    exact Locked.setPhase (s := { s with outlet := _ }) h fun _ => by rw [hlocked]; exact trivial
  | sentVoid hlocked _ _ =>
    exact Locked.setPhase (s := { s with outlet := _, pending := _, requests := _ }) h
      fun _ => by rw [hlocked]; exact trivial
  | sent hlocked _ _ =>
    exact Locked.setPhase (s := { s with outlet := _, pending := _, requests := _ }) h
      fun _ => by rw [hlocked]; exact trivial
  | take hwaiting _ _ =>
    exact Locked.setPhase (s := { s with inbox := _, unread := _ }) h
      fun _ => by rw [hwaiting]; exact trivial
  | broken hwaiting _ =>
    exact Locked.setPhase (s := { s with inbox := _ }) h fun _ => by rw [hwaiting]; exact trivial
  | timeout hwaiting => exact h.setPhase fun _ => by rw [hwaiting]; exact trivial
  | @release t e hunlocking =>
    intro u hu
    rcases of_finished HoldsLock hu with ⟨_, hhold⟩ | ⟨hne, hhold⟩
    · exact False.elim hhold
    · exact absurd (h.only (by rw [hunlocking]; exact trivial) hhold) hne
  | skip _ _ _ | discard _ _ | answer _ _ => exact h

end Threads

/-! ### What is outstanding -/

theorem outstanding_sent (s : Client) (r : Request) (hr : r.void = false) :
    s.unread.map Response.request ++ (s.pending ++ [r]).filter (fun x => !x.void) =
      s.outstanding ++ [r] := by
  simp [Client.outstanding, hr]

theorem outstanding_sentVoid (s : Client) (r : Request) (hr : r.void = true) :
    s.unread.map Response.request ++ (s.pending ++ [r]).filter (fun x => !x.void) =
      s.outstanding := by
  simp [Client.outstanding, hr]

theorem outstanding_discard {s : Client} {r : Request} {pending : List Request}
    (hpending : s.pending = r :: pending) (hr : r.void = true) :
    s.unread.map Response.request ++ pending.filter (fun x => !x.void) = s.outstanding := by
  simp [Client.outstanding, hpending, hr]

theorem outstanding_answer {s : Client} {a : Answer} {r : Request} {pending : List Request}
    (hpending : s.pending = r :: pending) (hr : r.void = false) :
    (s.unread ++ [a.to r]).map Response.request ++ pending.filter (fun x => !x.void) =
      s.outstanding := by
  simp [Client.outstanding, hpending, hr, Answer.to]

theorem outstanding_taken {s : Client} {x : Response} (hunread : s.unread = x :: s.unread.tail) :
    s.outstanding =
      x.request :: (s.unread.tail.map Response.request ++ s.pending.filter fun r => !r.void) := by
  unfold Client.outstanding
  rw [hunread]
  rfl

/-! ### The invariant -/

/-- A call is waiting for `r`: of the responses that were outstanding when it wrote
    its request, those already skipped had smaller ids; the others are outstanding
    still, and its own comes last. -/
def Awaits (s : Client) (r : Request) (stale : List Request) : Prop :=
  (∀ x ∈ stale, x.seq < r.seq) ∧ ∃ done rest, stale = done ++ rest ∧
    s.outstanding = rest ++ [r] ∧ ∀ x ∈ done, x.id < r.id

/-- The frame the call took is its own response if and only if the responses that
    were outstanding have smaller ids. -/
def TookOwnIff (e : Ended) (r : Request) : Prop :=
  ∃ x, e.received = some x ∧ e.how = .got x.frame ∧
    (x.request = r ↔ ∀ y ∈ e.stale, y.id < r.id)

/-- How a call that has written a request ends. -/
def Sound (e : Ended) : Prop := ∀ r, e.own = some r →
  (∃ x, e.how = .raised x) ∨ e.call.isVoid = true ∧ e.how = .sent ∨
    e.call.isVoid = false ∧ TookOwnIff e r

/-- The call has ended, or only the lock is still to be released. -/
def Ends (s : Client) (e : Ended) : Prop := e ∈ s.log ∨ ∃ t, s.threads t = .unlocking e

structure Inv (s : Client) : Prop where
  streams : Streams s
  locked : Locked s
  bound : ∀ x ∈ s.outstanding, x.seq < s.requests
  waiting : ∀ t m r stale, s.threads t = .waiting m r stale →
    m.isVoid = false ∧ Awaits s r stale
  ended : ∀ e, Ends s e → Sound e

section Steps

variable {s s' : Client} {l : Label}

theorem ends_setPhase {t : Nat} {p : Phase} {e : Ended} (h : Ends (s.setPhase t p) e) :
    Ends s e ∨ p = .unlocking e := by
  rcases h with hlog | ⟨u, hu⟩
  · exact Or.inl (Or.inl hlog)
  · rcases of_setPhase (· = .unlocking e) hu with ⟨_, hp⟩ | ⟨_, hu⟩
    · exact Or.inr hp
    · exact Or.inl (Or.inr ⟨u, hu⟩)

theorem ends_finished {t : Nat} {e e' : Ended} (h : Ends (s.finished t e') e) :
    Ends s e ∨ e = e' := by
  rcases h with hlog | ⟨u, hu⟩
  · rcases List.mem_append.mp hlog with hlog | hlog
    · exact Or.inl (Or.inl hlog)
    · exact Or.inr (List.mem_singleton.mp hlog)
  · rcases of_finished (· = .unlocking e) hu with ⟨_, hp⟩ | ⟨_, hu⟩
    · cases hp
    · exact Or.inl (Or.inr ⟨u, hu⟩)

inductive NewEnd (s : Client) : Label → Ended → Prop where
  | unwritten {l : Label} {m : Call} {how : Ending} : NewEnd s l ⟨m, none, [], none, how⟩
  | sent {t : Nat} {m : Call} {n : Nat} : s.threads t = .locked m n → m.isVoid = true →
      NewEnd s (.send t) ⟨m, some ⟨s.requests, n, true⟩, s.outstanding, none, .sent⟩
  | took {t : Nat} {m : Call} {r : Request} {stale : List Request} {f : Frame} {inbox : Inbox} :
      s.threads t = .waiting m r stale → rpcReceiveData s.inbox = .ok f inbox → ¬ f.idx < r.id →
      NewEnd s (.receive t) ⟨m, some r, stale, s.unread.head?, .got f⟩
  | broken {t : Nat} {m : Call} {r : Request} {stale : List Request} {x : PyExn} {inbox : Inbox} :
      s.threads t = .waiting m r stale → rpcReceiveData s.inbox = .raised x inbox →
      NewEnd s (.receive t) ⟨m, some r, stale, none, .raised x⟩
  | timedOut {t : Nat} {m : Call} {r : Request} {stale : List Request} :
      s.threads t = .waiting m r stale →
      NewEnd s (.timeout t) ⟨m, some r, stale, none, .raised .timeoutError⟩

/-- A step that moves a thread ends at most the call of that thread. -/
theorem ends_moved {s₁ : Client} (hold : ∀ e, Ends s₁ e → Ends s e) {t : Nat} {p : Phase}
    (hnew : ∀ e, p = .unlocking e → NewEnd s l e) {e : Ended} (he : Ends (s₁.setPhase t p) e) :
    Ends s e ∨ NewEnd s l e := by
  rcases ends_setPhase he with he | he
  · exact Or.inl (hold e he)
  · exact Or.inr (hnew e he)

/-- **Which calls have ended after a step.** -/
theorem ends_step (hstep : Step s l s') {e : Ended} (he : Ends s' e) : Ends s e ∨ NewEnd s l e := by
  cases hstep with
  | read _ => exact ends_moved (fun _ h => h) (by rintro e ⟨⟩) he
  | write _ => exact ends_moved (fun _ h => h) (by rintro e ⟨⟩) he
  | draw _ => exact ends_moved (fun _ h => h) (by rintro e ⟨⟩) he
  | acquire _ _ _ => exact ends_moved (fun _ h => h) (by rintro e ⟨⟩) he
  | sent _ _ _ => exact ends_moved (fun _ h => h) (by rintro e ⟨⟩) he
  | refuse _ =>
    rcases ends_finished he with he | rfl
    · exact Or.inl he
    · exact Or.inr .unwritten
  | leave _ _ =>
    rcases ends_finished he with he | rfl
    · exact Or.inl he
    · exact Or.inr .unwritten
  | unsent _ _ =>
    refine ends_moved (fun _ h => h) ?_ he
    rintro e ⟨⟩
    exact .unwritten
  | sentVoid hlocked _ hvoid =>
    refine ends_moved (fun _ h => h) ?_ he
    rintro e ⟨⟩
    exact .sent hlocked hvoid
  | take hwaiting hrecv hge =>
    refine ends_moved (fun _ h => h) ?_ he
    rintro e ⟨⟩
    exact .took hwaiting hrecv hge
  | broken hwaiting hrecv =>
    refine ends_moved (fun _ h => h) ?_ he
    rintro e ⟨⟩
    exact .broken hwaiting hrecv
  | timeout hwaiting =>
    refine ends_moved (fun _ h => h) ?_ he
    rintro e ⟨⟩
    exact .timedOut hwaiting
  | @release t e' hunlocking =>
    rcases ends_finished he with he | rfl
    · exact Or.inl he
    · exact Or.inl (Or.inr ⟨t, hunlocking⟩)
  | skip _ _ _ => exact Or.inl he
  | discard _ _ => exact Or.inl he
  | answer _ _ => exact Or.inl he

/-- **The step that takes a frame.**  The first response outstanding is the call's
    own only if nothing else was left to skip. -/
theorem sound_take (h : Inv s) {t : Nat} {m : Call} {r : Request} {stale : List Request} {f : Frame}
    {inbox : Inbox} (hwaiting : s.threads t = .waiting m r stale)
    (hrecv : rpcReceiveData s.inbox = .ok f inbox) (hge : ¬ f.idx < r.id) :
    Sound ⟨m, some r, stale, s.unread.head?, .got f⟩ := by
  obtain ⟨hvoid, hseq, done, rest, hstale, hout, hdone⟩ := h.waiting t m r stale hwaiting
  obtain ⟨x, hunread, hframe, _⟩ := h.streams.taken hrecv
  have hid : x.frame.idx = x.request.id :=
    (h.streams.answers x (by rw [hunread]; exact List.mem_cons_self)).2
  rw [hframe] at hid
  rw [outstanding_taken hunread] at hout
  intro r' hown
  cases hown
  refine Or.inr (Or.inr ⟨hvoid, x, by rw [hunread]; rfl, by rw [hframe], ?_⟩)
  show x.request = r ↔ ∀ y ∈ stale, y.id < r.id
  rw [hstale]
  cases rest with
  | nil =>
    -- everything before the own response has been skipped
    have hown : x.request = r := by simpa using (List.cons.inj hout).1
    rw [List.append_nil]
    exact iff_of_true hown hdone
  | cons y rest =>
    have hhead : x.request = y := (List.cons.inj hout).1
    have hmem : y ∈ stale := by rw [hstale]; simp
    constructor
    · intro hown
      have hlt := hseq y hmem
      rw [← hhead, hown] at hlt
      exact absurd hlt (Nat.lt_irrefl _)
    · intro hsmall
      have hlt := hsmall y (by simp)
      rw [← hhead, ← hid] at hlt
      exact absurd hlt hge

theorem ended_step (hstep : Step s l s') (h : Inv s) : ∀ e, Ends s' e → Sound e := by
  intro e he
  rcases ends_step hstep he with hold | hnew
  · exact h.ended e hold
  · cases hnew with
    | unwritten =>
      intro r hown
      cases hown
    | sent _ hvoid => exact fun _ _ => Or.inr (Or.inl ⟨hvoid, rfl⟩)
    | took hwaiting hrecv hge => exact sound_take h hwaiting hrecv hge
    | broken _ _ => exact fun _ _ => Or.inl ⟨_, rfl⟩
    | timedOut _ => exact fun _ _ => Or.inl ⟨_, rfl⟩

/-- Which responses are outstanding changes only when a request is written or a
    frame is taken, by the thread that holds the lock. -/
theorem outstanding_step (hstep : Step s l s') (hs : Streams s) :
    s'.outstanding = s.outstanding ∨
    (∃ t m n, l = .send t ∧ s.threads t = .locked m n ∧ m.isVoid = false ∧
      s'.outstanding = s.outstanding ++ [⟨s.requests, n, false⟩] ∧ s'.requests = s.requests + 1) ∨
    ∃ t m r stale x, s.threads t = .waiting m r stale ∧ s.outstanding = x :: s'.outstanding ∧
      (s'.threads t = .waiting m r stale → x.id < r.id) := by
  cases hstep with
  | @sent t m n o hlocked _ hvoid =>
    exact Or.inr (Or.inl ⟨t, m, n, rfl, hlocked, hvoid, outstanding_sent s _ rfl, rfl⟩)
  | sentVoid _ _ _ => exact Or.inl (outstanding_sentVoid s _ rfl)
  | @skip t m r stale f inbox hwaiting hrecv hlt =>
    obtain ⟨x, hunread, hframe, _⟩ := hs.taken hrecv
    have hid := (hs.answers x (by rw [hunread]; exact List.mem_cons_self)).2
    rw [hframe] at hid
    rw [hid] at hlt
    exact Or.inr
      (Or.inr ⟨t, m, r, stale, x.request, hwaiting, outstanding_taken hunread, fun _ => hlt⟩)
  | @take t m r stale f inbox hwaiting hrecv _ =>
    obtain ⟨x, hunread, _⟩ := hs.taken hrecv
    refine Or.inr
      (Or.inr ⟨t, m, r, stale, x.request, hwaiting, outstanding_taken hunread, fun h => ?_⟩)
    rw [Client.setPhase_self] at h
    cases h
  | discard hpending hvoid => exact Or.inl (outstanding_discard hpending hvoid)
  | answer hpending hvoid => exact Or.inl (outstanding_answer hpending hvoid)
  | _ => exact Or.inl rfl

theorem requests_le (hstep : Step s l s') : s.requests ≤ s'.requests := by
  cases hstep with
  | sent _ _ _ => exact Nat.le_succ s.requests
  | sentVoid _ _ _ => exact Nat.le_succ s.requests
  | _ => exact Nat.le_refl s.requests

theorem bound_step (hstep : Step s l s') (h : Inv s) :
    ∀ x ∈ s'.outstanding, x.seq < s'.requests := by
  have hle := requests_le hstep
  intro x hx
  rcases outstanding_step hstep h.streams with hout | ⟨t, m, n, _, _, _, hout, hrequests⟩ |
    ⟨t, m, r, stale, y, _, hout, _⟩
  · rw [hout] at hx
    exact Nat.lt_of_lt_of_le (h.bound x hx) hle
  · rw [hout] at hx
    rw [hrequests]
    rcases List.mem_append.mp hx with hx | hx
    · exact Nat.lt_succ_of_lt (h.bound x hx)
    · rw [List.mem_singleton.mp hx]
      exact Nat.lt_succ_self s.requests
  · have hmem : x ∈ s.outstanding := by
      rw [hout]
      exact List.mem_cons_of_mem _ hx
    exact Nat.lt_of_lt_of_le (h.bound x hmem) hle

theorem Awaits.of_outstanding {r : Request} {stale : List Request} (h : Awaits s r stale)
    (hout : s'.outstanding = s.outstanding) : Awaits s' r stale := by
  obtain ⟨hseq, done, rest, hstale, hrest, hdone⟩ := h
  exact ⟨hseq, done, rest, hstale, hout.trans hrest, hdone⟩

/-- What a thread waits for is what it waited for, or the request it has just
    written. -/
theorem waiting_step (hstep : Step s l s') {t : Nat} {m : Call} {r : Request} {stale : List Request}
    (hwaiting : s'.threads t = .waiting m r stale) :
    s.threads t = .waiting m r stale ∨ ∃ n, s.threads t = .locked m n ∧ m.isVoid = false ∧
      r = ⟨s.requests, n, false⟩ ∧ stale = s.outstanding ∧
      s'.outstanding = s.outstanding ++ [r] := by
  have hmoved : ∀ {s₁ : Client} {u : Nat} {p : Phase}, (s₁.setPhase u p).threads t =
      .waiting m r stale →
      (t = u ∧ p = .waiting m r stale) ∨ s₁.threads t = .waiting m r stale := by
    intro s₁ u p h
    rcases of_setPhase (· = .waiting m r stale) h with h | ⟨_, h⟩
    · exact Or.inl h
    · exact Or.inr h
  cases hstep with
  | @sent u m' n o hlocked _ hvoid =>
    rcases hmoved hwaiting with ⟨rfl, hp⟩ | h
    · cases hp
      exact Or.inr ⟨n, hlocked, hvoid, rfl, rfl, outstanding_sent s _ rfl⟩
    · exact Or.inl h
  | skip _ _ _ | discard _ _ | answer _ _ => exact Or.inl hwaiting
  | refuse _ | leave _ _ | release _ =>
    rcases of_finished (· = .waiting m r stale) hwaiting with ⟨_, hp⟩ | ⟨_, h⟩
    · cases hp
    · exact Or.inl h
  | _ =>
    rcases hmoved hwaiting with ⟨_, hp⟩ | h
    · cases hp
    · exact Or.inl h

theorem awaits_step (hstep : Step s l s') (h : Inv s) : ∀ t m r stale,
    s'.threads t = .waiting m r stale → m.isVoid = false ∧ Awaits s' r stale := by
  intro t m r stale hwaiting
  rcases waiting_step hstep hwaiting with hold | ⟨n, _, hvoid, rfl, rfl, hout⟩
  · obtain ⟨hvoid, hawaits⟩ := h.waiting t m r stale hold
    refine ⟨hvoid, ?_⟩
    have hhold : HoldsLock (s.threads t) := by rw [hold]; exact trivial
    rcases outstanding_step hstep h.streams with hout | ⟨u, m', n, _, hlocked, _⟩ |
      ⟨u, m', r', stale', x, hother, hout, hsmall⟩
    · exact hawaits.of_outstanding hout
    · have hsame := h.locked.only hhold (u := u) (by rw [hlocked]; exact trivial)
      rw [hsame, hold] at hlocked
      cases hlocked
    · have hsame := h.locked.only hhold (u := u) (by rw [hother]; exact trivial)
      subst hsame
      rw [hold] at hother
      cases hother
      obtain ⟨hseq, done, rest, hstale, hrest, hdone⟩ := hawaits
      rw [hout] at hrest
      cases rest with
      | nil =>
        -- the own response has been skipped
        have hself : x = r := (List.cons.inj hrest).1
        have hlt := hsmall hwaiting
        rw [hself] at hlt
        exact absurd hlt (Nat.lt_irrefl _)
      | cons y rest =>
        have hhead : x = y := (List.cons.inj hrest).1
        refine ⟨hseq, done ++ [y], rest, by rw [hstale]; simp, (List.cons.inj hrest).2, ?_⟩
        intro z hz
        rcases List.mem_append.mp hz with hz | hz
        · exact hdone z hz
        · rw [List.mem_singleton.mp hz, ← hhead]
          exact hsmall hwaiting
  · refine ⟨hvoid, ?_, [], s.outstanding, rfl, hout, nofun⟩
    exact h.bound

theorem inv_step (hstep : Step s l s') (h : Inv s) : Inv s' where
  streams := streams_step hstep h.streams
  locked := locked_step hstep h.locked
  bound := bound_step hstep h
  waiting := awaits_step hstep h
  ended := ended_step hstep h

end Steps

/-- A client that has just connected, on a socket that accepts what is sent. -/
structure Connected (s : Client) : Prop where
  threads : ∀ t, s.threads t = .idle
  requestLock : s.requestLock = none
  accepting : s.outlet.Accepting
  inbox : s.inbox = []
  pending : s.pending = []
  unread : s.unread = []
  log : s.log = []

theorem Connected.outstanding {s : Client} (h : Connected s) : s.outstanding = [] := by
  simp [Client.outstanding, h.unread, h.pending]

theorem Connected.not_ends {s : Client} (h : Connected s) (e : Ended) : ¬ Ends s e := by
  rintro (hlog | ⟨t, ht⟩)
  · rw [h.log] at hlog
    cases hlog
  · rw [h.threads] at ht
    cases ht

theorem Connected.inv {s : Client} (h : Connected s) : Inv s where
  streams := by
    refine ⟨?_, ?_, ?_⟩
    · rw [h.inbox]
      exact Data.nil
    · rw [h.inbox, h.unread]
      rfl
    · rw [h.unread]
      intro x hx
      cases hx
  locked := by
    intro t ht
    rw [h.threads] at ht
    exact False.elim ht
  bound := by
    rw [h.outstanding]
    intro x hx
    cases hx
  waiting := by
    intro t m r stale ht
    rw [h.threads] at ht
    cases ht
  ended := fun e he => absurd he (h.not_ends e)

/-- **The invariant of all interleavings.** -/
theorem inv_run {start s : Client} {labels : List Label} (hstart : Connected start)
    (hrun : run step start labels = some s) : Inv s :=
  run_invariant (fun _ _ _ _ h hstep => inv_step (step_cases hstep) h) hstart.inv hrun

/-! ### What a call returns -/

/-- The call returns what its own response is decoded to. -/
def Matched (e : Ended) : Prop :=
  ∃ r x, e.own = some r ∧ e.received = some x ∧ x.request = r ∧ e.outcome = e.call.finish x.frame

/-- A call that returns after it has waited returns the response to its own request
    if and only if the responses that were outstanding had smaller ids. -/
theorem matched_iff {e : Ended} (h : Sound e) {r : Request} (hown : e.own = some r)
    (hvoid : e.call.isVoid = false) {v : PyValue} (hret : e.outcome = .ok v) :
    Matched e ↔ ∀ x ∈ e.stale, x.id < r.id := by
  rcases h r hown with ⟨ex, hraised⟩ | ⟨hsent, _⟩ | ⟨_, x, hreceived, hgot, hiff⟩
  · unfold Ended.outcome at hret
    rw [hraised] at hret
    cases hret
  · rw [hvoid] at hsent
    cases hsent
  · have hout : e.outcome = e.call.finish x.frame := by
      unfold Ended.outcome
      rw [hgot]
    rw [← hiff]
    constructor
    · rintro ⟨r', x', hown', hreceived', hrequest, _⟩
      rw [hown] at hown'
      rw [hreceived] at hreceived'
      cases hown'
      cases hreceived'
      exact hrequest
    · intro hrequest
      exact ⟨r, x, hown, hreceived, hrequest, hout⟩

/-! ### What was outstanding when a request was written -/

/-- Some call has written `r` while the responses to `stale` were outstanding. -/
def Wrote (s : Client) (r : Request) (stale : List Request) : Prop :=
  (∃ t m, s.threads t = .waiting m r stale) ∨ ∃ e, Ends s e ∧ e.own = some r ∧ e.stale = stale

theorem Connected.not_wrote {s : Client} (h : Connected s) (r : Request) (stale : List Request) :
    ¬ Wrote s r stale := by
  rintro (⟨t, m, ht⟩ | ⟨e, he, _⟩)
  · rw [h.threads] at ht
    cases ht
  · exact h.not_ends e he

section Written

variable {s s' : Client} {l : Label}

/-- The step that writes a request is the only one that adds to what was written. -/
theorem wrote_step (hstep : Step s l s') {r : Request} {stale : List Request}
    (h : Wrote s' r stale) : Wrote s r stale ∨ ∃ t m n, s.threads t = .locked m n ∧
      r = ⟨s.requests, n, m.isVoid⟩ ∧ stale = s.outstanding := by
  rcases h with ⟨t, m, hwaiting⟩ | ⟨e, he, hown, rfl⟩
  · rcases waiting_step hstep hwaiting with hold | ⟨n, hlocked, hvoid, hr, hstale, _⟩
    · exact Or.inl (Or.inl ⟨t, m, hold⟩)
    · exact Or.inr ⟨t, m, n, hlocked, by rw [hvoid]; exact hr, hstale⟩
  · rcases ends_step hstep he with hold | hnew
    · exact Or.inl (Or.inr ⟨e, hold, hown, rfl⟩)
    · cases hnew with
      | unwritten => cases hown
      | @sent t m n hlocked hvoid =>
        cases hown
        exact Or.inr ⟨t, m, n, hlocked, by rw [hvoid], rfl⟩
      | @took t m _ _ _ _ hwaiting _ _ =>
        cases hown
        exact Or.inl (Or.inl ⟨t, m, hwaiting⟩)
      | @broken t m _ _ _ _ hwaiting _ =>
        cases hown
        exact Or.inl (Or.inl ⟨t, m, hwaiting⟩)
      | @timedOut t m _ _ hwaiting =>
        cases hown
        exact Or.inl (Or.inl ⟨t, m, hwaiting⟩)

/-- The responses outstanding after a step were so before, or are to a request just
    written. -/
theorem mem_outstanding_step (hstep : Step s l s') (hs : Streams s) {x : Request}
    (hx : x ∈ s'.outstanding) : x ∈ s.outstanding ∨ ∃ t m n, l = .send t ∧
      s.threads t = .locked m n ∧ x = ⟨s.requests, n, false⟩ := by
  rcases outstanding_step hstep hs with hout | ⟨t, m, n, hlabel, hlocked, _, hout, _⟩ |
    ⟨t, m, r, stale, y, _, hout, _⟩
  · rw [hout] at hx
    exact Or.inl hx
  · rw [hout] at hx
    rcases List.mem_append.mp hx with hx | hx
    · exact Or.inl hx
    · exact Or.inr ⟨t, m, n, hlabel, hlocked, List.mem_singleton.mp hx⟩
  · rw [hout]
    exact Or.inl (List.mem_cons_of_mem y hx)

end Written

end Albatross.Matching
