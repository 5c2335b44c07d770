/-
  Albatross/SubscribeRun.lean
  ===========================
  **Runs of the subscribe loop.**

  Every turn that goes on uses up some of the stream, so the loop never runs out
  of its bound and satisfies the equation one writes for `while`
  (`subscribeRun_eq`).  On a healthy socket a run is then followed frame by frame:
  forwards, along the frames of a stream (`run_along`), and backwards, from the
  frames the loop has obtained to how it received them (`run_obtains`).
-/
import Albatross.Subscribe

namespace Albatross.Subscribe

open Python Wire Framing Marshal Assoc

/-! ### What no part of a turn touches -/

/-- The stream and the turns taken are the same. -/
structure Client.Kept (st st' : Client) : Prop where
  inbox : st'.inbox = st.inbox
  turns : st'.turns = st.turns

theorem Client.Kept.refl (st : Client) : st.Kept st := ⟨rfl, rfl⟩

theorem Client.Kept.trans {a b d : Client} (h : a.Kept b) (h' : b.Kept d) : a.Kept d :=
  ⟨h'.inbox.trans h.inbox, h'.turns.trans h.turns⟩

theorem response_kept (cmd data idx : PyValue) (st : Client) :
    st.Kept (response cmd data idx st).state := by
  unfold response Client.send
  split
  · split
    · cases rpcSendData data idx cmd st.outlet <;> exact ⟨rfl, rfl⟩
    · cases packFrame data idx cmd <;> exact ⟨rfl, rfl⟩
  · exact Client.Kept.refl st

theorem runHandler_kept (run : HandlerRun) : ∀ st : Client, st.Kept (runHandler run st).state := by
  induction run with
  | ret v => intro st; exact Client.Kept.refl st
  | raise e => intro st; exact Client.Kept.refl st
  | respond cmd data idx next ih =>
    intro st
    have hresp := response_kept cmd data idx st
    unfold runHandler
    cases hr : response cmd data idx st with
    | ok u st₁ => rw [hr] at hresp; exact hresp.trans (ih none st₁)
    | raised e st₁ => rw [hr] at hresp; exact hresp.trans (ih (some e) st₁)
    | blocked st₁ => rw [hr] at hresp; exact hresp
  | shutdown next ih =>
    intro st
    have hdown : st.Kept st.shutdown := ⟨rfl, rfl⟩
    exact hdown.trans (ih st.shutdown)

theorem tryFrame_kept (c : Subscription) (n : Nat) (f : Frame) (st : Client) :
    st.Kept (exceptException f (tryFrame c n f st)).state := by
  have hcatch : ∀ out : Outcome Client Reply, (exceptException f out).state = out.state := by
    intro out
    cases out with
    | raised e st₁ => simp only [exceptException]; split <;> rfl
    | _ => rfl
  rw [hcatch]
  unfold tryFrame
  split
  · exact Client.Kept.refl st
  · exact Client.Kept.refl st
  · exact Client.Kept.refl st
  · next name b args _ =>
    have hrun := runHandler_kept (b.handle n f.idx args) st
    cases hr : runHandler (b.handle n f.idx args) st with
    | ok v st₁ =>
      rw [hr] at hrun
      rw [Outcome.bind_ok]
      cases convertResult c.lib b.ret f v <;> exact hrun
    | raised e st₁ => rw [hr] at hrun; exact hrun
    | blocked st₁ => rw [hr] at hrun; exact hrun

theorem handleFrame_kept (c : Subscription) (f : Frame) (st : Client) :
    (st.enter ⟨f, c.dispatch st.sockValue f⟩).Kept (handleFrame c f st).state := by
  have htry := tryFrame_kept c st.turns.length f (st.enter ⟨f, c.dispatch st.sockValue f⟩)
  unfold handleFrame
  cases hr : exceptException f
      (tryFrame c st.turns.length f (st.enter ⟨f, c.dispatch st.sockValue f⟩)) with
  | ok reply st₁ =>
    rw [hr] at htry
    rw [Outcome.bind_ok]
    unfold sendAnswer
    split
    · exact htry.trans (response_kept _ _ _ st₁)
    · exact htry
  | raised e st₁ => rw [hr] at htry; exact htry
  | blocked st₁ => rw [hr] at htry; exact htry

/-! ### The loop as a run of turns -/

theorem receive_ok {st st' : Client} {f : Frame} (h : st.receive = .ok f st') :
    st'.inbox.length < st.inbox.length ∧ st'.turns = st.turns := by
  unfold Client.receive at h
  split at h
  · cases hrecv : rpcReceiveData st.inbox with
    | ok f' inbox =>
      rw [hrecv, Outcome.lift_ok] at h
      obtain ⟨got, hcons, hlen, _⟩ := rpcReceiveData_ok hrecv
      have hshort := hcons.shorter
      cases h
      refine ⟨?_, rfl⟩
      show inbox.length < _
      omega
    | raised e inbox => rw [hrecv] at h; cases h
    | blocked inbox => rw [hrecv] at h; cases h
  · cases h

theorem receive_pause {st st' : Client} (h : st.receive = .raised .timeoutError st') :
    st'.inbox.length < st.inbox.length := by
  unfold Client.receive at h
  split at h
  · cases hrecv : rpcReceiveData st.inbox with
    | ok f inbox => rw [hrecv] at h; cases h
    | raised e inbox =>
      rw [hrecv, Outcome.lift_raised] at h
      obtain ⟨he, rfl⟩ := Outcome.raised.inj h
      exact (rpcReceiveData_raised hrecv).pause he
    | blocked inbox => rw [hrecv] at h; cases h
  · cases h

theorem receive_turns (st : Client) : st.receive.state.turns = st.turns := by
  unfold Client.receive
  split
  · cases rpcReceiveData st.inbox <;> rfl
  · rfl

theorem leave_exit (e : PyExn) (st : Client) :
    ∃ exit st', leave e st = (some exit, st') ∧ exit ≠ .waiting ∧ st'.turns = st.turns ∧
      st'.continuous = st.continuous := by
  unfold leave
  split
  · exact ⟨.closed, st.close, rfl, nofun, rfl, rfl⟩
  · exact ⟨.escaped e, st, rfl, nofun, rfl, rfl⟩

theorem leave_turns (e : PyExn) (st : Client) : (leave e st).2.turns = st.turns := by
  obtain ⟨exit, st', hexit, _, hturns, _⟩ := leave_exit e st
  rw [hexit]
  exact hturns

/-- A turn that goes on has used up some of the stream. -/
theorem loopStep_again {c : Subscription} {st st' : Client} (h : loopStep c st = (none, st')) :
    st'.inbox.length < st.inbox.length := by
  have hleave : ∀ e st₁, leave e st₁ ≠ (none, st') := by
    intro e st₁ heq
    obtain ⟨exit, st₂, hexit, _⟩ := leave_exit e st₁
    rw [hexit] at heq
    cases heq
  unfold loopStep at h
  split at h
  · cases hrecv : st.receive with
    | blocked st₁ => rw [hrecv] at h; cases h
    | raised e st₁ =>
      rw [hrecv] at h
      dsimp only at h
      split at h
      · next he =>
        cases h
        exact receive_pause (he ▸ hrecv)
      · exact absurd h (hleave e st₁)
    | ok f st₁ =>
      rw [hrecv] at h
      dsimp only at h
      have hkept := (handleFrame_kept c f st₁).inbox
      cases hhandle : handleFrame c f st₁ with
      | blocked st₂ => rw [hhandle] at h; cases h
      | raised e st₂ =>
        rw [hhandle] at h
        exact absurd h (hleave e st₂)
      | ok u st₂ =>
        rw [hhandle] at h hkept
        have hinbox : st'.inbox = st₂.inbox := by
          obtain ⟨-, rfl⟩ := Prod.mk.inj h
          unfold reenter
          split <;> rfl
        rw [hinbox, show st₂.inbox = st₁.inbox from hkept]
        exact (receive_ok hrecv).1
  · cases h

theorem loop_enough (c : Subscription) : ∀ (n m : Nat) (st : Client), st.inbox.length < n →
    st.inbox.length < m → loop c n st = loop c m st := by
  intro n
  induction n with
  | zero => intro m st hn; exact absurd hn (Nat.not_lt_zero _)
  | succ n ih =>
    intro m st hn hm
    obtain ⟨m, rfl⟩ : ∃ k, m = k + 1 := ⟨m - 1, by omega⟩
    unfold loop
    cases hstep : loopStep c st with
    | mk exit st' =>
      cases exit with
      | some x => rfl
      | none =>
        have hshort := loopStep_again hstep
        exact ih m st' (by omega) (by omega)

/-- The loop entered in a given state, with as many turns as it needs. -/
def subscribeRun (c : Subscription) (st : Client) : Exit × Client := loop c (st.inbox.length + 1) st

/-- **The loop takes one turn and goes on.** -/
theorem subscribeRun_eq (c : Subscription) (st : Client) :
    subscribeRun c st = match loopStep c st with
      | (none, st') => subscribeRun c st'
      | (some exit, st') => (exit, st') := by
  show loop c (st.inbox.length + 1) st = _
  unfold loop
  cases hstep : loopStep c st with
  | mk exit st' =>
    cases exit with
    | some x => rfl
    | none => exact loop_enough c _ _ st' (loopStep_again hstep) (Nat.lt_succ_self _)

/-- Every turn of a run was dispatched by the frame it received. -/
theorem loop_turns (c : Subscription) (n : Nat) : ∀ (st : Client),
    ∀ t ∈ (loop c n st).2.turns, t ∈ st.turns ∨ ∃ sock, t.dispatch = c.dispatch sock t.frame := by
  have hstep : ∀ st : Client, ∀ t ∈ (loopStep c st).2.turns,
      t ∈ st.turns ∨ ∃ sock, t.dispatch = c.dispatch sock t.frame := by
    intro st t ht
    unfold loopStep at ht
    split at ht
    · have hrecv := receive_turns st
      cases hr : st.receive with
      | blocked st₁ =>
        rw [hr] at ht hrecv
        rw [← hrecv]; exact Or.inl ht
      | raised e st₁ =>
        rw [hr] at ht hrecv
        dsimp only at ht
        split at ht
        · rw [← hrecv]; exact Or.inl ht
        · rw [leave_turns] at ht
          rw [← hrecv]; exact Or.inl ht
      | ok f st₁ =>
        rw [hr] at ht hrecv
        dsimp only at ht
        have hkept := (handleFrame_kept c f st₁).turns
        have hturns : t ∈ (handleFrame c f st₁).state.turns := by
          cases hh : handleFrame c f st₁ with
          | blocked st₂ => rw [hh] at ht; exact ht
          | raised e st₂ => rw [hh] at ht; dsimp only at ht; rw [leave_turns] at ht; exact ht
          | ok u st₂ => rw [hh] at ht; dsimp only [reenter] at ht; split at ht <;> exact ht
        rw [hkept] at hturns
        rcases List.mem_append.mp hturns with h | h
        · rw [← hrecv]; exact Or.inl h
        · rw [List.mem_singleton.mp h]
          exact Or.inr ⟨st₁.sockValue, rfl⟩
    · exact Or.inl ht
  induction n with
  | zero => intro st t ht; exact Or.inl ht
  | succ n ih =>
    intro st t ht
    unfold loop at ht
    have hone := hstep st
    cases hs : loopStep c st with
    | mk exit st' =>
      rw [hs] at ht hone
      cases exit with
      | some x => exact hone t ht
      | none =>
        rcases ih st' t ht with h | h
        · exact hone t h
        · exact Or.inr h

/-! ### Turns on a healthy socket -/

/-- The socket `i` is open and accepts what is sent, and the loop is to go on. -/
structure Client.Healthy (i : Nat) (st : Client) : Prop where
  sock : st.sock = some i
  accepting : st.outlet.Accepting
  continuous : st.continuous = true

theorem Client.Healthy.setInbox {i : Nat} {st : Client} (h : st.Healthy i) (inbox : Inbox) :
    (st.setInbox inbox).Healthy i := ⟨h.sock, h.accepting, h.continuous⟩

structure FrameEnd.GoesOn (r : FrameEnd) : Prop where
  result : r.result = .ok ()
  cleared : r.cleared = false

variable {c : Subscription} {i : Nat} {st : Client} {inbox : Inbox}

theorem receive_healthy (h : st.Healthy i) :
    st.receive = (rpcReceiveData st.inbox).lift st.setInbox := by
  unfold Client.receive
  rw [h.sock]

theorem run_blocked (h : st.Healthy i) (hrecv : rpcReceiveData st.inbox = .blocked inbox) :
    subscribeRun c st = (.waiting, st.setInbox inbox) := by
  rw [subscribeRun_eq, loopStep, if_pos h.continuous, receive_healthy h, hrecv]
  rfl

theorem run_pause (h : st.Healthy i)
    (hrecv : rpcReceiveData st.inbox = .raised .timeoutError inbox) :
    subscribeRun c st = subscribeRun c (st.setInbox inbox) := by
  rw [subscribeRun_eq, loopStep, if_pos h.continuous, receive_healthy h, hrecv]
  rfl

theorem run_cleared (h : st.continuous = false) : subscribeRun c st = (.closed, st.close) := by
  rw [subscribeRun_eq, loopStep, if_neg (by rw [h]; decide)]

theorem run_raised (h : st.Healthy i) {e : PyExn}
    (hrecv : rpcReceiveData st.inbox = .raised e inbox)
    (he : e ≠ .timeoutError) :
    ∃ exit st', subscribeRun c st = (exit, st') ∧ st'.turns = st.turns := by
  obtain ⟨exit, st', hexit, _, hturns, _⟩ := leave_exit e (st.setInbox inbox)
  rw [subscribeRun_eq, loopStep, if_pos h.continuous, receive_healthy h, hrecv, Outcome.lift_raised]
  dsimp only
  rw [if_neg he, hexit]
  exact ⟨exit, st', rfl, hturns⟩

theorem Client.Took.reenter {st st' : Client} {turn : Turn} {sent : List Bytes} {cleared : Bool}
    (h : st.Took turn sent cleared st') (c : Subscription) :
    st.Took turn sent cleared (reenter c st') := by
  unfold Subscribe.reenter
  split
  · exact ⟨h.inbox, h.sent, h.accepting, h.turns, h.sock, h.continuous⟩
  · exact h

theorem run_handled (h : st.Healthy i) {f : Frame} {u : Unit} {st' : Client}
    (hrecv : rpcReceiveData st.inbox = .ok f inbox)
    (hframe : handleFrame c f (st.setInbox inbox) = .ok u st') :
    subscribeRun c st = subscribeRun c (reenter c st') := by
  rw [subscribeRun_eq, loopStep, if_pos h.continuous, receive_healthy h, hrecv, Outcome.lift_ok]
  dsimp only
  rw [hframe]

theorem run_failed (h : st.Healthy i) {f : Frame} {e : PyExn} {st' : Client}
    (hrecv : rpcReceiveData st.inbox = .ok f inbox)
    (hframe : handleFrame c f (st.setInbox inbox) = .raised e st') :
    ∃ exit st'', subscribeRun c st = (exit, st'') ∧ exit ≠ .waiting ∧ st''.turns = st'.turns ∧
      st''.continuous = st'.continuous := by
  obtain ⟨exit, st'', hexit, hwait, hturns, hcont⟩ := leave_exit e st'
  rw [subscribeRun_eq, loopStep, if_pos h.continuous, receive_healthy h, hrecv, Outcome.lift_ok]
  dsimp only
  rw [hframe]
  dsimp only
  rw [hexit]
  exact ⟨exit, st'', rfl, hwait, hturns, hcont⟩

/-- **A frame on a healthy socket.**  The turn is the one `frameEnd` describes, and
    the loop either goes on from there or ends. -/
theorem run_frame (c : Subscription) (h : st.Healthy i) {f : Frame}
    (hrecv : rpcReceiveData st.inbox = .ok f inbox) :
    ∃ st', (st.setInbox inbox).Took ⟨f, c.dispatch (.sock i) f⟩
        (frameEnd c st.turns.length (.sock i) f).sent
        (frameEnd c st.turns.length (.sock i) f).cleared st' ∧
      ((frameEnd c st.turns.length (.sock i) f).GoesOn →
        st'.Healthy i ∧ subscribeRun c st = subscribeRun c st') ∧
      (¬ (frameEnd c st.turns.length (.sock i) f).GoesOn → ∃ exit st'',
        subscribeRun c st = (exit, st'') ∧ exit ≠ .waiting ∧ st''.turns = st'.turns ∧
          st''.continuous = st'.continuous) := by
  have hvalue : (st.setInbox inbox).sockValue = .sock i := by
    unfold Client.sockValue
    rw [(h.setInbox inbox).sock]
  obtain ⟨st', hframe, htook⟩ := handleFrame_healthy c f (h.setInbox inbox).accepting
    (h.setInbox inbox).sock
  rw [hvalue] at hframe htook
  have hturns : (st.setInbox inbox).turns = st.turns := rfl
  rw [hturns] at hframe htook
  generalize frameEnd c st.turns.length (.sock i) f = r at hframe htook ⊢
  have hagain := htook.reenter c
  cases hresult : r.result with
  | error e =>
    rw [hresult, Outcome.ofExcept_error] at hframe
    refine ⟨st', htook, fun hgo => ?_, fun _ => run_failed h hrecv hframe⟩
    rw [hgo.result] at hresult
    cases hresult
  | ok u =>
    rw [hresult, Outcome.ofExcept_ok] at hframe
    have hstep := run_handled h hrecv hframe
    refine ⟨reenter c st', hagain, fun hgo => ?_, fun hstop => ?_⟩
    · refine ⟨⟨?_, hagain.accepting, ?_⟩, hstep⟩
      · rw [hagain.sock, hgo.cleared]
        exact h.sock
      · rw [hagain.continuous, hgo.cleared]
        exact (Bool.and_true _).trans h.continuous
    · have hcleared : r.cleared = true := by
        by_contra hno
        exact hstop ⟨hresult, Bool.eq_false_iff.mpr hno⟩
      have hcont : (reenter c st').continuous = false := by
        rw [hagain.continuous, hcleared]
        exact Bool.and_false _
      rw [run_cleared hcont] at hstep
      exact ⟨.closed, _, hstep, by decide, rfl, rfl⟩

/-! ### Runs over the frames of a stream -/

/-- The turns taken for frames received one after the other. -/
def turnsOver (c : Subscription) (sock : PyValue) (fs : List Frame) : List Turn :=
  fs.map fun f => ⟨f, c.dispatch sock f⟩

/-- Every frame's turn leaves the loop running; `n` counts the turns. -/
def GoOn (c : Subscription) (sock : PyValue) : Nat → List Frame → Prop
  | _, [] => True
  | n, f :: fs => (frameEnd c n sock f).GoesOn ∧ GoOn c sock (n + 1) fs

def sentOver (c : Subscription) (sock : PyValue) : Nat → List Frame → List (List Bytes)
  | _, [] => []
  | n, f :: fs => (frameEnd c n sock f).sent :: sentOver c sock (n + 1) fs

theorem Client.Took.length_turns {st st' : Client} {turn : Turn} {sent : List Bytes}
    {cleared : Bool}
    (h : st.Took turn sent cleared st') : st'.turns.length = st.turns.length + 1 := by
  rw [h.turns, List.length_append]
  rfl

theorem goOn_append {sock : PyValue} (fs later : List Frame) : ∀ n,
    GoOn c sock n (fs ++ later) ↔ GoOn c sock n fs ∧ GoOn c sock (n + fs.length) later := by
  induction fs with
  | nil => intro n; simp [GoOn]
  | cons f fs ih =>
    intro n
    have hcount : n + 1 + fs.length = n + (f :: fs).length := by
      rw [List.length_cons]
      omega
    rw [List.cons_append, GoOn, ih, hcount, GoOn, and_assoc]

theorem turnsOver_append (c : Subscription) (sock : PyValue) (fs later : List Frame) :
    turnsOver c sock (fs ++ later) = turnsOver c sock fs ++ turnsOver c sock later :=
  List.map_append

/-- The loop has taken a turn for each of the frames and is where the stream is
    used up. -/
structure RanOver (c : Subscription) (i : Nat) (st : Client) (fs : List Frame) (tail : Inbox)
    (st' : Client) : Prop where
  healthy : st'.Healthy i
  run : subscribeRun c st = subscribeRun c st'
  inbox : st'.inbox = tail
  turns : st'.turns = st.turns ++ turnsOver c (.sock i) fs
  sent : st'.outlet.sent = st.outlet.sent ++
    (sentOver c (.sock i) st.turns.length fs).flatten.flatten

/-- The loop has gone on for the frames `fs` and ended in the turn of `f`. -/
structure EndedIn (c : Subscription) (i : Nat) (st : Client) (fs : List Frame) (f : Frame) :
    Prop where
  goOn : GoOn c (.sock i) st.turns.length fs
  stops : ¬ (frameEnd c (st.turns.length + fs.length) (.sock i) f).GoesOn
  ended : ∃ exit st', subscribeRun c st = (exit, st') ∧ exit ≠ .waiting ∧
    st'.turns = st.turns ++ turnsOver c (.sock i) (fs ++ [f]) ∧
    st'.continuous = !(frameEnd c (st.turns.length + fs.length) (.sock i) f).cleared

/-- **A run along the frames of a stream** goes through all of them, or up to the
    first whose turn ends the loop. -/
theorem run_along {fs : List Frame} {inbox tail : Inbox} (h : frames.Obtains inbox fs tail) :
    ∀ st : Client, st.Healthy i → st.inbox = inbox →
      (GoOn c (.sock i) st.turns.length fs ∧ ∃ st', RanOver c i st fs tail st') ∨
      ∃ front f later, fs = front ++ f :: later ∧ EndedIn c i st front f := by
  induction h with
  | done inbox =>
    intro st hst hinbox
    exact Or.inl ⟨trivial, st, hst, rfl, hinbox, by simp [turnsOver], by simp [sentOver]⟩
  | @pause inbox inbox' tail fs hrecv _ ih =>
    intro st hst hinbox
    have hpause : rpcReceiveData st.inbox = .raised .timeoutError inbox' := by
      rw [hinbox]
      exact hrecv
    have hrun := run_pause (c := c) hst hpause
    rcases ih (st.setInbox inbox') (hst.setInbox inbox') rfl with ⟨hgo, st', hover⟩ |
      ⟨front, f, later, hfs, hend⟩
    · exact Or.inl ⟨hgo, st', hover.healthy, hrun.trans hover.run, hover.inbox, hover.turns,
        hover.sent⟩
    · obtain ⟨exit, st', hexit, hlast⟩ := hend.ended
      exact Or.inr ⟨front, f, later, hfs, hend.goOn, hend.stops, exit, st', hrun.trans hexit, hlast⟩
  | @item inbox inbox' tail f fs hrecv _ ih =>
    intro st hst hinbox
    have hframe : rpcReceiveData st.inbox = .ok f inbox' := by rw [hinbox]; exact hrecv
    obtain ⟨st₁, htook, hon, hoff⟩ := run_frame c hst hframe
    have hturns₁ : st₁.turns = st.turns ++ turnsOver c (.sock i) [f] := htook.turns
    have hlen : st₁.turns.length = st.turns.length + 1 := htook.length_turns
    by_cases hgoes : (frameEnd c st.turns.length (.sock i) f).GoesOn
    · obtain ⟨hst₁, hrun₁⟩ := hon hgoes
      rcases ih st₁ hst₁ htook.inbox with ⟨hgo, st', hover⟩ | ⟨front, f', later, hfs, hend⟩
      · rw [hlen] at hgo
        refine Or.inl ⟨⟨hgoes, hgo⟩, st', hover.healthy, hrun₁.trans hover.run, hover.inbox, ?_, ?_⟩
        · rw [hover.turns, hturns₁, List.append_assoc, ← turnsOver_append]
          rfl
        · rw [hover.sent, htook.sent, hlen]
          simp [sentOver, Client.setInbox]
      · obtain ⟨exit, st', hexit, hwait, hturns, hcont⟩ := hend.ended
        have hgo := hend.goOn
        have hstops := hend.stops
        have hcount : st₁.turns.length + front.length = st.turns.length + (f :: front).length := by
          rw [hlen, List.length_cons]
          omega
        rw [hlen] at hgo
        rw [hcount] at hstops hcont
        refine Or.inr ⟨f :: front, f', later, by rw [hfs]; rfl, ⟨hgoes, hgo⟩, hstops, exit, st',
          hrun₁.trans hexit, hwait, ?_, hcont⟩
        rw [hturns, hturns₁, List.append_assoc, ← turnsOver_append]
        rfl
    · obtain ⟨exit, st', hexit, hwait, hturns, hcont⟩ := hoff hgoes
      refine Or.inr ⟨[], f, fs, rfl, trivial, hgoes, exit, st', hexit, hwait, ?_, ?_⟩
      · rw [hturns, hturns₁]
        rfl
      · rw [hcont, htook.continuous]
        show (st.continuous && _) = _
        rw [hst.continuous, Bool.true_and]
        rfl

/-- The loop takes a turn for every frame if none but the last ends it. -/
theorem run_all {fs : List Frame} {inbox tail : Inbox} (h : frames.Obtains inbox fs tail)
    (hend : rpcReceiveData tail = .blocked []) {st : Client} (hst : st.Healthy i)
    (hinbox : st.inbox = inbox) (hgo : GoOn c (.sock i) st.turns.length fs.dropLast) :
    (subscribeRun c st).2.turns = st.turns ++ turnsOver c (.sock i) fs := by
  rcases run_along (c := c) h st hst hinbox with ⟨_, st', hover⟩ | ⟨front, f, later, rfl, hended⟩
  · have hblocked : rpcReceiveData st'.inbox = .blocked [] := by rw [hover.inbox]; exact hend
    rw [hover.run, run_blocked hover.healthy hblocked]
    exact hover.turns
  · obtain ⟨exit, st', hexit, _, hturns, _⟩ := hended.ended
    cases later with
    | nil =>
      rw [hexit]
      exact hturns
    | cons f' later =>
      rw [List.dropLast_append_of_ne_nil (List.cons_ne_nil _ _), goOn_append] at hgo
      exact absurd hgo.2.1 hended.stops

/-- **What the loop has taken turns for it has received**, starting anew after each
    pause, and no turn but the last has ended it. -/
theorem run_obtains (c : Subscription) :
    ∀ (n : Nat) (st : Client), st.inbox.length = n → st.Healthy i →
    ∃ fs tail, (subscribeRun c st).2.turns = st.turns ++ turnsOver c (.sock i) fs ∧
      frames.Obtains st.inbox fs tail ∧ GoOn c (.sock i) st.turns.length fs.dropLast := by
  intro n
  induction n using Nat.strong_induction_on with
  | _ n ih =>
    intro st hn hst
    cases hrecv : rpcReceiveData st.inbox with
    | blocked inbox =>
      refine ⟨[], st.inbox, ?_, .done _, trivial⟩
      rw [run_blocked hst hrecv]
      simp [turnsOver, Client.setInbox]
    | raised e inbox =>
      by_cases he : e = .timeoutError
      · subst he
        have hshort := (rpcReceiveData_raised hrecv).pause rfl
        obtain ⟨fs, tail, hturns, hobt, hgo⟩ :=
          ih inbox.length (by omega) (st.setInbox inbox) rfl (hst.setInbox inbox)
        refine ⟨fs, tail, ?_, .pause hrecv hobt, hgo⟩
        rw [run_pause hst hrecv]
        exact hturns
      · obtain ⟨exit, st', hrun, hturns⟩ := run_raised (c := c) hst hrecv he
        refine ⟨[], st.inbox, ?_, .done _, trivial⟩
        rw [hrun]
        simp [turnsOver, hturns]
    | ok f inbox =>
      obtain ⟨got, hcons, hgot, _⟩ := rpcReceiveData_ok hrecv
      have hshort := hcons.shorter
      obtain ⟨st₁, htook, hon, hoff⟩ := run_frame c hst hrecv
      have hinbox₁ : st₁.inbox = inbox := htook.inbox
      have hturns₁ : st₁.turns = st.turns ++ [⟨f, c.dispatch (.sock i) f⟩] := htook.turns
      have hlen : st₁.turns.length = st.turns.length + 1 := htook.length_turns
      by_cases hgoes : (frameEnd c st.turns.length (.sock i) f).GoesOn
      · obtain ⟨hst₁, hrun₁⟩ := hon hgoes
        obtain ⟨fs, tail, hturns, hobt, hgo⟩ :=
          ih inbox.length (by omega) st₁ (by rw [hinbox₁]) hst₁
        rw [hinbox₁] at hobt
        refine ⟨f :: fs, tail, ?_, .item hrecv hobt, ?_⟩
        · rw [hrun₁, hturns, hturns₁]
          simp [turnsOver]
        · cases fs with
          | nil => exact trivial
          | cons f' fs =>
            rw [List.dropLast_cons_cons]
            exact ⟨hgoes, hlen ▸ hgo⟩
      · obtain ⟨exit, st'', hrun, _, hturns, _⟩ := hoff hgoes
        refine ⟨[f], inbox, ?_, .item hrecv (.done _), trivial⟩
        rw [hrun, hturns, hturns₁]
        rfl

end Albatross.Subscribe
