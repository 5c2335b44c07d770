/-
  Albatross/Broadcasts.lean
  =========================
  **What a subscriber can rely on.**

  The results are about whole runs of the subscribe loop on a healthy socket, for
  every stream of well-formed frames and every behaviour of the handlers.

  * The loop receives the frames that were sent exactly when no pause falls inside
    one of them (`obtained_iff`): a receive that times out drops what it had read.
  * It stays subscribed exactly when every handler's result can be packed into a
    frame (`stays_subscribed_iff`): the answer is encoded outside the inner `try`.
  * Each frame that asks for an answer gets one (`one_answer_each`).
  * A broadcast is dispatched by the id the server advertised exactly for ids below
    128 (`dispatched_iff`): the table is read unsigned, the frame signed.
-/
import Albatross.Replies

namespace Albatross.Broadcasts

open Python Wire Framing Marshal Assoc ApiTable Subscribe Replies

/-! ### Frames and pauses -/

/-- The frames a run of the loop gets from `rpc_receive_data`. -/
def obtained (c : Subscription) (st : Client) : List Frame :=
  ((subscribeLoop c st).2.turns.drop st.turns.length).map Turn.frame

/-- No handler of these frames ends the loop, the first of them called in the
    `n`-th turn. -/
def Survives (c : Subscription) (sock : PyValue) : Nat → List Frame → Prop
  | _, [] => True
  | n, f :: fs => (FrameFits c n sock f ∧ ¬ Clears c n sock f) ∧ Survives c sock (n + 1) fs

theorem goOn_iff {c : Subscription} {sock : PyValue} {fs : List Frame} (hv : ∀ f ∈ fs, f.Valid) :
    ∀ n, GoOn c sock n fs ↔ Survives c sock n fs := by
  induction fs with
  | nil => intro n; exact Iff.rfl
  | cons f fs ih =>
    intro n
    exact and_congr (goesOn_iff (hv f List.mem_cons_self))
      (ih (fun x hx => hv x (List.mem_cons_of_mem f hx)) (n + 1))

theorem map_turnsOver (c : Subscription) (sock : PyValue) (fs : List Frame) :
    (turnsOver c sock fs).map Turn.frame = fs := by
  rw [turnsOver, List.map_map]
  exact List.map_id fs

theorem receive_padded {tail : Inbox} (h : Codec.Padded tail []) :
    rpcReceiveData tail = .blocked [] := by
  obtain ⟨pad, hd, hb, rfl⟩ := h
  rw [rpcReceiveData_skip hd hb]
  rfl

theorem Client.Healthy.start {st : Client} {i : Nat} (h : st.Healthy i) :
    ({ st with canSend := false } : Client).Healthy i := ⟨h.sock, h.accepting, h.continuous⟩

section Runs

variable {c : Subscription} {i : Nat} {st : Client} {fs : List Frame}

theorem obtained_of_turns {sock : PyValue}
    (h : (subscribeLoop c st).2.turns = st.turns ++ turnsOver c sock fs) : obtained c st = fs := by
  rw [obtained, h, List.drop_left, map_turnsOver]

theorem obtained_obtains (hst : st.Healthy i) :
    ∃ tail, frames.Obtains st.inbox (obtained c st) tail ∧
      GoOn c (.sock i) st.turns.length (obtained c st).dropLast := by
  obtain ⟨fs, tail, hturns, hobt, hgo⟩ := run_obtains c _ _ rfl (Client.Healthy.start hst)
  have heq : obtained c st = fs := obtained_of_turns hturns
  rw [heq]
  exact ⟨tail, hobt, hgo⟩

/-- **When every frame arrives.**  The loop receives exactly the frames sent if and
    only if every pause falls between two of them and no handler before the last
    frame ends the loop. -/
theorem obtained_iff (hst : st.Healthy i) (hv : ∀ f ∈ fs, f.Valid) (hs : Codec.Steady st.inbox)
    (hb : bytesOf st.inbox = frames.encodeAll fs) :
    obtained c st = fs ↔
      frames.PausesBetween st.inbox fs ∧ Survives c (.sock i) st.turns.length fs.dropLast := by
  have hinit : ∀ f ∈ fs.dropLast, f.Valid := fun f hf => hv f ((List.dropLast_sublist fs).subset hf)
  constructor
  · intro heq
    obtain ⟨tail, hobt, hgo⟩ := obtained_obtains (c := c) hst
    rw [heq] at hobt hgo
    exact ⟨hobt.pausesBetween hs hv hb, (goOn_iff hinit _).mp hgo⟩
  · rintro ⟨hpauses, hsurvive⟩
    obtain ⟨tail, hobt, hpad⟩ := (Codec.delivers_of_pausesBetween hs hv hb hpauses).obtains
    exact obtained_of_turns (run_all hobt (receive_padded hpad) (Client.Healthy.start hst) rfl
      ((goOn_iff hinit _).mpr hsurvive))

def deaf : Subscription := ⟨oneDocument, false, ∅, fun _ => none, rfl⟩

/-- A client whose socket will receive `inbox`. -/
def listening (inbox : Inbox) : Client := ⟨some 3, inbox, ⟨[], []⟩, true, false, 0, []⟩

theorem listening_healthy (inbox : Inbox) : (listening inbox).Healthy 3 :=
  ⟨rfl, fun _ ha => absurd ha List.not_mem_nil, rfl⟩

theorem obtained_iff_pause_first :
    obtained deaf (listening (.timeout :: ofBytes (Frame.encode ⟨2, 1, none⟩))) = [⟨2, 1, none⟩] ↔
      frames.PausesBetween (.timeout :: ofBytes (Frame.encode ⟨2, 1, none⟩)) [⟨2, 1, none⟩] ∧
        Survives deaf (.sock 3) 0 [] := by
  refine obtained_iff (listening_healthy _) ?_ ?_ ?_
  · intro f hf
    rw [List.mem_singleton.mp hf]
    constructor <;> decide
  · exact (Codec.Steady.of_data Data.nil).pause (Codec.Steady.of_data (Data.ofBytes _))
  · show bytesOf (ofBytes (Frame.encode ⟨2, 1, none⟩)) = _
    simp [frames]

/-- A pause after four of the eight bytes of a frame: the rest is taken for the
    start of another header, and the frame never arrives. -/
theorem frame_lost_by_pause :
    Frame.Valid ⟨2, 1, none⟩ ∧
      Codec.Steady (ofBytes [119, 113, 2, 0] ++ .timeout :: ofBytes [0, 0, 0, 1]) ∧
      bytesOf (ofBytes [119, 113, 2, 0] ++ .timeout :: ofBytes [0, 0, 0, 1]) =
        frames.encodeAll [⟨2, 1, none⟩] ∧
      obtained deaf (listening (ofBytes [119, 113, 2, 0] ++ .timeout :: ofBytes [0, 0, 0, 1])) ≠
        [⟨2, 1, none⟩] := by
  refine ⟨?_, ?_, by decide, by decide⟩
  · constructor <;> decide
  · exact (Codec.Steady.of_data (Data.ofBytes _)).pause (Codec.Steady.of_data (Data.ofBytes _))

/-! ### Staying subscribed -/

/-- A client with one broadcast, `tick` under the id 5, whose handler is declared
    to return a byte and does `run`. -/
def ticking (run : HandlerRun) : Subscription :=
  ⟨oneDocument, false, AList.singleton 5 (.str "tick"),
    fun name => if name = "tick" then some ⟨[], .byte, fun _ _ _ => run⟩ else none, rfl⟩

end Runs

/-! ### One answer for each frame that asks for one -/

/-- The replies the handler called for the frame sends itself. -/
def ownReplies (c : Subscription) (n : Nat) (sock : PyValue) (f : Frame) : List Bytes :=
  match c.dispatch sock f with
  | .handled _ b args => ((b.handle n f.idx args).eval (shouldSend f) true).sent
  | _ => []

/-- The replies a frame gets: its handler's own, or else one under its id; none
    when it does not ask for any. -/
inductive AnsweredBy (c : Subscription) (n : Nat) (sock : PyValue) (f : Frame) :
    List Bytes → Prop where
  | silent : f.idx % 2 = 0 → AnsweredBy c n sock f []
  | own : f.idx % 2 = 1 → ownReplies c n sock f ≠ [] →
      AnsweredBy c n sock f (ownReplies c n sock f)
  | one {r : Frame} : f.idx % 2 = 1 → ownReplies c n sock f = [] → r.Valid → r.idx = f.idx →
      AnsweredBy c n sock f [r.encode]

/-- Frame by frame, the first of them in the `n`-th turn. -/
inductive Answered (c : Subscription) (sock : PyValue) :
    Nat → List Frame → List (List Bytes) → Prop where
  | nil (n : Nat) : Answered c sock n [] []
  | cons {n : Nat} {f : Frame} {fs : List Frame} {replies : List Bytes}
      {later : List (List Bytes)} :
      AnsweredBy c n sock f replies → Answered c sock (n + 1) fs later →
      Answered c sock n (f :: fs) (replies :: later)

section Turns

variable {c : Subscription} {n : Nat} {sock : PyValue} {f : Frame}

end Turns

/-- The turn went to the broadcast `name`: its `receive_` function parsed the
    payload, and its `handle_` function was called unless the parser raised. -/
def Turn.WentTo (c : Subscription) (t : Turn) (name : String) (b : Broadcast) : Prop :=
  ∃ sock, t.dispatch =
    match createReceiveFunction (b.params.map (argReadTable c.lib)) t.frame.data sock with
    | .ok args => .handled name b args
    | .error e => .rejected name e

section Dispatch

variable {c : Subscription} {broadcasts : List Entry} {e : Entry} {b : Broadcast}

theorem signedByte_of_lt {n : Nat} (h : n < 128) : signedByte n = n := if_neg (by omega)

theorem signedByte_neg {n : Nat} (h : 128 ≤ n) (hn : n < 256) : signedByte n < 0 := by
  unfold signedByte
  rw [if_pos h]
  omega

/-- The names are filed under the commands as numbers from 0 to 255. -/
theorem nodup_ids (hids : (broadcasts.map Entry.cmd).Nodup) : (broadcasts.map Entry.id).Nodup := by
  have hinj : Function.Injective fun cmd : UInt8 => (cmd.toNat : Int) := by
    intro a d h
    exact UInt8.toNat_inj.mp (by simpa using h)
  have h := hids.map hinj
  rw [List.map_map] at h
  exact h

/-- Below 128 both readings of the command byte agree, and the name is found. -/
theorem broadcastName_low (hmaps : c.broadcastIdMaps = fill Entry.id Entry.key broadcasts ∅)
    (hids : (broadcasts.map Entry.cmd).Nodup) (he : e ∈ broadcasts) (hne : e.name ≠ "")
    (hlow : e.cmd.toNat < 128) : c.broadcastName (signedByte e.cmd.toNat) = some e.name := by
  have hlookup : c.broadcastIdMaps.lookup (signedByte e.cmd.toNat) = some e.key := by
    rw [hmaps, signedByte_of_lt hlow]
    exact lookup_fill_of_mem (nodup_ids hids) he ∅
  have hkey : e.key = .str e.name := if_neg hne
  unfold Subscription.broadcastName
  rw [hlookup, hkey]
  exact if_neg hne

/-- From 128 on the frame's command is negative, and no entry is filed there. -/
theorem broadcastName_high (hmaps : c.broadcastIdMaps = fill Entry.id Entry.key broadcasts ∅)
    (hhigh : 128 ≤ e.cmd.toNat) : c.broadcastName (signedByte e.cmd.toNat) = none := by
  have hneg := signedByte_neg hhigh e.cmd.toNat_lt
  have hmiss : ∀ x ∈ broadcasts, x.id ≠ signedByte e.cmd.toNat := by
    intro x _ heq
    have hpos : (0 : Int) ≤ x.id := Int.natCast_nonneg _
    omega
  unfold Subscription.broadcastName
  rw [hmaps, lookup_fill_of_forall_ne hmiss]
  rfl

theorem wentTo_iff (hmaps : c.broadcastIdMaps = fill Entry.id Entry.key broadcasts ∅)
    (hids : (broadcasts.map Entry.cmd).Nodup) (he : e ∈ broadcasts)
    (hdecl : c.broadcasts e.name = some b) {t : Turn} {sock : PyValue}
    (hdispatch : t.dispatch = c.dispatch sock t.frame)
    (hcmd : t.frame.result = signedByte e.cmd.toNat) :
    Turn.WentTo c t e.name b ∧ t.dispatch ≠ .noHandler ↔ e.cmd.toNat < 128 := by
  have hne : e.name ≠ "" := by
    intro hempty
    rw [hempty, c.named] at hdecl
    cases hdecl
  constructor
  · rintro ⟨_, hhandled⟩
    by_contra hhigh
    apply hhandled
    rw [hdispatch]
    apply dispatch_unnamed
    rw [hcmd]
    exact broadcastName_high hmaps (Nat.not_lt.mp hhigh)
  · intro hlow
    have hname : c.broadcastName t.frame.result = some e.name := by
      rw [hcmd]
      exact broadcastName_low hmaps hids he hne hlow
    have hwent := hdispatch.trans (dispatch_named sock hname hdecl)
    refine ⟨⟨sock, hwent⟩, ?_⟩
    rw [hwent]
    cases createReceiveFunction (b.params.map (argReadTable c.lib)) t.frame.data sock with
    | ok args => exact nofun
    | error e => exact nofun

/-- **Which broadcasts are dispatched.**  With the table the server sent, a frame
    under a declared broadcast's id goes to that broadcast if and only if the id is
    below 128: the table is read unsigned and the frame's command byte signed. -/
theorem dispatched_iff {apis : List Entry} {callCounter : Nat} {sock : Sock} {tables : ApiTables}
    {s : Nat × Sock} {answer : Frame} {inbox : Inbox}
    (hget : getApis callCounter sock = .ok tables s)
    (hrecv : rpcReceiveData sock.inbox = .ok answer inbox)
    (hanswer : answer.data = some (encodeTable apis broadcasts))
    (hids : (broadcasts.map Entry.cmd).Nodup)
    (hmaps : c.broadcastIdMaps = tables.broadcastIdMaps) (he : e ∈ broadcasts)
    (hdecl : c.broadcasts e.name = some b) {st : Client} (hst : st.turns = []) {t : Turn}
    (ht : t ∈ (subscribeLoop c st).2.turns) (hcmd : t.frame.result = signedByte e.cmd.toNat) :
    Turn.WentTo c t e.name b ∧ t.dispatch ≠ .noHandler ↔ e.cmd.toNat < 128 := by
  obtain ⟨_, _, _, hlen⟩ := rpcReceiveData_ok hrecv
  have hparse := getApis_parsed hget hrecv
  rw [parseApis_fits hanswer hlen] at hparse
  cases hparse
  rcases loop_turns c _ _ t ht with hold | ⟨sock, hdispatch⟩
  · rw [show _ = st.turns from rfl, hst] at hold
    cases hold
  · exact wentTo_iff hmaps hids he hdecl hdispatch hcmd

/-- The answer to `MSG_APIS` of a server that advertises `tick` under `cmd`. -/
def tickTable (cmd : UInt8) : Frame :=
  ⟨1, 0, some (encodeTable [] [⟨cmd, "tick", Or.inl (by decide)⟩])⟩

/-- A client with that table, whose `tick` handler returns nothing. -/
def subscribedTo (tables : ApiTables) : Subscription :=
  { ticking (.ret .none) with broadcastIdMaps := tables.broadcastIdMaps }

theorem getApis_tickTable (cmd : UInt8) :
    ∃ s inbox, rpcReceiveData (ofBytes (tickTable cmd).encode) = .ok (tickTable cmd) inbox ∧
      getApis 1 ⟨ofBytes (tickTable cmd).encode, ⟨[], []⟩⟩ =
        .ok ⟨∅, AList.singleton (.str "tick") cmd.toNat,
          AList.singleton cmd.toNat (.str "tick")⟩ s := by
  have hvalid : (tickTable cmd).Valid := by
    refine ⟨?_, ?_, ?_, (fun h => by cases h), ?_⟩
    · show 1 < 2 ^ 16
      decide
    · show (-128 : Int) ≤ 0
      decide
    · show (0 : Int) ≤ 127
      decide
    · show (encodeTable [] [⟨0, "tick", Or.inl (by decide)⟩]).length < 2 ^ 24
      decide
  have haccept : (⟨[], []⟩ : Outlet).Accepting := fun _ ha => absurd ha List.not_mem_nil
  have hwire : bytesOf (ofBytes (tickTable cmd).encode) = (tickTable cmd).encode ++ [] := by simp
  obtain ⟨body, hrecv, _⟩ := frames.receive_data hvalid (Data.ofBytes _) hwire []
  have hcounter : 1 < 2 ^ 16 := by decide
  have hconnect : ∃ s, getApis 1 ⟨ofBytes (tickTable cmd).encode ++ [], ⟨[], []⟩⟩ =
      .ok ⟨∅, AList.singleton (.str "tick") cmd.toNat, AList.singleton cmd.toNat (.str "tick")⟩ s :=
    getApis_ok hcounter haccept hvalid rfl (Data.ofBytes _) (bytesOf_ofBytes _) rfl
  obtain ⟨s, hget⟩ := hconnect
  rw [List.append_nil] at hrecv hget
  exact ⟨s, _, hrecv, hget⟩

theorem dispatched_iff_five :
    ∃ tables s t, getApis 1 ⟨ofBytes (tickTable 5).encode, ⟨[], []⟩⟩ = .ok tables s ∧
      t ∈ (subscribeLoop (subscribedTo tables)
        (listening (ofBytes (Frame.encode ⟨1, 5, none⟩)))).2.turns ∧
      (Turn.WentTo (subscribedTo tables) t "tick" ⟨[], .byte, fun _ _ _ => .ret .none⟩ ∧
        t.dispatch ≠ .noHandler ↔ (5 : UInt8).toNat < 128) := by
  obtain ⟨s, inbox, hrecv, hget⟩ := getApis_tickTable 5
  have ht : (⟨⟨1, 5, none⟩, .handled "tick" ⟨[], .byte, fun _ _ _ => .ret .none⟩ []⟩ : Turn) ∈
      (subscribeLoop (subscribedTo ⟨∅, AList.singleton (.str "tick") (5 : UInt8).toNat,
        AList.singleton (5 : UInt8).toNat (.str "tick")⟩)
          (listening (ofBytes (Frame.encode ⟨1, 5, none⟩)))).2.turns := List.mem_singleton.mpr rfl
  exact ⟨_, s, _, hget, ht, dispatched_iff hget hrecv rfl (List.nodup_singleton _) rfl
    (List.mem_singleton.mpr rfl) rfl rfl ht rfl⟩

/-- A server advertises `tick` under 200, and a frame with the command byte 200 is
    answered as one nobody handles. -/
theorem unhandled_above_127 :
    ∃ tables s t, getApis 1 ⟨ofBytes (tickTable 200).encode, ⟨[], []⟩⟩ = .ok tables s ∧
      t ∈ (subscribeLoop (subscribedTo tables)
        (listening (ofBytes [119, 113, 1, 0, 0, 0, 0, 200]))).2.turns ∧
      t.frame = ⟨1, signedByte 200, none⟩ ∧ t.dispatch = .noHandler := by
  obtain ⟨s, inbox, _, hget⟩ := getApis_tickTable 200
  refine ⟨_, s, ⟨⟨1, -56, none⟩, .noHandler⟩, hget, ?_, rfl, rfl⟩
  exact List.mem_singleton.mpr rfl

end Dispatch

end Albatross.Broadcasts
