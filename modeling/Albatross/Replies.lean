/-
  Albatross/Replies.lean
  ======================
  **When a turn of the subscribe loop can be answered.**

  The answer to a frame is packed outside the inner `try`, so what cannot be packed
  ends the loop.  The convertors of most declared types check the value a handler
  returned, or raise and leave the default answer; `byte` and `bytes` pass it on as
  it is.  `frameFits_iff` says from the handler's end alone when a turn goes on.
-/
import Albatross.SubscribeRun

namespace Albatross.Replies

open Python Wire Framing Marshal Assoc ApiTable Subscribe

/-! ### When an answer can be packed -/

/-- The result of a handler of the declared type `ret` can be sent under the
    frame's id: only the results of `byte` and `bytes` handlers reach
    `struct.pack` and the payload unchecked. -/
def ReplyFits (ret : RetType) (f : Frame) (v : PyValue) : Prop :=
  match ret with
  | .byte => v = .none ∨ ∃ b, v.asInt = some b ∧ -256 ≤ b ∧ b ≤ 255
  | .bytes => v.truth = .ok false ∨
      ∃ bs, v = .bytes bs ∧ bs.length + (f.result % 256).toNat * 2 ^ 24 < 2 ^ 32
  | _ => True

theorem length_none : ((none : Option Bytes).getD []).length < 2 ^ 24 := by simp

theorem packFrame_small {idx : Nat} (hidx : idx < 2 ^ 16) {c : Int} (hlo : -256 ≤ c) (hhi : c ≤ 255)
    {data : Option Bytes} (hlen : (data.getD []).length < 2 ^ 24) :
    ∃ r : Frame, r.Valid ∧ r.idx = idx ∧
      packFrame (.ofData data) (.int idx) (.int c) = .ok r.encode := by
  have hbyte : (c % 256).toNat < 256 := by omega
  have hword : wordOf (data.getD []).length c < 2 ^ 32 := by
    unfold wordOf
    omega
  have hsigned : signedByte (c % 256).toNat % 256 = c % 256 := by
    unfold signedByte
    split <;> omega
  refine ⟨⟨idx, signedByte (c % 256).toNat, payloadOf (data.getD [])⟩, ?_, rfl, ?_⟩
  · refine ⟨hidx, ?_, ?_, ?_, ?_⟩
    · show -128 ≤ signedByte (c % 256).toNat
      unfold signedByte
      split <;> omega
    · show signedByte (c % 256).toNat ≤ 127
      unfold signedByte
      split <;> omega
    · show payloadOf (data.getD []) ≠ some []
      unfold payloadOf
      split <;> simp_all
    · show ((payloadOf (data.getD [])).getD []).length < 2 ^ 24
      rw [getD_payloadOf]
      exact hlen
  · rw [packFrame_int hidx hlo hhi, if_pos hword, Frame.encode]
    simp only [getD_payloadOf, wordOf, hsigned]

/-- A `byte` handler's value that fits is the command of an empty answer. -/
theorem packFrame_byte {idx : Nat} (hidx : idx < 2 ^ 16) {v : PyValue}
    (hv : v = .none ∨ ∃ b, v.asInt = some b ∧ -256 ≤ b ∧ b ≤ 255) :
    ∃ r : Frame, r.Valid ∧ r.idx = idx ∧ packFrame .none (.int idx) v = .ok r.encode := by
  rcases hv with rfl | ⟨b, hb, hlo, hhi⟩
  · have h := packFrame_small hidx (c := 0) (by decide) (by decide) length_none
    exact h
  · have h := packFrame_small hidx hlo hhi length_none
    cases v with
    | int b' =>
      cases hb
      exact h
    | bool b' =>
      cases hb
      exact h
    | _ => simp [PyValue.asInt] at hb

/-- Whether a `byte` handler's value can be the command of an answer. -/
theorem packFrame_cmd {idx : Nat} (hidx : idx < 2 ^ 16) (v : PyValue) :
    (∃ bs, packFrame .none (.int idx) v = .ok bs) ↔
      v = .none ∨ ∃ b, v.asInt = some b ∧ -256 ≤ b ∧ b ≤ 255 := by
  have hint : ∀ b : Int, (∃ bs, packFrame .none (.int idx) (.int b) = .ok bs) →
      -256 ≤ b ∧ b ≤ 255 := by
    rintro b ⟨bs, hpack⟩
    by_contra hout
    have hcmd : cmdByte (.int b) = .ok (if b < 0 then 256 + b else b) := rfl
    have hrange : ¬ (0 ≤ (if b < 0 then 256 + b else b) * 2 ^ 24 ∧
        (if b < 0 then 256 + b else b) * 2 ^ 24 < ((256 ^ 4 : Nat) : Int)) := by
      split <;> omega
    have hid : packUnsigned 2 (.int idx) = .ok (LittleEndian.toLE 2 idx) := by
      simp only [packUnsigned, PyValue.asInt]
      rw [if_pos (by omega), Int.toNat_natCast]
    have hword : packUnsigned 4 (.int ((if b < 0 then 256 + b else b) * 2 ^ 24)) =
        .error (.structError "") := by
      simp only [packUnsigned, PyValue.asInt]
      rw [if_neg hrange]
    rw [packFrame_falsy hcmd rfl] at hpack
    unfold packHead at hpack
    rw [hid, bind_ok, hword] at hpack
    cases hpack
  constructor
  · intro h
    cases v with
    | none => exact Or.inl rfl
    | int b => exact Or.inr ⟨b, rfl, hint b h⟩
    | bool b => exact Or.inr ⟨if b then 1 else 0, rfl, hint _ h⟩
    | _ => simp [packFrame, cmdByte, PyValue.asInt, bind, Except.bind] at h
  · intro h
    obtain ⟨r, _, _, hpack⟩ := packFrame_byte hidx h
    exact ⟨r.encode, hpack⟩

/-- Whether a `bytes` handler's value can be the payload of an answer. -/
theorem packFrame_data {idx : Nat} (hidx : idx < 2 ^ 16) {c : Int} (hlo : -256 ≤ c) (hhi : c ≤ 255)
    (v : PyValue) :
    (∃ bs, packFrame v (.int idx) (.int c) = .ok bs) ↔
      v.truth = .ok false ∨ ∃ bs, v = .bytes bs ∧
        bs.length + (c % 256).toNat * 2 ^ 24 < 2 ^ 32 := by
  have hcmd := cmdByte_int hlo hhi
  have hfalsy : v.truth = .ok false → ∃ bs, packFrame v (.int idx) (.int c) = .ok bs := by
    intro ht
    obtain ⟨r, _, _, hpack⟩ := packFrame_small hidx hlo hhi length_none
    rw [PyValue.ofData, packFrame_falsy hcmd rfl] at hpack
    exact ⟨r.encode, (packFrame_falsy hcmd ht).trans hpack⟩
  cases v with
  | bytes bs =>
    by_cases hnil : bs = []
    · have ht : (PyValue.bytes bs).truth = .ok false := by simp [PyValue.truth, hnil]
      exact ⟨fun _ => Or.inl ht, fun _ => hfalsy ht⟩
    · have ht : (PyValue.bytes bs).truth ≠ .ok false := by simp [PyValue.truth, hnil]
      have hpack := packFrame_int hidx hlo hhi (some bs)
      rw [PyValue.ofData, Option.getD_some] at hpack
      constructor
      · rintro ⟨out, hout⟩
        rw [hpack] at hout
        split at hout
        · next hfit => exact Or.inr ⟨bs, rfl, hfit⟩
        · cases hout
      · rintro (h | ⟨bs', hbs', hfit⟩)
        · exact absurd h ht
        · cases hbs'
          exact ⟨_, hpack.trans (if_pos hfit)⟩
  | _ =>
    constructor
    · rintro ⟨out, hout⟩
      unfold packFrame at hout
      rw [hcmd, bind_ok] at hout
      obtain ⟨t, ht, hout⟩ := bind_eq_ok hout
      cases t with
      | false => exact Or.inl ht
      | true =>
        -- a truthy payload that is no `bytes` passes the header and fails at the join
        obtain ⟨n, -, hout⟩ := bind_eq_ok hout
        obtain ⟨head, -, hout⟩ := bind_eq_ok hout
        cases hout
    · rintro (ht | ⟨_, hbytes, _⟩)
      · exact hfalsy ht
      · cases hbytes

/-! ### When a turn goes on -/

/-- The handler called in the `n`-th turn ends in a way the loop survives: it has
    cleared `continuous`, or it raises nothing but an `Exception`, and what it
    returns can be sent if the loop is to answer with it. -/
def HandlerFits (b : Broadcast) (n : Nat) (f : Frame) (args : List PyValue) : Prop :=
  ((b.handle n f.idx args).eval (shouldSend f) true).cleared = true ∨
    match ((b.handle n f.idx args).eval (shouldSend f) true).result with
    | .error e => e.isException = true
    | .ok v => shouldSend f = true →
        ((b.handle n f.idx args).eval (shouldSend f) true).sent = [] → ReplyFits b.ret f v

def FrameFits (c : Subscription) (n : Nat) (sock : PyValue) (f : Frame) : Prop :=
  match c.dispatch sock f with
  | .handled _ b args => HandlerFits b n f args
  | _ => True

/-- The handler clears `continuous` in this turn. -/
def Clears (c : Subscription) (n : Nat) (sock : PyValue) (f : Frame) : Prop :=
  match c.dispatch sock f with
  | .handled _ b args => ((b.handle n f.idx args).eval (shouldSend f) true).cleared = true
  | _ => False

section Turns

variable {c : Subscription} {n : Nat} {sock : PyValue} {f : Frame}

theorem answer_cleared (t : TryEnd) : (answer f t).cleared = t.cleared := by
  unfold answer
  split
  · rfl
  · split
    · split <;> rfl
    · rfl

theorem clears_iff : Clears c n sock f ↔ (frameEnd c n sock f).cleared = true := by
  unfold Clears frameEnd
  rw [answer_cleared]
  cases c.dispatch sock f <;> simp [tryEnd]

theorem answer_ok (f : Frame) {t : TryEnd} {reply : Reply} (hreply : t.reply = .ok reply)
    (hclear : t.cleared = false) :
    (answer f t).result = .ok () ↔ (shouldSend f = true → t.sent = [] →
      ∃ bs, packFrame reply.toSend (.int reply.idx) reply.cmd = .ok bs) := by
  unfold answer replyBytes
  rw [hreply, hclear]
  dsimp only
  by_cases hanswer : shouldSend f = true ∧ t.sent = []
  · rw [if_pos hanswer]
    simp only [hanswer.1, hanswer.2, if_true, Bool.not_false, true_imp_iff]
    cases packFrame reply.toSend (.int reply.idx) reply.cmd <;> simp
  · rw [if_neg hanswer]
    simp only [true_iff]
    intro hodd hnone
    exact absurd ⟨hodd, hnone⟩ hanswer

/-- The reply goes out as a frame under the id of the frame it answers. -/
def Answers (f : Frame) (reply : Reply) : Prop :=
  ∃ r : Frame, r.Valid ∧ r.idx = f.idx ∧
    packFrame reply.toSend (.int reply.idx) reply.cmd = .ok r.encode

theorem Answers.packs {reply : Reply} (h : Answers f reply) :
    ∃ bs, packFrame reply.toSend (.int reply.idx) reply.cmd = .ok bs := by
  obtain ⟨r, _, _, hpack⟩ := h
  exact ⟨r.encode, hpack⟩

/-- A short payload and a command that is a byte can be sent. -/
theorem answers_small (hv : f.Valid) {reply : Reply} (hidx : reply.idx = f.idx) {b : Int}
    (hcmd : reply.cmd = .int b) (hlo : -256 ≤ b) (hhi : b ≤ 255) {data : Option Bytes}
    (hdata : reply.toSend = .ofData data) (hlen : (data.getD []).length < 2 ^ 24) :
    Answers f reply := by
  unfold Answers
  rw [hidx, hcmd, hdata]
  exact packFrame_small hv.idx_lt hlo hhi hlen

theorem length_sendEmpty : ((some SEND_EMPTY).getD []).length < 2 ^ 24 := by decide

theorem default_answers (hv : f.Valid) : Answers f (defaultReply f) := by
  have hlo := hv.result_ge
  have hhi := hv.result_le
  exact answers_small hv rfl rfl (by omega) (by omega) rfl length_sendEmpty

theorem noHandler_answers (hv : f.Valid) :
    Answers f ⟨.int BROADCAST_RESULT_NO_HANDLER, f.idx, .bytes SEND_EMPTY⟩ :=
  answers_small hv rfl rfl (by decide) (by decide) rfl length_sendEmpty

/-- A handler of any other declared type can always be answered for: its convertor
    checks the value, or raises and leaves the default answer. -/
theorem convertResult_answers (lib : JsonLib) {ret : RetType} (hv : f.Valid) (hbyte : ret ≠ .byte)
    (hbytes : ret ≠ .bytes) (v : PyValue) :
    ∃ reply, caught f (convertResult lib ret f v) = .ok reply ∧ Answers f reply := by
  have hlo := hv.result_ge
  have hhi := hv.result_le
  unfold convertResult
  cases hconv : returnConvertMapping lib ret with
  | none => exact ⟨defaultReply f, rfl, default_answers hv⟩
  | some convertor =>
    dsimp only
    cases hreply : convertor f.result f.idx v with
    | error e =>
      have he := convert_ordinary lib hconv f.result f.idx v e hreply
      exact ⟨defaultReply f, by simp [caught, he], default_answers hv⟩
    | ok reply =>
      obtain ⟨hidx, hcmd, data, hdata, hlen⟩ := convert_fits lib hbyte hbytes hconv hreply
      refine ⟨reply, rfl, ?_⟩
      rcases hcmd with hcmd | hcmd | hcmd
      · exact answers_small hv hidx hcmd (by omega) (by omega) hdata hlen
      · exact answers_small hv hidx hcmd (by decide) (by decide) hdata hlen
      · exact answers_small hv hidx hcmd (by decide) (by decide) hdata hlen

/-- What the loop answers with after a handler has returned `v`: it can always be
    sent, unless the declared type passes `v` on unchecked and `v` does not fit. -/
theorem convertResult_packs (lib : JsonLib) (ret : RetType) (hv : f.Valid) (v : PyValue) :
    ∃ reply, caught f (convertResult lib ret f v) = .ok reply ∧
      ((∃ bs, packFrame reply.toSend (.int reply.idx) reply.cmd = .ok bs) ↔ ReplyFits ret f v) := by
  have hlo := hv.result_ge
  have hhi := hv.result_le
  have hothers : ret ≠ .byte → ret ≠ .bytes →
      ∃ reply, caught f (convertResult lib ret f v) = .ok reply ∧
      ((∃ bs, packFrame reply.toSend (.int reply.idx) reply.cmd = .ok bs) ↔ True) := by
    intro hbyte hbytes
    obtain ⟨reply, hreply, hanswers⟩ := convertResult_answers lib hv hbyte hbytes v
    exact ⟨reply, hreply, iff_true_intro hanswers.packs⟩
  cases ret with
  | byte => exact ⟨⟨v, f.idx, .none⟩, rfl, packFrame_cmd hv.idx_lt v⟩
  | bytes =>
    exact ⟨⟨.int f.result, f.idx, v⟩, rfl, packFrame_data hv.idx_lt (by omega) (by omega) v⟩
  | _ => exact hothers nofun nofun

theorem rejected_exception {name : String} {e : PyExn} (h : c.dispatch sock f = .rejected name e) :
    e.isException = true := by
  cases hname : c.broadcastName f.result with
  | none =>
    rw [dispatch_unnamed sock hname] at h
    cases h
  | some name' =>
    cases hdecl : c.broadcasts name' with
    | none =>
      simp only [Subscription.dispatch, hname, hdecl] at h
      cases h
    | some b =>
      rw [dispatch_named sock hname hdecl] at h
      cases hargs : createReceiveFunction (b.params.map (argReadTable c.lib)) f.data sock with
      | ok args =>
        rw [hargs] at h
        cases h
      | error e' =>
        rw [hargs] at h
        cases h
        exact createReceiveFunction_ordinary c.lib b.params f.data sock _ hargs

theorem tryEnd_handled (lib : JsonLib) (name : String) (b : Broadcast) (args : List PyValue) :
    tryEnd lib n f (.handled name b args) =
      ⟨caught f (((b.handle n f.idx args).eval (shouldSend f) true).result.bind
          (convertResult lib b.ret f)),
        ((b.handle n f.idx args).eval (shouldSend f) true).sent,
        ((b.handle n f.idx args).eval (shouldSend f) true).cleared⟩ := rfl

/-- **When a turn goes wrong**: exactly when the handler's end does not fit. -/
theorem frameFits_iff (hv : f.Valid) :
    FrameFits c n sock f ↔ Clears c n sock f ∨ (frameEnd c n sock f).result = .ok () := by
  have hdefault := (default_answers hv).packs
  have hnone := (noHandler_answers hv).packs
  unfold FrameFits Clears frameEnd
  cases hd : c.dispatch sock f with
  | noHandler =>
    have h := (answer_ok f (t := tryEnd c.lib n f .noHandler) rfl rfl).mpr
      (fun _ _ => hnone)
    simp [h]
  | undeclared name =>
    have h := (answer_ok f (t := tryEnd c.lib n f (.undeclared name)) rfl rfl).mpr
      (fun _ _ => hdefault)
    simp [h]
  | rejected name e =>
    have he := rejected_exception hd
    have hreply : (tryEnd c.lib n f (.rejected name e)).reply = .ok (defaultReply f) := by
      simp [tryEnd, caught, he]
    have h := (answer_ok f hreply rfl).mpr (fun _ _ => hdefault)
    simp [h]
  | handled name b args =>
    dsimp only
    rw [tryEnd_handled]
    unfold HandlerFits
    generalize (b.handle n f.idx args).eval (shouldSend f) true = r
    obtain ⟨result, sent, cleared⟩ := r
    cases cleared with
    | true => simp
    | false =>
      cases result with
      | error e =>
        cases he : e.isException with
        | true =>
          have hreply : (⟨caught f (Except.bind (.error e) (convertResult c.lib b.ret f)), sent,
              false⟩ : TryEnd).reply = .ok (defaultReply f) := by simp [caught, Except.bind, he]
          have h := (answer_ok f hreply rfl).mpr (fun _ _ => hdefault)
          simp [he, h]
        | false => simp [he, answer, caught, Except.bind]
      | ok v =>
        obtain ⟨reply, hreply, hpack⟩ := convertResult_packs c.lib b.ret hv v
        have h := answer_ok f (t := ⟨caught f (Except.bind (.ok v) (convertResult c.lib b.ret f)),
          sent, false⟩) hreply rfl
        simp only [Bool.false_eq_true, false_or, h, hpack]

theorem goesOn_iff (hv : f.Valid) :
    (frameEnd c n sock f).GoesOn ↔ FrameFits c n sock f ∧ ¬ Clears c n sock f := by
  rw [frameFits_iff hv, clears_iff]
  constructor
  · intro h
    exact ⟨Or.inr h.result, by rw [h.cleared]; decide⟩
  · rintro ⟨hfit, hclear⟩
    exact ⟨hfit.resolve_left hclear, Bool.eq_false_iff.mpr hclear⟩

end Turns

end Albatross.Replies
