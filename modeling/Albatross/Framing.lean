/-
  Albatross/Framing.lean
  ======================
  **The frame format of the RPC stream** (`rpc_common.py`: `rpc_send_data`,
  `safe_receive`, `rpc_receive_data`).

  A frame is `b'wq'`, a 16-bit call id, one 32-bit word that packs the command
  byte above a 24-bit payload length, and the payload.  The sender computes the
  word as `len(data) + (cmd << 24)` without looking at the length, so its two
  fields only stay apart while the payload is shorter than `2 ^ 24`.

  `frames` shows that the receive functions implement a framing layer in the
  sense of `Wire.Codec`.  On top of it stand the round trip of a whole stream of
  messages and the exact payload lengths a frame survives.
-/
import Albatross.Wire
import Mathlib.Data.Nat.Bitwise

namespace Albatross.Framing

open Python Wire LittleEndian

/-! ### Sending a frame -/

/-- `b'wq'`. -/
def HEAD : Bytes := [119, 113]

/-- `cmd` after the two adjustments at the top of `rpc_send_data`. -/
def cmdByte (cmd : PyValue) : Except PyExn Int :=
  match cmd with
  | .none => .ok 0
  | v =>
      match v.asInt with
      | some c => .ok (if c < 0 then 256 + c else c)
      | none => .error .typeError

/-- `b'wq' + struct.pack('<HI', call_id, len_result)`. -/
def packHead (callId : PyValue) (lenResult : Int) : Except PyExn Bytes := do
  let id ← packUnsigned 2 callId
  let word ← packUnsigned 4 (.int lenResult)
  return HEAD ++ (id ++ word)

/-- The bytes `rpc_send_data` is about to send. -/
def packFrame (data callId cmd : PyValue) : Except PyExn Bytes := do
  let cmd ← cmdByte cmd
  if ← data.truth then
    let n ← data.len
    let head ← packHead callId (n + cmd * 2 ^ 24)
    match data with
    | .bytes bs => return head ++ bs
    | _ => throw .typeError
  else packHead callId (cmd * 2 ^ 24)

/-- The loop `while total_sent < data_len`; `rest` is `payload[total_sent:]`.  A
    turn that sends nothing raises, so the payload's length bounds the turns. -/
def sendLoop : Nat → Bytes → Outlet → Outcome Outlet Unit
  | 0, _, o => .ok () o
  | fuel + 1, rest, o =>
      if rest = [] then .ok () o
      else (o.send rest).bind fun send o =>
        if send = 0 then .raised .connectionError o
        else sendLoop fuel (rest.drop send) o

def rpcSendData (data callId cmd : PyValue) (o : Outlet) : Outcome Outlet Unit :=
  match packFrame data callId cmd with
  | .error e => .raised e o
  | .ok payload =>
      (o.send payload).bind fun totalSent o =>
        if totalSent = payload.length then .ok () o
        else sendLoop payload.length (payload.drop totalSent) o

/-! ### Receiving a frame -/

/-- The triple `(idx, result, data)`. -/
structure Frame where
  idx : Nat
  result : Int
  data : Option Bytes
deriving DecidableEq, Repr

/-- The receive loops of `safe_receive` and `rpc_receive_data`: `need` bytes are
    still missing.  Each turn gets at least one of them or raises `closed`. -/
def receiveLoop (closed : PyExn) : Nat → Nat → List Bytes → Inbox → Outcome Inbox (List Bytes)
  | 0, _, buffList, inbox => .ok buffList inbox
  | fuel + 1, need, buffList, inbox =>
      if need = 0 then .ok buffList inbox
      else (recv need inbox).bind fun chunk inbox =>
        if chunk = [] then .raised closed inbox
        else receiveLoop closed fuel (need - chunk.length) (buffList ++ [chunk]) inbox

def safeReceive (n : Nat) (inbox : Inbox) : Outcome Inbox Bytes :=
  (recv n inbox).bind fun chunk inbox =>
    if chunk = [] then .raised (.osError "Socket closed") inbox
    else if chunk.length = n then .ok chunk inbox
    else (receiveLoop (.osError "Socket closed") n (n - chunk.length) [chunk] inbox).bind
      fun buffList inbox => .ok buffList.flatten inbox

def rpcReceiveData (inbox : Inbox) : Outcome Inbox Frame :=
  (safeReceive 8 inbox).bind fun bs inbox =>
    if slice bs 0 2 ≠ HEAD then .raised (.structError ("wrong head:" ++ reprBytes bs)) inbox
    else
      let idx := ofLE (slice bs 2 4)
      let lenResult := ofLE (slice bs 4 8)
      let dataLenExpect := lenResult &&& 0xffffff
      let result : Int := (lenResult >>> 24 : Nat)
      let signed := if result ≥ 128 then result - 256 else result
      if dataLenExpect ≠ 0 then
        (receiveLoop (.osError "socket close") dataLenExpect dataLenExpect [] inbox).bind
          fun buffList inbox => .ok ⟨idx, signed, some buffList.flatten⟩ inbox
      else .ok ⟨idx, signed, none⟩ inbox

/-! ### Sending on a socket that keeps accepting -/

theorem sendLoop_accepting : ∀ (fuel : Nat) (rest : Bytes) (o : Outlet), o.Accepting →
    rest.length ≤ fuel →
    ∃ o', sendLoop fuel rest o = .ok () o' ∧ o'.sent = o.sent ++ rest ∧ o'.Accepting := by
  intro fuel
  induction fuel with
  | zero =>
    intro rest o ho hlen
    have hnil : rest = [] := List.length_eq_zero_iff.mp (Nat.le_zero.mp hlen)
    exact ⟨o, rfl, by simp [hnil], ho⟩
  | succ fuel ih =>
    intro rest o ho hlen
    by_cases hnil : rest = []
    · exact ⟨o, by simp [sendLoop, hnil], by simp [hnil], ho⟩
    · obtain ⟨k, o₁, hsend, hle, hpos, hsent, ho₁⟩ := Outlet.send_accepting ho rest
      have hk : 0 < k := hpos hnil
      have hshort : (rest.drop k).length ≤ fuel := by rw [List.length_drop]; omega
      obtain ⟨o₂, hloop, hsent₂, ho₂⟩ := ih (rest.drop k) o₁ ho₁ hshort
      refine ⟨o₂, ?_, ?_, ho₂⟩
      · simp only [sendLoop, if_neg hnil, hsend, Outcome.bind_ok]
        rw [if_neg (by omega)]
        exact hloop
      · rw [hsent₂, hsent, List.append_assoc, List.take_append_drop]

theorem rpcSendData_ok {data callId cmd : PyValue} {payload : Bytes}
    (hp : packFrame data callId cmd = .ok payload) {o : Outlet} (ho : o.Accepting) :
    ∃ o', rpcSendData data callId cmd o = .ok () o' ∧ o'.sent = o.sent ++ payload ∧
      o'.Accepting := by
  obtain ⟨k, o₁, hsend, hle, _, hsent, ho₁⟩ := Outlet.send_accepting ho payload
  simp only [rpcSendData, hp, hsend, Outcome.bind_ok]
  by_cases hall : k = payload.length
  · rw [if_pos hall]
    exact ⟨o₁, rfl, by rw [hsent, hall, List.take_length], ho₁⟩
  · rw [if_neg hall]
    obtain ⟨o₂, hloop, hsent₂, ho₂⟩ := sendLoop_accepting payload.length (payload.drop k) o₁ ho₁
      (by rw [List.length_drop]; omega)
    exact ⟨o₂, hloop, by rw [hsent₂, hsent, List.append_assoc, List.take_append_drop], ho₂⟩

theorem rpcSendData_error {data callId cmd : PyValue} {e : PyExn}
    (hp : packFrame data callId cmd = .error e) (o : Outlet) :
    rpcSendData data callId cmd o = .raised e o := by
  simp [rpcSendData, hp]

/-! ### Receiving from a stretch of data -/

theorem receiveLoop_data (closed : PyExn) (rest : Inbox) : ∀ (fuel need : Nat)
    (buffList : List Bytes) (body : Inbox), Data body → need ≤ fuel →
    need ≤ (bytesOf body).length →
    ∃ chunks body', receiveLoop closed fuel need buffList (body ++ rest) =
        .ok (buffList ++ chunks) (body' ++ rest) ∧ Data body' ∧
      chunks.flatten.length = need ∧ bytesOf body = chunks.flatten ++ bytesOf body' := by
  intro fuel
  induction fuel with
  | zero =>
    intro need buffList body hd hfuel _
    have hzero : need = 0 := Nat.le_zero.mp hfuel
    exact ⟨[], body, by simp [receiveLoop], hd, by simp [hzero], by simp⟩
  | succ fuel ih =>
    intro need buffList body hd hfuel hlen
    by_cases hzero : need = 0
    · exact ⟨[], body, by simp [receiveLoop, hzero], hd, by simp [hzero], by simp⟩
    · have hne : bytesOf body ≠ [] := by
        intro hnil
        rw [hnil] at hlen
        exact hzero (Nat.le_zero.mp hlen)
      obtain ⟨chunk, body₁, hrecv, hd₁, hb₁, hchunk, hle⟩ :=
        recv_data (Nat.pos_of_ne_zero hzero) rest hd hne (Or.inl hlen)
      have hpos : 0 < chunk.length := List.length_pos_iff.mpr hchunk
      have hlen₁ : need - chunk.length ≤ (bytesOf body₁).length := by
        rw [hb₁, List.length_append] at hlen
        omega
      obtain ⟨chunks, body₂, hloop, hd₂, hcount, hb₂⟩ :=
        ih (need - chunk.length) (buffList ++ [chunk]) body₁ hd₁ (by omega) hlen₁
      refine ⟨chunk :: chunks, body₂, ?_, hd₂, ?_, ?_⟩
      · simp [receiveLoop, hzero, hrecv, hchunk, hloop]
      · simp only [List.flatten_cons, List.length_append, hcount]
        omega
      · rw [hb₁, hb₂, List.flatten_cons, List.append_assoc]

/-- When the stretch ends in a pause before the loop has its bytes, the pause ends
    the loop; what it had read is gone. -/
theorem receiveLoop_pause (closed : PyExn) (post : Inbox) : ∀ (fuel need : Nat)
    (buffList : List Bytes) (body : Inbox), Data body → need ≤ fuel →
    (bytesOf body).length < need →
    receiveLoop closed fuel need buffList (body ++ .timeout :: post) =
      .raised .timeoutError post := by
  have hhalt : Halts (.timeout :: post) := by intro b more h; cases h
  intro fuel
  induction fuel with
  | zero => intro need buffList body _ hfuel hlen; omega
  | succ fuel ih =>
    intro need buffList body hd hfuel hlen
    have hzero : need ≠ 0 := by omega
    by_cases hnil : bytesOf body = []
    · simp [receiveLoop, hzero, recv_skip _ hd hnil, recv]
    · obtain ⟨chunk, body₁, hrecv, hd₁, hb₁, hchunk, hle⟩ :=
        recv_data (Nat.pos_of_ne_zero hzero) _ hd hnil (Or.inr hhalt)
      have hpos : 0 < chunk.length := List.length_pos_iff.mpr hchunk
      rw [hb₁, List.length_append] at hlen
      have hrec := ih (need - chunk.length) (buffList ++ [chunk]) body₁ hd₁ (by omega) (by omega)
      simp [receiveLoop, hzero, hrecv, hchunk, hrec]

theorem safeReceive_data {n : Nat} (hn : 0 < n) (rest : Inbox) {body : Inbox} (hd : Data body)
    (hlen : n ≤ (bytesOf body).length) :
    ∃ chunk body', safeReceive n (body ++ rest) = .ok chunk (body' ++ rest) ∧ Data body' ∧
      chunk.length = n ∧ bytesOf body = chunk ++ bytesOf body' := by
  have hne : bytesOf body ≠ [] := by
    intro hnil
    rw [hnil, List.length_nil] at hlen
    omega
  obtain ⟨chunk, body₁, hrecv, hd₁, hb₁, hchunk, hle⟩ := recv_data hn rest hd hne (Or.inl hlen)
  by_cases hall : chunk.length = n
  · exact ⟨chunk, body₁, by simp [safeReceive, hrecv, hchunk, hall], hd₁, hall, hb₁⟩
  · have hlen₁ : n - chunk.length ≤ (bytesOf body₁).length := by
      rw [hb₁, List.length_append] at hlen
      omega
    obtain ⟨chunks, body₂, hloop, hd₂, hcount, hb₂⟩ := receiveLoop_data
      (.osError "Socket closed") rest n (n - chunk.length) [chunk] body₁ hd₁ (Nat.sub_le _ _) hlen₁
    refine ⟨chunk ++ chunks.flatten, body₂, ?_, hd₂, ?_, ?_⟩
    · simp [safeReceive, hrecv, hchunk, hall, hloop]
    · rw [List.length_append, hcount]
      omega
    · rw [hb₁, hb₂, List.append_assoc]

theorem safeReceive_pause {n : Nat} (post : Inbox) {body : Inbox} (hd : Data body)
    (hlen : (bytesOf body).length < n) :
    safeReceive n (body ++ .timeout :: post) = .raised .timeoutError post := by
  have hhalt : Halts (.timeout :: post) := by intro b more h; cases h
  by_cases hnil : bytesOf body = []
  · simp [safeReceive, recv_skip _ hd hnil, recv]
  · have hn : 0 < n := Nat.zero_lt_of_lt hlen
    obtain ⟨chunk, body₁, hrecv, hd₁, hb₁, hchunk, hle⟩ :=
      recv_data hn (.timeout :: post) hd hnil (Or.inr hhalt)
    rw [hb₁, List.length_append] at hlen
    have hloop := receiveLoop_pause (.osError "Socket closed") post n (n - chunk.length) [chunk]
      body₁ hd₁ (Nat.sub_le _ _) (by omega)
    have hall : chunk.length ≠ n := by omega
    simp [safeReceive, hrecv, hchunk, hall, hloop]

/-! ### What the receive functions consume on any stream -/

theorem receiveLoop_ok {closed : PyExn} : ∀ {fuel need : Nat} {buffList chunks : List Bytes}
    {inbox inbox' : Inbox}, need ≤ fuel →
    receiveLoop closed fuel need buffList inbox = .ok chunks inbox' →
    ∃ new, chunks = buffList ++ new ∧ new.flatten.length = need ∧
      Consumed inbox new.flatten inbox' := by
  intro fuel
  induction fuel with
  | zero =>
    intro need buffList chunks inbox inbox' hfuel h
    simp only [receiveLoop, Outcome.ok.injEq] at h
    obtain ⟨rfl, rfl⟩ := h
    exact ⟨[], by simp, by simp; omega, Consumed.refl inbox⟩
  | succ fuel ih =>
    intro need buffList chunks inbox inbox' hfuel h
    unfold receiveLoop at h
    by_cases hzero : need = 0
    · simp only [hzero, if_true, Outcome.ok.injEq] at h
      obtain ⟨rfl, rfl⟩ := h
      exact ⟨[], by simp, by simp [hzero], Consumed.refl inbox⟩
    · rw [if_neg hzero] at h
      obtain ⟨chunk, inbox₁, hr, h⟩ := Outcome.bind_eq_ok h
      obtain ⟨hcons, hle⟩ := recv_ok hr
      by_cases hchunk : chunk = []
      · simp [hchunk] at h
      · rw [if_neg hchunk] at h
        have hpos : 0 < chunk.length := List.length_pos_iff.mpr hchunk
        obtain ⟨new, rfl, hlen, hcons₁⟩ := ih (by omega) h
        refine ⟨chunk :: new, by simp, ?_, ?_⟩
        · simp only [List.flatten_cons, List.length_append, hlen]
          omega
        · rw [List.flatten_cons]
          exact hcons.trans hcons₁

theorem receiveLoop_raised {closed : PyExn} (hclosed : closed ≠ .timeoutError) :
    ∀ {fuel need : Nat} {buffList : List Bytes} {inbox inbox' : Inbox} {e : PyExn},
    receiveLoop closed fuel need buffList inbox = .raised e inbox' → Dropped e inbox inbox' := by
  intro fuel
  induction fuel with
  | zero => intro need buffList inbox inbox' e h; simp [receiveLoop] at h
  | succ fuel ih =>
    intro need buffList inbox inbox' e h
    unfold receiveLoop at h
    by_cases hzero : need = 0
    · simp [hzero] at h
    · rw [if_neg hzero] at h
      rcases Outcome.bind_eq_raised h with hr | ⟨chunk, inbox₁, hr, h⟩
      · exact Dropped.of_recv hr
      · obtain ⟨hcons, _⟩ := recv_ok hr
        by_cases hchunk : chunk = []
        · simp only [hchunk, if_true, Outcome.raised.injEq] at h
          obtain ⟨rfl, rfl⟩ := h
          exact ⟨⟨chunk, hcons⟩, fun heq => absurd heq hclosed⟩
        · rw [if_neg hchunk] at h
          exact (ih h).after hcons

theorem safeReceive_ok {n : Nat} {inbox inbox' : Inbox} {bs : Bytes}
    (h : safeReceive n inbox = .ok bs inbox') : bs.length = n ∧ Consumed inbox bs inbox' := by
  unfold safeReceive at h
  obtain ⟨chunk, inbox₁, hr, h⟩ := Outcome.bind_eq_ok h
  obtain ⟨hcons, hle⟩ := recv_ok hr
  by_cases hchunk : chunk = []
  · simp [hchunk] at h
  · by_cases hall : chunk.length = n
    · simp only [if_neg hchunk, if_pos hall, Outcome.ok.injEq] at h
      obtain ⟨rfl, rfl⟩ := h
      exact ⟨hall, hcons⟩
    · simp only [if_neg hchunk, if_neg hall] at h
      obtain ⟨chunks, inbox₂, hl, h⟩ := Outcome.bind_eq_ok h
      obtain ⟨new, rfl, hlen, hcons₁⟩ := receiveLoop_ok (Nat.sub_le _ _) hl
      simp only [Outcome.ok.injEq] at h
      obtain ⟨rfl, rfl⟩ := h
      constructor
      · simp only [List.singleton_append, List.flatten_cons, List.length_append, hlen]
        omega
      · simpa using hcons.trans hcons₁

theorem safeReceive_raised {n : Nat} {inbox inbox' : Inbox} {e : PyExn}
    (h : safeReceive n inbox = .raised e inbox') : Dropped e inbox inbox' := by
  unfold safeReceive at h
  rcases Outcome.bind_eq_raised h with hr | ⟨chunk, inbox₁, hr, h⟩
  · exact Dropped.of_recv hr
  · obtain ⟨hcons, _⟩ := recv_ok hr
    by_cases hchunk : chunk = []
    · simp only [hchunk, if_true, Outcome.raised.injEq] at h
      obtain ⟨rfl, rfl⟩ := h
      exact ⟨⟨chunk, hcons⟩, fun heq => by cases heq⟩
    · by_cases hall : chunk.length = n
      · simp [hchunk, hall] at h
      · simp only [if_neg hchunk, if_neg hall] at h
        rcases Outcome.bind_eq_raised h with hl | ⟨chunks, inbox₂, _, h⟩
        · exact (receiveLoop_raised (by decide) hl).after hcons
        · cases h

/-! ### The frame format -/

/-- The bytes of a frame whose packed word is `word`. -/
def rawFrame (idx word : Nat) (data : Bytes) : Bytes := HEAD ++ (toLE 2 idx ++ toLE 4 word) ++ data

/-- The packed word `len(data) + (cmd << 24)`. -/
def wordOf (len : Nat) (cmd : Int) : Nat := len + (cmd % 256).toNat * 2 ^ 24

/-- An empty payload is read as `None`. -/
def payloadOf (data : Bytes) : Option Bytes := if data = [] then none else some data

def signedByte (result : Nat) : Int := if 128 ≤ result then (result : Int) - 256 else result

theorem length_rawFrame (idx word : Nat) (data : Bytes) :
    (rawFrame idx word data).length = 8 + data.length := by
  simp [rawFrame, HEAD]
  omega

theorem cmdByte_int {c : Int} (hlo : -256 ≤ c) (hhi : c ≤ 255) :
    cmdByte (.int c) = .ok ((c % 256).toNat : Int) := by
  have hmod : ((c % 256).toNat : Int) = c % 256 := Int.toNat_of_nonneg (by omega)
  simp only [cmdByte, PyValue.asInt, hmod]
  congr 1
  split <;> omega

theorem packFrame_falsy {data callId cmd : PyValue} {c : Int} (hc : cmdByte cmd = .ok c)
    (ht : data.truth = .ok false) :
    packFrame data callId cmd = packHead callId (c * 2 ^ 24) := by
  simp only [packFrame, hc, ht, bind, Except.bind]
  rfl

theorem packFrame_bytes {callId cmd : PyValue} {c : Int} {bs : Bytes} (hc : cmdByte cmd = .ok c)
    (hne : bs ≠ []) :
    packFrame (.bytes bs) callId cmd =
      (packHead callId (bs.length + c * 2 ^ 24)).map (· ++ bs) := by
  have ht : (PyValue.bytes bs).truth = .ok true := by simp [PyValue.truth, hne]
  simp only [packFrame, hc, ht, PyValue.len, bind, Except.bind, if_true]
  cases packHead callId (bs.length + c * 2 ^ 24) <;> rfl

theorem packHead_nat {idx word : Nat} (hidx : idx < 2 ^ 16) :
    packHead (.int idx) word =
      if word < 2 ^ 32 then .ok (HEAD ++ (toLE 2 idx ++ toLE 4 word))
      else .error (.structError "") := by
  have hid : packUnsigned 2 (.int idx) = .ok (toLE 2 idx) := by
    simp only [packUnsigned, PyValue.asInt]
    rw [if_pos (by omega), Int.toNat_natCast]
  by_cases hword : word < 2 ^ 32
  · have hw : packUnsigned 4 (.int word) = .ok (toLE 4 word) := by
      simp only [packUnsigned, PyValue.asInt]
      rw [if_pos (by omega), Int.toNat_natCast]
    rw [if_pos hword, packHead, hid, hw]
    rfl
  · have hw : packUnsigned 4 (.int word) = .error (.structError "") := by
      simp only [packUnsigned, PyValue.asInt]
      rw [if_neg (by omega)]
    rw [if_neg hword, packHead, hid, hw]
    rfl

/-- What `rpc_send_data` puts on the wire: the frame when the packed word fits 32
    bits, and otherwise an exception before anything is sent. -/
theorem packFrame_int {idx : Nat} (hidx : idx < 2 ^ 16) {c : Int} (hlo : -256 ≤ c) (hhi : c ≤ 255)
    (data : Option Bytes) :
    packFrame (.ofData data) (.int idx) (.int c) =
      if wordOf (data.getD []).length c < 2 ^ 32 then
        .ok (rawFrame idx (wordOf (data.getD []).length c) (data.getD []))
      else .error (.structError "") := by
  have hcmd := cmdByte_int hlo hhi
  have hempty : packHead (.int idx) (((c % 256).toNat : Int) * 2 ^ 24) =
      if wordOf 0 c < 2 ^ 32 then .ok (rawFrame idx (wordOf 0 c) [])
      else .error (.structError "") := by
    have hzero : ((c % 256).toNat : Int) * 2 ^ 24 = (wordOf 0 c : Nat) := by
      rw [wordOf, Nat.zero_add]
      push_cast
      rfl
    rw [hzero, packHead_nat hidx, rawFrame, List.append_nil]
  rcases data with _ | bs
  · rw [PyValue.ofData, packFrame_falsy hcmd rfl, hempty]
    rfl
  · by_cases hnil : bs = []
    · subst hnil
      rw [PyValue.ofData, packFrame_falsy hcmd rfl, hempty]
      rfl
    · have hword : (bs.length : Int) + ((c % 256).toNat : Int) * 2 ^ 24 =
          (wordOf bs.length c : Nat) := by
        rw [wordOf]
        push_cast
        rfl
      rw [PyValue.ofData, packFrame_bytes hcmd hnil, hword, packHead_nat hidx, Option.getD_some]
      by_cases hfit : wordOf bs.length c < 2 ^ 32
      · rw [if_pos hfit, if_pos hfit]
        rfl
      · rw [if_neg hfit, if_neg hfit]
        rfl

theorem header_fields {idx word : Nat} (hidx : idx < 2 ^ 16) (hword : word < 2 ^ 32) :
    slice (HEAD ++ (toLE 2 idx ++ toLE 4 word)) 0 2 = HEAD ∧
      ofLE (slice (HEAD ++ (toLE 2 idx ++ toLE 4 word)) 2 4) = idx ∧
      ofLE (slice (HEAD ++ (toLE 2 idx ++ toLE 4 word)) 4 8) = word := by
  refine ⟨slice_middle [] HEAD _ rfl rfl, ?_, ?_⟩
  · have hid := slice_middle HEAD (toLE 2 idx) (toLE 4 word) (i := 2) (j := 4) rfl
      (by rw [length_toLE]; rfl)
    rw [hid]
    exact ofLE_toLE (by omega)
  · have hw := slice_middle (HEAD ++ toLE 2 idx) (toLE 4 word) [] (i := 4) (j := 8)
      (by rw [List.length_append, length_toLE]; rfl)
      (by rw [List.length_append, length_toLE, length_toLE]; rfl)
    rw [List.append_nil, List.append_assoc] at hw
    rw [hw]
    exact ofLE_toLE (by omega)

/-- What `rpc_receive_data` does once it has a header. -/
def receivePayload (idx word : Nat) (inbox : Inbox) : Outcome Inbox Frame :=
  if word % 2 ^ 24 ≠ 0 then
    (receiveLoop (.osError "socket close") (word % 2 ^ 24) (word % 2 ^ 24) [] inbox).bind
      fun buffList inbox => .ok ⟨idx, signedByte (word / 2 ^ 24), some buffList.flatten⟩ inbox
  else .ok ⟨idx, signedByte (word / 2 ^ 24), none⟩ inbox

theorem rpcReceiveData_header {inbox inbox' : Inbox} {bs : Bytes}
    (hrecv : safeReceive 8 inbox = .ok bs inbox') (hhead : slice bs 0 2 = HEAD) :
    rpcReceiveData inbox = receivePayload (ofLE (slice bs 2 4)) (ofLE (slice bs 4 8)) inbox' := by
  have hmask : ofLE (slice bs 4 8) &&& 0xffffff = ofLE (slice bs 4 8) % 2 ^ 24 :=
    Nat.and_two_pow_sub_one_eq_mod _ 24
  have hshift : ofLE (slice bs 4 8) >>> 24 = ofLE (slice bs 4 8) / 2 ^ 24 :=
    Nat.shiftRight_eq_div_pow _ 24
  have hsigned : ∀ r : Nat, (if (r : Int) ≥ 128 then (r : Int) - 256 else (r : Int)) =
      signedByte r := by
    intro r
    unfold signedByte
    split <;> split <;> omega
  unfold rpcReceiveData
  rw [hrecv, Outcome.bind_ok, if_neg (not_not_intro hhead)]
  simp only [hmask, hshift, hsigned]
  rfl

/-- **Reading a frame.**  A frame whose payload has the length its word announces
    is taken off the stream, whatever follows it. -/
theorem rpcReceiveData_raw {idx word : Nat} {data more : Bytes} (hidx : idx < 2 ^ 16)
    (hword : word < 2 ^ 32) (hlen : data.length = word % 2 ^ 24) (rest : Inbox) {body : Inbox}
    (hd : Data body) (hb : bytesOf body = rawFrame idx word data ++ more) :
    ∃ body', rpcReceiveData (body ++ rest) =
        .ok ⟨idx, signedByte (word / 2 ^ 24), payloadOf data⟩ (body' ++ rest) ∧
      Data body' ∧ bytesOf body' = more := by
  have hheadlen : (HEAD ++ (toLE 2 idx ++ toLE 4 word)).length = 8 := by simp [HEAD]
  obtain ⟨head, body₁, hrecv, hd₁, hhead, hb₁⟩ := safeReceive_data (n := 8) (by decide) rest hd
    (by rw [hb, List.length_append, length_rawFrame]; omega)
  rw [hb, rawFrame, List.append_assoc] at hb₁
  obtain ⟨rfl, hleft⟩ := List.append_inj hb₁ (by rw [hheadlen, hhead])
  obtain ⟨hs₀, hs₂, hs₄⟩ := header_fields hidx hword
  rw [rpcReceiveData_header hrecv hs₀, hs₂, hs₄]
  unfold receivePayload
  by_cases hnil : data = []
  · subst hnil
    have hzero : word % 2 ^ 24 = 0 := hlen.symm
    rw [if_neg (not_not_intro hzero)]
    exact ⟨body₁, by simp [payloadOf], hd₁, hleft.symm⟩
  · have hpos : word % 2 ^ 24 ≠ 0 := by
      rw [← hlen]
      simpa using hnil
    obtain ⟨chunks, body₂, hloop, hd₂, hcount, hb₂⟩ := receiveLoop_data (.osError "socket close")
      rest (word % 2 ^ 24) (word % 2 ^ 24) [] body₁ hd₁ (Nat.le_refl _)
      (by rw [← hleft, List.length_append]; omega)
    rw [← hleft] at hb₂
    obtain ⟨hdata, hmore⟩ := List.append_inj hb₂ (hlen.trans hcount.symm)
    refine ⟨body₂, ?_, hd₂, hmore.symm⟩
    rw [if_pos hpos, hloop, Outcome.bind_ok, List.nil_append, ← hdata, payloadOf, if_neg hnil]

/-- A pause inside a frame ends the receive and drops what was read of it. -/
theorem rpcReceiveData_pause {idx word : Nat} {data more : Bytes} (hidx : idx < 2 ^ 16)
    (hword : word < 2 ^ 32) (hlen : data.length = word % 2 ^ 24) {body : Inbox} (hd : Data body)
    (hb : rawFrame idx word data = bytesOf body ++ more) (hmore : more ≠ []) (post : Inbox) :
    rpcReceiveData (body ++ .timeout :: post) = .raised .timeoutError post := by
  have hmorelen : 0 < more.length := List.length_pos_iff.mpr hmore
  have htotal : 8 + data.length = (bytesOf body).length + more.length := by
    rw [← length_rawFrame idx word data, hb, List.length_append]
  by_cases hshort : (bytesOf body).length < 8
  · unfold rpcReceiveData
    rw [safeReceive_pause post hd hshort, Outcome.bind_raised]
  · have hheadlen : (HEAD ++ (toLE 2 idx ++ toLE 4 word)).length = 8 := by simp [HEAD]
    obtain ⟨head, body₁, hrecv, hd₁, hhead, hb₁⟩ := safeReceive_data (n := 8) (by decide)
      (.timeout :: post) hd (by omega)
    rw [rawFrame, hb₁, List.append_assoc head] at hb
    obtain ⟨rfl, _⟩ := List.append_inj hb (by rw [hheadlen, hhead])
    have hlen₁ : (bytesOf body).length = 8 + (bytesOf body₁).length := by
      rw [hb₁, List.length_append, hhead]
    obtain ⟨hs₀, hs₂, hs₄⟩ := header_fields hidx hword
    have hloop :=
      receiveLoop_pause (.osError "socket close") post (word % 2 ^ 24) (word % 2 ^ 24) []
      body₁ hd₁ (Nat.le_refl _) (by omega)
    rw [rpcReceiveData_header hrecv hs₀, hs₂, hs₄]
    unfold receivePayload
    rw [if_pos (by omega), hloop, Outcome.bind_raised]

theorem rpcReceiveData_ok {inbox inbox' : Inbox} {f : Frame}
    (h : rpcReceiveData inbox = .ok f inbox') :
    ∃ got, Consumed inbox got inbox' ∧ got.length = 8 + (f.data.getD []).length ∧
      (f.data.getD []).length < 2 ^ 24 := by
  have hall := h
  unfold rpcReceiveData at h
  obtain ⟨bs, inbox₁, hrecv, h⟩ := Outcome.bind_eq_ok h
  obtain ⟨hlen, hcons⟩ := safeReceive_ok hrecv
  by_cases hhead : slice bs 0 2 = HEAD
  · rw [rpcReceiveData_header hrecv hhead] at hall
    unfold receivePayload at hall
    by_cases hpos : ofLE (slice bs 4 8) % 2 ^ 24 ≠ 0
    · rw [if_pos hpos] at hall
      obtain ⟨chunks, inbox₂, hloop, hall⟩ := Outcome.bind_eq_ok hall
      obtain ⟨_, rfl, hcount, hcons₁⟩ := receiveLoop_ok (Nat.le_refl _) hloop
      simp only [Outcome.ok.injEq] at hall
      obtain ⟨rfl, rfl⟩ := hall
      refine ⟨bs ++ chunks.flatten, hcons.trans hcons₁, by simp [hlen], ?_⟩
      show chunks.flatten.length < 2 ^ 24
      omega
    · rw [if_neg hpos] at hall
      simp only [Outcome.ok.injEq] at hall
      obtain ⟨rfl, rfl⟩ := hall
      exact ⟨bs, hcons, by simp [hlen], by simp⟩
  · rw [if_pos hhead] at h
    cases h

theorem rpcReceiveData_raised {inbox inbox' : Inbox} {e : PyExn}
    (h : rpcReceiveData inbox = .raised e inbox') : Dropped e inbox inbox' := by
  have hall := h
  unfold rpcReceiveData at h
  rcases Outcome.bind_eq_raised h with hrecv | ⟨bs, inbox₁, hrecv, h⟩
  · exact safeReceive_raised hrecv
  · obtain ⟨_, hcons⟩ := safeReceive_ok hrecv
    by_cases hhead : slice bs 0 2 = HEAD
    · rw [rpcReceiveData_header hrecv hhead] at hall
      unfold receivePayload at hall
      by_cases hpos : ofLE (slice bs 4 8) % 2 ^ 24 ≠ 0
      · rw [if_pos hpos] at hall
        rcases Outcome.bind_eq_raised hall with hloop | ⟨chunks, inbox₂, _, hall⟩
        · exact (receiveLoop_raised (by decide) hloop).after hcons
        · cases hall
      · rw [if_neg hpos] at hall
        cases hall
    · rw [if_pos hhead] at h
      simp only [Outcome.raised.injEq] at h
      obtain ⟨rfl, rfl⟩ := h
      exact ⟨⟨bs, hcons⟩, fun he => by cases he⟩

theorem rpcReceiveData_skip {body : Inbox} (hd : Data body) (hb : bytesOf body = [])
    (rest : Inbox) : rpcReceiveData (body ++ rest) = rpcReceiveData rest := by
  unfold rpcReceiveData safeReceive
  rw [recv_skip 8 hd hb]

/-! ### Frames as a framing layer -/

/-- A frame the format can carry; an absent payload stands for an empty one. -/
structure Frame.Valid (f : Frame) : Prop where
  idx_lt : f.idx < 2 ^ 16
  result_ge : -128 ≤ f.result
  result_le : f.result ≤ 127
  data_ne : f.data ≠ some []
  data_lt : (f.data.getD []).length < 2 ^ 24

def Frame.encode (f : Frame) : Bytes :=
  rawFrame f.idx (wordOf (f.data.getD []).length f.result) (f.data.getD [])

theorem length_encode (f : Frame) : f.encode.length = 8 + (f.data.getD []).length :=
  length_rawFrame _ _ _

theorem wordOf_fields {len : Nat} (hlen : len < 2 ^ 24) {c : Int} (hlo : -128 ≤ c) (hhi : c ≤ 127) :
    wordOf len c < 2 ^ 32 ∧ wordOf len c % 2 ^ 24 = len ∧
      signedByte (wordOf len c / 2 ^ 24) = c := by
  obtain ⟨hmod, hdiv⟩ := low_high_split (c % 256).toNat hlen
  have hbyte : (c % 256).toNat < 256 := by omega
  refine ⟨by unfold wordOf; omega, hmod, ?_⟩
  rw [wordOf, hdiv]
  unfold signedByte
  split <;> omega

theorem payloadOf_getD {data : Option Bytes} (h : data ≠ some []) :
    payloadOf (data.getD []) = data := by
  rcases data with _ | bs
  · rfl
  · have hne : bs ≠ [] := fun hnil => h (by rw [hnil])
    simp [payloadOf, hne]

def frames : Codec Frame where
  valid := Frame.Valid
  encode := Frame.encode
  receive := rpcReceiveData
  receive_data := by
    intro f body more hv hd hb rest
    obtain ⟨hword, hlen, hsigned⟩ := wordOf_fields hv.data_lt hv.result_ge hv.result_le
    obtain ⟨body', hrecv, hd', hb'⟩ := rpcReceiveData_raw hv.idx_lt hword hlen.symm rest hd hb
    rw [hsigned, payloadOf_getD hv.data_ne] at hrecv
    exact ⟨body', hrecv, hd', hb'⟩
  receive_pause := by
    intro f body more hv hd hb hmore post
    obtain ⟨hword, hlen, _⟩ := wordOf_fields hv.data_lt hv.result_ge hv.result_le
    exact rpcReceiveData_pause hv.idx_lt hword hlen.symm hd hb hmore post
  receive_skip := fun hd hb rest => rpcReceiveData_skip hd hb rest
  receive_timeout := fun _ => rfl
  receive_size := by
    intro f inbox inbox' h
    obtain ⟨got, hcons, hlen, _⟩ := rpcReceiveData_ok h
    rw [hcons.bytes, List.length_append, hlen, length_encode]
  raised_size := by
    intro e inbox inbox' h
    obtain ⟨got, hcons⟩ := (rpcReceiveData_raised h).lost
    rw [hcons.bytes, List.length_append]
    omega

/-! ### A stream of messages -/

/-- A message as `rpc_send_data` takes it. -/
structure Message where
  callId : Nat
  cmd : Option Int
  payload : Option Bytes
  callId_le : callId ≤ 65535
  cmd_ge : -128 ≤ cmd.getD 0
  cmd_le : cmd.getD 0 ≤ 127
  payload_lt : (payload.getD []).length < 2 ^ 24

/-- The triple `rpc_receive_data` gives for it. -/
def Message.triple (m : Message) : Frame := ⟨m.callId, m.cmd.getD 0, payloadOf (m.payload.getD [])⟩

theorem getD_payloadOf (data : Bytes) : (payloadOf data).getD [] = data := by
  unfold payloadOf
  split
  · next h => exact h.symm
  · rfl

theorem Message.triple_valid (m : Message) : m.triple.Valid where
  idx_lt := Nat.lt_succ_of_le m.callId_le
  result_ge := m.cmd_ge
  result_le := m.cmd_le
  data_ne := by
    unfold Message.triple payloadOf
    split <;> simp_all
  data_lt := by
    rw [Message.triple, getD_payloadOf]
    exact m.payload_lt

def sendMessage (m : Message) (o : Outlet) : Outcome Outlet Unit :=
  rpcSendData (.ofData m.payload) (.int m.callId) (.ofInt m.cmd) o

def sendMessages : List Message → Outlet → Outcome Outlet Unit
  | [], o => .ok () o
  | m :: ms, o => (sendMessage m o).bind fun _ o => sendMessages ms o

def receiveMessages (n : Nat) (inbox : Inbox) : Outcome Inbox (List Frame) :=
  frames.receiveMany n inbox

theorem packFrame_message (m : Message) :
    packFrame (.ofData m.payload) (.int m.callId) (.ofInt m.cmd) = .ok m.triple.encode := by
  have hcmd : packFrame (.ofData m.payload) (.int m.callId) (.ofInt m.cmd) =
      packFrame (.ofData m.payload) (.int m.callId) (.int (m.cmd.getD 0)) := by
    cases m.cmd <;> rfl
  obtain ⟨hword, _, _⟩ := wordOf_fields m.payload_lt m.cmd_ge m.cmd_le
  have hlo := m.cmd_ge
  have hhi := m.cmd_le
  rw [hcmd, packFrame_int (Nat.lt_succ_of_le m.callId_le) (by omega) (by omega), if_pos hword]
  rw [Frame.encode, Message.triple, getD_payloadOf]

theorem sendMessages_accepting (msgs : List Message) : ∀ {o : Outlet}, o.Accepting →
    ∃ o', sendMessages msgs o = .ok () o' ∧ o'.Accepting ∧
      o'.sent = o.sent ++ frames.encodeAll (msgs.map Message.triple) := by
  induction msgs with
  | nil => intro o ho; exact ⟨o, rfl, ho, by simp⟩
  | cons m msgs ih =>
    intro o ho
    obtain ⟨o₁, hsend, hsent, ho₁⟩ := rpcSendData_ok (packFrame_message m) ho
    obtain ⟨o₂, hmany, ho₂, hsent₂⟩ := ih ho₁
    refine ⟨o₂, ?_, ho₂, ?_⟩
    · rw [sendMessages, sendMessage, hsend, Outcome.bind_ok, hmany]
    · rw [hsent₂, hsent, List.map_cons, Codec.encodeAll_cons, List.append_assoc]
      rfl

/-- **A stream of messages comes back whole.**  Whatever `send` accepts of what it
    is handed and however the stream is cut on the way, receiving as many times
    gives the messages in order and leaves no byte unread. -/
theorem stream_round_trip (msgs : List Message) {o : Outlet} (ho : o.Accepting) :
    ∃ o' wire, sendMessages msgs o = .ok () o' ∧ o'.sent = o.sent ++ wire ∧
      ∀ inbox, Data inbox → bytesOf inbox = wire →
        ∃ inbox', receiveMessages msgs.length inbox = .ok (msgs.map Message.triple) inbox' ∧
          bytesOf inbox' = [] := by
  obtain ⟨o', hsend, _, hsent⟩ := sendMessages_accepting msgs ho
  refine ⟨o', _, hsend, hsent, ?_⟩
  intro inbox hd hb
  have hvalid : ∀ f ∈ msgs.map Message.triple, frames.valid f := by
    intro f hf
    obtain ⟨m, _, rfl⟩ := List.mem_map.mp hf
    exact m.triple_valid
  obtain ⟨inbox', hrecv, _, hb'⟩ :=
    frames.receiveMany_spec (msgs.map Message.triple) hvalid hd
      (hb.trans (List.append_nil _).symm) []
  rw [List.length_map, List.append_nil] at hrecv
  exact ⟨inbox' ++ [], hrecv, by simpa using hb'⟩

/-- Two messages, sent two bytes and then one byte at first, and received with the
    stream cut inside the first header. -/
theorem stream_round_trip_fragmented :
    ∃ o' wire inbox',
      sendMessages [⟨7, none, some [1, 2, 3], by decide, by decide, by decide, by decide⟩,
        ⟨65535, some (-1), none, by decide, by decide, by decide, by decide⟩]
        ⟨[.accept 2, .accept 1], []⟩ = .ok () o' ∧ o'.sent = wire ∧
      receiveMessages 2 (ofBytes (wire.take 5) ++ ([.cut] ++ ofBytes (wire.drop 5))) =
        .ok [⟨7, 0, some [1, 2, 3]⟩, ⟨65535, -1, none⟩] inbox' ∧
      bytesOf inbox' = [] := by
  have haccept : (⟨[.accept 2, .accept 1], []⟩ : Outlet).Accepting := by
    intro a ha
    rcases List.mem_cons.mp ha with rfl | ha
    · exact ⟨1, rfl⟩
    · exact ⟨0, List.mem_singleton.mp ha⟩
  obtain ⟨o', wire, hsend, hsent, hread⟩ := stream_round_trip
    [⟨7, none, some [1, 2, 3], by decide, by decide, by decide, by decide⟩,
      ⟨65535, some (-1), none, by decide, by decide, by decide, by decide⟩] haccept
  have hcut : Data [.cut] := fun s hs => Or.inl (List.mem_singleton.mp hs)
  obtain ⟨inbox', hrecv, hb⟩ :=
    hread (ofBytes (wire.take 5) ++ ([.cut] ++ ofBytes (wire.drop 5)))
      ((Data.ofBytes _).append (hcut.append (Data.ofBytes _))) (by simp)
  exact ⟨o', wire, inbox', hsend, by simpa using hsent, hrecv, hb⟩

/-! ### The payload lengths a frame survives -/

/-- Sending raises before the socket is touched, or what is sent is read back as
    the same frame with nothing left over. -/
def FrameIntact (callId : Nat) (cmd : Int) (payload : Bytes) (o : Outlet) : Prop :=
  (∃ e, rpcSendData (.bytes payload) (.int callId) (.int cmd) o = .raised e o) ∨
    ∃ o' wire, rpcSendData (.bytes payload) (.int callId) (.int cmd) o = .ok () o' ∧
      o'.sent = o.sent ++ wire ∧
      ∀ inbox, Data inbox → bytesOf inbox = wire →
        ∃ inbox', rpcReceiveData inbox = .ok ⟨callId, cmd, payloadOf payload⟩ inbox' ∧
          bytesOf inbox' = []

section Lengths

variable {callId : Nat} {cmd : Int} {payload : Bytes} {o : Outlet}

theorem packFrame_payload (payload : Bytes) (hid : callId ≤ 65535) (hlo : -128 ≤ cmd)
    (hhi : cmd ≤ 127) :
    packFrame (.bytes payload) (.int callId) (.int cmd) =
      if wordOf payload.length cmd < 2 ^ 32 then
        .ok (rawFrame callId (wordOf payload.length cmd) payload)
      else .error (.structError "") :=
  packFrame_int (Nat.lt_succ_of_le hid) (by omega) (by omega) (some payload)

theorem frameIntact_of_lt (hid : callId ≤ 65535) (hlo : -128 ≤ cmd) (hhi : cmd ≤ 127)
    (ho : o.Accepting) (hlen : payload.length < 2 ^ 24) : FrameIntact callId cmd payload o := by
  obtain ⟨hword, hmod, hsigned⟩ := wordOf_fields hlen hlo hhi
  have hpack := packFrame_payload payload hid hlo hhi
  rw [if_pos hword] at hpack
  obtain ⟨o', hsend, hsent, _⟩ := rpcSendData_ok hpack ho
  refine Or.inr ⟨o', _, hsend, hsent, ?_⟩
  intro inbox hd hb
  obtain ⟨inbox', hrecv, _, hb'⟩ := rpcReceiveData_raw (Nat.lt_succ_of_le hid) hword hmod.symm []
    hd (hb.trans (List.append_nil _).symm)
  rw [List.append_nil, hsigned] at hrecv
  exact ⟨inbox' ++ [], hrecv, by simpa using hb'⟩

theorem frameIntact_of_overflow (hid : callId ≤ 65535) (hlo : -128 ≤ cmd) (hhi : cmd ≤ 127)
    (hword : 2 ^ 32 ≤ wordOf payload.length cmd) : FrameIntact callId cmd payload o := by
  have hpack := packFrame_payload payload hid hlo hhi
  rw [if_neg (Nat.not_lt.mpr hword)] at hpack
  exact Or.inl ⟨_, rpcSendData_error hpack o⟩

/-- Between the two the length spills into the command byte: the receiver only
    waits for the low 24 bits of it. -/
theorem not_frameIntact (hid : callId ≤ 65535) (hlo : -128 ≤ cmd) (hhi : cmd ≤ 127)
    (ho : o.Accepting) (hlen : 2 ^ 24 ≤ payload.length)
    (hword : wordOf payload.length cmd < 2 ^ 32) : ¬ FrameIntact callId cmd payload o := by
  have hpack := packFrame_payload payload hid hlo hhi
  rw [if_pos hword] at hpack
  obtain ⟨o', hsend, hsent, _⟩ := rpcSendData_ok hpack ho
  rintro (⟨e, hraise⟩ | ⟨o₁, wire, _, _, hread⟩)
  · rw [hsend] at hraise
    cases hraise
  · obtain ⟨inbox', hrecv, _⟩ := hread (ofBytes wire) (Data.ofBytes wire) (bytesOf_ofBytes wire)
    obtain ⟨_, _, _, hshort⟩ := rpcReceiveData_ok hrecv
    rw [getD_payloadOf] at hshort
    omega

/-- **When a frame survives.**  Exactly the payloads shorter than `2 ^ 24`, which fit
    the length field, and those that overflow the whole word and are refused. -/
theorem frame_intact_iff (hid : callId ≤ 65535) (hlo : -128 ≤ cmd) (hhi : cmd ≤ 127)
    (ho : o.Accepting) :
    FrameIntact callId cmd payload o ↔
      payload.length < 2 ^ 24 ∨ 2 ^ 32 ≤ payload.length + (cmd % 256).toNat * 2 ^ 24 := by
  constructor
  · intro h
    by_contra hno
    rw [not_or, Nat.not_lt, Nat.not_le] at hno
    exact not_frameIntact hid hlo hhi ho hno.1 hno.2 h
  · rintro (hlen | hword)
    · exact frameIntact_of_lt hid hlo hhi ho hlen
    · exact frameIntact_of_overflow hid hlo hhi hword

theorem frame_intact_iff_short :
    FrameIntact 1 (-3) [5] ⟨[], []⟩ ↔
      [5].length < 2 ^ 24 ∨ 2 ^ 32 ≤ [5].length + ((-3 : Int) % 256).toNat * 2 ^ 24 :=
  frame_intact_iff (by decide) (by decide) (by decide) (by intro a ha; cases ha)

/-- Sixteen mebibytes under command 0: the receiver takes an empty frame with
    command 1, and the payload is read as the next header. -/
theorem frame_not_intact : ¬ FrameIntact 1 0 (List.replicate (2 ^ 24) 0) ⟨[], []⟩ := by
  have hlen : (List.replicate (2 ^ 24) (0 : UInt8)).length = 2 ^ 24 := List.length_replicate
  have haccept : (⟨[], []⟩ : Outlet).Accepting := by intro a ha; cases ha
  have hword : wordOf (List.replicate (2 ^ 24) (0 : UInt8)).length 0 < 2 ^ 32 := by
    rw [hlen]
    decide
  exact not_frameIntact (by decide) (by decide) (by decide) haccept (Nat.le_of_eq hlen.symm) hword

end Lengths

end Albatross.Framing
