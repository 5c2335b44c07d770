/-
  Albatross/Reconnects.lean
  =========================
  **Connecting again after many calls.**

  `get_apis` sends its request under the call counter as it is.  A connection attempt
  can encode that request, and a reconnect then succeeds, exactly while the counter
  fits the 16-bit field (`reconnects_after_iff`).
-/
import Albatross.SessionRuns

namespace Albatross.Session

open Python Wire Framing Calls ApiTable Assoc Runs

/-! ### The id a table is fetched with -/

/-- The socket takes the request and delivers a well-formed table, in whatever pieces. -/
def AnswersTable (wire : Sock) : Prop :=
  wire.outlet.Accepting ∧ ∃ apis broadcasts f body rest, Frame.Valid f ∧
    f.data = some (encodeTable apis broadcasts) ∧ Data body ∧ bytesOf body = f.encode ∧
    wire.inbox = body ++ rest

/-- `connect` can encode its own request and ends well, and `reconnect` of a client
    without a connection returns `True`. -/
def Reconnects (c : Client) (wire : Sock) : Prop :=
  (∃ payload, packFrame .none (.int c.callCounter) (.int MSG_APIS) = .ok payload) ∧
    (∃ c', connect (.accepts wire) c = .ok () c') ∧
      (c.sock = none → ∃ c', reconnect (.accepts wire) c = .ok true c')

section Fetch

variable {c : Client} {wire : Sock}

theorem packHead_error {callId : PyValue} {e : PyExn} (h : packUnsigned 2 callId = .error e)
    (lenResult : Int) : packHead callId lenResult = .error e := by
  unfold packHead
  rw [h]
  rfl

theorem packFrame_table_iff (n : Nat) :
    (∃ payload, packFrame .none (.int n) (.int MSG_APIS) = .ok payload) ↔ n < 2 ^ 16 := by
  constructor
  · rintro ⟨payload, hpack⟩
    have hcmd : cmdByte (.int MSG_APIS) = .ok ((MSG_APIS % 256).toNat : Int) :=
      cmdByte_int (by decide) (by decide)
    rw [packFrame_falsy hcmd rfl] at hpack
    cases hid : packUnsigned 2 (.int n) with
    | ok id => exact (of_packUnsigned hid).1
    | error e =>
      rw [packHead_error hid] at hpack
      cases hpack
  · intro hn
    exact ⟨_, packFrame_table hn⟩

theorem connect_ok (hcounter : c.callCounter < 2 ^ 16) (hw : AnswersTable wire) :
    ∃ c', connect (.accepts wire) c = .ok () c' := by
  obtain ⟨ho, apis, broadcasts, f, body, rest, hv, hdata, hd, hb, hinbox⟩ := hw
  obtain ⟨s, hget⟩ := getApis_ok hcounter ho hv hdata hd hb hinbox
  rw [connect, hget]
  exact ⟨_, rfl⟩

theorem reconnect_ok (hdown : c.sock = none) {c' : Client} {host : Host}
    (h : connect host c = .ok () c') : reconnect host c = .ok true c' := by
  unfold reconnect
  rw [hdown]
  dsimp only
  rw [h]

theorem reconnects_iff (hw : AnswersTable wire) : Reconnects c wire ↔ c.callCounter < 2 ^ 16 := by
  rw [Reconnects, packFrame_table_iff]
  constructor
  · intro h
    exact h.1
  · intro hcounter
    obtain ⟨c', hconn⟩ := connect_ok hcounter hw
    exact ⟨hcounter, ⟨c', hconn⟩, fun hdown => ⟨c', reconnect_ok hdown hconn⟩⟩

/-! #### How the counter grows -/

/-- Fetching a table counts once, and not at all if the request cannot be sent. -/
theorem getApis_counter (n : Nat) (wire : Sock) : (getApis n wire).state.1 ≤ n + 1 := by
  unfold getApis
  cases rpcSendData .none (.int n) (.int MSG_APIS) wire.outlet with
  | blocked o => exact Nat.le_succ n
  | raised e o => exact Nat.le_succ n
  | ok u o =>
    rw [Outcome.lift_ok, Outcome.bind_ok]
    dsimp only
    cases rpcReceiveData wire.inbox with
    | blocked inbox => exact le_refl _
    | raised e inbox => exact le_refl _
    | ok f inbox =>
      rw [Outcome.lift_ok, Outcome.bind_ok]
      cases parseApis f.data with
      | error e => exact le_refl _
      | ok tables => exact le_refl _

theorem fetched_counter (c : Client) (r : Outcome (Nat × Sock) ApiTables) :
    (fetched c r).state.callCounter = r.state.1 := by
  cases r <;> rfl

theorem connect_counter (host : Host) (c : Client) :
    (connect host c).state.callCounter ≤ c.callCounter + 1 := by
  cases host with
  | refused e => exact Nat.le_succ _
  | accepts wire =>
    rw [connect, fetched_counter]
    exact getApis_counter c.callCounter wire

theorem Invoked.counter {m : Call} {timeout : Option ℚ} {c' : Client} (h : Invoked m timeout c c') :
    c'.callCounter ≤ c.callCounter + 1 := by
  cases h with
  | banned _ => exact Nat.le_succ _
  | unprepared _ _ => exact le_refl _
  | closed _ _ _ => exact le_refl _
  | badTimeout _ _ _ _ => exact le_refl _
  | kept _ _ _ _ => exact le_refl _
  | failed _ _ _ _ _ _ _ => exact le_refl _
  | completed _ _ _ _ _ _ _ => exact le_refl _

theorem step_counter {cls : ApiClass} {op : Op} {c' : Client} (h : step cls c op = some c') :
    c'.callCounter ≤ c.callCounter + 1 := by
  cases op with
  | connect host =>
    rw [← settled_eq_some h]
    exact connect_counter host c
  | reconnect host =>
    rw [← settled_eq_some h]
    rcases reconnect_state host c with hsame | hconn
    · rw [hsame]
      exact Nat.le_succ _
    · rw [hconn]
      exact connect_counter host c
  | forbidCall => cases h; exact Nat.le_succ _
  | close =>
    cases h
    unfold close
    split <;> exact Nat.le_succ _
  | onClose =>
    cases h
    unfold onClose close
    split <;> exact Nat.le_succ _
  | call name handler timeout raw =>
    obtain ⟨attrs, hframe⟩ := getattr_frame cls name c
    rcases call_cases h with rfl | ⟨rpcId, parser, _, hinvoked⟩
    · rw [hframe]
      exact Nat.le_succ _
    · rw [hframe] at hinvoked
      exact hinvoked.counter

theorem callCounter_le {cls : ApiClass} {name : String} {defaultTimeout : Timeout} {ops : List Op}
    (hrun : run (step cls) (Client.new name defaultTimeout) ops = some c) :
    c.callCounter ≤ ops.length := by
  have hstep : ∀ past a op b, op ∈ ops → a.callCounter ≤ past.length → step cls a op = some b →
      b.callCounter ≤ (past ++ [op]).length := by
    intro past a op b _ ha hone
    have hgrow := step_counter hone
    rw [List.length_append, List.length_singleton]
    omega
  exact run_history (I := fun past (s : Client) => s.callCounter ≤ past.length) hstep []
    (Nat.le_refl 0) hrun

/-- **Reconnecting works exactly while the call counter fits its field**: after every
    history, for every server that answers with a table.  The counter is at most the
    number of operations. -/
theorem reconnects_after_iff {cls : ApiClass} {name : String} {defaultTimeout : Timeout}
    {ops : List Op} (hrun : run (step cls) (Client.new name defaultTimeout) ops = some c)
    (hw : AnswersTable wire) :
    c.callCounter ≤ ops.length ∧ (Reconnects c wire ↔ c.callCounter < 2 ^ 16) :=
  ⟨callCounter_le hrun, reconnects_iff hw⟩

/-! #### A client that has called 65534 times -/

theorem answersTable_pingWire (cmd : UInt8) : AnswersTable (pingWire cmd) := by
  have hvalid : (pingTable cmd).Valid := by
    refine ⟨?_, ?_, ?_, (fun h => by cases h), ?_⟩
    · show 0 < 2 ^ 16
      decide
    · show (-128 : Int) ≤ 0
      decide
    · show (0 : Int) ≤ 127
      decide
    · show (encodeTable [⟨0, "ping", Or.inl (by decide)⟩] []).length < 2 ^ 24
      decide
  exact ⟨fun _ ha => absurd ha List.not_mem_nil, _, _, pingTable cmd, _, [], hvalid, rfl,
    Data.ofBytes _, bytesOf_ofBytes _, (List.append_nil _).symm⟩

theorem reconnects_after_iff_close : ∃ c,
    run (step pinging) (Client.new "c" hundredSeconds) (renumbered.take 3) = some c ∧
      c.callCounter ≤ 3 ∧ (Reconnects c (pingWire 2) ↔ c.callCounter < 2 ^ 16) := by
  have hruns : (run (step pinging) (Client.new "c" hundredSeconds) (renumbered.take 3)).isSome := by
    decide +kernel
  obtain ⟨c, hc⟩ := Option.isSome_iff_exists.mp hruns
  exact ⟨c, hc, reconnects_after_iff hc (answersTable_pingWire 2)⟩

theorem step_answered {conn : Conn} (hkept : c.attrs.lookup "ping" = some (.method 1 .void))
    (hsock : c.sock = some conn) (hfree : c.prohibitRequest = false) :
    step pinging c answered = some { c with callCounter := c.callCounter + 1 } := by
  have hsame : some { c with callCounter := c.callCounter + 1, sock := some conn } =
      some { c with callCounter := c.callCounter + 1 } := by rw [← hsock]
  rw [← hsame]
  simp [step, answered, call, getattr, hkept, invoke, hfree, hsock, setTimeout, settled]

theorem run_answered {conn : Conn} (n : Nat) : ∀ {c : Client},
    c.attrs.lookup "ping" = some (.method 1 .void) → c.sock = some conn →
      c.prohibitRequest = false →
        run (step pinging) c (List.replicate n answered) =
          some { c with callCounter := c.callCounter + n } := by
  induction n with
  | zero => intro c _ _ _; rfl
  | succ n ih =>
    intro c hkept hsock hfree
    rw [List.replicate_succ, run_cons, step_answered hkept hsock hfree, Option.bind_some]
    rw [ih (c := { c with callCounter := c.callCounter + 1 }) hkept hsock hfree, Nat.add_right_comm]
    rfl

/-- The counter of a client that can call `ping`. -/
def pingCounter (c : Client) : Option Nat :=
  match c.attrs.lookup "ping", c.sock with
  | some (.method 1 .void), some _ => if c.prohibitRequest then none else some c.callCounter
  | _, _ => none

theorem pingCounter_eq_some {c : Client} {n : Nat} (h : pingCounter c = some n) :
    ∃ conn, c.attrs.lookup "ping" = some (.method 1 .void) ∧ c.sock = some conn ∧
      c.prohibitRequest = false ∧ c.callCounter = n := by
  unfold pingCounter at h
  split at h
  · next conn hkept hsock =>
    split at h
    · cases h
    · next hfree => exact ⟨conn, hkept, hsock, by simpa using hfree, Option.some.inj h⟩
  · cases h

theorem run_started :
    ∃ c conn, run (step pinging) (Client.new "c" hundredSeconds) started = some c ∧
    c.attrs.lookup "ping" = some (.method 1 .void) ∧ c.sock = some conn ∧
      c.prohibitRequest = false ∧ c.callCounter = 2 := by
  have hall : (run (step pinging) (Client.new "c" hundredSeconds) started).bind pingCounter =
      some 2 := by decide +kernel
  obtain ⟨c, hc, hstate⟩ := Option.bind_eq_some_iff.mp hall
  obtain ⟨conn, hfacts⟩ := pingCounter_eq_some hstate
  exact ⟨c, conn, hc, hfacts⟩

def worn : List Op := started ++ (List.replicate 65534 answered ++ [.close])

/-- The client cannot be connected again to the server it came from. -/
theorem worn_out : ∃ c, run (step pinging) (Client.new "c" hundredSeconds) worn = some c ∧
    c.sock = none ∧ AnswersTable (pingWire 1) ∧ ¬ Reconnects c (pingWire 1) := by
  obtain ⟨c, conn, hc, hkept, hsock, hfree, hcounter⟩ := run_started
  refine ⟨{ c with callCounter := c.callCounter + 65534, sock := none }, ?_, rfl,
    answersTable_pingWire 1, ?_⟩
  · rw [worn, run_append, hc, Option.bind_some, run_append, run_answered _ hkept hsock hfree]
    simp [step, close, hsock]
  · rw [reconnects_iff (answersTable_pingWire 1)]
    show ¬ c.callCounter + 65534 < 2 ^ 16
    omega

end Fetch

end Albatross.Session
