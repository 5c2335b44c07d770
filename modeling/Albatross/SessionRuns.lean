/-
  Albatross/SessionRuns.lean
  ==========================
  **What a call of a client can do, and the id it goes out with.**

  A call by name looks up an attribute or makes one from the table (`Looked`), and
  then ends in one of few ways (`Invoked`).  A call that reaches the socket carries the
  id the current table gives to its name exactly when the method object kept on the
  client still has that id (`call_follows_table_iff`); the kept id is one that some
  earlier table gave (`kept_id_from_table`).
-/
import Albatross.Session

namespace Albatross.Session

open Python Wire Framing Calls ApiTable Assoc Runs

/-! ### What a call can do -/

/-- The call gets an answer that its parser accepts. -/
def Completes (m : Call) (methodId : Nat) (wire : Sock) : Prop :=
  m.isVoid = false ∧ ∃ outlet f inbox v,
    rpcSendData (.ofData m.payload) (.int methodId) (.int m.rpcId) wire.outlet = .ok () outlet ∧
      receiveReply methodId (wire.inbox.length + 1) wire.inbox = .ok f inbox ∧ m.finish f = .ok v

def Sends : Except PyExn Content → Prop
  | .ok (.bytes _) => True
  | .ok (.text _) => True
  | _ => False

section Exchange

variable {m : Call} {methodId : Nat} {conn conn' : Conn}

theorem exchange_timeout (m : Call) (methodId : Nat) (conn : Conn) :
    (exchange m methodId conn).state.timeout = conn.timeout := by
  unfold exchange
  cases rpcSendData (.ofData m.payload) (.int methodId) (.int m.rpcId) conn.wire.outlet with
  | blocked o => rfl
  | raised e o => rfl
  | ok u o =>
    rw [Outcome.lift_ok, Outcome.bind_ok]
    by_cases hvoid : m.isVoid = true
    · rw [if_pos hvoid]; rfl
    · rw [if_neg hvoid]
      dsimp only
      cases receiveReply methodId (conn.wire.inbox.length + 1) conn.wire.inbox with
      | blocked inbox => rfl
      | raised e inbox => rfl
      | ok f inbox => rfl

theorem exchange_completes {f : Frame} {v : PyValue}
    (h : exchange m methodId conn = .ok (some f) conn') (hv : m.finish f = .ok v) :
    Completes m methodId conn.wire := by
  unfold exchange at h
  obtain ⟨_, s, hsend, h⟩ := Outcome.bind_eq_ok h
  cases hout : rpcSendData (.ofData m.payload) (.int methodId) (.int m.rpcId) conn.wire.outlet with
  | blocked o => rw [hout] at hsend; cases hsend
  | raised e o => rw [hout] at hsend; cases hsend
  | ok u o =>
    rw [hout] at hsend
    cases hsend
    by_cases hvoid : m.isVoid = true
    · rw [if_pos hvoid] at h; cases h
    · rw [if_neg hvoid] at h
      obtain ⟨g, s, hrecv, h⟩ := Outcome.bind_eq_ok h
      dsimp only at hrecv
      cases hin : receiveReply methodId (conn.wire.inbox.length + 1) conn.wire.inbox with
      | blocked inbox => rw [hin] at hrecv; cases hrecv
      | raised e inbox => rw [hin] at hrecv; cases hrecv
      | ok f' inbox =>
        rw [hin] at hrecv
        cases hrecv
        cases h
        exact ⟨Bool.eq_false_iff.mpr hvoid, o, f, inbox, v, hout, hin, hv⟩

theorem exchange_of_completes (h : Completes m methodId conn.wire) :
    ∃ f conn' v, exchange m methodId conn = .ok (some f) conn' ∧ m.finish f = .ok v := by
  obtain ⟨hvoid, o, f, inbox, v, hout, hin, hv⟩ := h
  refine ⟨f, ⟨⟨inbox, o⟩, conn.timeout⟩, v, ?_, hv⟩
  unfold exchange
  rw [hout, Outcome.lift_ok, Outcome.bind_ok, if_neg (by rw [hvoid]; exact Bool.false_ne_true)]
  dsimp only
  rw [hin, Outcome.lift_ok, Outcome.bind_ok]

/-- A request that cannot be packed leaves the connection as it is. -/
theorem exchange_unpacked (h : requestOf m methodId = []) :
    ∃ e, exchange m methodId conn = .raised e conn := by
  unfold requestOf at h
  cases hpack : packFrame (.ofData m.payload) (.int methodId) (.int m.rpcId) with
  | ok payload => rw [hpack] at h; cases h
  | error e =>
    refine ⟨e, ?_⟩
    unfold exchange
    rw [rpcSendData_error hpack, Outcome.lift_raised, Outcome.bind_raised]

end Exchange

/-- The ways a call of a method object can end. -/
inductive Invoked (m : Call) (timeout : Option ℚ) (c : Client) : Client → Prop where
  | banned : c.prohibitRequest = true → Invoked m timeout c c
  | unprepared {e : PyExn} : c.prohibitRequest = false → m.handler = .error e →
      Invoked m timeout c { c with callCounter := c.callCounter + 1 }
  | closed {content : Content} : c.prohibitRequest = false → m.handler = .ok content →
      c.sock = none → Invoked m timeout c { c with callCounter := c.callCounter + 1 }
  | badTimeout {content : Content} {conn : Conn} {e : PyExn} : c.prohibitRequest = false →
      m.handler = .ok content → c.sock = some conn → setTimeout timeout conn = .error e →
      Invoked m timeout c { c with callCounter := c.callCounter + 1 }
  | kept {conn conn' : Conn} {v : PyValue} : c.prohibitRequest = false →
      m.handler = .ok (.justReturn v) → c.sock = some conn → setTimeout timeout conn = .ok conn' →
      Invoked m timeout c { c with callCounter := c.callCounter + 1, sock := some conn' }
  | failed {conn conn' conn'' : Conn} : c.prohibitRequest = false → Sends m.handler →
      c.sock = some conn → setTimeout timeout conn = .ok conn' →
      ¬ Completes m (callId c.callCounter) conn'.wire → conn''.timeout = conn'.timeout →
      (requestOf m (callId c.callCounter) = [] → conn''.wire = conn'.wire) →
      Invoked m timeout c { c with
        callCounter := c.callCounter + 1
        requests := c.requests ++ requestOf m (callId c.callCounter)
        sock := some conn'' }
  | completed {conn conn' conn'' : Conn} : c.prohibitRequest = false → Sends m.handler →
      c.sock = some conn → setTimeout timeout conn = .ok conn' →
      Completes m (callId c.callCounter) conn'.wire → conn''.timeout = conn'.timeout →
      (requestOf m (callId c.callCounter) = [] → conn''.wire = conn'.wire) →
      Invoked m timeout c { c with
        callCounter := c.callCounter + 1
        requests := c.requests ++ requestOf m (callId c.callCounter)
        sock := some (restoreTimeout timeout c.defaultTimeout conn'') }

theorem converse_cases {m : Call} {methodId : Nat} {timeout : Option ℚ} {conn : Conn}
    {c c' : Client}
    (h : settled (converse m methodId timeout conn c) = some c') :
    ∃ conn'', conn''.timeout = conn.timeout ∧
      (requestOf m methodId = [] → conn''.wire = conn.wire) ∧
      ((¬ Completes m methodId conn.wire ∧
          c' = { c with requests := c.requests ++ requestOf m methodId, sock := some conn'' }) ∨
        (Completes m methodId conn.wire ∧
          c' = { c with
            requests := c.requests ++ requestOf m methodId
            sock := some (restoreTimeout timeout c.defaultTimeout conn'') })) := by
  have htimeout := exchange_timeout m methodId conn
  have hall : Completes m methodId conn.wire → _ := exchange_of_completes
  have hwire : requestOf m methodId = [] → (exchange m methodId conn).state.wire = conn.wire := by
    intro hnone
    obtain ⟨e, hraised⟩ := exchange_unpacked hnone
    rw [hraised]
    rfl
  unfold converse at h
  cases hx : exchange m methodId conn with
  | blocked conn'' => rw [hx] at h; cases h
  | raised e conn'' =>
    rw [hx] at h htimeout hwire
    refine ⟨conn'', htimeout, hwire, Or.inl ⟨fun hc => ?_, (Option.some.inj h).symm⟩⟩
    obtain ⟨f, conn₁, v, hok, _⟩ := hall hc
    rw [hx] at hok
    cases hok
  | ok reply conn'' =>
    rw [hx] at h htimeout hwire
    cases reply with
    | none =>
      refine ⟨conn'', htimeout, hwire, Or.inl ⟨fun hc => ?_, (Option.some.inj h).symm⟩⟩
      obtain ⟨f, conn₁, v, hok, _⟩ := hall hc
      rw [hx] at hok
      cases hok
    | some f =>
      cases hv : m.finish f with
      | ok v =>
        simp only [hv] at h
        exact ⟨conn'', htimeout, hwire, Or.inr ⟨exchange_completes hx hv, (Option.some.inj h).symm⟩⟩
      | error e =>
        simp only [hv] at h
        refine ⟨conn'', htimeout, hwire, Or.inl ⟨fun hc => ?_, (Option.some.inj h).symm⟩⟩
        obtain ⟨f', conn₁, v, hok, hv'⟩ := hall hc
        rw [hx] at hok
        cases hok
        rw [hv] at hv'
        cases hv'

/-- **What a call of a method object can do.** -/
theorem invoke_cases {m : Call} {timeout : Option ℚ} {c c' : Client}
    (h : settled (invoke m timeout c) = some c') : Invoked m timeout c c' := by
  unfold invoke at h
  split at h
  · next hban => cases h; exact .banned hban
  · next hban =>
    have hfree : c.prohibitRequest = false := Bool.eq_false_iff.mpr hban
    dsimp only at h
    split at h
    · next e hhandler => cases h; exact .unprepared hfree hhandler
    · next content hhandler =>
      split at h
      · next hsock => cases h; exact .closed hfree hhandler hsock
      · next conn hsock =>
        split at h
        · next e hset => cases h; exact .badTimeout hfree hhandler hsock hset
        · next conn' hset =>
          have hsent : Sends m.handler →
              settled (converse m (callId c.callCounter) timeout conn'
                { c with callCounter := c.callCounter + 1 }) = some c' →
              Invoked m timeout c c' := by
            intro hs hconv
            obtain ⟨conn'', ht, hw, ⟨hno, rfl⟩ | ⟨hc, rfl⟩⟩ := converse_cases hconv
            · exact .failed hfree hs hsock hset hno ht hw
            · exact .completed hfree hs hsock hset hc ht hw
          cases content with
          | justReturn v => cases h; exact .kept hfree hhandler hsock hset
          | bytes bs => exact hsent (by rw [hhandler]; trivial) h
          | text s => exact hsent (by rw [hhandler]; trivial) h

/-- A lookup gives what is kept under the name, or makes a method object from the table
    and keeps it, or fails. -/
inductive Looked (cls : ApiClass) (method : String) (c : Client) :
    Except PyExn Attr × Client → Prop where
  | kept {a : Attr} : c.attrs.lookup method = some a → Looked cls method c (.ok a, c)
  | made {rpcId : Int} {parser : Parser} : c.attrs.lookup method = none →
      c.tables.allowApis.lookup (.str method) = some rpcId →
      Looked cls method c (.ok (.method rpcId parser), setattr method (.method rpcId parser) c)
  | other : c.attrs.lookup method = none → Looked cls method c (.ok .other, setattr method .other c)
  | failed {e : PyExn} : c.attrs.lookup method = none → Looked cls method c (.error e, c)

theorem getattr_cases (cls : ApiClass) (method : String) (c : Client) :
    Looked cls method c (getattr cls method c) := by
  unfold getattr
  cases hkept : c.attrs.lookup method with
  | some a => exact .kept hkept
  | none =>
    cases htable : c.tables.allowApis.lookup (.str method) with
    | some rpcId =>
      dsimp only
      split
      · exact .failed hkept
      · split
        · exact .made hkept htable
        · exact .failed hkept
      · exact .made hkept htable
    | none =>
      dsimp only
      split
      · exact .other hkept
      · exact .failed hkept

theorem getattr_frame (cls : ApiClass) (method : String) (c : Client) :
    ∃ attrs, (getattr cls method c).2 = { c with attrs := attrs } := by
  have hcases := getattr_cases cls method c
  generalize getattr cls method c = r at hcases
  cases hcases with
  | kept _ => exact ⟨c.attrs, rfl⟩
  | made _ _ => exact ⟨_, rfl⟩
  | other _ => exact ⟨_, rfl⟩
  | failed _ => exact ⟨c.attrs, rfl⟩

/-- A call by name is a lookup and, if that finds a method object, a call of it. -/
theorem call_cases {cls : ApiClass} {name : String} {handler : Except PyExn Content}
    {timeout : Option ℚ} {raw : Bool} {c c' : Client}
    (h : settled (call cls name handler timeout raw c) = some c') :
    c' = (getattr cls name c).2 ∨ ∃ rpcId parser,
      (getattr cls name c).1 = .ok (.method rpcId parser) ∧
        Invoked ⟨name, rpcId, handler, parser, raw⟩ timeout (getattr cls name c).2 c' := by
  unfold call at h
  split at h
  · next e c₁ hget =>
    rw [hget]
    exact Or.inl (Option.some.inj h).symm
  · next c₁ hget =>
    rw [hget]
    exact Or.inl (Option.some.inj h).symm
  · next rpcId parser c₁ hget =>
    rw [hget]
    exact Or.inr ⟨rpcId, parser, rfl, invoke_cases h⟩

theorem setTimeout_wire {timeout : Option ℚ} {conn conn' : Conn}
    (h : setTimeout timeout conn = .ok conn') : conn'.wire = conn.wire := by
  unfold setTimeout at h
  split at h
  · cases h; rfl
  · split at h
    · cases h; rfl
    · next seconds _ =>
      cases hcheck : checkTimeout seconds with
      | error e => rw [hcheck] at h; cases h
      | ok t => rw [hcheck] at h; cases h; rfl

theorem restoreTimeout_wire (timeout : Option ℚ) (t : Timeout) (conn : Conn) :
    (restoreTimeout timeout t conn).wire = conn.wire := by
  unfold restoreTimeout
  split
  · rfl
  · split <;> rfl

/-! ### What the other operations leave -/

theorem settled_eq_some {α : Type} {x : Outcome Client α} {c' : Client} (h : settled x = some c') :
    x.state = c' := by
  cases x with
  | ok a c => exact Option.some.inj h
  | raised e c => exact Option.some.inj h
  | blocked c => cases h

theorem reconnect_state (host : Host) (c : Client) :
    (reconnect host c).state = c ∨ (reconnect host c).state = (connect host c).state := by
  unfold reconnect
  cases c.sock with
  | some conn => exact Or.inl rfl
  | none =>
    right
    dsimp only
    cases connect host c with
    | blocked c => rfl
    | raised e c => rfl
    | ok u c => rfl

/-! ### The id a call is sent with -/

def sentBytes (c : Client) : Bytes := match c.sock with
  | some conn => conn.wire.outlet.sent
  | none => []

def Reaches (c c' : Client) : Prop := c'.requests ≠ c.requests

/-- The one request it hands over carries the id that the table gives to the name. -/
def SentByTable (name : String) (c c' : Client) : Prop :=
  ∃ rpcId, c.tables.allowApis.lookup (.str name) = some rpcId ∧
    c'.requests = c.requests ++ [(name, rpcId)]

/-- A method object kept under the name has the id that the table gives to it. -/
def Current (name : String) (c : Client) : Prop :=
  ∀ rpcId parser, c.attrs.lookup name = some (.method rpcId parser) →
    c.tables.allowApis.lookup (.str name) = some rpcId

section Sent

variable {cls : ApiClass} {name : String} {handler : Except PyExn Content} {timeout : Option ℚ}
  {raw : Bool} {c c' : Client} {m : Call}

theorem requestOf_cases (m : Call) (methodId : Nat) :
    requestOf m methodId = [] ∨ requestOf m methodId = [(m.name, m.rpcId)] := by
  unfold requestOf
  split
  · exact Or.inr rfl
  · exact Or.inl rfl

/-- A call of a method object hands over nothing, and then nothing is sent, or its own
    request. -/
theorem Invoked.requests (h : Invoked m timeout c c') :
    (c'.requests = c.requests ∧ sentBytes c' = sentBytes c) ∨
      c'.requests = c.requests ++ [(m.name, m.rpcId)] := by
  have hbytes : ∀ {conn conn' : Conn}, c.sock = some conn → conn'.wire = conn.wire →
      conn'.wire.outlet.sent = sentBytes c := by
    intro conn conn' hsock hwire
    rw [hwire, sentBytes, hsock]
  cases h with
  | banned _ => exact Or.inl ⟨rfl, rfl⟩
  | unprepared _ _ => exact Or.inl ⟨rfl, rfl⟩
  | closed _ _ _ => exact Or.inl ⟨rfl, rfl⟩
  | badTimeout _ _ _ _ => exact Or.inl ⟨rfl, rfl⟩
  | kept _ _ hsock hset => exact Or.inl ⟨rfl, hbytes hsock (setTimeout_wire hset)⟩
  | failed _ _ hsock hset _ _ hwire =>
    rcases requestOf_cases m (callId c.callCounter) with hnone | hone
    · left
      refine ⟨by rw [hnone, List.append_nil], hbytes hsock ?_⟩
      rw [hwire hnone, setTimeout_wire hset]
    · right
      rw [hone]
  | completed _ _ hsock hset _ _ hwire =>
    rcases requestOf_cases m (callId c.callCounter) with hnone | hone
    · left
      refine ⟨by rw [hnone, List.append_nil], hbytes hsock ?_⟩
      rw [restoreTimeout_wire, hwire hnone, setTimeout_wire hset]
    · right
      rw [hone]

/-- A call by name sends nothing, or hands over one request with the id of the method
    object it found. -/
theorem call_requests (h : settled (call cls name handler timeout raw c) = some c') :
    (c'.requests = c.requests ∧ sentBytes c' = sentBytes c) ∨ ∃ rpcId parser,
      (getattr cls name c).1 = .ok (.method rpcId parser) ∧
        c'.requests = c.requests ++ [(name, rpcId)] := by
  obtain ⟨attrs, hframe⟩ := getattr_frame cls name c
  rcases call_cases h with rfl | ⟨rpcId, parser, hget, hinvoked⟩
  · rw [hframe]
    exact Or.inl ⟨rfl, rfl⟩
  · rw [hframe] at hinvoked
    rcases hinvoked.requests with hsilent | hone
    · exact Or.inl hsilent
    · exact Or.inr ⟨rpcId, parser, hget, hone⟩

/-- What a lookup finds has the table's id exactly when what is kept is current. -/
theorem getattr_current {rpcId : Int} {parser : Parser}
    (h : (getattr cls name c).1 = .ok (.method rpcId parser)) :
    c.tables.allowApis.lookup (.str name) = some rpcId ↔ Current name c := by
  have hcases := getattr_cases cls name c
  generalize getattr cls name c = r at h hcases
  cases hcases with
  | kept hkept =>
    cases h
    constructor
    · intro htable rpcId' parser' hkept'
      rw [hkept] at hkept'
      cases hkept'
      exact htable
    · intro hcurrent
      exact hcurrent rpcId parser hkept
  | made hnone htable =>
    cases h
    refine ⟨fun _ rpcId' parser' hkept => ?_, fun _ => htable⟩
    rw [hnone] at hkept
    cases hkept
  | other _ => cases h
  | failed _ => cases h

theorem fetched_attrs (c : Client) (r : Outcome (Nat × Sock) ApiTables) :
    (fetched c r).state.attrs = c.attrs := by
  cases r <;> rfl

theorem connect_attrs (host : Host) (c : Client) : (connect host c).state.attrs = c.attrs := by
  cases host with
  | refused e => rfl
  | accepts wire => rw [connect, fetched_attrs]

theorem Invoked.attrs (h : Invoked m timeout c c') : c'.attrs = c.attrs := by
  cases h <;> rfl

theorem step_attrs {op : Op} (h : step cls c op = some c') :
    c'.attrs = c.attrs ∨ ∃ name, c'.attrs = (getattr cls name c).2.attrs := by
  cases op with
  | connect host =>
    rw [← settled_eq_some h]
    exact Or.inl (connect_attrs host c)
  | reconnect host =>
    rw [← settled_eq_some h]
    rcases reconnect_state host c with hsame | hconn
    · rw [hsame]
      exact Or.inl rfl
    · rw [hconn]
      exact Or.inl (connect_attrs host c)
  | forbidCall => cases h; exact Or.inl rfl
  | close =>
    cases h
    unfold close
    split <;> exact Or.inl rfl
  | onClose =>
    cases h
    unfold onClose close
    split <;> exact Or.inl rfl
  | call name handler timeout raw =>
    rcases call_cases h with rfl | ⟨_, _, _, hinvoked⟩
    · exact Or.inr ⟨name, rfl⟩
    · exact Or.inr ⟨name, hinvoked.attrs⟩

/-- What a lookup leaves under a name was there before or comes from the table. -/
theorem getattr_kept {method : String} {rpcId : Int} {parser : Parser}
    (h : (getattr cls method c).2.attrs.lookup name = some (.method rpcId parser)) :
    c.attrs.lookup name = some (.method rpcId parser) ∨
      c.tables.allowApis.lookup (.str name) = some rpcId := by
  have hcases := getattr_cases cls method c
  generalize getattr cls method c = r at h hcases
  cases hcases with
  | kept _ => exact Or.inl h
  | failed _ => exact Or.inl h
  | made _ htable =>
    rcases lookup_insert_eq_some.mp h with ⟨rfl, hnew⟩ | ⟨-, hold⟩
    · cases hnew
      exact Or.inr htable
    · exact Or.inl hold
  | other _ =>
    rcases lookup_insert_eq_some.mp h with ⟨-, hnew⟩ | ⟨-, hold⟩
    · cases hnew
    · exact Or.inl hold

end Sent

/-- **A kept method object has the id of a table of its time**: some earlier state of the
    history had a table that gave it. -/
theorem kept_id_from_table {cls : ApiClass} {clientName name : String} {defaultTimeout : Timeout}
    {ops : List Op} {c : Client} {rpcId : Int} {parser : Parser}
    (hrun : run (step cls) (Client.new clientName defaultTimeout) ops = some c)
    (hkept : c.attrs.lookup name = some (.method rpcId parser)) :
    ∃ past rest c₀, ops = past ++ rest ∧
      run (step cls) (Client.new clientName defaultTimeout) past = some c₀ ∧
        c₀.tables.allowApis.lookup (.str name) = some rpcId := by
  let Known : List Op → Client → Prop := fun taken s =>
    run (step cls) (Client.new clientName defaultTimeout) taken = some s ∧
      ∀ rpcId parser, s.attrs.lookup name = some (.method rpcId parser) →
        ∃ past rest c₀, taken = past ++ rest ∧
          run (step cls) (Client.new clientName defaultTimeout) past = some c₀ ∧
            c₀.tables.allowApis.lookup (.str name) = some rpcId
  have hstart : Known [] (Client.new clientName defaultTimeout) := by
    refine ⟨rfl, fun rpcId parser h => ?_⟩
    cases h
  have hstep : ∀ taken s op s', op ∈ ops → Known taken s → step cls s op = some s' →
      Known (taken ++ [op]) s' := by
    rintro taken s op s' _ ⟨hrun, hknown⟩ hone
    constructor
    · rw [run_append, hrun, Option.bind_some, run_cons, hone]
      rfl
    intro rpcId parser h
    have hold : s.attrs.lookup name = some (.method rpcId parser) ∨
        s.tables.allowApis.lookup (.str name) = some rpcId := by
      rcases step_attrs hone with hsame | ⟨method, hlooked⟩
      · rw [hsame] at h
        exact Or.inl h
      · rw [hlooked] at h
        exact getattr_kept h
    rcases hold with hkept | htable
    · obtain ⟨past, rest, c₀, htaken, hpast, htable⟩ := hknown rpcId parser hkept
      exact ⟨past, rest ++ [op], c₀, by rw [htaken, List.append_assoc], hpast, htable⟩
    · exact ⟨taken, [op], s, rfl, hrun, htable⟩
  exact (run_history hstep [] hstart hrun).2 rpcId parser hkept

/-- **A call follows the current table exactly when no older method object stands in its
    way**: in every history, a call that does not reach the socket sends nothing, and one
    that does is sent by the table if and only if what is kept under its name is current. -/
theorem call_follows_table_iff {cls : ApiClass} {clientName : String} {defaultTimeout : Timeout}
    {ops : List Op} {c c' : Client} {name : String} {handler : Except PyExn Content}
    {timeout : Option ℚ} {raw : Bool}
    (ht : Takes (step cls) (Client.new clientName defaultTimeout) ops c
      (.call name handler timeout raw) c') :
    (¬ Reaches c c' → sentBytes c' = sentBytes c) ∧
      (Reaches c c' → (SentByTable name c c' ↔ Current name c)) := by
  rcases call_requests ht.one with ⟨hsame, hbytes⟩ | ⟨rpcId, parser, hget, hone⟩
  · exact ⟨fun _ => hbytes, fun hreach => absurd hsame hreach⟩
  · have hreach : Reaches c c' := by
      unfold Reaches
      rw [hone]
      simp
    refine ⟨fun hno => absurd hreach hno, fun _ => ?_⟩
    rw [← getattr_current hget, SentByTable, hone]
    constructor
    · rintro ⟨rpcId', htable, happ⟩
      cases List.append_cancel_left happ
      exact htable
    · intro htable
      exact ⟨rpcId, htable, rfl⟩

/-! #### A server that renumbers its API -/

/-- A class whose only API is the void `ping`. -/
def pinging : ApiClass := fun name => if name = "ping" then some .void else none

def hundredSeconds : Timeout := ⟨100, by decide, by decide +kernel⟩

/-- The table of a server that has `ping` under `cmd`. -/
def pingTable (cmd : UInt8) : Frame :=
  ⟨0, 0, some (encodeTable [⟨cmd, "ping", Or.inl (by decide)⟩] [])⟩

/-- A socket that delivers that table and accepts everything. -/
def pingWire (cmd : UInt8) : Sock := ⟨ofBytes (pingTable cmd).encode, ⟨[], []⟩⟩

def ping : Op := .call "ping" (.ok (.bytes [])) none false

/-- A client that has connected and called `ping`. -/
def started : List Op := [.connect (.accepts (pingWire 1)), ping]

/-- A call of `ping` whose `call_` function has the result at hand. -/
def answered : Op := .call "ping" (.ok (.justReturn .none)) none false

/-- `ping` is called before and after the server is restarted with other ids. -/
def renumbered : List Op :=
  [.connect (.accepts (pingWire 1)), ping, .close, .reconnect (.accepts (pingWire 2)), ping]

/-- The second call goes out under the id of the first table. -/
theorem stale_id_sent :
    ∃ c c', Takes (step pinging) (Client.new "c" hundredSeconds) renumbered c ping c' ∧
    Reaches c c' ∧ ¬ SentByTable "ping" c c' := by
  have hbefore :
      (run (step pinging) (Client.new "c" hundredSeconds) (renumbered.take 4)).isSome := by
    decide +kernel
  obtain ⟨c, hc⟩ := Option.isSome_iff_exists.mp hbefore
  have htable : (run (step pinging) (Client.new "c" hundredSeconds) (renumbered.take 4)).map
      (fun c => (c.tables.allowApis.lookup (.str "ping"), c.requests)) =
        some (some 2, [("ping", 1)]) := by decide +kernel
  have hlast : ((run (step pinging) (Client.new "c" hundredSeconds) (renumbered.take 4)).bind
      fun c => step pinging c ping).map Client.requests = some [("ping", 1), ("ping", 1)] := by
    decide +kernel
  rw [hc] at htable hlast
  obtain ⟨c', hstep, hsent⟩ := Option.map_eq_some_iff.mp hlast
  obtain ⟨hlookup, hrequests⟩ := Prod.mk.inj (Option.some.inj htable)
  refine ⟨c, c', ⟨renumbered.take 4, [], rfl, hc, hstep⟩, ?_, ?_⟩
  · rw [Reaches, hsent, hrequests]
    decide
  · rintro ⟨rpcId, hid, happ⟩
    rw [hlookup] at hid
    cases hid
    rw [hsent, hrequests] at happ
    exact absurd happ (by decide)

/-- The first call of that history. -/
theorem call_follows_table_iff_ping : ∃ c c',
    Takes (step pinging) (Client.new "c" hundredSeconds) renumbered c ping c' ∧
      (¬ Reaches c c' → sentBytes c' = sentBytes c) ∧
      (Reaches c c' → (SentByTable "ping" c c' ↔ Current "ping" c)) := by
  have hbefore :
      (run (step pinging) (Client.new "c" hundredSeconds) (renumbered.take 1)).isSome := by
    decide +kernel
  obtain ⟨c, hc⟩ := Option.isSome_iff_exists.mp hbefore
  have hcall : ((run (step pinging) (Client.new "c" hundredSeconds) (renumbered.take 1)).bind
      fun c => step pinging c ping).isSome := by decide +kernel
  rw [hc] at hcall
  obtain ⟨c', hstep⟩ := Option.isSome_iff_exists.mp hcall
  have ht : Takes (step pinging) (Client.new "c" hundredSeconds) renumbered c ping c' :=
    ⟨renumbered.take 1, renumbered.drop 2, rfl, hc, hstep⟩
  exact ⟨c, c', ht, call_follows_table_iff ht⟩

end Albatross.Session
