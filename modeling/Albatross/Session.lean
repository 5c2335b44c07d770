/-
  Albatross/Session.lean
  ======================
  **One client over its connections** (`rpc_client.py`: `RpcClient.connect`,
  `reconnect`, `close`, `on_close`, `forbid_call`, `__getattr__`, and
  `AlbRpcMethod.__call__` with its timeout).

  One thread uses the client.  Each connect fetches an API table; a call by name
  goes through `__getattr__`, which builds a method object with the id the table
  has then and keeps it as an attribute of the client, so that the next call of the
  name no longer comes by there.

  Two things are taken as given when they are decided: what answers a connection
  attempt (`Host`), and what a connected socket will deliver and accept (`Sock`).
  The name called is not an attribute of the class itself, and no API, parser or
  broadcast of the class has a name that starts with `call_`, `parse_` or
  `receive_`.  Parsers compute a value and do no more, so `subscribe` is not among the
  methods called: its parser starts a thread that reads the same socket and gives it a
  timeout of its own.  `requests` records the requests handed to the socket.
-/
import Albatross.Runs
import Albatross.Calls
import Albatross.ApiTable

namespace Albatross.Session

open Python Wire Framing Calls ApiTable Assoc

/-! ### Timeouts -/

/-- A number of seconds that `settimeout` accepts: not negative, and below `2 ^ 63`
    nanoseconds, which CPython keeps in 64 bits where it waits with `poll`. -/
structure Timeout where
  seconds : ℚ
  nonneg : 0 ≤ seconds
  fits : (seconds * 1000000000).ceil < 2 ^ 63

def Timeout.nanoseconds (t : Timeout) : Int := (t.seconds * 1000000000).ceil

/-- `OverflowError`. -/
def overflowError : PyExn := .exception 1

/-- The check of `sock.settimeout(seconds)`: the number is rounded away from zero to
    nanoseconds, which have to fit before the sign is looked at. -/
def checkTimeout (seconds : ℚ) : Except PyExn Timeout :=
  if (seconds * 1000000000).floor < -2 ^ 63 then .error overflowError
  else if hneg : seconds < 0 then .error .valueError
  else if hfits : (seconds * 1000000000).ceil < 2 ^ 63 then .ok ⟨seconds, not_lt.mp hneg, hfits⟩
  else .error overflowError

/-! ### The client -/

structure Conn where
  wire : Sock
  timeout : Int

/-- What `__getattr__` puts on the client: a method object, or something that cannot be
    called. -/
inductive Attr where
  | method (rpcId : Int) (parser : Parser)
  | other

/-- The APIs a client class declares, each with its `parse_` attribute. -/
abbrev ApiClass := String → Option Parser

structure Client where
  name : String
  defaultTimeout : Timeout
  sock : Option Conn
  tables : ApiTables
  callCounter : Nat
  prohibitRequest : Bool
  attrs : Dict String Attr
  requests : List (String × Int)

def Client.new (name : String) (defaultTimeout : Timeout) : Client :=
  ⟨name, defaultTimeout, none, ⟨∅, ∅, ∅⟩, 0, false, ∅, []⟩

def rpcCloseException (msg : String) : PyExn := .user "RpcCloseException" msg

/-! ### Connections -/

inductive Host where
  | refused (e : PyExn)
  | accepts (wire : Sock)

/-- The rest of `connect()` once `get_apis` has ended. -/
def fetched (c : Client) : Outcome (Nat × Sock) ApiTables → Outcome Client Unit
  | .blocked s => .blocked { c with callCounter := s.1 }
  | .raised e s => .raised e { c with callCounter := s.1 }
  | .ok tables s => .ok () { c with
      callCounter := s.1
      tables := tables
      sock := some ⟨s.2, c.defaultTimeout.nanoseconds⟩ }

/-- `connect()`; the new socket has a timeout of its own until the table has come. -/
def connect (host : Host) (c : Client) : Outcome Client Unit :=
  match host with
  | .refused e => .raised e c
  | .accepts wire => fetched c (getApis c.callCounter wire)

/-- `reconnect()`, with its bare `except`. -/
def reconnect (host : Host) (c : Client) : Outcome Client Bool :=
  match c.sock with
  | some _ => .ok false c
  | none =>
      match connect host c with
      | .blocked c => .blocked c
      | .raised _ c => .ok false c
      | .ok _ c => .ok true c

def forbidCall (c : Client) : Client := { c with tables := { c.tables with allowApis := ∅ } }

/-- `close()`, for a client without subscriber and listeners. -/
def close (c : Client) : Bool × Client :=
  match c.sock with
  | some _ => (true, { c with sock := none })
  | none => (false, c)

def onClose (c : Client) : Client := (close (forbidCall c)).2

/-! ### Method lookup -/

/-- The last two lines of `__getattr__`. -/
def missing (c : Client) : PyExn :=
  if c.sock.isSome then .attributeError else rpcCloseException "connection is closed"

/-- `setattr(self, method, a)`. -/
def setattr (method : String) (a : Attr) (c : Client) : Client :=
  { c with attrs := c.attrs.insert method a }

/-- `getattr(client, method)`: the attribute kept earlier, or `__getattr__`.  A missing
    `parse_` or `receive_` function is looked up by `__getattr__` in its turn, whose
    `RpcCloseException` the default of `getattr` does not catch. -/
def getattr (cls : ApiClass) (method : String) (c : Client) : Except PyExn Attr × Client :=
  match c.attrs.lookup method with
  | some a => (.ok a, c)
  | none =>
      match c.tables.allowApis.lookup (.str method) with
      | some rpcId =>
          match cls method with
          | none => (.error (missing c), c)
          | some .absent =>
              if c.sock.isSome then
                (.ok (.method rpcId .absent), setattr method (.method rpcId .absent) c)
              else (.error (missing c), c)
          | some parser => (.ok (.method rpcId parser), setattr method (.method rpcId parser) c)
      | none =>
          if (c.tables.broadcastTables.lookup (.str method)).isSome && c.sock.isSome then
            (.ok .other, setattr method .other c)
          else (.error (missing c), c)

/-! ### Calls -/

/-- `if timeout: sock.settimeout(timeout)`. -/
def setTimeout (timeout : Option ℚ) (conn : Conn) : Except PyExn Conn :=
  match timeout with
  | none => .ok conn
  | some seconds =>
      if seconds = 0 then .ok conn
      else (checkTimeout seconds).map fun t => { conn with timeout := t.nanoseconds }

/-- `if timeout: sock.settimeout(client.default_timeout)`. -/
def restoreTimeout (timeout : Option ℚ) (default : Timeout) (conn : Conn) : Conn :=
  match timeout with
  | none => conn
  | some seconds => if seconds = 0 then conn else { conn with timeout := default.nanoseconds }

/-- The receives of a call: frames are skipped while their id is below its own.  Each
    takes something from the stream, so its length bounds their number. -/
def receiveReply (methodId : Nat) : Nat → Inbox → Outcome Inbox Frame
  | 0, inbox => .blocked inbox
  | fuel + 1, inbox =>
      (rpcReceiveData inbox).bind fun f inbox =>
        if f.idx < methodId then receiveReply methodId fuel inbox else .ok f inbox

/-- The `try` block: send the request and, unless the method is void, receive. -/
def exchange (m : Call) (methodId : Nat) (conn : Conn) : Outcome Conn (Option Frame) :=
  ((rpcSendData (.ofData m.payload) (.int methodId) (.int m.rpcId) conn.wire.outlet).lift
    fun outlet => { conn with wire := { conn.wire with outlet := outlet } }).bind fun _ conn =>
  if m.isVoid then .ok none conn
  else
    ((receiveReply methodId (conn.wire.inbox.length + 1) conn.wire.inbox).lift
      fun inbox => { conn with wire := { conn.wire with inbox := inbox } }).bind fun f conn =>
    .ok (some f) conn

/-- The request a call hands to the socket, if it can be packed. -/
def requestOf (m : Call) (methodId : Nat) : List (String × Int) :=
  match packFrame (.ofData m.payload) (.int methodId) (.int m.rpcId) with
  | .ok _ => [(m.name, m.rpcId)]
  | .error _ => []

/-- The call from the `try` block on. -/
def converse (m : Call) (methodId : Nat) (timeout : Option ℚ) (conn : Conn) (c : Client) :
    Outcome Client PyValue :=
  let c := { c with requests := c.requests ++ requestOf m methodId }
  match exchange m methodId conn with
  | .blocked conn => .blocked { c with sock := some conn }
  | .raised e conn => .raised e { c with sock := some conn }
  | .ok none conn => .ok .none { c with sock := some conn }
  | .ok (some f) conn =>
      match m.finish f with
      | .error e => .raised e { c with sock := some conn }
      | .ok v => .ok v { c with sock := some (restoreTimeout timeout c.defaultTimeout conn) }

/-- `AlbRpcMethod.__call__(*args, timeout=timeout)`. -/
def invoke (m : Call) (timeout : Option ℚ) (c : Client) : Outcome Client PyValue :=
  if c.prohibitRequest then .raised (banned m) c
  else
    let methodId := callId c.callCounter
    let c := { c with callCounter := c.callCounter + 1 }
    match m.handler with
    | .error e => .raised e c
    | .ok content =>
        match c.sock with
        | none => .raised (rpcCloseException (c.name ++ " socket closed")) c
        | some conn =>
            match setTimeout timeout conn with
            | .error e => .raised e c
            | .ok conn =>
                match content with
                | .justReturn v => .ok v { c with sock := some conn }
                | _ => converse m methodId timeout conn c

/-- `client.name(...)`. -/
def call (cls : ApiClass) (name : String) (handler : Except PyExn Content) (timeout : Option ℚ)
    (raw : Bool) (c : Client) : Outcome Client PyValue :=
  match getattr cls name c with
  | (.error e, c) => .raised e c
  | (.ok .other, c) => .raised .typeError c
  | (.ok (.method rpcId parser), c) => invoke ⟨name, rpcId, handler, parser, raw⟩ timeout c

/-! ### Histories -/

inductive Op where
  | connect (host : Host)
  | reconnect (host : Host)
  | forbidCall
  | close
  | onClose
  | call (name : String) (handler : Except PyExn Content) (timeout : Option ℚ) (raw : Bool)

def settled {α : Type} : Outcome Client α → Option Client
  | .ok _ c => some c
  | .raised _ c => some c
  | .blocked _ => none

def step (cls : ApiClass) (c : Client) : Op → Option Client
  | .connect host => settled (Session.connect host c)
  | .reconnect host => settled (Session.reconnect host c)
  | .forbidCall => some (Session.forbidCall c)
  | .close => some (Session.close c).2
  | .onClose => some (Session.onClose c)
  | .call name handler timeout raw => settled (Session.call cls name handler timeout raw c)

end Albatross.Session
