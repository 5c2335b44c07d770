/-
  Albatross/Subscribe.lean
  ========================
  **The subscribe loop** (`rpc_client.py`: `RpcClient.__subscribe_loop`,
  `RpcClient._response`, `RpcClient.shutdown`).

  One turn of the loop receives a frame, finds the broadcast its command byte
  stands for, parses the payload, calls the handler and, when the frame asks for
  it and the handler has not done so itself, answers.  The frame asks for an
  answer by an odd id.  Handlers are arbitrary programs over what they may do to
  the client: call `_response`, see whether it raised, shut the client down, and
  return or raise (`HandlerRun`).

  The inner `try` of a turn ends before the answer is sent, so an exception there
  leaves the loop.  `frameEnd` says what a turn comes to while the socket accepts
  what is sent, and `handleFrame_healthy` that the code does exactly that.

  On a platform without `epoll` and `kqueue` the loop returns after each frame and
  the monitor enters it again when there is something to read; the turns are the
  same, only `can_send` is cleared in between.
-/
import Albatross.ApiTable

namespace Albatross.Subscribe

open Python Wire Framing Marshal Assoc

def BROADCAST_RESULT_NO_HANDLER : Int := -120

/-- `b'send empty'`. -/
def SEND_EMPTY : Bytes := utf8 "send empty"

/-! ### Handlers and the client class -/

/-- What a call of a handler does: return, raise, call `_response` and go on with
    what became of it, or shut the client down and go on. -/
inductive HandlerRun where
  | ret (v : PyValue)
  | raise (e : PyExn)
  | respond (cmd data idx : PyValue) (next : Option PyExn → HandlerRun)
  | shutdown (next : HandlerRun)

/-- A broadcast the client class declares: its `receive_`, `result_` and `handle_`
    attributes.  The handler may behave differently in each turn, and can read the
    frame's id from `self.idx`. -/
structure Broadcast where
  params : List ArgType
  ret : RetType
  handle : Nat → Nat → List PyValue → HandlerRun

/-- What the loop looks up: the platform, the table the server sent, and the
    broadcasts the class declares, under the names of its methods. -/
structure Subscription where
  lib : JsonLib
  usePolling : Bool
  broadcastIdMaps : Dict Int PyValue
  broadcasts : String → Option Broadcast
  named : broadcasts "" = none

/-! ### Dispatch -/

/-- What the command byte and the payload of a frame lead to. -/
inductive Dispatch where
  | noHandler
  | undeclared (name : String)
  | rejected (name : String) (e : PyExn)
  | handled (name : String) (b : Broadcast) (args : List PyValue)

/-- `self.broadcast_id_maps.get(cmd)`, when it is truthy. -/
def Subscription.broadcastName (c : Subscription) (cmd : Int) : Option String :=
  match c.broadcastIdMaps.lookup cmd with
  | some (.str s) => if s = "" then none else some s
  | _ => none

def Subscription.dispatch (c : Subscription) (sock : PyValue) (f : Frame) : Dispatch :=
  match c.broadcastName f.result with
  | none => .noHandler
  | some name =>
      match c.broadcasts name with
      | none => .undeclared name
      | some b =>
          match createReceiveFunction (b.params.map (argReadTable c.lib)) f.data sock with
          | .ok args => .handled name b args
          | .error e => .rejected name e

section Dispatch

variable {c : Subscription} {f : Frame} {name : String} {b : Broadcast}

theorem dispatch_unnamed (sock : PyValue) (hname : c.broadcastName f.result = none) :
    c.dispatch sock f = .noHandler := by
  simp only [Subscription.dispatch, hname]

theorem dispatch_named (sock : PyValue) (hname : c.broadcastName f.result = some name)
    (hdecl : c.broadcasts name = some b) :
    c.dispatch sock f =
      match createReceiveFunction (b.params.map (argReadTable c.lib)) f.data sock with
      | .ok args => .handled name b args
      | .error e => .rejected name e := by
  simp only [Subscription.dispatch, hname, hdecl]

end Dispatch

/-! ### The client -/

/-- A frame the loop has received, and where it was sent. -/
structure Turn where
  frame : Frame
  dispatch : Dispatch

/-- The attributes the loop works on, and the turns it has taken. -/
structure Client where
  sock : Option Nat
  inbox : Inbox
  outlet : Outlet
  continuous : Bool
  canSend : Bool
  sendCount : Nat
  turns : List Turn

namespace Client

def sockValue (st : Client) : PyValue := match st.sock with
  | some i => .sock i
  | none => .none

def close (st : Client) : Client := { st with sock := none }

def shutdown (st : Client) : Client := { st with continuous := false }.close

def setInbox (st : Client) (inbox : Inbox) : Client := { st with inbox := inbox }

/-- `rpc_receive_data(self.sock)`. -/
def receive (st : Client) : Outcome Client Frame := match st.sock with
  | some _ => (rpcReceiveData st.inbox).lift st.setInbox
  | none => .raised .attributeError st

/-- `rpc_send_data(self.sock, data, idx, cmd)`; a closed socket is only noticed
    when the frame has been packed. -/
def send (data idx cmd : PyValue) (st : Client) : Outcome Client Unit := match st.sock with
  | some _ => (rpcSendData data idx cmd st.outlet).lift fun o => { st with outlet := o }
  | none =>
      match packFrame data idx cmd with
      | .ok _ => .raised .attributeError st
      | .error e => .raised e st

end Client

def sendRefused : PyExn := .user "RpcSendException" "can not send data \x7b\x7d"

/-- `_response(cmd, data, idx)`. -/
def response (cmd data idx : PyValue) (st : Client) : Outcome Client Unit :=
  if st.canSend then
    (st.send data idx cmd).bind fun _ st => .ok () { st with sendCount := st.sendCount + 1 }
  else .raised sendRefused st

def runHandler : HandlerRun → Client → Outcome Client PyValue
  | .ret v, st => .ok v st
  | .raise e, st => .raised e st
  | .respond cmd data idx next, st =>
      match response cmd data idx st with
      | .ok _ st => runHandler (next none) st
      | .raised e st => runHandler (next (some e)) st
      | .blocked st => .blocked st
  | .shutdown next, st => runHandler next st.shutdown

/-! ### One turn -/

/-- The frame asks for an answer: `idx & 1`. -/
def shouldSend (f : Frame) : Bool := f.idx % 2 = 1

/-- `(cmd, idx, to_send)` before the handler is called. -/
def defaultReply (f : Frame) : Reply := ⟨.int f.result, f.idx, .bytes SEND_EMPTY⟩

/-- `convertor(cmd, idx, result)`, where the declared type has a convertor. -/
def convertResult (lib : JsonLib) (ret : RetType) (f : Frame) (result : PyValue) :
    Except PyExn Reply :=
  match returnConvertMapping lib ret with
  | some convertor => convertor f.result f.idx result
  | none => .ok (defaultReply f)

/-- The body of the inner `try`, in the `n`-th turn. -/
def tryFrame (c : Subscription) (n : Nat) (f : Frame) (st : Client) : Outcome Client Reply :=
  match c.dispatch st.sockValue f with
  | .noHandler => .ok ⟨.int BROADCAST_RESULT_NO_HANDLER, f.idx, .bytes SEND_EMPTY⟩ st
  | .undeclared _ => .raised .attributeError st
  | .rejected _ e => .raised e st
  | .handled _ b args =>
      (runHandler (b.handle n f.idx args) st).bind fun result st =>
        Outcome.ofExcept (convertResult c.lib b.ret f result) st

/-- `except Exception`: the triple is still the one from before the call. -/
def exceptException (f : Frame) : Outcome Client Reply → Outcome Client Reply
  | .raised e st => if e.isException then .ok (defaultReply f) st else .raised e st
  | out => out

/-- The flags a frame sets before it is handled. -/
def Client.enter (st : Client) (turn : Turn) : Client :=
  { st with
    canSend := shouldSend turn.frame
    sendCount := if shouldSend turn.frame then 0 else st.sendCount
    turns := st.turns ++ [turn] }

/-- `if should_send and not self.send_count`. -/
def sendAnswer (f : Frame) (reply : Reply) (st : Client) : Outcome Client Unit :=
  if shouldSend f ∧ st.sendCount = 0 then response reply.cmd reply.toSend (.int reply.idx) st
  else .ok () st

def handleFrame (c : Subscription) (f : Frame) (st : Client) : Outcome Client Unit :=
  (exceptException f
    (tryFrame c st.turns.length f (st.enter ⟨f, c.dispatch st.sockValue f⟩))).bind (sendAnswer f)

/-! ### The loop -/

inductive Exit where
  | waiting
  | closed
  | escaped (e : PyExn)
deriving DecidableEq

/-- The outer `except Exception` and the `close()` behind it. -/
def leave (e : PyExn) (st : Client) : Option Exit × Client :=
  if e.isException then (some .closed, st.close) else (some (.escaped e), st)

/-- `if use_polling: return`, and the monitor enters the loop again. -/
def reenter (c : Subscription) (st : Client) : Client :=
  if c.usePolling then { st with canSend := false } else st

/-- One turn of `while self.continuous`; no exit means that the loop goes on. -/
def loopStep (c : Subscription) (st : Client) : Option Exit × Client :=
  if st.continuous then
    match st.receive with
    | .blocked st => (some .waiting, st)
    | .raised e st => if e = .timeoutError then (none, st) else leave e st
    | .ok f st =>
        match handleFrame c f st with
        | .blocked st => (some .waiting, st)
        | .raised e st => leave e st
        | .ok _ st => (none, reenter c st)
  else (some .closed, st.close)

def loop (c : Subscription) : Nat → Client → Exit × Client
  | 0, st => (.waiting, st)
  | fuel + 1, st =>
      match loopStep c st with
      | (none, st) => loop c fuel st
      | (some exit, st) => (exit, st)

/-- `__subscribe_loop()`.  A turn that goes on has used up some of the stream, so
    its length bounds the turns. -/
def subscribeLoop (c : Subscription) (st : Client) : Exit × Client :=
  loop c (st.inbox.length + 1) { st with canSend := false }

/-! ### What a turn comes to while the socket accepts what is sent -/

/-- The bytes a call of `_response` puts on the socket, or what it raises. -/
def replyBytes (canSend isOpen : Bool) (cmd data idx : PyValue) : Except PyExn Bytes :=
  if canSend then
    match packFrame data idx cmd with
    | .ok bs => if isOpen then .ok bs else .error .attributeError
    | .error e => .error e
  else .error sendRefused

/-- How a handler ends, the replies it sent on the way, and whether it cleared
    `continuous`. -/
structure RunEnd where
  result : Except PyExn PyValue
  sent : List Bytes
  cleared : Bool

def HandlerRun.eval (canSend : Bool) : HandlerRun → Bool → RunEnd
  | .ret v, _ => ⟨.ok v, [], false⟩
  | .raise e, _ => ⟨.error e, [], false⟩
  | .respond cmd data idx next, isOpen =>
      match replyBytes canSend isOpen cmd data idx with
      | .ok bs =>
          let r := (next none).eval canSend isOpen
          ⟨r.result, bs :: r.sent, r.cleared⟩
      | .error e => (next (some e)).eval canSend isOpen
  | .shutdown next, _ =>
      let r := next.eval canSend false
      ⟨r.result, r.sent, true⟩

/-- How the inner `try` ends, once what it raised has been caught. -/
structure TryEnd where
  reply : Except PyExn Reply
  sent : List Bytes
  cleared : Bool

def caught (f : Frame) : Except PyExn Reply → Except PyExn Reply
  | .ok reply => .ok reply
  | .error e => if e.isException then .ok (defaultReply f) else .error e

def tryEnd (lib : JsonLib) (n : Nat) (f : Frame) : Dispatch → TryEnd
  | .noHandler => ⟨.ok ⟨.int BROADCAST_RESULT_NO_HANDLER, f.idx, .bytes SEND_EMPTY⟩, [], false⟩
  | .undeclared _ => ⟨caught f (.error .attributeError), [], false⟩
  | .rejected _ e => ⟨caught f (.error e), [], false⟩
  | .handled _ b args =>
      let r := (b.handle n f.idx args).eval (shouldSend f) true
      ⟨caught f (r.result.bind (convertResult lib b.ret f)), r.sent, r.cleared⟩

structure FrameEnd where
  result : Except PyExn Unit
  sent : List Bytes
  cleared : Bool

def answer (f : Frame) (t : TryEnd) : FrameEnd :=
  match t.reply with
  | .error e => ⟨.error e, t.sent, t.cleared⟩
  | .ok reply =>
      if shouldSend f ∧ t.sent = [] then
        match replyBytes true (!t.cleared) reply.cmd reply.toSend (.int reply.idx) with
        | .ok bs => ⟨.ok (), [bs], t.cleared⟩
        | .error e => ⟨.error e, [], t.cleared⟩
      else ⟨.ok (), t.sent, t.cleared⟩

def frameEnd (c : Subscription) (n : Nat) (sock : PyValue) (f : Frame) : FrameEnd :=
  answer f (tryEnd c.lib n f (c.dispatch sock f))

/-- The client after it has put replies on the socket and perhaps been shut down. -/
def Client.after (st : Client) (o : Outlet) (count : Nat) (cleared : Bool) : Client :=
  { st with
    outlet := o
    sendCount := st.sendCount + count
    sock := if cleared then none else st.sock
    continuous := st.continuous && !cleared }

theorem response_healthy {st : Client} (ho : st.outlet.Accepting) (cmd data idx : PyValue) :
    match replyBytes st.canSend st.sock.isSome cmd data idx with
    | .error e => response cmd data idx st = .raised e st
    | .ok bs => ∃ o, response cmd data idx st = .ok () (st.after o 1 false) ∧
        o.sent = st.outlet.sent ++ bs ∧ o.Accepting := by
  obtain ⟨sock, inbox, outlet, continuous, canSend, sendCount, turns⟩ := st
  unfold replyBytes response Client.send
  cases canSend with
  | false => rfl
  | true =>
    cases hpack : packFrame data idx cmd with
    | error e =>
      cases sock with
      | none => simp
      | some i => simp [rpcSendData_error hpack]
    | ok bs =>
      cases sock with
      | none => simp
      | some i =>
        obtain ⟨o, hsend, hsent, ho'⟩ := rpcSendData_ok hpack ho
        refine ⟨o, ?_, hsent, ho'⟩
        simp [hsend, Client.after]

@[simp] theorem Client.after_after (st : Client) (o o' : Outlet) (n n' : Nat) (d d' : Bool) :
    (st.after o n d).after o' n' d' = st.after o' (n + n') (d || d') := by
  cases d <;> cases d' <;> simp [Client.after, Nat.add_assoc]

/-- A handler sends what `HandlerRun.eval` says and ends the way it says. -/
theorem runHandler_healthy (run : HandlerRun) : ∀ st : Client, st.outlet.Accepting →
    ∃ o, runHandler run st =
        Outcome.ofExcept (run.eval st.canSend st.sock.isSome).result
          (st.after o (run.eval st.canSend st.sock.isSome).sent.length
            (run.eval st.canSend st.sock.isSome).cleared) ∧
      o.sent = st.outlet.sent ++ (run.eval st.canSend st.sock.isSome).sent.flatten ∧
      o.Accepting := by
  induction run with
  | ret v =>
    intro st ho
    exact ⟨st.outlet, by simp [runHandler, HandlerRun.eval, Client.after],
      by simp [HandlerRun.eval], ho⟩
  | raise e =>
    intro st ho
    exact ⟨st.outlet, by simp [runHandler, HandlerRun.eval, Client.after],
      by simp [HandlerRun.eval], ho⟩
  | respond cmd data idx next ih =>
    intro st ho
    have hresp := response_healthy ho cmd data idx
    cases hbytes : replyBytes st.canSend st.sock.isSome cmd data idx with
    | error e =>
      rw [hbytes] at hresp
      obtain ⟨o, hrun, hsent, ho'⟩ := ih (some e) st ho
      refine ⟨o, ?_, ?_, ho'⟩
      · simp only [runHandler, hresp, HandlerRun.eval, hbytes]
        exact hrun
      · simp only [HandlerRun.eval, hbytes]
        exact hsent
    | ok bs =>
      rw [hbytes] at hresp
      obtain ⟨o₁, hresp, hsent₁, ho₁⟩ := hresp
      obtain ⟨o, hrun, hsent, ho'⟩ := ih none (st.after o₁ 1 false) ho₁
      have hcan : (st.after o₁ 1 false).canSend = st.canSend := rfl
      have hsock : (st.after o₁ 1 false).sock = st.sock := rfl
      have hout : (st.after o₁ 1 false).outlet = o₁ := rfl
      rw [hcan, hsock] at hrun hsent
      refine ⟨o, ?_, ?_, ho'⟩
      · simp only [runHandler, hresp, HandlerRun.eval, hbytes, hrun, Client.after_after,
          List.length_cons, Bool.false_or]
        rw [Nat.add_comm 1]
      · rw [hsent, hout, hsent₁]
        simp [HandlerRun.eval, hbytes]
  | shutdown next ih =>
    intro st ho
    obtain ⟨o, hrun, hsent, ho'⟩ := ih st.shutdown ho
    have hcan : st.shutdown.canSend = st.canSend := rfl
    have hsock : st.shutdown.sock.isSome = false := rfl
    have hout : st.shutdown.outlet = st.outlet := rfl
    rw [hcan, hsock] at hrun hsent
    refine ⟨o, ?_, ?_, ho'⟩
    · simp only [runHandler, HandlerRun.eval, hrun]
      congr 1
      simp [Client.after, Client.shutdown, Client.close]
    · rw [hsent, hout]
      simp [HandlerRun.eval]

/-- `st'` is `st` after one more turn, which put `sent` on the socket. -/
structure Client.Took (st : Client) (turn : Turn) (sent : List Bytes) (cleared : Bool)
    (st' : Client) : Prop where
  inbox : st'.inbox = st.inbox
  sent : st'.outlet.sent = st.outlet.sent ++ sent.flatten
  accepting : st'.outlet.Accepting
  turns : st'.turns = st.turns ++ [turn]
  sock : st'.sock = if cleared then none else st.sock
  continuous : st'.continuous = (st.continuous && !cleared)

theorem tryFrame_healthy (c : Subscription) (n : Nat) (f : Frame) (st : Client) {i : Nat}
    (ho : st.outlet.Accepting) (hsock : st.sock = some i) (hcan : st.canSend = shouldSend f) :
    ∃ o, exceptException f (tryFrame c n f st) =
        Outcome.ofExcept (tryEnd c.lib n f (c.dispatch st.sockValue f)).reply
          (st.after o (tryEnd c.lib n f (c.dispatch st.sockValue f)).sent.length
            (tryEnd c.lib n f (c.dispatch st.sockValue f)).cleared) ∧
      o.sent = st.outlet.sent ++ (tryEnd c.lib n f (c.dispatch st.sockValue f)).sent.flatten ∧
      o.Accepting := by
  have hsame : st.after st.outlet 0 false = st := by simp [Client.after]
  have hcaught : ∀ (r : Except PyExn Reply) (st : Client),
      exceptException f (Outcome.ofExcept r st) = Outcome.ofExcept (caught f r) st := by
    intro r st
    cases r with
    | ok reply => rfl
    | error e =>
      simp only [Outcome.ofExcept_error, exceptException, caught]
      split <;> rfl
  unfold tryFrame
  cases hd : c.dispatch st.sockValue f with
  | noHandler =>
    refine ⟨st.outlet, ?_, by simp [tryEnd], ho⟩
    simp [tryEnd, hsame, exceptException]
  | undeclared name =>
    refine ⟨st.outlet, ?_, by simp [tryEnd], ho⟩
    simp only [tryEnd, List.length_nil, hsame]
    exact hcaught (.error .attributeError) st
  | rejected name e =>
    refine ⟨st.outlet, ?_, by simp [tryEnd], ho⟩
    simp only [tryEnd, List.length_nil, hsame]
    exact hcaught (.error e) st
  | handled name b args =>
    obtain ⟨o, hrun, hsent, ho'⟩ := runHandler_healthy (b.handle n f.idx args) st ho
    rw [hcan, hsock, Option.isSome_some] at hrun hsent
    refine ⟨o, ?_, hsent, ho'⟩
    simp only [tryEnd, hrun]
    rw [← hcaught]
    congr 1
    cases ((b.handle n f.idx args).eval (shouldSend f) true).result with
    | ok v => rfl
    | error e => rfl

theorem sendAnswer_healthy (f : Frame) (t : TryEnd) {reply : Reply} (hreply : t.reply = .ok reply)
    {st st₁ : Client} {turn : Turn} {i : Nat} (htook : st.Took turn t.sent t.cleared st₁)
    (hsock : st.sock = some i) (hcan : st₁.canSend = shouldSend f)
    (hcount : shouldSend f = true → st₁.sendCount = t.sent.length) :
    ∃ st', sendAnswer f reply st₁ = Outcome.ofExcept (answer f t).result st' ∧
      st.Took turn (answer f t).sent (answer f t).cleared st' := by
  unfold sendAnswer answer
  rw [hreply]
  by_cases hanswer : shouldSend f = true ∧ t.sent = []
  · have hzero : st₁.sendCount = 0 := by rw [hcount hanswer.1, hanswer.2]; rfl
    have hopen : st₁.sock.isSome = !t.cleared := by
      rw [htook.sock, hsock]
      cases t.cleared <;> rfl
    have hsent₁ : st₁.outlet.sent = st.outlet.sent := by simp [htook.sent, hanswer.2]
    have hresp := response_healthy htook.accepting reply.cmd reply.toSend (.int reply.idx)
    rw [hcan.trans hanswer.1, hopen] at hresp
    dsimp only
    rw [if_pos ⟨hanswer.1, hzero⟩, if_pos hanswer]
    cases hbytes : replyBytes true (!t.cleared) reply.cmd reply.toSend (.int reply.idx) with
    | error e =>
      rw [hbytes] at hresp
      refine ⟨st₁, hresp, ?_⟩
      rw [← hanswer.2]
      exact htook
    | ok bs =>
      rw [hbytes] at hresp
      obtain ⟨o, hresp, hsent, ho⟩ := hresp
      rw [hsent₁] at hsent
      refine ⟨st₁.after o 1 false, hresp, ?_⟩
      constructor
      · exact htook.inbox
      · simpa [Client.after] using hsent
      · exact ho
      · exact htook.turns
      · exact htook.sock
      · simpa [Client.after] using htook.continuous
  · have hkeep : ¬ (shouldSend f = true ∧ st₁.sendCount = 0) := by
      rintro ⟨hodd, hzero⟩
      rw [hcount hodd] at hzero
      exact hanswer ⟨hodd, List.length_eq_zero_iff.mp hzero⟩
    dsimp only
    rw [if_neg hkeep, if_neg hanswer]
    exact ⟨st₁, rfl, htook⟩

/-- **One turn on a healthy socket** is what `frameEnd` says. -/
theorem handleFrame_healthy (c : Subscription) (f : Frame) {st : Client} {i : Nat}
    (ho : st.outlet.Accepting) (hsock : st.sock = some i) :
    ∃ st', handleFrame c f st =
        Outcome.ofExcept (frameEnd c st.turns.length st.sockValue f).result st' ∧
      st.Took ⟨f, c.dispatch st.sockValue f⟩ (frameEnd c st.turns.length st.sockValue f).sent
        (frameEnd c st.turns.length st.sockValue f).cleared st' := by
  have hvalue : (st.enter ⟨f, c.dispatch st.sockValue f⟩).sockValue = st.sockValue := rfl
  obtain ⟨o, htry, hsent, ho'⟩ := tryFrame_healthy c st.turns.length f
    (st.enter ⟨f, c.dispatch st.sockValue f⟩) ho hsock rfl
  rw [hvalue] at htry hsent
  unfold handleFrame frameEnd
  rw [htry]
  generalize tryEnd c.lib st.turns.length f (c.dispatch st.sockValue f) = t at hsent ⊢
  have htook : st.Took ⟨f, c.dispatch st.sockValue f⟩ t.sent t.cleared
      ((st.enter ⟨f, c.dispatch st.sockValue f⟩).after o t.sent.length t.cleared) :=
    ⟨rfl, hsent, ho', rfl, rfl, rfl⟩
  cases hreply : t.reply with
  | error e =>
    refine ⟨(st.enter ⟨f, c.dispatch st.sockValue f⟩).after o t.sent.length t.cleared, ?_, ?_⟩
    · rw [Outcome.ofExcept_error, Outcome.bind_raised, answer, hreply]
      rfl
    · simp only [answer, hreply]
      exact htook
  | ok reply =>
    rw [Outcome.ofExcept_ok, Outcome.bind_ok]
    refine sendAnswer_healthy f t hreply htook hsock rfl ?_
    intro hodd
    simp [Client.after, Client.enter, hodd]

end Albatross.Subscribe
