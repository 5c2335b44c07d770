/-
  Albatross/Calls.lean
  ====================
  **Concurrent calls of API methods** (`rpc_client.py`: `AlbRpcMethod.__call__`).

  Any number of threads call methods of one connected client.  A call reads the
  call counter, writes it back plus one, prepares its payload, takes
  `request_lock`, writes its request and, unless the method is void, reads frames
  until one has an id not below its own; after that it releases the lock and works
  out what to return.  Each of these is a step of its own, so the runs of `step`
  are all the interleavings.

  The server is what a client relies on: it takes the requests in the order they
  were written and answers each one that wants an answer once, under the request's
  id.  `pending` holds the requests it has still to take and `unread` names the
  responses whose bytes are in `inbox`; no step of a call looks at either, they
  only say whose response a frame is.

  The socket stays connected, `request_lock` is always obtained, and a receive that
  times out does so before it has read a byte.  Parsers compute a value and do no more:
  a call of `subscribe`, whose parser starts a thread that reads the same socket, is
  outside the model.
-/
import Albatross.Runs
import Albatross.Framing
import Mathlib.Logic.Function.Basic

namespace Albatross.Calls

open Python Wire Framing

/-! ### What is called -/

def CALL_ID_MASK : Nat := 0xffff

/-- `call_counter & CALL_ID_MASK`. -/
def callId (callCounter : Nat) : Nat := callCounter &&& CALL_ID_MASK

theorem callId_eq (n : Nat) : callId n = n % 2 ^ 16 := Nat.and_two_pow_sub_one_eq_mod n 16

/-- What the method's `call_` function gives; a falsy content counts as no bytes. -/
inductive Content where
  | bytes (bs : Bytes)
  | text (s : String)
  | justReturn (v : PyValue)

/-- The method's `parse_` attribute: `void`, none, or a function of the payload and
    the result. -/
inductive Parser where
  | void
  | absent
  | parse (f : Option Bytes → Int → Except PyExn PyValue)

/-- A call of an API method with its arguments: what the preparation of the payload
    comes to is fixed by them. -/
structure Call where
  name : String
  rpcId : Int
  handler : Except PyExn Content
  parser : Parser
  raw : Bool

def Call.isVoid (m : Call) : Bool := match m.parser with
  | .void => true
  | _ => false

/-! ### What a call returns -/

/-- `err_desc.get(result).format(method_name)`. -/
def errDesc (result : Int) (name : String) : Option String :=
  if result = -123 then some ("operation not support for method " ++ name)
  else if result = -122 then some ("not find register handle method " ++ name)
  else if result = -121 then some ("occur exception when handle method " ++ name)
  else none

def rpcCallException (msg : String) : PyExn := .user "RpcCallException" msg

/-- The code after the lock is released, for the last frame received. -/
def Call.finish (m : Call) (f : Frame) : Except PyExn PyValue :=
  match errDesc f.result m.name with
  | some err =>
      match f.data with
      | none => .error (rpcCallException err)
      | some bs =>
          match utf8Decode bs with
          | none => .error .unicodeError
          | some detail =>
              if detail = "" then .error (rpcCallException err)
              else .error (rpcCallException (err ++ ",detail:" ++ detail))
  | none =>
      match m.parser with
      | .parse f' => if m.raw then .ok (.ofData f.data) else f' f.data f.result
      | _ =>
          match f.data with
          | none => .ok (.bool (0 ≤ f.result))
          | some bs => .ok (.bytes bs)

/-- `forbid request {} this time`. -/
def banned (m : Call) : PyExn :=
  .user "BanRequestException" ("forbid request " ++ m.name ++ " this time")

/-! ### Requests and responses -/

/-- A request that has been written, numbered in the order of writing. -/
structure Request where
  seq : Nat
  counter : Nat
  void : Bool
deriving DecidableEq

def Request.id (r : Request) : Nat := callId r.counter

theorem Request.id_lt (r : Request) : r.id < 2 ^ 16 := by
  unfold Request.id
  rw [callId_eq]
  exact Nat.mod_lt _ (by decide)

structure Response where
  request : Request
  frame : Frame
deriving DecidableEq

structure Answer where
  result : Int
  data : Option Bytes
  result_ge : -128 ≤ result
  result_le : result ≤ 127
  data_ne : data ≠ some []
  data_lt : (data.getD []).length < 2 ^ 24

def Answer.to (a : Answer) (r : Request) : Response := ⟨r, ⟨r.id, a.result, a.data⟩⟩

theorem Answer.to_valid (a : Answer) (r : Request) : (a.to r).frame.Valid :=
  ⟨r.id_lt, a.result_ge, a.result_le, a.data_ne, a.data_lt⟩

/-- The bytes arrive in pieces of the given sizes. -/
def chop : List Nat → Bytes → Inbox
  | [], bs => ofBytes bs
  | n :: sizes, bs => ofBytes (bs.take n) ++ .cut :: chop sizes (bs.drop n)

theorem data_chop (sizes : List Nat) : ∀ bs, Data (chop sizes bs) := by
  have hcut : Data [.cut] := fun s hs => Or.inl (List.mem_singleton.mp hs)
  induction sizes with
  | nil => intro bs; exact Data.ofBytes bs
  | cons n sizes ih => intro bs; exact (Data.ofBytes _).append (hcut.append (ih _))

theorem bytesOf_chop (sizes : List Nat) : ∀ bs, bytesOf (chop sizes bs) = bs := by
  induction sizes with
  | nil => intro bs; exact bytesOf_ofBytes bs
  | cons n sizes ih => intro bs; simp [chop, ih]

/-! ### The client and its threads -/

inductive Ending where
  | raised (e : PyExn)
  | returned (v : PyValue)
  | sent
  | got (f : Frame)

/-- A call that has ended: the request it wrote, the requests whose responses were
    outstanding then, and the response its last frame was. -/
structure Ended where
  call : Call
  own : Option Request
  stale : List Request
  received : Option Response
  how : Ending

def Ended.outcome (e : Ended) : Except PyExn PyValue := match e.how with
  | .raised x => .error x
  | .returned v => .ok v
  | .sent => .ok .none
  | .got f => e.call.finish f

inductive Phase where
  | idle
  | counted (m : Call) (callCounter : Nat)
  | drawn (m : Call) (callCounter : Nat)
  | locked (m : Call) (callCounter : Nat)
  | waiting (m : Call) (r : Request) (stale : List Request)
  | unlocking (e : Ended)

structure Client where
  callCounter : Nat
  requestLock : Option Nat
  threads : Nat → Phase
  outlet : Outlet
  inbox : Inbox
  pending : List Request
  unread : List Response
  requests : Nat
  log : List Ended

/-- The requests whose responses have still to be read, in the order of writing. -/
def Client.outstanding (s : Client) : List Request :=
  s.unread.map Response.request ++ s.pending.filter fun r => !r.void

def Client.setPhase (s : Client) (t : Nat) (p : Phase) : Client :=
  { s with threads := Function.update s.threads t p }

@[simp] theorem Client.setPhase_self (s : Client) (t : Nat) (p : Phase) :
    (s.setPhase t p).threads t = p := by
  simp [Client.setPhase]

/-- The call is over and its thread free again. -/
def Client.finished (s : Client) (t : Nat) (e : Ended) : Client :=
  { s with threads := Function.update s.threads t .idle, log := s.log ++ [e] }

/-! ### The steps -/

inductive Label where
  | read (t : Nat) (m : Call)
  | write (t : Nat)
  | draw (t : Nat) (m : Call)
  | refuse (t : Nat) (m : Call)
  | leave (t : Nat)
  | acquire (t : Nat)
  | send (t : Nat)
  | receive (t : Nat)
  | timeout (t : Nat)
  | release (t : Nat)
  | serve (a : Answer) (sizes : List Nat)

/-- `call_counter = client.call_counter`. -/
def readCounter (s : Client) (t : Nat) (m : Call) : Option Client := match s.threads t with
  | .idle => some (s.setPhase t (.counted m s.callCounter))
  | _ => none

/-- `client.call_counter = call_counter + 1`. -/
def writeCounter (s : Client) (t : Nat) : Option Client := match s.threads t with
  | .counted m n => some ({ s with callCounter := n + 1 }.setPhase t (.drawn m n))
  | _ => none

/-- The call finds `prohibit_request` set. -/
def refuse (s : Client) (t : Nat) (m : Call) : Option Client := match s.threads t with
  | .idle => some (s.finished t ⟨m, none, [], none, .raised (banned m)⟩)
  | _ => none

def leave (s : Client) (t : Nat) : Option Client := match s.threads t with
  | .drawn m _ =>
      match m.handler with
      | .error e => some (s.finished t ⟨m, none, [], none, .raised e⟩)
      | .ok (.justReturn v) => some (s.finished t ⟨m, none, [], none, .returned v⟩)
      | .ok _ => none
  | _ => none

/-- The payload handed to `rpc_send_data`, if the call sends one. -/
def Call.payload (m : Call) : Option Bytes := match m.handler with
  | .ok (.bytes bs) => some bs
  | .ok (.text s) => some (utf8 s)
  | _ => none

/-- `request_lock.acquire(True)`. -/
def acquire (s : Client) (t : Nat) : Option Client := match s.threads t, s.requestLock with
  | .drawn m n, none =>
      if m.payload.isSome then some ({ s with requestLock := some t }.setPhase t (.locked m n))
      else none
  | _, _ => none

/-- `rpc_send_data(sock, content, method_id, self.rpc_id)`. -/
def send (s : Client) (t : Nat) : Option Client := match s.threads t with
  | .locked m n =>
      match rpcSendData (.ofData m.payload) (.int (callId n)) (.int m.rpcId) s.outlet with
      | .blocked _ => none
      | .raised e o =>
          some ({ s with outlet := o }.setPhase t (.unlocking ⟨m, none, [], none, .raised e⟩))
      | .ok _ o =>
          let r : Request := ⟨s.requests, n, m.isVoid⟩
          let s' := { s with outlet := o, pending := s.pending ++ [r], requests := s.requests + 1 }
          if m.isVoid then some (s'.setPhase t (.unlocking ⟨m, some r, s.outstanding, none, .sent⟩))
          else some (s'.setPhase t (.waiting m r s.outstanding))
  | _ => none

/-- `rpc_receive_data(sock)`, and again `while idx < method_id`. -/
def receive (s : Client) (t : Nat) : Option Client := match s.threads t with
  | .waiting m r stale =>
      match rpcReceiveData s.inbox with
      | .blocked _ => none
      | .raised e inbox =>
          some
            ({ s with inbox := inbox }.setPhase t (.unlocking ⟨m, some r, stale, none, .raised e⟩))
      | .ok f inbox =>
          let s' := { s with inbox := inbox, unread := s.unread.tail }
          if f.idx < r.id then some s'
          else some (s'.setPhase t (.unlocking ⟨m, some r, stale, s.unread.head?, .got f⟩))
  | _ => none

/-- The receive times out before it has read a byte. -/
def timeout (s : Client) (t : Nat) : Option Client := match s.threads t with
  | .waiting m r stale =>
      match rpcReceiveData (.timeout :: s.inbox) with
      | .raised e inbox =>
          some
            ({ s with inbox := inbox }.setPhase t (.unlocking ⟨m, some r, stale, none, .raised e⟩))
      | _ => none
  | _ => none

/-- `request_lock.release()`, and what the call then returns or raises. -/
def release (s : Client) (t : Nat) : Option Client := match s.threads t with
  | .unlocking e => some ({ s with requestLock := none }.finished t e)
  | _ => none

def serve (s : Client) (a : Answer) (sizes : List Nat) : Option Client := match s.pending with
  | [] => none
  | r :: pending =>
      if r.void then some { s with pending := pending }
      else some { s with
        pending := pending
        unread := s.unread ++ [a.to r]
        inbox := s.inbox ++ chop sizes (a.to r).frame.encode }

def step (s : Client) : Label → Option Client
  | .read t m => readCounter s t m
  | .write t => writeCounter s t
  | .draw t m => (readCounter s t m).bind (writeCounter · t)
  | .refuse t m => refuse s t m
  | .leave t => leave s t
  | .acquire t => acquire s t
  | .send t => send s t
  | .receive t => receive s t
  | .timeout t => timeout s t
  | .release t => release s t
  | .serve a sizes => serve s a sizes

/-! ### What a step can do -/

/-- What a call leaves that has nothing to send. -/
def Call.Leaves (m : Call) (how : Ending) : Prop :=
  (∃ e, m.handler = .error e ∧ how = .raised e) ∨
    ∃ v, m.handler = .ok (.justReturn v) ∧ how = .returned v

/-- The outcomes of the steps, with what each of them presupposes. -/
inductive Step (s : Client) : Label → Client → Prop where
  | read {t : Nat} {m : Call} : s.threads t = .idle →
      Step s (.read t m) (s.setPhase t (.counted m s.callCounter))
  | write {t : Nat} {m : Call} {n : Nat} : s.threads t = .counted m n →
      Step s (.write t) ({ s with callCounter := n + 1 }.setPhase t (.drawn m n))
  | draw {t : Nat} {m : Call} : s.threads t = .idle →
      Step s (.draw t m)
        ({ s with callCounter := s.callCounter + 1 }.setPhase t (.drawn m s.callCounter))
  | refuse {t : Nat} {m : Call} : s.threads t = .idle →
      Step s (.refuse t m) (s.finished t ⟨m, none, [], none, .raised (banned m)⟩)
  | leave {t : Nat} {m : Call} {n : Nat} {how : Ending} : s.threads t = .drawn m n →
      m.Leaves how → Step s (.leave t) (s.finished t ⟨m, none, [], none, how⟩)
  | acquire {t : Nat} {m : Call} {n : Nat} : s.threads t = .drawn m n → s.requestLock = none →
      m.payload.isSome →
        Step s (.acquire t) ({ s with requestLock := some t }.setPhase t (.locked m n))
  | unsent {t : Nat} {m : Call} {n : Nat} {e : PyExn} {o : Outlet} : s.threads t = .locked m n →
      rpcSendData (.ofData m.payload) (.int (callId n)) (.int m.rpcId) s.outlet = .raised e o →
      Step s (.send t)
        ({ s with outlet := o }.setPhase t (.unlocking ⟨m, none, [], none, .raised e⟩))
  | sentVoid {t : Nat} {m : Call} {n : Nat} {o : Outlet} : s.threads t = .locked m n →
      rpcSendData (.ofData m.payload) (.int (callId n)) (.int m.rpcId) s.outlet = .ok () o →
      m.isVoid = true → Step s (.send t)
        ({ s with outlet := o, pending := s.pending ++ [(⟨s.requests, n, true⟩ : Request)],
                  requests := s.requests + 1 }.setPhase t
          (.unlocking ⟨m, some ⟨s.requests, n, true⟩, s.outstanding, none, .sent⟩))
  | sent {t : Nat} {m : Call} {n : Nat} {o : Outlet} : s.threads t = .locked m n →
      rpcSendData (.ofData m.payload) (.int (callId n)) (.int m.rpcId) s.outlet = .ok () o →
      m.isVoid = false → Step s (.send t)
        ({ s with outlet := o, pending := s.pending ++ [(⟨s.requests, n, false⟩ : Request)],
                  requests := s.requests + 1 }.setPhase t
          (.waiting m ⟨s.requests, n, false⟩ s.outstanding))
  | skip {t : Nat} {m : Call} {r : Request} {stale : List Request} {f : Frame} {inbox : Inbox} :
      s.threads t = .waiting m r stale → rpcReceiveData s.inbox = .ok f inbox → f.idx < r.id →
      Step s (.receive t) { s with inbox := inbox, unread := s.unread.tail }
  | take {t : Nat} {m : Call} {r : Request} {stale : List Request} {f : Frame} {inbox : Inbox} :
      s.threads t = .waiting m r stale → rpcReceiveData s.inbox = .ok f inbox → ¬ f.idx < r.id →
      Step s (.receive t) ({ s with inbox := inbox, unread := s.unread.tail }.setPhase t
        (.unlocking ⟨m, some r, stale, s.unread.head?, .got f⟩))
  | broken {t : Nat} {m : Call} {r : Request} {stale : List Request} {e : PyExn} {inbox : Inbox} :
      s.threads t = .waiting m r stale → rpcReceiveData s.inbox = .raised e inbox →
      Step s (.receive t) ({ s with inbox := inbox }.setPhase t
        (.unlocking ⟨m, some r, stale, none, .raised e⟩))
  | timeout {t : Nat} {m : Call} {r : Request} {stale : List Request} :
      s.threads t = .waiting m r stale → Step s (.timeout t)
        (s.setPhase t (.unlocking ⟨m, some r, stale, none, .raised .timeoutError⟩))
  | release {t : Nat} {e : Ended} : s.threads t = .unlocking e →
      Step s (.release t) ({ s with requestLock := none }.finished t e)
  | discard {a : Answer} {sizes : List Nat} {r : Request} {pending : List Request} :
      s.pending = r :: pending → r.void = true →
      Step s (.serve a sizes) { s with pending := pending }
  | answer {a : Answer} {sizes : List Nat} {r : Request} {pending : List Request} :
      s.pending = r :: pending → r.void = false →
      Step s (.serve a sizes) { s with
        pending := pending
        unread := s.unread ++ [a.to r]
        inbox := s.inbox ++ chop sizes (a.to r).frame.encode }

section Cases

variable {s s' : Client} {t : Nat} {m : Call}

theorem readCounter_cases (h : readCounter s t m = some s') :
    s.threads t = .idle ∧ s' = s.setPhase t (.counted m s.callCounter) := by
  unfold readCounter at h
  split at h
  · next hidle => exact ⟨hidle, (Option.some.inj h).symm⟩
  · cases h

theorem writeCounter_cases (h : writeCounter s t = some s') :
    ∃ m n, s.threads t = .counted m n ∧
      s' = { s with callCounter := n + 1 }.setPhase t (.drawn m n) := by
  unfold writeCounter at h
  split at h
  · next m n hcounted => exact ⟨m, n, hcounted, (Option.some.inj h).symm⟩
  · cases h

theorem draw_cases (h : (readCounter s t m).bind (writeCounter · t) = some s') :
    s.threads t = .idle ∧
      s' = { s with callCounter := s.callCounter + 1 }.setPhase t (.drawn m s.callCounter) := by
  obtain ⟨mid, hread, hwrite⟩ := Option.bind_eq_some_iff.mp h
  obtain ⟨hidle, rfl⟩ := readCounter_cases hread
  obtain ⟨m', n', hcounted, rfl⟩ := writeCounter_cases hwrite
  rw [Client.setPhase_self] at hcounted
  cases hcounted
  refine ⟨hidle, ?_⟩
  simp only [Client.setPhase, Function.update_idem]

theorem send_cases (h : send s t = some s') : Step s (.send t) s' := by
  unfold send at h
  split at h
  · next m n hlocked =>
    cases hsend : rpcSendData (.ofData m.payload) (.int (callId n)) (.int m.rpcId) s.outlet with
    | blocked o => rw [hsend] at h; cases h
    | raised e o =>
      rw [hsend] at h
      cases Option.some.inj h
      exact .unsent hlocked hsend
    | ok u o =>
      rw [hsend] at h
      cases hvoid : m.isVoid with
      | true =>
        simp only [hvoid, if_true] at h
        cases h
        exact .sentVoid hlocked hsend hvoid
      | false =>
        simp only [hvoid] at h
        cases h
        exact .sent hlocked hsend hvoid
  · cases h

theorem receive_cases (h : receive s t = some s') : Step s (.receive t) s' := by
  unfold receive at h
  split at h
  · next m r stale hwaiting =>
    cases hrecv : rpcReceiveData s.inbox with
    | blocked inbox => rw [hrecv] at h; cases h
    | raised e inbox =>
      rw [hrecv] at h
      cases Option.some.inj h
      exact .broken hwaiting hrecv
    | ok f inbox =>
      rw [hrecv] at h
      dsimp only at h
      split at h
      · next hlt =>
        cases Option.some.inj h
        exact .skip hwaiting hrecv hlt
      · next hge =>
        cases Option.some.inj h
        exact .take hwaiting hrecv hge
  · cases h

/-- **Everything a step can do.** -/
theorem step_cases {l : Label} (h : step s l = some s') : Step s l s' := by
  cases l with
  | read t m =>
    obtain ⟨hidle, rfl⟩ := readCounter_cases h
    exact .read hidle
  | write t =>
    obtain ⟨m, n, hcounted, rfl⟩ := writeCounter_cases h
    exact .write hcounted
  | draw t m =>
    obtain ⟨hidle, rfl⟩ := draw_cases h
    exact .draw hidle
  | refuse t m =>
    simp only [step, refuse] at h
    split at h
    · next hidle =>
      cases Option.some.inj h
      exact .refuse hidle
    · cases h
  | leave t =>
    simp only [step, leave] at h
    split at h
    · next m n hdrawn =>
      split at h
      · next e he =>
        cases Option.some.inj h
        exact .leave hdrawn (Or.inl ⟨e, he, rfl⟩)
      · next v hv =>
        cases Option.some.inj h
        exact .leave hdrawn (Or.inr ⟨v, hv, rfl⟩)
      · cases h
    · cases h
  | acquire t =>
    simp only [step, acquire] at h
    split at h
    · next m n hdrawn hfree =>
      split at h
      · next hpayload =>
        cases Option.some.inj h
        exact .acquire hdrawn hfree hpayload
      · cases h
    · cases h
  | send t => exact send_cases h
  | receive t => exact receive_cases h
  | timeout t =>
    simp only [step, timeout] at h
    split at h
    · next m r stale hwaiting =>
      cases Option.some.inj h
      exact .timeout hwaiting
    · cases h
  | release t =>
    simp only [step, release] at h
    split at h
    · next e hunlocking =>
      cases Option.some.inj h
      exact .release hunlocking
    · cases h
  | serve a sizes =>
    simp only [step, serve] at h
    split at h
    · cases h
    · next r pending hpending =>
      split at h
      · next hvoid =>
        cases Option.some.inj h
        exact .discard hpending hvoid
      · next hvoid =>
        cases Option.some.inj h
        exact .answer hpending (Bool.eq_false_iff.mpr hvoid)

end Cases

end Albatross.Calls
