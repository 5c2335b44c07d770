/-
  Albatross/Wire.lean
  ===================
  **Stream sockets with partial reads and writes.**

  The receiving half of a socket is the list of everything its `recv` calls will
  meet, byte by byte: `cut` marks where one `recv` stops early, so the marks of a
  list range over every way the stream can be fragmented, and `timeout`, `fault`
  and `eof` are the other ways a `recv` can end.  When the list is used up the
  call blocks.  The sending half carries what its coming `send` calls will do.

  `Codec` collects what a framing layer must provide, a receive function that
  takes exactly one encoded item off the stream however it is cut.  From that
  alone a run of receives returns the items in order (`Codec.receiveMany_spec`),
  also when pauses fall between items (`Codec.Delivers`).
-/
import Albatross.Python

namespace Albatross.Wire

open Python

/-! ### Outcomes of a call that uses the socket -/

/-- A call returns, raises, or is still waiting when the stream under
    consideration ends; the state it leaves is kept in each case. -/
inductive Outcome (σ α : Type) where
  | ok (a : α) (s : σ)
  | raised (e : PyExn) (s : σ)
  | blocked (s : σ)

variable {σ τ α β : Type}

def Outcome.bind (x : Outcome σ α) (f : α → σ → Outcome σ β) : Outcome σ β :=
  match x with
  | .ok a s => f a s
  | .raised e s => .raised e s
  | .blocked s => .blocked s

@[simp] theorem Outcome.bind_ok (a : α) (s : σ) (f : α → σ → Outcome σ β) :
    (Outcome.ok a s).bind f = f a s := rfl

@[simp] theorem Outcome.bind_raised (e : PyExn) (s : σ) (f : α → σ → Outcome σ β) :
    (Outcome.raised e s).bind f = .raised e s := rfl

@[simp] theorem Outcome.bind_blocked (s : σ) (f : α → σ → Outcome σ β) :
    (Outcome.blocked s).bind f = .blocked s := rfl

theorem Outcome.bind_eq_ok {x : Outcome σ α} {f : α → σ → Outcome σ β} {b : β} {s' : σ}
    (h : x.bind f = .ok b s') : ∃ a s, x = .ok a s ∧ f a s = .ok b s' := by
  cases x with
  | ok a s => exact ⟨a, s, rfl, h⟩
  | raised e s => cases h
  | blocked s => cases h

theorem Outcome.bind_eq_raised {x : Outcome σ α} {f : α → σ → Outcome σ β} {e : PyExn} {s' : σ}
    (h : x.bind f = .raised e s') :
    x = .raised e s' ∨ ∃ a s, x = .ok a s ∧ f a s = .raised e s' := by
  cases x with
  | ok a s => exact Or.inr ⟨a, s, rfl, h⟩
  | raised e₁ s => cases h; exact Or.inl rfl
  | blocked s => cases h

def Outcome.state : Outcome σ α → σ
  | .ok _ s => s
  | .raised _ s => s
  | .blocked s => s

/-- Runs a call on a part of a larger state. -/
def Outcome.lift (put : σ → τ) : Outcome σ α → Outcome τ α
  | .ok a s => .ok a (put s)
  | .raised e s => .raised e (put s)
  | .blocked s => .blocked (put s)

@[simp] theorem Outcome.lift_ok (put : σ → τ) (a : α) (s : σ) :
    (Outcome.ok a s).lift put = .ok a (put s) := rfl

@[simp] theorem Outcome.lift_raised (put : σ → τ) (e : PyExn) (s : σ) :
    (Outcome.raised e s : Outcome σ α).lift put = .raised e (put s) := rfl

@[simp] theorem Outcome.lift_blocked (put : σ → τ) (s : σ) :
    (Outcome.blocked s : Outcome σ α).lift put = .blocked (put s) := rfl

def Outcome.ofExcept : Except PyExn α → σ → Outcome σ α
  | .ok a, s => .ok a s
  | .error e, s => .raised e s

@[simp] theorem Outcome.ofExcept_ok (a : α) (s : σ) : Outcome.ofExcept (.ok a) s = .ok a s := rfl

@[simp] theorem Outcome.ofExcept_error (e : PyExn) (s : σ) :
    (Outcome.ofExcept (.error e) s : Outcome σ α) = .raised e s := rfl

/-! ### Receiving -/

inductive Signal where
  | byte (b : UInt8)
  | cut
  | timeout
  | fault
  | eof
deriving DecidableEq, Repr

abbrev Inbox := List Signal

/-- Up to `n` bytes from the front, stopping at the first mark. -/
def takeBytes : Nat → Inbox → Bytes × Inbox
  | n + 1, .byte b :: rest => (b :: (takeBytes n rest).1, (takeBytes n rest).2)
  | _, inbox => ([], inbox)

/-- `sock.recv(n)`. -/
def recv (n : Nat) : Inbox → Outcome Inbox Bytes
  | [] => .blocked []
  | .cut :: rest => recv n rest
  | .timeout :: rest => .raised .timeoutError rest
  | .fault :: rest => .raised (.osError "") rest
  | .eof :: rest => .ok [] (.eof :: rest)
  | .byte b :: rest => .ok (takeBytes n (.byte b :: rest)).1 (takeBytes n (.byte b :: rest)).2

def bytesOf (inbox : Inbox) : Bytes :=
  inbox.filterMap fun s => match s with
    | .byte b => some b
    | _ => none

/-- A stretch of the stream with bytes and cuts only. -/
def Data (inbox : Inbox) : Prop := ∀ s ∈ inbox, s = .cut ∨ ∃ b, s = .byte b

/-- The stretch of a byte string that arrives in one piece. -/
def ofBytes (bs : Bytes) : Inbox := bs.map .byte

@[simp] theorem bytesOf_nil : bytesOf [] = [] := rfl

@[simp] theorem bytesOf_byte (b : UInt8) (rest : Inbox) :
    bytesOf (.byte b :: rest) = b :: bytesOf rest := rfl

@[simp] theorem bytesOf_cut (rest : Inbox) : bytesOf (.cut :: rest) = bytesOf rest := rfl

@[simp] theorem bytesOf_timeout (rest : Inbox) : bytesOf (.timeout :: rest) = bytesOf rest := rfl

@[simp] theorem bytesOf_fault (rest : Inbox) : bytesOf (.fault :: rest) = bytesOf rest := rfl

@[simp] theorem bytesOf_eof (rest : Inbox) : bytesOf (.eof :: rest) = bytesOf rest := rfl

@[simp] theorem bytesOf_append (a b : Inbox) : bytesOf (a ++ b) = bytesOf a ++ bytesOf b := by
  simp [bytesOf]

@[simp] theorem bytesOf_ofBytes (bs : Bytes) : bytesOf (ofBytes bs) = bs := by
  induction bs with
  | nil => rfl
  | cons b bs ih => simpa [ofBytes] using ih

theorem Data.ofBytes (bs : Bytes) : Data (ofBytes bs) := by
  intro s hs
  obtain ⟨b, _, rfl⟩ := List.mem_map.mp hs
  exact Or.inr ⟨b, rfl⟩

theorem Data.nil : Data [] := by intro s hs; cases hs

theorem Data.append {a b : Inbox} (ha : Data a) (hb : Data b) : Data (a ++ b) := by
  intro s hs
  rcases List.mem_append.mp hs with h | h
  · exact ha s h
  · exact hb s h

theorem Data.tail {s : Signal} {rest : Inbox} (h : Data (s :: rest)) : Data rest :=
  fun x hx => h x (List.mem_cons_of_mem s hx)

theorem Data.split {body : Inbox} (h : Data body) :
    ∀ {front back : Bytes}, bytesOf body = front ++ back →
      ∃ b₁ b₂, body = b₁ ++ b₂ ∧ Data b₁ ∧ Data b₂ ∧ bytesOf b₁ = front ∧ bytesOf b₂ = back := by
  induction body with
  | nil =>
    intro front back hb
    obtain ⟨rfl, rfl⟩ := List.append_eq_nil_iff.mp hb.symm
    exact ⟨[], [], rfl, Data.nil, Data.nil, rfl, rfl⟩
  | cons s rest ih =>
    intro front back hb
    cases front with
    | nil => exact ⟨[], s :: rest, rfl, Data.nil, h, rfl, by simpa using hb⟩
    | cons f front =>
      have hhead := h s List.mem_cons_self
      rcases hhead with rfl | ⟨b, rfl⟩
      · have hrest : bytesOf rest = (f :: front) ++ back := hb
        obtain ⟨b₁, b₂, rfl, h₁, h₂, hf, hk⟩ := ih h.tail hrest
        refine ⟨.cut :: b₁, b₂, rfl, ?_, h₂, by simpa using hf, hk⟩
        intro x hx
        rcases List.mem_cons.mp hx with rfl | hx
        · exact Or.inl rfl
        · exact h₁ x hx
      · simp only [bytesOf_byte, List.cons_append, List.cons.injEq] at hb
        obtain ⟨b₁, b₂, rfl, h₁, h₂, hf, hk⟩ := ih h.tail hb.2
        refine ⟨.byte b :: b₁, b₂, rfl, ?_, h₂, by simp [hf, hb.1], hk⟩
        intro x hx
        rcases List.mem_cons.mp hx with rfl | hx
        · exact Or.inr ⟨b, rfl⟩
        · exact h₁ x hx

def Halts (rest : Inbox) : Prop := ∀ b more, rest ≠ .byte b :: more

theorem takeBytes_of_halts {rest : Inbox} (h : Halts rest) (n : Nat) :
    takeBytes n rest = ([], rest) := by
  cases n with
  | zero => simp [takeBytes]
  | succ n =>
    cases rest with
    | nil => rfl
    | cons s more =>
      cases s with
      | byte b => exact absurd rfl (h b more)
      | cut | timeout | fault | eof => rfl

/-- Taking bytes from a stretch of data stays inside it, as long as it asks for
    no more than the stretch holds or the stretch is followed by a mark. -/
theorem takeBytes_data (rest : Inbox) : ∀ (n : Nat) (body : Inbox), Data body →
    n ≤ (bytesOf body).length ∨ Halts rest →
    ∃ chunk body', takeBytes n (body ++ rest) = (chunk, body' ++ rest) ∧ Data body' ∧
      bytesOf body = chunk ++ bytesOf body' ∧ chunk.length ≤ n := by
  intro n
  induction n with
  | zero => intro body hd _; exact ⟨[], body, by simp [takeBytes], hd, rfl, Nat.le_refl 0⟩
  | succ n ih =>
    intro body hd hn
    cases body with
    | nil =>
      have hhalt : Halts rest := by simpa using hn
      exact ⟨[], [], by simp [takeBytes_of_halts hhalt], Data.nil, rfl, Nat.zero_le _⟩
    | cons s body =>
      rcases hd s List.mem_cons_self with rfl | ⟨b, rfl⟩
      · exact ⟨[], .cut :: body, rfl, hd, rfl, Nat.zero_le _⟩
      · obtain ⟨chunk, body', heq, hd', hbytes, hlen⟩ := ih body hd.tail (by simpa using hn)
        exact ⟨b :: chunk, body', by simp [takeBytes, heq], hd', by simp [hbytes],
          by simpa using hlen⟩

/-- **One `recv` on a stretch of data** returns a non-empty piece of it, at most
    as long as asked for, and leaves the rest of the stretch. -/
theorem recv_data {n : Nat} (hn : 0 < n) (rest : Inbox) {body : Inbox} (hd : Data body)
    (hne : bytesOf body ≠ []) (hle : n ≤ (bytesOf body).length ∨ Halts rest) :
    ∃ chunk body', recv n (body ++ rest) = .ok chunk (body' ++ rest) ∧ Data body' ∧
      bytesOf body = chunk ++ bytesOf body' ∧ chunk ≠ [] ∧ chunk.length ≤ n := by
  induction body with
  | nil => exact absurd rfl hne
  | cons s body ih =>
    rcases hd s List.mem_cons_self with rfl | ⟨b, rfl⟩
    · exact ih hd.tail hne hle
    · obtain ⟨m, rfl⟩ : ∃ m, n = m + 1 := ⟨n - 1, by omega⟩
      obtain ⟨chunk, body', heq, hd', hbytes, hlen⟩ :=
        takeBytes_data rest m body hd.tail (by simpa using hle)
      exact ⟨b :: chunk, body', by simp [recv, takeBytes, heq], hd', by simp [hbytes],
        List.cons_ne_nil _ _, by simpa using hlen⟩

theorem recv_skip (n : Nat) {body : Inbox} (hd : Data body) (hb : bytesOf body = [])
    (rest : Inbox) : recv n (body ++ rest) = recv n rest := by
  induction body with
  | nil => rfl
  | cons s body ih =>
    rcases hd s List.mem_cons_self with rfl | ⟨b, rfl⟩
    · exact ih hd.tail hb
    · simp at hb

/-! ### What a receive consumes -/

/-- Reading `got` off a stream: its bytes come first, and the stream gets shorter
    by at least as much. -/
structure Consumed (inbox : Inbox) (got : Bytes) (inbox' : Inbox) : Prop where
  bytes : bytesOf inbox = got ++ bytesOf inbox'
  shorter : inbox'.length + got.length ≤ inbox.length

theorem Consumed.refl (inbox : Inbox) : Consumed inbox [] inbox := ⟨rfl, Nat.le_refl _⟩

theorem Consumed.trans {a b c : Inbox} {x y : Bytes} (h : Consumed a x b) (h' : Consumed b y c) :
    Consumed a (x ++ y) c := by
  constructor
  · rw [h.bytes, h'.bytes, List.append_assoc]
  · have h₁ := h.shorter
    have h₂ := h'.shorter
    rw [List.length_append]
    omega

theorem takeBytes_consumed (n : Nat) (inbox : Inbox) :
    Consumed inbox (takeBytes n inbox).1 (takeBytes n inbox).2 ∧
      (takeBytes n inbox).1.length ≤ n := by
  induction n generalizing inbox with
  | zero => simp [takeBytes, Consumed.refl]
  | succ n ih =>
    cases inbox with
    | nil => simp [takeBytes, Consumed.refl]
    | cons s rest =>
      cases s with
      | byte b =>
        obtain ⟨⟨hbytes, hshort⟩, hlen⟩ := ih rest
        refine ⟨⟨?_, ?_⟩, ?_⟩
        · simpa [takeBytes] using hbytes
        · simp only [takeBytes, List.length_cons]; omega
        · simpa [takeBytes] using hlen
      | cut | timeout | fault | eof => simp [takeBytes, Consumed.refl]

theorem recv_ok {n : Nat} {inbox inbox' : Inbox} {chunk : Bytes}
    (h : recv n inbox = .ok chunk inbox') :
    Consumed inbox chunk inbox' ∧ chunk.length ≤ n := by
  induction inbox with
  | nil => simp [recv] at h
  | cons s rest ih =>
    cases s with
    | cut =>
      obtain ⟨⟨hbytes, hshort⟩, hlen⟩ := ih h
      exact ⟨⟨by simpa using hbytes, by simp only [List.length_cons]; omega⟩, hlen⟩
    | byte b =>
      simp only [recv, Outcome.ok.injEq] at h
      obtain ⟨rfl, rfl⟩ := h
      exact takeBytes_consumed n (.byte b :: rest)
    | eof =>
      simp only [recv, Outcome.ok.injEq] at h
      obtain ⟨rfl, rfl⟩ := h
      exact ⟨Consumed.refl _, Nat.zero_le n⟩
    | timeout | fault => simp [recv] at h

theorem recv_raised {n : Nat} {inbox inbox' : Inbox} {e : PyExn}
    (h : recv n inbox = .raised e inbox') :
    Consumed inbox [] inbox' ∧ inbox'.length < inbox.length := by
  induction inbox with
  | nil => simp [recv] at h
  | cons s rest ih =>
    cases s with
    | cut =>
      obtain ⟨⟨hbytes, hshort⟩, hlen⟩ := ih h
      exact ⟨⟨by simpa using hbytes, by simp only [List.length_cons]; omega⟩,
        by simp only [List.length_cons]; omega⟩
    | timeout | fault =>
      simp only [recv, Outcome.raised.injEq] at h
      obtain ⟨_, rfl⟩ := h
      exact ⟨⟨rfl, by simp⟩, by simp⟩
    | byte b | eof => simp [recv] at h

/-- A receive that raises has dropped some bytes; a pause is used up by it. -/
structure Dropped (e : PyExn) (inbox inbox' : Inbox) : Prop where
  lost : ∃ got, Consumed inbox got inbox'
  pause : e = .timeoutError → inbox'.length < inbox.length

theorem Dropped.of_recv {n : Nat} {inbox inbox' : Inbox} {e : PyExn}
    (h : recv n inbox = .raised e inbox') : Dropped e inbox inbox' := by
  obtain ⟨hcons, hshort⟩ := recv_raised h
  exact ⟨⟨[], hcons⟩, fun _ => hshort⟩

theorem Dropped.after {e : PyExn} {a b c : Inbox} {x : Bytes} (h : Dropped e b c)
    (hx : Consumed a x b) : Dropped e a c := by
  obtain ⟨got, hgot⟩ := h.lost
  refine ⟨⟨x ++ got, hx.trans hgot⟩, fun he => ?_⟩
  have hle := hx.shorter
  have hlt := h.pause he
  omega

/-! ### Sending -/

/-- What one `send` call will do: accept at most `k` bytes of what it is handed,
    or raise. -/
inductive SendAct where
  | accept (k : Nat)
  | fail (e : PyExn)
deriving DecidableEq, Repr

/-- The sending half: the coming `send` calls (all is accepted when the list has
    run out) and the bytes accepted so far. -/
structure Outlet where
  sends : List SendAct
  sent : Bytes
deriving DecidableEq, Repr

/-- `sock.send(payload)`. -/
def Outlet.send (payload : Bytes) (o : Outlet) : Outcome Outlet Nat :=
  match o.sends with
  | [] => .ok payload.length { o with sent := o.sent ++ payload }
  | .accept k :: rest =>
      .ok (min k payload.length) { sends := rest, sent := o.sent ++ payload.take k }
  | .fail e :: rest => .raised e { o with sends := rest }

/-- Every coming `send` accepts a non-empty prefix of what it is handed. -/
def Outlet.Accepting (o : Outlet) : Prop := ∀ a ∈ o.sends, ∃ k, a = .accept (k + 1)

theorem Outlet.send_accepting {o : Outlet} (ho : o.Accepting) (payload : Bytes) :
    ∃ k o', o.send payload = .ok k o' ∧ k ≤ payload.length ∧ (payload ≠ [] → 0 < k) ∧
      o'.sent = o.sent ++ payload.take k ∧ o'.Accepting := by
  have hpos : payload ≠ [] → 0 < payload.length := List.length_pos_iff.mpr
  rcases hs : o.sends with _ | ⟨a, rest⟩
  · refine ⟨payload.length, { o with sent := o.sent ++ payload }, ?_, Nat.le_refl _, hpos, ?_, ho⟩
    · simp [Outlet.send, hs]
    · simp
  · obtain ⟨k, rfl⟩ := ho a (by rw [hs]; exact List.mem_cons_self)
    refine ⟨min (k + 1) payload.length, { sends := rest, sent := o.sent ++ payload.take (k + 1) },
      ?_, Nat.min_le_right _ _, ?_, ?_, ?_⟩
    · simp [Outlet.send, hs]
    · intro hne
      have := hpos hne
      omega
    · simp [List.take_eq_take_iff]
    · intro b hb
      exact ho b (by rw [hs]; exact List.mem_cons_of_mem _ hb)

structure Sock where
  inbox : Inbox
  outlet : Outlet

/-! ### Framing layers

The laws of a framing layer: an item whose bytes are next is taken off the stream
exactly, a pause inside an item makes the receive raise and drops what it had
read, cuts in front of an item make no difference, and no receive consumes more
bytes than the stream held. -/

structure Codec (α : Type) where
  valid : α → Prop
  encode : α → Bytes
  receive : Inbox → Outcome Inbox α
  receive_data : ∀ {a : α} {body : Inbox} {more : Bytes}, valid a → Data body →
    bytesOf body = encode a ++ more → ∀ rest, ∃ body',
      receive (body ++ rest) = .ok a (body' ++ rest) ∧ Data body' ∧ bytesOf body' = more
  receive_pause : ∀ {a : α} {body : Inbox} {more : Bytes}, valid a → Data body →
    encode a = bytesOf body ++ more → more ≠ [] → ∀ post,
      receive (body ++ .timeout :: post) = .raised .timeoutError post
  receive_skip : ∀ {body : Inbox}, Data body → bytesOf body = [] → ∀ rest,
    receive (body ++ rest) = receive rest
  receive_timeout : ∀ rest, receive (.timeout :: rest) = .raised .timeoutError rest
  receive_size : ∀ {a : α} {inbox inbox' : Inbox}, receive inbox = .ok a inbox' →
    (bytesOf inbox).length = (encode a).length + (bytesOf inbox').length
  raised_size : ∀ {e : PyExn} {inbox inbox' : Inbox}, receive inbox = .raised e inbox' →
    (bytesOf inbox').length ≤ (bytesOf inbox).length

namespace Codec

variable (c : Codec α)

def encodeAll (as : List α) : Bytes := as.flatMap c.encode

@[simp] theorem encodeAll_nil : c.encodeAll [] = [] := rfl

@[simp] theorem encodeAll_cons (a : α) (as : List α) :
    c.encodeAll (a :: as) = c.encode a ++ c.encodeAll as := rfl

@[simp] theorem encodeAll_append (as bs : List α) :
    c.encodeAll (as ++ bs) = c.encodeAll as ++ c.encodeAll bs := by
  simp [encodeAll]

/-- Calls `receive` `n` times. -/
def receiveMany : Nat → Inbox → Outcome Inbox (List α)
  | 0, inbox => .ok [] inbox
  | n + 1, inbox =>
      (c.receive inbox).bind fun a inbox =>
        (receiveMany n inbox).bind fun as inbox => .ok (a :: as) inbox

/-- **Items come back in order**, however the stream is cut, and the receives
    leave exactly what follows the items. -/
theorem receiveMany_spec (as : List α) (hv : ∀ a ∈ as, c.valid a) :
    ∀ {body : Inbox} {more : Bytes}, Data body → bytesOf body = c.encodeAll as ++ more →
      ∀ rest, ∃ body', c.receiveMany as.length (body ++ rest) = .ok as (body' ++ rest) ∧
        Data body' ∧ bytesOf body' = more := by
  induction as with
  | nil => intro body more hd hb rest; exact ⟨body, rfl, hd, by simpa using hb⟩
  | cons a as ih =>
    intro body more hd hb rest
    rw [encodeAll_cons, List.append_assoc] at hb
    obtain ⟨body₁, hrecv, hd₁, hb₁⟩ := c.receive_data (hv a List.mem_cons_self) hd hb rest
    obtain ⟨body₂, hmany, hd₂, hb₂⟩ :=
      ih (fun x hx => hv x (List.mem_cons_of_mem a hx)) hd₁ hb₁ rest
    exact ⟨body₂, by simp [receiveMany, hrecv, hmany], hd₂, hb₂⟩

/-! ### Pauses between items -/

/-- `Delivers inbox as tail`: the stream holds the items `as` and then `tail`, and
    no pause falls inside an item. -/
inductive Delivers : Inbox → List α → Inbox → Prop where
  | nil {body tail : Inbox} : Data body → bytesOf body = [] → Delivers (body ++ tail) [] tail
  | pause {body rest tail : Inbox} {as : List α} : Data body → bytesOf body = [] →
      Delivers rest as tail → Delivers (body ++ .timeout :: rest) as tail
  | item {body rest tail : Inbox} {a : α} {as : List α} : c.valid a → Data body →
      bytesOf body = c.encode a → Delivers rest as tail → Delivers (body ++ rest) (a :: as) tail

variable {c}

theorem Delivers.skip {body rest tail : Inbox} {as : List α} (hd : Data body)
    (hb : bytesOf body = []) (h : c.Delivers rest as tail) : c.Delivers (body ++ rest) as tail := by
  cases h with
  | nil hd' hb' => rw [← List.append_assoc]; exact .nil (hd.append hd') (by simp [hb, hb'])
  | pause hd' hb' h => rw [← List.append_assoc]; exact .pause (hd.append hd') (by simp [hb, hb']) h
  | item hv hd' hb' h =>
    rw [← List.append_assoc]
    exact .item hv (hd.append hd') (by simp [hb, hb']) h

theorem Delivers.trans {inbox mid tail : Inbox} {as bs : List α}
    (h : c.Delivers inbox as mid) (h' : c.Delivers mid bs tail) :
    c.Delivers inbox (as ++ bs) tail := by
  induction h with
  | nil hd hb => exact h'.skip hd hb
  | pause hd hb _ ih => exact .pause hd hb (ih h')
  | item hv hd hb _ ih => exact .item hv hd hb (ih h')

theorem delivers_data {as : List α} (hv : ∀ a ∈ as, c.valid a) (tail : Inbox) :
    ∀ {body : Inbox}, Data body → bytesOf body = c.encodeAll as →
      c.Delivers (body ++ tail) as tail := by
  induction as with
  | nil => intro body hd hb; exact .nil hd hb
  | cons a as ih =>
    intro body hd hb
    obtain ⟨b₁, b₂, rfl, hd₁, hd₂, hb₁, hb₂⟩ := hd.split hb
    rw [List.append_assoc]
    exact .item (hv a List.mem_cons_self) hd₁ hb₁
      (ih (fun x hx => hv x (List.mem_cons_of_mem a hx)) hd₂ hb₂)

def PausesBetween (c : Codec α) (inbox : Inbox) (as : List α) : Prop :=
  ∀ pre post, inbox = pre ++ .timeout :: post → ∃ k, bytesOf pre = c.encodeAll (as.take k)

/-- A stream that holds bytes, cuts and pauses only. -/
def Steady (inbox : Inbox) : Prop :=
  ∀ s ∈ inbox, s = .cut ∨ s = .timeout ∨ ∃ b, s = .byte b

theorem Steady.of_data {inbox : Inbox} (h : Data inbox) : Steady inbox := by
  intro s hs
  rcases h s hs with h | h
  · exact Or.inl h
  · exact Or.inr (Or.inr h)

theorem Steady.pause {a b : Inbox} (ha : Steady a) (hb : Steady b) :
    Steady (a ++ .timeout :: b) := by
  intro s hs
  rcases List.mem_append.mp hs with hs | hs
  · exact ha s hs
  · rcases List.mem_cons.mp hs with rfl | hs
    · exact Or.inr (Or.inl rfl)
    · exact hb s hs

theorem Steady.data_or_pause : ∀ {inbox : Inbox}, Steady inbox →
    Data inbox ∨ ∃ body post, inbox = body ++ .timeout :: post ∧ Data body ∧ Steady post := by
  intro inbox
  induction inbox with
  | nil => intro _; exact Or.inl Data.nil
  | cons s rest ih =>
    intro hs
    have htail : Steady rest := fun x hx => hs x (List.mem_cons_of_mem s hx)
    have hcons : ∀ body, (s = .cut ∨ ∃ b, s = .byte b) → Data body → Data (s :: body) := by
      intro body hsig hd x hx
      rcases List.mem_cons.mp hx with rfl | hx
      · exact hsig
      · exact hd x hx
    by_cases hsig : s = .cut ∨ ∃ b, s = .byte b
    · rcases ih htail with hd | ⟨body, post, rfl, hd, hp⟩
      · exact Or.inl (hcons rest hsig hd)
      · exact Or.inr ⟨s :: body, post, rfl, hcons body hsig hd, hp⟩
    · rcases hs s List.mem_cons_self with h | rfl | h
      · exact absurd (Or.inl h) hsig
      · exact Or.inr ⟨[], rest, rfl, Data.nil, htail⟩
      · exact absurd (Or.inr h) hsig

theorem delivers_of_pausesBetween : ∀ {inbox : Inbox} {as : List α}, Steady inbox →
    (∀ a ∈ as, c.valid a) → bytesOf inbox = c.encodeAll as → PausesBetween c inbox as →
    c.Delivers inbox as [] := by
  intro inbox
  induction hn : inbox.length using Nat.strong_induction_on generalizing inbox with
  | _ n ih =>
    intro as hs hv hb hp
    rcases hs.data_or_pause with hd | ⟨body, post, rfl, hd, hpost⟩
    · simpa using delivers_data hv [] hd hb
    · obtain ⟨k, hk⟩ := hp body post rfl
      have hvtake : ∀ a ∈ as.take k, c.valid a := fun a ha => hv a (List.mem_of_mem_take ha)
      have hvdrop : ∀ a ∈ as.drop k, c.valid a := fun a ha => hv a (List.mem_of_mem_drop ha)
      have hsplit : c.encodeAll as = c.encodeAll (as.take k) ++ c.encodeAll (as.drop k) := by
        rw [← encodeAll_append, List.take_append_drop]
      have hrest : bytesOf post = c.encodeAll (as.drop k) := by
        rw [bytesOf_append, hk, hsplit, List.append_cancel_left_eq] at hb
        exact hb
      have hbetween : PausesBetween c post (as.drop k) := by
        intro pre' post' heq
        obtain ⟨k', hk'⟩ := hp (body ++ .timeout :: pre') post' (by simp [heq])
        rw [bytesOf_append, hk, bytesOf_timeout] at hk'
        rcases Nat.le_total k k' with hle | hle
        · refine ⟨k' - k, ?_⟩
          have htake : as.take k' = as.take k ++ (as.drop k).take (k' - k) := by
            rw [← List.take_add, Nat.add_sub_cancel' hle]
          rwa [htake, encodeAll_append, List.append_cancel_left_eq] at hk'
        · -- an earlier boundary: no byte lies between the two pauses
          refine ⟨0, ?_⟩
          have htake : as.take k = as.take k' ++ (as.drop k').take (k - k') := by
            rw [← List.take_add, Nat.add_sub_cancel' hle]
          have hlen := congrArg List.length hk'
          rw [htake, encodeAll_append] at hlen
          simp only [List.length_append] at hlen
          have hzero : (bytesOf pre').length = 0 := by omega
          simpa using hzero
      have hmid : c.Delivers (body ++ .timeout :: post) (as.take k) (.timeout :: post) :=
        delivers_data hvtake _ hd hk
      have hlater : c.Delivers post (as.drop k) [] :=
        ih post.length (by rw [← hn]; simp; omega) rfl hpost hvdrop hrest hbetween
      have hpause : c.Delivers ([] ++ .timeout :: post) (as.drop k) [] :=
        .pause Data.nil rfl hlater
      simpa using hmid.trans hpause

/-! ### Receiving until an item comes through -/

/-- `Obtains c inbox as tail`: receiving over and over from the stream, and starting
    anew after each pause, gives the items `as` and leaves `tail`. -/
inductive Obtains (c : Codec α) : Inbox → List α → Inbox → Prop where
  | done (inbox : Inbox) : Obtains c inbox [] inbox
  | pause {inbox inbox' tail : Inbox} {as : List α} :
      c.receive inbox = .raised .timeoutError inbox' → Obtains c inbox' as tail →
      Obtains c inbox as tail
  | item {inbox inbox' tail : Inbox} {a : α} {as : List α} :
      c.receive inbox = .ok a inbox' → Obtains c inbox' as tail → Obtains c inbox (a :: as) tail

/-- `inbox'` is `inbox` behind some cuts. -/
def Padded (inbox' inbox : Inbox) : Prop :=
  ∃ pad, Data pad ∧ bytesOf pad = [] ∧ inbox' = pad ++ inbox

theorem Padded.trans {a b d : Inbox} (h : Padded a b) (h' : Padded b d) : Padded a d := by
  obtain ⟨p, hp, hbp, rfl⟩ := h
  obtain ⟨q, hq, hbq, rfl⟩ := h'
  exact ⟨p ++ q, hp.append hq, by rw [bytesOf_append, hbp, hbq]; rfl, by simp⟩

theorem Obtains.padded {inbox inbox' tail : Inbox} {as : List α} (h : c.Obtains inbox as tail)
    (hpad : Padded inbox' inbox) : ∃ tail', c.Obtains inbox' as tail' ∧ Padded tail' tail := by
  have hrefl : Padded tail tail := ⟨[], Data.nil, rfl, rfl⟩
  obtain ⟨pad, hd, hb, rfl⟩ := hpad
  cases h with
  | done => exact ⟨pad ++ inbox, .done _, pad, hd, hb, rfl⟩
  | pause hrecv h => exact ⟨tail, .pause ((c.receive_skip hd hb _).trans hrecv) h, hrefl⟩
  | item hrecv h => exact ⟨tail, .item ((c.receive_skip hd hb _).trans hrecv) h, hrefl⟩

theorem Delivers.obtains {inbox tail : Inbox} {as : List α} (h : c.Delivers inbox as tail) :
    ∃ tail', c.Obtains inbox as tail' ∧ Padded tail' tail := by
  induction h with
  | @nil body tail hd hb => exact ⟨body ++ tail, .done _, body, hd, hb, rfl⟩
  | pause hd hb _ ih =>
    obtain ⟨tail', hobt, hpad⟩ := ih
    exact ⟨tail', .pause ((c.receive_skip hd hb _).trans (c.receive_timeout _)) hobt, hpad⟩
  | @item body rest tail a as hv hd hb _ ih =>
    obtain ⟨tail', hobt, hpad⟩ := ih
    obtain ⟨body', hrecv, hd', hb'⟩ := c.receive_data hv hd (hb.trans (List.append_nil _).symm) rest
    obtain ⟨tail'', hobt', hpad'⟩ := hobt.padded ⟨body', hd', hb', rfl⟩
    exact ⟨tail'', .item hrecv hobt', hpad'.trans hpad⟩

theorem Obtains.size {inbox tail : Inbox} {as : List α} (h : c.Obtains inbox as tail) :
    (c.encodeAll as).length + (bytesOf tail).length ≤ (bytesOf inbox).length := by
  induction h with
  | done inbox => simp
  | pause hrecv _ ih =>
    have hle := c.raised_size hrecv
    omega
  | item hrecv _ ih =>
    have heq := c.receive_size hrecv
    rw [encodeAll_cons, List.length_append]
    omega

theorem pausesBetween_of_empty {inbox : Inbox} (as : List α) (hb : bytesOf inbox = []) :
    c.PausesBetween inbox as := by
  rintro pre post rfl
  rw [bytesOf_append] at hb
  exact ⟨0, by simpa using (List.append_eq_nil_iff.mp hb).1⟩

/-- A pause lies behind the stretch of data in front of the first one. -/
theorem pause_behind_data {body post pre post' : Inbox} (hd : Data body)
    (h : body ++ .timeout :: post = pre ++ .timeout :: post') :
    ∃ mid, pre = body ++ mid ∧ .timeout :: post = mid ++ .timeout :: post' := by
  rcases List.append_eq_append_iff.mp h with ⟨mid, hpre, hpost⟩ | ⟨mid, hbody, hpost⟩
  · exact ⟨mid, hpre, hpost⟩
  · cases mid with
    | nil => exact ⟨[], by simpa using hbody.symm, by simpa using hpost.symm⟩
    | cons s mid =>
      have hs : s = .timeout := (List.cons.inj hpost).1.symm
      rcases hd s (by rw [hbody]; simp) with rfl | ⟨b, rfl⟩
      · cases hs
      · cases hs

/-- The first item of a stream whose first pause comes after the stretch `body`:
    it lies in front of the pause, or the pause falls inside it. -/
theorem receive_first {a : α} (hv : c.valid a) {body post : Inbox} (hd : Data body) {more : Bytes}
    (hb : bytesOf (body ++ .timeout :: post) = c.encode a ++ more) :
    (∃ body', c.receive (body ++ .timeout :: post) = .ok a (body' ++ .timeout :: post) ∧
      Data body' ∧ bytesOf body = c.encode a ++ bytesOf body') ∨
    c.receive (body ++ .timeout :: post) = .raised .timeoutError post := by
  rw [bytesOf_append] at hb
  rcases List.append_eq_append_iff.mp hb with ⟨rest, hcut, _⟩ | ⟨rest, hbody, _⟩
  · by_cases hrest : rest = []
    · rw [hrest, List.append_nil] at hcut
      have hwhole : bytesOf body = c.encode a ++ [] := by rw [hcut, List.append_nil]
      obtain ⟨body', hrecv, hd', hb'⟩ := c.receive_data hv hd hwhole (.timeout :: post)
      exact Or.inl ⟨body', hrecv, hd', by rw [hb', hcut, List.append_nil]⟩
    · exact Or.inr (c.receive_pause hv hd hcut hrest post)
  · obtain ⟨body', hrecv, hd', hb'⟩ := c.receive_data hv hd hbody (.timeout :: post)
    exact Or.inl ⟨body', hrecv, hd', by rw [hb', hbody]⟩

/-- **Nothing is lost only if no pause falls inside an item.**  When receiving gives
    all the items a stream holds, its pauses lie between them. -/
theorem Obtains.pausesBetween {inbox tail : Inbox} {as : List α} (h : c.Obtains inbox as tail) :
    Steady inbox → (∀ a ∈ as, c.valid a) → bytesOf inbox = c.encodeAll as →
    c.PausesBetween inbox as := by
  induction h with
  | done inbox => intro _ _ hb; exact pausesBetween_of_empty [] hb
  | @pause inbox inbox' tail as hrecv hrest ih =>
    intro hs hv hb
    cases as with
    | nil => exact pausesBetween_of_empty [] hb
    | cons a as =>
      rcases hs.data_or_pause with hd | ⟨body, post, rfl, hd, hpost⟩
      · obtain ⟨body', hok, _⟩ := c.receive_data (hv a List.mem_cons_self) hd hb []
        rw [List.append_nil, hrecv] at hok
        cases hok
      · rcases receive_first (hv a List.mem_cons_self) hd hb with ⟨body', hok, _⟩ | hraise
        · rw [hrecv] at hok
          cases hok
        · rw [hrecv] at hraise
          obtain ⟨-, rfl⟩ := Outcome.raised.inj hraise
          -- the items are all still to come, so the pause dropped no byte
          have hsize := hrest.size
          rw [← hb, bytesOf_append, bytesOf_timeout, List.length_append] at hsize
          have hnil : bytesOf body = [] := List.length_eq_zero_iff.mp (by omega)
          have hbpost : bytesOf inbox' = c.encodeAll (a :: as) := by
            rw [← hb, bytesOf_append, hnil]
            rfl
          have hlater := ih hpost hv hbpost
          intro pre post' heq
          obtain ⟨mid, rfl, hmid⟩ := pause_behind_data hd heq
          cases mid with
          | nil => exact ⟨0, by simp [hnil]⟩
          | cons s mid =>
            rw [List.cons_append] at hmid
            obtain ⟨hsig, hlate⟩ := List.cons.inj hmid
            obtain ⟨k, hk⟩ := hlater mid post' hlate
            subst hsig
            exact ⟨k, by rw [bytesOf_append, hnil, bytesOf_timeout, hk, List.nil_append]⟩
  | @item inbox inbox' tail a as hrecv hrest ih =>
    intro hs hv hb
    rcases hs.data_or_pause with hd | ⟨body, post, rfl, hd, hpost⟩
    · rintro pre post rfl
      rcases hd .timeout (by simp) with h | ⟨b, h⟩ <;> cases h
    · rcases receive_first (hv a List.mem_cons_self) hd hb with ⟨body', hok, hd', hbody⟩ | hraise
      · rw [hrecv] at hok
        obtain ⟨-, rfl⟩ := Outcome.ok.inj hok
        have hs' : Steady (body' ++ .timeout :: post) := (Steady.of_data hd').pause hpost
        have hb' : bytesOf (body' ++ .timeout :: post) = c.encodeAll as := by
          rw [bytesOf_append, hbody, encodeAll_cons, List.append_assoc,
            List.append_cancel_left_eq] at hb
          rw [bytesOf_append, hb]
        have hlater := ih hs' (fun x hx => hv x (List.mem_cons_of_mem a hx)) hb'
        intro pre post' heq
        obtain ⟨mid, rfl, hmid⟩ := pause_behind_data hd heq
        obtain ⟨k, hk⟩ := hlater (body' ++ mid) post' (by rw [hmid, List.append_assoc])
        refine ⟨k + 1, ?_⟩
        rw [bytesOf_append, hbody, List.append_assoc, ← bytesOf_append, hk]
        rfl
      · rw [hrecv] at hraise
        cases hraise

end Codec

end Albatross.Wire
