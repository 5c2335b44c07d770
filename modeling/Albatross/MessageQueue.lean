/-
  Albatross/MessageQueue.lean
  ===========================
  **The message queue of a process** (`PluginMessage.java`: `send`, `log`,
  `setMessageSender`, `setLogger`, `MessageSender.run`).

  Any number of threads send messages while the sender threads, one for each call of
  `setMessageSender`, take them from a queue of 8192 places and hand them to the RPC
  instance.  A message goes to the process's own log when nobody subscribes and, marked,
  when the queue is full; a sender gives up after 1024 exceptions.

  Each access to the queue or to a static field is one step, except that a call of `send`
  looks at the instance and its subscribers at once; `instance` is set and never cleared.
  How many subscribers there are, whether the instance takes a message, and whether a
  logger can be made is told at each step.

  No message is doubled, and none is lost as long as no logger has been closed
  (`messages_conserved`): `send` looks for the logger and then reads the field again, and a
  logger that is closed logs nothing.  With one sender thread the messages of a thread are
  delivered in the order in which it sent them (`delivered_in_order`), and as long as a
  sender has not given up all that waits can be delivered (`queue_drains_iff`).
  `offered`, `handed`, `kept` and `lost` are records that no code reads.
-/
import Albatross.Places
import Mathlib.Algebra.Order.BigOperators.Group.List
import Mathlib.Algebra.Order.Ring.Nat

namespace Albatross.MessageQueue

open Places Runs

/-! ### Messages -/

/-- What is put into the queue: a `String`, or a `String[]` of a message and a stack trace. -/
inductive Message where
  | text (msg : String)
  | thrown (msg desc : String)
deriving DecidableEq, Repr

/-- A line of the process's own logs: of a logger, by its number, or of logcat, where `Log.i`
    may get a throwable with its text. -/
inductive Line where
  | rollingLogger (logger : Nat) (text : String)
  | logcat (text : String) (trace : Option String)
deriving DecidableEq, Repr

def exceptionText (msg desc : String) : String := msg ++ "\nexception:\n" ++ desc

def loggerText : Message → String
  | .text msg => msg
  | .thrown msg desc => exceptionText msg desc

/-- What `send` and `log` do without a logger. -/
def logcatLine : Message → Line
  | .text msg => .logcat msg none
  | .thrown msg desc => .logcat msg (some desc)

/-- What `send` logs when the queue is full. -/
def refusedLine : Message → Line
  | .text msg => .logcat ("[!] " ++ msg) none
  | .thrown msg desc => .logcat ("[!] " ++ exceptionText msg desc) none

structure Sent where
  thread : Nat
  message : Message
deriving DecidableEq, Repr

/-! ### State -/

def CAPACITY : Nat := 8192
def MAX_ERRORS : Nat := 1024

/-- How far a call of `send` has come: it has looked for subscribers, has seen that there is a
    logger, or has read which. -/
inductive Phase where
  | looked (subscribed : Bool)
  | found
  | read (logger : Nat)
deriving DecidableEq, Repr

structure Pending where
  sent : Sent
  phase : Phase
deriving DecidableEq, Repr

/-- How far a call of `setLogger` has come: it has seen that there is a logger, has closed it, or
    is about to make one. -/
inductive Setting where
  | found
  | closed
  | creating
deriving DecidableEq, Repr

/-- How `send` loses a message: the field is `null` after all, and it throws, or the logger is
    closed. -/
inductive Loss where
  | noLogger
  | closed
deriving DecidableEq, Repr

/-- A `MessageSender` thread and the message it has taken. -/
structure MessageSender where
  errCount : Nat
  hand : Option Sent
deriving DecidableEq, Repr

/-- What became of a message in the hands of a sender: the instance that took it, or `none` for
    an exception. -/
structure Handed where
  sent : Sent
  rpc : Option Nat
deriving DecidableEq, Repr

structure State where
  /-- The static `instance`. -/
  rpc : Option Nat
  rollingLogger : Option Nat
  /-- How many loggers have been made. -/
  loggers : Nat
  /-- The loggers that have stopped `running`. -/
  closed : List Nat
  messages : List Sent
  threads : List (Option Pending)
  setters : List (Option Setting)
  senders : List MessageSender
  offered : List Sent
  handed : List Handed
  kept : List (Sent × Line)
  lost : List (Sent × Loss)
deriving DecidableEq, Repr

/-- `n` threads that send, `m` that set the logger, and no sender. -/
def State.initial (n m : Nat) : State :=
  ⟨none, none, 0, [], [], .replicate n none, .replicate m none, [], [], [], [], []⟩

/-! ### Steps -/

/-- `send` up to its decision. -/
def send (t : Nat) (m : Message) (subscribers : Int) (s : State) : Option State :=
  match s.threads[t]? with
  | some none =>
      let p : Pending := ⟨⟨t, m⟩, .looked (s.rpc.isSome && decide (0 < subscribers))⟩
      some { s with threads := s.threads.set t (some p) }
  | _ => none

/-- `messages.offer`, and the line logged when it fails. -/
def offer (x : Sent) (s : State) : State :=
  if s.messages.length < CAPACITY then
    { s with messages := s.messages ++ [x], offered := s.offered ++ [x] }
  else { s with kept := s.kept ++ [(x, refusedLine x.message)] }

/-- `rollingLogger.log`. -/
def log (logger : Nat) (x : Sent) (s : State) : State :=
  if logger ∈ s.closed then { s with lost := s.lost ++ [(x, .closed)] }
  else { s with kept := s.kept ++ [(x, .rollingLogger logger (loggerText x.message))] }

/-- Thread `t` is done with its message, or goes on. -/
def State.goto (s : State) (t : Nat) (p : Option Pending) : State :=
  { s with threads := s.threads.set t p }

/-- The next step of a call of `send`. -/
def proceed (t : Nat) (s : State) : Option State :=
  match s.threads[t]? with
  | some (some ⟨x, .looked true⟩) => some (offer x (s.goto t none))
  | some (some ⟨x, .looked false⟩) =>
      some (match s.rollingLogger with
        | none => { s.goto t none with kept := s.kept ++ [(x, logcatLine x.message)] }
        | some _ => s.goto t (some ⟨x, .found⟩))
  | some (some ⟨x, .found⟩) =>
      some (match s.rollingLogger with
        | none => { s.goto t none with lost := s.lost ++ [(x, .noLogger)] }
        | some logger => s.goto t (some ⟨x, .read logger⟩))
  | some (some ⟨x, .read logger⟩) => some (log logger x (s.goto t none))
  | _ => none

/-- The hooks may throw after the instance is set. -/
def setMessageSender (sender : Nat) (hooked : Bool) (s : State) : State :=
  { s with
    rpc := some sender
    senders := if hooked then s.senders ++ [⟨0, none⟩] else s.senders }

def State.gotoSetting (s : State) (j : Nat) (p : Option Setting) : State :=
  { s with setters := s.setters.set j p }

/-- The next step of a call of `setLogger`, which returns when there is no instance and throws
    when the logger that it has seen is gone. -/
def setLogger (j : Nat) (created : Bool) (s : State) : Option State :=
  match s.setters[j]? with
  | some none =>
      some (if s.rpc = none then s
        else s.gotoSetting j (some (if s.rollingLogger = none then .creating else .found)))
  | some (some .found) =>
      some (match s.rollingLogger with
        | none => s.gotoSetting j none
        | some logger => { s.gotoSetting j (some .closed) with closed := logger :: s.closed })
  | some (some .closed) =>
      some { s.gotoSetting j (some .creating) with rollingLogger := none }
  | some (some .creating) =>
      some (if created then
          { s.gotoSetting j none with rollingLogger := some s.loggers, loggers := s.loggers + 1 }
        else s.gotoSetting j none)
  | none => none

/-- `messages.take()` in sender `k`. -/
def take (k : Nat) (s : State) : Option State :=
  match s.senders[k]?, s.messages with
  | some ⟨errCount, none⟩, x :: rest =>
      if errCount < MAX_ERRORS then
        some { s with messages := rest, senders := s.senders.set k ⟨errCount, some x⟩ }
      else none
  | _, _ => none

/-- `messages.take()` is interrupted. -/
def interrupt (k : Nat) (s : State) : Option State :=
  match s.senders[k]? with
  | some ⟨errCount, none⟩ =>
      if errCount < MAX_ERRORS then
        some { s with senders := s.senders.set k ⟨errCount + 1, none⟩ }
      else none
  | _ => none

/-- `instance.send` returns. -/
def deliver (k : Nat) (s : State) : Option State :=
  match s.senders[k]?, s.rpc with
  | some ⟨errCount, some x⟩, some rpc =>
      some { s with
        handed := s.handed ++ [⟨x, some rpc⟩]
        senders := s.senders.set k ⟨errCount, none⟩ }
  | _, _ => none

/-- `instance.send` throws. -/
def fail (k : Nat) (s : State) : Option State :=
  match s.senders[k]? with
  | some ⟨errCount, some x⟩ =>
      some { s with
        handed := s.handed ++ [⟨x, none⟩]
        senders := s.senders.set k ⟨errCount + 1, none⟩ }
  | _ => none

inductive Op where
  | send (t : Nat) (m : Message) (subscribers : Int)
  | proceed (t : Nat)
  | setMessageSender (sender : Nat) (hooked : Bool)
  | setLogger (j : Nat) (created : Bool)
  | take (k : Nat)
  | interrupt (k : Nat)
  | deliver (k : Nat)
  | fail (k : Nat)

def step (s : State) : Op → Option State
  | .send t m subscribers => send t m subscribers s
  | .proceed t => proceed t s
  | .setMessageSender sender hooked => some (setMessageSender sender hooked s)
  | .setLogger j created => setLogger j created s
  | .take k => take k s
  | .interrupt k => interrupt k s
  | .deliver k => deliver k s
  | .fail k => fail k s

/-! ### Where a message is -/

/-- The messages of the calls that are under way. -/
def State.waiting (s : State) : List Sent := s.threads.filterMap fun p => p.map Pending.sent

/-- The messages that senders have taken and not handed over. -/
def State.inHand (s : State) : List Sent := s.senders.filterMap MessageSender.hand

def State.delivered (s : State) : List Sent :=
  (s.handed.filter fun h => h.rpc.isSome).map Handed.sent

def State.failed (s : State) : List Sent :=
  (s.handed.filter fun h => h.rpc.isNone).map Handed.sent

def State.places (s : State) : List Sent :=
  s.waiting ++ s.messages ++ s.inHand ++ s.handed.map Handed.sent ++ s.kept.map Prod.fst ++
    s.lost.map Prod.fst

theorem delivered_handed (s : State) (h : Handed) (senders : List MessageSender) :
    State.delivered { s with handed := s.handed ++ [h], senders := senders } =
      s.delivered ++ if h.rpc.isSome then [h.sent] else [] := by
  cases hrpc : h.rpc <;> simp [State.delivered, hrpc]

theorem failed_handed (s : State) (h : Handed) (senders : List MessageSender) :
    State.failed { s with handed := s.handed ++ [h], senders := senders } =
      s.failed ++ if h.rpc.isNone then [h.sent] else [] := by
  cases hrpc : h.rpc <;> simp [State.failed, hrpc]

def Op.given : Op → List Sent
  | .send t m _ => [⟨t, m⟩]
  | _ => []

section Steps

variable {s s' : State}

theorem send_cases {t : Nat} {m : Message} {n : Int} (h : send t m n s = some s') :
    s.threads[t]? = some none ∧
      ∃ b, s' = s.goto t (some ⟨⟨t, m⟩, .looked b⟩) := by
  unfold send at h
  split at h
  · next hnone => exact ⟨hnone, _, (Option.some.inj h).symm⟩
  · cases h

/-- What a step of `send` does with its message: it is offered, kept, lost, or taken along. -/
theorem proceed_cases {t : Nat} (h : proceed t s = some s') :
    ∃ p, s.threads[t]? = some (some p) ∧
      ((s.messages.length < CAPACITY ∧
          s' = { s.goto t none with messages := s.messages ++ [p.sent],
                                    offered := s.offered ++ [p.sent] }) ∨
        (∃ line, s' = { s.goto t none with kept := s.kept ++ [(p.sent, line)] }) ∨
        (∃ loss, s' = { s.goto t none with lost := s.lost ++ [(p.sent, loss)] }) ∨
        ∃ phase, s' = s.goto t (some ⟨p.sent, phase⟩)) := by
  unfold proceed at h
  split at h
  · next x hp =>
    refine ⟨_, hp, ?_⟩
    cases Option.some.inj h
    unfold offer
    split
    · next hlt => exact Or.inl ⟨hlt, rfl⟩
    · exact Or.inr (Or.inl ⟨_, rfl⟩)
  · next x hp =>
    refine ⟨_, hp, Or.inr ?_⟩
    cases Option.some.inj h
    split
    · exact Or.inl ⟨_, rfl⟩
    · exact Or.inr (Or.inr ⟨_, rfl⟩)
  · next x hp =>
    refine ⟨_, hp, Or.inr (Or.inr ?_)⟩
    cases Option.some.inj h
    split
    · exact Or.inl ⟨_, rfl⟩
    · exact Or.inr ⟨_, rfl⟩
  · next x logger hp =>
    refine ⟨_, hp, Or.inr ?_⟩
    cases Option.some.inj h
    unfold log
    split
    · exact Or.inr (Or.inl ⟨_, rfl⟩)
    · exact Or.inl ⟨_, rfl⟩
  · cases h

theorem setLogger_cases {j : Nat} {created : Bool} (h : setLogger j created s = some s') :
    ∃ rollingLogger loggers closed setters,
      s' = { s with rollingLogger := rollingLogger, loggers := loggers, closed := closed,
                    setters := setters } := by
  unfold setLogger at h
  split at h
  · cases Option.some.inj h
    split
    · exact ⟨_, _, _, _, rfl⟩
    · exact ⟨_, _, _, _, rfl⟩
  · cases Option.some.inj h
    split
    · exact ⟨_, _, _, _, rfl⟩
    · exact ⟨_, _, _, _, rfl⟩
  · cases Option.some.inj h
    exact ⟨_, _, _, _, rfl⟩
  · cases Option.some.inj h
    split
    · exact ⟨_, _, _, _, rfl⟩
    · exact ⟨_, _, _, _, rfl⟩
  · cases h

theorem take_cases {k : Nat} (h : take k s = some s') :
    ∃ errCount x rest, s.senders[k]? = some ⟨errCount, none⟩ ∧ s.messages = x :: rest ∧
      errCount < MAX_ERRORS ∧
      s' = { s with messages := rest, senders := s.senders.set k ⟨errCount, some x⟩ } := by
  unfold take at h
  split at h
  · next errCount x rest hk hm =>
    split at h
    · next hlt => exact ⟨errCount, x, rest, hk, hm, hlt, (Option.some.inj h).symm⟩
    · cases h
  · cases h

theorem interrupt_cases {k : Nat} (h : interrupt k s = some s') :
    ∃ errCount, s.senders[k]? = some ⟨errCount, none⟩ ∧ errCount < MAX_ERRORS ∧
      s' = { s with senders := s.senders.set k ⟨errCount + 1, none⟩ } := by
  unfold interrupt at h
  split at h
  · next errCount hk =>
    split at h
    · next hlt => exact ⟨errCount, hk, hlt, (Option.some.inj h).symm⟩
    · cases h
  · cases h

theorem deliver_cases {k : Nat} (h : deliver k s = some s') :
    ∃ errCount x rpc, s.senders[k]? = some ⟨errCount, some x⟩ ∧ s.rpc = some rpc ∧
      s' = { s with handed := s.handed ++ [⟨x, some rpc⟩]
                    senders := s.senders.set k ⟨errCount, none⟩ } := by
  unfold deliver at h
  split at h
  · next errCount x rpc hk hrpc => exact ⟨errCount, x, rpc, hk, hrpc, (Option.some.inj h).symm⟩
  · cases h

theorem fail_cases {k : Nat} (h : fail k s = some s') :
    ∃ errCount x, s.senders[k]? = some ⟨errCount, some x⟩ ∧
      s' = { s with handed := s.handed ++ [⟨x, none⟩]
                    senders := s.senders.set k ⟨errCount + 1, none⟩ } := by
  unfold fail at h
  split at h
  · next errCount x hk => exact ⟨errCount, x, hk, (Option.some.inj h).symm⟩
  · cases h

end Steps

/-! ### Conservation -/

theorem step_places (s : State) (op : Op) (s' : State) (h : step s op = some s') :
    s'.places.Perm (s.places ++ op.given) := by
  apply List.perm_iff_count.mpr
  intro a
  cases op with
  | send t m n =>
    obtain ⟨hnone, b, rfl⟩ := send_cases h
    have hfill := (held_fill (fun p => p.map Pending.sent) hnone rfl
      (some ⟨⟨t, m⟩, .looked b⟩) rfl).count_eq a
    simp only [State.places, State.waiting, State.inHand, State.goto, Op.given,
      List.count_append] at hfill ⊢
    omega
  | proceed t =>
    obtain ⟨p, hp, hcases⟩ := proceed_cases h
    have hempty := (held_empty (fun p => p.map Pending.sent) hp rfl none rfl).count_eq a
    simp only [List.count_append] at hempty
    rcases hcases with ⟨_, rfl⟩ | ⟨line, rfl⟩ | ⟨loss, rfl⟩ | ⟨phase, rfl⟩
    case inr.inr.inr =>
      have hsame := held_same (fun p => p.map Pending.sent) hp (some ⟨p.sent, phase⟩) rfl
      simp only [State.places, State.waiting, State.inHand, State.goto, Op.given,
        List.append_nil, hsame]
    all_goals
      simp only [State.places, State.waiting, State.inHand, State.goto, Op.given,
        List.count_append, List.map_append, List.map_cons, List.map_nil, List.count_nil]
      omega
  | setMessageSender sender hooked =>
    cases h
    have hnew : State.inHand (setMessageSender sender hooked s) = s.inHand := by
      cases hooked <;> simp [setMessageSender, State.inHand]
    simp only [State.places, hnew, Op.given, List.append_nil]
    rfl
  | setLogger j created =>
    obtain ⟨_, _, _, _, rfl⟩ := setLogger_cases h
    simp only [Op.given, List.append_nil]
    rfl
  | take k =>
    obtain ⟨n, x, rest, hk, hm, _, rfl⟩ := take_cases h
    have hfill := (held_fill MessageSender.hand hk rfl ⟨n, some x⟩ rfl).count_eq a
    simp only [State.places, State.waiting, State.inHand, Op.given, List.count_append, hm,
      List.count_cons, List.count_nil] at hfill ⊢
    omega
  | interrupt k =>
    obtain ⟨n, hk, _, rfl⟩ := interrupt_cases h
    simp only [State.places, State.inHand, Op.given, List.append_nil,
      held_same MessageSender.hand hk ⟨n + 1, none⟩ rfl]
    rfl
  | deliver k =>
    obtain ⟨n, x, rpc, hk, _, rfl⟩ := deliver_cases h
    have hempty := (held_empty MessageSender.hand hk rfl ⟨n, none⟩ rfl).count_eq a
    simp only [State.places, State.waiting, State.inHand, Op.given, List.count_append,
      List.map_append, List.map_cons, List.map_nil, List.count_nil] at hempty ⊢
    omega
  | fail k =>
    obtain ⟨n, x, hk, rfl⟩ := fail_cases h
    have hempty :=
      (held_empty MessageSender.hand hk rfl ⟨n + 1, none⟩ rfl).count_eq a
    simp only [State.places, State.waiting, State.inHand, Op.given, List.count_append,
      List.map_append, List.map_cons, List.map_nil, List.count_nil] at hempty ⊢
    omega

/-- A sender counts at most 1024 exceptions, and stops when it has. -/
structure MessageSender.Bounded (d : MessageSender) : Prop where
  le : d.errCount ≤ MAX_ERRORS
  lt : d.hand ≠ none → d.errCount < MAX_ERRORS

structure Bounded (s : State) : Prop where
  queue : s.messages.length ≤ CAPACITY
  senders : ∀ d ∈ s.senders, d.Bounded
  failed : s.failed.length ≤ (s.senders.map MessageSender.errCount).sum

theorem Bounded.set {s : State} (h : Bounded s) {k : Nat} {d : MessageSender}
    (hd : d.Bounded) : ∀ e ∈ s.senders.set k d, e.Bounded := by
  intro e he
  rcases List.mem_or_eq_of_mem_set he with he | rfl
  · exact h.senders e he
  · exact hd

theorem step_bounded (s : State) (op : Op) (s' : State) (h : Bounded s)
    (hstep : step s op = some s') : Bounded s' := by
  cases op with
  | send t m n =>
    obtain ⟨_, b, rfl⟩ := send_cases hstep
    exact ⟨h.queue, h.senders, h.failed⟩
  | proceed t =>
    obtain ⟨p, _, ⟨hlt, rfl⟩ | ⟨line, rfl⟩ | ⟨loss, rfl⟩ | ⟨phase, rfl⟩⟩ := proceed_cases hstep
    · exact ⟨by simpa using Nat.succ_le_of_lt hlt, h.senders, h.failed⟩
    · exact ⟨h.queue, h.senders, h.failed⟩
    · exact ⟨h.queue, h.senders, h.failed⟩
    · exact ⟨h.queue, h.senders, h.failed⟩
  | setMessageSender sender hooked =>
    cases hstep
    cases hooked with
    | false => exact ⟨h.queue, h.senders, h.failed⟩
    | true =>
      refine ⟨h.queue, fun d hd => ?_, ?_⟩
      · rcases List.mem_append.mp hd with hd | hd
        · exact h.senders d hd
        · cases List.mem_singleton.mp hd
          exact ⟨Nat.zero_le _, fun hne => absurd rfl hne⟩
      · have := h.failed
        simpa [setMessageSender, State.failed] using this
  | setLogger j created =>
    obtain ⟨_, _, _, _, rfl⟩ := setLogger_cases hstep
    exact ⟨h.queue, h.senders, h.failed⟩
  | take k =>
    obtain ⟨n, x, rest, hk, hm, hlt, rfl⟩ := take_cases hstep
    have hsum := sum_set MessageSender.errCount hk ⟨n, some x⟩
    dsimp only at hsum
    refine ⟨?_, h.set ⟨Nat.le_of_lt hlt, fun _ => hlt⟩, ?_⟩
    · have := h.queue
      rw [hm, List.length_cons] at this
      exact Nat.le_of_succ_le this
    · have := h.failed
      simp only [State.failed] at this ⊢
      omega
  | interrupt k =>
    obtain ⟨n, hk, hlt, rfl⟩ := interrupt_cases hstep
    have hsum := sum_set MessageSender.errCount hk ⟨n + 1, none⟩
    dsimp only at hsum
    refine ⟨h.queue, h.set ⟨hlt, fun hne => absurd rfl hne⟩, ?_⟩
    have := h.failed
    simp only [State.failed] at this ⊢
    omega
  | deliver k =>
    obtain ⟨n, x, rpc, hk, _, rfl⟩ := deliver_cases hstep
    have hsum := sum_set MessageSender.errCount hk ⟨n, none⟩
    dsimp only at hsum
    have hle := (h.senders _ (List.mem_of_getElem? hk)).le
    refine ⟨h.queue, h.set ⟨hle, fun hne => absurd rfl hne⟩, ?_⟩
    have := h.failed
    simp only [failed_handed, Option.isNone_some, Bool.false_eq_true, if_false, List.append_nil]
    simp only [State.failed] at this ⊢
    omega
  | fail k =>
    obtain ⟨n, x, hk, rfl⟩ := fail_cases hstep
    have hsum := sum_set MessageSender.errCount hk ⟨n + 1, none⟩
    dsimp only at hsum
    have hlt : n < MAX_ERRORS := (h.senders _ (List.mem_of_getElem? hk)).lt (by simp)
    refine ⟨h.queue, h.set ⟨hlt, fun hne => absurd rfl hne⟩, ?_⟩
    have := h.failed
    simp only [failed_handed, Option.isNone_none, if_true, List.length_append, List.length_cons,
      List.length_nil]
    simp only [State.failed] at this ⊢
    omega

theorem bounded_initial (n m : Nat) : Bounded (State.initial n m) :=
  ⟨Nat.zero_le _, fun _ hd => absurd hd List.not_mem_nil, Nat.le_refl _⟩

theorem run_bounded {n m : Nat} {ops : List Op} {s : State}
    (hrun : run step (State.initial n m) ops = some s) : Bounded s :=
  run_invariant (fun a op b _ => step_bounded a op b) (bounded_initial n m) hrun

theorem places_initial (n m : Nat) : (State.initial n m).places = [] := by
  simp [State.places, State.initial, State.waiting, State.inHand]

/-- As long as no logger has been closed: nothing is lost, and a call that has seen a logger will
    find one. -/
structure Opened (s : State) : Prop where
  setters : some Setting.closed ∉ s.setters
  found : ∀ x, some ⟨x, .found⟩ ∈ s.threads → s.rollingLogger ≠ none
  lost : s.lost = []

theorem Opened.same {s s' : State} (h : Opened s) (hsetters : s'.setters = s.setters)
    (hthreads : s'.threads = s.threads) (hlogger : s'.rollingLogger = s.rollingLogger)
    (hlost : s'.lost = s.lost) : Opened s' :=
  ⟨hsetters ▸ h.setters, fun x hx => hlogger ▸ h.found x (hthreads ▸ hx), hlost.trans h.lost⟩

/-- A thread goes on, to the second look only where there is a logger. -/
theorem Opened.goto {s : State} (h : Opened s) (t : Nat) (p : Option Pending)
    (hp : ∀ x, p = some ⟨x, .found⟩ → s.rollingLogger ≠ none) : Opened (s.goto t p) := by
  refine ⟨h.setters, fun x hx => ?_, h.lost⟩
  rcases List.mem_or_eq_of_mem_set hx with hx | hx
  · exact h.found x hx
  · exact hp x hx.symm

/-- A call of `setLogger` goes on, and there is a logger where there was one. -/
theorem Opened.gotoSetting {s : State} (h : Opened s) (j : Nat) (p : Option Setting)
    (hp : p ≠ some .closed) : Opened (s.gotoSetting j p) := by
  refine ⟨fun hmem => ?_, h.found, h.lost⟩
  rcases List.mem_or_eq_of_mem_set hmem with hmem | hmem
  · exact h.setters hmem
  · exact hp hmem.symm

theorem Opened.proceed {s s' : State} {t : Nat} (h : Opened s) (hclosed : s.closed = [])
    (hstep : proceed t s = some s') : Opened s' := by
  have hidle : Opened (s.goto t none) := h.goto t none (by rintro _ ⟨⟩)
  unfold MessageQueue.proceed at hstep
  split at hstep
  · cases Option.some.inj hstep
    unfold offer
    split
    · exact hidle.same rfl rfl rfl rfl
    · exact hidle.same rfl rfl rfl rfl
  · cases Option.some.inj hstep
    split
    · exact hidle.same rfl rfl rfl rfl
    · next logger hlogger =>
      exact h.goto t _ fun _ _ hnone => by cases hlogger.symm.trans hnone
  · next x hp =>
    cases Option.some.inj hstep
    split
    · next hnone => exact absurd hnone (h.found x (List.mem_of_getElem? hp))
    · exact h.goto t _ (by rintro _ ⟨⟩)
  · next x logger hp =>
    cases Option.some.inj hstep
    unfold log
    rw [if_neg (by simp [State.goto, hclosed])]
    exact hidle.same rfl rfl rfl rfl
  · cases hstep

theorem Opened.setLogger {s s' : State} {j : Nat} {created : Bool} (h : Opened s)
    (hclosed : s'.closed = []) (hstep : setLogger j created s = some s') : Opened s' := by
  unfold MessageQueue.setLogger at hstep
  split at hstep
  · cases Option.some.inj hstep
    split
    · exact h
    · exact h.gotoSetting j _ (by split <;> simp)
  · cases Option.some.inj hstep
    split
    · exact h.gotoSetting j none (by simp)
    · next logger hlogger =>
      rw [hlogger] at hclosed
      cases hclosed
  · next hp => exact absurd (List.mem_of_getElem? hp) h.setters
  · cases Option.some.inj hstep
    have hidle := h.gotoSetting j none (by simp)
    split
    · exact ⟨hidle.setters, fun _ _ => Option.some_ne_none _, hidle.lost⟩
    · exact hidle
  · cases hstep

theorem closed_subset {s s' : State} {op : Op} (hstep : step s op = some s') :
    s.closed ⊆ s'.closed := by
  cases op with
  | send t m n =>
    obtain ⟨_, b, rfl⟩ := send_cases hstep
    exact List.Subset.refl _
  | proceed t =>
    obtain ⟨p, _, ⟨_, rfl⟩ | ⟨_, rfl⟩ | ⟨_, rfl⟩ | ⟨_, rfl⟩⟩ := proceed_cases hstep
    all_goals exact List.Subset.refl _
  | setMessageSender sender hooked =>
    cases hstep
    exact List.Subset.refl _
  | setLogger j created =>
    change MessageQueue.setLogger j created s = some s' at hstep
    unfold MessageQueue.setLogger at hstep
    split at hstep
    · cases Option.some.inj hstep
      split
      · exact List.Subset.refl _
      · exact List.Subset.refl _
    · cases Option.some.inj hstep
      split
      · exact List.Subset.refl _
      · exact List.subset_cons_self _ _
    · cases Option.some.inj hstep
      exact List.Subset.refl _
    · cases Option.some.inj hstep
      split
      · exact List.Subset.refl _
      · exact List.Subset.refl _
    · cases hstep
  | take k =>
    obtain ⟨_, _, _, _, _, _, rfl⟩ := take_cases hstep
    exact List.Subset.refl _
  | interrupt k =>
    obtain ⟨_, _, _, rfl⟩ := interrupt_cases hstep
    exact List.Subset.refl _
  | deliver k =>
    obtain ⟨_, _, _, _, _, rfl⟩ := deliver_cases hstep
    exact List.Subset.refl _
  | fail k =>
    obtain ⟨_, _, _, rfl⟩ := fail_cases hstep
    exact List.Subset.refl _

theorem step_opened (s : State) (op : Op) (s' : State) (h : s.closed = [] → Opened s)
    (hstep : step s op = some s') (hclosed' : s'.closed = []) : Opened s' := by
  have hclosed : s.closed = [] := List.subset_nil.mp (hclosed' ▸ closed_subset hstep)
  have hopened := h hclosed
  cases op with
  | send t m n =>
    obtain ⟨_, b, rfl⟩ := send_cases hstep
    exact hopened.goto t _ (by rintro _ ⟨⟩)
  | proceed t => exact hopened.proceed hclosed hstep
  | setMessageSender sender hooked =>
    cases hstep
    exact hopened.same rfl rfl rfl rfl
  | setLogger j created => exact hopened.setLogger hclosed' hstep
  | take k =>
    obtain ⟨_, _, _, _, _, _, rfl⟩ := take_cases hstep
    exact hopened.same rfl rfl rfl rfl
  | interrupt k =>
    obtain ⟨_, _, _, rfl⟩ := interrupt_cases hstep
    exact hopened.same rfl rfl rfl rfl
  | deliver k =>
    obtain ⟨_, _, _, _, _, rfl⟩ := deliver_cases hstep
    exact hopened.same rfl rfl rfl rfl
  | fail k =>
    obtain ⟨_, _, _, rfl⟩ := fail_cases hstep
    exact hopened.same rfl rfl rfl rfl

theorem opened_initial (n m : Nat) : Opened (State.initial n m) := by
  refine ⟨fun h => ?_, fun x h => ?_, rfl⟩
  · cases List.eq_of_mem_replicate h
  · cases List.eq_of_mem_replicate h

/-- **No message is doubled, and none is lost as long as no logger has been closed.** -/
theorem messages_conserved {n m : Nat} {ops : List Op} {s : State}
    (hrun : run step (State.initial n m) ops = some s) :
    (ops.flatMap Op.given).Perm s.places ∧ (s.closed = [] → s.lost = []) ∧
      s.messages.length ≤ CAPACITY ∧ (∀ d ∈ s.senders, d.errCount ≤ MAX_ERRORS) ∧
        s.failed.length ≤ MAX_ERRORS * s.senders.length := by
  have hperm := run_conserved step_places hrun
  rw [places_initial, List.nil_append] at hperm
  have hopened : s.closed = [] → Opened s :=
    run_invariant (fun a op b _ => step_opened a op b) (fun _ => opened_initial n m) hrun
  have hbounded := run_bounded hrun
  have herrors : ∀ d ∈ s.senders, d.errCount ≤ MAX_ERRORS := fun d hd => (hbounded.senders d hd).le
  refine ⟨hperm.symm, fun h => (hopened h).lost, hbounded.queue, herrors,
    Nat.le_trans hbounded.failed ?_⟩
  have hsum := List.sum_le_card_nsmul (s.senders.map MessageSender.errCount) MAX_ERRORS
    fun m hm => by
      obtain ⟨d, hd, rfl⟩ := List.mem_map.mp hm
      exact herrors d hd
  rwa [List.length_map, Nat.nsmul_eq_mul, Nat.mul_comm] at hsum

/-- Two messages while somebody subscribes, one when nobody does any more. -/
def threeMessages : List Op :=
  [.setMessageSender 7 true, .send 0 (.text "a") 1, .send 1 (.thrown "b" "trace") 1,
    .proceed 1, .proceed 0, .take 0, .fail 0, .take 0, .deliver 0, .send 0 (.text "c") 0,
    .proceed 0]

theorem messages_conserved_three : ∃ s, run step (State.initial 2 0) threeMessages = some s ∧
    ((threeMessages.flatMap Op.given).Perm s.places ∧ (s.closed = [] → s.lost = []) ∧
      s.messages.length ≤ CAPACITY ∧ (∀ d ∈ s.senders, d.errCount ≤ MAX_ERRORS) ∧
        s.failed.length ≤ MAX_ERRORS * s.senders.length) ∧
    s.delivered = [⟨0, .text "a"⟩] ∧ s.failed = [⟨1, .thrown "b" "trace"⟩] ∧
      s.kept = [(⟨0, .text "c"⟩, .logcat "c" none)] := by
  have hrun : run step (State.initial 2 0) threeMessages = some _ := rfl
  exact ⟨_, hrun, messages_conserved hrun, rfl, rfl, rfl⟩

/-- While a logger is being closed what is sent to it is lost, and `send` throws where the logger
    that it has seen is gone. -/
example : ∃ s, run step (State.initial 2 1)
    [.setMessageSender 7 true, .setLogger 0 true, .setLogger 0 true,
      .send 0 (.text "a") 0, .proceed 0, .send 1 (.text "b") 0, .proceed 1, .proceed 1,
      .setLogger 0 true, .setLogger 0 true, .proceed 1, .setLogger 0 true, .proceed 0] =
      some s ∧
    s.lost = [(⟨1, .text "b"⟩, .closed), (⟨0, .text "a"⟩, .noLogger)] := ⟨_, rfl, rfl⟩

/-! ### Order -/

/-- What thread `t` has given to a `send` that has not acted yet. -/
def State.waitingOf (s : State) (t : Nat) : List Sent :=
  match s.threads[t]? with
  | some (some p) => [p.sent]
  | _ => []

/-- What the queue was offered by thread `t`, and what it may be offered next. -/
def State.offeredBy (s : State) (t : Nat) : List Sent :=
  (s.offered.filter fun x => x.thread = t) ++ s.waitingOf t

/-- The messages of each thread are offered in the order in which it gave them. -/
structure InOrder (given : List Sent) (s : State) : Prop where
  own : ∀ t, ∀ x ∈ s.waitingOf t, x.thread = t
  order : ∀ t, (s.offeredBy t).Sublist (given.filter fun x => x.thread = t)

section InOrder

variable {given : List Sent} {s : State}

theorem InOrder.congr (h : InOrder given s) {s' : State} (hthreads : s'.threads = s.threads)
    (hoffered : s'.offered = s.offered) : InOrder (given ++ []) s' := by
  have hwaiting : s'.waitingOf = s.waitingOf := by
    funext t
    rw [State.waitingOf, State.waitingOf, hthreads]
  refine ⟨fun t => hwaiting ▸ h.own t, fun t => ?_⟩
  rw [State.offeredBy, hwaiting, hoffered, List.append_nil]
  exact h.order t

theorem waitingOf_goto_ne {t u : Nat} {p : Option Pending} (hne : u ≠ t) :
    (s.goto t p).waitingOf u = s.waitingOf u := by
  simp only [State.waitingOf, State.goto, List.getElem?_set_ne (Ne.symm hne)]

theorem waitingOf_goto_self {t : Nat} {p q : Option Pending} (hq : s.threads[t]? = some q) :
    (s.goto t p).waitingOf t = (p.map Pending.sent).toList := by
  obtain ⟨hlt, _⟩ := List.getElem?_eq_some_iff.mp hq
  simp only [State.waitingOf, State.goto, List.getElem?_set_self hlt]
  cases p <;> rfl

theorem InOrder.send (h : InOrder given s) {t : Nat} {m : Message} {phase : Phase}
    (hnone : s.threads[t]? = some none) :
    InOrder (given ++ [⟨t, m⟩]) (s.goto t (some ⟨⟨t, m⟩, phase⟩)) := by
  constructor
  · intro u x hx
    by_cases hu : u = t
    · subst hu
      rw [waitingOf_goto_self hnone] at hx
      cases List.mem_singleton.mp hx
      rfl
    · rw [waitingOf_goto_ne hu] at hx
      exact h.own u x hx
  · intro u
    have hu := h.order u
    unfold State.offeredBy at hu ⊢
    by_cases heq : u = t
    · subst heq
      have hnil : s.waitingOf u = [] := by rw [State.waitingOf, hnone]
      rw [hnil, List.append_nil] at hu
      rw [waitingOf_goto_self hnone, List.filter_append]
      exact hu.append (by simp)
    · rw [waitingOf_goto_ne heq, List.filter_append]
      exact hu.trans (List.sublist_append_left _ _)

/-- Thread `t` goes on: its message is offered, taken along, or neither. -/
theorem InOrder.proceed (h : InOrder given s) {t : Nat} {p : Pending} {q : Option Pending}
    (hp : s.threads[t]? = some (some p)) {s' : State} {new : List Sent}
    (hthreads : s'.threads = s.threads.set t q) (hoffered : s'.offered = s.offered ++ new)
    (hnew : (new ++ (q.map Pending.sent).toList).Sublist [p.sent]) : InOrder (given ++ []) s' := by
  have hself : ∀ u, s'.waitingOf u = (s.goto t q).waitingOf u := by
    intro u
    simp only [State.waitingOf, State.goto, hthreads]
  have hwaits : s.waitingOf t = [p.sent] := by rw [State.waitingOf, hp]
  have hown : p.sent.thread = t := h.own t p.sent (by rw [hwaits]; exact List.mem_singleton_self _)
  constructor
  · intro u x hx
    rw [hself u] at hx
    by_cases hu : u = t
    · subst hu
      rw [waitingOf_goto_self hp] at hx
      have hmem := hnew.subset (List.mem_append_right new hx)
      exact (List.mem_singleton.mp hmem).symm ▸ hown
    · rw [waitingOf_goto_ne hu] at hx
      exact h.own u x hx
  · intro u
    refine List.Sublist.trans ?_ ((h.order u).trans (by rw [List.append_nil]))
    rw [State.offeredBy, State.offeredBy, hoffered, hself u, List.filter_append, List.append_assoc]
    apply List.Sublist.append_left
    by_cases hu : u = t
    · subst hu
      rw [waitingOf_goto_self hp, hwaits]
      exact (List.filter_sublist.append_right _).trans hnew
    · have hnil : new.filter (fun x => x.thread = u) = [] := by
        rw [List.filter_eq_nil_iff]
        intro x hx
        rw [List.mem_singleton.mp (hnew.subset (List.mem_append_left _ hx)), hown]
        simpa using Ne.symm hu
      rw [hnil, List.nil_append, waitingOf_goto_ne hu]

end InOrder

theorem step_inOrder (given : List Sent) (s : State) (op : Op) (s' : State) (h : InOrder given s)
    (hstep : step s op = some s') : InOrder (given ++ op.given) s' := by
  cases op with
  | send t m n =>
    obtain ⟨hnone, b, rfl⟩ := send_cases hstep
    exact h.send hnone
  | proceed t =>
    obtain ⟨p, hp, ⟨_, rfl⟩ | ⟨line, rfl⟩ | ⟨loss, rfl⟩ | ⟨phase, rfl⟩⟩ := proceed_cases hstep
    · exact h.proceed hp rfl rfl (List.Sublist.refl _)
    · exact h.proceed hp rfl (List.append_nil _).symm (List.nil_sublist _)
    · exact h.proceed hp rfl (List.append_nil _).symm (List.nil_sublist _)
    · exact h.proceed hp rfl (List.append_nil _).symm (List.Sublist.refl _)
  | setMessageSender sender hooked =>
    cases hstep
    exact h.congr rfl rfl
  | setLogger j created =>
    obtain ⟨_, _, _, _, rfl⟩ := setLogger_cases hstep
    exact h.congr rfl rfl
  | take k =>
    obtain ⟨n, x, rest, _, _, _, rfl⟩ := take_cases hstep
    exact h.congr rfl rfl
  | interrupt k =>
    obtain ⟨n, _, _, rfl⟩ := interrupt_cases hstep
    exact h.congr rfl rfl
  | deliver k =>
    obtain ⟨n, x, rpc, _, _, rfl⟩ := deliver_cases hstep
    exact h.congr rfl rfl
  | fail k =>
    obtain ⟨n, x, _, rfl⟩ := fail_cases hstep
    exact h.congr rfl rfl

theorem run_inOrder {n m : Nat} {ops : List Op} {s : State}
    (hrun : run step (State.initial n m) ops = some s) : InOrder (ops.flatMap Op.given) s := by
  have hwaits : ∀ t, (State.initial n m).waitingOf t = [] := by
    intro t
    unfold State.waitingOf State.initial
    split
    · next p hp =>
      have hmem := List.mem_of_getElem? hp
      cases List.eq_of_mem_replicate hmem
    · rfl
  have h₀ : InOrder (([] : List Op).flatMap Op.given) (State.initial n m) := by
    refine ⟨fun t x hx => ?_, fun t => ?_⟩
    · rw [hwaits t] at hx
      exact absurd hx List.not_mem_nil
    · rw [State.offeredBy, hwaits t]
      exact List.nil_sublist _
  refine run_history (I := fun past s => InOrder (past.flatMap Op.given) s) ?_ [] h₀ hrun
  intro past a op b _ hpast hone
  rw [List.flatMap_append, List.flatMap_singleton]
  exact step_inOrder _ a op b hpast hone

def Queued (s : State) : Prop :=
  s.senders.length ≤ 1 → s.offered = s.handed.map Handed.sent ++ s.inHand ++ s.messages

theorem only_sender {l : List MessageSender} {k : Nat} {d : MessageSender} (hl : l.length ≤ 1)
    (hk : l[k]? = some d) : l = [d] ∧ k = 0 := by
  obtain ⟨hlt, hget⟩ := List.getElem?_eq_some_iff.mp hk
  obtain ⟨e, rfl⟩ := List.length_eq_one_iff.mp (by omega : l.length = 1)
  have hk : k = 0 := by simpa using hlt
  subst hk
  cases hget
  exact ⟨rfl, rfl⟩

theorem step_queued (s : State) (op : Op) (s' : State) (h : Queued s)
    (hstep : step s op = some s') : Queued s' := by
  cases op with
  | send t m n =>
    obtain ⟨_, b, rfl⟩ := send_cases hstep
    exact h
  | proceed t =>
    obtain ⟨p, _, ⟨_, rfl⟩ | ⟨line, rfl⟩ | ⟨loss, rfl⟩ | ⟨phase, rfl⟩⟩ := proceed_cases hstep
    · intro hone
      have := h hone
      simp only [State.inHand, State.goto] at this ⊢
      rw [this, List.append_assoc]
    · exact h
    · exact h
    · exact h
  | setMessageSender sender hooked =>
    cases hstep
    cases hooked with
    | false => exact h
    | true =>
      intro hone
      have hlength : s.senders.length + 1 ≤ 1 := by simpa [setMessageSender] using hone
      have := h (by omega)
      simpa [setMessageSender, State.inHand] using this
  | setLogger j created =>
    obtain ⟨_, _, _, _, rfl⟩ := setLogger_cases hstep
    exact h
  | take k =>
    obtain ⟨n, x, rest, hk, hm, _, rfl⟩ := take_cases hstep
    intro hone
    simp only [List.length_set] at hone
    obtain ⟨hself, rfl⟩ := only_sender hone hk
    have := h hone
    simpa [State.inHand, hself, hm] using this
  | interrupt k =>
    obtain ⟨n, hk, _, rfl⟩ := interrupt_cases hstep
    intro hone
    simp only [List.length_set] at hone
    obtain ⟨hself, rfl⟩ := only_sender hone hk
    have := h hone
    simpa [State.inHand, hself] using this
  | deliver k =>
    obtain ⟨n, x, rpc, hk, _, rfl⟩ := deliver_cases hstep
    intro hone
    simp only [List.length_set] at hone
    obtain ⟨hself, rfl⟩ := only_sender hone hk
    have := h hone
    simpa [State.inHand, hself] using this
  | fail k =>
    obtain ⟨n, x, hk, rfl⟩ := fail_cases hstep
    intro hone
    simp only [List.length_set] at hone
    obtain ⟨hself, rfl⟩ := only_sender hone hk
    have := h hone
    simpa [State.inHand, hself] using this

/-- **With one sender thread messages are delivered in order.** -/
theorem delivered_in_order {n m : Nat} {ops : List Op} {s : State}
    (hrun : run step (State.initial n m) ops = some s) (hone : s.senders.length ≤ 1) :
    s.offered = s.handed.map Handed.sent ++ s.inHand ++ s.messages ∧
      ∀ t, (s.delivered.filter fun x => x.thread = t).Sublist
        ((ops.flatMap Op.given).filter fun x => x.thread = t) := by
  have hqueued : Queued s := run_invariant (fun a op b _ => step_queued a op b) (fun _ => rfl) hrun
  refine ⟨hqueued hone, fun t => ?_⟩
  have hdelivered : s.delivered.Sublist s.offered := by
    rw [hqueued hone, List.append_assoc]
    exact (List.filter_sublist.map _).trans (List.sublist_append_left _ _)
  have hoffered : (s.delivered.filter fun x => x.thread = t).Sublist (s.offeredBy t) :=
    (hdelivered.filter _).trans (List.sublist_append_left _ _)
  exact hoffered.trans ((run_inOrder hrun).order t)

theorem delivered_in_order_three : ∃ s, run step (State.initial 2 0) threeMessages = some s ∧
    (s.offered = s.handed.map Handed.sent ++ s.inHand ++ s.messages ∧
      ∀ t, (s.delivered.filter fun x => x.thread = t).Sublist
        ((threeMessages.flatMap Op.given).filter fun x => x.thread = t)) ∧
    s.offered = [⟨1, .thrown "b" "trace"⟩, ⟨0, .text "a"⟩] := by
  have hrun : run step (State.initial 2 0) threeMessages = some _ := rfl
  exact ⟨_, hrun, delivered_in_order hrun (by decide), rfl⟩

/-- With two senders a thread's messages may change places. -/
example : ∃ s, run step (State.initial 1 0)
    [.setMessageSender 7 true, .setMessageSender 7 true,
      .send 0 (.text "a") 1, .proceed 0, .send 0 (.text "b") 1, .proceed 0,
      .take 0, .take 1, .deliver 1, .deliver 0] = some s ∧
    s.delivered = [⟨0, .text "b"⟩, ⟨0, .text "a"⟩] := ⟨_, rfl, rfl⟩

/-! ### What can still be delivered -/

def Op.Quiet (op : Op) : Prop := ∀ sender hooked, op ≠ .setMessageSender sender hooked

/-- Every sender has given up: no message will be delivered. -/
def Stuck (s : State) : Prop := ∀ d ∈ s.senders, d = ⟨MAX_ERRORS, none⟩

theorem stuck_of {s : State} (h : Bounded s)
    (hnot : ¬ ∃ d ∈ s.senders, d.errCount < MAX_ERRORS) : Stuck s := by
  rintro ⟨errCount, hand⟩ hd
  have hge : ¬ errCount < MAX_ERRORS := fun hlt => hnot ⟨_, hd, hlt⟩
  have hbounded := h.senders _ hd
  have hhand : hand = none := by
    by_contra hne
    exact hge (hbounded.lt hne)
  have herr : errCount = MAX_ERRORS := Nat.le_antisymm hbounded.le (Nat.le_of_not_lt hge)
  rw [hhand, herr]

theorem step_stuck {s : State} {op : Op} {s' : State} (hquiet : op.Quiet) (h : Stuck s)
    (hstep : step s op = some s') : Stuck s' ∧ s'.delivered = s.delivered := by
  cases op with
  | send t m n =>
    obtain ⟨_, b, rfl⟩ := send_cases hstep
    exact ⟨h, rfl⟩
  | proceed t =>
    obtain ⟨p, _, ⟨_, rfl⟩ | ⟨line, rfl⟩ | ⟨loss, rfl⟩ | ⟨phase, rfl⟩⟩ := proceed_cases hstep
    all_goals exact ⟨h, rfl⟩
  | setMessageSender sender hooked => exact absurd rfl (hquiet sender hooked)
  | setLogger j created =>
    obtain ⟨_, _, _, _, rfl⟩ := setLogger_cases hstep
    exact ⟨h, rfl⟩
  | take k =>
    obtain ⟨n, x, rest, hk, _, hlt, rfl⟩ := take_cases hstep
    cases h _ (List.mem_of_getElem? hk)
    exact absurd hlt (Nat.lt_irrefl _)
  | interrupt k =>
    obtain ⟨n, hk, hlt, rfl⟩ := interrupt_cases hstep
    cases h _ (List.mem_of_getElem? hk)
    exact absurd hlt (Nat.lt_irrefl _)
  | deliver k =>
    obtain ⟨n, x, rpc, hk, _, rfl⟩ := deliver_cases hstep
    cases h _ (List.mem_of_getElem? hk)
  | fail k =>
    obtain ⟨n, x, hk, rfl⟩ := fail_cases hstep
    cases h _ (List.mem_of_getElem? hk)

/-- Where there is a sender there is an instance. -/
def Started (s : State) : Prop := s.senders ≠ [] → s.rpc ≠ none

theorem step_started (s : State) (op : Op) (s' : State) (h : Started s)
    (hstep : step s op = some s') : Started s' := by
  cases op with
  | send t m n =>
    obtain ⟨_, b, rfl⟩ := send_cases hstep
    exact h
  | proceed t =>
    obtain ⟨p, _, ⟨_, rfl⟩ | ⟨line, rfl⟩ | ⟨loss, rfl⟩ | ⟨phase, rfl⟩⟩ := proceed_cases hstep
    all_goals exact h
  | setMessageSender sender hooked =>
    cases hstep
    exact fun _ => Option.some_ne_none _
  | setLogger j created =>
    obtain ⟨_, _, _, _, rfl⟩ := setLogger_cases hstep
    exact h
  | take k =>
    obtain ⟨n, x, rest, _, _, _, rfl⟩ := take_cases hstep
    exact fun hne => h (by simpa using hne)
  | interrupt k =>
    obtain ⟨n, _, _, rfl⟩ := interrupt_cases hstep
    exact fun hne => h (by simpa using hne)
  | deliver k =>
    obtain ⟨n, x, rpc, _, _, rfl⟩ := deliver_cases hstep
    exact fun hne => h (by simpa using hne)
  | fail k =>
    obtain ⟨n, x, _, rfl⟩ := fail_cases hstep
    exact fun hne => h (by simpa using hne)

theorem take_deliver {s : State} {k n rpc : Nat} {x : Sent} {rest : List Sent}
    (hk : s.senders[k]? = some ⟨n, none⟩) (hm : s.messages = x :: rest) (hlt : n < MAX_ERRORS)
    (hrpc : s.rpc = some rpc) :
    ∃ s', run step s [.take k, .deliver k] = some s' ∧ s'.senders[k]? = some ⟨n, none⟩ ∧
      s'.messages = rest ∧ s'.rpc = some rpc ∧ s'.delivered = s.delivered ++ [x] := by
  obtain ⟨hklt, _⟩ := List.getElem?_eq_some_iff.mp hk
  let taken : State := { s with messages := rest, senders := s.senders.set k ⟨n, some x⟩ }
  let delivered : State := { taken with handed := s.handed ++ [⟨x, some rpc⟩],
                                        senders := taken.senders.set k ⟨n, none⟩ }
  have htake : take k s = some taken := by simp [take, hk, hm, hlt, taken]
  have hdeliver : deliver k taken = some delivered := by
    simp [deliver, hklt, hrpc, taken, delivered]
  refine ⟨delivered, ?_, ?_, rfl, hrpc, ?_⟩
  · rw [run_cons, step, htake, Option.bind_some, run_cons, step, hdeliver]
    rfl
  · simp [hklt, delivered, taken]
  · exact delivered_handed taken ⟨x, some rpc⟩ _

theorem drain {k n rpc : Nat} (hlt : n < MAX_ERRORS) (l : List Sent) : ∀ s : State,
    s.senders[k]? = some ⟨n, none⟩ → s.rpc = some rpc → s.messages = l →
      ∃ more s', (∀ op ∈ more, op = .take k ∨ op = .deliver k) ∧ run step s more = some s' ∧
        s'.messages = [] ∧ s'.delivered = s.delivered ++ l := by
  induction l with
  | nil =>
    intro s _ _ hm
    exact ⟨[], s, by simp, rfl, hm, (List.append_nil _).symm⟩
  | cons x rest ih =>
    intro s hk hrpc hm
    obtain ⟨mid, hone, hk', hm', hrpc', hdelivered⟩ := take_deliver hk hm hlt hrpc
    obtain ⟨more, s', hops, hrun, hempty, hrest⟩ := ih mid hk' hrpc' hm'
    refine ⟨[.take k, .deliver k] ++ more, s', ?_, ?_, hempty, ?_⟩
    · simpa using hops
    · rw [run_append, hone]
      exact hrun
    · rw [hrest, hdelivered, List.append_assoc]
      rfl

/-- A sender that has a message in its hands delivers it first. -/
theorem drain_from {s : State} {k rpc : Nat} {d : MessageSender} (hk : s.senders[k]? = some d)
    (hlt : d.errCount < MAX_ERRORS) (hrpc : s.rpc = some rpc) :
    ∃ more s', (∀ op ∈ more, op = .take k ∨ op = .deliver k) ∧ run step s more = some s' ∧
      s'.messages = [] ∧ s'.delivered = s.delivered ++ d.hand.toList ++ s.messages := by
  obtain ⟨n, hand⟩ := d
  cases hand with
  | none =>
    have := drain hlt s.messages s hk hrpc rfl
    simpa using this
  | some x =>
    obtain ⟨hklt, _⟩ := List.getElem?_eq_some_iff.mp hk
    let mid : State := { s with handed := s.handed ++ [⟨x, some rpc⟩],
                                senders := s.senders.set k ⟨n, none⟩ }
    have hdeliver : step s (.deliver k) = some mid := by simp [step, deliver, hk, hrpc, mid]
    have hk' : mid.senders[k]? = some ⟨n, none⟩ := by simp [mid, hklt]
    obtain ⟨more, s', hops, hrun, hempty, hrest⟩ := drain hlt mid.messages mid hk' hrpc rfl
    refine ⟨.deliver k :: more, s', ?_, ?_, hempty, ?_⟩
    · simpa using hops
    · rw [run_cons, hdeliver]
      exact hrun
    · rw [hrest]
      exact congrArg (· ++ s.messages) (delivered_handed s ⟨x, some rpc⟩ _)

/-- **When the queue can still be delivered**: exactly as long as a sender has not given up. -/
theorem queue_drains_iff {n m : Nat} {ops : List Op} {s : State}
    (hrun : run step (State.initial n m) ops = some s) (hne : s.messages ≠ []) :
    (∃ more s', (∀ op ∈ more, op.Quiet) ∧ run step s more = some s' ∧
        (s.delivered ++ s.messages).Sublist s'.delivered) ↔
      ∃ d ∈ s.senders, d.errCount < MAX_ERRORS := by
  constructor
  · rintro ⟨more, s', hquiet, hmore, hsub⟩
    by_contra hnot
    have hstuck := stuck_of (run_bounded hrun) hnot
    have hkeep : Stuck s' ∧ s'.delivered = s.delivered := by
      refine run_invariant (I := fun a => Stuck a ∧ a.delivered = s.delivered) ?_ ⟨hstuck, rfl⟩
        hmore
      intro a op b hop ha hone
      obtain ⟨hb, hsame⟩ := step_stuck (hquiet op hop) ha.1 hone
      exact ⟨hb, hsame.trans ha.2⟩
    have hlength := hsub.length_le
    rw [hkeep.2, List.length_append] at hlength
    exact hne (List.length_eq_zero_iff.mp (by omega))
  · rintro ⟨d, hd, hlt⟩
    have hstarted : Started s :=
      run_invariant (fun a op b _ => step_started a op b) (fun h => absurd rfl h) hrun
    obtain ⟨rpc, hrpc⟩ := Option.ne_none_iff_exists'.mp (hstarted (List.ne_nil_of_mem hd))
    obtain ⟨k, hk⟩ := List.mem_iff_getElem?.mp hd
    obtain ⟨more, s', hops, hmore, _, hdelivered⟩ := drain_from hk hlt hrpc
    refine ⟨more, s', fun op hop => ?_, hmore, ?_⟩
    · rcases hops op hop with rfl | rfl
      · rintro sender hooked h
        cases h
      · rintro sender hooked h
        cases h
    · rw [hdelivered, List.append_assoc]
      exact List.Sublist.append_left (List.sublist_append_right _ _) _

/-- The first of the two messages is in the hands of the sender, the second waits. -/
theorem queue_drains_iff_second : ∃ s,
    run step (State.initial 2 0) (threeMessages.take 6) = some s ∧
      ((∃ more s', (∀ op ∈ more, op.Quiet) ∧ run step s more = some s' ∧
          (s.delivered ++ s.messages).Sublist s'.delivered) ↔
        ∃ d ∈ s.senders, d.errCount < MAX_ERRORS) ∧
      s.messages = [⟨0, .text "a"⟩] := by
  have hrun : run step (State.initial 2 0) (threeMessages.take 6) = some _ := rfl
  exact ⟨_, hrun, queue_drains_iff hrun (List.cons_ne_nil _ _), rfl⟩

end Albatross.MessageQueue
