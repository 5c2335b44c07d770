/-
  Albatross/PrintStreams.lean
  ===========================
  **Redirected print streams** (`PrintStreamH.java`: `print`, `printf`, `println`, `flush`,
  `printInternal`).

  While `System.out` and `System.err` are redirected, what is printed without an end of
  line waits in a buffer for its stream; what comes with one is put behind it, and the
  buffer's text is taken and logged.  Taking the text is reading the buffer and then
  emptying it, each a step of its own, as is every other access to a buffer or to the
  static `appLogger`.  Any number of threads print.  The mark that `flush` hands to
  `printInternal` is a text like those that are printed.

  A text that is printed while another thread is between the two is lost, and two threads
  that both read before one empties log the same text twice.  `text_conserved_iff` says
  when nothing is lost or doubled, and `text_in_order` that calls which do not overlap log
  what was printed.  What is printed without a running logger is dropped; `dropped` and
  `given` are records that no code reads.
-/
import Albatross.Places

namespace Albatross.PrintStreams

open Places Runs

abbrev Text := List Char

inductive Stream where
  | out
  | err
deriving DecidableEq, Repr

structure Item where
  thread : Nat
  stream : Stream
  text : Text
deriving DecidableEq, Repr

def textOf (items : List Item) : Text := items.flatMap Item.text

/-! ### The hooked methods -/

/-- What a hooked method does with its argument: nothing, or it calls the method that is hooked,
    appends to the buffer, or calls `printInternal`. -/
inductive Route where
  | nothing
  | original
  | append (s : Text)
  | printInternal (s : Text)
deriving DecidableEq, Repr

/-- `print(Object)`, of the object's text. -/
def printObject : Option Text → Route
  | none => .nothing
  | some s => .append s

/-- `print(String)`. -/
def print : Option Text → Route
  | none => .original
  | some s => if '\n' ∈ s then .printInternal s else .append s

/-- `printf`, of what `String.format` makes of its arguments, if none of them is `null`. -/
def printf : Option Text → Route := print

/-- `println(Object)` and `println(String)`. -/
def println : Option Text → Route
  | none => .original
  | some s => .printInternal s

/-- A hooked method and the text of its argument, or `none` for `null`. -/
inductive Method where
  | printObject (obj : Option Text)
  | print (s : Option Text)
  | printf (string : Option Text)
  | println (x : Option Text)
deriving DecidableEq, Repr

def Method.route : Method → Route
  | .printObject obj => PrintStreams.printObject obj
  | .print s => PrintStreams.print s
  | .printf string => PrintStreams.printf string
  | .println x => PrintStreams.println x

def flushMark : Text := " !!flush".toList

/-! ### State -/

/-- The static `appLogger`: there is none, or one that has been closed, or one that runs. -/
inductive AppLogger where
  | absent
  | closed
  | running
deriving DecidableEq, Repr

/-- Where a thread is in `printInternal`. -/
inductive Phase where
  | idle
  | start (x : Item)
  | length (x : Item)
  | append (x : Item)
  | toString (st : Stream)
  | setLength (st : Stream) (s : List Item)
  | log (st : Stream) (s : List Item)
deriving DecidableEq, Repr

/-- What a thread has that is in no buffer. -/
def Phase.hand : Phase → List Item
  | .start x => [x]
  | .length x => [x]
  | .append x => [x]
  | .log _ s => s
  | _ => []

structure State where
  appLogger : AppLogger
  outBuilder : List Item
  errBuilder : List Item
  threads : List Phase
  logged : List (Stream × List Item)
  dropped : List Item
  given : List Item
deriving DecidableEq, Repr

def State.initial (n : Nat) (appLogger : AppLogger) : State :=
  ⟨appLogger, [], [], .replicate n .idle, [], [], []⟩

def State.builder (s : State) : Stream → List Item
  | .out => s.outBuilder
  | .err => s.errBuilder

def State.setBuilder (s : State) (st : Stream) (items : List Item) : State :=
  match st with
  | .out => { s with outBuilder := items }
  | .err => { s with errBuilder := items }

def State.setPhase (s : State) (t : Nat) (p : Phase) : State :=
  { s with threads := s.threads.set t p }

def State.give (s : State) (x : Item) : State := { s with given := s.given ++ [x] }

def State.drop (s : State) (items : List Item) : State := { s with dropped := s.dropped ++ items }

/-- `appLogger.log`. -/
def State.log (s : State) (st : Stream) (items : List Item) : State :=
  { s with logged := s.logged ++ [(st, items)] }

/-! ### Steps -/

/-- A call of `printInternal`. -/
def printInternal (x : Item) (s : State) : State := (s.give x).setPhase x.thread (.start x)

/-- What a call of a hooked method does at once. -/
def call (t : Nat) (st : Stream) (r : Route) (s : State) : State :=
  match r with
  | .nothing => s
  | .original => s
  | .append text => (s.give ⟨t, st, text⟩).setBuilder st (s.builder st ++ [⟨t, st, text⟩])
  | .printInternal text => printInternal ⟨t, st, text⟩ s

/-- The half of `flush` for a stream. -/
def flush (t : Nat) (st : Stream) (s : State) : State :=
  if textOf (s.builder st) ≠ [] then printInternal ⟨t, st, flushMark⟩ s else s

/-- The next access of `printInternal`. -/
def next (t : Nat) (s : State) : Phase → State
  | .idle => s
  | .start x =>
      if s.appLogger = .absent then (s.setPhase t .idle).drop [x] else s.setPhase t (.length x)
  | .length x =>
      if textOf (s.builder x.stream) ≠ [] then s.setPhase t (.append x)
      else s.setPhase t (.log x.stream [x])
  | .append x =>
      (s.setBuilder x.stream (s.builder x.stream ++ [x])).setPhase t (.toString x.stream)
  | .toString st => s.setPhase t (.setLength st (s.builder st))
  | .setLength st items => (s.setBuilder st []).setPhase t (.log st items)
  | .log st items =>
      -- the logger may have gone since the call looked, and one that is closed logs nothing
      if s.appLogger = .running then (s.setPhase t .idle).log st items
      else (s.setPhase t .idle).drop items

inductive Op where
  | call (t : Nat) (st : Stream) (m : Method)
  | flush (t : Nat) (st : Stream)
  | next (t : Nat)
  | setAppLogger (appLogger : AppLogger)

def step (s : State) : Op → Option State
  | .call t st m => if s.threads[t]? = some .idle then some (call t st m.route s) else none
  | .flush t st => if s.threads[t]? = some .idle then some (flush t st s) else none
  | .next t =>
      match s.threads[t]? with
      | some p => if p = .idle then none else some (next t s p)
      | none => none
  | .setAppLogger appLogger => some { s with appLogger := appLogger }

/-! ### Where a text is -/

def State.places (s : State) : List Item :=
  s.outBuilder ++ s.errBuilder ++ s.threads.flatMap Phase.hand ++ s.logged.flatMap Prod.snd ++
    s.dropped

/-- Every text printed is in one place, once: a buffer, the hands of a thread, the log, or the
    record of what was dropped. -/
def Conserved (s : State) : Prop := s.places.Perm s.given

/-- A thread that empties a buffer has read all that it has. -/
def Op.ClearsWhatItRead (s : State) : Op → Prop
  | .next t => ∀ st items, s.threads[t]? = some (.setLength st items) →
      items.Perm (s.builder st)
  | _ => True

/-! ### Counting -/

def State.amount (s : State) (x : Item) : Nat := s.places.count x

section Counting

variable {s : State} {t : Nat} {st : Stream} {p : Phase} {items : List Item} {x : Item}

theorem conserved_iff : Conserved s ↔ ∀ x, s.amount x = s.given.count x := List.perm_iff_count

theorem amount_eq : s.amount x = s.outBuilder.count x + s.errBuilder.count x +
    (s.threads.flatMap Phase.hand).count x + (s.logged.flatMap Prod.snd).count x +
      s.dropped.count x := by
  simp only [State.amount, State.places, List.count_append]

theorem amount_setPhase (h : s.threads[t]? = some p) (q : Phase) :
    (s.setPhase t q).amount x + p.hand.count x = s.amount x + q.hand.count x := by
  have hperm := (flatMap_set Phase.hand h q).count_eq x
  rw [List.count_append, List.count_append] at hperm
  simp only [amount_eq, State.setPhase]
  omega

theorem amount_setBuilder (s : State) (st : Stream) (items : List Item) (x : Item) :
    (s.setBuilder st items).amount x + (s.builder st).count x = s.amount x + items.count x := by
  cases st <;> simp only [amount_eq, State.setBuilder, State.builder] <;> omega

theorem amount_give (y : Item) : (s.give y).amount x = s.amount x := rfl

theorem amount_drop (s : State) (items : List Item) (x : Item) :
    (s.drop items).amount x = s.amount x + items.count x := by
  simp only [amount_eq, State.drop, List.count_append]
  omega

theorem amount_log (s : State) (st : Stream) (items : List Item) (x : Item) :
    (s.log st items).amount x = s.amount x + items.count x := by
  simp only [amount_eq, State.log, List.flatMap_append, List.flatMap_singleton, List.count_append]
  omega

@[simp] theorem threads_setBuilder : (s.setBuilder st items).threads = s.threads := by
  cases st <;> rfl

@[simp] theorem given_setBuilder : (s.setBuilder st items).given = s.given := by
  cases st <;> rfl

theorem builder_give (y : Item) : (s.give y).builder st = s.builder st := by
  cases st <;> rfl

end Counting

/-! ### Conservation -/

section Steps

variable {s s' : State}

theorem printInternal_conserved {x : Item} (hidle : s.threads[x.thread]? = some .idle)
    (h : Conserved s) : Conserved (printInternal x s) := by
  rw [conserved_iff] at h ⊢
  intro y
  have hphase := amount_setPhase (s := s.give x) (x := y) hidle (.start x)
  have hgiven : (printInternal x s).given.count y = s.given.count y + [x].count y :=
    List.count_append
  have hbefore := h y
  simp only [Phase.hand, List.count_nil, amount_give] at hphase
  rw [printInternal]
  rw [printInternal] at hgiven
  omega

theorem call_conserved {t : Nat} {st : Stream} {r : Route} (hidle : s.threads[t]? = some .idle)
    (h : Conserved s) : Conserved (call t st r s) := by
  cases r with
  | nothing => exact h
  | original => exact h
  | append text =>
    rw [conserved_iff] at h ⊢
    intro y
    have hbuilder := amount_setBuilder (s.give ⟨t, st, text⟩) st
      (s.builder st ++ [⟨t, st, text⟩]) y
    have hbefore := h y
    rw [builder_give, amount_give, List.count_append] at hbuilder
    simp only [call, given_setBuilder, State.give, List.count_append]
    simp only [State.give] at hbuilder
    omega
  | printInternal text => exact printInternal_conserved hidle h

/-- Every access but the emptying of a buffer leaves each text in one place. -/
theorem next_conserved {t : Nat} {p : Phase} (hp : s.threads[t]? = some p) (h : Conserved s) :
    Conserved (next t s p) ↔ ∀ st items, p = .setLength st items → items.Perm (s.builder st) := by
  have hphase : ∀ (s : State) (q : Phase) (y : Item), s.threads[t]? = some p →
      (s.setPhase t q).amount y + p.hand.count y = s.amount y + q.hand.count y :=
    fun s q y hs => amount_setPhase hs q
  rw [conserved_iff] at h
  cases p with
  | idle => exact iff_of_true (conserved_iff.mpr h) fun _ _ hno => by cases hno
  | start x =>
    refine iff_of_true (conserved_iff.mpr fun y => ?_) fun _ _ hno => by cases hno
    have hbefore := h y
    simp only [next]
    split
    · have hidle := hphase s .idle y hp
      have hdrop := amount_drop (s.setPhase t .idle) [x] y
      simp only [Phase.hand, List.count_nil] at hidle
      change _ = s.given.count y
      omega
    · have := hphase s (.length x) y hp
      exact (Nat.add_right_cancel this).trans hbefore
  | length x =>
    refine iff_of_true (conserved_iff.mpr fun y => ?_) fun _ _ hno => by cases hno
    simp only [next]
    split
    · exact (Nat.add_right_cancel (hphase s (.append x) y hp)).trans (h y)
    · exact (Nat.add_right_cancel (hphase s (.log x.stream [x]) y hp)).trans (h y)
  | append x =>
    refine iff_of_true (conserved_iff.mpr fun y => ?_) fun _ _ hno => by cases hno
    have hbuilder := amount_setBuilder s x.stream (s.builder x.stream ++ [x]) y
    have hthread := hphase (s.setBuilder x.stream (s.builder x.stream ++ [x]))
      (.toString x.stream) y (by rw [threads_setBuilder]; exact hp)
    have hbefore := h y
    simp only [Phase.hand, List.count_nil, List.count_append] at hthread hbuilder
    change _ = (s.setBuilder x.stream (s.builder x.stream ++ [x])).given.count y
    rw [given_setBuilder, next]
    omega
  | toString st =>
    refine iff_of_true (conserved_iff.mpr fun y => ?_) fun _ _ hno => by cases hno
    exact (Nat.add_right_cancel (hphase s (.setLength st (s.builder st)) y hp)).trans (h y)
  | setLength st items =>
    have hamount : ∀ y, (next t s (.setLength st items)).amount y + (s.builder st).count y =
        s.amount y + items.count y := by
      intro y
      have hbuilder := amount_setBuilder s st [] y
      have hthread := hphase (s.setBuilder st []) (.log st items) y
        (by rw [threads_setBuilder]; exact hp)
      simp only [Phase.hand, List.count_nil] at hthread hbuilder
      rw [next]
      omega
    have hgiven : (next t s (.setLength st items)).given = s.given := given_setBuilder
    rw [conserved_iff, hgiven]
    constructor
    · rintro hall _ _ ⟨⟩
      rw [List.perm_iff_count]
      intro y
      have := hamount y
      rw [hall y, h y] at this
      omega
    · intro hall y
      have := hamount y
      have hsame := (hall st items rfl).count_eq y
      rw [← h y]
      omega
  | log st items =>
    refine iff_of_true (conserved_iff.mpr fun y => ?_) fun _ _ hno => by cases hno
    have hidle := hphase s .idle y hp
    have hbefore := h y
    simp only [Phase.hand, List.count_nil] at hidle
    simp only [next]
    split
    · have hlog := amount_log (s.setPhase t .idle) st items y
      change _ = s.given.count y
      omega
    · have hdrop := amount_drop (s.setPhase t .idle) items y
      change _ = s.given.count y
      omega

/-- What a step does, by the way it takes. -/
inductive Stepped (s : State) : Op → State → Prop where
  | call (t : Nat) (st : Stream) (m : Method) (hidle : s.threads[t]? = some .idle) :
      Stepped s (.call t st m) (PrintStreams.call t st m.route s)
  | flushed (t : Nat) (st : Stream) (hidle : s.threads[t]? = some .idle) :
      Stepped s (.flush t st) (printInternal ⟨t, st, flushMark⟩ s)
  | unflushed (t : Nat) (st : Stream) : Stepped s (.flush t st) s
  | next {t : Nat} {p : Phase} (hp : s.threads[t]? = some p) (hne : p ≠ .idle) :
      Stepped s (.next t) (PrintStreams.next t s p)
  | setAppLogger (appLogger : AppLogger) :
      Stepped s (.setAppLogger appLogger) { s with appLogger := appLogger }

theorem step_cases {op : Op} (h : step s op = some s') : Stepped s op s' := by
  cases op with
  | call t st m =>
    simp only [step] at h
    split at h
    · next hidle => cases h; exact .call t st m hidle
    · cases h
  | flush t st =>
    simp only [step] at h
    split at h
    · next hidle =>
      cases h
      unfold flush
      split
      · exact .flushed t st hidle
      · exact .unflushed t st
    · cases h
  | next t =>
    simp only [step] at h
    split at h
    · next p hp =>
      split at h
      · cases h
      · next hne => cases h; exact .next hp hne
    · cases h
  | setAppLogger appLogger => cases h; exact .setAppLogger appLogger

theorem step_conserved {op : Op} (hstep : step s op = some s') (h : Conserved s) :
    Conserved s' ↔ op.ClearsWhatItRead s := by
  cases step_cases hstep with
  | call t st m hidle => exact iff_of_true (call_conserved hidle h) trivial
  | flushed t st hidle => exact iff_of_true (printInternal_conserved hidle h) trivial
  | unflushed t st => exact iff_of_true h trivial
  | next hp _ =>
    rw [next_conserved hp h]
    constructor
    · intro hall st items hset
      exact hall st items (Option.some.inj (hp.symm.trans hset))
    · intro hall st items hset
      exact hall st items (hp.trans (congrArg some hset))
  | setAppLogger appLogger => exact iff_of_true h trivial

end Steps

/-- **When no printed text is lost between buffer and log or logged twice**: throughout a run,
    exactly when a thread that empties a buffer has read all that it has. -/
theorem text_conserved_iff (n : Nat) (appLogger : AppLogger) (ops : List Op) :
    (∀ s op s', Takes step (State.initial n appLogger) ops s op s' → Conserved s') ↔
      ∀ s op s', Takes step (State.initial n appLogger) ops s op s' → op.ClearsWhatItRead s := by
  refine forall_takes_iff ?_ fun _ _ _ ht h => step_conserved ht.one h
  have hhands : (List.replicate n Phase.idle).flatMap Phase.hand = [] := by
    simp [List.flatMap_eq_nil_iff, Phase.hand]
  unfold Conserved State.places State.initial
  rw [hhands]
  exact List.Perm.refl _

/-- What a thread prints while another is between reading the buffer and emptying it is lost. -/
example : ∃ s, run step (State.initial 2 .running)
    ([.call 0 .out (.print (some ['a'])), .call 0 .out (.println (some ['b']))] ++
      List.replicate 4 (.next 0) ++ [.call 1 .out (.print (some ['c']))] ++
      List.replicate 2 (.next 0)) = some s ∧
    s.logged.map (fun l => textOf l.2) = [['a', 'b']] ∧ s.outBuilder = [] ∧ ¬ Conserved s := by
  refine ⟨_, rfl, rfl, rfl, fun h => ?_⟩
  cases h.length_eq

/-! ### Calls that do not overlap -/

def State.loggedText (s : State) (st : Stream) : Text :=
  (s.logged.filter fun l => l.1 = st).flatMap fun l => textOf l.2

def State.givenText (s : State) (st : Stream) : Text :=
  textOf (s.given.filter fun x => x.stream = st)

/-- A call starts when no other is under way, and the logger runs on. -/
def Op.Alone (s : State) : Op → Prop
  | .call _ _ _ => ∀ p ∈ s.threads, p = .idle
  | .flush _ _ => ∀ p ∈ s.threads, p = .idle
  | .next _ => True
  | .setAppLogger appLogger => appLogger = .running

/-- The text of a stream that is still to be logged, while a thread is in a phase. -/
def Phase.rest (s : State) (st : Stream) : Phase → Text
  | .start x => textOf (s.builder st) ++ if x.stream = st then x.text else []
  | .length x => textOf (s.builder st) ++ if x.stream = st then x.text else []
  | .append x => textOf (s.builder st) ++ if x.stream = st then x.text else []
  | .log st' items => (if st' = st then textOf items else []) ++ textOf (s.builder st)
  | _ => textOf (s.builder st)

/-- The phase of the call under way, if there is one. -/
def Active (s : State) (p : Phase) : Prop :=
  p = .idle ∧ (∀ q ∈ s.threads, q = .idle) ∨ p ≠ .idle ∧ p ∈ s.threads

structure Ordered (s : State) (p : Phase) : Prop where
  text : ∀ st, s.loggedText st ++ p.rest s st = s.givenText st
  read : ∀ st items, p = .setLength st items → items = s.builder st

structure InOrder (s : State) : Prop where
  logger : s.appLogger = .running
  one : ∀ (t u : Nat) (p q : Phase), s.threads[t]? = some p → s.threads[u]? = some q →
    p ≠ .idle → q ≠ .idle → t = u
  ordered : ∀ p, Active s p → Ordered s p

section InOrder

variable {s s' : State} {t : Nat} {p q : Phase} {st st' : Stream} {x : Item} {items : List Item}

theorem textOf_append (items items' : List Item) :
    textOf (items ++ items') = textOf items ++ textOf items' := List.flatMap_append

theorem textOf_singleton (x : Item) : textOf [x] = x.text := List.append_nil _

theorem builder_setBuilder :
    (s.setBuilder st items).builder st' = if st = st' then items else s.builder st' := by
  cases st <;> cases st' <;> rfl

theorem loggedText_log : (s.log st items).loggedText st' =
    s.loggedText st' ++ if st = st' then textOf items else [] := by
  simp only [State.loggedText, State.log, List.filter_append, List.flatMap_append]
  by_cases h : st = st' <;> simp [h]

theorem givenText_give : (s.give x).givenText st =
    s.givenText st ++ if x.stream = st then x.text else [] := by
  simp only [State.givenText, State.give, List.filter_append, textOf_append]
  by_cases h : x.stream = st <;> simp [h, textOf]

theorem loggedText_setBuilder : (s.setBuilder st items).loggedText st' = s.loggedText st' := by
  cases st <;> rfl

theorem givenText_setBuilder : (s.setBuilder st items).givenText st' = s.givenText st' := by
  cases st <;> rfl

theorem rest_setPhase (r : Phase) : r.rest (s.setPhase t q) st = r.rest s st := by
  cases r <;> cases st <;> rfl

theorem textOf_builder_append (s : State) (x : Item) (st : Stream) :
    textOf ((s.setBuilder x.stream (s.builder x.stream ++ [x])).builder st) =
      textOf (s.builder st) ++ if x.stream = st then x.text else [] := by
  rw [builder_setBuilder]
  by_cases h : x.stream = st
  · rw [if_pos h, if_pos h, textOf_append, textOf_singleton, h]
  · rw [if_neg h, if_neg h, List.append_nil]

theorem inOrder_set (hp : s.threads[t]? = some p)
    (hrest : ∀ (u : Nat) (r : Phase), s.threads[u]? = some r → r ≠ .idle → u = t)
    (hlogger : s'.appLogger = .running) (hthreads : s'.threads = s.threads.set t q)
    (hordered : Ordered s' q) : InOrder s' := by
  have hlt : t < s.threads.length := (List.getElem?_eq_some_iff.mp hp).1
  have hset : ∀ (u : Nat) (r : Phase), s'.threads[u]? = some r → r ≠ .idle → u = t ∧ r = q := by
    intro u r hu hr
    rw [hthreads] at hu
    by_cases hut : u = t
    · rw [hut, List.getElem?_set_self hlt] at hu
      exact ⟨hut, (Option.some.inj hu).symm⟩
    · rw [List.getElem?_set_ne (Ne.symm hut)] at hu
      exact absurd (hrest u r hu hr) hut
  refine ⟨hlogger, fun a b r r' ha hb hr hr' => ?_, fun r hr => ?_⟩
  · exact (hset a r ha hr).1.trans (hset b r' hb hr').1.symm
  · rcases hr with ⟨rfl, hidle⟩ | ⟨hne, hmem⟩
    · have hq : q = .idle := hidle q (by rw [hthreads]; exact List.mem_set hlt q)
      exact hq ▸ hordered
    · obtain ⟨u, hu⟩ := List.mem_iff_getElem?.mp hmem
      rw [(hset u r hu hne).2]
      exact hordered

theorem printInternal_inOrder (h : InOrder s) (halone : ∀ p ∈ s.threads, p = .idle)
    (hidle : s.threads[x.thread]? = some .idle) : InOrder (printInternal x s) := by
  have hordered := h.ordered .idle (Or.inl ⟨rfl, halone⟩)
  refine inOrder_set hidle (fun u r hu hr => ?_) h.logger rfl
    ⟨fun st => ?_, fun st items hset => ?_⟩
  · exact absurd (halone r (List.mem_of_getElem? hu)) hr
  · have htext := hordered.text st
    change s.loggedText st ++ (textOf ((s.give x).builder st) ++ _) = (s.give x).givenText st
    rw [givenText_give, builder_give, ← htext, List.append_assoc]
    rfl
  · cases hset

theorem call_inOrder {r : Route} (h : InOrder s) (halone : ∀ p ∈ s.threads, p = .idle)
    (hidle : s.threads[t]? = some .idle) : InOrder (call t st r s) := by
  cases r with
  | nothing => exact h
  | original => exact h
  | append text =>
    have hordered := h.ordered .idle (Or.inl ⟨rfl, halone⟩)
    have hthreads : (call t st (.append text) s).threads = s.threads := threads_setBuilder
    refine ⟨?_, ?_, fun p hp => ?_⟩
    · cases st <;> exact h.logger
    · rw [hthreads]
      exact h.one
    · rw [Active, hthreads] at hp
      have hpidle : p = .idle := by
        rcases hp with ⟨hp, _⟩ | ⟨_, hmem⟩
        · exact hp
        · exact halone p hmem
      subst hpidle
      refine ⟨fun st' => ?_, fun _ _ hset => by cases hset⟩
      have htext := hordered.text st'
      let x : Item := ⟨t, st, text⟩
      have hbuilder := textOf_builder_append (s.give x) x st'
      rw [builder_give, builder_give] at hbuilder
      change ((s.give x).setBuilder st _).loggedText st' ++
        textOf (((s.give x).setBuilder x.stream (s.builder st ++ [x])).builder st') =
          ((s.give x).setBuilder st _).givenText st'
      rw [loggedText_setBuilder, givenText_setBuilder, givenText_give, hbuilder, ← htext,
        List.append_assoc]
      rfl
  | printInternal text => exact printInternal_inOrder h halone hidle

theorem next_ordered (h : InOrder s) (hp : s.threads[t]? = some p) (hne : p ≠ .idle) :
    ∃ q, (next t s p).threads = s.threads.set t q ∧ Ordered (next t s p) q := by
  have hordered := h.ordered p (Or.inr ⟨hne, List.mem_of_getElem? hp⟩)
  cases p with
  | idle => exact absurd rfl hne
  | start x =>
    have hlogger : s.appLogger ≠ .absent := by simp [h.logger]
    refine ⟨.length x, ?_, fun st => ?_, fun _ _ hset => by cases hset⟩
    · rw [next, if_neg hlogger]
      rfl
    · rw [next, if_neg hlogger, rest_setPhase]
      exact hordered.text st
  | length x =>
    simp only [next]
    split
    · refine ⟨.append x, rfl, fun st => ?_, fun _ _ hset => by cases hset⟩
      rw [rest_setPhase]
      exact hordered.text st
    · next hempty =>
      refine ⟨.log x.stream [x], rfl, fun st => ?_, fun _ _ hset => by cases hset⟩
      rw [rest_setPhase]
      refine Eq.trans ?_ (hordered.text st)
      change s.loggedText st ++ _ = s.loggedText st ++ _
      simp only [Phase.rest, textOf_singleton]
      by_cases hst : x.stream = st
      · have hnil : textOf (s.builder st) = [] := by rw [← hst]; simpa using hempty
        rw [hnil, List.append_nil, List.nil_append]
      · rw [if_neg hst, List.append_nil, List.nil_append]
  | append x =>
    refine ⟨.toString x.stream, ?_, fun st => ?_, fun _ _ hset => by cases hset⟩
    · simp only [next, State.setPhase, threads_setBuilder]
    · rw [next, rest_setPhase]
      refine Eq.trans ?_ ((hordered.text st).trans givenText_setBuilder.symm)
      change State.loggedText (s.setBuilder _ _) st ++ textOf _ = _
      rw [loggedText_setBuilder, textOf_builder_append]
      rfl
  | toString st' =>
    refine ⟨.setLength st' (s.builder st'), rfl, fun st => ?_, ?_⟩
    · rw [next, rest_setPhase]
      exact hordered.text st
    · intro st items hset
      cases hset
      cases st' <;> rfl
  | setLength st' items =>
    have hitems := hordered.read st' items rfl
    refine ⟨.log st' items, ?_, fun st => ?_, fun _ _ hset => by cases hset⟩
    · simp only [next, State.setPhase, threads_setBuilder]
    · rw [next, rest_setPhase]
      refine Eq.trans ?_ ((hordered.text st).trans givenText_setBuilder.symm)
      change State.loggedText (s.setBuilder _ _) st ++ _ = s.loggedText st ++ textOf (s.builder st)
      simp only [Phase.rest]
      rw [loggedText_setBuilder, builder_setBuilder, hitems]
      by_cases hst : st' = st
      · rw [if_pos hst, if_pos hst, hst]
        exact congrArg _ (List.append_nil _)
      · rw [if_neg hst, if_neg hst, List.nil_append]
  | log st' items =>
    refine ⟨.idle, ?_, fun st => ?_, fun _ _ hset => by cases hset⟩
    · rw [next, if_pos h.logger]
      rfl
    · rw [next, if_pos h.logger]
      refine Eq.trans ?_ (hordered.text st)
      rw [loggedText_log, List.append_assoc]
      cases st <;> rfl

theorem next_appLogger (t : Nat) (s : State) (p : Phase) :
    (next t s p).appLogger = s.appLogger := by
  have hbuilder : ∀ st items, (s.setBuilder st items).appLogger = s.appLogger := by
    intro st items
    cases st <;> rfl
  cases p with
  | idle => rfl
  | start x => simp only [next]; split <;> rfl
  | length x => simp only [next]; split <;> rfl
  | append x => exact hbuilder _ _
  | toString st => rfl
  | setLength st items => exact hbuilder _ _
  | log st items => simp only [next]; split <;> rfl

theorem step_inOrder {op : Op} (hstep : step s op = some s') (halone : op.Alone s)
    (h : InOrder s) : InOrder s' := by
  cases step_cases hstep with
  | call t st m hidle => exact call_inOrder h halone hidle
  | flushed t st hidle => exact printInternal_inOrder h halone hidle
  | unflushed t st => exact h
  | @next t p hp hne =>
    obtain ⟨q, hthreads, hordered⟩ := next_ordered h hp hne
    refine inOrder_set hp (fun u r hu hr => h.one u t r p hu hp hr hne) ?_ hthreads hordered
    rw [next_appLogger]
    exact h.logger
  | setAppLogger appLogger =>
    have hsame : ({ s with appLogger := appLogger } : State) = s := by
      have hlogger := h.logger
      cases s
      simp only at hlogger
      rw [hlogger, show appLogger = .running from halone]
    rw [hsame]
    exact h

end InOrder

/-- **Calls that do not overlap log what was printed**, in the order in which it was: when none
    is under way, what is logged of a stream and then what waits is all that was printed, the mark
    that `flush` adds included. -/
theorem text_in_order {n : Nat} {ops : List Op} {s : State}
    (hrun : run step (State.initial n .running) ops = some s)
    (halone : ∀ a op b, Takes step (State.initial n .running) ops a op b → op.Alone a)
    (hidle : ∀ p ∈ s.threads, p = .idle) (st : Stream) :
    s.loggedText st ++ textOf (s.builder st) = s.givenText st := by
  have h₀ : InOrder (State.initial n .running) := by
    have hidle : ∀ p ∈ (State.initial n .running).threads, p = .idle := fun p hp =>
      List.eq_of_mem_replicate hp
    refine ⟨rfl, fun t u p q ht _ hp _ => ?_, fun p hp => ?_⟩
    · exact absurd (hidle p (List.mem_of_getElem? ht)) hp
    · have hpidle : p = .idle := by
        rcases hp with ⟨hp, _⟩ | ⟨_, hmem⟩
        · exact hp
        · exact hidle p hmem
      subst hpidle
      exact ⟨fun st => by cases st <;> rfl, fun _ _ hset => by cases hset⟩
  have hinOrder : InOrder s :=
    run_takes h₀ (fun a op b ht => step_inOrder ht.one (halone a op b ht)) hrun
  exact (hinOrder.ordered .idle (Or.inl ⟨rfl, hidle⟩)).text st

/-- A line begun by one thread and ended by another. -/
def oneLine : List Op :=
  [.call 0 .out (.print (some ['a'])), .call 1 .out (.println (some ['b']))] ++
    List.replicate 6 (.next 1)

theorem oneLine_alone (s : State) (op : Op) (s' : State)
    (h : Takes step (State.initial 2 .running) oneLine s op s') : op.Alone s := by
  revert s op s'
  have hidle : ∀ p ∈ [Phase.idle, .idle], p = .idle := by decide
  simp only [oneLine, List.replicate, List.cons_append, List.nil_append, forall_takes_cons]
  rintro _ ⟨⟩
  refine ⟨hidle, ?_⟩
  rintro _ ⟨⟩
  refine ⟨hidle, ?_⟩
  rintro _ ⟨⟩
  refine ⟨trivial, ?_⟩
  rintro _ ⟨⟩
  refine ⟨trivial, ?_⟩
  rintro _ ⟨⟩
  refine ⟨trivial, ?_⟩
  rintro _ ⟨⟩
  refine ⟨trivial, ?_⟩
  rintro _ ⟨⟩
  refine ⟨trivial, ?_⟩
  rintro _ ⟨⟩
  refine ⟨trivial, ?_⟩
  intro s op s' h
  exact absurd h not_takes_nil

theorem text_in_order_oneLine : ∃ s, run step (State.initial 2 .running) oneLine = some s ∧
    s.loggedText .out ++ textOf (s.builder .out) = s.givenText .out ∧
      s.loggedText .out = ['a', 'b'] := by
  have hrun : run step (State.initial 2 .running) oneLine = some _ := rfl
  exact ⟨_, hrun, text_in_order hrun oneLine_alone (by decide) .out, rfl⟩

end Albatross.PrintStreams
