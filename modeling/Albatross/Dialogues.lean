/-
  Albatross/Dialogues.lean
  ========================
  **Programs that ask and are answered.**

  A dialogue asks questions, each chosen from the answers to the earlier ones, and ends
  with a value or an exception.  Nothing is said about the answers: `answers n q` answers
  the question `q` when it is asked as the `n`-th, and `run` is the conversation that
  follows, with its outcome.

  What holds of the questions and the outcomes under all answers holds all over the tree
  of the dialogue (`always_iff`), and that is a matter of its pieces (`always_ask`,
  `always_bind`).  A dialogue in two parts runs them one after the other, the second with
  the answers that the first has left (`run_bind`).
-/
import Mathlib.Logic.Basic

namespace Albatross.Dialogues

/-- `A q` is the type of the answers to the question `q`. -/
inductive Dialogue (Q : Type) (A : Q → Type) (ε α : Type) where
  | done (outcome : Except ε α)
  | ask (q : Q) (k : A q → Dialogue Q A ε α)

/-- `answers n q` answers the `n`-th question. -/
abbrev Answers (Q : Type) (A : Q → Type) := Nat → (q : Q) → A q

abbrev Exchange {Q : Type} (A : Q → Type) := (q : Q) × A q

namespace Dialogue

variable {Q : Type} {A : Q → Type} {ε α β : Type}

/-- Goes on with the value; an exception ends the dialogue. -/
def bind (d : Dialogue Q A ε α) (f : α → Dialogue Q A ε β) : Dialogue Q A ε β :=
  match d with
  | .done (.ok a) => f a
  | .done (.error e) => .done (.error e)
  | .ask q k => .ask q fun a => (k a).bind f

instance : Monad (Dialogue Q A ε) where
  pure a := .done (.ok a)
  bind := bind

def raise (e : ε) : Dialogue Q A ε α := .done (.error e)

def run : Dialogue Q A ε α → Answers Q A → List (Exchange A) × Except ε α
  | .done outcome, _ => ([], outcome)
  | .ask q k, answers =>
      let rest := (k (answers 0 q)).run fun n => answers (n + 1)
      (⟨q, answers 0 q⟩ :: rest.1, rest.2)

@[simp] theorem pure_eq (a : α) : (pure a : Dialogue Q A ε α) = .done (.ok a) := rfl

@[simp] theorem raise_eq (e : ε) : (raise e : Dialogue Q A ε α) = .done (.error e) := rfl

@[simp] theorem done_ok_bind (a : α) (f : α → Dialogue Q A ε β) :
    (.done (.ok a) : Dialogue Q A ε α) >>= f = f a := rfl

@[simp] theorem done_error_bind (e : ε) (f : α → Dialogue Q A ε β) :
    (.done (.error e) : Dialogue Q A ε α) >>= f = .done (.error e) := rfl

@[simp] theorem ask_bind (q : Q) (k : A q → Dialogue Q A ε α) (f : α → Dialogue Q A ε β) :
    .ask q k >>= f = .ask q fun a => k a >>= f := rfl

@[simp] theorem run_done (outcome : Except ε α) (answers : Answers Q A) :
    (.done outcome : Dialogue Q A ε α).run answers = ([], outcome) := rfl

theorem run_ask (q : Q) (k : A q → Dialogue Q A ε α) (answers : Answers Q A) :
    (.ask q k : Dialogue Q A ε α).run answers =
      (⟨q, answers 0 q⟩ :: ((k (answers 0 q)).run fun n => answers (n + 1)).1,
        ((k (answers 0 q)).run fun n => answers (n + 1)).2) := rfl

/-! ### The outcome -/

def asked (d : Dialogue Q A ε α) (answers : Answers Q A) : Nat := (d.run answers).1.length

def left (d : Dialogue Q A ε α) (answers : Answers Q A) : Answers Q A :=
  fun n => answers (n + d.asked answers)

theorem left_ask (q : Q) (k : A q → Dialogue Q A ε α) (answers : Answers Q A) :
    (.ask q k : Dialogue Q A ε α).left answers =
      (k (answers 0 q)).left fun n => answers (n + 1) := by
  funext n
  simp only [left, asked, run_ask, List.length_cons, Nat.add_assoc]

/-- **The second part is answered from where the first one ended.** -/
theorem run_bind (f : α → Dialogue Q A ε β) : ∀ (d : Dialogue Q A ε α) (answers : Answers Q A),
    ((d >>= f).run answers).2 =
      match (d.run answers).2 with
      | .ok a => ((f a).run (d.left answers)).2
      | .error e => .error e := by
  intro d
  induction d with
  | done outcome =>
    intro answers
    cases outcome with
    | error e => rfl
    | ok a => rfl
  | ask q k ih =>
    intro answers
    rw [ask_bind, run_ask, run_ask, left_ask]
    exact ih (answers 0 q) fun n => answers (n + 1)

/-! ### Whatever the answers are -/

variable {P : Q → Prop} {R : α → Prop} {E : ε → Prop}

/-- Every question that may be asked satisfies `P`, every value that may come out `R`, and every
    exception `E`. -/
def Always (P : Q → Prop) (R : α → Prop) (E : ε → Prop) : Dialogue Q A ε α → Prop
  | .done outcome => (∀ a, outcome = .ok a → R a) ∧ ∀ e, outcome = .error e → E e
  | .ask q k => P q ∧ ∀ a, (k a).Always P R E

@[simp] theorem always_done (outcome : Except ε α) :
    (.done outcome : Dialogue Q A ε α).Always P R E ↔
      (∀ a, outcome = .ok a → R a) ∧ ∀ e, outcome = .error e → E e := Iff.rfl

@[simp] theorem always_ok (a : α) :
    (.done (.ok a) : Dialogue Q A ε α).Always P R E ↔ R a := by
  simp

@[simp] theorem always_error (e : ε) :
    (.done (.error e) : Dialogue Q A ε α).Always P R E ↔ E e := by
  simp

@[simp] theorem always_ask (q : Q) (k : A q → Dialogue Q A ε α) :
    (.ask q k : Dialogue Q A ε α).Always P R E ↔ P q ∧ ∀ a, (k a).Always P R E := Iff.rfl

@[simp] theorem always_ite {c : Prop} [Decidable c] {d d' : Dialogue Q A ε α} :
    (if c then d else d').Always P R E ↔ (c → d.Always P R E) ∧ (¬ c → d'.Always P R E) := by
  split
  · next h => simp [h]
  · next h => simp [h]

/-- **The rule for two parts.** -/
@[simp] theorem always_bind {R : β → Prop} {d : Dialogue Q A ε α} {f : α → Dialogue Q A ε β} :
    (d >>= f).Always P R E ↔ d.Always P (fun a => (f a).Always P R E) E := by
  induction d with
  | done outcome =>
    cases outcome with
    | error e => simp
    | ok a => simp
  | ask q k ih => simp only [ask_bind, always_ask, ih]

theorem always_answer :
    (∀ answer : Except ε α, (.done answer : Dialogue Q A ε α).Always P R fun _ => True) ↔
      ∀ a, R a := by
  constructor
  · exact fun h a => (h (.ok a)).1 a rfl
  · exact fun h answer => ⟨fun a _ => h a, fun _ _ => trivial⟩

theorem Always.mono {R' : α → Prop} {d : Dialogue Q A ε α} (hd : d.Always P R E)
    (hR : ∀ a, R a → R' a) : d.Always P R' E := by
  induction d with
  | done outcome => exact ⟨fun a ha => hR a (hd.1 a ha), hd.2⟩
  | ask q k ih => exact ⟨hd.1, fun a => ih a (hd.2 a)⟩

theorem Always.run {d : Dialogue Q A ε α} (hd : d.Always P R E) : ∀ answers : Answers Q A,
    (∀ e ∈ (d.run answers).1, P e.1) ∧ (∀ a, (d.run answers).2 = .ok a → R a) ∧
      ∀ e, (d.run answers).2 = .error e → E e := by
  induction d with
  | done outcome =>
    intro answers
    refine ⟨fun e he => ?_, hd⟩
    cases he
  | ask q k ih =>
    intro answers
    have hrest := ih (answers 0 q) (hd.2 _) fun n => answers (n + 1)
    refine ⟨fun e he => ?_, hrest.2⟩
    rcases List.mem_cons.mp he with rfl | he
    · exact hd.1
    · exact hrest.1 e he

/-- **What holds of every conversation holds all over the tree.** -/
theorem always_iff [∀ q, Nonempty (A q)] {d : Dialogue Q A ε α} :
    d.Always P R E ↔ ∀ answers : Answers Q A,
      (∀ e ∈ (d.run answers).1, P e.1) ∧ (∀ a, (d.run answers).2 = .ok a → R a) ∧
        ∀ e, (d.run answers).2 = .error e → E e := by
  refine ⟨Always.run, fun h => ?_⟩
  have answer : ∀ q, A q := fun q => Classical.choice inferInstance
  induction d with
  | done outcome => exact (h fun _ => answer).2
  | ask q k ih =>
    refine ⟨(h fun _ => answer).1 _ List.mem_cons_self, fun a => ih a fun answers => ?_⟩
    -- the answer `a` comes first, and then those given
    classical
    have hfirst : ∃ first : (q : Q) → A q, first q = a := by
      refine ⟨fun x => if hx : x = q then hx ▸ a else answer x, ?_⟩
      simp
    obtain ⟨first, hfirst⟩ := hfirst
    obtain ⟨hquestions, houtcome⟩ := h fun n => Nat.casesOn n first fun n => answers n
    have hrun : (k a).run answers = (k (first q)).run answers := by rw [hfirst]
    rw [hrun]
    exact ⟨fun e he => hquestions e (List.mem_cons_of_mem _ he), houtcome⟩

end Dialogue

end Albatross.Dialogues
