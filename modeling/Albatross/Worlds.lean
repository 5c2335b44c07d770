/-
  Albatross/Worlds.lean
  =====================
  **Dialogues with a world that answers.**

  A world answers what it is asked, and may be another world afterwards; `reacts w e w'` says which
  answers and which worlds are possible.  `Converses` is a whole conversation.  `Wp` says of
  all conversations from a world what they end with (`wp_iff`), and goes along the dialogue
  (`wp_ask`, `wp_bind`, `wp_attempt`).  `Returns` says so of the values only.

  Any number of parties may talk to one world at once, each with a dialogue of its own.  They
  ask in any order, and the world may also drift by itself (`Step`).  A property of the world
  and of what has been said is an invariant when no exchange breaks it
  (`Reaches.invariant`).  What a dialogue alone makes sure of, whatever it is answered, it
  makes sure of among the others (`Reaches.alone`).
-/
import Albatross.Dialogues
import Mathlib.Logic.Function.Basic
import Mathlib.Logic.Relation

namespace Albatross.Dialogues

/-- In `w` the question of `e` may get the answer of `e`, and leave `w'`. -/
abbrev Reaction {Q : Type} (A : Q → Type) (ω : Type) := ω → Exchange A → ω → Prop

namespace Dialogue

variable {Q : Type} {A : Q → Type} {ε α β ω : Type}

def attempt : Dialogue Q A ε α → Dialogue Q A ε (Except ε α)
  | .done outcome => .done (.ok outcome)
  | .ask q k => .ask q fun a => (k a).attempt

@[simp] theorem attempt_done (outcome : Except ε α) :
    (.done outcome : Dialogue Q A ε α).attempt = .done (.ok outcome) := rfl

@[simp] theorem attempt_ask (q : Q) (k : A q → Dialogue Q A ε α) :
    (.ask q k : Dialogue Q A ε α).attempt = .ask q fun a => (k a).attempt := rfl

/-! ### One dialogue -/

section

variable (reacts : Reaction A ω)

inductive Converses : ω → Dialogue Q A ε α → ω → Except ε α → Prop where
  | done (w : ω) (outcome : Except ε α) : Converses w (.done outcome) w outcome
  | ask {w w₁ w' : ω} {q : Q} {a : A q} {k : A q → Dialogue Q A ε α} {outcome : Except ε α}
      (hreacts : reacts w ⟨q, a⟩ w₁) (hrest : Converses w₁ (k a) w' outcome) :
      Converses w (.ask q k) w' outcome

/-- Whatever the world answers, at the end `R` holds of the world and the outcome. -/
def Wp (R : ω → Except ε α → Prop) : Dialogue Q A ε α → ω → Prop
  | .done outcome, w => R w outcome
  | .ask q k, w => ∀ a w', reacts w ⟨q, a⟩ w' → (k a).Wp R w'

end

variable {reacts : Reaction A ω} {R : ω → Except ε α → Prop} {w : ω}

@[simp] theorem wp_done (outcome : Except ε α) :
    (.done outcome : Dialogue Q A ε α).Wp reacts R w ↔ R w outcome := Iff.rfl

theorem wp_ask (q : Q) (k : A q → Dialogue Q A ε α) :
    (.ask q k : Dialogue Q A ε α).Wp reacts R w ↔
      ∀ a w', reacts w ⟨q, a⟩ w' → (k a).Wp reacts R w' := Iff.rfl

/-- What is to hold between the two parts of a dialogue. -/
def between (reacts : Reaction A ω) (R : ω → Except ε β → Prop) (f : α → Dialogue Q A ε β) (w : ω) :
    Except ε α → Prop
  | .ok a => (f a).Wp reacts R w
  | .error e => R w (.error e)

@[simp] theorem between_ok {R : ω → Except ε β → Prop} (f : α → Dialogue Q A ε β) (a : α) :
    between reacts R f w (.ok a) ↔ (f a).Wp reacts R w := Iff.rfl

@[simp] theorem between_error {R : ω → Except ε β → Prop} (f : α → Dialogue Q A ε β) (e : ε) :
    between reacts R f w (.error e) ↔ R w (.error e) := Iff.rfl

/-- **The rule for two parts.** -/
theorem wp_bind {R : ω → Except ε β → Prop} {d : Dialogue Q A ε α} {f : α → Dialogue Q A ε β} :
    (d >>= f).Wp reacts R w ↔ d.Wp reacts (between reacts R f) w := by
  induction d generalizing w with
  | done outcome =>
    cases outcome with
    | error e => rfl
    | ok a => rfl
  | ask q k ih =>
    rw [ask_bind, wp_ask, wp_ask]
    exact forall_congr' fun a => forall_congr' fun w' => imp_congr_right fun _ => ih a

theorem wp_attempt {R : ω → Except ε (Except ε α) → Prop} {d : Dialogue Q A ε α} :
    d.attempt.Wp reacts R w ↔ d.Wp reacts (fun w outcome => R w (.ok outcome)) w := by
  induction d generalizing w with
  | done outcome => rfl
  | ask q k ih =>
    rw [attempt_ask, wp_ask, wp_ask]
    exact forall_congr' fun a => forall_congr' fun w' => imp_congr_right fun _ => ih a

theorem Wp.mono {R' : ω → Except ε α → Prop} {d : Dialogue Q A ε α} (hd : d.Wp reacts R w)
    (hR : ∀ w outcome, R w outcome → R' w outcome) : d.Wp reacts R' w := by
  induction d generalizing w with
  | done outcome => exact hR w outcome hd
  | ask q k ih => exact fun a w' hreacts => ih a (hd a w' hreacts)

/-- **Of all conversations.** -/
theorem wp_iff {d : Dialogue Q A ε α} : d.Wp reacts R w ↔
    ∀ w' outcome, Converses reacts w d w' outcome → R w' outcome := by
  constructor
  · intro hd w' outcome hconverses
    induction hconverses with
    | done w outcome => exact hd
    | ask hreacts _ ih => exact ih (hd _ _ hreacts)
  · intro h
    induction d generalizing w with
    | done outcome => exact h w outcome (.done w outcome)
    | ask q k ih =>
      exact fun a w' hreacts => ih a fun w'' outcome hrest => h w'' outcome (.ask hreacts hrest)

theorem Converses.map {ω' : Type} {reacts' : Reaction A ω'} {d : Dialogue Q A ε α} {w' : ω}
    {outcome : Except ε α} (f : ω → ω')
    (hreacts : ∀ w e w', reacts w e w' → reacts' (f w) e (f w'))
    (h : Converses reacts w d w' outcome) : Converses reacts' (f w) d (f w') outcome := by
  induction h with
  | done w outcome => exact .done (f w) outcome
  | ask hone _ ih => exact .ask (hreacts _ _ _ hone) ih

/-- A value that is returned satisfies `R`, in the world that is left. -/
def Returns (reacts : Reaction A ω) (R : ω → α → Prop) (d : Dialogue Q A ε α) (w : ω) : Prop :=
  d.Wp reacts (fun w outcome => ∀ a, outcome = .ok a → R w a) w

@[simp] theorem returns_ok {R : ω → α → Prop} (a : α) :
    (.done (.ok a) : Dialogue Q A ε α).Returns reacts R w ↔ R w a := by
  simp [Returns]

@[simp] theorem returns_error {R : ω → α → Prop} (e : ε) :
    (.done (.error e) : Dialogue Q A ε α).Returns reacts R w := by
  simp [Returns]

theorem returns_bind {R : ω → β → Prop} {d : Dialogue Q A ε α} {f : α → Dialogue Q A ε β} :
    (d >>= f).Returns reacts R w ↔ d.Returns reacts (fun w a => (f a).Returns reacts R w) w := by
  unfold Returns
  rw [wp_bind]
  have hsame : between reacts (fun w outcome => ∀ b, outcome = .ok b → R w b) f =
      fun w outcome => ∀ a, outcome = .ok a → (f a).Returns reacts R w := by
    funext w outcome
    cases outcome with
    | error e => simp
    | ok a => simp [Returns]
  rw [hsame]
  rfl

theorem Returns.mono {R R' : ω → α → Prop} {d : Dialogue Q A ε α} (hd : d.Returns reacts R w)
    (hR : ∀ w a, R w a → R' w a) : d.Returns reacts R' w :=
  Wp.mono hd fun w _ h a ha => hR w a (h a ha)

/-- A dialogue that leaves the world as it is. -/
def Quiet (reacts : Reaction A ω) (d : Dialogue Q A ε α) : Prop :=
  ∀ w, d.Wp reacts (fun w' _ => w' = w) w

@[simp] theorem quiet_done (outcome : Except ε α) :
    Quiet reacts (.done outcome : Dialogue Q A ε α) := fun _ => rfl

theorem quiet_ask {q : Q} {k : A q → Dialogue Q A ε α}
    (hreacts : ∀ w a w', reacts w ⟨q, a⟩ w' → w' = w) (hk : ∀ a, Quiet reacts (k a)) :
    Quiet reacts (.ask q k) := by
  intro w a w' h
  obtain rfl := hreacts w a w' h
  exact hk a w'

theorem Quiet.bind {d : Dialogue Q A ε α} {f : α → Dialogue Q A ε β} (hd : Quiet reacts d)
    (hf : ∀ a, Quiet reacts (f a)) : Quiet reacts (d >>= f) := by
  intro w
  refine wp_bind.mpr ((hd w).mono fun w' outcome hw => ?_)
  subst hw
  cases outcome with
  | error e => rfl
  | ok a => exact hf a w'

theorem Quiet.attempt {d : Dialogue Q A ε α} (hd : Quiet reacts d) : Quiet reacts d.attempt :=
  fun w => wp_attempt.mpr (hd w)

theorem Quiet.returns {R : ω → α → Prop} {d : Dialogue Q A ε α} (hd : Quiet reacts d)
    (hR : ∀ a, R w a) : d.Returns reacts R w := by
  refine (hd w).mono fun w' outcome hw a _ => ?_
  subst hw
  exact hR a

/-- A caught exception of a quiet dialogue leaves the world to what follows. -/
theorem Quiet.returns_attempt {R : ω → α → Prop} {d : Dialogue Q A ε α} (hd : Quiet reacts d)
    (hR : d.Returns reacts R w) :
    d.attempt.Returns reacts (fun w' result => w' = w ∧ ∀ a, result = .ok a → R w a) w := by
  have hboth : d.Wp reacts (fun w' outcome => w' = w ∧ ∀ a, outcome = .ok a → R w' a) w := by
    refine wp_iff.mpr fun w' outcome h => ⟨wp_iff.mp (hd w) w' outcome h, ?_⟩
    exact wp_iff.mp hR w' outcome h
  refine wp_attempt.mpr (hboth.mono ?_)
  rintro w' outcome ⟨rfl, h⟩ _ hresult
  cases hresult
  exact ⟨rfl, h⟩

def Remembers : Reaction A (List (Exchange A)) := fun past e now => now = past ++ [e]

/-- **What is remembered is what was said.** -/
theorem Wp.run {R : List (Exchange A) → Except ε α → Prop} {d : Dialogue Q A ε α}
    {past : List (Exchange A)} (hd : d.Wp Remembers R past) (answers : Answers Q A) :
    R (past ++ (d.run answers).1) (d.run answers).2 := by
  induction d generalizing past answers with
  | done outcome => simpa using hd
  | ask q k ih =>
    have hrest := ih _ (hd (answers 0 q) _ rfl) fun n => answers (n + 1)
    rw [List.append_assoc] at hrest
    exact hrest

end Dialogue

/-! ### Many parties -/

/-- The world, what each party has said and been told, and the rest of its dialogue. -/
structure Scene (ω ι : Type) (Q : Type) (A : Q → Type) (ε α : Type) where
  world : ω
  said : ι → List (Exchange A)
  now : ι → Dialogue Q A ε α

section Parties

variable {ω ι Q : Type} {A : Q → Type} {ε α : Type} [DecidableEq ι]

def Scene.start (w : ω) (dialogues : ι → Dialogue Q A ε α) : Scene ω ι Q A ε α :=
  ⟨w, fun _ => [], dialogues⟩

variable (reacts : ι → Reaction A ω) (drifts : ω → ω → Prop)

/-- One party asks and is answered, or the world drifts. -/
inductive Step : Scene ω ι Q A ε α → Scene ω ι Q A ε α → Prop where
  | speak {s : Scene ω ι Q A ε α} {i : ι} {q : Q} {a : A q} {k : A q → Dialogue Q A ε α} {w' : ω}
      (hnow : s.now i = .ask q k) (hreacts : reacts i s.world ⟨q, a⟩ w') :
      Step s ⟨w', Function.update s.said i (s.said i ++ [⟨q, a⟩]), Function.update s.now i (k a)⟩
  | drift {s : Scene ω ι Q A ε α} {w' : ω} (hdrifts : drifts s.world w') :
      Step s ⟨w', s.said, s.now⟩

abbrev Reaches : Scene ω ι Q A ε α → Scene ω ι Q A ε α → Prop :=
  Relation.ReflTransGen (Step reacts drifts)

variable {reacts drifts} {s t : Scene ω ι Q A ε α}

theorem mem_update_said {said : ι → List (Exchange A)} {i j : ι} {e x : Exchange A} :
    x ∈ Function.update said i (said i ++ [e]) j ↔ x ∈ said j ∨ j = i ∧ x = e := by
  by_cases hij : j = i
  · subst hij
    simp
  · simp [hij]

theorem Step.said_mono (h : Step reacts drifts s t) {i : ι} {e : Exchange A} (he : e ∈ s.said i) :
    e ∈ t.said i := by
  cases h with
  | drift hdrifts => exact he
  | speak hnow hreacts => exact mem_update_said.mpr (Or.inl he)

/-- What the world's reactions bear out is true of all that has been said. -/
theorem Reaches.said {P : ι → Exchange A → Prop} (h : Reaches reacts drifts s t)
    (hreacts : ∀ i w e w', reacts i w e w' → P i e) (hsaid : ∀ i, ∀ e ∈ s.said i, P i e) :
    ∀ i, ∀ e ∈ t.said i, P i e := by
  induction h with
  | refl => exact hsaid
  | tail _ hstep ih =>
    cases hstep with
    | drift hdrifts => exact ih
    | speak hnow hone =>
      intro j x hx
      rcases mem_update_said.mp hx with hx | ⟨rfl, rfl⟩
      · exact ih j x hx
      · exact hreacts _ _ _ _ hone

/-- **The invariant rule**, where `Good` holds of all that is said. -/
theorem Reaches.invariant {Good : Exchange A → Prop} {I : ω → (ι → List (Exchange A)) → Prop}
    (h : Reaches reacts drifts s t)
    (hspeak : ∀ i w said e w', Good e → reacts i w e w' → I w said →
      I w' (Function.update said i (said i ++ [e])))
    (hdrift : ∀ w said w', drifts w w' → I w said → I w' said)
    (hgood : ∀ i, ∀ e ∈ t.said i, Good e) (hstart : I s.world s.said) : I t.world t.said := by
  induction h with
  | refl => exact hstart
  | tail _ hstep ih =>
    have hbefore := ih fun i e he => hgood i e (hstep.said_mono he)
    cases hstep with
    | drift hdrifts => exact hdrift _ _ _ hdrifts hbefore
    | speak hnow hreacts =>
      exact hspeak _ _ _ _ _ (hgood _ _ (mem_update_said.mpr (Or.inr ⟨rfl, rfl⟩))) hreacts hbefore

variable (reacts drifts) in
/-- **A conversation that one party holds while the others are silent.** -/
theorem Dialogue.Converses.reaches {alone : Reaction A ω} {P : Exchange A → Prop} {i : ι}
    {w w' : ω} {d : Dialogue Q A ε α} {outcome : Except ε α}
    (h : Dialogue.Converses alone w d w' outcome)
    (halone : ∀ w e w', alone w e w' → reacts i w e w' ∧ P e)
    (hworld : s.world = w) (hnow : s.now i = d) :
    ∃ t, Reaches reacts drifts s t ∧ t.world = w' ∧ t.now i = .done outcome ∧
      (∀ e ∈ t.said i, e ∈ s.said i ∨ P e) ∧
        ∀ j, j ≠ i → t.said j = s.said j ∧ t.now j = s.now j := by
  induction h generalizing s with
  | done w outcome =>
    exact ⟨s, .refl, hworld, hnow, fun _ he => Or.inl he, fun _ _ => ⟨rfl, rfl⟩⟩
  | @ask w w₁ w' q a k outcome hone _ ih =>
    subst hworld
    obtain ⟨hreacts, hP⟩ := halone _ _ _ hone
    obtain ⟨t, hreaches, hworld, hdone, hsaid, hothers⟩ :=
      ih (s := ⟨w₁, Function.update s.said i (s.said i ++ [⟨q, a⟩]),
        Function.update s.now i (k a)⟩) rfl (Function.update_self ..)
    refine ⟨t, .head (.speak hnow hreacts) hreaches, hworld, hdone, fun e he => ?_, fun j hj => ?_⟩
    · rcases hsaid e he with he | he
      · rcases mem_update_said.mp he with he | ⟨-, rfl⟩
        · exact Or.inl he
        · exact Or.inr hP
      · exact Or.inr he
    · have hother := hothers j hj
      simpa only [Function.update_of_ne hj] using hother

/-! What one dialogue makes sure of. -/

variable {σ : Type}

/-- A watcher notes good exchanges, and meets no others. -/
def Watches (watch : σ → Exchange A → σ) (Good : Exchange A → Prop) : Reaction A σ :=
  fun n e n' => Good e ∧ n' = watch n e

/-- **The watcher of one party** sees among the others what it sees of the dialogue alone. -/
theorem Reaches.alone {watch : σ → Exchange A → σ} {Good : Exchange A → Prop}
    {R : σ → Except ε α → Prop} {n : σ} {w : ω} {dialogues : ι → Dialogue Q A ε α} {i : ι}
    (h : Reaches reacts drifts (.start w dialogues) t)
    (hgood : ∀ e ∈ t.said i, Good e)
    (hwp : (dialogues i).Wp (Watches watch Good) R n) :
    (t.now i).Wp (Watches watch Good) R ((t.said i).foldl watch n) := by
  induction h with
  | refl => exact hwp
  | tail _ hstep ih =>
    have hbefore := ih fun e he => hgood e (hstep.said_mono he)
    cases hstep with
    | drift hdrifts => exact hbefore
    | @speak j q a k w' hnow hreacts =>
      by_cases hij : i = j
      · subst hij
        have hlast := hgood _ (mem_update_said.mpr (Or.inr ⟨rfl, rfl⟩))
        simp only [Function.update_self, List.foldl_append, List.foldl_cons, List.foldl_nil]
        rw [hnow, Dialogue.wp_ask] at hbefore
        exact hbefore a _ ⟨hlast, rfl⟩
      · simp only [Function.update_of_ne hij]
        exact hbefore

end Parties

end Albatross.Dialogues
