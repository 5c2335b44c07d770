/-
  Albatross/Runs.lean
  ===================
  **Runs of a labelled transition system.**

  A system is a partial step function; a run follows a list of labels.  What holds
  at the start and is kept by every step that a run may take holds where the run
  ends (`run_invariant`), also when the property speaks about the labels taken so
  far (`run_history`).

  `Takes` names the steps of a run.  A property that a step keeps exactly under a
  condition is kept by all the steps of a run exactly when they all meet it
  (`forall_takes_iff`).
-/
import Mathlib.Data.Option.Basic

namespace Albatross.Runs

variable {σ ι : Type} (step : σ → ι → Option σ)

def run (s : σ) : List ι → Option σ
  | [] => some s
  | l :: ls => (step s l).bind fun s' => run s' ls

@[simp] theorem run_nil (s : σ) : run step s [] = some s := rfl

@[simp] theorem run_cons (s : σ) (l : ι) (ls : List ι) :
    run step s (l :: ls) = (step s l).bind fun s' => run step s' ls := rfl

theorem run_append (l₁ l₂ : List ι) : ∀ s : σ,
    run step s (l₁ ++ l₂) = (run step s l₁).bind fun s' => run step s' l₂ := by
  induction l₁ with
  | nil => intro s; rfl
  | cons l l₁ ih =>
    intro s
    rw [List.cons_append, run_cons, run_cons, Option.bind_assoc]
    congr 1
    funext s'
    exact ih s'

variable {step}

theorem run_history {I : List ι → σ → Prop} {ls : List ι}
    (hstep : ∀ past s l s', l ∈ ls → I past s → step s l = some s' → I (past ++ [l]) s') :
    ∀ (past : List ι) {s s' : σ}, I past s → run step s ls = some s' → I (past ++ ls) s' := by
  induction ls with
  | nil =>
    intro past s s' h hrun
    cases hrun
    rw [List.append_nil]
    exact h
  | cons l ls ih =>
    intro past s s' h hrun
    obtain ⟨mid, hone, hrest⟩ := Option.bind_eq_some_iff.mp hrun
    have hmid : I (past ++ [l]) mid := hstep past s l mid List.mem_cons_self h hone
    have hlast := ih (fun p a k b hk => hstep p a k b (List.mem_cons_of_mem l hk)) _ hmid hrest
    rw [List.append_assoc] at hlast
    exact hlast

/-- **An invariant of the steps is an invariant of the runs.** -/
theorem run_invariant {I : σ → Prop} {ls : List ι}
    (hstep : ∀ s l s', l ∈ ls → I s → step s l = some s' → I s') {s s' : σ} (h : I s)
    (hrun : run step s ls = some s') : I s' :=
  run_history (fun _ a l b hl => hstep a l b hl) [] h hrun

/-! ### The steps of a run -/

variable (step) in
/-- The run over `ls` from `s₀` takes the step `l` from `s` to `s'`. -/
def Takes (s₀ : σ) (ls : List ι) (s : σ) (l : ι) (s' : σ) : Prop :=
  ∃ past rest, ls = past ++ l :: rest ∧ run step s₀ past = some s ∧ step s l = some s'

theorem Takes.one {s₀ s s' : σ} {ls : List ι} {l : ι} (h : Takes step s₀ ls s l s') :
    step s l = some s' := by
  obtain ⟨_, _, _, _, hone⟩ := h
  exact hone

theorem Takes.mem {s₀ s s' : σ} {ls : List ι} {l : ι} (h : Takes step s₀ ls s l s') : l ∈ ls := by
  obtain ⟨_, _, rfl, _, _⟩ := h
  simp

theorem not_takes_nil {s₀ s s' : σ} {l : ι} : ¬ Takes step s₀ [] s l s' := by
  rintro ⟨past, rest, hls, -⟩
  simp at hls

/-- The first step of a run and the steps of the run after it. -/
theorem takes_cons {s₀ s s' : σ} {k l : ι} {ls : List ι} :
    Takes step s₀ (k :: ls) s l s' ↔
      (s = s₀ ∧ l = k ∧ step s l = some s') ∨ ∃ mid, step s₀ k = some mid ∧
        Takes step mid ls s l s' := by
  constructor
  · rintro ⟨past, rest, hls, hrun, hone⟩
    cases past with
    | nil =>
      obtain ⟨rfl, rfl⟩ := List.cons.inj hls
      exact Or.inl ⟨(Option.some.inj hrun).symm, rfl, hone⟩
    | cons _ past =>
      obtain ⟨rfl, htail⟩ := List.cons.inj hls
      obtain ⟨mid, hfirst, hrun⟩ := Option.bind_eq_some_iff.mp hrun
      exact Or.inr ⟨mid, hfirst, past, rest, htail, hrun, hone⟩
  · rintro (⟨rfl, rfl, hone⟩ | ⟨mid, hfirst, past, rest, rfl, hrun, hone⟩)
    · exact ⟨[], ls, rfl, rfl, hone⟩
    · exact ⟨k :: past, rest, rfl, by rw [run_cons, hfirst]; exact hrun, hone⟩

/-- What holds of the steps of a run, one step at a time. -/
theorem forall_takes_cons {Q : σ → ι → Prop} {s₀ : σ} {k : ι} {ls : List ι} :
    (∀ s l s', Takes step s₀ (k :: ls) s l s' → Q s l) ↔ ∀ mid, step s₀ k = some mid →
      Q s₀ k ∧ ∀ s l s', Takes step mid ls s l s' → Q s l := by
  constructor
  · intro h mid hfirst
    refine ⟨h s₀ k mid (takes_cons.mpr (Or.inl ⟨rfl, rfl, hfirst⟩)), fun s l s' ht => ?_⟩
    exact h s l s' (takes_cons.mpr (Or.inr ⟨mid, hfirst, ht⟩))
  · intro h s l s' ht
    rcases takes_cons.mp ht with ⟨rfl, rfl, hone⟩ | ⟨mid, hfirst, hrest⟩
    · exact (h s' hone).1
    · exact (h mid hfirst).2 s l s' hrest

/-- Before each step of a run holds what holds at the start and is kept. -/
theorem Takes.before {I : σ → Prop} {s₀ s s' : σ} {ls : List ι} {l : ι}
    (h : Takes step s₀ ls s l s') (h₀ : I s₀)
    (hkeep : ∀ a k b, Takes step s₀ ls a k b → I a → I b) : I s := by
  induction ls generalizing s₀ with
  | nil => exact absurd h not_takes_nil
  | cons k ls ih =>
    rcases takes_cons.mp h with ⟨rfl, -, -⟩ | ⟨mid, hfirst, hrest⟩
    · exact h₀
    · have hmid : I mid := hkeep s₀ k mid (takes_cons.mpr (Or.inl ⟨rfl, rfl, hfirst⟩)) h₀
      exact ih hrest hmid fun a j b ht => hkeep a j b (takes_cons.mpr (Or.inr ⟨mid, hfirst, ht⟩))

theorem run_takes {I : σ → Prop} {s₀ s : σ} {ls : List ι} (h₀ : I s₀)
    (hkeep : ∀ a k b, Takes step s₀ ls a k b → I a → I b)
    (hrun : run step s₀ ls = some s) : I s := by
  induction ls generalizing s₀ with
  | nil =>
    cases hrun
    exact h₀
  | cons k ls ih =>
    obtain ⟨mid, hfirst, hrest⟩ := Option.bind_eq_some_iff.mp hrun
    have hmid : I mid := hkeep s₀ k mid (takes_cons.mpr (Or.inl ⟨rfl, rfl, hfirst⟩)) h₀
    exact ih hmid (fun a j b ht => hkeep a j b (takes_cons.mpr (Or.inr ⟨mid, hfirst, ht⟩))) hrest

theorem Takes.rest {s₀ s s' t : σ} {ls : List ι} {l : ι} (h : Takes step s₀ ls s l s')
    (hrun : run step s₀ ls = some t) : ∃ rest, run step s' rest = some t := by
  obtain ⟨past, rest, rfl, hpast, hone⟩ := h
  refine ⟨rest, ?_⟩
  rw [run_append, hpast, Option.bind_some, run_cons, hone, Option.bind_some] at hrun
  exact hrun

/-- **A property kept exactly by the steps that meet a condition** is kept throughout a run
    exactly when all its steps meet it. -/
theorem forall_takes_iff {I : σ → Prop} {Q : σ → ι → Prop} {s₀ : σ} {ls : List ι} (h₀ : I s₀)
    (hstep : ∀ s l s', Takes step s₀ ls s l s' → I s → (I s' ↔ Q s l)) :
    (∀ s l s', Takes step s₀ ls s l s' → I s') ↔ ∀ s l s', Takes step s₀ ls s l s' → Q s l := by
  constructor
  · intro h s l s' ht
    have hs : I s := ht.before h₀ fun a k b hab _ => h a k b hab
    exact (hstep s l s' ht hs).mp (h s l s' ht)
  · intro h s l s' ht
    have hs : I s := ht.before h₀ fun a k b hab ha => (hstep a k b hab ha).mpr (h a k b hab)
    exact (hstep s l s' ht hs).mpr (h s l s' ht)

end Albatross.Runs
