/-
  Albatross/LogClose.lean
  =======================
  **Whether closing the rolling logger loses a line.**

  The writer looks at the queue for the last time when it leaves its drain, and `close`
  returns after it has ended.  A thread that has passed the check of `running` earlier
  may enqueue after that look; nobody takes its line from the queue.  When all calls
  have returned, every enqueued line is in a file exactly when no line was enqueued so
  late (`all_written_iff`).
-/
import Albatross.LogLines

namespace Albatross.RollingLogger

open Assoc Runs
open Registry (JavaString)

/-- A `close` has returned, and every call of `log`. -/
structure Quiescent (s : Logger) : Prop where
  closed : ∃ t, s.closers t = .returned
  logged : ∀ t, s.producers t = none

section Step

variable {cfg : Config} {s s' : Logger}

/-- What a step of the writer does to the queue, before its last look and after it. -/
theorem writerStep_past (hinv : Inv cfg s) {op : WriterOp} (h : writerStep cfg s op = some s') :
    (s.writer.past = true ∧ s'.writer.past = true ∧ s'.logQueue = s.logQueue) ∨
      (s.writer.past = false ∧ (s'.writer.past = true → s'.logQueue = [])) := by
  cases op with
  | readRunning =>
    obtain ⟨hwriter, hs'⟩ := Option.ite_none_right_eq_some.mp h
    cases hs'
    refine Or.inr ⟨by rw [hwriter]; rfl, fun hpast => ?_⟩
    dsimp only at hpast
    split at hpast <;> cases hpast
  | critical now =>
    obtain ⟨hwriter, hs'⟩ := Option.ite_none_right_eq_some.mp h
    refine Or.inr ⟨by rcases hwriter with hwriter | hwriter <;> rw [hwriter] <;> rfl,
      fun hpast => ?_⟩
    split at hs' <;> cases hs' <;> cases hpast
  | decide now =>
    obtain ⟨hwriter, hs'⟩ := Option.ite_none_right_eq_some.mp h
    refine Or.inr ⟨by rw [hwriter]; rfl, fun hpast => ?_⟩
    split at hs' <;> cases hs' <;> cases hpast
  | beginBatch today =>
    obtain ⟨final, hwriter, rfl⟩ := beginBatch_eq_some.mp h
    have hqueue := (@rollIfNeeded_filesOnly cfg s today).logQueue
    cases final with
    | true => exact Or.inl ⟨by rw [hwriter]; rfl, rfl, hqueue⟩
    | false => exact Or.inr ⟨by rw [hwriter]; rfl, fun hpast => by cases hpast⟩
  | writeNext index =>
    obtain ⟨final, line, rest, s₁, hwriter, hwrite, rfl⟩ := writeNext_eq_some.mp h
    obtain ⟨file, hwrote⟩ := writeLine_wrote hinv.stream hwrite
    cases final with
    | true => exact Or.inl ⟨by rw [hwriter]; rfl, rfl, hwrote.logQueue⟩
    | false => exact Or.inr ⟨by rw [hwriter]; rfl, fun hpast => by cases hpast⟩
  | endBatch now =>
    rcases endBatch_eq_some.mp h with ⟨hwriter, rfl⟩ | ⟨hwriter, rfl⟩
    · exact Or.inr ⟨by rw [hwriter]; rfl, fun hpast => by cases hpast⟩
    · exact Or.inl ⟨by rw [hwriter]; rfl, rfl, rfl⟩
  | drainCheck =>
    obtain ⟨hwriter, hs'⟩ := Option.ite_none_right_eq_some.mp h
    cases hs'
    refine Or.inr ⟨by rw [hwriter]; rfl, fun hpast => ?_⟩
    by_contra hqueue
    dsimp only at hpast hqueue
    rw [if_neg hqueue] at hpast
    cases hpast
  | poll =>
    obtain ⟨hwriter, hs'⟩ := Option.ite_none_right_eq_some.mp h
    cases hs'
    refine Or.inr ⟨by rw [hwriter]; rfl, fun hpast => ?_⟩
    unfold poll at hpast ⊢
    split at hpast
    · next hqueue =>
      rw [hqueue]
    · dsimp only at hpast
      rw [hwriter] at hpast
      cases hpast
  | finish =>
    obtain ⟨hwriter, hs'⟩ := Option.ite_none_right_eq_some.mp h
    cases hs'
    refine Or.inl ⟨by rw [hwriter]; rfl, ?_, rfl⟩
    dsimp only
    split <;> rfl

theorem step_past (hinv : Inv cfg s) {op : Op} (h : step cfg s op = some s') :
    (∃ t line, op = .enqueue t ∧ s'.writer = s.writer ∧ s'.logQueue = s.logQueue ++ [line]) ∨
      (s.writer.past = true ∧ s'.writer.past = true ∧ s'.logQueue = s.logQueue) ∨
      (s.writer.past = false ∧ (s'.writer.past = true → s'.logQueue = [])) := by
  -- a step that leaves the writer and the queue alone
  have halone : s'.writer = s.writer → s'.logQueue = s.logQueue →
      (s.writer.past = true ∧ s'.writer.past = true ∧ s'.logQueue = s.logQueue) ∨
        (s.writer.past = false ∧ (s'.writer.past = true → s'.logQueue = [])) := by
    intro hwriter hqueue
    rw [hwriter]
    cases hpast : s.writer.past with
    | true => exact Or.inl ⟨rfl, rfl, hqueue⟩
    | false => exact Or.inr ⟨rfl, fun h => by cases h⟩
  cases op with
  | log t timestamp message =>
    obtain ⟨-, hs'⟩ := Option.ite_none_right_eq_some.mp h
    split at hs' <;> cases hs' <;> exact Or.inr (halone rfl rfl)
  | enqueue t =>
    have h : enqueue t s = some s' := h
    unfold enqueue at h
    split at h
    · cases h
    · next line _ =>
      cases h
      exact Or.inl ⟨t, line, rfl, rfl, rfl⟩
  | flush t =>
    cases h
    exact Or.inr (halone rfl rfl)
  | close t =>
    obtain ⟨-, hs'⟩ := Option.ite_none_right_eq_some.mp h
    cases hs'
    exact Or.inr (halone rfl rfl)
  | closeFlush t =>
    obtain ⟨-, hs'⟩ := Option.ite_none_right_eq_some.mp h
    cases hs'
    exact Or.inr (halone rfl rfl)
  | closeJoin t =>
    obtain ⟨-, hs'⟩ := Option.ite_none_right_eq_some.mp h
    cases hs'
    exact Or.inr (halone rfl rfl)
  | closeFile t =>
    obtain ⟨-, hs'⟩ := Option.ite_none_right_eq_some.mp h
    cases hs'
    exact Or.inr (halone (safeCloseFos_filesOnly s).writer (safeCloseFos_filesOnly s).logQueue)
  | writer op => exact Or.inr (writerStep_past hinv h)

end Step

section Run

variable {cfg : Config} {ops : List Op} {s : Logger}

theorem inv_of_takes {s' : Logger} {op : Op}
    (htakes : Takes (step cfg) (Logger.start cfg) ops s op s') : Inv cfg s :=
  htakes.before Inv.start fun _ _ _ hone hinv => hinv.step hone.one

/-- With no late enqueue the queue stays empty after the last look at it. -/
theorem logQueue_eq_nil_of_past (hrun : run (step cfg) (Logger.start cfg) ops = some s)
    (hearly : ∀ a t b, Takes (step cfg) (Logger.start cfg) ops a (.enqueue t) b →
      a.writer.past = false) : s.writer.past = true → s.logQueue = [] := by
  refine run_takes (I := fun s => s.writer.past = true → s.logQueue = []) (fun _ => rfl)
    (fun a op b htakes ha hb => ?_) hrun
  rcases step_past (inv_of_takes htakes) htakes.one with
    ⟨t, line, rfl, hwriter, -⟩ | ⟨hpast, -, hqueue⟩ | ⟨-, hqueue⟩
  · have hno := hearly a t b htakes
    rw [hwriter, hno] at hb
    cases hb
  · rw [hqueue]
    exact ha hpast
  · exact hqueue hb

/-- A line that is enqueued after the last look at the queue stays there. -/
theorem logQueue_ne_nil_of_late (hrun : run (step cfg) (Logger.start cfg) ops = some s)
    {a b : Logger} {t : Nat} (htakes : Takes (step cfg) (Logger.start cfg) ops a (.enqueue t) b)
    (hlate : a.writer.past = true) : s.logQueue ≠ [] := by
  obtain ⟨rest, hrest⟩ := htakes.rest hrun
  have hinv : Inv cfg a := inv_of_takes htakes
  have hb : Inv cfg b ∧ b.writer.past = true ∧ b.logQueue ≠ [] := by
    refine ⟨hinv.step htakes.one, ?_⟩
    rcases step_past hinv htakes.one with
      ⟨_, line, _, hwriter, hqueue⟩ | ⟨-, hpast, hqueue⟩ | ⟨hpast, -⟩
    · rw [hwriter, hqueue]
      exact ⟨hlate, by simp⟩
    · have hone : enqueue t a = some b := htakes.one
      unfold enqueue at hone
      split at hone
      · cases hone
      · cases hone
        exact ⟨hpast, by simp⟩
    · rw [hlate] at hpast
      cases hpast
  refine (run_invariant (I := fun s => Inv cfg s ∧ s.writer.past = true ∧ s.logQueue ≠ [])
    (fun c op c' _ hc hone => ⟨hc.1.step hone, ?_⟩) hb hrest).2.2
  obtain ⟨hinv, hpast, hqueue⟩ := hc
  rcases step_past hinv hone with ⟨_, line, _, hwriter, happend⟩ | ⟨-, hpast', hsame⟩ | ⟨hno, -⟩
  · rw [hwriter, happend]
    exact ⟨hpast, by simp⟩
  · rw [hsame]
    exact ⟨hpast', hqueue⟩
  · rw [hpast] at hno
    cases hno

/-- **When closing loses nothing.**  Once a `close` and all calls of `log` have returned, the files
    hold the start line and every enqueued line exactly when no line was enqueued after
    the writer's last look at the queue. -/
theorem all_written_iff (hrun : run (step cfg) (Logger.start cfg) ops = some s) (hq : Quiescent s) :
    s.written.map Prod.snd = cfg.startLine :: s.enqueued ↔
      ∀ a t b, Takes (step cfg) (Logger.start cfg) ops a (.enqueue t) b →
        a.writer.past = false := by
  have hinv := inv_of_run hrun
  obtain ⟨u, hu⟩ := hq.closed
  have hended : s.writer = .ended := hinv.joined u (Or.inr hu)
  have hlines := hinv.lines
  rw [Logger.unwritten, hended, List.append_nil] at hlines
  have hpast : s.writer.past = true := by rw [hended]; rfl
  constructor
  · intro hall a t b htakes
    by_contra hlate
    refine logQueue_ne_nil_of_late hrun htakes (by simpa using hlate) ?_
    rw [hall] at hlines
    exact List.self_eq_append_right.mp hlines.symm
  · intro hearly
    rw [logQueue_eq_nil_of_past hrun hearly hpast, List.append_nil] at hlines
    exact hlines

end Run

/-- `close` after a line has been logged. -/
def loggedThenClosed : List Op :=
  [.log 0 ['1'] ['x'], .enqueue 0, .close 1, .closeFlush 1, .writer .readRunning,
    .writer .drainCheck, .writer .poll, .writer .poll, .writer .finish, .writer (.beginBatch ['d']),
    .writer (.writeNext 0), .writer (.writeNext 1), .writer (.endBatch 0), .closeJoin 1,
    .closeFile 1]

/-- `close` between the check of `running` and the enqueue. -/
def closedBetween : List Op :=
  [.log 0 ['1'] ['x'], .close 1, .closeFlush 1, .writer .readRunning, .writer .drainCheck,
    .writer .finish, .writer (.beginBatch ['d']), .writer (.writeNext 0), .writer (.endBatch 0),
    .enqueue 0, .closeJoin 1, .closeFile 1]

theorem all_written_iff_loggedThenClosed : ∃ s,
    run (step smallFiles) (Logger.start smallFiles) loggedThenClosed = some s ∧ Quiescent s ∧
      (s.written.map Prod.snd = smallFiles.startLine :: s.enqueued ↔
        ∀ a t b,
          Takes (step smallFiles) (Logger.start smallFiles) loggedThenClosed a (.enqueue t) b →
          a.writer.past = false) := by
  have hrun : run (step smallFiles) (Logger.start smallFiles) loggedThenClosed = some _ := rfl
  have hall := all_written_iff hrun ⟨⟨1, rfl⟩, fun t => by rcases t with _ | t <;> rfl⟩
  exact ⟨_, hrun, ⟨⟨1, rfl⟩, fun t => by rcases t with _ | t <;> rfl⟩, hall⟩

/-- The line is enqueued after the writer's last look, and written nowhere. -/
theorem not_all_written : ∃ s,
    run (step smallFiles) (Logger.start smallFiles) closedBetween = some s ∧ Quiescent s ∧
      s.enqueued = [logLine ['1'] ['x']] ∧ s.written.map Prod.snd = [smallFiles.startLine] ∧
      s.logQueue = [logLine ['1'] ['x']] := by
  refine ⟨_, rfl, ⟨⟨1, rfl⟩, fun t => ?_⟩, rfl, rfl, rfl⟩
  rcases t with _ | t <;> rfl

end Albatross.RollingLogger
