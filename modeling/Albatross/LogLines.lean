/-
  Albatross/LogLines.lean
  =======================
  **No line of the rolling logger is lost, duplicated or reordered on its way** from the
  queue over the batch to a file, and each file holds what was written to it, roll-overs
  included (`lines_conserved`).
-/
import Albatross.RollingLogger

namespace Albatross.RollingLogger

open Assoc Runs
open Registry (JavaString)

/-! ### File operations -/

/-- Only the stream and the files differ, and no file has other lines. -/
structure FilesOnly (s s' : Logger) : Prop where
  running : s'.running = s.running
  logQueue : s'.logQueue = s.logQueue
  writer : s'.writer = s.writer
  batch : s'.batch = s.batch
  closers : s'.closers = s.closers
  enqueued : s'.enqueued = s.enqueued
  written : s'.written = s.written
  linesOf : ∀ file, s'.linesOf file = s.linesOf file

theorem FilesOnly.trans {s s' s'' : Logger} (h : FilesOnly s s') (h' : FilesOnly s' s'') :
    FilesOnly s s'' where
  running := h'.running.trans h.running
  logQueue := h'.logQueue.trans h.logQueue
  writer := h'.writer.trans h.writer
  batch := h'.batch.trans h.batch
  closers := h'.closers.trans h.closers
  enqueued := h'.enqueued.trans h.enqueued
  written := h'.written.trans h.written
  linesOf file := (h'.linesOf file).trans (h.linesOf file)

theorem FilesOnly.of_disk_eq {s : Logger} (currentFile fos currentDateStr : Option JavaString) :
    FilesOnly s
      { s with currentFile := currentFile, fos := fos, currentDateStr := currentDateStr } :=
  ⟨rfl, rfl, rfl, rfl, rfl, rfl, rfl, fun _ => rfl⟩

theorem linesOf_insert (s : Logger) (file file' : JavaString) (f : File) :
    ({ s with disk := s.disk.insert file f }).linesOf file' =
      if file' = file then f.lines else s.linesOf file' := by
  unfold Logger.linesOf
  by_cases h : file' = file
  · subst h
    simp [AList.lookup_insert]
  · simp [AList.lookup_insert_ne h, h]

/-- Making an empty file where there is none changes the lines of no file. -/
theorem FilesOnly.create {s : Logger} {file : JavaString} (h : s.disk.lookup file = none) :
    FilesOnly s { s with disk := s.disk.insert file ⟨0, []⟩ } := by
  refine ⟨rfl, rfl, rfl, rfl, rfl, rfl, rfl, fun file' => ?_⟩
  rw [linesOf_insert]
  split
  · next heq =>
    unfold Logger.linesOf
    rw [heq, h]
  · rfl

section Files

variable {cfg : Config} {s s' : Logger}

theorem safeCloseFos_filesOnly (s : Logger) : FilesOnly s (safeCloseFos s) := by
  unfold safeCloseFos
  split
  · exact FilesOnly.of_disk_eq s.currentFile s.fos s.currentDateStr
  · exact FilesOnly.of_disk_eq none none s.currentDateStr

theorem openAppend_filesOnly (file : JavaString) (s : Logger) :
    FilesOnly s (openAppend file s) := by
  unfold openAppend
  split
  · next h => exact (FilesOnly.create h).trans (FilesOnly.of_disk_eq _ _ _)
  · exact FilesOnly.of_disk_eq _ _ _

theorem rollIfNeeded_filesOnly (today : JavaString) : FilesOnly s (rollIfNeeded cfg today s) := by
  unfold rollIfNeeded
  split
  · have hclose := safeCloseFos_filesOnly s
    exact (hclose.trans (FilesOnly.of_disk_eq _ _ _)).trans (openAppend_filesOnly _ _)
  · exact FilesOnly.of_disk_eq s.currentFile s.fos s.currentDateStr

theorem rollOverSameDay_filesOnly {index : Nat} (h : rollOverSameDay cfg index s = some s') :
    FilesOnly s s' := by
  unfold rollOverSameDay at h
  obtain ⟨hstops, hs'⟩ := Option.ite_none_right_eq_some.mp h
  cases hs'
  have hclose := safeCloseFos_filesOnly s
  have hdisk : (safeCloseFos s).disk = s.disk := by
    unfold safeCloseFos
    split
    · rfl
    · rfl
  have hfresh := hstops.2.1
  rw [← hdisk] at hfresh
  exact hclose.trans ((FilesOnly.create hfresh).trans (FilesOnly.of_disk_eq _ _ _))

/-- `line` has been written to `file`, on which the stream is open. -/
structure Wrote (file line : JavaString) (s s' : Logger) : Prop where
  logQueue : s'.logQueue = s.logQueue
  writer : s'.writer = s.writer
  closers : s'.closers = s.closers
  enqueued : s'.enqueued = s.enqueued
  written : s'.written = s.written ++ [(file, line)]
  linesOf : ∀ file', s'.linesOf file' = s.linesOf file' ++ if file' = file then [line] else []
  stream : s'.fos = s'.currentFile
  opened : s'.fos ≠ none

theorem writeBytes_wrote {line : JavaString} (hstream : s.fos = s.currentFile)
    (h : writeBytes line s = some s') : ∃ file, Wrote file line s s' := by
  unfold writeBytes at h
  split at h
  · cases h
  · next file hfile =>
    cases h
    have hlines : s.linesOf file = ((s.disk.lookup file).getD ⟨0, []⟩).lines := by
      unfold Logger.linesOf
      cases s.disk.lookup file with
      | none => rfl
      | some f => rfl
    refine ⟨file, rfl, rfl, rfl, rfl, rfl, fun file' => ?_, hstream, by simp [hfile]⟩
    refine (linesOf_insert s file file' _).trans ?_
    split
    · next heq => rw [heq, hlines]
    · rw [List.append_nil]

theorem writeLine_wrote {index : Nat} {line : JavaString} (hstream : s.fos = s.currentFile)
    (h : writeLine cfg index line s = some s') : ∃ file, Wrote file line s s' := by
  unfold writeLine at h
  split at h
  · obtain ⟨s₁, hroll, hwrite⟩ := Option.bind_eq_some_iff.mp h
    have hfiles := rollOverSameDay_filesOnly hroll
    have hstream₁ : s₁.fos = s₁.currentFile := by
      obtain ⟨-, hs₁⟩ := Option.ite_none_right_eq_some.mp hroll
      cases hs₁
      rfl
    obtain ⟨file, hwrote⟩ := writeBytes_wrote hstream₁ hwrite
    refine ⟨file, {
      logQueue := hwrote.logQueue.trans hfiles.logQueue
      writer := hwrote.writer.trans hfiles.writer
      closers := hwrote.closers.trans hfiles.closers
      enqueued := hwrote.enqueued.trans hfiles.enqueued
      written := by rw [hwrote.written, hfiles.written]
      linesOf := fun file' => by rw [hwrote.linesOf, hfiles.linesOf]
      stream := hwrote.stream
      opened := hwrote.opened }⟩
  · exact writeBytes_wrote hstream h

theorem safeCloseFos_stream (h : s.fos = s.currentFile) :
    (safeCloseFos s).fos = (safeCloseFos s).currentFile := by
  unfold safeCloseFos
  split
  · exact h
  · rfl

theorem rollIfNeeded_stream {today : JavaString} (h : s.fos = s.currentFile) :
    (rollIfNeeded cfg today s).fos = (rollIfNeeded cfg today s).currentFile ∧
      (rollIfNeeded cfg today s).fos ≠ none := by
  unfold rollIfNeeded
  split
  · exact ⟨rfl, by simp [openAppend]⟩
  · next hsame =>
    refine ⟨h, fun hnone => hsame (Or.inl ?_)⟩
    rw [← h]
    exact hnone

/-! ### The steps of a batch -/

theorem beginBatch_eq_some {today : JavaString} : beginBatch cfg today s = some s' ↔
    ∃ final, s.writer = .rolling final ∧
      s' = { rollIfNeeded cfg today s with writer := .writing final s.batch } := by
  unfold beginBatch
  split
  · next final hwriter =>
    simp [hwriter, eq_comm]
  · next hno => exact iff_of_false nofun fun ⟨final, hwriter, _⟩ => hno final hwriter

theorem writeNext_eq_some {index : Nat} : writeNext cfg index s = some s' ↔
    ∃ final line rest s₁, s.writer = .writing final (line :: rest) ∧
      writeLine cfg index line s = some s₁ ∧ s' = { s₁ with writer := .writing final rest } := by
  unfold writeNext
  split
  · next final line rest hwriter =>
    simp [hwriter, eq_comm]
  · next hno =>
    exact iff_of_false nofun fun ⟨final, line, rest, _, hwriter, _⟩ => hno final line rest hwriter

theorem endBatch_eq_some {now : Int} : endBatch now s = some s' ↔
    (s.writer = .writing false [] ∧
      s' = { s with batch := [], lastFlushTime := now, writer := .loop }) ∨
    (s.writer = .writing true [] ∧ s' = { s with writer := .ended }) := by
  unfold endBatch
  split
  · next hwriter => simp [hwriter, eq_comm]
  · next hwriter => simp [hwriter, eq_comm]
  · next hno hno' =>
    refine iff_of_false nofun ?_
    rintro (⟨hwriter, -⟩ | ⟨hwriter, -⟩)
    · exact hno hwriter
    · exact hno' hwriter

end Files

/-! ### Conservation -/

structure Inv (cfg : Config) (s : Logger) : Prop where
  lines : s.written.map Prod.snd ++ s.unwritten ++ s.logQueue = cfg.startLine :: s.enqueued
  files : ∀ file, s.linesOf file = (s.written.filter fun e => e.1 = file).map Prod.snd
  stream : s.fos = s.currentFile
  opened : ∀ final rest, s.writer = .writing final rest → s.fos ≠ none
  joined : ∀ t, s.closers t = .joined ∨ s.closers t = .returned → s.writer = .ended

/-- What the writer has still to write is its batch. -/
def Writer.holdsBatch : Writer → Bool
  | .writing _ _ => false
  | .ended => false
  | _ => true

section Step

variable {cfg : Config} {s s' : Logger}

theorem unwritten_of_holdsBatch (h : s.writer.holdsBatch = true) : s.unwritten = s.batch := by
  unfold Logger.unwritten
  split
  · next hwriter =>
    rw [hwriter] at h
    cases h
  · next hwriter =>
    rw [hwriter] at h
    cases h
  · rfl

theorem not_ended_of_holdsBatch (h : s.writer.holdsBatch = true) : s.writer ≠ .ended := by
  intro hended
  rw [hended] at h
  cases h

theorem Inv.start : Inv cfg (Logger.start cfg) where
  lines := rfl
  files file := by
    have hempty : ∀ k f, (Logger.start cfg).disk.lookup k = some f → f.lines = [] :=
      forall_lookup_fill (P := fun f : File => f.lines = []) (fun _ _ => rfl) fun k f h => by
        simp at h
    show (Logger.start cfg).linesOf file = []
    unfold Logger.linesOf
    split
    · rfl
    · next f hf => exact hempty file f hf
  stream := rfl
  opened final rest h := by cases h
  joined t h := by rcases h with h | h <;> cases h

/-- The writer goes on to another point, with the same lines still to write. -/
theorem Inv.move (hinv : Inv cfg s) {w : Writer}
    (hunwritten : ({ s with writer := w } : Logger).unwritten = s.unwritten)
    (hopened : ∀ final rest, w = .writing final rest → s.fos ≠ none) (hended : s.writer ≠ .ended) :
    Inv cfg { s with writer := w } where
  lines := by
    rw [hunwritten]
    exact hinv.lines
  files := hinv.files
  stream := hinv.stream
  opened := hopened
  joined t ht := absurd (hinv.joined t ht) hended

/-- The writer goes on to another point with the same batch still to write. -/
theorem Inv.moveBatch (hinv : Inv cfg s) (h : s.writer.holdsBatch = true) {w : Writer}
    (hw : w.holdsBatch = true) : Inv cfg { s with writer := w } := by
  have hlater : ({ s with writer := w } : Logger).unwritten = s.batch := unwritten_of_holdsBatch hw
  refine hinv.move (hlater.trans (unwritten_of_holdsBatch h).symm) (fun final rest heq => ?_)
    (not_ended_of_holdsBatch h)
  rw [heq] at hw
  cases hw

theorem Inv.takeBatch (hinv : Inv cfg s) (h : s.writer.holdsBatch = true) :
    Inv cfg (takeBatch s) := by
  refine ⟨?_, hinv.files, hinv.stream, fun _ _ h => (by cases h),
    fun t ht => absurd (hinv.joined t ht) (not_ended_of_holdsBatch h)⟩
  have hlines := hinv.lines
  rw [unwritten_of_holdsBatch h] at hlines
  calc s.written.map Prod.snd ++ (s.batch ++ s.logQueue.take MAX_BUFFER_SIZE) ++
        s.logQueue.drop MAX_BUFFER_SIZE
      = s.written.map Prod.snd ++ s.batch ++
          (s.logQueue.take MAX_BUFFER_SIZE ++ s.logQueue.drop MAX_BUFFER_SIZE) := by
        simp only [List.append_assoc]
    _ = s.written.map Prod.snd ++ s.batch ++ s.logQueue := by rw [List.take_append_drop]
    _ = cfg.startLine :: s.enqueued := hlines

theorem Inv.roll (hinv : Inv cfg s) {final : Bool} (hwriter : s.writer = .rolling final)
    (today : JavaString) :
    Inv cfg { rollIfNeeded cfg today s with writer := .writing final s.batch } := by
  have hfiles := @rollIfNeeded_filesOnly cfg s today
  obtain ⟨hstream, hopened⟩ := @rollIfNeeded_stream cfg s today hinv.stream
  have hunwritten : s.unwritten = s.batch := by rw [Logger.unwritten, hwriter]
  have hlines := hinv.lines
  rw [hunwritten] at hlines
  refine ⟨?_, fun file => ?_, hstream, fun _ _ _ => hopened, fun t ht => ?_⟩
  · show (rollIfNeeded cfg today s).written.map Prod.snd ++ s.batch ++
      (rollIfNeeded cfg today s).logQueue = cfg.startLine :: (rollIfNeeded cfg today s).enqueued
    rw [hfiles.written, hfiles.logQueue, hfiles.enqueued]
    exact hlines
  · show (rollIfNeeded cfg today s).linesOf file =
      ((rollIfNeeded cfg today s).written.filter fun e => e.1 = file).map Prod.snd
    rw [hfiles.linesOf, hfiles.written]
    exact hinv.files file
  · have hclosers : (rollIfNeeded cfg today s).closers = s.closers := hfiles.closers
    change (rollIfNeeded cfg today s).closers t = _ ∨ (rollIfNeeded cfg today s).closers t = _ at ht
    rw [hclosers] at ht
    exact absurd (hinv.joined t ht) (by rw [hwriter]; simp)

theorem Inv.write (hinv : Inv cfg s) {final : Bool} {line : JavaString} {rest : List JavaString}
    (hwriter : s.writer = .writing final (line :: rest)) {file : JavaString}
    (h : Wrote file line s s') : Inv cfg { s' with writer := .writing final rest } := by
  have hunwritten : s.unwritten = line :: rest := by rw [Logger.unwritten, hwriter]
  have hlines := hinv.lines
  rw [hunwritten] at hlines
  refine ⟨?_, fun file' => ?_, h.stream, fun _ _ _ => h.opened, fun t ht => ?_⟩
  · show s'.written.map Prod.snd ++ rest ++ s'.logQueue = cfg.startLine :: s'.enqueued
    rw [h.written, h.logQueue, h.enqueued, ← hlines]
    simp
  · show s'.linesOf file' = (s'.written.filter fun e => e.1 = file').map Prod.snd
    rw [h.linesOf, h.written, hinv.files file', List.filter_append, List.map_append]
    by_cases heq : file' = file
    · subst heq
      simp
    · have hne : file ≠ file' := fun h => heq h.symm
      simp [heq, hne]
  · change s'.closers t = _ ∨ s'.closers t = _ at ht
    rw [h.closers] at ht
    exact absurd (hinv.joined t ht) (by rw [hwriter]; simp)

theorem Inv.closer (hinv : Inv cfg s) (t : Nat) {c : Closer} (running : Bool)
    (hc : c = .joined ∨ c = .returned → s.writer = .ended) :
    Inv cfg { s with running := running, closers := Function.update s.closers t c } where
  lines := hinv.lines
  files := hinv.files
  stream := hinv.stream
  opened := hinv.opened
  joined u hu := by
    dsimp only at hu ⊢
    by_cases hut : u = t
    · rw [hut, Function.update_self] at hu
      exact hc hu
    · rw [Function.update_of_ne hut] at hu
      exact hinv.joined u hu

theorem Inv.endBatch (hinv : Inv cfg s) {now : Int} (h : endBatch now s = some s') :
    Inv cfg s' := by
  rcases endBatch_eq_some.mp h with ⟨hwriter, rfl⟩ | ⟨hwriter, rfl⟩
  · have hlines := hinv.lines
    rw [Logger.unwritten, hwriter] at hlines
    refine ⟨hlines, hinv.files, hinv.stream, fun _ _ h => (by cases h), fun t ht => ?_⟩
    exact absurd (hinv.joined t ht) (by rw [hwriter]; simp)
  · have hunwritten : s.unwritten = [] := by rw [Logger.unwritten, hwriter]
    exact hinv.move hunwritten.symm (fun _ _ h => by cases h) (by rw [hwriter]; simp)

theorem Inv.poll (hinv : Inv cfg s) (hwriter : s.writer = .draining) : Inv cfg (poll s) := by
  have hholds : s.writer.holdsBatch = true := by rw [hwriter]; rfl
  unfold RollingLogger.poll
  split
  · exact hinv.moveBatch hholds rfl
  · next line queue hqueue =>
    have hlines := hinv.lines
    rw [unwritten_of_holdsBatch hholds, hqueue] at hlines
    refine ⟨?_, hinv.files, hinv.stream, hinv.opened, hinv.joined⟩
    have hlater : ({ s with logQueue := queue, batch := s.batch ++ [line] } : Logger).unwritten =
        s.batch ++ [line] := unwritten_of_holdsBatch hholds
    rw [hlater, ← hlines]
    simp

theorem Inv.writerStep (hinv : Inv cfg s) {op : WriterOp} (h : writerStep cfg s op = some s') :
    Inv cfg s' := by
  cases op with
  | readRunning =>
    obtain ⟨hwriter, hs'⟩ := Option.ite_none_right_eq_some.mp h
    cases hs'
    refine hinv.moveBatch (by rw [hwriter]; rfl) ?_
    split <;> rfl
  | critical now =>
    obtain ⟨hwriter, hs'⟩ := Option.ite_none_right_eq_some.mp h
    have hholds : s.writer.holdsBatch = true := by
      rcases hwriter with hwriter | hwriter <;> rw [hwriter] <;> rfl
    split at hs'
    · cases hs'
      exact hinv.moveBatch hholds rfl
    · cases hs'
      exact hinv.takeBatch hholds
  | decide now =>
    obtain ⟨hwriter, hs'⟩ := Option.ite_none_right_eq_some.mp h
    have hholds : s.writer.holdsBatch = true := by rw [hwriter]; rfl
    split at hs'
    · cases hs'
      exact hinv.moveBatch hholds rfl
    · cases hs'
      exact hinv.moveBatch hholds rfl
  | beginBatch today =>
    obtain ⟨final, hwriter, rfl⟩ := beginBatch_eq_some.mp h
    exact hinv.roll hwriter today
  | writeNext index =>
    obtain ⟨final, line, rest, s₁, hwriter, hwrite, rfl⟩ := writeNext_eq_some.mp h
    obtain ⟨file, hwrote⟩ := writeLine_wrote hinv.stream hwrite
    exact hinv.write hwriter hwrote
  | endBatch now => exact hinv.endBatch h
  | drainCheck =>
    obtain ⟨hwriter, hs'⟩ := Option.ite_none_right_eq_some.mp h
    cases hs'
    refine hinv.moveBatch (by rw [hwriter]; rfl) ?_
    split <;> rfl
  | poll =>
    obtain ⟨hwriter, hs'⟩ := Option.ite_none_right_eq_some.mp h
    cases hs'
    exact hinv.poll hwriter
  | finish =>
    obtain ⟨hwriter, hs'⟩ := Option.ite_none_right_eq_some.mp h
    cases hs'
    have hholds : s.writer.holdsBatch = true := by rw [hwriter]; rfl
    by_cases hbatch : s.batch = []
    · rw [if_pos hbatch]
      refine hinv.move ?_ (fun _ _ h => by cases h) (not_ended_of_holdsBatch hholds)
      rw [unwritten_of_holdsBatch hholds]
      exact hbatch.symm
    · rw [if_neg hbatch]
      exact hinv.moveBatch hholds rfl

theorem Inv.closeFile (hinv : Inv cfg s) (hended : s.writer = .ended) :
    Inv cfg (safeCloseFos s) := by
  have hfiles := safeCloseFos_filesOnly s
  have hunwritten : (safeCloseFos s).unwritten = s.unwritten := by
    rw [Logger.unwritten, Logger.unwritten, hfiles.writer, hfiles.batch]
  refine ⟨?_, fun file => ?_, safeCloseFos_stream hinv.stream, fun final rest h => ?_,
    fun u hu => hfiles.writer.trans hended⟩
  · rw [hfiles.written, hunwritten, hfiles.logQueue, hfiles.enqueued]
    exact hinv.lines
  · rw [hfiles.linesOf, hfiles.written]
    exact hinv.files file
  · rw [hfiles.writer, hended] at h
    cases h

theorem Inv.step (hinv : Inv cfg s) {op : Op} (h : step cfg s op = some s') : Inv cfg s' := by
  cases op with
  | log t timestamp message =>
    obtain ⟨-, hs'⟩ := Option.ite_none_right_eq_some.mp h
    split at hs'
    · cases hs'
      exact ⟨hinv.lines, hinv.files, hinv.stream, hinv.opened, hinv.joined⟩
    · cases hs'
      exact hinv
  | enqueue t =>
    have h : enqueue t s = some s' := h
    unfold enqueue at h
    split at h
    · cases h
    · next line _ =>
      cases h
      refine ⟨?_, hinv.files, hinv.stream, hinv.opened, hinv.joined⟩
      show s.written.map Prod.snd ++ s.unwritten ++ (s.logQueue ++ [line]) =
        cfg.startLine :: (s.enqueued ++ [line])
      rw [← List.append_assoc, hinv.lines]
      rfl
  | flush t =>
    cases h
    exact hinv
  | close t =>
    obtain ⟨-, hs'⟩ := Option.ite_none_right_eq_some.mp h
    cases hs'
    exact hinv.closer t false fun hc => by rcases hc with hc | hc <;> cases hc
  | closeFlush t =>
    obtain ⟨-, hs'⟩ := Option.ite_none_right_eq_some.mp h
    cases hs'
    exact hinv.closer t s.running fun hc => by rcases hc with hc | hc <;> cases hc
  | closeJoin t =>
    obtain ⟨⟨-, hended⟩, hs'⟩ := Option.ite_none_right_eq_some.mp h
    cases hs'
    exact hinv.closer t s.running fun _ => hended
  | closeFile t =>
    obtain ⟨hjoined, hs'⟩ := Option.ite_none_right_eq_some.mp h
    cases hs'
    have hended := hinv.joined t (Or.inl hjoined)
    have hfiles := safeCloseFos_filesOnly s
    have hall := (hinv.closeFile hended).closer t (c := .returned) (safeCloseFos s).running
      fun _ => hfiles.writer.trans hended
    rw [hfiles.closers] at hall
    exact hall
  | writer op => exact hinv.writerStep h

end Step

theorem inv_of_run {cfg : Config} {ops : List Op} {s : Logger}
    (hrun : run (step cfg) (Logger.start cfg) ops = some s) : Inv cfg s :=
  run_invariant (fun _ _ _ _ hinv h => hinv.step h) Inv.start hrun

/-- **Every line is at one place, in the order of enqueuing**: what has been written, what the
    writer has still to write and what waits in the queue are the start line and the enqueued
    lines; and each file holds the lines written to it. -/
theorem lines_conserved {cfg : Config} {ops : List Op} {s : Logger}
    (hrun : run (step cfg) (Logger.start cfg) ops = some s) :
    s.written.map Prod.snd ++ s.unwritten ++ s.logQueue = cfg.startLine :: s.enqueued ∧
      ∀ file, s.linesOf file = (s.written.filter fun e => e.1 = file).map Prod.snd :=
  ⟨(inv_of_run hrun).lines, (inv_of_run hrun).files⟩

def smallFiles : Config := ⟨['b'], 8, ['s', 't', 'a', 'r', 't'], 0, []⟩

/-- Two lines are logged; the start line and the first of them are written, with a roll-over. -/
def twoLines : List Op :=
  [.log 0 ['1'] ['x'], .enqueue 0, .writer .readRunning, .writer (.critical 0), .writer (.decide 0),
    .log 1 ['2'] ['y'], .enqueue 1, .flush 2, .writer (.beginBatch ['d']), .writer (.writeNext 1),
    .writer (.writeNext 1), .writer (.endBatch 3)]

theorem lines_conserved_twoLines : ∃ s,
    run (step smallFiles) (Logger.start smallFiles) twoLines = some s ∧
      (s.written.map Prod.snd ++ s.unwritten ++ s.logQueue = smallFiles.startLine :: s.enqueued ∧
        ∀ file, s.linesOf file = (s.written.filter fun e => e.1 = file).map Prod.snd) ∧
      s.written = [(dailyName ['b'] ['d'], ['s', 't', 'a', 'r', 't']),
        (rolledName ['b'] ['d'] 1, logLine ['1'] ['x'])] ∧
      s.logQueue = [logLine ['2'] ['y']] := by
  have hrun : run (step smallFiles) (Logger.start smallFiles) twoLines = some _ := rfl
  exact ⟨_, hrun, lines_conserved hrun, rfl, rfl⟩

end Albatross.RollingLogger
