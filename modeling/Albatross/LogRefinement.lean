/-
  Albatross/LogRefinement.lean
  ============================
  **The two models of the rolling logger's files agree.**

  `RollingLogger` has the writer among the other threads and knows the length of a file
  and the lines written to it; `LogFiles` has the bytes and the exceptions.  As long as
  no file operation throws, a call of `writeBatchToDisk` is a run of the writer's steps,
  one for its beginning and one for each line (`batch_refines`); and whatever the
  threads do, the files are what calls of `writeBatchToDisk`, one after the other, make
  of them (`run_refines`).  So the bytes on the disk are those of the lines that the
  threads have enqueued and no longer wait (`bytes_conserved`).
-/
import Albatross.LogClose
import Albatross.LogRollOver

namespace Albatross.LogFiles

open Assoc Runs
open Registry (JavaString)
open RollingLogger (dailyName rolledName byteLength writerStep)

/-- What the file methods read of the constructor's arguments. -/
def filesOf (cfg : RollingLogger.Config) : Config := ⟨cfg.baseName, cfg.maxFileSize⟩

/-- The file has the bytes: as many, and the lines at their end. -/
def Holds (bytes : Python.Bytes) (f : RollingLogger.File) : Prop :=
  f.length = bytes.length ∧ f.lines.flatMap lineBytes <:+ bytes

def SameFiles (disk : Disk) (disk' : Dict JavaString RollingLogger.File) : Prop :=
  ∀ file, Option.Rel Holds (disk.lookup file) (disk'.lookup file)

/-- Both have the same stream, date and files, and have written the same lines. -/
structure Shows (s : Logger) (r : RollingLogger.Logger) : Prop where
  currentFile : r.currentFile = s.currentFile
  fos : r.fos = s.fos
  date : r.currentDateStr = s.currentDateStr
  files : SameFiles s.disk r.disk
  written : r.written.map Prod.snd = s.written

/-- The method returns with the stream open, in a state that shows `r`. -/
structure Reaches (m : Logger × End) (r : RollingLogger.Logger) : Prop where
  returns : m.2 = none
  opened : m.1.Open
  shows : Shows m.1 r

/-- A batch of which the lines `done` have been written. -/
def partBatch (cfg : Config) (faults : Nat → Option Nat) (today : JavaString)
    (done : List JavaString) (s : Logger) : Logger × End :=
  andThen (rollIfNeeded cfg faults today s) (writeLines cfg faults done)

/-! ### Files -/

theorem length_lineBytes (line : JavaString) : (lineBytes line).length = byteLength line := by
  unfold lineBytes byteLength
  rw [List.length_flatMap, List.map_append, List.sum_append]
  simp only [String.length_utf8EncodeChar, List.map_cons, List.map_nil, List.sum_singleton]
  rfl

theorem Holds.empty : Holds [] ⟨0, []⟩ := ⟨rfl, List.suffix_refl []⟩

theorem Holds.append {bytes : Python.Bytes} {f : RollingLogger.File} (h : Holds bytes f)
    (line : JavaString) :
    Holds (bytes ++ lineBytes line) ⟨f.length + byteLength line, f.lines ++ [line]⟩ := by
  obtain ⟨hlength, before, hlines⟩ := h
  refine ⟨?_, before, ?_⟩
  · rw [List.length_append, length_lineBytes, hlength]
  · rw [← hlines]
    simp

section Files

variable {disk : Disk} {disk' : Dict JavaString RollingLogger.File}

theorem SameFiles.lookup_eq_none_iff (h : SameFiles disk disk') (file : JavaString) :
    disk'.lookup file = none ↔ disk.lookup file = none := by
  have hfile := h file
  generalize disk.lookup file = bytes at hfile ⊢
  generalize disk'.lookup file = f at hfile ⊢
  cases hfile with
  | none => simp
  | some hfile => simp

theorem SameFiles.insert (h : SameFiles disk disk') (file : JavaString) {f : RollingLogger.File}
    {bytes : Python.Bytes} (hfile : Holds bytes f) :
    SameFiles (disk.insert file bytes) (disk'.insert file f) := by
  intro other
  by_cases hother : other = file
  · subst hother
    rw [AList.lookup_insert, AList.lookup_insert]
    exact Option.Rel.some hfile
  · rw [AList.lookup_insert_ne hother, AList.lookup_insert_ne hother]
    exact h other

/-- A file that there is not is taken for an empty one. -/
theorem SameFiles.getD (h : SameFiles disk disk') (file : JavaString) :
    Holds ((disk.lookup file).getD []) ((disk'.lookup file).getD ⟨0, []⟩) := by
  have hfile := h file
  generalize disk.lookup file = bytes at hfile ⊢
  generalize disk'.lookup file = f at hfile ⊢
  cases hfile with
  | none => exact Holds.empty
  | some hfile => exact hfile

theorem fileLength_eq (disk : Disk) (file : JavaString) :
    fileLength disk file = ((disk.lookup file).getD []).length := by
  unfold fileLength
  cases disk.lookup file <;> rfl

end Files

/-! ### Methods -/

section Methods

variable (cfg : RollingLogger.Config) {faults : Nat → Option Nat} {s : Logger}
  {r : RollingLogger.Logger}

theorem Shows.close (h : Shows s r) : Shows (safeCloseFos s) (RollingLogger.safeCloseFos r) := by
  unfold safeCloseFos RollingLogger.safeCloseFos
  rw [h.fos]
  split
  · exact h
  · exact ⟨rfl, rfl, h.date, h.files, h.written⟩

theorem due_or_open {today : JavaString} (hstream : s.fos = s.currentFile) :
    s.Due today ∨ s.Open := by
  cases hcurrent : s.currentFile with
  | none => exact Or.inl (Or.inl hcurrent)
  | some file => exact Or.inr ⟨file, hstream.trans hcurrent, hcurrent⟩

theorem openAppend_reaches (hno : ∀ n, faults n = none) (h : Shows s r) (file : JavaString)
    (date : Option JavaString) :
    Reaches (openAppend faults file { s with currentDateStr := date, currentFile := some file })
      (RollingLogger.openAppend file { r with currentDateStr := date }) := by
  unfold openAppend RollingLogger.openAppend
  rw [hno]
  refine ⟨rfl, ⟨file, rfl, rfl⟩, rfl, rfl, rfl, ?_, ?_⟩
  · by_cases hfile : s.disk.lookup file = none
    · have hfile' := (h.files.lookup_eq_none_iff file).mpr hfile
      simp only [hfile, hfile', if_true]
      exact h.files.insert file Holds.empty
    · have hfile' := mt (h.files.lookup_eq_none_iff file).mp hfile
      simp only [hfile, hfile', if_false]
      exact h.files
  · refine h.written.trans ((record_written _ _ _).trans ?_).symm
    simp [FileOp.line, Logger.written]

theorem rollIfNeeded_reaches (hno : ∀ n, faults n = none) (h : Shows s r) (today : JavaString)
    (hopen : s.Due today ∨ s.Open) :
    Reaches (rollIfNeeded (filesOf cfg) faults today s)
      (RollingLogger.rollIfNeeded cfg today r) := by
  unfold rollIfNeeded RollingLogger.rollIfNeeded
  rw [h.currentFile, h.date]
  split
  · exact openAppend_reaches hno h.close _ _
  · next hdue => exact ⟨rfl, hopen.resolve_left hdue, h⟩

theorem candidateIndex_stopsAt (h : Shows s r) (date : JavaString) :
    RollingLogger.StopsAt cfg date (candidateIndex (filesOf cfg) date s.disk) r := by
  obtain ⟨hpos, hunused, hused⟩ := candidateIndex_firstUnused (filesOf cfg) date s.disk
  refine ⟨hpos, (h.files.lookup_eq_none_iff _).mpr hunused, fun i hlt hle => ?_⟩
  exact mt (h.files.lookup_eq_none_iff _).mp (hused i hle hlt)

theorem openTruncate_reaches (hno : ∀ n, faults n = none) (h : Shows s r) (date : JavaString)
    (index : Nat) :
    Reaches (openTruncate (filesOf cfg) faults date index
        { s with currentFile := some (rolledName cfg.baseName date index) })
      (RollingLogger.openTruncate (rolledName cfg.baseName date index) r) := by
  unfold openTruncate RollingLogger.openTruncate
  rw [hno]
  refine ⟨rfl, ⟨_, rfl, rfl⟩, rfl, rfl, h.date, ?_, ?_⟩
  · exact h.files.insert _ Holds.empty
  · refine h.written.trans ((record_written _ _ _).trans ?_).symm
    simp [FileOp.line, Logger.written]

/-- Closing the stream changes neither the date nor the files that the roll-over looks at. -/
theorem rollOverSameDay_eq {cfg : Config} {date : JavaString} {index : Nat}
    (hdate : s.currentDateStr.getD ['n', 'u', 'l', 'l'] = date)
    (hindex : candidateIndex cfg date s.disk = index) :
    rollOverSameDay cfg faults s = openTruncate cfg faults date index
      { safeCloseFos s with currentFile := some (rolledName cfg.baseName date index) } := by
  have hclose : (safeCloseFos s).currentDateStr = s.currentDateStr := by
    unfold safeCloseFos
    split <;> rfl
  simp only [rollOverSameDay, hclose, safeCloseFos_disk, hdate, hindex]

theorem rollOverSameDay_reaches (hno : ∀ n, faults n = none) (h : Shows s r) :
    ∃ index r', RollingLogger.rollOverSameDay cfg index r = some r' ∧
      Reaches (rollOverSameDay (filesOf cfg) faults s) r' := by
  obtain ⟨date, hdate⟩ : ∃ date, s.currentDateStr.getD ['n', 'u', 'l', 'l'] = date := ⟨_, rfl⟩
  obtain ⟨index, hindex⟩ : ∃ index, candidateIndex (filesOf cfg) date s.disk = index := ⟨_, rfl⟩
  refine ⟨index, RollingLogger.openTruncate (rolledName cfg.baseName date index)
    (RollingLogger.safeCloseFos r), ?_, ?_⟩
  · unfold RollingLogger.rollOverSameDay
    rw [h.date, hdate, ← hindex]
    exact if_pos (candidateIndex_stopsAt cfg h date)
  · rw [rollOverSameDay_eq hdate hindex]
    exact openTruncate_reaches cfg hno h.close date index

theorem writeBytes_reaches (hno : ∀ n, faults n = none) (h : Shows s r) (hopen : s.Open)
    (line : JavaString) : ∃ r', RollingLogger.writeBytes line r = some r' ∧
      Reaches (writeBytes faults line s) r' := by
  obtain ⟨file, hfos, hcurrent⟩ := hopen
  unfold RollingLogger.writeBytes writeBytes
  rw [h.fos, hfos]
  dsimp only
  rw [hno]
  refine ⟨_, rfl, rfl, ⟨file, hfos, hcurrent⟩, h.currentFile, hfos.symm, h.date, ?_, ?_⟩
  · exact h.files.insert file ((h.files.getD file).append line)
  · rw [List.map_append, h.written]
    exact (record_written (.write file line) (appendTo file (lineBytes line) s.disk) s).symm

theorem Reaches.andThen {m : Logger × End} {next : Logger → Logger × End}
    {r' : RollingLogger.Logger} (h : Reaches m r) (hnext : Reaches (next m.1) r') :
    Reaches (andThen m next) r' := by
  obtain ⟨s₁, e⟩ := m
  obtain rfl : e = none := h.returns
  exact hnext

theorem Shows.currentLength (h : Shows s r) {file : JavaString}
    (hcurrent : s.currentFile = some file) :
    RollingLogger.currentLength r = fileLength s.disk file := by
  rw [fileLength_eq, ← (h.files.getD file).1]
  unfold RollingLogger.currentLength
  rw [h.currentFile, hcurrent, Option.bind_some]
  cases r.disk.lookup file <;> rfl

theorem writeLine_reaches (hno : ∀ n, faults n = none) (h : Shows s r) (hopen : s.Open)
    (line : JavaString) : ∃ index r', RollingLogger.writeLine cfg index line r = some r' ∧
      Reaches (writeLine (filesOf cfg) faults line s) r' := by
  obtain ⟨file, -, hcurrent⟩ := id hopen
  unfold RollingLogger.writeLine writeLine
  rw [h.currentLength hcurrent, hcurrent]
  dsimp only
  rw [length_lineBytes]
  by_cases hrolls : (filesOf cfg).maxFileSize < fileLength s.disk file + byteLength line
  · obtain ⟨index, r₁, hroll, hreaches⟩ := rollOverSameDay_reaches cfg hno h
    obtain ⟨r', hwrite, hreaches'⟩ := writeBytes_reaches hno hreaches.shows hreaches.opened line
    refine ⟨index, r', ?_, ?_⟩
    · exact (if_pos hrolls).trans (Option.bind_eq_some_iff.mpr ⟨r₁, hroll, hwrite⟩)
    · rw [if_pos hrolls]
      exact hreaches.andThen hreaches'
  · obtain ⟨r', hwrite, hreaches⟩ := writeBytes_reaches hno h hopen line
    refine ⟨0, r', ?_, ?_⟩
    · exact (if_neg hrolls).trans hwrite
    · rw [if_neg hrolls]
      exact hreaches

theorem flush_reaches (h : Shows s r) (hopen : s.Open) : Reaches (flush s) r := by
  obtain ⟨file, hfos, -⟩ := id hopen
  unfold flush
  rw [hfos]
  exact ⟨rfl, hopen, h⟩

theorem Shows.setWriter (h : Shows s r) (w : RollingLogger.Writer) :
    Shows s { r with writer := w } :=
  ⟨h.currentFile, h.fos, h.date, h.files, h.written⟩

/-! ### A batch -/

theorem andThen_assoc (m : Logger × End) (f g : Logger → Logger × End) :
    andThen (andThen m f) g = andThen m fun s => andThen (f s) g := by
  obtain ⟨s, e⟩ := m
  cases e with
  | none => rfl
  | some e => rfl

theorem writeBatchToDisk_reaches {today : JavaString} {batch : List JavaString}
    (h : Reaches (partBatch (filesOf cfg) faults today batch s) r) :
    Reaches (writeBatchToDisk (filesOf cfg) faults today batch s) r := by
  have hbatch : Reaches (writeBatch (filesOf cfg) faults today batch s) r := by
    unfold writeBatch
    rw [← andThen_assoc]
    exact h.andThen (flush_reaches h.shows h.opened)
  have hcall : writeBatchToDisk (filesOf cfg) faults today batch s =
      writeBatch (filesOf cfg) faults today batch s := by
    have hreturns := hbatch.returns
    unfold writeBatchToDisk
    split
    · next heq =>
      rw [heq] at hreturns
      cases hreturns
    · rfl
  rw [hcall]
  exact hbatch

theorem writeLines_reaches (hno : ∀ n, faults n = none) (final : Bool) (lines : List JavaString) :
    ∀ {s : Logger} {r : RollingLogger.Logger}, Shows s r → s.Open →
      r.writer = .writing final lines → ∃ (indices : List Nat) (r' : RollingLogger.Logger),
        run (writerStep cfg) r (indices.map .writeNext) = some r' ∧
        r'.writer = .writing final [] ∧ Reaches (writeLines (filesOf cfg) faults lines s) r' := by
  induction lines with
  | nil => exact fun h hopen hwriter => ⟨[], _, rfl, hwriter, rfl, hopen, h⟩
  | cons line lines ih =>
    intro s r h hopen hwriter
    obtain ⟨index, r₁, hline, hreaches⟩ := writeLine_reaches cfg hno h hopen line
    obtain ⟨indices, r', hrun, hended, hrest⟩ :=
      ih (hreaches.shows.setWriter (.writing final lines)) hreaches.opened rfl
    have hstep : writerStep cfg r (.writeNext index) =
        some { r₁ with writer := .writing final lines } :=
      RollingLogger.writeNext_eq_some.mpr ⟨final, line, lines, r₁, hwriter, hline, rfl⟩
    refine ⟨index :: indices, r', ?_, hended, ?_⟩
    · rw [List.map_cons, run_cons, hstep]
      exact hrun
    · exact Reaches.andThen (r := r₁) hreaches hrest

/-- **A call of `writeBatchToDisk` whose file operations succeed is a run of the writer's steps**:
    its beginning, and one step for each line of the batch. -/
theorem batch_refines (hno : ∀ n, faults n = none) (h : Shows s r) (hstream : s.fos = s.currentFile)
    {final : Bool} (hwriter : r.writer = .rolling final) (today : JavaString) :
    ∃ (indices : List Nat) (r' : RollingLogger.Logger),
      run (writerStep cfg) r (.beginBatch today :: indices.map .writeNext) = some r' ∧
      r'.writer = .writing final [] ∧
      Reaches (writeBatchToDisk (filesOf cfg) faults today r.batch s) r' := by
  have hroll := rollIfNeeded_reaches cfg hno h today (due_or_open hstream)
  obtain ⟨indices, r', hrun, hended, hlines⟩ :=
    writeLines_reaches cfg hno final r.batch
      (hroll.shows.setWriter (.writing final r.batch)) hroll.opened rfl
  have hbegin : writerStep cfg r (.beginBatch today) =
      some { RollingLogger.rollIfNeeded cfg today r with writer := .writing final r.batch } :=
    RollingLogger.beginBatch_eq_some.mpr ⟨final, hwriter, rfl⟩
  refine ⟨indices, r', ?_, hended, ?_⟩
  · rw [run_cons, hbegin]
    exact hrun
  · exact writeBatchToDisk_reaches cfg (hroll.andThen hlines)

end Methods

/-! ### The steps of the threads -/

section Steps

variable {cfg : RollingLogger.Config} {r r' : RollingLogger.Logger}

/-- The two states differ in nothing that the file methods use. -/
structure Untouched (r r' : RollingLogger.Logger) : Prop where
  currentFile : r'.currentFile = r.currentFile
  fos : r'.fos = r.fos
  date : r'.currentDateStr = r.currentDateStr
  disk : r'.disk = r.disk
  written : r'.written = r.written

theorem Shows.untouched {s : Logger} (h : Shows s r) (heq : Untouched r r') : Shows s r' where
  currentFile := heq.currentFile.trans h.currentFile
  fos := heq.fos.trans h.fos
  date := heq.date.trans h.date
  files := by
    rw [heq.disk]
    exact h.files
  written := by
    rw [heq.written]
    exact h.written

/-- The writer is in `writeBatchToDisk`. -/
def writes : RollingLogger.Writer → Bool
  | .writing _ _ => true
  | _ => false

/-- What a step of a thread does to the files. -/
inductive FileStep (cfg : RollingLogger.Config) (r r' : RollingLogger.Logger) : Prop where
  | none (heq : Untouched r r') (hwriter : r'.writer = r.writer) (hbatch : r'.batch = r.batch)
  | between (heq : Untouched r r') (hbefore : writes r.writer = false)
      (hafter : writes r'.writer = false) (hended : r.writer ≠ .ended)
  | start (final : Bool) (today : JavaString) (hwriter : r.writer = .rolling final)
      (heq : r' = { RollingLogger.rollIfNeeded cfg today r with writer := .writing final r.batch })
  | line (final : Bool) (index : Nat) (line : JavaString) (rest : List JavaString)
      (r₁ : RollingLogger.Logger) (hwriter : r.writer = .writing final (line :: rest))
      (hline : RollingLogger.writeLine cfg index line r = some r₁)
      (heq : r' = { r₁ with writer := .writing final rest })
  | finish (final : Bool) (hwriter : r.writer = .writing final []) (heq : Untouched r r')
      (hafter : writes r'.writer = false)
  | close (hwriter : r.writer = .ended) (hafter : r'.writer = .ended)
      (heq : Untouched (RollingLogger.safeCloseFos r) r')

theorem FileStep.move (hwriter : writes r.writer = false ∧ r.writer ≠ .ended)
    {w : RollingLogger.Writer} (hw : writes w = false) : FileStep cfg r { r with writer := w } :=
  FileStep.between ⟨rfl, rfl, rfl, rfl, rfl⟩ hwriter.1 hw hwriter.2

theorem fileStep_guarded {guard : Prop} [Decidable guard] {w : RollingLogger.Writer}
    (hwriter : guard → writes r.writer = false ∧ r.writer ≠ .ended) (hw : writes w = false)
    (h : (if guard then some { r with writer := w } else none) = some r') : FileStep cfg r r' := by
  obtain ⟨hguard, hr'⟩ := Option.ite_none_right_eq_some.mp h
  cases hr'
  exact FileStep.move (hwriter hguard) hw

theorem writerStep_fileStep {op : RollingLogger.WriterOp} (h : writerStep cfg r op = some r') :
    FileStep cfg r r' := by
  cases op with
  | readRunning =>
    apply fileStep_guarded _ _ h
    · intro hwriter
      simp [hwriter, writes]
    · split <;> rfl
  | critical now =>
    obtain ⟨hwriter, hr'⟩ := Option.ite_none_right_eq_some.mp h
    have hbefore : writes r.writer = false ∧ r.writer ≠ .ended := by
      rcases hwriter with hwriter | hwriter <;> simp [hwriter, writes]
    split at hr'
    · cases hr'
      exact FileStep.move hbefore rfl
    · cases hr'
      exact FileStep.between ⟨rfl, rfl, rfl, rfl, rfl⟩ hbefore.1 rfl hbefore.2
  | decide now =>
    obtain ⟨hwriter, hr'⟩ := Option.ite_none_right_eq_some.mp h
    have hbefore : writes r.writer = false ∧ r.writer ≠ .ended := by simp [hwriter, writes]
    split at hr'
    · cases hr'
      exact FileStep.move hbefore rfl
    · cases hr'
      exact FileStep.move hbefore rfl
  | beginBatch today =>
    obtain ⟨final, hwriter, heq⟩ := RollingLogger.beginBatch_eq_some.mp h
    exact FileStep.start final today hwriter heq
  | writeNext index =>
    obtain ⟨final, line, rest, r₁, hwriter, hline, heq⟩ := RollingLogger.writeNext_eq_some.mp h
    exact FileStep.line final index line rest r₁ hwriter hline heq
  | endBatch now =>
    rcases RollingLogger.endBatch_eq_some.mp h with ⟨hwriter, rfl⟩ | ⟨hwriter, rfl⟩
    · exact FileStep.finish false hwriter ⟨rfl, rfl, rfl, rfl, rfl⟩ rfl
    · exact FileStep.finish true hwriter ⟨rfl, rfl, rfl, rfl, rfl⟩ rfl
  | drainCheck =>
    apply fileStep_guarded _ _ h
    · intro hwriter
      simp [hwriter, writes]
    · split <;> rfl
  | poll =>
    obtain ⟨hwriter, hr'⟩ := Option.ite_none_right_eq_some.mp h
    have hbefore : writes r.writer = false ∧ r.writer ≠ .ended := by simp [hwriter, writes]
    cases hr'
    unfold RollingLogger.poll
    split
    · exact FileStep.move hbefore rfl
    · exact FileStep.between ⟨rfl, rfl, rfl, rfl, rfl⟩ hbefore.1 hbefore.1 hbefore.2
  | finish =>
    apply fileStep_guarded _ _ h
    · intro hwriter
      simp [hwriter, writes]
    · split <;> rfl

theorem step_fileStep (hinv : RollingLogger.Inv cfg r) {op : RollingLogger.Op}
    (h : RollingLogger.step cfg r op = some r') : FileStep cfg r r' := by
  cases op with
  | log t timestamp message =>
    obtain ⟨-, hr'⟩ := Option.ite_none_right_eq_some.mp h
    split at hr' <;> cases hr' <;> exact FileStep.none ⟨rfl, rfl, rfl, rfl, rfl⟩ rfl rfl
  | enqueue t =>
    have h : RollingLogger.enqueue t r = some r' := h
    unfold RollingLogger.enqueue at h
    split at h
    · cases h
    · cases h
      exact FileStep.none ⟨rfl, rfl, rfl, rfl, rfl⟩ rfl rfl
  | flush t =>
    cases h
    exact FileStep.none ⟨rfl, rfl, rfl, rfl, rfl⟩ rfl rfl
  | close t =>
    obtain ⟨-, hr'⟩ := Option.ite_none_right_eq_some.mp h
    cases hr'
    exact FileStep.none ⟨rfl, rfl, rfl, rfl, rfl⟩ rfl rfl
  | closeFlush t =>
    obtain ⟨-, hr'⟩ := Option.ite_none_right_eq_some.mp h
    cases hr'
    exact FileStep.none ⟨rfl, rfl, rfl, rfl, rfl⟩ rfl rfl
  | closeJoin t =>
    obtain ⟨-, hr'⟩ := Option.ite_none_right_eq_some.mp h
    cases hr'
    exact FileStep.none ⟨rfl, rfl, rfl, rfl, rfl⟩ rfl rfl
  | closeFile t =>
    obtain ⟨hjoined, hr'⟩ := Option.ite_none_right_eq_some.mp h
    cases hr'
    have hended := hinv.joined t (Or.inl hjoined)
    have hwriter := (RollingLogger.safeCloseFos_filesOnly r).writer
    exact FileStep.close hended (hwriter.trans hended) ⟨rfl, rfl, rfl, rfl, rfl⟩
  | writer op => exact writerStep_fileStep h

theorem writeLine_unique {i j : Nat} {line : JavaString} {r₁ r₂ : RollingLogger.Logger}
    (h₁ : RollingLogger.writeLine cfg i line r = some r₁)
    (h₂ : RollingLogger.writeLine cfg j line r = some r₂) : r₁ = r₂ := by
  unfold RollingLogger.writeLine at h₁ h₂
  split at h₁
  · next hrolls =>
    rw [if_pos hrolls] at h₂
    obtain ⟨r₃, hroll, hwrite⟩ := Option.bind_eq_some_iff.mp h₁
    obtain ⟨r₄, hroll', hwrite'⟩ := Option.bind_eq_some_iff.mp h₂
    obtain ⟨⟨hpos, hfree, hused⟩, hr₃⟩ := Option.ite_none_right_eq_some.mp hroll
    obtain ⟨⟨hpos', hfree', hused'⟩, hr₄⟩ := Option.ite_none_right_eq_some.mp hroll'
    have hindex : i = j := by
      rcases Nat.lt_trichotomy i j with hlt | heq | hlt
      · exact absurd hfree (hused' i hlt hpos)
      · exact heq
      · exact absurd hfree' (hused j hlt hpos')
    rw [hindex] at hr₃
    rw [← Option.some.inj hr₃, Option.some.inj hr₄] at hwrite
    exact Option.some.inj (hwrite.symm.trans hwrite')
  · next hrolls =>
    rw [if_neg hrolls] at h₂
    exact Option.some.inj (h₁.symm.trans h₂)

end Steps

/-! ### Runs -/

/-- The files of `r` are as the calls that have led to `s` have left them, and the lines that the
    writer has written in the call it is in; at the end the stream may have been closed. -/
inductive AtBatch (cfg : RollingLogger.Config) (faults : Nat → Option Nat) (s : Logger)
    (r : RollingLogger.Logger) : Prop where
  | between (hwriter : writes r.writer = false) (h : Shows s r)
  | within (final : Bool) (rest done : List JavaString) (today : JavaString)
      (hwriter : r.writer = .writing final rest) (hbatch : r.batch = done ++ rest)
      (h : Reaches (partBatch (filesOf cfg) faults today done s) r)
  | closed (hwriter : r.writer = .ended) (h : Shows (safeCloseFos s) r)

section Runs

variable {cfg : RollingLogger.Config} {faults : Nat → Option Nat} {s : Logger}
  {r r' : RollingLogger.Logger}

theorem writeLines_concat (cfg : Config) (done : List JavaString) (line : JavaString) :
    ∀ s : Logger, writeLines cfg faults (done ++ [line]) s =
      andThen (writeLines cfg faults done s) (writeLine cfg faults line) := by
  induction done with
  | nil =>
    intro s
    show andThen (writeLine cfg faults line s) _ = writeLine cfg faults line s
    obtain ⟨s', e⟩ := writeLine cfg faults line s
    cases e with
    | none => rfl
    | some e => rfl
  | cons first done ih =>
    intro s
    have hrest : writeLines cfg faults (done ++ [line]) =
        fun s => andThen (writeLines cfg faults done s) (writeLine cfg faults line) := funext ih
    rw [List.cons_append, writeLines, writeLines, andThen_assoc, hrest]

theorem partBatch_concat (cfg : Config) (today : JavaString) (done : List JavaString)
    (line : JavaString) (s : Logger) : partBatch cfg faults today (done ++ [line]) s =
      andThen (partBatch cfg faults today done s) (writeLine cfg faults line) := by
  unfold partBatch
  rw [andThen_assoc]
  congr 1
  funext s'
  exact writeLines_concat cfg done line s'

theorem writeLine_batch {index : Nat} {line : JavaString}
    (h : RollingLogger.writeLine cfg index line r = some r') : r'.batch = r.batch := by
  have hwrite : ∀ {r₁ : RollingLogger.Logger}, RollingLogger.writeBytes line r₁ = some r' →
      r'.batch = r₁.batch := by
    intro r₁ h
    unfold RollingLogger.writeBytes at h
    split at h
    · cases h
    · cases h
      rfl
  unfold RollingLogger.writeLine at h
  split at h
  · obtain ⟨r₁, hroll, h⟩ := Option.bind_eq_some_iff.mp h
    exact (hwrite h).trans (RollingLogger.rollOverSameDay_filesOnly hroll).batch
  · exact hwrite h

/-- **A step of a thread belongs to the call that the writer is in, or ends it.** -/
theorem AtBatch.step (hno : ∀ n, faults n = none) (hinv : RollingLogger.Inv cfg r)
    (h : AtBatch cfg faults s r) (hstep : FileStep cfg r r') :
    AtBatch cfg faults s r' ∨ ∃ call s', LogFiles.step (filesOf cfg) faults s call = some s' ∧
      AtBatch cfg faults s' r' := by
  cases hstep with
  | none heq hwriter hbatch =>
    left
    cases h with
    | between hw hshows => exact .between (by rw [hwriter, hw]) (hshows.untouched heq)
    | within final rest done today hw hdone hreaches =>
      refine .within final rest done today (hwriter.trans hw) (hbatch.trans hdone) ?_
      exact ⟨hreaches.returns, hreaches.opened, hreaches.shows.untouched heq⟩
    | closed hw hshows => exact .closed (hwriter.trans hw) (hshows.untouched heq)
  | between heq hbefore hafter hended =>
    left
    cases h with
    | between hw hshows => exact .between hafter (hshows.untouched heq)
    | within final rest done today hw hdone hreaches =>
      rw [hw] at hbefore
      cases hbefore
    | closed hw hshows => exact absurd hw hended
  | start final today hwriter heq =>
    left
    subst heq
    cases h with
    | between hw hshows =>
      have hstream : s.fos = s.currentFile := by
        rw [← hshows.fos, ← hshows.currentFile, hinv.stream]
      have hroll := rollIfNeeded_reaches cfg hno hshows today (due_or_open hstream)
      have hbatch := (@RollingLogger.rollIfNeeded_filesOnly cfg r today).batch
      refine .within final r.batch [] today rfl hbatch ?_
      exact hroll.andThen ⟨rfl, hroll.opened, hroll.shows.setWriter _⟩
    | within final' rest done today' hw hdone hreaches =>
      rw [hw] at hwriter
      cases hwriter
    | closed hw hshows =>
      rw [hw] at hwriter
      cases hwriter
  | line final index line rest r₁ hwriter hline heq =>
    left
    subst heq
    cases h with
    | between hw hshows =>
      rw [hwriter] at hw
      cases hw
    | within final' rest' done today hw hdone hreaches =>
      rw [hw] at hwriter
      cases hwriter
      obtain ⟨index', r₂, hline', hreaches'⟩ :=
        writeLine_reaches cfg hno hreaches.shows hreaches.opened line
      obtain rfl := writeLine_unique hline hline'
      refine .within final rest (done ++ [line]) today rfl ?_ ?_
      · rw [List.append_assoc]
        exact (writeLine_batch hline).trans hdone
      · rw [partBatch_concat]
        have hwritten := hreaches.andThen hreaches'
        exact ⟨hwritten.returns, hwritten.opened, hwritten.shows.setWriter _⟩
    | closed hw hshows =>
      rw [hw] at hwriter
      cases hwriter
  | finish final hwriter heq hafter =>
    right
    cases h with
    | between hw hshows =>
      rw [hwriter] at hw
      cases hw
    | within final' rest done today hw hdone hreaches =>
      rw [hw] at hwriter
      cases hwriter
      have hcall := writeBatchToDisk_reaches cfg hreaches
      exact ⟨(today, done), _, rfl, .between hafter (hcall.shows.untouched heq)⟩
    | closed hw hshows =>
      rw [hw] at hwriter
      cases hwriter
  | close hwriter hafter heq =>
    left
    cases h with
    | between hw hshows => exact .closed hafter (hshows.close.untouched heq)
    | within final rest done today hw hdone hreaches =>
      rw [hw] at hwriter
      cases hwriter
    | closed hw hshows =>
      have hclosed : safeCloseFos (safeCloseFos s) = safeCloseFos s := if_pos (safeCloseFos_fos s)
      have hagain := hshows.close
      rw [hclosed] at hagain
      exact .closed hafter (hagain.untouched heq)

/-- **In every run of the threads the files are what calls of `writeBatchToDisk`, one after the
    other, make of the directory at the start.** -/
theorem run_refines (hno : ∀ n, faults n = none) {disk : Disk}
    (hdisk : SameFiles disk (RollingLogger.Logger.start cfg).disk) {ops : List RollingLogger.Op}
    (hrun : run (RollingLogger.step cfg) (RollingLogger.Logger.start cfg) ops = some r) :
    ∃ calls s, run (step (filesOf cfg) faults) (Logger.start disk) calls = some s ∧
      AtBatch cfg faults s r := by
  refine (run_invariant (I := fun r => RollingLogger.Inv cfg r ∧ ∃ calls s,
    run (step (filesOf cfg) faults) (Logger.start disk) calls = some s ∧ AtBatch cfg faults s r)
    ?_ ⟨RollingLogger.Inv.start, ?_⟩ hrun).2
  · rintro r op r' - ⟨hinv, calls, s, hcalls, hat⟩ hstep
    refine ⟨hinv.step hstep, ?_⟩
    rcases hat.step hno hinv (step_fileStep hinv hstep) with hat' | ⟨call, s', hcall, hat'⟩
    · exact ⟨calls, s, hcalls, hat'⟩
    · refine ⟨calls ++ [call], s', ?_, hat'⟩
      rw [run_append, hcalls]
      simp [hcall]
  · exact ⟨[], _, rfl, .between rfl ⟨rfl, rfl, rfl, hdisk, rfl⟩⟩

/-- Outside a call the files and the lines written are the same. -/
theorem AtBatch.same (h : AtBatch cfg faults s r) (hwriter : writes r.writer = false) :
    SameFiles s.disk r.disk ∧ r.written.map Prod.snd = s.written := by
  cases h with
  | between _ hshows => exact ⟨hshows.files, hshows.written⟩
  | within final rest done today hw _ _ =>
    rw [hw] at hwriter
    cases hwriter
  | closed _ hshows =>
    have hdisk := safeCloseFos_disk s
    have hevents := safeCloseFos_events s
    refine ⟨hdisk ▸ hshows.files, hshows.written.trans ?_⟩
    rw [Logger.written, hevents]
    rfl

/-- **The lines of the threads, in bytes.**  Whenever the writer is not in `writeBatchToDisk`, the
    lines written to the files and those that still wait are the start line and the enqueued
    lines, in order, and each file ends with the bytes of the lines written to it. -/
theorem bytes_conserved (hno : ∀ n, faults n = none) {disk : Disk}
    (hdisk : SameFiles disk (RollingLogger.Logger.start cfg).disk) {ops : List RollingLogger.Op}
    (hrun : run (RollingLogger.step cfg) (RollingLogger.Logger.start cfg) ops = some r)
    (hwriter : writes r.writer = false) :
    ∃ calls s, run (step (filesOf cfg) faults) (Logger.start disk) calls = some s ∧
      s.written ++ r.unwritten ++ r.logQueue = cfg.startLine :: r.enqueued ∧
      ∀ file, (((r.written.filter fun e => e.1 = file).map Prod.snd).flatMap lineBytes) <:+
        (s.disk.lookup file).getD [] := by
  have hinv := RollingLogger.inv_of_run hrun
  obtain ⟨calls, s, hcalls, hat⟩ := run_refines hno hdisk hrun
  obtain ⟨hfiles, hwritten⟩ := hat.same hwriter
  refine ⟨calls, s, hcalls, ?_, fun file => ?_⟩
  · rw [← hwritten]
    exact hinv.lines
  · have hlines : r.linesOf file = ((r.disk.lookup file).getD ⟨0, []⟩).lines := by
      unfold RollingLogger.Logger.linesOf
      cases r.disk.lookup file <;> rfl
    rw [← hinv.files file, hlines]
    exact (hfiles.getD file).2

end Runs

end Albatross.LogFiles
