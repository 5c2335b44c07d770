/-
  Albatross/LogRecovery.lean
  ==========================
  **Whether the rolling logger recovers from a failed open.**

  `rollIfNeeded` and `rollOverSameDay` set `currentFile` before they open the stream, so
  an `open` that throws leaves a current file without a stream.  `rollIfNeeded` looks at
  the current file and the date only: on the same day it opens nothing, and the next
  batch dereferences the null stream unless its first line makes the file roll over.

  A batch that meets such a logger is `Stranded`.  No other batch meets a null stream or
  a null file, and every other batch is written completely when its file operations
  succeed (`recovers_iff`).
-/
import Albatross.LogFiles

namespace Albatross.LogFiles

open Assoc Runs
open Registry (JavaString)
open RollingLogger (dailyName rolledName)

variable {cfg : Config} {faults : Nat → Option Nat}

def Logger.Open (s : Logger) : Prop := ∃ file, s.fos = some file ∧ s.currentFile = some file

/-- A stream that is open is open on the current file. -/
def Inv (s : Logger) : Prop := ∀ file, s.fos = some file → s.currentFile = some file

def Faultless (faults : Nat → Option Nat) (s s' : Logger) : Prop :=
  ∀ n, s.ops ≤ n → n < s'.ops → faults n = none

/-- The method has gone from `s` to `s'` without meeting a null reference, and has written `lines`
    when it returns. -/
structure Goes (faults : Nat → Option Nat) (s : Logger) (r : Logger × End)
    (lines : List JavaString) : Prop where
  ops : s.ops ≤ r.1.ops
  noNull : r.2 ≠ some .nullPointer
  inv : Inv r.1
  done : r.2 = none → r.1.Open ∧ r.1.written = s.written ++ lines
  fault : r.2 = some .io → ¬ Faultless faults s r.1

theorem Faultless.mono {s s₁ s₂ s₃ : Logger} (h : Faultless faults s s₃) (hle : s.ops ≤ s₁.ops)
    (hle' : s₂.ops ≤ s₃.ops) : Faultless faults s₁ s₂ :=
  fun n hn hn' => h n (hle.trans hn) (hn'.trans_le hle')

theorem Logger.Open.inv {s : Logger} (h : s.Open) : Inv s := by
  obtain ⟨file, hfos, hcurrent⟩ := h
  intro other hother
  rw [hfos] at hother
  rw [hcurrent, hother]

theorem Goes.skip {s : Logger} (h : s.Open) : Goes faults s (s, none) [] :=
  ⟨le_refl _, by simp, h.inv, fun _ => ⟨h, by simp⟩, by simp⟩

theorem Goes.andThen {s : Logger} {r : Logger × End} {next : Logger → Logger × End}
    {lines lines' : List JavaString} (h : Goes faults s r lines)
    (hnext : r.1.Open → Goes faults r.1 (next r.1) lines') :
    Goes faults s (andThen r next) (lines ++ lines') := by
  obtain ⟨s₁, e⟩ := r
  cases e with
  | some e =>
    exact ⟨h.ops, h.noNull, h.inv, by simp, h.fault⟩
  | none =>
    obtain ⟨hopen, hwritten⟩ := h.done rfl
    have hgoes := hnext hopen
    rw [andThen_none]
    refine ⟨h.ops.trans hgoes.ops, hgoes.noNull, hgoes.inv, fun hdone => ?_, fun hio hno => ?_⟩
    · obtain ⟨hopen', hwritten'⟩ := hgoes.done hdone
      refine ⟨hopen', ?_⟩
      simp [hwritten', hwritten]
    · exact hgoes.fault hio (hno.mono h.ops (le_refl _))

theorem not_faultless {s s' : Logger} {n : Nat} (h : faults s.ops = some n) (hlt : s.ops < s'.ops) :
    ¬ Faultless faults s s' := by
  intro hno
  have hnone := hno s.ops (le_refl _) hlt
  rw [h] at hnone
  cases hnone

@[simp] theorem record_written (op : FileOp) (after : Disk) (s : Logger) :
    (s.record op after).written = s.written ++ op.line.toList := by
  simp only [Logger.written, Logger.record, List.filterMap_append]
  cases h : op.line <;> simp [h]

section Steps

variable {s : Logger}

theorem safeCloseFos_ops (s : Logger) : s.ops ≤ (safeCloseFos s).ops := by
  unfold safeCloseFos
  split <;> simp

theorem safeCloseFos_fos (s : Logger) : (safeCloseFos s).fos = none := by
  unfold safeCloseFos
  split <;> simp [*]

@[simp] theorem safeCloseFos_written (s : Logger) : (safeCloseFos s).written = s.written := by
  unfold safeCloseFos
  split <;> rfl

@[simp] theorem safeCloseFos_disk (s : Logger) : (safeCloseFos s).disk = s.disk := by
  unfold safeCloseFos
  split <;> rfl

theorem Inv.of_fos {s : Logger} (h : s.fos = none) : Inv s := by
  intro file hfile
  rw [h] at hfile
  cases hfile

theorem openAppend_goes {file : JavaString} (hcurrent : s.currentFile = some file)
    (hfos : s.fos = none) : Goes faults s (openAppend faults file s) [] := by
  unfold openAppend
  split
  · next n hfault =>
    exact ⟨by simp, by simp, Inv.of_fos hfos, by simp, fun _ => not_faultless hfault (by simp)⟩
  · refine ⟨by simp [Logger.record], by simp, ?_, fun _ => ?_, by simp⟩
    · exact Logger.Open.inv ⟨file, rfl, hcurrent⟩
    · exact ⟨⟨file, rfl, hcurrent⟩, (record_written _ _ _).trans (by simp [FileOp.line])⟩

theorem openTruncate_goes {date : JavaString} {index : Nat}
    (hcurrent : s.currentFile = some (rolledName cfg.baseName date index)) (hfos : s.fos = none) :
    Goes faults s (openTruncate cfg faults date index s) [] := by
  unfold openTruncate
  split
  · next n hfault =>
    exact ⟨by simp, by simp, Inv.of_fos hfos, by simp, fun _ => not_faultless hfault (by simp)⟩
  · refine ⟨by simp [Logger.record], by simp, ?_, fun _ => ?_, by simp⟩
    · exact Logger.Open.inv ⟨_, rfl, hcurrent⟩
    · exact ⟨⟨_, rfl, hcurrent⟩, (record_written _ _ _).trans (by simp [FileOp.line])⟩

/-- What is done before a method and writes nothing does not matter. -/
theorem Goes.of_before {s₁ : Logger} {r : Logger × End} {lines : List JavaString}
    (h : Goes faults s₁ r lines) (hops : s.ops ≤ s₁.ops) (hwritten : s₁.written = s.written) :
    Goes faults s r lines := by
  refine ⟨hops.trans h.ops, h.noNull, h.inv, fun hdone => ?_, fun hio hno => ?_⟩
  · rw [← hwritten]
    exact h.done hdone
  · exact h.fault hio (hno.mono hops (le_refl _))

theorem rollOverSameDay_goes (s : Logger) : Goes faults s (rollOverSameDay cfg faults s) [] := by
  unfold rollOverSameDay
  apply Goes.of_before
  · apply openTruncate_goes
    · rfl
    · exact safeCloseFos_fos s
  · exact safeCloseFos_ops s
  · exact safeCloseFos_written s

/-- `rollIfNeeded` has something to open: there is no current file, or the day has changed. -/
def Logger.Due (s : Logger) (today : JavaString) : Prop :=
  s.currentFile = none ∨ some today ≠ s.currentDateStr

theorem rollIfNeeded_goes {today : JavaString} (h : s.Due today ∨ s.Open) :
    Goes faults s (rollIfNeeded cfg faults today s) [] := by
  unfold rollIfNeeded
  split
  · apply Goes.of_before
    · apply openAppend_goes
      · rfl
      · exact safeCloseFos_fos s
    · exact safeCloseFos_ops s
    · exact safeCloseFos_written s
  · next hno => exact Goes.skip (h.resolve_left hno)

theorem writeBytes_goes {line : JavaString} (h : s.Open) :
    Goes faults s (writeBytes faults line s) [line] := by
  obtain ⟨file, hfos, hcurrent⟩ := h
  unfold writeBytes
  rw [hfos]
  dsimp only
  split
  · next n hfault =>
    refine ⟨by simp [Logger.record], by simp, ?_, by simp, fun _ => ?_⟩
    · exact Logger.Open.inv ⟨file, hfos, hcurrent⟩
    · exact not_faultless hfault (by simp [Logger.record])
  · refine ⟨by simp [Logger.record], by simp, ?_, fun _ => ⟨?_, ?_⟩, by simp⟩
    · exact Logger.Open.inv ⟨file, hfos, hcurrent⟩
    · exact ⟨file, hfos, hcurrent⟩
    · exact record_written _ _ _

def RollsOver (cfg : Config) (s : Logger) (file line : JavaString) : Prop :=
  cfg.maxFileSize < fileLength s.disk file + (lineBytes line).length

theorem writeLine_goes {line file : JavaString} (hcurrent : s.currentFile = some file)
    (h : RollsOver cfg s file line ∨ s.Open) :
    Goes faults s (writeLine cfg faults line s) [line] := by
  unfold writeLine
  rw [hcurrent]
  dsimp only
  split
  · exact (rollOverSameDay_goes s).andThen fun hopen => writeBytes_goes hopen
  · next hno => exact writeBytes_goes (h.resolve_left hno)

theorem writeLines_goes (batch : List JavaString) : ∀ {s : Logger}, s.Open →
    Goes faults s (writeLines cfg faults batch s) batch := by
  induction batch with
  | nil => exact Goes.skip
  | cons line batch ih =>
    intro s hopen
    obtain ⟨file, -, hcurrent⟩ := id hopen
    exact (writeLine_goes hcurrent (Or.inr hopen)).andThen ih

theorem flush_goes (h : s.Open) : Goes faults s (flush s) [] := by
  obtain ⟨file, hfos, -⟩ := id h
  unfold flush
  rw [hfos]
  exact Goes.skip h

end Steps

/-! ### A batch -/

/-- The call meets no null reference, and writes the whole batch when its file operations
    succeed. -/
def Recovers (cfg : Config) (faults : Nat → Option Nat) (s : Logger)
    (call : JavaString × List JavaString) : Prop :=
  (writeBatchToDisk cfg faults call.1 call.2 s).2 ≠ some .nullPointer ∧
    (Faultless faults s (writeBatchToDisk cfg faults call.1 call.2 s).1 →
      (writeBatchToDisk cfg faults call.1 call.2 s).1.written = s.written ++ call.2)

/-- There is a current file of the same day without a stream, and the batch is empty or its first
    line still fits into the file. -/
def Stranded (cfg : Config) (s : Logger) (call : JavaString × List JavaString) : Prop :=
  s.fos = none ∧ s.currentDateStr = some call.1 ∧ ∃ file, s.currentFile = some file ∧
    ∀ line ∈ call.2.head?, ¬ RollsOver cfg s file line

section Batch

variable {s : Logger} {call : JavaString × List JavaString}

theorem recovers_of_goes {r : Logger × End}
    (heq : writeBatch cfg faults call.1 call.2 s = r) (h : Goes faults s r call.2) :
    Recovers cfg faults s call := by
  obtain ⟨s', e⟩ := r
  unfold Recovers writeBatchToDisk
  rw [heq]
  cases e with
  | none => exact ⟨by simp, fun _ => (h.done rfl).2⟩
  | some e =>
    cases e with
    | io => exact ⟨by simp, fun hno => absurd hno (h.fault rfl)⟩
    | nullPointer => exact absurd rfl h.noNull

theorem writeLines_flush_goes (batch : List JavaString) (h : s.Open) :
    Goes faults s (andThen (writeLines cfg faults batch s) flush) batch := by
  have hall := (@writeLines_goes cfg faults batch s h).andThen fun hopen => flush_goes hopen
  rw [List.append_nil] at hall
  exact hall

theorem writeBatch_goes_of_open (h : s.Due call.1 ∨ s.Open) :
    Goes faults s (writeBatch cfg faults call.1 call.2 s) call.2 := by
  have hall : Goes faults s (writeBatch cfg faults call.1 call.2 s) ([] ++ call.2) := by
    apply Goes.andThen
    · exact rollIfNeeded_goes h
    · exact fun hopen => writeLines_flush_goes call.2 hopen
  exact hall

/-- Without a stream the batch still goes through when its first line rolls over. -/
theorem writeBatch_goes_of_rollsOver {file line : JavaString} {batch : List JavaString}
    (hdue : ¬ s.Due call.1) (hcurrent : s.currentFile = some file) (hbatch : call.2 = line :: batch)
    (hrolls : RollsOver cfg s file line) :
    Goes faults s (writeBatch cfg faults call.1 call.2 s) call.2 := by
  have hroll : rollIfNeeded cfg faults call.1 s = (s, none) := if_neg hdue
  have hlines : Goes faults s (writeLines cfg faults (line :: batch) s) ([line] ++ batch) := by
    apply Goes.andThen
    · exact writeLine_goes hcurrent (Or.inl hrolls)
    · exact fun hopen => writeLines_goes batch hopen
  have hall := hlines.andThen fun hopen => flush_goes hopen
  rw [List.append_nil] at hall
  unfold writeBatch
  rw [hroll, andThen_none, hbatch]
  exact hall

theorem not_due_iff {today : JavaString} :
    ¬ s.Due today ↔ (∃ file, s.currentFile = some file) ∧ s.currentDateStr = some today := by
  unfold Logger.Due
  rw [not_or, not_not, ← ne_eq, Option.ne_none_iff_exists', eq_comm (a := some today)]

theorem Stranded.writeBatch_eq (h : Stranded cfg s call) :
    writeBatch cfg faults call.1 call.2 s = (s, some .nullPointer) := by
  obtain ⟨hfos, hdate, file, hcurrent, hfits⟩ := h
  have hroll : rollIfNeeded cfg faults call.1 s = (s, none) :=
    if_neg (not_due_iff.mpr ⟨⟨file, hcurrent⟩, hdate⟩)
  unfold writeBatch
  rw [hroll, andThen_none]
  cases hbatch : call.2 with
  | nil => simp [writeLines, flush, hfos]
  | cons line batch =>
    have hno : ¬ RollsOver cfg s file line := hfits line (by simp [hbatch])
    have hline : writeLine cfg faults line s = (s, some .nullPointer) := by
      simp only [RollsOver] at hno
      simp [writeLine, hcurrent, hno, writeBytes, hfos]
    simp [writeLines, hline]

theorem writeBatch_goes (hinv : Inv s) (hno : ¬ Stranded cfg s call) :
    Goes faults s (writeBatch cfg faults call.1 call.2 s) call.2 := by
  by_cases hdue : s.Due call.1
  · exact writeBatch_goes_of_open (Or.inl hdue)
  · obtain ⟨⟨file, hcurrent⟩, hdate⟩ := not_due_iff.mp hdue
    cases hfos : s.fos with
    | some other =>
      have hopen : s.Open := ⟨other, hfos, hinv other hfos⟩
      exact writeBatch_goes_of_open (Or.inr hopen)
    | none =>
      -- the stream is missing: only a roll-over for the first line opens one
      have hfirst : ∃ line ∈ call.2.head?, RollsOver cfg s file line := by
        by_contra hnone
        apply hno
        refine ⟨hfos, hdate, file, hcurrent, fun line hline hrolls => ?_⟩
        exact hnone ⟨line, hline, hrolls⟩
      obtain ⟨line, hline, hrolls⟩ := hfirst
      obtain ⟨batch, hbatch⟩ := List.head?_eq_some_iff.mp hline
      exact writeBatch_goes_of_rollsOver hdue hcurrent hbatch hrolls

theorem writeBatchToDisk_state : (writeBatchToDisk cfg faults call.1 call.2 s).1 =
    (writeBatch cfg faults call.1 call.2 s).1 := by
  unfold writeBatchToDisk
  split <;> simp [*]

/-- **A batch recovers exactly when it is not stranded.** -/
theorem recovers_iff (hinv : Inv s) : Recovers cfg faults s call ↔ ¬ Stranded cfg s call := by
  constructor
  · intro hrecovers hstranded
    apply hrecovers.1
    simp [writeBatchToDisk, hstranded.writeBatch_eq]
  · exact fun hno => recovers_of_goes rfl (writeBatch_goes hinv hno)

theorem writeBatchToDisk_inv (hinv : Inv s) :
    Inv (writeBatchToDisk cfg faults call.1 call.2 s).1 := by
  rw [writeBatchToDisk_state]
  by_cases hstranded : Stranded cfg s call
  · rw [hstranded.writeBatch_eq]
    exact hinv
  · exact (writeBatch_goes hinv hstranded).inv

end Batch

/-! ### All batches -/

/-- **When the logger recovers.**  The batches of a run all recover, whatever opens, writes and
    closes throw, exactly when none of them is stranded. -/
theorem batches_recover_iff (cfg : Config) (faults : Nat → Option Nat) (disk : Disk)
    (calls : List (JavaString × List JavaString)) :
    (∀ s call s', Takes (step cfg faults) (Logger.start disk) calls s call s' →
        Recovers cfg faults s call) ↔
      ∀ s call s', Takes (step cfg faults) (Logger.start disk) calls s call s' →
        ¬ Stranded cfg s call := by
  have hinv : ∀ s call s', Takes (step cfg faults) (Logger.start disk) calls s call s' → Inv s := by
    intro s call s' htakes
    apply htakes.before
    · exact Inv.of_fos rfl
    · intro a k b hone ha
      cases hone.one
      exact writeBatchToDisk_inv ha
  constructor
  · exact fun h s call s' htakes => (recovers_iff (hinv s call s' htakes)).mp (h s call s' htakes)
  · exact fun h s call s' htakes => (recovers_iff (hinv s call s' htakes)).mpr (h s call s' htakes)

/-- The first operation, the `open` of the daily file, throws. -/
def firstOpenFails : Nat → Option Nat := fun n => if n = 0 then some 0 else none

def oneDay : List (JavaString × List JavaString) := [(['d'], [['x']]), (['d'], [['y']])]

/-- After one failed `open` the second batch of the day meets the null stream, though nothing
    throws any more. -/
theorem open_failure_sticks : ∃ s call s',
    Takes (step ⟨['b'], 1000⟩ firstOpenFails) (Logger.start ∅) oneDay s call s' ∧
      (∀ n, s.ops ≤ n → firstOpenFails n = none) ∧
      (writeBatchToDisk ⟨['b'], 1000⟩ firstOpenFails call.1 call.2 s).2 = some .nullPointer ∧
      s'.written = [] := by
  refine ⟨_, (['d'], [['y']]), _, ⟨[(['d'], [['x']])], [], rfl, rfl, rfl⟩, ?_, rfl, rfl⟩
  intro n hn
  have hpos : n ≠ 0 := Nat.one_le_iff_ne_zero.mp hn
  simp [firstOpenFails, hpos]

end Albatross.LogFiles
