/-
  Albatross/LogFiles.lean
  =======================
  **The files of the rolling logger** (`BufferedDailyRollingLogger.java`:
  `writeBatchToDisk`, `rollIfNeeded`, `rollOverSameDay`, `safeCloseFos`).

  Here a file has its bytes, and opening, writing and closing may throw: `faults n`
  says of the `n`-th of these operations whether it does.  An `open` that throws leaves
  the directory alone, a `write` that throws has written some of its bytes.  An
  `IOException` ends the batch and is caught; a `NullPointerException` is not.

  The directory has whatever files it has at the start, and only the logger writes to
  them.  The index of a roll-over is an `int` that is taken as a number: it would wrap
  after 2^31 - 1 files of one day.  `events`, the record of the file operations that
  went through, is read by no code.
-/
import Albatross.FirstFree
import Albatross.Python
import Albatross.RollingLogger

namespace Albatross.LogFiles

open Assoc Runs
open Registry (JavaString)
open Python (Bytes)
open FirstFree (firstFree)
open RollingLogger (dailyName rolledName)

/-! ### State -/

abbrev Disk := Dict JavaString Bytes

structure Config where
  baseName : JavaString
  maxFileSize : Int

inductive FileOp where
  | openAppend (file : JavaString)
  | rollOver (date : JavaString) (index : Nat)
  | write (file line : JavaString)
  | tornWrite (file : JavaString)

/-- A file operation, with the directory before and after it. -/
structure Event where
  op : FileOp
  before : Disk
  after : Disk

/-- `ops` counts the operations that may throw. -/
structure Logger where
  currentFile : Option JavaString
  fos : Option JavaString
  currentDateStr : Option JavaString
  disk : Disk
  ops : Nat
  events : List Event

def Logger.start (disk : Disk) : Logger := ⟨none, none, none, disk, 0, []⟩

def Logger.record (op : FileOp) (after : Disk) (s : Logger) : Logger :=
  { s with disk := after, ops := s.ops + 1, events := s.events ++ [⟨op, s.disk, after⟩] }

def FileOp.line : FileOp → Option JavaString
  | .write _ line => some line
  | _ => none

def Logger.written (s : Logger) : List JavaString := s.events.filterMap fun e => e.op.line

inductive Thrown where
  | io
  | nullPointer
deriving DecidableEq

/-- How a method ends: it returns (`none`) or throws. -/
abbrev End := Option Thrown

def andThen (r : Logger × End) (next : Logger → Logger × End) : Logger × End :=
  match r with
  | (s, none) => next s
  | (s, some e) => (s, some e)

@[simp] theorem andThen_none (s : Logger) (next : Logger → Logger × End) :
    andThen (s, none) next = next s := rfl

@[simp] theorem andThen_some (s : Logger) (e : Thrown) (next : Logger → Logger × End) :
    andThen (s, some e) next = (s, some e) := rfl

/-! ### File operations -/

/-- `(line + "\n").getBytes()`. -/
def lineBytes (line : JavaString) : Bytes :=
  (line ++ [Char.ofNat 10]).flatMap String.utf8EncodeChar

/-- `file.length()`. -/
def fileLength (disk : Disk) (file : JavaString) : Nat :=
  match disk.lookup file with
  | none => 0
  | some bytes => bytes.length

def appendTo (file : JavaString) (bytes : Bytes) (disk : Disk) : Disk :=
  disk.insert file ((disk.lookup file).getD [] ++ bytes)

section Code

variable (cfg : Config) (faults : Nat → Option Nat)

/-- A `close()` that throws is caught. -/
def safeCloseFos (s : Logger) : Logger :=
  if s.fos = none then s else { s with currentFile := none, fos := none, ops := s.ops + 1 }

/-- `fos = new FileOutputStream(file, true)`. -/
def openAppend (file : JavaString) (s : Logger) : Logger × End :=
  match faults s.ops with
  | some _ => ({ s with ops := s.ops + 1 }, some .io)
  | none =>
      let disk := if s.disk.lookup file = none then s.disk.insert file [] else s.disk
      ({ s.record (.openAppend file) disk with fos := some file }, none)

def rollIfNeeded (today : JavaString) (s : Logger) : Logger × End :=
  if s.currentFile = none ∨ some today ≠ s.currentDateStr then
    let file := dailyName cfg.baseName today
    openAppend faults file
      { safeCloseFos s with currentDateStr := some today, currentFile := some file }
  else (s, none)

/-- The index at which the loop `do … while (candidate.exists())` ends.  A directory of `n`
    files does not hold all of `n + 1` candidates, so the loop needs no more turns. -/
def candidateIndex (date : JavaString) (disk : Disk) : Nat :=
  firstFree (fun index => (disk.lookup (rolledName cfg.baseName date index)).isSome)
    disk.keys.length 1

/-- `fos = new FileOutputStream(file, false)`, for the candidate. -/
def openTruncate (date : JavaString) (index : Nat) (s : Logger) : Logger × End :=
  match faults s.ops with
  | some _ => ({ s with ops := s.ops + 1 }, some .io)
  | none =>
      let file := rolledName cfg.baseName date index
      ({ s.record (.rollOver date index) (s.disk.insert file []) with fos := some file }, none)

def rollOverSameDay (s : Logger) : Logger × End :=
  let s := safeCloseFos s
  let date := s.currentDateStr.getD ['n', 'u', 'l', 'l']
  let index := candidateIndex cfg date s.disk
  openTruncate cfg faults date index
    { s with currentFile := some (rolledName cfg.baseName date index) }

/-- `fos.write(bytes)`. -/
def writeBytes (line : JavaString) (s : Logger) : Logger × End :=
  match s.fos with
  | none => (s, some .nullPointer)
  | some file =>
      match faults s.ops with
      | some n =>
          (s.record (.tornWrite file) (appendTo file ((lineBytes line).take n) s.disk), some .io)
      | none => (s.record (.write file line) (appendTo file (lineBytes line) s.disk), none)

def writeLine (line : JavaString) (s : Logger) : Logger × End :=
  match s.currentFile with
  | none => (s, some .nullPointer)
  | some file =>
      if cfg.maxFileSize < fileLength s.disk file + (lineBytes line).length then
        andThen (rollOverSameDay cfg faults s) (writeBytes faults line)
      else writeBytes faults line s

def writeLines : List JavaString → Logger → Logger × End
  | [], s => (s, none)
  | line :: batch, s => andThen (writeLine cfg faults line s) (writeLines batch)

/-- `fos.flush()`, which does nothing to a `FileOutputStream`. -/
def flush (s : Logger) : Logger × End :=
  match s.fos with
  | none => (s, some .nullPointer)
  | some _ => (s, none)

/-- The body of the `try` block. -/
def writeBatch (today : JavaString) (batch : List JavaString) (s : Logger) : Logger × End :=
  andThen (rollIfNeeded cfg faults today s) fun s =>
    andThen (writeLines cfg faults batch s) flush

/-- `today` is the date that the call reads. -/
def writeBatchToDisk (today : JavaString) (batch : List JavaString) (s : Logger) : Logger × End :=
  match writeBatch cfg faults today batch s with
  | (s, some .io) => (s, none)
  | r => r

/-- A call of `writeBatchToDisk` by the writer's loop, which catches what it throws. -/
def step (s : Logger) (call : JavaString × List JavaString) : Option Logger :=
  some (writeBatchToDisk cfg faults call.1 call.2 s).1

end Code

end Albatross.LogFiles
