/-
  Albatross/RollingLogger.lean
  ============================
  **The rolling logger** (`BufferedDailyRollingLogger.java`: `log`, `flush`, `close`,
  `writerLoop`, `writeBatchToDisk`, `rollIfNeeded`, `rollOverSameDay`).

  Any number of threads log, flush and close; one writer thread moves lines from
  `logQueue` to its batch and from the batch to a file.  A critical section and an
  access to `running` or to the queue outside one are each one step.  The writer alone
  uses the batch and the files until it has ended, so a line is written, with the
  roll-over before it, in one step.  What the writer does before its loop touches
  nothing shared: it starts with the start line in its batch.

  Clock readings, dates and time stamps are arbitrary, a `wait` may end at any time,
  and file operations succeed.  A file keeps the bytes it had and the lines written to
  it.  `enqueued` and `written` are records that no code reads.
-/
import Albatross.Assoc
import Albatross.Registry
import Albatross.Runs
import Mathlib.Algebra.GroupWithZero.Nat

namespace Albatross.RollingLogger

open Assoc Runs
open Registry (JavaString)

def FLUSH_INTERVAL_MS : Int := 500
def MAX_BUFFER_SIZE : Nat := 50

/-! ### Lines and files -/

/-- A file: its length in bytes, and the lines that this logger has written to it. -/
structure File where
  length : Nat
  lines : List JavaString
deriving DecidableEq

/-- `(line + "\n").getBytes().length`. -/
def byteLength (line : JavaString) : Nat := (line.map fun c => c.utf8Size).sum + 1

/-- `"[" + timestamp + "] " + message`. -/
def logLine (timestamp message : JavaString) : JavaString :=
  '[' :: timestamp ++ [']', ' '] ++ message

/-- `baseName + "_" + today + ".log"`. -/
def dailyName (baseName today : JavaString) : JavaString :=
  baseName ++ '_' :: today ++ ['.', 'l', 'o', 'g']

/-- `baseName + "_" + currentDateStr + "_" + index + ".log"`. -/
def rolledName (baseName date : JavaString) (index : Nat) : JavaString :=
  baseName ++ '_' :: date ++ '_' :: Nat.toDigits 10 index ++ ['.', 'l', 'o', 'g']

/-- The arguments of the constructor, the start line, the clock at the start, and the files there
    are with their lengths. -/
structure Config where
  baseName : JavaString
  maxFileSize : Int
  startLine : JavaString
  now : Int
  disk : List (JavaString × Nat)

/-! ### State -/

/-- Where the writer is.  `final` tells the last batch from those of the loop; `rest` is what the
    `for` over the batch has still to come to. -/
inductive Writer where
  | loop
  | entering
  | waiting
  | deciding
  | rolling (final : Bool)
  | writing (final : Bool) (rest : List JavaString)
  | drainCheck
  | draining
  | drained
  | ended
deriving DecidableEq

/-- The writer has looked at the queue for the last time. -/
def Writer.past : Writer → Bool
  | .rolling final => final
  | .writing final _ => final
  | .drained => true
  | .ended => true
  | _ => false

/-- Where a thread is in `close`. -/
inductive Closer where
  | idle
  | stopped
  | joining
  | joined
  | returned
deriving DecidableEq

/-- `fos` is the file that the stream is open on. -/
structure Logger where
  running : Bool
  logQueue : List JavaString
  writer : Writer
  batch : List JavaString
  lastFlushTime : Int
  currentFile : Option JavaString
  fos : Option JavaString
  currentDateStr : Option JavaString
  disk : Dict JavaString File
  producers : Nat → Option JavaString
  closers : Nat → Closer
  enqueued : List JavaString
  written : List (JavaString × JavaString)

def Logger.start (cfg : Config) : Logger where
  running := true
  logQueue := []
  writer := .loop
  batch := [cfg.startLine]
  lastFlushTime := cfg.now
  currentFile := none
  fos := none
  currentDateStr := none
  disk := fill Prod.fst (fun e => ⟨e.2, []⟩) cfg.disk ∅
  producers := fun _ => none
  closers := fun _ => .idle
  enqueued := []
  written := []

/-- The part of the batch that has not been written. -/
def Logger.unwritten (s : Logger) : List JavaString :=
  match s.writer with
  | .writing _ rest => rest
  | .ended => []
  | _ => s.batch

def Logger.linesOf (s : Logger) (file : JavaString) : List JavaString :=
  match s.disk.lookup file with
  | none => []
  | some f => f.lines

/-! ### Files -/

def safeCloseFos (s : Logger) : Logger :=
  if s.fos = none then s else { s with currentFile := none, fos := none }

/-- `new FileOutputStream(file, true)`, and `currentFile`. -/
def openAppend (file : JavaString) (s : Logger) : Logger :=
  { s with
    currentFile := some file
    fos := some file
    disk := if s.disk.lookup file = none then s.disk.insert file ⟨0, []⟩ else s.disk }

/-- `new FileOutputStream(file, false)`, and `currentFile`. -/
def openTruncate (file : JavaString) (s : Logger) : Logger :=
  { s with
    currentFile := some file
    fos := some file
    disk := s.disk.insert file ⟨0, []⟩ }

def rollIfNeeded (cfg : Config) (today : JavaString) (s : Logger) : Logger :=
  if s.currentFile = none ∨ some today ≠ s.currentDateStr then
    openAppend (dailyName cfg.baseName today) { safeCloseFos s with currentDateStr := some today }
  else s

/-- The candidate that the loop of `rollOverSameDay` stops at. -/
def StopsAt (cfg : Config) (date : JavaString) (index : Nat) (s : Logger) : Prop :=
  1 ≤ index ∧ s.disk.lookup (rolledName cfg.baseName date index) = none ∧
    ∀ i < index, 1 ≤ i → s.disk.lookup (rolledName cfg.baseName date i) ≠ none

instance (cfg : Config) (date : JavaString) (index : Nat) (s : Logger) :
    Decidable (StopsAt cfg date index s) := inferInstanceAs (Decidable (_ ∧ _ ∧ _))

def rollOverSameDay (cfg : Config) (index : Nat) (s : Logger) : Option Logger :=
  let date := s.currentDateStr.getD ['n', 'u', 'l', 'l']
  if StopsAt cfg date index s then
    some (openTruncate (rolledName cfg.baseName date index) (safeCloseFos s))
  else none

/-- `currentFile.length()`. -/
def currentLength (s : Logger) : Nat :=
  match s.currentFile.bind fun file => s.disk.lookup file with
  | none => 0
  | some f => f.length

/-- `fos.write(bytes)`. -/
def writeBytes (line : JavaString) (s : Logger) : Option Logger :=
  match s.fos with
  | none => none
  | some file =>
      let f := (s.disk.lookup file).getD ⟨0, []⟩
      some { s with
        disk := s.disk.insert file ⟨f.length + byteLength line, f.lines ++ [line]⟩
        written := s.written ++ [(file, line)] }

/-- One turn of the `for` of `writeBatchToDisk`; `index` is for a roll-over. -/
def writeLine (cfg : Config) (index : Nat) (line : JavaString) (s : Logger) : Option Logger :=
  if cfg.maxFileSize < currentLength s + byteLength line then
    (rollOverSameDay cfg index s).bind (writeBytes line)
  else writeBytes line s

/-! ### The writer -/

/-- The body of the critical section after the wait: at most `MAX_BUFFER_SIZE` lines go from the
    queue to the batch. -/
def takeBatch (s : Logger) : Logger :=
  { s with
    batch := s.batch ++ s.logQueue.take MAX_BUFFER_SIZE
    logQueue := s.logQueue.drop MAX_BUFFER_SIZE
    writer := .deciding }

/-- The beginning of `writeBatchToDisk`. -/
def beginBatch (cfg : Config) (today : JavaString) (s : Logger) : Option Logger :=
  match s.writer with
  | .rolling final => some { rollIfNeeded cfg today s with writer := .writing final s.batch }
  | _ => none

def writeNext (cfg : Config) (index : Nat) (s : Logger) : Option Logger :=
  match s.writer with
  | .writing final (line :: rest) =>
      (writeLine cfg index line s).map fun s => { s with writer := .writing final rest }
  | _ => none

/-- The end of `writeBatchToDisk`, and what the writer does after it. -/
def endBatch (now : Int) (s : Logger) : Option Logger :=
  match s.writer with
  | .writing false [] => some { s with batch := [], lastFlushTime := now, writer := .loop }
  | .writing true [] => some { s with writer := .ended }
  | _ => none

def poll (s : Logger) : Logger :=
  match s.logQueue with
  | [] => { s with writer := .drained }
  | line :: queue => { s with logQueue := queue, batch := s.batch ++ [line] }

inductive WriterOp where
  | readRunning
  | critical (now : Int)
  | decide (now : Int)
  | beginBatch (today : JavaString)
  | writeNext (index : Nat)
  | endBatch (now : Int)
  | drainCheck
  | poll
  | finish

def writerStep (cfg : Config) (s : Logger) : WriterOp → Option Logger
  | .readRunning =>
      if s.writer = .loop then
        some { s with writer := if s.running then .entering else .drainCheck }
      else none
  | .critical now =>
      if s.writer = .entering ∨ s.writer = .waiting then
        if s.logQueue = [] ∧ s.running = true ∧ now - s.lastFlushTime < FLUSH_INTERVAL_MS then
          some { s with writer := .waiting }
        else some (takeBatch s)
      else none
  | .decide now =>
      if s.writer = .deciding then
        if s.batch ≠ [] ∨ FLUSH_INTERVAL_MS ≤ now - s.lastFlushTime then
          some { s with writer := .rolling false }
        else some { s with writer := .loop }
      else none
  | .beginBatch today => beginBatch cfg today s
  | .writeNext index => writeNext cfg index s
  | .endBatch now => endBatch now s
  | .drainCheck =>
      if s.writer = .drainCheck then
        some { s with writer := if s.logQueue = [] then .drained else .draining }
      else none
  | .poll => if s.writer = .draining then some (poll s) else none
  | .finish =>
      if s.writer = .drained then
        some { s with writer := if s.batch = [] then .ended else .rolling true }
      else none

/-! ### The other threads -/

def enqueue (t : Nat) (s : Logger) : Option Logger :=
  match s.producers t with
  | none => none
  | some line =>
      some { s with
        producers := Function.update s.producers t none
        logQueue := s.logQueue ++ [line]
        enqueued := s.enqueued ++ [line] }

inductive Op where
  | log (t : Nat) (timestamp message : JavaString)
  | enqueue (t : Nat)
  | flush (t : Nat)
  | close (t : Nat)
  | closeFlush (t : Nat)
  | closeJoin (t : Nat)
  | closeFile (t : Nat)
  | writer (op : WriterOp)

/-- `log` is a call up to its check of `running`; a `flush` wakes the writer, which may wake up
    anyway. -/
def step (cfg : Config) (s : Logger) : Op → Option Logger
  | .log t timestamp message =>
      if s.producers t = none then
        if s.running then
          some { s with
            producers := Function.update s.producers t (some (logLine timestamp message)) }
        else some s
      else none
  | .enqueue t => enqueue t s
  | .flush _ => some s
  | .close t =>
      if s.closers t = .idle then
        some { s with running := false, closers := Function.update s.closers t .stopped }
      else none
  | .closeFlush t =>
      if s.closers t = .stopped then
        some { s with closers := Function.update s.closers t .joining }
      else none
  | .closeJoin t =>
      if s.closers t = .joining ∧ s.writer = .ended then
        some { s with closers := Function.update s.closers t .joined }
      else none
  | .closeFile t =>
      if s.closers t = .joined then
        some { safeCloseFos s with closers := Function.update s.closers t .returned }
      else none
  | .writer op => writerStep cfg s op

end Albatross.RollingLogger
