/-
  Albatross/LogRollOver.lean
  ==========================
  **Rolling the log over never destroys data and keeps the files small.**

  Every file operation of every run appends: it leaves the bytes that a file has and
  adds to them, also the truncating `open` of a roll-over, whose file did not exist.
  The search for that file stops at the first index that is not in use.  And a line
  goes to a file that is then at most `maxFileSize` bytes long, or to one that a
  roll-over has made and that holds nothing but the line (`rolling_bounded`).

  None of this needs the operations to succeed.
-/
import Albatross.Decimal
import Albatross.LogRecovery

namespace Albatross.LogFiles

open Assoc Runs
open Registry (JavaString)
open RollingLogger (dailyName rolledName)

/-! ### What the operations of a run keep -/

/-- Every file keeps its bytes; more may have been appended. -/
def Appends (before after : Disk) : Prop :=
  ∀ file bytes, before.lookup file = some bytes → ∃ more, after.lookup file = some (bytes ++ more)

/-- The index is the first that no file of the date has. -/
structure FirstUnused (cfg : Config) (date : JavaString) (index : Nat) (disk : Disk) : Prop where
  pos : 1 ≤ index
  unused : disk.lookup (rolledName cfg.baseName date index) = none
  used : ∀ i, 1 ≤ i → i < index → disk.lookup (rolledName cfg.baseName date i) ≠ none

/-- The operations lead from one directory to the other. -/
def Follows : Disk → List Event → Disk → Prop
  | disk, [], disk' => disk = disk'
  | disk, e :: events, disk' => e.before = disk ∧ Follows e.after events disk'

/-- The line's file is small after the write, or it was made by a roll-over among the earlier
    operations and holds only the line. -/
def Fits (cfg : Config) (past : List Event) (file line : JavaString) (after : Disk) : Prop :=
  (fileLength after file : Int) ≤ cfg.maxFileSize ∨
    after.lookup file = some (lineBytes line) ∧ ∃ e ∈ past, ∃ date index,
      e.op = .rollOver date index ∧ file = rolledName cfg.baseName date index

/-- What an operation, with the ones before it, is to meet. -/
structure Proper (cfg : Config) (past : List Event) (e : Event) : Prop where
  appends : Appends e.before e.after
  search : ∀ date index, e.op = .rollOver date index → FirstUnused cfg date index e.before
  fits : ∀ file line, e.op = .write file line → Fits cfg past file line e.after

/-- The invariant of a run that began with `disk`. -/
structure Kept (cfg : Config) (disk : Disk) (s : Logger) : Prop where
  stream : Inv s
  follows : Follows disk s.events s.disk
  proper : ∀ past e, past ++ [e] <+: s.events → Proper cfg past e

theorem Appends.refl (disk : Disk) : Appends disk disk :=
  fun _ bytes h => ⟨[], by rw [h, List.append_nil]⟩

theorem Appends.trans {d d' d'' : Disk} (h : Appends d d') (h' : Appends d' d'') :
    Appends d d'' := by
  intro file bytes hfile
  obtain ⟨more, hmore⟩ := h file bytes hfile
  obtain ⟨more', hmore'⟩ := h' file _ hmore
  exact ⟨more ++ more', by rw [hmore', List.append_assoc]⟩

theorem Appends.create {disk : Disk} {file : JavaString} (h : disk.lookup file = none) :
    Appends disk (disk.insert file []) := by
  intro other bytes hother
  have hne : other ≠ file := by
    rintro rfl
    rw [h] at hother
    cases hother
  exact ⟨[], by rw [AList.lookup_insert_ne hne, hother, List.append_nil]⟩

theorem appendTo_appends (disk : Disk) (file : JavaString) (bytes : Python.Bytes) :
    Appends disk (appendTo file bytes disk) := by
  intro other old hother
  by_cases h : other = file
  · subst h
    exact ⟨bytes, by simp [appendTo, AList.lookup_insert, hother]⟩
  · exact ⟨[], by simp [appendTo, AList.lookup_insert_ne h, hother]⟩

theorem Follows.snoc {e : Event} {events : List Event} :
    ∀ {disk : Disk}, Follows disk events e.before → Follows disk (events ++ [e]) e.after := by
  induction events with
  | nil => exact fun h => ⟨h.symm, rfl⟩
  | cons first events ih => exact fun h => ⟨h.1, ih h.2⟩

/-- From the start of a run to its end, every file keeps its bytes. -/
theorem Follows.appends {events : List Event} : ∀ {disk disk' : Disk}, Follows disk events disk' →
    (∀ e ∈ events, Appends e.before e.after) → Appends disk disk' := by
  induction events with
  | nil =>
    rintro disk _ rfl -
    exact Appends.refl disk
  | cons e events ih =>
    rintro _ disk' ⟨rfl, hrest⟩ hall
    have hfirst := hall e List.mem_cons_self
    exact hfirst.trans (ih hrest fun x hx => hall x (List.mem_cons_of_mem e hx))

/-! ### The search -/

theorem rolledName_injective (baseName date : JavaString) :
    Function.Injective (rolledName baseName date) := by
  intro i j h
  simp only [rolledName, List.append_assoc, List.cons_append, List.append_cancel_left_eq,
    List.cons.injEq, true_and, List.append_cancel_right_eq] at h
  exact Decimal.toDigits_injective h

/-- The loop of `rollOverSameDay` ends, at the first index that is not in use. -/
theorem candidateIndex_firstUnused (cfg : Config) (date : JavaString) (disk : Disk) :
    FirstUnused cfg date (candidateIndex cfg date disk) disk := by
  obtain ⟨i, hle, hge, hfree⟩ :=
    FirstFree.exists_free (rolledName_injective cfg.baseName date) disk.keys 1
  have hnone : disk.lookup (rolledName cfg.baseName date i) = none := by
    rw [AList.lookup_eq_none, AList.mem_keys]
    exact hfree
  have hfirst : FirstFree.IsFirst
      (fun index => (disk.lookup (rolledName cfg.baseName date index)).isSome) 1
      (candidateIndex cfg date disk) := by
    apply FirstFree.firstFree_spec
    exact ⟨i, hle, hge, by simp [hnone]⟩
  refine ⟨hfirst.le, by simpa using hfirst.free, fun j hj hlt hno => ?_⟩
  have hused := hfirst.before j hj hlt
  simp [hno] at hused

/-! ### One call -/

section Call

variable {cfg : Config} {faults : Nat → Option Nat} {disk : Disk} {s : Logger}

theorem Kept.record (h : Kept cfg disk s) {op : FileOp} {after : Disk}
    (hproper : Proper cfg s.events ⟨op, s.disk, after⟩) : Kept cfg disk (s.record op after) := by
  refine ⟨h.stream, @Follows.snoc ⟨op, s.disk, after⟩ _ disk h.follows, fun past e hbefore => ?_⟩
  rcases List.prefix_concat_iff.mp hbefore with hall | hold
  · obtain ⟨rfl, hlast⟩ := List.append_inj' hall rfl
    cases hlast
    exact hproper
  · exact h.proper past e hold

theorem Kept.setStream (h : Kept cfg disk s) {s' : Logger} (hstream : Inv s')
    (hdisk : s'.disk = s.disk) (hevents : s'.events = s.events) : Kept cfg disk s' := by
  refine ⟨hstream, ?_, ?_⟩
  · rw [hdisk, hevents]
    exact h.follows
  · rw [hevents]
    exact h.proper

theorem safeCloseFos_events (s : Logger) : (safeCloseFos s).events = s.events := by
  unfold safeCloseFos
  split <;> rfl

theorem openAppend_kept {file : JavaString} (h : Kept cfg disk s)
    (hcurrent : s.currentFile = some file) : Kept cfg disk (openAppend faults file s).1 := by
  unfold openAppend
  split
  · exact h.setStream h.stream rfl rfl
  · refine Kept.setStream (h.record ⟨?_, by simp, by simp⟩) ?_ rfl rfl
    · dsimp only
      split
      · next hnone => exact Appends.create hnone
      · exact Appends.refl s.disk
    · exact Logger.Open.inv ⟨file, rfl, hcurrent⟩

theorem rollIfNeeded_kept {today : JavaString} (h : Kept cfg disk s) :
    Kept cfg disk (rollIfNeeded cfg faults today s).1 := by
  unfold rollIfNeeded
  split
  · refine openAppend_kept ?_ rfl
    refine h.setStream (Inv.of_fos ?_) ?_ ?_
    · exact safeCloseFos_fos s
    · exact safeCloseFos_disk s
    · exact safeCloseFos_events s
  · exact h

/-- A stream on a file that is empty and has been made by a roll-over. -/
def Rolled (cfg : Config) (s : Logger) : Prop :=
  ∃ date index, s.fos = some (rolledName cfg.baseName date index) ∧
    s.disk.lookup (rolledName cfg.baseName date index) = some [] ∧
    ∃ e ∈ s.events, e.op = .rollOver date index

theorem openTruncate_kept {date : JavaString} {index : Nat} (h : Kept cfg disk s)
    (hcurrent : s.currentFile = some (rolledName cfg.baseName date index))
    (hfirst : FirstUnused cfg date index s.disk) :
    Kept cfg disk (openTruncate cfg faults date index s).1 ∧
      ((openTruncate cfg faults date index s).2 = none →
        Rolled cfg (openTruncate cfg faults date index s).1) := by
  unfold openTruncate
  split
  · exact ⟨h.setStream h.stream rfl rfl, fun hdone => by cases hdone⟩
  · refine ⟨Kept.setStream (h.record ⟨?_, ?_, by simp⟩) ?_ rfl rfl, fun _ => ?_⟩
    · exact Appends.create hfirst.unused
    · intro date' index' hop
      cases hop
      exact hfirst
    · exact Logger.Open.inv ⟨_, rfl, hcurrent⟩
    · exact ⟨date, index, rfl, AList.lookup_insert _, _, List.mem_concat_self, rfl⟩

theorem rollOverSameDay_kept (h : Kept cfg disk s) :
    Kept cfg disk (rollOverSameDay cfg faults s).1 ∧
      ((rollOverSameDay cfg faults s).2 = none → Rolled cfg (rollOverSameDay cfg faults s).1) := by
  have hclosed : Kept cfg disk (safeCloseFos s) :=
    h.setStream (Inv.of_fos (safeCloseFos_fos s)) (safeCloseFos_disk s) (safeCloseFos_events s)
  unfold rollOverSameDay
  apply openTruncate_kept
  · exact hclosed.setStream (Inv.of_fos (safeCloseFos_fos s)) rfl rfl
  · rfl
  · apply candidateIndex_firstUnused

/-- A line may be written to the stream: it fits into the file, or the file is fresh. -/
theorem writeBytes_kept {line : JavaString} (h : Kept cfg disk s)
    (hfits : (∀ file, s.fos = some file → ¬ RollsOver cfg s file line) ∨ Rolled cfg s) :
    Kept cfg disk (writeBytes faults line s).1 := by
  unfold writeBytes
  split
  · exact h
  · next file hfos =>
    split
    · exact h.record ⟨appendTo_appends s.disk file _, by simp, by simp⟩
    · refine h.record ⟨appendTo_appends s.disk file _, by simp, fun file' line' hop => ?_⟩
      cases hop
      rcases hfits with hfits | ⟨date, index, hfos', hempty, e, he, hop⟩
      · left
        have hno := hfits file hfos
        simp only [RollsOver, not_lt, fileLength] at hno
        simp only [fileLength, appendTo, AList.lookup_insert]
        cases hlookup : s.disk.lookup file <;> simpa [hlookup] using hno
      · right
        rw [hfos, Option.some.injEq] at hfos'
        subst hfos'
        exact ⟨by simp [appendTo, AList.lookup_insert, hempty], e, he, date, index, hop, rfl⟩

theorem writeLine_kept {line : JavaString} (h : Kept cfg disk s) :
    Kept cfg disk (writeLine cfg faults line s).1 := by
  unfold writeLine
  split
  · exact h
  · next file hcurrent =>
    split
    · obtain ⟨hkept, hrolled⟩ := @rollOverSameDay_kept cfg faults disk s h
      generalize rollOverSameDay cfg faults s = r at hkept hrolled
      obtain ⟨s₁, e⟩ := r
      cases e with
      | none => exact writeBytes_kept hkept (Or.inr (hrolled rfl))
      | some e => exact hkept
    · next hno =>
      refine writeBytes_kept h (Or.inl fun other hother => ?_)
      have hsame : file = other := Option.some.inj (hcurrent.symm.trans (h.stream other hother))
      rw [← hsame]
      exact hno

theorem andThen_kept {r : Logger × End} {next : Logger → Logger × End} (h : Kept cfg disk r.1)
    (hnext : Kept cfg disk (next r.1).1) : Kept cfg disk (andThen r next).1 := by
  obtain ⟨s₁, e⟩ := r
  cases e with
  | none => exact hnext
  | some e => exact h

theorem writeLines_kept (batch : List JavaString) : ∀ {s : Logger}, Kept cfg disk s →
    Kept cfg disk (writeLines cfg faults batch s).1 := by
  induction batch with
  | nil => exact id
  | cons line batch ih =>
    intro s h
    have hline := @writeLine_kept cfg faults disk s line h
    exact andThen_kept hline (ih hline)

theorem flush_kept (h : Kept cfg disk s) : Kept cfg disk (flush s).1 := by
  unfold flush
  split <;> exact h

theorem step_kept (h : Kept cfg disk s) {call : JavaString × List JavaString} {s' : Logger}
    (hstep : step cfg faults s call = some s') : Kept cfg disk s' := by
  cases hstep
  rw [writeBatchToDisk_state]
  have hroll := @rollIfNeeded_kept cfg faults disk s call.1 h
  have hlines := @writeLines_kept cfg faults disk call.2 _ hroll
  exact andThen_kept hroll (andThen_kept hlines (flush_kept hlines))

end Call

/-! ### All batches -/

/-- **Rolling over loses nothing and keeps files small.**  Every run of batches ends; its file
    operations lead from the directory at the start to the one at the end, every one of them
    appends, every roll-over takes the first unused index, and every line goes to a file
    that is small afterwards or was made for that line. -/
theorem rolling_bounded (cfg : Config) (faults : Nat → Option Nat) (disk : Disk)
    (calls : List (JavaString × List JavaString)) :
    ∃ s, run (step cfg faults) (Logger.start disk) calls = some s ∧
      Follows disk s.events s.disk ∧ Appends disk s.disk ∧
      ∀ past e rest, s.events = past ++ e :: rest →
        Appends e.before e.after ∧
        (∀ date index, e.op = .rollOver date index → FirstUnused cfg date index e.before) ∧
        ∀ file line, e.op = .write file line → Fits cfg past file line e.after := by
  have htotal : ∀ calls s, ∃ s', run (step cfg faults) s calls = some s' := by
    intro calls
    induction calls with
    | nil => exact fun s => ⟨s, rfl⟩
    | cons call calls ih => exact fun s => ih _
  obtain ⟨s, hrun⟩ := htotal calls (Logger.start disk)
  have hstart : Kept cfg disk (Logger.start disk) := by
    refine ⟨Inv.of_fos rfl, rfl, fun past e hbefore => ?_⟩
    simp [Logger.start] at hbefore
  have hkept : Kept cfg disk s :=
    run_invariant (fun _ _ _ _ hs hone => step_kept hs hone) hstart hrun
  have hproper : ∀ past e rest, s.events = past ++ e :: rest → Proper cfg past e := by
    intro past e rest hevents
    apply hkept.proper
    exact ⟨rest, by rw [hevents, List.append_assoc]; rfl⟩
  have hall : ∀ e ∈ s.events, Appends e.before e.after := by
    intro e he
    obtain ⟨past, rest, hevents⟩ := List.append_of_mem he
    exact (hproper past e rest hevents).appends
  refine ⟨s, hrun, hkept.follows, hkept.follows.appends hall, fun past e rest hevents => ?_⟩
  have hone := hproper past e rest hevents
  exact ⟨hone.appends, hone.search, hone.fits⟩

end Albatross.LogFiles
