/-
  Albatross/LogCleanup.lean
  =========================
  **Cleaning one log up may delete another** (`BufferedDailyRollingLogger.cleanupLogFiles`).

  The files of a logger with base name `b` are `b_DATE.log` and `b_DATE_N.log`, and no
  two base names share one (`CanCreate.unique`).  The cleanup deletes by the prefix
  `b_`: every file of `b` begins with it, but so do the files of every base name that
  itself begins with `b_`, and where `b` is another base name and a date, the
  rolled-over files of that name and day.  Every other pair of base names is kept apart
  (`cleanup_separates_iff`).

  A `delete()` succeeds.
-/
import Albatross.Decimal
import Albatross.LogFiles
import Albatross.Separated

namespace Albatross.LogFiles

open Assoc Separated
open Decimal (padded)
open Registry (JavaString)
open RollingLogger (dailyName rolledName)

/-! ### The names of log files -/

def isLeap (year : Nat) : Prop := year % 4 = 0 ∧ (year % 100 ≠ 0 ∨ year % 400 = 0)

instance (year : Nat) : Decidable (isLeap year) := inferInstanceAs (Decidable (_ ∧ _))

def daysIn (year month : Nat) : Nat :=
  if month = 2 then if isLeap year then 29 else 28
  else if month = 4 ∨ month = 6 ∨ month = 9 ∨ month = 11 then 30
  else 31

/-- A date of the calendar with a year of four digits. -/
structure LogDate where
  year : Nat
  month : Nat
  day : Nat
  year_lt : year < 10000
  month_pos : 1 ≤ month
  month_le : month ≤ 12
  day_pos : 1 ≤ day
  day_le : day ≤ daysIn year month

/-- `DATE_FORMAT.format(date)`, for the pattern `yyyy-MM-dd`. -/
def LogDate.format (d : LogDate) : JavaString :=
  padded 4 d.year ++ '-' :: padded 2 d.month ++ '-' :: padded 2 d.day

/-- A logger with this base name can create the file. -/
def CanCreate (baseName file : JavaString) : Prop :=
  ∃ d : LogDate, file = dailyName baseName d.format ∨
    ∃ index, 1 ≤ index ∧ file = rolledName baseName d.format index

def OnlyCreator (baseName file : JavaString) : Prop :=
  CanCreate baseName file ∧ ∀ other, CanCreate other file → other = baseName

/-- `listFiles` gives `none` when there is no such directory; the number is the result. -/
def cleanupLogFiles (dir : Option Disk) (baseName : JavaString) : Option Disk × Nat :=
  match dir with
  | none => (none, 0)
  | some disk =>
      let files := disk.keys.filter fun name => (baseName ++ ['_']).isPrefixOf name
      (some (eraseAll files disk), files.length)

/-- Cleaning `baseName` up deletes all files of its loggers and no file that only loggers of `other`
    can create. -/
def Separates (baseName other : JavaString) (disk : Disk) : Prop :=
  ∃ disk', (cleanupLogFiles (some disk) baseName).1 = some disk' ∧
    (∀ file, CanCreate baseName file → disk'.lookup file = none) ∧
    ∀ file bytes, OnlyCreator other file → disk.lookup file = some bytes →
      disk'.lookup file = some bytes

theorem LogDate.underscore_notMem_format (d : LogDate) : '_' ∉ d.format := by
  have hno := Decimal.not_mem_padded (by decide : '_'.isDigit = false)
  simp [LogDate.format, hno]

theorem LogDate.dash_mem_format (d : LogDate) : '-' ∈ d.format := by
  simp [LogDate.format]

theorem underscore_notMem_toDigits (index : Nat) : '_' ∉ Nat.toDigits 10 index :=
  Decimal.not_mem_toDigits (by decide) index

theorem dailyName_inj {x y : JavaString}
    (h : x ++ ['.', 'l', 'o', 'g'] = y ++ ['.', 'l', 'o', 'g']) :
    x = y :=
  List.append_cancel_right h

/-- The base name and the date of a file name are where the names say. -/
theorem baseName_inj {b c : JavaString} {d e : LogDate}
    (h : b ++ '_' :: d.format = c ++ '_' :: e.format) : b = c :=
  (append_sep_inj d.underscore_notMem_format e.underscore_notMem_format h).1

/-- A daily file is no rolled-over file: the date would be an index. -/
theorem daily_ne_rolled {b c : JavaString} {d e : LogDate} {index : Nat} :
    dailyName b d.format ≠ rolledName c e.format index := by
  intro h
  have hcut : b ++ '_' :: d.format = (c ++ '_' :: e.format) ++ '_' :: Nat.toDigits 10 index := by
    apply dailyName_inj
    simpa [dailyName, rolledName] using h
  obtain ⟨-, hdate⟩ :=
    append_sep_inj d.underscore_notMem_format (underscore_notMem_toDigits index) hcut
  have hdash := d.dash_mem_format
  rw [hdate] at hdash
  exact Decimal.not_mem_toDigits (by decide) index hdash

/-- **A log file has one base name.** -/
theorem CanCreate.unique {b c file : JavaString} (hb : CanCreate b file) (hc : CanCreate c file) :
    b = c := by
  obtain ⟨d, rfl | ⟨i, -, rfl⟩⟩ := hb
  · obtain ⟨e, h | ⟨j, -, h⟩⟩ := hc
    · apply @baseName_inj b c d e
      apply dailyName_inj
      simpa [dailyName] using h
    · exact absurd h daily_ne_rolled
  · obtain ⟨e, h | ⟨j, -, h⟩⟩ := hc
    · exact absurd h.symm daily_ne_rolled
    · have hcut : (b ++ '_' :: d.format) ++ '_' :: Nat.toDigits 10 i =
          (c ++ '_' :: e.format) ++ '_' :: Nat.toDigits 10 j := by
        apply dailyName_inj
        simpa [rolledName] using h
      exact baseName_inj
        (append_sep_inj (underscore_notMem_toDigits i) (underscore_notMem_toDigits j) hcut).1

theorem CanCreate.only {b file : JavaString} (h : CanCreate b file) : OnlyCreator b file :=
  ⟨h, fun _ hother => hother.unique h⟩

/-! ### What the cleanup deletes -/

/-- The directory after the cleanup holds the files whose names do not begin with the prefix. -/
theorem lookup_cleanup {disk disk' : Disk} {baseName : JavaString}
    (h : (cleanupLogFiles (some disk) baseName).1 = some disk') {file : JavaString}
    {bytes : Python.Bytes} :
    disk'.lookup file = some bytes ↔
      ¬ baseName ++ ['_'] <+: file ∧ disk.lookup file = some bytes := by
  cases h
  rw [lookup_eraseAll_eq_some, List.mem_filter, List.isPrefixOf_iff_prefix]
  constructor
  · rintro ⟨hno, hfile⟩
    exact ⟨fun hbegins => hno ⟨mem_keys_of_lookup hfile, hbegins⟩, hfile⟩
  · rintro ⟨hno, hfile⟩
    exact ⟨fun hmem => hno hmem.2, hfile⟩

theorem prefix_dailyName (b date : JavaString) : b ++ ['_'] <+: dailyName b date :=
  ⟨date ++ ['.', 'l', 'o', 'g'], by simp [dailyName]⟩

theorem CanCreate.begins {b file : JavaString} (h : CanCreate b file) : b ++ ['_'] <+: file := by
  obtain ⟨d, rfl | ⟨i, -, rfl⟩⟩ := h
  · exact prefix_dailyName b d.format
  · exact ⟨d.format ++ '_' :: Nat.toDigits 10 i ++ ['.', 'l', 'o', 'g'], by simp [rolledName]⟩

/-- A prefix that a separator closes does not begin a text without that separator. -/
theorem not_prefix_of_notMem {x t : JavaString} (h : '_' ∉ t) : ¬ x ++ ['_'] <+: t :=
  fun hbegins => h (hbegins.subset (by simp))

/-- The files of another base name that the prefix of `b` begins. -/
theorem CanCreate.begins_other {b c file : JavaString} (h : CanCreate c file)
    (hbegins : b ++ ['_'] <+: file) :
    b ++ ['_'] <+: c ∨ b = c ∨ ∃ d : LogDate, b = c ++ '_' :: d.format := by
  have hlog : '_' ∉ ['.', 'l', 'o', 'g'] := by decide
  obtain ⟨d, rfl | ⟨i, -, rfl⟩⟩ := h
  · have hcut : b ++ ['_'] <+: c ++ '_' :: (d.format ++ ['.', 'l', 'o', 'g']) := by
      simpa [dailyName] using hbegins
    rcases prefix_sep hcut with h | h | ⟨r, -, hr⟩
    · exact Or.inl h
    · exact Or.inr (Or.inl h)
    · refine absurd hr (not_prefix_of_notMem ?_)
      exact fun hmem => (List.mem_append.mp hmem).elim d.underscore_notMem_format hlog
  · have hcut : b ++ ['_'] <+:
        c ++ '_' :: (d.format ++ '_' :: (Nat.toDigits 10 i ++ ['.', 'l', 'o', 'g'])) := by
      simpa [rolledName] using hbegins
    rcases prefix_sep hcut with h | h | ⟨r, hb, hr⟩
    · exact Or.inl h
    · exact Or.inr (Or.inl h)
    · rcases prefix_sep hr with h | rfl | ⟨r', -, hr'⟩
      · exact absurd h (not_prefix_of_notMem d.underscore_notMem_format)
      · exact Or.inr (Or.inr ⟨d, hb⟩)
      · refine absurd hr' (not_prefix_of_notMem ?_)
        exact fun hmem => (List.mem_append.mp hmem).elim (underscore_notMem_toDigits i) hlog

/-! ### Two logs -/

def aDay : LogDate := ⟨2025, 1, 1, by decide, by decide, by decide, by decide, by decide⟩

theorem not_separates {b other file : JavaString} (hother : CanCreate other file)
    (hbegins : b ++ ['_'] <+: file) : ¬ Separates b other ((∅ : Disk).insert file []) := by
  rintro ⟨disk', hclean, -, hkeep⟩
  have hkept := hkeep file [] hother.only (AList.lookup_insert _)
  exact ((lookup_cleanup hclean).mp hkept).1 hbegins

/-- **When cleaning one log up leaves another alone.**  For every directory, exactly when the other
    base name does not begin with `b_`, and `b` is not the other base name with a date. -/
theorem cleanup_separates_iff {b other : JavaString} (hne : b ≠ other) :
    (∀ disk, Separates b other disk) ↔
      ¬ b ++ ['_'] <+: other ∧ ∀ d : LogDate, b ≠ other ++ '_' :: d.format := by
  constructor
  · intro h
    constructor
    · intro hbegins
      have hdaily : CanCreate other (dailyName other aDay.format) := ⟨aDay, Or.inl rfl⟩
      have hlong : b ++ ['_'] <+: dailyName other aDay.format := by
        apply hbegins.trans
        exact (List.prefix_append other ['_']).trans (prefix_dailyName other aDay.format)
      exact not_separates hdaily hlong (h _)
    · rintro d rfl
      have hrolled : CanCreate other (rolledName other d.format 1) :=
        ⟨d, Or.inr ⟨1, le_refl 1, rfl⟩⟩
      refine not_separates hrolled ?_ (h _)
      exact ⟨Nat.toDigits 10 1 ++ ['.', 'l', 'o', 'g'], by simp [rolledName]⟩
  · rintro ⟨hbegins, hdate⟩ disk
    refine ⟨_, rfl, fun file hfile => ?_, fun file bytes hfile hbytes => ?_⟩
    · by_contra hsome
      obtain ⟨bytes, hbytes⟩ := Option.ne_none_iff_exists'.mp hsome
      exact ((lookup_cleanup rfl).mp hbytes).1 hfile.begins
    · refine (lookup_cleanup rfl).mpr ⟨fun hfile' => ?_, hbytes⟩
      rcases hfile.1.begins_other hfile' with h | h | ⟨d, h⟩
      · exact hbegins h
      · exact hne h
      · exact hdate d h

/-- Two processes of one app whose names share no separator. -/
theorem cleanup_separates_iff_main_push :
    ['a', 'p', 'p'] ≠ ['a', 'p', 'p', ':', 'p'] ∧
      ((∀ disk, Separates ['a', 'p', 'p'] ['a', 'p', 'p', ':', 'p'] disk) ↔
        ¬ ['a', 'p', 'p'] ++ ['_'] <+: ['a', 'p', 'p', ':', 'p'] ∧
          ∀ d : LogDate, ['a', 'p', 'p'] ≠ ['a', 'p', 'p', ':', 'p'] ++ '_' :: d.format) :=
  ⟨by decide, cleanup_separates_iff (by decide)⟩

/-- A daily file of the base name `app_p`, with one byte. -/
def otherFile : JavaString := dailyName ['a', 'p', 'p', '_', 'p'] aDay.format

def otherLog : Disk := (∅ : Disk).insert otherFile [0]

/-- Cleaning the log of `app` up deletes the log of `app_p`. -/
theorem cleanup_deletes_other :
    OnlyCreator ['a', 'p', 'p', '_', 'p'] otherFile ∧ otherLog.lookup otherFile = some [0] ∧
      ∃ disk', cleanupLogFiles (some otherLog) ['a', 'p', 'p'] = (some disk', 1) ∧
        disk'.lookup otherFile = none :=
  ⟨CanCreate.only ⟨aDay, Or.inl rfl⟩, rfl, _, rfl, rfl⟩

end Albatross.LogFiles
