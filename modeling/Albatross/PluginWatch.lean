/-
  Albatross/PluginWatch.lean
  ==========================
  **Pushing a plugin while it is edited** (`device.py`: `AlbatrossDevice.watch_plugin`, its
  `FileChangeHandler`, and `push_file` as the handler calls it).

  The handler remembers the digest it pushed last and when it did so.  A change that comes
  within half a second of the last push is dropped, not delayed: nothing looks at the file
  again until its next event.  The device is therefore up to date after an event exactly
  when it was already, or when the event brings a new digest and comes late enough
  (`device_current_iff`).

  Pushes succeed here.  The restarting of the app after a push changes nothing the handler
  remembers and is left out.  `fileMd5` stands for `file_md5` on a file's content, and is
  constant where `md5sum` fails on the path, as with a blank in it.  Events name the path
  in the form in which it is watched, here absolute and normalised, and the times of two
  events are subtracted exactly.
-/
import Mathlib.Data.List.Induction
import Mathlib.Algebra.Order.Ring.Rat

namespace Albatross.PluginWatch

/-! ### The handler -/

inductive EventType where
  | modified
  | created
  | deleted
  | moved
deriving DecidableEq, Repr

/-- A file system event, with the clock and the file as its handling finds them; `none` is a
    file that cannot be read. -/
structure Event (α : Type) where
  eventType : EventType
  isDirectory : Bool
  srcPath : String
  time : ℚ
  file : Option α

/-- `pluginDex` is the absolute path that is watched. -/
structure Watch (α δ : Type) where
  pluginDex : String
  fileMd5 : α → δ

/-- What the handler remembers, and the file on the device. -/
structure State (α δ : Type) where
  pluginMd5 : Option δ
  lastProcessed : ℚ
  device : α

/-- `debounce_delay`, in seconds. -/
def debounceDelay : ℚ := 1 / 2

variable {α δ : Type} [DecidableEq δ] (w : Watch α δ)

/-- At the start of the watch the device has the content of the file. -/
def init (content : α) : State α δ := ⟨some (w.fileMd5 content), 0, content⟩

/-- `push_file` with `check=True`: nothing is sent when the digests agree. -/
def pushFile (file : Option α) (s : State α δ) : State α δ :=
  match file with
  | none => s
  | some content =>
      if w.fileMd5 content = w.fileMd5 s.device then s else { s with device := content }

def handlePluginChange (time : ℚ) (file : Option α) (s : State α δ) : State α δ :=
  let newMd5 := file.map w.fileMd5
  if newMd5 = s.pluginMd5 then s
  else if time - s.lastProcessed < debounceDelay then s
  else pushFile w file { s with lastProcessed := time, pluginMd5 := newMd5 }

/-- `on_modified` and `on_created`; other events have no handler. -/
def dispatch (s : State α δ) (e : Event α) : State α δ :=
  match e.eventType with
  | .modified | .created =>
      if !e.isDirectory && e.srcPath == w.pluginDex then handlePluginChange w e.time e.file s else s
  | .deleted | .moved => s

def run (content : α) (events : List (Event α)) : State α δ :=
  events.foldl (dispatch w) (init w content)

theorem run_snoc (content : α) (events : List (Event α)) (e : Event α) :
    run w content (events ++ [e]) = dispatch w (run w content events) e := by
  simp [run, List.foldl_append]

/-! ### What the handler remembers -/

/-- The remembered digest is that of the device, unless the file could not be read. -/
def Remembers (s : State α δ) : Prop :=
  s.pluginMd5 = none ∨ s.pluginMd5 = some (w.fileMd5 s.device)

theorem handlePluginChange_cases (time : ℚ) (file : Option α) (s : State α δ) :
    ((file.map w.fileMd5 = s.pluginMd5 ∨ time - s.lastProcessed < debounceDelay) ∧
        handlePluginChange w time file s = s) ∨
      (file.map w.fileMd5 ≠ s.pluginMd5 ∧ debounceDelay ≤ time - s.lastProcessed ∧
        handlePluginChange w time file s =
          pushFile w file { s with lastProcessed := time, pluginMd5 := file.map w.fileMd5 }) := by
  unfold handlePluginChange
  dsimp only
  split
  · next hsame => exact Or.inl ⟨Or.inl hsame, rfl⟩
  · next hnew =>
    split
    · next hsoon => exact Or.inl ⟨Or.inr hsoon, rfl⟩
    · next hlate => exact Or.inr ⟨hnew, not_lt.mp hlate, rfl⟩

theorem fileMd5_pushFile (content : α) (s : State α δ) :
    w.fileMd5 (pushFile w (some content) s).device = w.fileMd5 content := by
  unfold pushFile
  dsimp only
  split
  · next hsame => exact hsame.symm
  · rfl

theorem pluginMd5_pushFile (file : Option α) (s : State α δ) :
    (pushFile w file s).pluginMd5 = s.pluginMd5 := by
  unfold pushFile
  cases file with
  | none => rfl
  | some content =>
    dsimp only
    split <;> rfl

theorem Remembers.handlePluginChange {s : State α δ} (h : Remembers w s) (time : ℚ)
    (file : Option α) : Remembers w (handlePluginChange w time file s) := by
  rcases handlePluginChange_cases w time file s with ⟨-, hsame⟩ | ⟨-, -, hpush⟩
  · rw [hsame]
    exact h
  · rw [hpush, Remembers, pluginMd5_pushFile]
    cases file with
    | none => exact Or.inl rfl
    | some content =>
      refine Or.inr ?_
      rw [fileMd5_pushFile]
      rfl

/-- An event is a change of the watched file, or it is ignored. -/
theorem dispatch_cases (s : State α δ) (e : Event α) :
    dispatch w s e = s ∨ dispatch w s e = handlePluginChange w e.time e.file s := by
  unfold dispatch
  cases e.eventType with
  | modified | created =>
    dsimp only
    split
    · exact Or.inr rfl
    · exact Or.inl rfl
  | deleted | moved => exact Or.inl rfl

theorem remembers_run (content : α) (events : List (Event α)) :
    Remembers w (run w content events) := by
  induction events using List.reverseRecOn with
  | nil => exact Or.inr rfl
  | append_singleton events e ih =>
    rw [run_snoc]
    rcases dispatch_cases w (run w content events) e with hsame | hhandled
    · rw [hsame]
      exact ih
    · rw [hhandled]
      exact ih.handlePluginChange w e.time e.file

/-! ### When the device is up to date -/

/-- A change of the watched file that leaves it with the content. -/
def changed (created : Bool) (time : ℚ) (content : α) : Event α where
  eventType := if created then .created else .modified
  isDirectory := false
  srcPath := w.pluginDex
  time := time
  file := some content

theorem dispatch_changed (created : Bool) (time : ℚ) (content : α) (s : State α δ) :
    dispatch w s (changed w created time content) =
      handlePluginChange w time (some content) s := by
  cases created <;> simp [dispatch, changed]

theorem handlePluginChange_device {s : State α δ} (h : Remembers w s) (time : ℚ) (content : α) :
    (handlePluginChange w time (some content) s).device = content ↔
      s.device = content ∨
        (w.fileMd5 content ≠ w.fileMd5 s.device ∧ debounceDelay ≤ time - s.lastProcessed) := by
  rcases handlePluginChange_cases w time (some content) s with ⟨hskip, hsame⟩ | ⟨-, hlate, hpush⟩
  · rw [hsame]
    refine ⟨Or.inl, fun hor => hor.resolve_right ?_⟩
    rintro ⟨hne, hlate⟩
    -- a digest that is remembered is the device's, so a new one was skipped for its time
    rcases hskip with hmd5 | hsoon
    · rcases h with hnone | hsome
      · rw [hnone] at hmd5
        cases hmd5
      · rw [hsome] at hmd5
        exact hne (Option.some.inj hmd5)
    · exact absurd hlate (not_le.mpr hsoon)
  · rw [hpush]
    unfold pushFile
    dsimp only
    split
    · next hmd5 => exact ⟨Or.inl, fun hor => hor.resolve_right fun hnew => hnew.1 hmd5⟩
    · next hmd5 => exact iff_of_true rfl (Or.inr ⟨hmd5, hlate⟩)

/-- **When the last change reaches the device**: after any events and a last change, the device
    has the file's content exactly when it had it before, or when the content has a digest of
    its own and the change comes half a second or more after the last that was handled. -/
theorem device_current_iff (start : α) (events : List (Event α)) (created : Bool) (time : ℚ)
    (content : α) :
    (run w start (events ++ [changed w created time content])).device = content ↔
      (run w start events).device = content ∨
        (w.fileMd5 content ≠ w.fileMd5 (run w start events).device ∧
          debounceDelay ≤ time - (run w start events).lastProcessed) := by
  rw [run_snoc, dispatch_changed]
  exact handlePluginChange_device w (remembers_run w start events) time content

/-- A build that is written in two parts: the first is pushed, and the whole file a tenth of a
    second later is not. -/
theorem last_change_dropped :
    let w : Watch (List Nat) (List Nat) := ⟨"/home/plugin.dex", id⟩
    (run w [] [changed w false 10 [1], changed w false (101 / 10) [1, 2]]).device = [1] := by
  decide +kernel

end Albatross.PluginWatch
