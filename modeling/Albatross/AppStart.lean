/-
  Albatross/AppStart.lean
  =======================
  **Plugins while an application starts** (`AppInjectAgent.java`: `appendPlugin`,
  `init`, the `newApplication` and `callApplicationOnCreate` hooks and the delayed
  handler of `InstrumentationConstructorHook`; `DynamicPluginManager.appendPlugin`
  as far as `pluginCache` goes).

  Any number of threads append plugins and run `init`; the main thread runs the hooks
  and the handler, which may nest, each as a frame of instructions.  Every access to
  what they share is a step of its own.  A `for` over the plugin table follows an
  order of its keys, reads each plugin when it comes to it, and raises once the table
  has got another key (`modCount`).  A thread leaves its function by `finish` and the
  main thread the frame on top by `leave`, at its end or before it by an exception.

  `Albatross.currentApplication()` is null until some point after the original
  `newApplication` has returned.  The two `newApplication` hooks differ in how they
  name the class and are one entry here; a call that meets a flag already set runs the
  original only.

  Three things are recorded and read by no code: the callbacks and successful loads
  (`trace`), the plugins whose `appendPlugin` found no application (`skipped`), and
  whether `init` has been called (`begun`).
-/
import Albatross.Runs
import Albatross.Assoc
import Mathlib.Logic.Function.Basic

namespace Albatross.AppStart

open Runs Assoc

/-! ### Callbacks -/

inductive Callback where
  | beforeNewApplication
  | afterNewApplication
  | beforeApplicationCreate
  | afterApplicationCreate
deriving DecidableEq

/-- The callbacks of `AppInjectAgent.appendPlugin`, in its order. -/
def allCallbacks : List Callback :=
  [.beforeNewApplication, .afterNewApplication, .beforeApplicationCreate, .afterApplicationCreate]

/-- `load()` of a plugin has returned true, or the plugin has received a callback. -/
inductive Event where
  | loaded (plugin : Nat)
  | callback (plugin : Nat) (cb : Callback)
deriving DecidableEq

/-- The latest event first: no callback twice, and none without a load before it. -/
def Proper : List Event → Prop
  | [] => True
  | .loaded _ :: past => Proper past
  | .callback p cb :: past => .loaded p ∈ past ∧ .callback p cb ∉ past ∧ Proper past

instance : DecidablePred Proper := fun trace => by
  induction trace with
  | nil => exact isTrue trivial
  | cons e past ih =>
    cases e with
    | loaded p => exact ih
    | callback p cb => exact inferInstanceAs (Decidable (_ ∧ _ ∧ Proper past))

/-! ### Threads -/

/-- Where a thread is in `appendPlugin` or `init`. -/
inductive Phase where
  | idle
  | missing (key : String)
  | appended (plugin : Nat)
  | loading (plugin : Nat)
  | calling (plugin : Nat) (rest : List Callback)
  | initializing (rest : List String) (modCount : Nat)

/-- An instruction of a hook.  `pass` is a `for` over the plugin table that has still to
    start, and `iterate` one under way. -/
inductive Instr where
  | pass (cb : Callback)
  | iterate (cb : Callback) (rest : List String) (modCount : Nat)
  | newApplication
  | callApplicationOnCreate
  | handlerCreatePart

/-- A plugin is an object, numbered as it is constructed. -/
structure State where
  pluginCache : Dict String Nat
  modCount : Nat
  made : Nat
  threads : Nat → Phase
  main : List (List Instr)
  isNewApplication : Bool
  isApplicationOnCreateCalled : Bool
  hooked : Bool
  posted : Nat
  created : Bool
  application : Bool
  trace : List Event
  skipped : List Nat
  begun : Bool

def State.start : State where
  pluginCache := ∅
  modCount := 0
  made := 0
  threads := fun _ => .idle
  main := []
  isNewApplication := false
  isApplicationOnCreateCalled := false
  hooked := false
  posted := 0
  created := false
  application := false
  trace := []
  skipped := []
  begun := false

def State.goto (t : Nat) (phase : Phase) (s : State) : State :=
  { s with threads := Function.update s.threads t phase }

def State.record (e : Event) (s : State) : State := { s with trace := e :: s.trace }

/-! ### Steps -/

inductive Op where
  | appendPlugin (t : Nat) (key : String)
  | put (t : Nat)
  | checkApplication (t : Nat)
  | load (t : Nat) (result : Bool)
  | callback (t : Nat)
  | init (t : Nat) (order : List String)
  | initLoad (t : Nat) (result : Bool)
  | initHook (t : Nat)
  | finish (t : Nat)
  | newInstrumentation (alreadyHooked : Bool)
  | enterNewApplication
  | enterCallApplicationOnCreate
  | enterHandler
  | startPass (order : List String)
  | deliver
  | next
  | leave
  | applicationCreated
  | applicationSet

/-- `pluginCache.get(pluginKey)`: a plugin that is there only gets its configuration. -/
def appendPlugin (t : Nat) (key : String) (s : State) : State :=
  match s.pluginCache.lookup key with
  | some _ => s
  | none => s.goto t (.missing key)

/-- The plugin is constructed and put into the table. -/
def put (t : Nat) (key : String) (s : State) : State :=
  { s with
    pluginCache := s.pluginCache.insert key s.made
    modCount := if key ∈ s.pluginCache then s.modCount else s.modCount + 1
    made := s.made + 1
    threads := Function.update s.threads t (.appended s.made) }

/-- `Application application = Albatross.currentApplication()`. -/
def checkApplication (t plugin : Nat) (s : State) : State :=
  if s.application then s.goto t (.loading plugin)
  else { s.goto t .idle with skipped := plugin :: s.skipped }

/-- `plugin.load(..)` in `appendPlugin`. -/
def load (t plugin : Nat) (result : Bool) (s : State) : State :=
  if result then (s.goto t (.calling plugin allCallbacks)).record (.loaded plugin)
  else s.goto t .idle

/-- `plugin.load(..)` in `init`, which returns at the first one that is false. -/
def initLoad (t plugin : Nat) (rest : List String) (modCount : Nat) (result : Bool) (s : State) :
    State :=
  if result then (s.goto t (.initializing rest modCount)).record (.loaded plugin)
  else s.goto t .idle

/-- `newApplication$Hook`. -/
def enterNewApplication (s : State) : State :=
  if s.isNewApplication then { s with main := [.newApplication] :: s.main }
  else { s with
    isNewApplication := true
    main := [.pass .beforeNewApplication, .newApplication, .pass .afterNewApplication] :: s.main }

/-- `callApplicationOnCreate$Hook`. -/
def enterCallApplicationOnCreate (s : State) : State :=
  if s.isApplicationOnCreateCalled then { s with main := [.callApplicationOnCreate] :: s.main }
  else { s with
    isApplicationOnCreateCalled := true
    main := [.pass .beforeApplicationCreate, .callApplicationOnCreate,
      .pass .afterApplicationCreate] :: s.main }

/-- The handler; without an application its first part raises after setting the flag. -/
def enterHandler (s : State) : State :=
  if s.isNewApplication then { s with main := [.handlerCreatePart] :: s.main }
  else if s.application then { s with
    isNewApplication := true
    main :=
      [.pass .beforeNewApplication, .pass .afterNewApplication, .handlerCreatePart] :: s.main }
  else { s with isNewApplication := true }

def handlerCreatePart (frame : List Instr) (frames : List (List Instr)) (s : State) : State :=
  if s.isApplicationOnCreateCalled then { s with main := frame :: frames }
  else { s with
    isApplicationOnCreateCalled := true
    main := (.pass .beforeApplicationCreate :: .pass .afterApplicationCreate :: frame) :: frames }

def stepThread (s : State) (t : Nat) : Phase → Op → Option State
  | .idle, .appendPlugin _ key => some (AppStart.appendPlugin t key s)
  | .missing key, .put _ => some (AppStart.put t key s)
  | .appended p, .checkApplication _ => some (AppStart.checkApplication t p s)
  | .loading p, .load _ result => some (AppStart.load t p result s)
  | .calling p (cb :: rest), .callback _ =>
      some ((s.goto t (.calling p rest)).record (.callback p cb))
  | .idle, .init _ order =>
      if order.Perm s.pluginCache.keys then
        some { s.goto t (.initializing order s.modCount) with begun := true }
      else none
  | .initializing (key :: rest) modCount, .initLoad _ result =>
      if modCount = s.modCount then
        (s.pluginCache.lookup key).map fun p => AppStart.initLoad t p rest modCount result s
      else none
  | .initializing [] _, .initHook _ => some { s.goto t .idle with hooked := true }
  | .missing _, .finish _ => some (s.goto t .idle)
  | .calling _ _, .finish _ => some (s.goto t .idle)
  | .initializing _ _, .finish _ => some (s.goto t .idle)
  | _, _ => none

/-- A step of the main thread in the frame on top. -/
def stepMain (s : State) : List (List Instr) → Op → Option State
  | (.pass cb :: frame) :: frames, .startPass order =>
      if order.Perm s.pluginCache.keys then
        some { s with main := (.iterate cb order s.modCount :: frame) :: frames }
      else none
  | (.iterate cb (key :: rest) modCount :: frame) :: frames, .deliver =>
      if modCount = s.modCount then
        (s.pluginCache.lookup key).map fun p =>
          { s with main := (.iterate cb rest modCount :: frame) :: frames }.record (.callback p cb)
      else none
  | (.iterate _ [] _ :: frame) :: frames, .next => some { s with main := frame :: frames }
  | (.newApplication :: frame) :: frames, .next =>
      some { s with main := frame :: frames, created := true }
  | (.callApplicationOnCreate :: frame) :: frames, .next => some { s with main := frame :: frames }
  | (.handlerCreatePart :: frame) :: frames, .next => some (handlerCreatePart frame frames s)
  | _ :: frames, .leave => some { s with main := frames }
  | _, _ => none

def step (s : State) (op : Op) : Option State :=
  match op with
  | .appendPlugin t _ => stepThread s t (s.threads t) op
  | .put t => stepThread s t (s.threads t) op
  | .checkApplication t => stepThread s t (s.threads t) op
  | .load t _ => stepThread s t (s.threads t) op
  | .callback t => stepThread s t (s.threads t) op
  | .init t _ => stepThread s t (s.threads t) op
  | .initLoad t _ => stepThread s t (s.threads t) op
  | .initHook t => stepThread s t (s.threads t) op
  | .finish t => stepThread s t (s.threads t) op
  | .newInstrumentation alreadyHooked =>
      if s.hooked then
        some (if alreadyHooked then { s with posted := s.posted + 1 } else s)
      else none
  | .enterNewApplication => if s.hooked then some (AppStart.enterNewApplication s) else none
  | .enterCallApplicationOnCreate =>
      if s.hooked then some (AppStart.enterCallApplicationOnCreate s) else none
  | .enterHandler =>
      if 0 < s.posted then some (AppStart.enterHandler { s with posted := s.posted - 1 }) else none
  | .applicationCreated => some { s with created := true }
  | .applicationSet => if s.created then some { s with application := true } else none
  | op => stepMain s s.main op

end Albatross.AppStart
