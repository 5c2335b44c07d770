/-
  Albatross/LogRedirect.lean
  ==========================
  **Redirecting an app's log** (`PluginMessage.java`: `redirectLog`, `cancelRedirectLog`).

  Redirection needs three things: a logger, a hook on the print stream and a hook on the
  log class.  The hooks are placed in a transaction that is undone when one of them fails,
  but the reference to the logger is set before it and is not part of it.  After such a
  failure a logger stands without hooks, and every later `redirectLog` takes this for a
  redirection in place.  Cancelling removes the hooks one after the other without a
  transaction.

  The three parts agree in every state of a run exactly when all its calls avoid this
  (`redirection_consistent_iff`), and then a redirection that failed can be tried again.

  Whether a logger, a hook or its removal succeeds is told at each call.
-/
import Albatross.Runs

namespace Albatross.LogRedirect

open Runs

/-! ### The calls -/

/-- What a call of the hook library does: it takes effect, it returns without one (its result
    is not looked at), or it throws. -/
inductive Outcome where
  | done
  | ignored
  | thrown
deriving DecidableEq, Repr

/-- A `BufferedDailyRollingLogger` and whether it has been closed. -/
structure Logger where
  logDir : String
  baseName : String
  maxFileSize : Nat
  closed : Bool
deriving DecidableEq, Repr

/-- The static reference, and whether `PrintStreamH` and `LogH` are in place. -/
structure State where
  appLogger : Option Logger
  printHook : Bool
  logHook : Bool
deriving DecidableEq, Repr

def State.initial : State := ⟨none, false, false⟩

/-- A call of `redirectLog` and what it meets: the files directory of the application, if there
    is one yet, the name of the package, if it is known, and the outcomes. -/
structure Redirect where
  fileName : String
  filesDir : Option String
  packageName : Option String
  processName : String
  created : Bool
  hookObject : Outcome
  hookClass : Outcome

def Redirect.logDir (r : Redirect) : Option String :=
  match r.filesDir with
  | some dir => some (dir ++ "/log")
  | none => r.packageName.map fun name => "/data/data/" ++ name ++ "/files/log"

def Redirect.logger (r : Redirect) (logDir : String) : Logger :=
  ⟨logDir, r.fileName ++ "_" ++ r.processName, 1024 * 1024 * 2, false⟩

/-- A hook after it is placed; `none` where that throws. -/
def place : Outcome → Bool → Option Bool
  | .done, _ => some true
  | .ignored, hook => some hook
  | .thrown, _ => none

/-- A hook after it is removed; `none` where that throws. -/
def remove : Outcome → Bool → Option Bool
  | .done, _ => some false
  | .ignored, hook => some hook
  | .thrown, _ => none

def redirectLog (r : Redirect) (s : State) : Bool × State :=
  if s.appLogger.isSome then (false, s)
  else
    match r.logDir with
    | none => (false, s)
    | some logDir =>
        if !r.created then (false, s)
        else
          let s := { s with appLogger := some (r.logger logDir) }
          match place r.hookObject s.printHook with
          | none => (false, s) -- `transactionEnd(false)`: the hooks are as they were
          | some printHook =>
              match place r.hookClass s.logHook with
              | none => (false, s)
              | some logHook => (true, { s with printHook := printHook, logHook := logHook })

/-- `none` is the `RuntimeException`. -/
def cancelRedirectLog (unhookPrint unhookLog : Outcome) (s : State) : Option Bool × State :=
  match s.appLogger with
  | none => (some false, s)
  | some logger =>
      let s := { s with appLogger := some { logger with closed := true } }
      match remove unhookPrint s.printHook with
      | none => (none, s)
      | some printHook =>
          let s := { s with printHook := printHook }
          match remove unhookLog s.logHook with
          | none => (none, s)
          | some logHook => (some true, { s with logHook := logHook, appLogger := none })

inductive Op where
  | redirectLog (r : Redirect)
  | cancelRedirectLog (unhookPrint unhookLog : Outcome)

def step (s : State) : Op → Option State
  | .redirectLog r => some (LogRedirect.redirectLog r s).2
  | .cancelRedirectLog unhookPrint unhookLog =>
      some (LogRedirect.cancelRedirectLog unhookPrint unhookLog s).2

/-! ### Consistency -/

/-- There is a logger exactly when the hooks are in place, and they are so together. -/
def Consistent (s : State) : Prop :=
  (s.appLogger ≠ none ∧ s.printHook = true ∧ s.logHook = true) ∨
    (s.appLogger = none ∧ s.printHook = false ∧ s.logHook = false)

structure Redirect.Succeeds (r : Redirect) : Prop where
  located : r.logDir ≠ none
  created : r.created = true
  hookObject : r.hookObject = .done
  hookClass : r.hookClass = .done

/-- The removals take effect together, or one throws before any has. -/
def Together (unhookPrint unhookLog : Outcome) : Prop :=
  unhookPrint = .thrown ∨ (unhookPrint = .ignored ∧ unhookLog = .thrown) ∨
    (unhookPrint = .done ∧ unhookLog = .done)

/-- Once a call has made a logger its hooks are placed, and a logger's hooks are removed
    together. -/
def Clean (s : State) : Op → Prop
  | .redirectLog r => s.appLogger = none → r.logDir ≠ none → r.created = true →
      r.hookObject = .done ∧ r.hookClass = .done
  | .cancelRedirectLog unhookPrint unhookLog =>
      s.appLogger ≠ none → Together unhookPrint unhookLog

/-- A redirection that was tried and failed succeeds when it is tried again and nothing fails. -/
def Retriable (s : State) (op : Op) (s' : State) : Prop :=
  ∀ r, op = .redirectLog r → s.appLogger = none → (redirectLog r s).1 = false →
    ∀ r', r'.Succeeds → (redirectLog r' s').1 = true

section Calls

variable {s : State} {r : Redirect}

theorem redirectLog_of_some (h : s.appLogger ≠ none) : redirectLog r s = (false, s) :=
  if_pos (Option.isSome_iff_ne_none.mpr h)

theorem redirectLog_unmade (h : r.logDir = none ∨ r.created = false) :
    redirectLog r s = (false, s) := by
  unfold redirectLog
  split
  · rfl
  · rcases h with h | h
    · rw [h]
    · cases r.logDir with
      | none => rfl
      | some logDir =>
        dsimp only
        rw [h]
        rfl

theorem redirectLog_made {logDir : String} (hs : s.appLogger = none) (hdir : r.logDir = some logDir)
    (hcreated : r.created = true) :
    redirectLog r s =
      match place r.hookObject s.printHook, place r.hookClass s.logHook with
      | some printHook, some logHook => (true, ⟨some (r.logger logDir), printHook, logHook⟩)
      | _, _ => (false, { s with appLogger := some (r.logger logDir) }) := by
  unfold redirectLog
  rw [hs, hdir, hcreated]
  simp only [Option.isSome_none, Bool.false_eq_true, if_false, Bool.not_true]
  cases place r.hookObject s.printHook with
  | none => cases place r.hookClass s.logHook <;> rfl
  | some printHook => cases place r.hookClass s.logHook <;> rfl

theorem redirectLog_succeeds (hs : s.appLogger = none) (h : r.Succeeds) :
    (redirectLog r s).1 = true := by
  obtain ⟨logDir, hdir⟩ := Option.ne_none_iff_exists'.mp h.located
  rw [redirectLog_made hs hdir h.created, h.hookObject, h.hookClass]
  rfl

end Calls

theorem redirectLog_consistent_iff {s : State} (h : Consistent s) (r : Redirect) :
    Consistent (redirectLog r s).2 ↔ Clean s (.redirectLog r) := by
  rcases h with ⟨hsome, hprint, hlog⟩ | ⟨hnone, hprint, hlog⟩
  · rw [redirectLog_of_some hsome]
    exact iff_of_true (Or.inl ⟨hsome, hprint, hlog⟩) fun hnone => absurd hnone hsome
  · by_cases hmade : r.logDir = none ∨ r.created = false
    · rw [redirectLog_unmade hmade]
      refine iff_of_true (Or.inr ⟨hnone, hprint, hlog⟩) fun _ hdir hcreated => ?_
      rcases hmade with h | h
      · exact absurd h hdir
      · rw [h] at hcreated
        cases hcreated
    · obtain ⟨hdir, hcreated⟩ := not_or.mp hmade
      rw [Bool.not_eq_false] at hcreated
      obtain ⟨logDir, hsome⟩ := Option.ne_none_iff_exists'.mp hdir
      rw [redirectLog_made hnone hsome hcreated, hprint, hlog]
      -- the reference is set, so both hooks must be
      cases hobject : r.hookObject <;> cases hclass : r.hookClass <;>
        simp [place, Consistent, Clean, hnone, hdir, hcreated, hobject, hclass]

theorem cancelRedirectLog_consistent_iff {s : State} (h : Consistent s)
    (unhookPrint unhookLog : Outcome) :
    Consistent (cancelRedirectLog unhookPrint unhookLog s).2 ↔
      Clean s (.cancelRedirectLog unhookPrint unhookLog) := by
  obtain ⟨appLogger, printHook, logHook⟩ := s
  rcases h with ⟨hsome, rfl, rfl⟩ | ⟨rfl, rfl, rfl⟩
  · obtain ⟨logger, rfl⟩ := Option.ne_none_iff_exists'.mp hsome
    cases unhookPrint <;> cases unhookLog <;>
      simp [cancelRedirectLog, remove, Consistent, Clean, Together]
  · exact iff_of_true (Or.inr ⟨rfl, rfl, rfl⟩) fun h => absurd rfl h

theorem step_consistent_iff {s s' : State} {op : Op} (h : Consistent s)
    (hstep : step s op = some s') : Consistent s' ↔ Clean s op := by
  cases op with
  | redirectLog r =>
    cases hstep
    exact redirectLog_consistent_iff h r
  | cancelRedirectLog unhookPrint unhookLog =>
    cases hstep
    exact cancelRedirectLog_consistent_iff h unhookPrint unhookLog

theorem retriable_of_clean {s s' : State} {op : Op} (hclean : Clean s op)
    (hstep : step s op = some s') : Retriable s op s' := by
  rintro r rfl hnone hfailed r' hsucceeds
  cases hstep
  by_cases hmade : r.logDir = none ∨ r.created = false
  · rw [redirectLog_unmade hmade]
    exact redirectLog_succeeds hnone hsucceeds
  · obtain ⟨hdir, hcreated⟩ := not_or.mp hmade
    rw [Bool.not_eq_false] at hcreated
    obtain ⟨hobject, hclass⟩ := hclean hnone hdir hcreated
    rw [redirectLog_succeeds hnone ⟨hdir, hcreated, hobject, hclass⟩] at hfailed
    cases hfailed

/-- **When log redirection is consistent**: in every state of a run the logger and the hooks agree,
    and a redirection that failed can be tried again, exactly when every call that makes a
    logger places its hooks and every cancellation removes both hooks or neither. -/
theorem redirection_consistent_iff (ops : List Op) :
    (∀ s op s', Takes step State.initial ops s op s' → Consistent s' ∧ Retriable s op s') ↔
      ∀ s op s', Takes step State.initial ops s op s' → Clean s op := by
  have hiff : (∀ s op s', Takes step State.initial ops s op s' → Consistent s') ↔
      ∀ s op s', Takes step State.initial ops s op s' → Clean s op := by
    apply forall_takes_iff
    · exact Or.inr ⟨rfl, rfl, rfl⟩
    · exact fun s op s' htakes h => step_consistent_iff h htakes.one
  constructor
  · exact fun h => hiff.mp fun s op s' htakes => (h s op s' htakes).1
  · intro h s op s' htakes
    exact ⟨hiff.mpr h s op s' htakes, retriable_of_clean (h s op s' htakes) htakes.one⟩

/-- A call of `redirectLog` whose hooks have the given outcomes. -/
def redirectWith (hookObject hookClass : Outcome) : Redirect :=
  ⟨"app", some "/data/data/a/files", some "a", "a", true, hookObject, hookClass⟩

/-- When hooking the log class throws, the logger stays without hooks, and the next attempt fails
    although nothing stands in its way. -/
theorem failed_redirection_sticks :
    let s := (redirectLog (redirectWith .done .thrown) State.initial).2
    s.appLogger.isSome = true ∧ s.printHook = false ∧ s.logHook = false ∧
      (redirectWith .done .done).Succeeds ∧
        (redirectLog (redirectWith .done .done) s).1 = false := by
  exact ⟨rfl, rfl, rfl, ⟨nofun, rfl, rfl, rfl⟩, rfl⟩

end Albatross.LogRedirect
