/-
  Albatross/ExceptionDesc.lean
  ============================
  **Descriptions of exceptions** (`StackManager.java`: `getExceptionDesc`).

  A description sorts the lines of the stack trace, describes the cause and asks for the
  stack id.  It goes on to the cause unless the cause equals the throwable it is the cause
  of.  A throwable that causes its own cause is not noticed: the description ends exactly
  where these steps do not lead into a cycle (`description_ends_iff`).

  A description that ends gives the id of the throwable's own lines, and asks for it after
  the ids of the causes (`description_calls`).

  `fuel` bounds the depth of the recursion.  `readings` has what the calls of `getStackId`
  read, by depth.
-/
import Albatross.Cycles
import Albatross.StackIds
import Albatross.Utf16

namespace Albatross.ExceptionDesc

open Cycles Relation StackIds Utf16

/-! ### The code -/

def literal (s : String) : Units := utf16 s.toList

def newline : Units := [10]

/-- What the methods of the throwables return; `equals cause e` is `cause.equals(e)`. -/
structure Throwables (α : Type) where
  toString : α → Units
  getStackTrace : α → List Units
  getCause : α → Option α
  equals : α → α → Bool

structure Reading where
  threadId : Int
  time : Int
  created : Bool

variable {α : Type}

/-- A turn of the loop, on `omitInfo` and `builder`. -/
def appendStack : Units × Units → Units → Units × Units
  | (omitInfo, builder), stack =>
      if (literal "qing.albatross.").isPrefixOf stack then (omitInfo ++ stack ++ newline, builder)
      else (omitInfo, builder ++ stack ++ newline)

/-- `omitInfo` and `builder` after the loop. -/
def sortTrace (h : Throwables α) (e : α) : Units × Units :=
  (h.getStackTrace e).foldl appendStack
    (literal "cause:" ++ h.toString e ++ newline ++ literal "stack:", [])

/-- The cause behind `cause != null && !cause.equals(e)`. -/
def describedCause (h : Throwables α) (e : α) : Option α :=
  match h.getCause e with
  | some cause => if !h.equals cause e then some cause else none
  | none => none

/-- `getStackId(s, omitInfo.toString())`, where `omitInfo` ends with `info`. -/
def traceCall (h : Throwables α) (e : α) (info : Units) (reading : Reading) : Call :=
  let (omitInfo, s) := sortTrace h e
  ⟨s, omitInfo ++ info, reading.threadId, reading.time, reading.created⟩

def identify (c : Call) (st : State) : Option Text × State :=
  ((getStackId c st).1.map StackLabel.stackId, (getStackId c st).2)

/-- What `omitInfo` gets from the description of the cause. -/
def causeInfo (desc : Option Text) : Units :=
  newline ++ literal "causeException:" ++ (desc.map utf16).getD (literal "null") ++ newline

def getExceptionDesc (h : Throwables α) :
    Nat → α → (Nat → Reading) → State → Option (Option Text × State)
  | 0, _, _, _ => none
  | fuel + 1, e, readings, st =>
      match describedCause h e with
      | none => some (identify (traceCall h e [] (readings 0)) st)
      | some cause =>
          match getExceptionDesc h fuel cause (fun depth => readings (depth + 1)) st with
          | none => none
          | some (desc, st') =>
              some (identify (traceCall h e (causeInfo desc) (readings 0)) st')

/-! ### Steps to a cause -/

section Runs

variable {h : Throwables α} {e cause : α} {readings : Nat → Reading} {st st' : State}
  {fuel : Nat} {desc : Option Text} {out : Option Text × State}

/-- The description of `e` describes `cause`. -/
def Describes (h : Throwables α) (e cause : α) : Prop :=
  h.getCause e = some cause ∧ h.equals cause e = false

theorem describes_iff : Describes h e cause ↔ describedCause h e = some cause := by
  unfold Describes describedCause
  cases h.getCause e with
  | none => simp
  | some c =>
    simp only [Option.some.injEq]
    constructor
    · rintro ⟨rfl, hne⟩
      simp [hne]
    · intro hc
      split at hc
      · next hne =>
        cases hc
        exact ⟨rfl, by simpa using hne⟩
      · cases hc

theorem getExceptionDesc_of_none (hcause : describedCause h e = none) :
    getExceptionDesc h (fuel + 1) e readings st =
      some (identify (traceCall h e [] (readings 0)) st) := by
  simp only [getExceptionDesc, hcause]

theorem getExceptionDesc_of_describes (hcause : Describes h e cause)
    (hdesc : getExceptionDesc h fuel cause (fun depth => readings (depth + 1)) st =
      some (desc, st')) :
    getExceptionDesc h (fuel + 1) e readings st =
      some (identify (traceCall h e (causeInfo desc) (readings 0)) st') := by
  simp only [getExceptionDesc, describes_iff.mp hcause, hdesc]

theorem getExceptionDesc_cases (hout : getExceptionDesc h (fuel + 1) e readings st = some out) :
    (describedCause h e = none ∧
      out = identify (traceCall h e [] (readings 0)) st) ∨
    ∃ cause desc st', Describes h e cause ∧
      getExceptionDesc h fuel cause (fun depth => readings (depth + 1)) st = some (desc, st') ∧
      out = identify (traceCall h e (causeInfo desc) (readings 0)) st' := by
  unfold getExceptionDesc at hout
  split at hout
  · next hcause =>
    left
    exact ⟨hcause, (Option.some.inj hout).symm⟩
  · next cause hcause =>
    split at hout
    · cases hout
    · next desc st' hdesc =>
      right
      exact ⟨cause, desc, st', describes_iff.mpr hcause, hdesc, (Option.some.inj hout).symm⟩

/-- A call with fuel has an outcome when its call for the cause has one. -/
theorem isSome_succ_iff : (getExceptionDesc h (fuel + 1) e readings st).isSome = true ↔
    ∀ cause, Describes h e cause →
      (getExceptionDesc h fuel cause (fun depth => readings (depth + 1)) st).isSome = true := by
  constructor
  · intro hsome cause hcause
    obtain ⟨out, hout⟩ := Option.isSome_iff_exists.mp hsome
    rcases getExceptionDesc_cases hout with ⟨hnone, -⟩ | ⟨c, desc, st', hc, hdesc, -⟩
    · rw [describes_iff.mp hcause] at hnone
      cases hnone
    · have hsame : c = cause := by
        have heq := (describes_iff.mp hc).symm.trans (describes_iff.mp hcause)
        exact Option.some.inj heq
      rw [← hsame, hdesc]
      rfl
  · intro hall
    cases hcause : describedCause h e with
    | none =>
      rw [getExceptionDesc_of_none hcause]
      rfl
    | some cause =>
      have hstep := describes_iff.mpr hcause
      obtain ⟨⟨desc, st'⟩, hdesc⟩ := Option.isSome_iff_exists.mp (hall cause hstep)
      rw [getExceptionDesc_of_describes hstep hdesc]
      rfl

/-! ### The end of the recursion -/

/-- The fuel is enough exactly when the steps to the causes end within it. -/
theorem isSome_iff_endsWithin : (getExceptionDesc h fuel e readings st).isSome = true ↔
    EndsWithin (Describes h) fuel e := by
  induction fuel generalizing e readings with
  | zero => simp [getExceptionDesc, EndsWithin]
  | succ fuel ih =>
    rw [isSome_succ_iff, EndsWithin]
    simp only [ih]

def Ends (h : Throwables α) (e : α) (readings : Nat → Reading) (st : State) : Prop :=
  ∃ fuel, (getExceptionDesc h fuel e readings st).isSome = true

theorem ends_iff_endsWithin : Ends h e readings st ↔ ∃ n, EndsWithin (Describes h) n e := by
  simp only [Ends, isSome_iff_endsWithin]

/-- A cycle is never left, also where there is no end of throwables. -/
theorem not_ends_of_reachesCycle (hcycle : ReachesCycle (Describes h) e) :
    ¬ Ends h e readings st := by
  intro hends
  obtain ⟨n, hn⟩ := ends_iff_endsWithin.mp hends
  exact not_reachesCycle_of_endsWithin hn hcycle

/-- The recursion is no deeper than there are throwables to come to. -/
theorem depth_le_reach [Fintype α] (hno : ¬ ReachesCycle (Describes h) e) :
    (getExceptionDesc h (reach (Describes h) e).card e readings st).isSome = true :=
  isSome_iff_endsWithin.mpr (endsWithin_of_card_le hno le_rfl)

/-- **A description ends exactly where the causes do not lead into a cycle.**  For every finite
    graph of throwables with at most one cause each, whatever equals what. -/
theorem description_ends_iff [Finite α] (h : Throwables α) (e : α) (readings : Nat → Reading)
    (st : State) : Ends h e readings st ↔ ¬ ReachesCycle (Describes h) e := by
  constructor
  · intro hends hcycle
    exact not_ends_of_reachesCycle hcycle hends
  · intro hno
    cases nonempty_fintype α
    exact ⟨_, depth_le_reach hno⟩

/-- Throwables that are equal when they are the same, as `Object.equals` has it. -/
def byIdentity [DecidableEq α] (getCause : α → Option α) : Throwables α :=
  ⟨fun _ => literal "E", fun _ => [literal "a.b(C.java)"], getCause, fun cause e => cause = e⟩

def sampleReadings : Nat → Reading := fun _ => ⟨7, 0, true⟩

/-- Two is caused by one, and one by zero. -/
def sampleChain : Throwables (Fin 3) :=
  byIdentity fun e => if e = 0 then none else some (e - 1)

theorem description_ends_iff_chain :
    (getExceptionDesc sampleChain 3 2 sampleReadings .start).isSome = true ∧
      ¬ ReachesCycle (Describes sampleChain) 2 := by
  have hsome : (getExceptionDesc sampleChain 3 2 sampleReadings .start).isSome = true := by
    decide +kernel
  have hfinite : Finite (Fin 3) := .intro (Equiv.refl _)
  exact ⟨hsome, (description_ends_iff sampleChain 2 sampleReadings .start).mp ⟨3, hsome⟩⟩

def mutualCauses : Throwables (Fin 2) := byIdentity fun e => some (1 - e)

theorem mutual_causes_never_end : ¬ Ends mutualCauses 0 sampleReadings .start := by
  apply not_ends_of_reachesCycle
  refine ⟨0, .refl, .tail (.single (b := 1) ?_) ?_⟩
  · exact ⟨rfl, rfl⟩
  · exact ⟨rfl, rfl⟩

/-- The cause as `getCause` has it, without the guard. -/
def Causes (h : Throwables α) (e cause : α) : Prop := h.getCause e = some cause

/-- Where only a throwable itself equals it, what keeps a description from its end is a cycle of
    two throwables or more. -/
theorem ends_iff_of_identity [Finite α] (hid : ∀ a b, h.equals a b = true ↔ a = b) :
    Ends h e readings st ↔
      ¬ ∃ b c, b ≠ c ∧ ReflTransGen (Causes h) e b ∧ TransGen (Causes h) b c ∧
        TransGen (Causes h) c b := by
  have hsteps : Describes h = fun e cause => Causes h e cause ∧ e ≠ cause := by
    funext e cause
    have hne : h.equals cause e = false ↔ e ≠ cause := by
      rw [← Bool.not_eq_true, hid, eq_comm]
    simp only [Describes, Causes, hne]
  rw [ends_iff_endsWithin, endsWithin_iff, hsteps, reachesCycle_ne_iff]

/-! ### The calls of a description -/

theorem getExceptionDesc_mono {fuel' : Nat} (hle : fuel ≤ fuel')
    (hout : getExceptionDesc h fuel e readings st = some out) :
    getExceptionDesc h fuel' e readings st = some out := by
  induction fuel generalizing fuel' e readings st out with
  | zero => cases hout
  | succ fuel ih =>
    obtain ⟨n, rfl⟩ := Nat.exists_eq_succ_of_ne_zero (by omega : fuel' ≠ 0)
    rcases getExceptionDesc_cases hout with ⟨hnone, rfl⟩ | ⟨c, desc, st', hc, hdesc, rfl⟩
    · exact getExceptionDesc_of_none hnone
    · exact getExceptionDesc_of_describes hc (ih (by omega) hdesc)

theorem identify_after {past : List Call} {c : Call} (hpast : ∀ b ∈ past, b.created = true)
    (hcreated : c.created = true) :
    identify c (after past) = (some (stackId c.s), after (past ++ [c])) := by
  rw [identify, (getStackId_after hpast hcreated).1, after_concat]
  rfl

/-- The throwables that the description of `e` describes, in turn. -/
def IsChainOf (h : Throwables α) (e : α) (causes : List α) : Prop :=
  List.IsChain (Describes h) (e :: causes) ∧
    ∀ last ∈ (e :: causes).getLast?, describedCause h last = none

theorem IsChainOf.cons {causes : List α} (hchain : IsChainOf h cause causes)
    (hstep : Describes h e cause) : IsChainOf h e (cause :: causes) := by
  obtain ⟨hsteps, hlast⟩ := hchain
  refine ⟨List.isChain_cons_cons.mpr ⟨hstep, hsteps⟩, ?_⟩
  rw [List.getLast?_cons_cons]
  exact hlast

/-- **The calls of a description.**  With a logger a description that ends has asked for the ids
    of its throwables, the last cause first, and returns the id of its own lines. -/
theorem description_calls {past : List Call} (hpast : ∀ b ∈ past, b.created = true)
    (hcreated : ∀ depth, (readings depth).created = true)
    (hout : getExceptionDesc h fuel e readings (after past) = some out) :
    ∃ causes calls, IsChainOf h e causes ∧ (∀ b ∈ calls, b.created = true) ∧
      calls.map Call.s = ((e :: causes).map fun t => (sortTrace h t).2).reverse ∧
      out = (some (stackId (sortTrace h e).2), after (past ++ calls)) := by
  induction fuel generalizing e readings out with
  | zero => cases hout
  | succ fuel ih =>
    rcases getExceptionDesc_cases hout with ⟨hnone, rfl⟩ | ⟨cause, desc, st', hc, hdesc, rfl⟩
    · refine ⟨[], [traceCall h e [] (readings 0)], ?_, ?_, rfl, ?_⟩
      · exact ⟨List.IsChain.singleton _, by simpa using hnone⟩
      · exact List.forall_mem_singleton.mpr (hcreated 0)
      · exact identify_after hpast (hcreated 0)
    · obtain ⟨causes, calls, hchain, hcalls, htraces, hst⟩ :=
        ih (fun depth => hcreated (depth + 1)) hdesc
      obtain ⟨-, rfl⟩ := Prod.mk.inj hst
      have hbefore : ∀ b ∈ past ++ calls, b.created = true :=
        List.forall_mem_append.mpr ⟨hpast, hcalls⟩
      refine ⟨cause :: causes, calls ++ [traceCall h e (causeInfo desc) (readings 0)], ?_, ?_,
        ?_, ?_⟩
      · exact hchain.cons hc
      · have hcall : ∀ b ∈ [traceCall h e (causeInfo desc) (readings 0)], b.created = true :=
          List.forall_mem_singleton.mpr (hcreated 0)
        exact List.forall_mem_append.mpr ⟨hcalls, hcall⟩
      · rw [List.map_append, htraces, List.map_cons (a := e), List.reverse_cons]
        rfl
      · rw [← List.append_assoc]
        exact identify_after hbefore (hcreated 0)

end Runs

end Albatross.ExceptionDesc
