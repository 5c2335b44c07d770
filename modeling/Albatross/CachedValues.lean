/-
  Albatross/CachedValues.lean
  ===========================
  **A cached value is computed once** (`wrapper.py`: `cached_property`).

  One property of one object sees only some of what threads do: `View` is its part of the
  state, `Change` what a step may do to it (`step_view`).  As long as nobody writes the
  value and no access to it times out or starts inside its own computation, the accesses
  past the lock are those of one thread, so the function gives at most one value, and
  every access that returns a value returns this one (`computed_once`).
-/
import Albatross.CachedProperty

set_option linter.unusedSectionVars false

namespace Albatross.CachedProperty

open ReentrantLock Runs

variable {P O V : Type} [DecidableEq P] [DecidableEq O]

/-! ### The view of one value -/

/-- What concerns one property of one object: the value stored, where the access of each thread
    is, what the function has given, and what accesses have returned. -/
structure View (V : Type) where
  cell : Option V
  phase : Nat → Option (Phase V)
  computed : List V
  values : List V

def Outcome.value? : Outcome V → Option V
  | .value v => some v
  | _ => none

section OneValue

variable (p : P) (o : O)

def Frame.phaseOf (f : Frame P O V) : Option (Phase V) :=
  if f.prop = p ∧ f.obj = o then some f.phase else none

/-- The accesses of a thread to the property of the object. -/
def phasesOf (stack : List (Frame P O V)) : List (Phase V) := stack.filterMap (Frame.phaseOf p o)

def valueOf (c : P × O × V) : Option V := if c.1 = p ∧ c.2.1 = o then some c.2.2 else none

def Access.valueOf (a : Access P O V) : Option V :=
  if a.prop = p ∧ a.obj = o then a.outcome.bind Outcome.value? else none

def view (s : State P O V) : View V where
  cell := s.dicts o p
  phase := fun t => (phasesOf p o (s.callStacks t)).head?
  computed := s.computed.filterMap (valueOf p o)
  values := s.accesses.filterMap (Access.valueOf p o)

/-- No thread accesses the property of the object inside another such access. -/
def Single (s : State P O V) : Prop := ∀ t, (phasesOf p o (s.callStacks t)).length ≤ 1

/-- The step does not write the value, and no access to it times out or starts inside its own
    computation. -/
def Clean (s : State P O V) : Op P O V → Prop
  | .get t q u => q = p ∧ u = o → phasesOf p o (s.callStacks t) = []
  | .timedOut t => ∀ f ∈ (s.callStacks t).head?, ¬ (f.prop = p ∧ f.obj = o)
  | .write q u _ => ¬ (q = p ∧ u = o)
  | _ => True

end OneValue

inductive Change (w : View V) : View V → Prop where
  | stay : Change w w
  | hit (v : V) (h : w.cell = some v) : Change w { w with values := w.values ++ [v] }
  | enter (t : Nat) (h : w.phase t = none) :
      Change w { w with phase := Function.update w.phase t (some .waiting) }
  | acquire (t : Nat) (h : w.phase t = some .waiting) :
      Change w { w with phase := Function.update w.phase t (some (.checking true)) }
  | found (t : Nat) (a : Bool) (v : V) (h : w.phase t = some (.checking a))
      (hcell : w.cell = some v) :
      Change w { w with phase := Function.update w.phase t (some (.leaving a (.value v))) }
  | compute (t : Nat) (a : Bool) (h : w.phase t = some (.checking a)) (hcell : w.cell = none) :
      Change w { w with phase := Function.update w.phase t (some (.computing a)) }
  | give (t : Nat) (a : Bool) (v : V) (h : w.phase t = some (.computing a)) :
      Change w { w with phase := Function.update w.phase t (some (.storing a v))
                        computed := w.computed ++ [v] }
  | giveNone (t : Nat) (a : Bool) (r : Outcome V) (h : w.phase t = some (.computing a))
      (hr : r.value? = none) :
      Change w { w with phase := Function.update w.phase t (some (.leaving a r)) }
  | store (t : Nat) (a : Bool) (v : V) (h : w.phase t = some (.storing a v)) :
      Change w { w with cell := some v
                        phase := Function.update w.phase t (some (.leaving a (.value v))) }
  | leave (t : Nat) (a : Bool) (r : Outcome V) (h : w.phase t = some (.leaving a r)) :
      Change w { w with phase := Function.update w.phase t none
                        values := w.values ++ r.value?.toList }

section StepChange

variable {p : P} {o : O} {s s' : State P O V}

@[simp] theorem phasesOf_cons_self (x : Phase V) (rest : List (Frame P O V)) :
    phasesOf p o (⟨p, o, x⟩ :: rest) = x :: phasesOf p o rest := by
  simp [phasesOf, Frame.phaseOf]

theorem phasesOf_cons_other {q : P} {u : O} (h : ¬ (q = p ∧ u = o)) (x : Phase V)
    (rest : List (Frame P O V)) : phasesOf p o (⟨q, u, x⟩ :: rest) = phasesOf p o rest := by
  simp [phasesOf, Frame.phaseOf, h]

@[simp] theorem setStack_self (t : Nat) (stack : List (Frame P O V)) :
    (s.setStack t stack).callStacks t = stack := by
  simp [State.setStack]

@[simp] theorem setStack_ne {t u : Nat} (h : u ≠ t) (stack : List (Frame P O V)) :
    (s.setStack t stack).callStacks u = s.callStacks u := by
  simp [State.setStack, h]

@[simp] theorem view_setLock (q : P) (l : Lock Nat) : view p o (s.setLock q l) = view p o s := rfl

theorem view_setStack (t : Nat) (stack : List (Frame P O V)) :
    view p o (s.setStack t stack) =
      { view p o s with
        phase := Function.update (view p o s).phase t (phasesOf p o stack).head? } := by
  have hphase : (view p o (s.setStack t stack)).phase =
      Function.update (view p o s).phase t (phasesOf p o stack).head? := by
    funext u
    by_cases hu : u = t
    · rw [hu, Function.update_self]
      simp [view]
    · rw [Function.update_of_ne hu]
      simp [view, hu]
  rw [← hphase]
  rfl

theorem view_setStack_same {t : Nat} {stack : List (Frame P O V)}
    (h : phasesOf p o stack = phasesOf p o (s.callStacks t)) :
    view p o (s.setStack t stack) = view p o s := by
  rw [view_setStack, h]
  exact congrArg (fun phase => { view p o s with phase := phase }) (Function.update_eq_self t _)

theorem view_setDict_self (c : Option V) :
    view p o (s.setDict p o c) = { view p o s with cell := c } := by
  simp [view, State.setDict]

theorem view_setDict_other {q : P} {u : O} (h : ¬ (q = p ∧ u = o)) (c : Option V) :
    view p o (s.setDict q u c) = view p o s := by
  have hcell : (s.setDict q u c).dicts o p = s.dicts o p := by
    unfold State.setDict
    by_cases hu : o = u
    · subst hu
      have hp : p ≠ q := fun hp => h ⟨hp.symm, rfl⟩
      simp [hp]
    · simp [hu]
  unfold view
  rw [hcell]
  rfl

theorem view_gave_self (v : V) :
    view p o (s.gave p o v) = { view p o s with computed := (view p o s).computed ++ [v] } := by
  simp [view, State.gave, valueOf]

theorem view_gave_other {q : P} {u : O} (h : ¬ (q = p ∧ u = o)) (v : V) :
    view p o (s.gave q u v) = view p o s := by
  simp [view, State.gave, valueOf, h]

theorem view_ended_self (t : Nat) (r : Outcome V) :
    view p o (s.ended ⟨t, p, o, some r⟩) =
      { view p o s with values := (view p o s).values ++ r.value?.toList } := by
  cases r <;> simp [view, State.ended, Access.valueOf, Outcome.value?]

theorem view_ended_other {q : P} {u : O} (h : ¬ (q = p ∧ u = o)) (t : Nat) (r : Outcome V) :
    view p o (s.ended ⟨t, q, u, some r⟩) = view p o s := by
  simp [view, State.ended, Access.valueOf, h]

/-- The only access of the thread to the value is at the top. -/
theorem Single.rest (h : Single p o s) {t : Nat} {x : Phase V} {rest : List (Frame P O V)}
    (hstack : s.callStacks t = ⟨p, o, x⟩ :: rest) :
    phasesOf p o rest = [] ∧ (view p o s).phase t = some x := by
  have hlength := h t
  rw [hstack, phasesOf_cons_self, List.length_cons] at hlength
  refine ⟨List.length_eq_zero_iff.mp (by omega), ?_⟩
  simp [view, hstack]

/-- One stack is replaced by one with at most one access to the value. -/
theorem Single.setStack (h : Single p o s) (t : Nat) {stack : List (Frame P O V)}
    (hstack : (phasesOf p o stack).length ≤ 1) : Single p o (s.setStack t stack) := by
  intro u
  by_cases hu : u = t
  · rw [hu, setStack_self]
    exact hstack
  · rw [setStack_ne hu]
    exact h u

/-- What the rest of a step does to the state, the stack apart, and what it does to the view. -/
theorem Single.step (h : Single p o s) {t : Nat} {q : P} {u : O} {x y : Phase V}
    {rest : List (Frame P O V)} (hstack : s.callStacks t = ⟨q, u, x⟩ :: rest) {mid : State P O V}
    (hmid : mid.callStacks = s.callStacks) (hother : ¬ (q = p ∧ u = o) → view p o mid = view p o s)
    (hself : q = p → u = o → Change (view p o s)
      { view p o mid with phase := Function.update (view p o s).phase t (some y) }) :
    Single p o (mid.setStack t (⟨q, u, y⟩ :: rest)) ∧
      Change (view p o s) (view p o (mid.setStack t (⟨q, u, y⟩ :: rest))) := by
  have hsingle : Single p o mid := fun w => by
    rw [hmid]
    exact h w
  have hphase : (view p o mid).phase = (view p o s).phase := by
    simp only [view, hmid]
  by_cases hqu : q = p ∧ u = o
  · obtain ⟨rfl, rfl⟩ := hqu
    refine ⟨hsingle.setStack t ?_, ?_⟩
    · rw [phasesOf_cons_self, (h.rest hstack).1]
      exact Nat.le_refl 1
    · rw [view_setStack, phasesOf_cons_self, List.head?_cons, hphase]
      exact hself rfl rfl
  · have hsame : phasesOf p o (⟨q, u, y⟩ :: rest) = phasesOf p o (mid.callStacks t) := by
      rw [hmid, hstack, phasesOf_cons_other hqu, phasesOf_cons_other hqu]
    refine ⟨hsingle.setStack t (hsame ▸ hsingle t), ?_⟩
    rw [view_setStack_same hsame, hother hqu]
    exact .stay

/-- **A step seen from one value.** -/
theorem step_view (h : Agrees s) (hsingle : Single p o s) {op : Op P O V} (hclean : Clean p o s op)
    (hstep : step s op = some s') : Single p o s' ∧ Change (view p o s) (view p o s') := by
  cases op with
  | get t q u =>
    rcases get_cases hstep with ⟨v, hv, rfl⟩ | ⟨hnone, rfl⟩
    · refine ⟨hsingle, ?_⟩
      by_cases hself : q = p ∧ u = o
      · obtain ⟨rfl, rfl⟩ := hself
        rw [view_ended_self]
        exact .hit v hv
      · rw [view_ended_other hself]
        exact .stay
    · by_cases hself : q = p ∧ u = o
      · have hnil := hclean hself
        obtain ⟨rfl, rfl⟩ := hself
        refine ⟨hsingle.setStack t ?_, ?_⟩
        · rw [phasesOf_cons_self, hnil]
          exact Nat.le_refl 1
        · rw [view_setStack, phasesOf_cons_self, List.head?_cons]
          exact .enter t (by simp [view, hnil])
      · have hsame := phasesOf_cons_other hself .waiting (s.callStacks t)
        refine ⟨hsingle.setStack t (hsame ▸ hsingle t), ?_⟩
        rw [view_setStack_same hsame]
        exact .stay
  | acquired t =>
    obtain ⟨q, u, rest, l, hstack, _, rfl⟩ := acquired_cases hstep
    refine hsingle.step hstack rfl (fun _ => rfl) ?_
    rintro rfl rfl
    exact .acquire t (hsingle.rest hstack).2
  | timedOut t =>
    obtain ⟨q, u, rest, hstack, rfl⟩ := timedOut_cases hstep
    refine hsingle.step hstack rfl (fun _ => rfl) fun hq hu => ?_
    refine absurd ⟨hq, hu⟩ (hclean ⟨q, u, .waiting⟩ ?_)
    rw [hstack]
    rfl
  | check t =>
    obtain ⟨q, u, a, rest, phase, hstack, hphase, rfl⟩ := check_cases hstep
    refine hsingle.step hstack rfl (fun _ => rfl) ?_
    rintro rfl rfl
    rcases hphase with ⟨v, hv, rfl⟩ | ⟨hnone, rfl⟩
    · exact .found t a v (hsingle.rest hstack).2 hv
    · exact .compute t a (hsingle.rest hstack).2 hnone
  | finish t r =>
    obtain ⟨q, u, a, rest, hstack, ⟨v, rfl, rfl⟩ | ⟨hr, rfl⟩⟩ := finish_cases hstep
    · refine hsingle.step hstack rfl (fun hne => view_gave_other hne v) ?_
      rintro rfl rfl
      rw [view_gave_self]
      exact .give t a v (hsingle.rest hstack).2
    · refine hsingle.step hstack rfl (fun _ => rfl) ?_
      rintro rfl rfl
      refine .giveNone t a r (hsingle.rest hstack).2 ?_
      cases r with
      | value v => exact absurd rfl (hr v)
      | nil => rfl
      | raised => rfl
  | store t =>
    obtain ⟨q, u, a, v, rest, hstack, rfl⟩ := store_cases hstep
    refine hsingle.step hstack rfl (fun hne => view_setDict_other hne (some v)) ?_
    rintro rfl rfl
    rw [view_setDict_self]
    exact .store t a v (hsingle.rest hstack).2
  | leave t =>
    obtain ⟨q, u, a, r, rest, l, hstack, rfl⟩ := h.leave hstep
    let mid := (s.setLock q l).ended ⟨t, q, u, some r⟩
    have hmid : Single p o mid := hsingle
    by_cases hself : q = p ∧ u = o
    · obtain ⟨rfl, rfl⟩ := hself
      obtain ⟨hnil, hphase⟩ := hsingle.rest hstack
      refine ⟨hmid.setStack t (by rw [hnil]; exact Nat.zero_le 1), ?_⟩
      rw [view_setStack, view_ended_self, hnil]
      exact .leave t a r hphase
    · have hsame : phasesOf p o rest = phasesOf p o (mid.callStacks t) := by
        rw [show mid.callStacks t = _ from hstack, phasesOf_cons_other hself]
      refine ⟨hmid.setStack t (hsame ▸ hmid t), ?_⟩
      rw [view_setStack_same hsame, view_ended_other hself]
      exact .stay
  | write q u c =>
    cases hstep
    refine ⟨hsingle, ?_⟩
    rw [view_setDict_other hclean c]
    exact .stay

end StepChange

/-! ### One value -/

/-- Since `base` the function has given `vs` and accesses have returned `rs`: every value returned
    is stored, the value stored is the only one given, and a thread is in the function only
    before. -/
structure Once (base w : View V) (vs rs : List V) : Prop where
  computed : w.computed = base.computed ++ vs
  values : w.values = base.values ++ rs
  locked : ∀ t x, w.phase t = some x → x ≠ .waiting → x.acquireLock = true
  returned : ∀ v ∈ rs, w.cell = some v
  cell : ∀ v, w.cell = some v → vs = [v]
  leaving : ∀ t a v, w.phase t = some (.leaving a (.value v)) → w.cell = some v
  storing : ∀ t a v, w.phase t = some (.storing a v) → vs = [v] ∧ w.cell = none
  empty : w.cell = none → vs = [] ∨ ∃ t a v, w.phase t = some (.storing a v)
  computing : ∀ t a, w.phase t = some (.computing a) → vs = []

def Exclusive (w : View V) : Prop :=
  ∀ t u x y, w.phase t = some x → w.phase u = some y → x.acquireLock = true →
    y.acquireLock = true → t = u

theorem update_eq_some {phase : Nat → Option (Phase V)} {t u : Nat} {y : Option (Phase V)}
    {x : Phase V} (h : Function.update phase t y u = some x) :
    (u = t ∧ y = some x) ∨ (u ≠ t ∧ phase u = some x) := by
  by_cases hu : u = t
  · rw [hu, Function.update_self] at h
    exact Or.inl ⟨hu, h⟩
  · rw [Function.update_of_ne hu] at h
    exact Or.inr ⟨hu, h⟩

section Once

variable {base w : View V} {vs rs : List V}

theorem Once.unique (h : Once base w vs rs) (hexcl : Exclusive w) {t u : Nat} {x y : Phase V}
    (ht : w.phase t = some x) (hu : w.phase u = some y) (hx : x ≠ .waiting) (hy : y ≠ .waiting) :
    t = u :=
  hexcl t u x y ht hu (h.locked t x ht hx) (h.locked u y hu hy)

theorem Once.move (h : Once base w vs rs) {t : Nat} {y : Phase V}
    (hfrom : ∀ a v, w.phase t ≠ some (.storing a v)) (hto : ∀ a v, y ≠ .storing a v)
    (hlocked : y ≠ .waiting → y.acquireLock = true)
    (hleaving : ∀ a v, y = .leaving a (.value v) → w.cell = some v)
    (hcomputing : ∀ a, y = .computing a → vs = []) :
    Once base { w with phase := Function.update w.phase t (some y) } vs rs where
  computed := h.computed
  values := h.values
  returned := h.returned
  cell := h.cell
  locked := by
    intro u x hx
    rcases update_eq_some hx with ⟨_, hy⟩ | ⟨_, hx⟩
    · cases hy
      exact hlocked
    · exact h.locked u x hx
  leaving := by
    intro u a v hx
    rcases update_eq_some hx with ⟨_, hy⟩ | ⟨_, hx⟩
    · exact hleaving a v (Option.some.inj hy)
    · exact h.leaving u a v hx
  storing := by
    intro u a v hx
    rcases update_eq_some hx with ⟨_, hy⟩ | ⟨_, hx⟩
    · exact absurd (Option.some.inj hy) (hto a v)
    · exact h.storing u a v hx
  empty := by
    intro hnone
    rcases h.empty hnone with hvs | ⟨u, a, v, hu⟩
    · exact Or.inl hvs
    · refine Or.inr ⟨u, a, v, ?_⟩
      have hne : u ≠ t := fun heq => hfrom a v (heq ▸ hu)
      exact (Function.update_of_ne hne _ _).trans hu
  computing := by
    intro u a hx
    rcases update_eq_some hx with ⟨_, hy⟩ | ⟨_, hx⟩
    · exact hcomputing a (Option.some.inj hy)
    · exact h.computing u a hx

theorem Once.give (h : Once base w vs rs) (hexcl : Exclusive w) {t : Nat} {a : Bool} {v : V}
    (ht : w.phase t = some (.computing a)) :
    Once base { w with phase := Function.update w.phase t (some (.storing a v))
                       computed := w.computed ++ [v] } [v] rs := by
  have ha : a = true := h.locked t _ ht (by rintro ⟨⟩)
  have hvs : vs = [] := h.computing t a ht
  have hnone : w.cell = none := by
    cases hcell : w.cell with
    | none => rfl
    | some v' =>
      have := h.cell v' hcell
      rw [hvs] at this
      cases this
  have hcomputed : w.computed = base.computed := by
    rw [h.computed, hvs, List.append_nil]
  constructor
  case computed => exact congrArg (· ++ [v]) hcomputed
  case values => exact h.values
  case returned => exact h.returned
  case cell =>
    intro v' hcell
    rw [hnone] at hcell
    cases hcell
  case locked =>
    intro u x hx _
    rcases update_eq_some hx with ⟨_, hy⟩ | ⟨_, hx⟩
    · cases hy
      exact ha
    · exact h.locked u x hx ‹_›
  case leaving =>
    intro u b v' hx
    rcases update_eq_some hx with ⟨_, hy⟩ | ⟨_, hx⟩
    · cases hy
    · exact h.leaving u b v' hx
  case storing =>
    intro u b v' hx
    rcases update_eq_some hx with ⟨_, hy⟩ | ⟨_, hx⟩
    · cases hy
      exact ⟨rfl, hnone⟩
    · have := (h.storing u b v' hx).1
      rw [hvs] at this
      cases this
  case empty => exact fun _ => Or.inr ⟨t, a, v, Function.update_self _ _ _⟩
  case computing =>
    intro u b hx
    rcases update_eq_some hx with ⟨_, hy⟩ | ⟨hne, hx⟩
    · cases hy
    · exact absurd (h.unique hexcl hx ht (by rintro ⟨⟩) (by rintro ⟨⟩)) hne

theorem Once.store (h : Once base w vs rs) (hexcl : Exclusive w) {t : Nat} {a : Bool} {v : V}
    (ht : w.phase t = some (.storing a v)) :
    Once base { w with
      cell := some v
      phase := Function.update w.phase t (some (.leaving a (.value v))) } vs rs := by
  have ha : a = true := h.locked t _ ht (by rintro ⟨⟩)
  obtain ⟨hvs, hnone⟩ := h.storing t a v ht
  have hnot : ∀ v', w.cell ≠ some v' := by
    intro v' hcell
    rw [hnone] at hcell
    cases hcell
  constructor
  case computed => exact h.computed
  case values => exact h.values
  case returned => exact fun v' hv' => absurd (h.returned v' hv') (hnot v')
  case cell =>
    intro v' hcell
    cases hcell
    exact hvs
  case locked =>
    intro u x hx _
    rcases update_eq_some hx with ⟨_, hy⟩ | ⟨_, hx⟩
    · cases hy
      exact ha
    · exact h.locked u x hx ‹_›
  case leaving =>
    intro u b v' hx
    rcases update_eq_some hx with ⟨_, hy⟩ | ⟨_, hx⟩
    · cases hy
      rfl
    · exact absurd (h.leaving u b v' hx) (hnot v')
  case storing =>
    intro u b v' hx
    rcases update_eq_some hx with ⟨_, hy⟩ | ⟨hne, hx⟩
    · cases hy
    · exact absurd (h.unique hexcl hx ht (by rintro ⟨⟩) (by rintro ⟨⟩)) hne
  case empty =>
    intro hcell
    cases hcell
  case computing =>
    intro u b hx
    rcases update_eq_some hx with ⟨_, hy⟩ | ⟨hne, hx⟩
    · cases hy
    · exact absurd (h.unique hexcl hx ht (by rintro ⟨⟩) (by rintro ⟨⟩)) hne

theorem Once.leave (h : Once base w vs rs) {t : Nat} {a : Bool} {r : Outcome V}
    (ht : w.phase t = some (.leaving a r)) :
    Once base { w with phase := Function.update w.phase t none
                       values := w.values ++ r.value?.toList } vs (rs ++ r.value?.toList) := by
  have hkeep : ∀ {u x}, Function.update w.phase t none u = some x → w.phase u = some x := by
    intro u x hx
    rcases update_eq_some hx with ⟨_, hy⟩ | ⟨_, hx⟩
    · cases hy
    · exact hx
  constructor
  case computed => exact h.computed
  case values =>
    show w.values ++ _ = _
    rw [h.values, List.append_assoc]
  case returned =>
    intro v hv
    rcases List.mem_append.mp hv with hv | hv
    · exact h.returned v hv
    · cases r with
      | value v' =>
        cases List.mem_singleton.mp hv
        exact h.leaving t a v ht
      | nil => cases hv
      | raised => cases hv
  case cell => exact h.cell
  case locked => exact fun u x hx => h.locked u x (hkeep hx)
  case leaving => exact fun u b v hx => h.leaving u b v (hkeep hx)
  case storing => exact fun u b v hx => h.storing u b v (hkeep hx)
  case empty =>
    intro hnone
    rcases h.empty hnone with hvs | ⟨u, b, v, hu⟩
    · exact Or.inl hvs
    · refine Or.inr ⟨u, b, v, ?_⟩
      have hne : u ≠ t := by
        rintro rfl
        rw [ht] at hu
        cases hu
      exact (Function.update_of_ne hne _ _).trans hu
  case computing => exact fun u b hx => h.computing u b (hkeep hx)

/-- **What a step does to one value keeps it the only one.** -/
theorem Once.change (h : Once base w vs rs) (hexcl : Exclusive w) {w' : View V}
    (hchange : Change w w') : ∃ vs' rs', Once base w' vs' rs' := by
  -- an access that is somewhere else is not storing
  have hfrom : ∀ {t x}, w.phase t = some x → (∀ a v, x ≠ .storing a v) →
      ∀ a v, w.phase t ≠ some (.storing a v) := by
    intro t x ht hx a v hstoring
    rw [ht] at hstoring
    exact hx a v (Option.some.inj hstoring)
  cases hchange with
  | stay => exact ⟨vs, rs, h⟩
  | hit v hv =>
    refine ⟨vs, rs ++ [v], { h with values := ?_, returned := ?_ }⟩
    · show w.values ++ _ = _
      rw [h.values, List.append_assoc]
    · intro v' hv'
      rcases List.mem_append.mp hv' with hv' | hv'
      · exact h.returned v' hv'
      · cases List.mem_singleton.mp hv'
        exact hv
  | enter t ht =>
    refine ⟨vs, rs, h.move (by rw [ht]; rintro a v ⟨⟩) ?_ ?_ ?_ ?_⟩
    · rintro a v ⟨⟩
    · exact fun hne => absurd rfl hne
    · rintro a v ⟨⟩
    · rintro a ⟨⟩
  | acquire t ht =>
    refine ⟨vs, rs, h.move (hfrom ht (by rintro a v ⟨⟩)) ?_ (fun _ => rfl) ?_ ?_⟩
    · rintro a v ⟨⟩
    · rintro a v ⟨⟩
    · rintro a ⟨⟩
  | found t a v ht hv =>
    have ha := h.locked t _ ht (by rintro ⟨⟩)
    refine ⟨vs, rs, h.move (hfrom ht (by rintro b v ⟨⟩)) ?_ (fun _ => ha) ?_ ?_⟩
    · rintro b v ⟨⟩
    · rintro b v' ⟨⟩
      exact hv
    · rintro b ⟨⟩
  | compute t a ht hnone =>
    have ha := h.locked t _ ht (by rintro ⟨⟩)
    refine ⟨vs, rs, h.move (hfrom ht (by rintro b v ⟨⟩)) ?_ (fun _ => ha) ?_ ?_⟩
    · rintro b v ⟨⟩
    · rintro b v ⟨⟩
    · intro b _
      rcases h.empty hnone with hvs | ⟨u, c, v, hu⟩
      · exact hvs
      · -- the thread that stores would have the lock too
        cases h.unique hexcl ht hu (by rintro ⟨⟩) (by rintro ⟨⟩)
        rw [ht] at hu
        cases hu
  | give t a v ht => exact ⟨[v], rs, h.give hexcl ht⟩
  | giveNone t a r ht hr =>
    have ha := h.locked t _ ht (by rintro ⟨⟩)
    refine ⟨vs, rs, h.move (hfrom ht (by rintro b v ⟨⟩)) ?_ (fun _ => ha) ?_ ?_⟩
    · rintro b v ⟨⟩
    · rintro b v ⟨⟩
      cases hr
    · rintro b ⟨⟩
  | store t a v ht => exact ⟨vs, rs, h.store hexcl ht⟩
  | leave t a r ht => exact ⟨vs, rs ++ r.value?.toList, h.leave ht⟩

end Once

/-- The accesses that have the lock of a property are those of one thread. -/
theorem Agrees.exclusive {s : State P O V} (h : Agrees s) (p : P) (o : O) :
    Exclusive (view p o s) := by
  have hheld : ∀ t x, (view p o s).phase t = some x → x.acquireLock = true →
      0 < ReentrantLock.holds (s.locks p) t := by
    intro t x hx hlock
    rw [h.holds]
    obtain ⟨f, hf, hphase⟩ := List.mem_filterMap.mp (List.mem_of_mem_head? hx)
    refine List.countP_pos_iff.mpr ⟨f, hf, ?_⟩
    unfold Frame.phaseOf at hphase
    split at hphase
    · next hself =>
      cases hphase
      simp [hself.1, hlock]
    · cases hphase
  exact fun t u x y hx hy hlx hly => owner_unique (hheld t x hx hlx) (hheld u y hy hly)

/-- No value is stored and no access is under way. -/
def Fresh (p : P) (o : O) (s : State P O V) : Prop :=
  s.dicts o p = none ∧ ∀ t, phasesOf p o (s.callStacks t) = []

theorem Fresh.once {p : P} {o : O} {s : State P O V} (h : Fresh p o s) :
    Once (view p o s) (view p o s) [] [] := by
  have hphase : ∀ t x, (view p o s).phase t ≠ some x := by
    intro t x hx
    simp [view, h.2 t] at hx
  have hcell : ∀ v, (view p o s).cell ≠ some v := by
    intro v hv
    rw [show (view p o s).cell = none from h.1] at hv
    cases hv
  constructor
  case computed => exact (List.append_nil _).symm
  case values => exact (List.append_nil _).symm
  case locked => exact fun t x hx => absurd hx (hphase t x)
  case returned => exact fun v hv => absurd hv List.not_mem_nil
  case cell => exact fun v hv => absurd hv (hcell v)
  case leaving => exact fun t a v hx => absurd hx (hphase t _)
  case storing => exact fun t a v hx => absurd hx (hphase t _)
  case empty => exact fun _ => Or.inl rfl
  case computing => exact fun t a hx => absurd hx (hphase t _)

/-- **A value is computed once**: from a state in which the property of the object has no value
    and no access to it is under way, and as long as nobody writes the value and no access to
    it times out or starts inside its own computation, the function gives at most one value
    (`vs`), and whatever accesses return (`rs`) is this value. -/
theorem computed_once {p : P} {o : O} {past ops : List (Op P O V)} {s₀ s : State P O V}
    (hreach : run step State.initial past = some s₀) (hfresh : Fresh p o s₀)
    (hrun : run step s₀ ops = some s)
    (hclean : ∀ a op b, Takes step s₀ ops a op b → Clean p o a op) :
    ∃ vs rs, (view p o s).computed = (view p o s₀).computed ++ vs ∧
      (view p o s).values = (view p o s₀).values ++ rs ∧ vs.length ≤ 1 ∧
        ∀ v ∈ rs, vs = [v] ∧ s.dicts o p = some v := by
  let I : State P O V → Prop := fun a =>
    Agrees a ∧ Single p o a ∧ ∃ vs rs, Once (view p o s₀) (view p o a) vs rs
  have hkeep : ∀ a op b, Takes step s₀ ops a op b → I a → I b := by
    rintro a op b htakes ⟨hagrees, hsingle, vs, rs, honce⟩
    obtain ⟨hsingle', hchange⟩ := step_view hagrees hsingle (hclean a op b htakes) htakes.one
    exact ⟨step_agrees a op b hagrees htakes.one, hsingle',
      honce.change (hagrees.exclusive p o) hchange⟩
  have h₀ : I s₀ := by
    refine ⟨run_agrees hreach, fun t => ?_, [], [], hfresh.once⟩
    rw [hfresh.2 t]
    exact Nat.zero_le 1
  obtain ⟨_, _, vs, rs, honce⟩ := run_takes h₀ hkeep hrun
  refine ⟨vs, rs, honce.computed, honce.values, ?_, fun v hv => ?_⟩
  · cases hcell : s.dicts o p with
    | some v =>
      rw [honce.cell v hcell]
      exact Nat.le_refl 1
    | none =>
      rcases honce.empty hcell with hvs | ⟨t, a, v, ht⟩
      · rw [hvs]
        exact Nat.zero_le 1
      · rw [(honce.storing t a v ht).1]
        exact Nat.le_refl 1
  · have hcell := honce.returned v hv
    exact ⟨honce.cell v hcell, hcell⟩

/-- Both threads find nothing; thread 1 gets the lock second and finds the value. -/
def bothLook : List (Op Nat Nat Nat) :=
  [.get 0 0 0, .get 1 0 0, .acquired 0, .check 0, .finish 0 (.value 7), .store 0, .leave 0,
    .acquired 1, .check 1, .leave 1]

theorem bothLook_clean (a : State Nat Nat Nat) (op : Op Nat Nat Nat) (b : State Nat Nat Nat)
    (h : Takes step State.initial bothLook a op b) : Clean 0 0 a op := by
  rcases takes_cons.mp h with ⟨rfl, rfl, _⟩ | ⟨_, hfirst, h⟩
  · exact fun _ => rfl
  · cases hfirst
    rcases takes_cons.mp h with ⟨rfl, rfl, _⟩ | ⟨_, hsecond, h⟩
    · exact fun _ => rfl
    · have hmem := h.mem
      simp only [List.mem_cons, List.not_mem_nil, or_false] at hmem
      rcases hmem with rfl | rfl | rfl | rfl | rfl | rfl | rfl | rfl <;> trivial

theorem computed_once_bothLook : ∃ s₀ s : State Nat Nat Nat,
    run step State.initial [] = some s₀ ∧ run step s₀ bothLook = some s ∧
      (∃ vs rs, (view 0 0 s).computed = (view 0 0 s₀).computed ++ vs ∧
        (view 0 0 s).values = (view 0 0 s₀).values ++ rs ∧ vs.length ≤ 1 ∧
          ∀ v ∈ rs, vs = [v] ∧ s.dicts 0 0 = some v) ∧
      (view 0 0 s).values = [7, 7] := by
  have hstart : run step (State.initial : State Nat Nat Nat) [] = some _ := rfl
  have hrun : run step State.initial bothLook = some _ := rfl
  exact ⟨_, _, hstart, hrun, computed_once hstart ⟨rfl, fun _ => rfl⟩ hrun bothLook_clean, rfl⟩

end Albatross.CachedProperty
