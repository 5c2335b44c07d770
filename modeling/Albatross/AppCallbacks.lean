/-
  Albatross/AppCallbacks.lean
  ===========================
  **Each application callback at most once, and after the load.**

  The runs where this holds are those in which `appendPlugin` puts its plugin into
  the table before `init` is called or after the last pass over the table has ended,
  and `init` finds only plugins whose `appendPlugin` is over and met no application
  (`Timely`).  Then the table stands still while `init` loads it and the hooks go
  through it, and no thread calls a plugin that a pass will come to
  (`callbacks_proper`).
-/
import Albatross.AppStart

namespace Albatross.AppStart

open Runs Assoc

/-! ### Passes to come -/

def Instr.cb? : Instr → Option Callback
  | .pass cb => some cb
  | .iterate cb _ _ => some cb
  | _ => none

/-- The callbacks whose pass has been scheduled and has not ended. -/
def State.pending (s : State) : List Callback := s.main.flatten.filterMap Instr.cb?

def Over (s : State) : Prop :=
  s.isNewApplication = true ∧ s.isApplicationOnCreateCalled = true ∧ s.pending = []

/-- The flag that lets the callback's pass be scheduled once. -/
def flagOf (isNewApplication isApplicationOnCreateCalled : Bool) : Callback → Bool
  | .beforeNewApplication => isNewApplication
  | .afterNewApplication => isNewApplication
  | .beforeApplicationCreate => isApplicationOnCreateCalled
  | .afterApplicationCreate => isApplicationOnCreateCalled

def State.flag (s : State) : Callback → Bool :=
  flagOf s.isNewApplication s.isApplicationOnCreateCalled

/-- When plugins may be put into the table and when `init` may be called. -/
def Timely (s : State) : Op → Prop
  | .put _ => s.begun = true → Over s
  | .init _ _ => Over s ∨ ∀ key p, s.pluginCache.lookup key = some p → p ∈ s.skipped
  | _ => True

/-! ### What always holds in such runs -/

/-- The plugin a thread has put into the table and is not yet done with. -/
def Phase.plugin : Phase → Option Nat
  | .appended p => some p
  | .loading p => some p
  | .calling p _ => some p
  | _ => none

/-- What the instruction has still to deliver has not been delivered. -/
def Clean (s : State) : Instr → Prop
  | .pass cb => ∀ p ∈ s.skipped, .callback p cb ∉ s.trace
  | .iterate cb rest _ => rest.Nodup ∧
      ∀ key ∈ rest, ∀ p, s.pluginCache.lookup key = some p → .callback p cb ∉ s.trace
  | _ => True

structure Inv (s : State) : Prop where
  loaded_lt : ∀ p, .loaded p ∈ s.trace → p < s.made
  callback_lt : ∀ p cb, .callback p cb ∈ s.trace → p < s.made
  table_lt : ∀ key p, s.pluginCache.lookup key = some p → p < s.made
  skipped_lt : ∀ p ∈ s.skipped, p < s.made
  owner_lt : ∀ t p, (s.threads t).plugin = some p → p < s.made
  owner : ∀ t t' p, (s.threads t).plugin = some p → (s.threads t').plugin = some p → t = t'
  owner_skipped : ∀ t p, (s.threads t).plugin = some p → p ∉ s.skipped
  table_inj : ∀ key key' p, s.pluginCache.lookup key = some p → s.pluginCache.lookup key' = some p →
    key = key'
  uncalled : ∀ t p, s.threads t = .appended p ∨ s.threads t = .loading p →
    ∀ cb, .callback p cb ∉ s.trace
  calling : ∀ t p rest, s.threads t = .calling p rest →
    .loaded p ∈ s.trace ∧ rest.Nodup ∧ ∀ cb ∈ rest, .callback p cb ∉ s.trace
  proper : Proper s.trace
  unhooked : s.hooked = false → s.main = [] ∧ s.isNewApplication = false ∧
    s.isApplicationOnCreateCalled = false ∧ s.posted = 0
  unbegun : s.begun = false → s.hooked = false ∧ ∀ t rest m, s.threads t ≠ .initializing rest m
  frozen : s.begun = true → Over s ∨ ∀ key p, s.pluginCache.lookup key = some p → p ∈ s.skipped
  initialized : ∀ t rest m, s.threads t = .initializing rest m →
    Over s ∨ ∀ key p, s.pluginCache.lookup key = some p → key ∈ rest ∨ .loaded p ∈ s.trace
  loaded : s.hooked = true → Over s ∨ ∀ key p, s.pluginCache.lookup key = some p →
    .loaded p ∈ s.trace
  flagged : ∀ cb ∈ s.pending, s.flag cb = true
  pending_nodup : s.pending.Nodup
  clean : ∀ i ∈ s.main.flatten, Clean s i
  unflagged : ∀ cb, s.flag cb = false → ∀ p ∈ s.skipped, .callback p cb ∉ s.trace

theorem inv_start : Inv State.start where
  loaded_lt := fun _ h => by cases h
  callback_lt := fun _ _ h => by cases h
  table_lt := fun _ _ h => by cases h
  skipped_lt := fun _ h => by cases h
  owner_lt := fun _ _ h => by cases h
  owner := fun _ _ _ h => by cases h
  owner_skipped := fun _ _ h => by cases h
  table_inj := fun _ _ _ h => by cases h
  uncalled := fun _ _ h => by rcases h with h | h <;> cases h
  calling := fun _ _ _ h => by cases h
  proper := trivial
  unhooked := fun _ => ⟨rfl, rfl, rfl, rfl⟩
  unbegun := fun _ => ⟨rfl, fun _ _ _ h => by cases h⟩
  frozen := fun h => by cases h
  initialized := fun _ _ _ h => by cases h
  loaded := fun h => by cases h
  flagged := fun _ h => by cases h
  pending_nodup := List.nodup_nil
  clean := fun _ h => by cases h
  unflagged := fun _ _ _ h => by cases h

section Facts

variable {s : State} {t p : Nat} {cb : Callback}

/-- While a pass is to come or under way, the table holds only plugins that no thread
    calls. -/
theorem Inv.during (hinv : Inv s) (h : s.pending ≠ []) :
    (∀ key p, s.pluginCache.lookup key = some p → p ∈ s.skipped) ∧
      ∀ key p, s.pluginCache.lookup key = some p → .loaded p ∈ s.trace := by
  have hnot : ¬ Over s := fun hover => h hover.2.2
  have hhooked : s.hooked = true := by
    by_contra hno
    obtain ⟨hmain, -⟩ := hinv.unhooked (Bool.eq_false_iff.mpr hno)
    exact h (by rw [State.pending, hmain]; rfl)
  have hbegun : s.begun = true := by
    by_contra hno
    rw [(hinv.unbegun (Bool.eq_false_iff.mpr hno)).1] at hhooked
    cases hhooked
  exact ⟨(hinv.frozen hbegun).resolve_left hnot, (hinv.loaded hhooked).resolve_left hnot⟩

theorem pending_ne_nil {i : Instr} (hi : i ∈ s.main.flatten) (hcb : i.cb? = some cb) :
    s.pending ≠ [] := by
  intro hnil
  have hmem : cb ∈ s.pending := List.mem_filterMap.mpr ⟨i, hi, hcb⟩
  rw [hnil] at hmem
  cases hmem

/-- The phase of a thread after another phase is set for one of them. -/
theorem update_phase (threads : Nat → Phase) (t : Nat) (phase : Phase) (t' : Nat) :
    (t' = t ∧ Function.update threads t phase t' = phase) ∨
      (t' ≠ t ∧ Function.update threads t phase t' = threads t') := by
  by_cases ht : t' = t
  · rw [ht, Function.update_self]
    exact Or.inl ⟨rfl, rfl⟩
  · rw [Function.update_of_ne ht]
    exact Or.inr ⟨ht, rfl⟩

end Facts

/-! ### Parts of steps -/

section Parts

variable {s : State} {t p : Nat} {cb : Callback} {phase : Phase}

theorem Inv.goto (hinv : Inv s) (hown : ∀ p, phase.plugin = some p → (s.threads t).plugin = some p)
    (huncalled : ∀ p, phase = .appended p ∨ phase = .loading p → ∀ cb, .callback p cb ∉ s.trace)
    (hcalling : ∀ p rest, phase = .calling p rest →
      .loaded p ∈ s.trace ∧ rest.Nodup ∧ ∀ cb ∈ rest, .callback p cb ∉ s.trace)
    (hinit : ∀ rest m, phase = .initializing rest m → s.begun = true ∧
      (Over s ∨ ∀ key p, s.pluginCache.lookup key = some p → key ∈ rest ∨ .loaded p ∈ s.trace)) :
    Inv (s.goto t phase) := by
  have hplugin : ∀ {t' p : Nat}, (Function.update s.threads t phase t').plugin = some p →
      (s.threads t').plugin = some p := by
    intro t' p h
    rcases update_phase s.threads t phase t' with ⟨rfl, heq⟩ | ⟨_, heq⟩
    · rw [heq] at h
      exact hown p h
    · rw [heq] at h
      exact h
  refine { hinv with
    owner_lt := fun t' p h => hinv.owner_lt t' p (hplugin h)
    owner := fun t₁ t₂ p h₁ h₂ => hinv.owner t₁ t₂ p (hplugin h₁) (hplugin h₂)
    owner_skipped := fun t' p h => hinv.owner_skipped t' p (hplugin h)
    uncalled := ?_
    calling := ?_
    unbegun := ?_
    initialized := ?_ }
  · intro t' p h
    dsimp only [State.goto] at h
    rcases update_phase s.threads t phase t' with ⟨_, heq⟩ | ⟨_, heq⟩
    · rw [heq] at h
      exact huncalled p h
    · rw [heq] at h
      exact hinv.uncalled t' p h
  · intro t' p rest h
    dsimp only [State.goto] at h
    rcases update_phase s.threads t phase t' with ⟨_, heq⟩ | ⟨_, heq⟩
    · rw [heq] at h
      exact hcalling p rest h
    · rw [heq] at h
      exact hinv.calling t' p rest h
  · intro hno
    refine ⟨(hinv.unbegun hno).1, fun t' rest m h => ?_⟩
    dsimp only [State.goto] at h
    rcases update_phase s.threads t phase t' with ⟨_, heq⟩ | ⟨_, heq⟩
    · rw [heq] at h
      have hbegun := (hinit rest m h).1
      rw [show s.begun = false from hno] at hbegun
      cases hbegun
    · rw [heq] at h
      exact (hinv.unbegun hno).2 t' rest m h
  · intro t' rest m h
    dsimp only [State.goto] at h
    rcases update_phase s.threads t phase t' with ⟨_, heq⟩ | ⟨_, heq⟩
    · rw [heq] at h
      exact (hinit rest m h).2
    · rw [heq] at h
      exact hinv.initialized t' rest m h

theorem Inv.release (hinv : Inv s) (hplugin : phase.plugin = none)
    (hinit : ∀ rest m, phase ≠ .initializing rest m) : Inv (s.goto t phase) := by
  apply hinv.goto
  · intro p h
    rw [hplugin] at h
    cases h
  · rintro p (rfl | rfl) <;> cases hplugin
  · rintro p rest rfl
    cases hplugin
  · intro rest m h
    exact absurd h (hinit rest m)

theorem Inv.idle (hinv : Inv s) (t : Nat) : Inv (s.goto t .idle) :=
  hinv.release rfl fun _ _ h => by cases h

/-- What is recorded keeps the facts about which plugins have been loaded. -/
theorem Inv.initialized_record (hinv : Inv s) (e : Event) (t : Nat) (rest : List String) (m : Nat)
    (h : s.threads t = .initializing rest m) :
    Over s ∨ ∀ key q, s.pluginCache.lookup key = some q →
      key ∈ rest ∨ .loaded q ∈ (s.record e).trace :=
  (hinv.initialized t rest m h).imp_right fun hall key q hq =>
    (hall key q hq).imp_right (List.mem_cons_of_mem e)

theorem Inv.loaded_record (hinv : Inv s) (e : Event) (h : s.hooked = true) :
    Over s ∨ ∀ key q, s.pluginCache.lookup key = some q → .loaded q ∈ (s.record e).trace :=
  (hinv.loaded h).imp_right fun hall key q hq => List.mem_cons_of_mem e (hall key q hq)

theorem Inv.recordLoaded (hinv : Inv s) (hp : p < s.made) : Inv (s.record (.loaded p)) := by
  have hcallback : ∀ {q : Nat} {cb : Callback}, .callback q cb ∈ (s.record (.loaded p)).trace →
      .callback q cb ∈ s.trace := by
    intro q cb h
    rcases List.mem_cons.mp h with h | h
    · cases h
    · exact h
  have hmore : ∀ {q : Nat}, .loaded q ∈ s.trace → .loaded q ∈ (s.record (.loaded p)).trace :=
    fun h => List.mem_cons_of_mem _ h
  refine { hinv with
    loaded_lt := ?_
    callback_lt := fun q cb h => hinv.callback_lt q cb (hcallback h)
    uncalled := fun t q h cb hcb => hinv.uncalled t q h cb (hcallback hcb)
    calling := ?_
    proper := hinv.proper
    initialized := hinv.initialized_record (.loaded p)
    loaded := hinv.loaded_record (.loaded p)
    clean := ?_
    unflagged := fun cb hflag q hq hcb => hinv.unflagged cb hflag q hq (hcallback hcb) }
  · intro q h
    rcases List.mem_cons.mp h with h | h
    · cases h
      exact hp
    · exact hinv.loaded_lt q h
  · intro t q rest h
    obtain ⟨hloaded, hnodup, hfresh⟩ := hinv.calling t q rest h
    exact ⟨hmore hloaded, hnodup, fun cb hcb hin => hfresh cb hcb (hcallback hin)⟩
  · intro i hi
    have hclean := hinv.clean i hi
    cases i with
    | pass cb => exact fun q hq hcb => hclean q hq (hcallback hcb)
    | iterate cb rest m =>
      exact ⟨hclean.1, fun key hkey q hq hcb => hclean.2 key hkey q hq (hcallback hcb)⟩
    | _ => trivial

theorem Inv.recordCallback (hinv : Inv s) (hloaded : .loaded p ∈ s.trace)
    (hfresh : .callback p cb ∉ s.trace)
    (huncalled : ∀ t, s.threads t ≠ .appended p ∧ s.threads t ≠ .loading p)
    (hcalling : ∀ t rest, s.threads t = .calling p rest → cb ∉ rest)
    (hskipped : p ∈ s.skipped → s.flag cb = true ∧ ∀ i ∈ s.main.flatten, i ≠ .pass cb)
    (htable : ∀ rest m, .iterate cb rest m ∈ s.main.flatten →
      ∀ key ∈ rest, s.pluginCache.lookup key ≠ some p) :
    Inv (s.record (.callback p cb)) := by
  have hcallback : ∀ {q : Nat} {cb' : Callback},
      .callback q cb' ∈ (s.record (.callback p cb)).trace →
      (q = p ∧ cb' = cb) ∨ .callback q cb' ∈ s.trace := by
    intro q cb' h
    rcases List.mem_cons.mp h with h | h
    · cases h
      exact Or.inl ⟨rfl, rfl⟩
    · exact Or.inr h
  have hmore : ∀ {q : Nat}, .loaded q ∈ s.trace → .loaded q ∈ (s.record (.callback p cb)).trace :=
    fun h => List.mem_cons_of_mem _ h
  refine { hinv with
    loaded_lt := ?_
    callback_lt := ?_
    uncalled := ?_
    calling := ?_
    proper := ⟨hloaded, hfresh, hinv.proper⟩
    initialized := hinv.initialized_record (.callback p cb)
    loaded := hinv.loaded_record (.callback p cb)
    clean := ?_
    unflagged := ?_ }
  · intro q h
    rcases List.mem_cons.mp h with h | h
    · cases h
    · exact hinv.loaded_lt q h
  · intro q cb' h
    rcases hcallback h with ⟨rfl, rfl⟩ | h
    · exact hinv.loaded_lt q hloaded
    · exact hinv.callback_lt q cb' h
  · intro t q hphase cb' h
    rcases hcallback h with ⟨rfl, rfl⟩ | h
    · exact hphase.elim (huncalled t).1 (huncalled t).2
    · exact hinv.uncalled t q hphase cb' h
  · intro t q rest hphase
    obtain ⟨hl, hnodup, hf⟩ := hinv.calling t q rest hphase
    refine ⟨hmore hl, hnodup, fun cb' hcb' h => ?_⟩
    rcases hcallback h with ⟨rfl, rfl⟩ | h
    · exact hcalling t rest hphase hcb'
    · exact hf cb' hcb' h
  · intro i hi
    have hclean := hinv.clean i hi
    cases i with
    | pass cb' =>
      intro q hq h
      rcases hcallback h with ⟨rfl, rfl⟩ | h
      · exact (hskipped hq).2 _ hi rfl
      · exact hclean q hq h
    | iterate cb' rest m =>
      refine ⟨hclean.1, fun key hkey q hq h => ?_⟩
      rcases hcallback h with ⟨rfl, rfl⟩ | h
      · exact htable rest m hi key hkey hq
      · exact hclean.2 key hkey q hq h
    | _ => trivial
  · intro cb' hflag q hq h
    rcases hcallback h with ⟨rfl, rfl⟩ | h
    · have hsame : (s.record (.callback q cb')).flag cb' = s.flag cb' := rfl
      rw [hsame, (hskipped hq).1] at hflag
      cases hflag
    · exact hinv.unflagged cb' hflag q hq h

theorem Inv.begun_of_initializing (hinv : Inv s) {rest : List String} {m : Nat}
    (h : s.threads t = .initializing rest m) : s.begun = true := by
  by_contra hno
  exact (hinv.unbegun (Bool.eq_false_iff.mpr hno)).2 t rest m h

theorem Inv.begun_of_hooked (hinv : Inv s) (h : s.hooked = true) : s.begun = true := by
  by_contra hno
  rw [(hinv.unbegun (Bool.eq_false_iff.mpr hno)).1] at h
  cases h

theorem Inv.hooked_of_main (hinv : Inv s) (h : s.main ≠ []) : s.hooked = true := by
  by_contra hno
  exact h (hinv.unhooked (Bool.eq_false_iff.mpr hno)).1

theorem main_ne_nil {i : Instr} (hi : i ∈ s.main.flatten) : s.main ≠ [] := by
  intro hnil
  rw [hnil] at hi
  cases hi

/-- A plugin is put into the table before `init` or after the last pass. -/
theorem Inv.put (hinv : Inv s) {key : String} (htimely : s.begun = true → Over s) :
    Inv (put t key s) := by
  have hphase : ∀ t', (t' = t ∧ (AppStart.put t key s).threads t' = .appended s.made) ∨
      (t' ≠ t ∧ (AppStart.put t key s).threads t' = s.threads t') :=
    fun t' => update_phase s.threads t _ t'
  have hno : ∀ {i : Instr}, i ∈ s.main.flatten → i.cb? = none := by
    intro i hi
    cases hcb : i.cb? with
    | none => rfl
    | some cb =>
      have hover := htimely (hinv.begun_of_hooked (hinv.hooked_of_main (main_ne_nil hi)))
      exact absurd hover.2.2 (pending_ne_nil hi hcb)
  refine { hinv with
    loaded_lt := fun q h => Nat.lt_succ_of_lt (hinv.loaded_lt q h)
    callback_lt := fun q cb h => Nat.lt_succ_of_lt (hinv.callback_lt q cb h)
    table_lt := ?_
    skipped_lt := fun q h => Nat.lt_succ_of_lt (hinv.skipped_lt q h)
    owner_lt := ?_
    owner := ?_
    owner_skipped := ?_
    table_inj := ?_
    uncalled := ?_
    calling := ?_
    unbegun := ?_
    frozen := fun h => Or.inl (htimely h)
    initialized := ?_
    loaded := fun h => Or.inl (htimely (hinv.begun_of_hooked h))
    clean := ?_ }
  · intro key' q h
    rcases lookup_insert_eq_some.mp h with ⟨_, rfl⟩ | ⟨_, h⟩
    · exact Nat.lt_succ_self _
    · exact Nat.lt_succ_of_lt (hinv.table_lt key' q h)
  · intro t' q h
    rcases hphase t' with ⟨_, heq⟩ | ⟨_, heq⟩
    · rw [heq] at h
      cases h
      exact Nat.lt_succ_self _
    · rw [heq] at h
      exact Nat.lt_succ_of_lt (hinv.owner_lt t' q h)
  · intro t₁ t₂ q h₁ h₂
    rcases hphase t₁ with ⟨ht₁, heq₁⟩ | ⟨_, heq₁⟩ <;> rcases hphase t₂ with ⟨ht₂, heq₂⟩ | ⟨_, heq₂⟩
    · rw [ht₁, ht₂]
    · rw [heq₁] at h₁
      rw [heq₂] at h₂
      cases h₁
      exact absurd (hinv.owner_lt t₂ _ h₂) (Nat.lt_irrefl _)
    · rw [heq₁] at h₁
      rw [heq₂] at h₂
      cases h₂
      exact absurd (hinv.owner_lt t₁ _ h₁) (Nat.lt_irrefl _)
    · rw [heq₁] at h₁
      rw [heq₂] at h₂
      exact hinv.owner t₁ t₂ q h₁ h₂
  · intro t' q h hq
    rcases hphase t' with ⟨_, heq⟩ | ⟨_, heq⟩
    · rw [heq] at h
      cases h
      exact absurd (hinv.skipped_lt _ hq) (Nat.lt_irrefl _)
    · rw [heq] at h
      exact hinv.owner_skipped t' q h hq
  · intro key₁ key₂ q h₁ h₂
    rcases lookup_insert_eq_some.mp h₁ with ⟨hk₁, rfl⟩ | ⟨_, h₁⟩ <;>
      rcases lookup_insert_eq_some.mp h₂ with ⟨hk₂, hq⟩ | ⟨_, h₂⟩
    · rw [hk₁, hk₂]
    · exact absurd (hinv.table_lt key₂ _ h₂) (Nat.lt_irrefl _)
    · rw [hq] at h₁
      exact absurd (hinv.table_lt key₁ _ h₁) (Nat.lt_irrefl _)
    · exact hinv.table_inj key₁ key₂ q h₁ h₂
  · intro t' q h cb hcb
    rcases hphase t' with ⟨_, heq⟩ | ⟨_, heq⟩
    · rw [heq] at h
      rcases h with h | h <;> cases h
      exact absurd (hinv.callback_lt _ cb hcb) (Nat.lt_irrefl _)
    · rw [heq] at h
      exact hinv.uncalled t' q h cb hcb
  · intro t' q rest h
    rcases hphase t' with ⟨_, heq⟩ | ⟨_, heq⟩
    · rw [heq] at h
      cases h
    · rw [heq] at h
      exact hinv.calling t' q rest h
  · intro h
    refine ⟨(hinv.unbegun h).1, fun t' rest m hinit => ?_⟩
    rcases hphase t' with ⟨_, heq⟩ | ⟨_, heq⟩
    · rw [heq] at hinit
      cases hinit
    · rw [heq] at hinit
      exact (hinv.unbegun h).2 t' rest m hinit
  · intro t' rest m hinit
    left
    rcases hphase t' with ⟨_, heq⟩ | ⟨_, heq⟩
    · rw [heq] at hinit
      cases hinit
    · rw [heq] at hinit
      exact htimely (hinv.begun_of_initializing hinit)
  · intro i hi
    have hnone := hno hi
    cases i with
    | pass cb => cases hnone
    | iterate cb rest m => cases hnone
    | _ => trivial

theorem Inv.skip (hinv : Inv s) (hp : p < s.made) (hfree : ∀ t, (s.threads t).plugin ≠ some p)
    (huncalled : ∀ cb, .callback p cb ∉ s.trace) : Inv { s with skipped := p :: s.skipped } := by
  refine { hinv with
    skipped_lt := ?_
    owner_skipped := ?_
    frozen := fun h => (hinv.frozen h).imp_right fun hall key q hq =>
      List.mem_cons_of_mem _ (hall key q hq)
    clean := ?_
    unflagged := ?_ }
  · intro q hq
    rcases List.mem_cons.mp hq with rfl | hq
    · exact hp
    · exact hinv.skipped_lt q hq
  · intro t q h hq
    rcases List.mem_cons.mp hq with rfl | hq
    · exact hfree t h
    · exact hinv.owner_skipped t q h hq
  · intro i hi
    have hclean := hinv.clean i hi
    cases i with
    | pass cb =>
      intro q hq
      rcases List.mem_cons.mp hq with rfl | hq
      · exact huncalled cb
      · exact hclean q hq
    | iterate cb rest m => exact hclean
    | _ => trivial
  · intro cb hflag q hq
    rcases List.mem_cons.mp hq with rfl | hq
    · exact huncalled cb
    · exact hinv.unflagged cb hflag q hq

theorem Inv.checkApplication (hinv : Inv s) (hphase : s.threads t = .appended p) :
    Inv (checkApplication t p s) := by
  have hown : (s.threads t).plugin = some p := by rw [hphase]; rfl
  have huncalled := hinv.uncalled t p (Or.inl hphase)
  unfold AppStart.checkApplication
  split
  · apply hinv.goto
    · rintro q ⟨⟩
      exact hown
    · rintro q (h | h) <;> cases h
      exact huncalled
    · rintro q rest ⟨⟩
    · rintro rest m ⟨⟩
  · apply (hinv.idle t).skip (hinv.owner_lt t p hown)
    · intro t' h
      dsimp only [State.goto] at h
      rcases update_phase s.threads t .idle t' with ⟨_, heq⟩ | ⟨hne, heq⟩
      · rw [heq] at h
        cases h
      · rw [heq] at h
        exact hne (hinv.owner t' t p h hown)
    · exact huncalled

theorem Inv.load (hinv : Inv s) (hphase : s.threads t = .loading p) (result : Bool) :
    Inv (load t p result s) := by
  have hown : (s.threads t).plugin = some p := by rw [hphase]; rfl
  have huncalled := hinv.uncalled t p (Or.inr hphase)
  unfold AppStart.load
  split
  · apply (hinv.recordLoaded (hinv.owner_lt t p hown)).goto
    · rintro q ⟨⟩
      exact hown
    · rintro q (h | h) <;> cases h
    · rintro q rest ⟨⟩
      refine ⟨List.mem_cons_self, by decide, fun cb _ h => ?_⟩
      rcases List.mem_cons.mp h with h | h
      · cases h
      · exact huncalled cb h
    · rintro rest m ⟨⟩
  · exact hinv.idle t

theorem Inv.callback (hinv : Inv s) {rest : List Callback}
    (hphase : s.threads t = .calling p (cb :: rest)) :
    Inv ((s.goto t (.calling p rest)).record (.callback p cb)) := by
  have hown : (s.threads t).plugin = some p := by rw [hphase]; rfl
  obtain ⟨hloaded, hnodup, hfresh⟩ := hinv.calling t p _ hphase
  obtain ⟨hnot, hrest⟩ := List.nodup_cons.mp hnodup
  have hmoved : Inv (s.goto t (.calling p rest)) := by
    apply hinv.goto
    · rintro q ⟨⟩
      exact hown
    · rintro q (h | h) <;> cases h
    · rintro q rest' ⟨⟩
      exact ⟨hloaded, hrest, fun cb' hcb' => hfresh cb' (List.mem_cons_of_mem _ hcb')⟩
    · rintro rest' m ⟨⟩
  have howner : ((s.goto t (.calling p rest)).threads t).plugin = some p := by
    dsimp only [State.goto]
    rw [Function.update_self]
    rfl
  apply hmoved.recordCallback hloaded (hfresh cb List.mem_cons_self)
  · intro t'
    constructor <;> intro h
    · have ht := hmoved.owner t' t p (by rw [h]; rfl) howner
      rw [ht] at h
      dsimp only [State.goto] at h
      rw [Function.update_self] at h
      cases h
    · have ht := hmoved.owner t' t p (by rw [h]; rfl) howner
      rw [ht] at h
      dsimp only [State.goto] at h
      rw [Function.update_self] at h
      cases h
  · intro t' rest' h
    have ht := hmoved.owner t' t p (by rw [h]; rfl) howner
    rw [ht] at h
    dsimp only [State.goto] at h
    rw [Function.update_self] at h
    cases h
    exact hnot
  · intro hskipped
    exact absurd hskipped (hinv.owner_skipped t p hown)
  · intro rest' m hi key _ hlookup
    have hpending : s.pending ≠ [] := pending_ne_nil hi rfl
    exact hinv.owner_skipped t p hown ((hinv.during hpending).1 key p hlookup)

theorem Inv.init (hinv : Inv s) {order : List String}
    (htimely : Over s ∨ ∀ key p, s.pluginCache.lookup key = some p → p ∈ s.skipped)
    (horder : order.Perm s.pluginCache.keys) :
    Inv { s.goto t (.initializing order s.modCount) with begun := true } := by
  have hbegun : Inv { s with begun := true } :=
    { hinv with unbegun := fun h => (by cases h), frozen := fun _ => htimely }
  apply hbegun.goto
  · rintro q ⟨⟩
  · rintro q (h | h) <;> cases h
  · rintro q rest ⟨⟩
  · rintro rest m ⟨⟩
    refine ⟨rfl, Or.inr fun key q hq => Or.inl ?_⟩
    rw [horder.mem_iff, ← AList.mem_keys, ← AList.lookup_isSome]
    rw [show s.pluginCache.lookup key = some q from hq]
    rfl

theorem Inv.initLoad (hinv : Inv s) {key : String} {rest : List String} {m : Nat} (result : Bool)
    (hphase : s.threads t = .initializing (key :: rest) m)
    (hlookup : s.pluginCache.lookup key = some p) :
    Inv (initLoad t p rest m result s) := by
  unfold AppStart.initLoad
  split
  · apply (hinv.recordLoaded (hinv.table_lt key p hlookup)).goto
    · rintro q ⟨⟩
    · rintro q (h | h) <;> cases h
    · rintro q rest' ⟨⟩
    · rintro rest' m' ⟨⟩
      refine ⟨hinv.begun_of_initializing hphase, (hinv.initialized t _ _ hphase).imp_right ?_⟩
      intro hall key' q hq
      rcases hall key' q hq with hmem | hloaded
      · rcases List.mem_cons.mp hmem with rfl | hmem
        · right
          rw [show s.pluginCache.lookup key' = some q from hq] at hlookup
          cases hlookup
          exact List.mem_cons_self
        · exact Or.inl hmem
      · exact Or.inr (List.mem_cons_of_mem _ hloaded)
  · exact hinv.idle t

theorem Inv.initHook (hinv : Inv s) {m : Nat} (hphase : s.threads t = .initializing [] m) :
    Inv { s.goto t .idle with hooked := true } := by
  have hbegun := hinv.begun_of_initializing hphase
  have hall := hinv.initialized t [] m hphase
  refine { hinv.idle t with unhooked := fun h => (by cases h), unbegun := ?_, loaded := ?_ }
  · intro h
    rw [show s.begun = false from h] at hbegun
    cases hbegun
  · intro _
    exact hall.imp_right fun hl key q hq => (hl key q hq).resolve_left List.not_mem_nil

/-! #### The main thread -/

/-- The state once the main thread has gone on. -/
def State.goOn (main : List (List Instr)) (n c : Bool) (s : State) : State :=
  { s with main := main, isNewApplication := n, isApplicationOnCreateCalled := c }

/-- The main thread goes on: it schedules passes whose flag it has just set, and drops
    instructions. -/
theorem Inv.mainStep (hinv : Inv s) (hhooked : s.hooked = true) (new : List Instr)
    {main : List (List Instr)} {old : List Instr} {n c : Bool} (hflat : main.flatten = new ++ old)
    (hsub : old.Sublist s.main.flatten) (hn : s.isNewApplication = true → n = true)
    (hc : s.isApplicationOnCreateCalled = true → c = true)
    (hpass : ∀ i ∈ new, ∀ cb, i.cb? = some cb →
      i = .pass cb ∧ s.flag cb = false ∧ flagOf n c cb = true)
    (hnodup : (new.filterMap Instr.cb?).Nodup) : Inv (s.goOn main n c) := by
  have hmono : ∀ cb, s.flag cb = true → flagOf n c cb = true := by
    intro cb h
    cases cb with
    | beforeNewApplication => exact hn h
    | afterNewApplication => exact hn h
    | beforeApplicationCreate => exact hc h
    | afterApplicationCreate => exact hc h
  have hold : ∀ cb, cb ∈ old.filterMap Instr.cb? → cb ∈ s.pending :=
    fun cb h => (hsub.filterMap Instr.cb?).subset h
  have hnew : ∀ cb, cb ∈ new.filterMap Instr.cb? → s.flag cb = false ∧ flagOf n c cb = true := by
    intro cb h
    obtain ⟨i, hi, hcb⟩ := List.mem_filterMap.mp h
    exact (hpass i hi cb hcb).2
  have hpending : (s.goOn main n c).pending =
      new.filterMap Instr.cb? ++ old.filterMap Instr.cb? := by
    unfold State.pending State.goOn
    dsimp only
    rw [hflat, List.filterMap_append]
  have hover : Over s → Over (s.goOn main n c) := by
    rintro ⟨hflag, hflag', hnil⟩
    refine ⟨hn hflag, hc hflag', ?_⟩
    rw [hpending, List.append_eq_nil_iff]
    constructor
    · rw [List.eq_nil_iff_forall_not_mem]
      intro cb hcb
      have hno := (hnew cb hcb).1
      cases cb with
      | beforeNewApplication => exact absurd hflag (Bool.eq_false_iff.mp hno)
      | afterNewApplication => exact absurd hflag (Bool.eq_false_iff.mp hno)
      | beforeApplicationCreate => exact absurd hflag' (Bool.eq_false_iff.mp hno)
      | afterApplicationCreate => exact absurd hflag' (Bool.eq_false_iff.mp hno)
    · rw [List.eq_nil_iff_forall_not_mem]
      intro cb hcb
      have hmem := hold cb hcb
      rw [hnil] at hmem
      cases hmem
  refine { hinv with
    unhooked := ?_
    frozen := fun h => (hinv.frozen h).imp_left hover
    initialized := fun t rest m h => (hinv.initialized t rest m h).imp_left hover
    loaded := fun h => (hinv.loaded h).imp_left hover
    flagged := ?_
    pending_nodup := ?_
    clean := ?_
    unflagged := ?_ }
  · intro h
    rw [show s.hooked = false from h] at hhooked
    cases hhooked
  · intro cb hcb
    rw [hpending] at hcb
    rcases List.mem_append.mp hcb with hcb | hcb
    · exact (hnew cb hcb).2
    · exact hmono cb (hinv.flagged cb (hold cb hcb))
  · rw [hpending, List.nodup_append']
    refine ⟨hnodup, (hsub.filterMap Instr.cb?).nodup hinv.pending_nodup, ?_⟩
    intro cb hcb hcb'
    have hflag := hinv.flagged cb (hold cb hcb')
    rw [(hnew cb hcb).1] at hflag
    cases hflag
  · intro i hi
    rw [show (s.goOn main n c).main = main from rfl, hflat] at hi
    rcases List.mem_append.mp hi with hi | hi
    · cases hcb : i.cb? with
      | none =>
        cases i with
        | pass cb => cases hcb
        | iterate cb rest m => cases hcb
        | _ => trivial
      | some cb =>
        obtain ⟨rfl, hflag, -⟩ := hpass i hi cb hcb
        exact hinv.unflagged cb hflag
    · have hclean := hinv.clean i (hsub.subset hi)
      cases i <;> exact hclean
  · intro cb hflag
    apply hinv.unflagged cb
    rw [Bool.eq_false_iff]
    intro htrue
    have hset := hmono cb htrue
    rw [show flagOf n c cb = false from hflag] at hset
    cases hset

theorem Inv.shrink (hinv : Inv s) (hmain : s.main ≠ []) {main : List (List Instr)}
    (hsub : main.flatten.Sublist s.main.flatten) : Inv { s with main := main } :=
  hinv.mainStep (hinv.hooked_of_main hmain) [] (n := s.isNewApplication)
    (c := s.isApplicationOnCreateCalled) (List.nil_append _).symm hsub id id
    (fun _ h => absurd h List.not_mem_nil) List.nodup_nil

theorem Inv.enterPlain (hinv : Inv s) (hhooked : s.hooked = true) {i : Instr} (hi : i.cb? = none) :
    Inv { s with main := [i] :: s.main } := by
  have hnone : [i].filterMap Instr.cb? = [] := by simp [hi]
  apply hinv.mainStep hhooked [i] (n := s.isNewApplication) (c := s.isApplicationOnCreateCalled) rfl
    (List.Sublist.refl _) id id
  · intro j hj cb hcb
    rw [List.mem_singleton.mp hj, hi] at hcb
    cases hcb
  · rw [hnone]
    exact List.nodup_nil

theorem Inv.enterNewApplication (hinv : Inv s) (hhooked : s.hooked = true) :
    Inv (enterNewApplication s) := by
  unfold AppStart.enterNewApplication
  split
  · exact hinv.enterPlain hhooked (i := .newApplication) rfl
  · next hflag =>
    rw [Bool.not_eq_true] at hflag
    apply hinv.mainStep hhooked
      [.pass .beforeNewApplication, .newApplication, .pass .afterNewApplication] rfl
      (List.Sublist.refl _) (fun _ => rfl) id
    · intro i hi cb hcb
      simp only [List.mem_cons, List.not_mem_nil, or_false] at hi
      rcases hi with rfl | rfl | rfl <;> cases hcb <;> exact ⟨rfl, hflag, rfl⟩
    · decide

theorem Inv.enterCallApplicationOnCreate (hinv : Inv s) (hhooked : s.hooked = true) :
    Inv (enterCallApplicationOnCreate s) := by
  unfold AppStart.enterCallApplicationOnCreate
  split
  · exact hinv.enterPlain hhooked (i := .callApplicationOnCreate) rfl
  · next hflag =>
    rw [Bool.not_eq_true] at hflag
    apply hinv.mainStep hhooked
      [.pass .beforeApplicationCreate, .callApplicationOnCreate, .pass .afterApplicationCreate]
      rfl (List.Sublist.refl _) id (fun _ => rfl)
    · intro i hi cb hcb
      simp only [List.mem_cons, List.not_mem_nil, or_false] at hi
      rcases hi with rfl | rfl | rfl <;> cases hcb <;> exact ⟨rfl, hflag, rfl⟩
    · decide

theorem Inv.enterHandler (hinv : Inv s) (hhooked : s.hooked = true) : Inv (enterHandler s) := by
  unfold AppStart.enterHandler
  split
  · exact hinv.enterPlain hhooked (i := .handlerCreatePart) rfl
  · next hflag =>
    rw [Bool.not_eq_true] at hflag
    split
    · apply hinv.mainStep hhooked
        [.pass .beforeNewApplication, .pass .afterNewApplication, .handlerCreatePart] rfl
        (List.Sublist.refl _) (fun _ => rfl) id
      · intro i hi cb hcb
        simp only [List.mem_cons, List.not_mem_nil, or_false] at hi
        rcases hi with rfl | rfl | rfl <;> cases hcb <;> exact ⟨rfl, hflag, rfl⟩
      · decide
    · exact hinv.mainStep hhooked [] rfl (List.Sublist.refl _) (fun _ => rfl) id
        (fun _ h => absurd h List.not_mem_nil) List.nodup_nil

theorem Inv.handlerCreatePart (hinv : Inv s) {frame : List Instr} {frames : List (List Instr)}
    (hmain : s.main = (.handlerCreatePart :: frame) :: frames) :
    Inv (handlerCreatePart frame frames s) := by
  have hne : s.main ≠ [] := by rw [hmain]; exact List.cons_ne_nil _ _
  have hsub : (frame :: frames).flatten.Sublist s.main.flatten := by
    rw [hmain]
    exact List.sublist_cons_self _ _
  unfold AppStart.handlerCreatePart
  split
  · exact hinv.shrink hne hsub
  · next hflag =>
    rw [Bool.not_eq_true] at hflag
    apply hinv.mainStep (hinv.hooked_of_main hne)
      [.pass .beforeApplicationCreate, .pass .afterApplicationCreate] rfl hsub id (fun _ => rfl)
    · intro i hi cb hcb
      simp only [List.mem_cons, List.not_mem_nil, or_false] at hi
      rcases hi with rfl | rfl <;> cases hcb <;> exact ⟨rfl, hflag, rfl⟩
    · decide

/-- An instruction of a pass is replaced by one of the same pass. -/
theorem Inv.replace (hinv : Inv s) (i' : Instr) {i : Instr} {frame : List Instr}
    {frames : List (List Instr)}
    (hmain : s.main = (i :: frame) :: frames) (hcb : i'.cb? = i.cb?) (hclean : Clean s i') :
    Inv { s with main := (i' :: frame) :: frames } := by
  have hpending : State.pending { s with main := (i' :: frame) :: frames } = s.pending := by
    unfold State.pending
    rw [hmain]
    simp [List.filterMap_cons, hcb]
  have hover : Over s → Over { s with main := (i' :: frame) :: frames } :=
    fun h => ⟨h.1, h.2.1, hpending.trans h.2.2⟩
  refine { hinv with
    unhooked := ?_
    frozen := fun h => (hinv.frozen h).imp_left hover
    initialized := fun t rest m h => (hinv.initialized t rest m h).imp_left hover
    loaded := fun h => (hinv.loaded h).imp_left hover
    flagged := ?_
    pending_nodup := ?_
    clean := ?_ }
  · intro h
    have hnil := (hinv.unhooked h).1
    rw [hmain] at hnil
    cases hnil
  · intro cb h
    rw [hpending] at h
    exact hinv.flagged cb h
  · rw [hpending]
    exact hinv.pending_nodup
  · intro j hj
    rcases List.mem_cons.mp hj with rfl | hj
    · cases j <;> exact hclean
    · have hold := hinv.clean j (by rw [hmain]; exact List.mem_cons_of_mem _ hj)
      cases j <;> exact hold

theorem Inv.startPass (hinv : Inv s) {order : List String} {frame : List Instr}
    {frames : List (List Instr)} (hmain : s.main = (.pass cb :: frame) :: frames)
    (horder : order.Perm s.pluginCache.keys) :
    Inv { s with main := (.iterate cb order s.modCount :: frame) :: frames } := by
  have hmem : .pass cb ∈ s.main.flatten := by rw [hmain]; exact List.mem_cons_self
  have hclean : ∀ p ∈ s.skipped, .callback p cb ∉ s.trace := hinv.clean _ hmem
  apply hinv.replace (.iterate cb order s.modCount) hmain rfl
  refine ⟨horder.nodup_iff.mpr s.pluginCache.keys_nodup, fun key _ p hlookup => ?_⟩
  exact hclean p ((hinv.during (pending_ne_nil hmem rfl)).1 key p hlookup)

/-- A pass delivers its callback to the plugin it has come to. -/
theorem Inv.deliver (hinv : Inv s) {key : String} {rest : List String} {m : Nat}
    {frame : List Instr} {frames : List (List Instr)}
    (hmain : s.main = (.iterate cb (key :: rest) m :: frame) :: frames)
    (hlookup : s.pluginCache.lookup key = some p) :
    Inv ({ s with main := (.iterate cb rest m :: frame) :: frames }.record (.callback p cb)) := by
  have hmem : .iterate cb (key :: rest) m ∈ s.main.flatten := by
    rw [hmain]
    exact List.mem_cons_self
  obtain ⟨hnodup, hfresh⟩ := hinv.clean _ hmem
  obtain ⟨hnot, hrest⟩ := List.nodup_cons.mp hnodup
  obtain ⟨hskipped, hloaded⟩ := hinv.during (pending_ne_nil hmem rfl)
  have hp := hskipped key p hlookup
  have hmoved : Inv { s with main := (.iterate cb rest m :: frame) :: frames } :=
    hinv.replace _ hmain rfl ⟨hrest, fun key' hkey' => hfresh key' (List.mem_cons_of_mem _ hkey')⟩
  -- no other instruction delivers the same callback
  have hother : ∀ j, j ∈ frame ++ frames.flatten → j.cb? ≠ some cb := by
    intro j hj hcb
    have hnd := hinv.pending_nodup
    rw [State.pending, hmain] at hnd
    exact (List.nodup_cons.mp hnd).1 (List.mem_filterMap.mpr ⟨j, hj, hcb⟩)
  have hcalled : s.flag cb = true :=
    hinv.flagged cb (List.mem_filterMap.mpr ⟨_, hmem, rfl⟩)
  apply hmoved.recordCallback (hloaded key p hlookup) (hfresh key List.mem_cons_self p hlookup)
  · intro t
    constructor <;> intro h
    · exact hinv.owner_skipped t p (by rw [show s.threads t = _ from h]; rfl) hp
    · exact hinv.owner_skipped t p (by rw [show s.threads t = _ from h]; rfl) hp
  · intro t rest' h
    exact absurd hp (hinv.owner_skipped t p (by rw [show s.threads t = _ from h]; rfl))
  · intro _
    refine ⟨hcalled, fun i hi heq => ?_⟩
    rw [heq] at hi
    rcases List.mem_cons.mp hi with h | h
    · cases h
    · exact hother _ h rfl
  · intro rest' m' hi key' hkey' hlookup'
    rcases List.mem_cons.mp hi with h | h
    · cases h
      exact hnot (hinv.table_inj key' key p hlookup' hlookup ▸ hkey')
    · exact hother _ h rfl

/-! #### All steps -/

/-- **What a thread can do.** -/
theorem stepThread_inv {op : Op} {s' : State} (hinv : Inv s) (htimely : Timely s op)
    (h : stepThread s t (s.threads t) op = some s') : Inv s' := by
  unfold stepThread at h
  split at h
  · next t' key hphase =>
    cases h
    unfold AppStart.appendPlugin
    split
    · exact hinv
    · exact hinv.release rfl fun _ _ h => by cases h
  · next key t' hphase => cases h; exact hinv.put htimely
  · next p t' hphase => cases h; exact hinv.checkApplication hphase
  · next p t' result hphase => cases h; exact hinv.load hphase result
  · next p cb rest t' hphase => cases h; exact hinv.callback hphase
  · next t' order hphase =>
    split at h
    · next horder => cases h; exact hinv.init htimely horder
    · cases h
  · next key rest m t' result hphase =>
    split at h
    · obtain ⟨p, hlookup, rfl⟩ := Option.map_eq_some_iff.mp h
      exact hinv.initLoad result hphase hlookup
    · cases h
  · next m t' hphase => cases h; exact hinv.initHook hphase
  · cases h; exact hinv.idle t
  · cases h; exact hinv.idle t
  · cases h; exact hinv.idle t
  · cases h

/-- **What the main thread can do in a frame.** -/
theorem stepMain_inv {op : Op} {s' : State} (hinv : Inv s) (h : stepMain s s.main op = some s') :
    Inv s' := by
  have hne : ∀ {frame frames}, s.main = frame :: frames → s.main ≠ [] := by
    intro frame frames hmain hnil
    rw [hnil] at hmain
    cases hmain
  have htail : ∀ {i frame frames}, s.main = (i :: frame) :: frames →
      (frame :: frames).flatten.Sublist s.main.flatten := by
    intro i frame frames hmain
    rw [hmain]
    exact List.sublist_cons_self _ _
  unfold stepMain at h
  split at h
  · next cb frame frames order hmain =>
    split at h
    · next horder => cases h; exact hinv.startPass hmain horder
    · cases h
  · next cb key rest m frame frames hmain =>
    split at h
    · obtain ⟨p, hlookup, rfl⟩ := Option.map_eq_some_iff.mp h
      exact hinv.deliver hmain hlookup
    · cases h
  · next hmain => cases h; exact hinv.shrink (hne hmain) (htail hmain)
  · next hmain =>
    cases h
    have hrest := hinv.shrink (hne hmain) (htail hmain)
    exact { hrest with }
  · next hmain => cases h; exact hinv.shrink (hne hmain) (htail hmain)
  · next hmain => cases h; exact hinv.handlerCreatePart hmain
  · next frame frames hmain =>
    cases h
    apply hinv.shrink (hne hmain)
    rw [hmain]
    exact List.sublist_append_right _ _
  · cases h

theorem step_inv {op : Op} {s' : State} (hinv : Inv s) (htimely : Timely s op)
    (h : step s op = some s') : Inv s' := by
  cases op with
  | appendPlugin t key => exact stepThread_inv hinv htimely h
  | put t => exact stepThread_inv hinv htimely h
  | checkApplication t => exact stepThread_inv hinv htimely h
  | load t result => exact stepThread_inv hinv htimely h
  | callback t => exact stepThread_inv hinv htimely h
  | init t order => exact stepThread_inv hinv htimely h
  | initLoad t result => exact stepThread_inv hinv htimely h
  | initHook t => exact stepThread_inv hinv htimely h
  | finish t => exact stepThread_inv hinv htimely h
  | newInstrumentation alreadyHooked =>
    simp only [step] at h
    split at h
    · next hhooked =>
      cases h
      split
      · refine { hinv with unhooked := fun hno => ?_ }
        rw [show s.hooked = false from hno] at hhooked
        cases hhooked
      · exact hinv
    · cases h
  | enterNewApplication =>
    simp only [step] at h
    split at h
    · next hhooked => cases h; exact hinv.enterNewApplication hhooked
    · cases h
  | enterCallApplicationOnCreate =>
    simp only [step] at h
    split at h
    · next hhooked => cases h; exact hinv.enterCallApplicationOnCreate hhooked
    · cases h
  | enterHandler =>
    simp only [step] at h
    split at h
    · next hposted =>
      cases h
      have hhooked : s.hooked = true := by
        by_contra hno
        rw [(hinv.unhooked (Bool.eq_false_iff.mpr hno)).2.2.2] at hposted
        exact absurd hposted (Nat.lt_irrefl 0)
      have htaken : Inv { s with posted := s.posted - 1 } := by
        refine { hinv with unhooked := fun hno => ?_ }
        rw [show s.hooked = false from hno] at hhooked
        cases hhooked
      exact htaken.enterHandler hhooked
    · cases h
  | applicationCreated =>
    cases h
    exact { hinv with }
  | applicationSet =>
    simp only [step] at h
    split at h
    · cases h
      exact { hinv with }
    · cases h
  | startPass order => exact stepMain_inv hinv h
  | deliver => exact stepMain_inv hinv h
  | next => exact stepMain_inv hinv h
  | leave => exact stepMain_inv hinv h

end Parts

/-- **Every plugin receives each callback at most once, and none before its load has returned
    true**, in every run in which plugins are put into the table, and `init` is called, at the
    right time. -/
theorem callbacks_proper {ops : List Op}
    (h : ∀ s op s', Takes step State.start ops s op s' → Timely s op) :
    ∀ s op s', Takes step State.start ops s op s' → Proper s'.trace := by
  intro s op s' ht
  have hinv : Inv s := ht.before inv_start fun a k b hab ha => step_inv ha (h a k b hab) hab.one
  exact (step_inv hinv (h s op s' ht) ht.one).proper

/-- A plugin appended before `init`, which loads it, and the pass that calls it first. -/
def launched : List Op :=
  [.appendPlugin 0 "a", .put 0, .checkApplication 0, .init 0 ["a"], .initLoad 0 true, .initHook 0,
    .enterNewApplication, .startPass ["a"], .deliver]

theorem callbacks_proper_launched :
    (run step State.start launched).map State.trace =
        some [.callback 0 .beforeNewApplication, .loaded 0] ∧
      ∀ s op s', Takes step State.start launched s op s' → Proper s'.trace := by
  refine ⟨by decide +kernel, callbacks_proper ?_⟩
  refine (forall_takes_cons (Q := Timely)).mpr fun s₁ h₁ => ⟨trivial, ?_⟩
  refine forall_takes_cons.mpr fun s₂ h₂ => ⟨fun h => ?_, ?_⟩
  · cases h₁
    cases h
  refine forall_takes_cons.mpr fun s₃ h₃ => ⟨trivial, ?_⟩
  refine forall_takes_cons.mpr fun s₄ h₄ => ⟨Or.inr fun key p hlookup => ?_, ?_⟩
  · cases h₁
    cases h₂
    cases h₃
    have hinserted : ((∅ : Dict String Nat).insert "a" 0).lookup key = some p := hlookup
    show p ∈ [0]
    rcases lookup_insert_eq_some.mp hinserted with ⟨-, rfl⟩ | ⟨-, hempty⟩
    · exact List.mem_singleton_self 0
    · cases hempty
  refine forall_takes_cons.mpr fun s₅ _ => ⟨trivial, ?_⟩
  refine forall_takes_cons.mpr fun s₆ _ => ⟨trivial, ?_⟩
  refine forall_takes_cons.mpr fun s₇ _ => ⟨trivial, ?_⟩
  refine forall_takes_cons.mpr fun s₈ _ => ⟨trivial, ?_⟩
  refine forall_takes_cons.mpr fun s₉ _ => ⟨trivial, ?_⟩
  exact fun _ _ _ ht => absurd ht not_takes_nil

/-- The run of the source's own start: a second plugin is appended once the hooks are there
    and before there is an application. -/
def appendedLate : List Op :=
  [.appendPlugin 0 "a", .put 0, .checkApplication 0, .init 0 ["a"], .initLoad 0 true, .initHook 0,
    .appendPlugin 1 "b", .put 1, .checkApplication 1, .enterNewApplication, .startPass ["a", "b"],
    .deliver, .deliver]

/-- It is called without having been loaded. -/
theorem unloaded_called : (run step State.start appendedLate).map State.trace =
      some [.callback 1 .beforeNewApplication, .callback 0 .beforeNewApplication, .loaded 0] ∧
    ¬ Proper [.callback 1 .beforeNewApplication, .callback 0 .beforeNewApplication, .loaded 0] := by
  decide +kernel

end Albatross.AppStart
