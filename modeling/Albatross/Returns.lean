/-
  Albatross/Returns.lean
  ======================
  **When a call returns its own response.**

  * With ids drawn atomically and not reused, unless a response under a greater id
    is outstanding (`returns_own_iff_none_greater`): ids are drawn before the lock
    is taken, so a call with a greater id may write its request first and time out.
  * For one thread, unless a response from an earlier lap of the 16-bit counter is
    outstanding under an id not below (`returns_own_iff_no_earlier_lap`).
  * Without timeouts always, whatever ids are drawn (`returns_own_without_timeouts`).
-/
import Albatross.Matching

namespace Albatross.Returns

open Python Wire Framing Runs Calls Matching

/-! ### The counters that calls have drawn -/

/-- The counter a call has drawn and not yet written a request with. -/
def held : Phase → Option Nat
  | .drawn _ n | .locked _ n => some n
  | _ => none

section Steps

variable {s s' : Client} {l : Label}

theorem held_setPhase {s₁ : Client} {t u n : Nat} {p : Phase}
    (h : held ((s₁.setPhase t p).threads u) = some n) :
    u = t ∧ held p = some n ∨ u ≠ t ∧ held (s₁.threads u) = some n :=
  of_setPhase (held · = some n) h

theorem held_step (hstep : Step s l s') {u n : Nat} (h : held (s'.threads u) = some n) :
    held (s.threads u) = some n ∧ l ≠ .send u ∨
      (n = s.callCounter ∧ s'.callCounter = n + 1 ∧ ∃ m, l = .draw u m) ∨
      ∃ m, l = .write u ∧ s.threads u = .counted m n ∧ s'.callCounter = n + 1 := by
  cases hstep with
  | read _ =>
    rcases held_setPhase h with ⟨_, hp⟩ | ⟨_, hu⟩
    · cases hp
    · exact Or.inl ⟨hu, nofun⟩
  | @write t m k hcounted =>
    rcases held_setPhase h with ⟨rfl, hp⟩ | ⟨_, hu⟩
    · cases hp
      exact Or.inr (Or.inr ⟨m, rfl, hcounted, rfl⟩)
    · exact Or.inl ⟨hu, nofun⟩
  | @draw t m _ =>
    rcases held_setPhase h with ⟨rfl, hp⟩ | ⟨_, hu⟩
    · cases hp
      exact Or.inr (Or.inl ⟨rfl, rfl, m, rfl⟩)
    · exact Or.inl ⟨hu, nofun⟩
  | acquire hdrawn _ _ =>
    rcases held_setPhase h with ⟨rfl, hp⟩ | ⟨_, hu⟩
    · rw [hdrawn]
      exact Or.inl ⟨hp, nofun⟩
    · exact Or.inl ⟨hu, nofun⟩
  | refuse _ | leave _ _ | release _ =>
    rcases of_finished (held · = some n) h with ⟨_, hp⟩ | ⟨_, hu⟩
    · cases hp
    · exact Or.inl ⟨hu, nofun⟩
  | unsent _ _ | sentVoid _ _ _ | sent _ _ _ =>
    rcases held_setPhase h with ⟨_, hp⟩ | ⟨hne, hu⟩
    · cases hp
    · exact Or.inl ⟨hu, fun heq => hne (Label.send.inj heq).symm⟩
  | take _ _ _ | broken _ _ | timeout _ =>
    rcases held_setPhase h with ⟨_, hp⟩ | ⟨_, hu⟩
    · cases hp
    · exact Or.inl ⟨hu, nofun⟩
  | skip _ _ _ | discard _ _ | answer _ _ => exact Or.inl ⟨h, nofun⟩

theorem callCounter_step (hstep : Step s l s') : s'.callCounter = s.callCounter ∨
    (∃ t m, l = .draw t m ∧ s'.callCounter = s.callCounter + 1) ∨
      ∃ t m n, l = .write t ∧ s.threads t = .counted m n ∧ s'.callCounter = n + 1 := by
  cases hstep with
  | @write t m n hcounted => exact Or.inr (Or.inr ⟨t, m, n, rfl, hcounted, rfl⟩)
  | @draw t m _ => exact Or.inr (Or.inl ⟨t, m, rfl, rfl⟩)
  | _ => exact Or.inl rfl

end Steps

/-! ### Ids drawn atomically -/

/-- The counter is never read without being written back in the same step. -/
def Atomic : Label → Prop
  | .read _ _ | .write _ => False
  | _ => True

def isDraw : Label → Bool
  | .draw _ _ => true
  | _ => false

/-- A counter drawn since it stood at `first`. -/
def Since (first : Nat) (s : Client) (n : Nat) : Prop := first ≤ n ∧ n < s.callCounter

structure Fresh (first : Nat) (s : Client) : Prop where
  first_le : first ≤ s.callCounter
  uncounted : ∀ t m n, s.threads t ≠ .counted m n
  since : ∀ t n, held (s.threads t) = some n → Since first s n
  apart : ∀ t u n, held (s.threads t) = some n → held (s.threads u) = some n → t = u
  sent : ∀ x ∈ s.outstanding, Since first s x.counter ∧ ∀ t, held (s.threads t) ≠ some x.counter
  wrote : ∀ r stale, Wrote s r stale → Since first s r.counter ∧
    ∀ x ∈ stale, Since first s x.counter ∧ x.counter ≠ r.counter

section Drawing

variable {s s' : Client} {l : Label} {first : Nat}

theorem counter_atomic (hstep : Step s l s') (hl : Atomic l) :
    s'.callCounter = s.callCounter + if isDraw l then 1 else 0 := by
  rcases callCounter_step hstep with h | ⟨t, m, rfl, h⟩ | ⟨t, m, n, rfl, _⟩
  · cases hstep with
    | write _ => exact False.elim hl
    | draw _ => exact absurd h (Nat.succ_ne_self _)
    | _ => exact h
  · exact h
  · exact False.elim hl

theorem counter_le (hstep : Step s l s') (hl : Atomic l) : s.callCounter ≤ s'.callCounter := by
  rw [counter_atomic hstep hl]
  exact Nat.le_add_right _ _

theorem Since.step (hstep : Step s l s') (hl : Atomic l) {n : Nat} (h : Since first s n) :
    Since first s' n := ⟨h.1, Nat.lt_of_lt_of_le h.2 (counter_le hstep hl)⟩

/-- A counter held after an atomic step was held before, or has just been drawn. -/
theorem held_atomic (hstep : Step s l s') (hl : Atomic l) {u n : Nat}
    (h : held (s'.threads u) = some n) :
    held (s.threads u) = some n ∧ l ≠ .send u ∨
      n = s.callCounter ∧ ∃ m, l = .draw u m := by
  rcases held_step hstep h with h | ⟨hn, _, hdraw⟩ | ⟨m, rfl, _⟩
  · exact Or.inl h
  · exact Or.inr ⟨hn, hdraw⟩
  · exact False.elim hl

theorem uncounted_update (h : ∀ t m n, s.threads t ≠ .counted m n) {u : Nat} {p : Phase}
    (hp : ∀ m n, p ≠ .counted m n) : ∀ t m n, Function.update s.threads u p t ≠ .counted m n := by
  intro t m n
  by_cases heq : t = u
  · rw [heq, Function.update_self]
    exact hp m n
  · rw [Function.update_of_ne heq]
    exact h t m n

theorem uncounted_step (hstep : Step s l s') (hl : Atomic l)
    (h : ∀ t m n, s.threads t ≠ .counted m n) : ∀ t m n, s'.threads t ≠ .counted m n := by
  cases hstep with
  | read _ => exact False.elim hl
  | write _ => exact False.elim hl
  | skip _ _ _ => exact h
  | discard _ _ => exact h
  | answer _ _ => exact h
  | _ => exact uncounted_update h (by rintro _ _ ⟨⟩)

theorem fresh_step (hstep : Step s l s') (hl : Atomic l) (hs : Streams s) (h : Fresh first s) :
    Fresh first s' where
  first_le := Nat.le_trans h.first_le (counter_le hstep hl)
  uncounted := uncounted_step hstep hl h.uncounted
  since := by
    intro t n hn
    rcases held_atomic hstep hl hn with ⟨hold, _⟩ | ⟨rfl, m, rfl⟩
    · exact (h.since t n hold).step hstep hl
    · refine ⟨h.first_le, ?_⟩
      rw [counter_atomic hstep hl]
      exact Nat.lt_succ_self _
  apart := by
    intro t u n ht hu
    rcases held_atomic hstep hl ht with ⟨ht, _⟩ | ⟨rfl, m, rfl⟩
    · rcases held_atomic hstep hl hu with ⟨hu, _⟩ | ⟨rfl, _⟩
      · exact h.apart t u n ht hu
      · exact absurd (h.since t _ ht).2 (Nat.lt_irrefl _)
    · rcases held_atomic hstep hl hu with ⟨hu, _⟩ | ⟨_, m', hdraw⟩
      · exact absurd (h.since u _ hu).2 (Nat.lt_irrefl _)
      · cases hdraw
        rfl
  sent := by
    intro x hx
    rcases mem_outstanding_step hstep hs hx with hold | ⟨t, m, n, rfl, hlocked, rfl⟩
    · obtain ⟨hsince, hfree⟩ := h.sent x hold
      refine ⟨hsince.step hstep hl, fun u hu => ?_⟩
      rcases held_atomic hstep hl hu with ⟨hu, _⟩ | ⟨heq, _⟩
      · exact hfree u hu
      · have hlt := hsince.2
        rw [heq] at hlt
        exact absurd hlt (Nat.lt_irrefl _)
    · -- the request just written: its thread has given the counter up
      have hheld : held (s.threads t) = some n := by rw [hlocked]; rfl
      refine ⟨(h.since t n hheld).step hstep hl, fun u hu => ?_⟩
      rcases held_atomic hstep hl hu with ⟨hu, hne⟩ | ⟨_, m', hdraw⟩
      · rw [h.apart u t n hu hheld] at hne
        exact hne rfl
      · cases hdraw
  wrote := by
    intro r stale hw
    rcases wrote_step hstep hw with hold | ⟨t, m, n, hlocked, rfl, rfl⟩
    · obtain ⟨hsince, hstale⟩ := h.wrote r stale hold
      exact ⟨hsince.step hstep hl, fun x hx => ⟨(hstale x hx).1.step hstep hl, (hstale x hx).2⟩⟩
    · have hheld : held (s.threads t) = some n := by rw [hlocked]; rfl
      refine ⟨(h.since t n hheld).step hstep hl, fun x hx => ?_⟩
      obtain ⟨hsince, hfree⟩ := h.sent x hx
      refine ⟨hsince.step hstep hl, fun heq => hfree t ?_⟩
      rw [hheld, heq]

theorem fresh_start (hs : Connected s) : Fresh s.callCounter s where
  first_le := Nat.le_refl _
  uncounted := by
    intro t m n ht
    rw [hs.threads] at ht
    cases ht
  since := by
    intro t n ht
    rw [hs.threads] at ht
    cases ht
  apart := by
    intro t u n ht
    rw [hs.threads] at ht
    cases ht
  sent := by
    rw [hs.outstanding]
    intro x hx
    cases hx
  wrote := fun r stale hw => absurd hw (hs.not_wrote r stale)

end Drawing

/-- Fewer than 2 ^ 16 counters in a row have different ids. -/
theorem callId_ne {a b first : Nat} (ha : first ≤ a ∧ a < first + 2 ^ 16)
    (hb : first ≤ b ∧ b < first + 2 ^ 16) (hne : a ≠ b) : callId a ≠ callId b := by
  rw [callId_eq, callId_eq]
  omega

/-- **Whose response a call returns when ids are not reused.**  In every
    interleaving of fewer than 2 ^ 16 calls that draw their ids atomically, a call
    returns the response to its own request if and only if no response under a
    greater id was outstanding when it wrote its request. -/
theorem returns_own_iff_none_greater {start s : Client} {labels : List Label}
    (hstart : Connected start) (hatomic : ∀ l ∈ labels, Atomic l)
    (hfew : labels.countP isDraw < 2 ^ 16) (hrun : run step start labels = some s) {e : Ended}
    (he : e ∈ s.log) {r : Request} (hown : e.own = some r) (hvoid : e.call.isVoid = false)
    {v : PyValue} (hret : e.outcome = .ok v) :
    Matched e ↔ ∀ x ∈ e.stale, ¬ r.id < x.id := by
  have hfresh := run_history (I := fun past s => (Inv s ∧ Fresh start.callCounter s) ∧
      s.callCounter = start.callCounter + past.countP isDraw)
    (fun past a l b hl h hstep => by
      obtain ⟨⟨hinv, hfresh⟩, hcount⟩ := h
      have hone := step_cases hstep
      refine ⟨⟨inv_step hone hinv, fresh_step hone (hatomic l hl) hinv.streams hfresh⟩, ?_⟩
      rw [counter_atomic hone (hatomic l hl), hcount, List.countP_append, List.countP_singleton,
        Nat.add_assoc])
    [] ⟨⟨hstart.inv, fresh_start hstart⟩, rfl⟩ hrun
  obtain ⟨⟨hinv, hfresh⟩, hcount⟩ := hfresh
  rw [List.nil_append] at hcount
  have hnear : ∀ n, Since start.callCounter s n →
      start.callCounter ≤ n ∧ n < start.callCounter + 2 ^ 16 := by
    intro n hn
    have hlt := hn.2
    rw [hcount] at hlt
    exact ⟨hn.1, by omega⟩
  obtain ⟨hsince, hstale⟩ := hfresh.wrote r e.stale (Or.inr ⟨e, Or.inl he, hown, rfl⟩)
  rw [matched_iff (hinv.ended e (Or.inl he)) hown hvoid hret]
  refine forall₂_congr fun x hx => ?_
  have hne : x.id ≠ r.id :=
    callId_ne (hnear _ (hstale x hx).1) (hnear _ hsince) (hstale x hx).2
  omega

/-- A method without parameters that returns its response's payload. -/
def ping : Call := ⟨"ping", 4, .ok (.bytes []), .absent, false⟩

def connected (callCounter : Nat) : Client :=
  ⟨callCounter, none, fun _ => .idle, ⟨[], []⟩, [], [], [], 0, []⟩

theorem connected_connected (callCounter : Nat) : Connected (connected callCounter) :=
  ⟨fun _ => rfl, rfl, fun _ ha => absurd ha List.not_mem_nil, rfl, rfl, rfl, rfl⟩

def pong (b : UInt8) : Answer := ⟨0, some [b], by decide, by decide, by simp, by simp⟩

/-- Two calls in the order of their ids; the first times out, and the second skips
    the late response. -/
def inOrder : List Label :=
  [.draw 1 ping, .draw 2 ping, .acquire 1, .send 1, .timeout 1, .release 1, .acquire 2, .send 2,
    .serve (pong 1) [3], .receive 2, .serve (pong 2) [], .receive 2, .release 2]

theorem returns_own_iff_none_greater_two :
    ∃ s e, run step (connected 1) inOrder = some s ∧ e ∈ s.log ∧ e.own = some ⟨1, 2, false⟩ ∧
      e.outcome = .ok (.bytes [2]) ∧
      (Matched e ↔ ∀ x ∈ e.stale, ¬ (⟨1, 2, false⟩ : Request).id < x.id) := by
  have hatomic : ∀ l ∈ inOrder, Atomic l := by
    intro l hl
    simp only [inOrder, List.mem_cons, List.not_mem_nil, or_false] at hl
    rcases hl with rfl | rfl | rfl | rfl | rfl | rfl | rfl | rfl | rfl | rfl | rfl | rfl | rfl <;>
      exact trivial
  refine ⟨_, _, rfl, List.mem_cons_of_mem _ List.mem_cons_self, rfl, rfl, ?_⟩
  exact returns_own_iff_none_greater (connected_connected 1) hatomic (by decide) rfl
    (List.mem_cons_of_mem _ List.mem_cons_self) rfl rfl rfl

/-- The call with the greater id writes its request first and times out. -/
def crossed : List Label :=
  [.draw 1 ping, .draw 2 ping, .acquire 2, .send 2, .timeout 2, .release 2, .acquire 1, .send 1,
    .serve (pong 2) [], .receive 1, .release 1, .serve (pong 1) []]

/-- The other call then returns the late response, whose id is not below its own. -/
theorem returns_the_other_response :
    Connected (connected 1) ∧ (∀ l ∈ crossed, Atomic l) ∧ crossed.countP isDraw < 2 ^ 16 ∧
      ∃ s e, run step (connected 1) crossed = some s ∧ e ∈ s.log ∧ e.call.isVoid = false ∧
        e.own = some ⟨1, 1, false⟩ ∧ e.outcome = .ok (.bytes [2]) ∧ ¬ Matched e := by
  refine ⟨connected_connected 1, ?_, by decide, _, _, rfl,
    List.mem_cons_of_mem _ List.mem_cons_self, rfl, rfl, rfl, ?_⟩
  · intro l hl
    simp only [crossed, List.mem_cons, List.not_mem_nil, or_false] at hl
    rcases hl with rfl | rfl | rfl | rfl | rfl | rfl | rfl | rfl | rfl | rfl | rfl | rfl <;>
      exact trivial
  · rintro ⟨r, x, hown, hreceived, hrequest, _⟩
    cases hown
    cases hreceived
    cases hrequest

/-! ### One thread and the wrap of the ids -/

/-- A step of the thread `t`, or of the server. -/
def By (t : Nat) : Label → Prop
  | .read u _ | .write u | .draw u _ | .refuse u _ | .leave u | .acquire u | .send u | .receive u
  | .timeout u | .release u => u = t
  | .serve _ _ => True

/-- Only the thread `t` calls, so the counters of its requests increase. -/
structure Alone (t : Nat) (s : Client) : Prop where
  others : ∀ u, u ≠ t → s.threads u = .idle
  counted : ∀ m n, s.threads t = .counted m n → n = s.callCounter
  drawn : ∀ n, held (s.threads t) = some n → n < s.callCounter ∧ ∀ x ∈ s.outstanding, x.counter < n
  sent : ∀ x ∈ s.outstanding, x.counter < s.callCounter
  wrote : ∀ r stale, Wrote s r stale → ∀ x ∈ stale, x.counter < r.counter

section Thread

variable {s s' : Client} {l : Label} {t : Nat}

theorem others_step (hstep : Step s l s') (hl : By t l) {u : Nat} (hu : u ≠ t) :
    s'.threads u = s.threads u := by
  have hmoved : ∀ {s₁ : Client} {w : Nat} {p : Phase}, w = t →
      (s₁.setPhase w p).threads u = s₁.threads u := by
    rintro s₁ w p rfl
    exact Function.update_of_ne hu p s₁.threads
  cases hstep with
  | skip _ _ _ | discard _ _ | answer _ _ => rfl
  | refuse _ | leave _ _ | release _ => exact hmoved hl
  | _ => exact hmoved hl

theorem Alone.of_locked (h : Alone t s) {u : Nat} {m : Call} {n : Nat}
    (hlocked : s.threads u = .locked m n) : u = t := by
  by_contra hne
  rw [h.others u hne] at hlocked
  cases hlocked

theorem counter_alone (hstep : Step s l s') (h : Alone t s) :
    s'.callCounter = s.callCounter ∨ s'.callCounter = s.callCounter + 1 := by
  rcases callCounter_step hstep with heq | ⟨_, _, _, heq⟩ | ⟨u, m, n, _, hcounted, heq⟩
  · exact Or.inl heq
  · exact Or.inr heq
  · have hu : u = t := by
      by_contra hne
      rw [h.others u hne] at hcounted
      cases hcounted
    rw [hu] at hcounted
    rw [h.counted m n hcounted] at heq
    exact Or.inr heq

theorem counter_le_alone (hstep : Step s l s') (h : Alone t s) :
    s.callCounter ≤ s'.callCounter := by
  rcases counter_alone hstep h with heq | heq
  · exact Nat.le_of_eq heq.symm
  · rw [heq]
    exact Nat.le_succ _

theorem counted_step (hstep : Step s l s') (hl : By t l) (h : Alone t s) {m : Call} {n : Nat}
    (hcounted : s'.threads t = .counted m n) : n = s'.callCounter := by
  have hmoved : ∀ {s₁ : Client} {u : Nat} {p : Phase}, u = t →
      (s₁.setPhase u p).threads t = .counted m n → p = .counted m n := by
    rintro s₁ u p rfl heq
    rwa [Client.setPhase_self] at heq
  cases hstep with
  | read _ =>
    cases hmoved hl hcounted
    rfl
  | skip _ _ _ | discard _ _ | answer _ _ => exact h.counted m n hcounted
  | refuse _ | leave _ _ | release _ => cases hmoved hl hcounted
  | _ => cases hmoved hl hcounted

theorem alone_step (hstep : Step s l s') (hl : By t l) (hs : Streams s) (h : Alone t s) :
    Alone t s' where
  others := fun u hu => (others_step hstep hl hu).trans (h.others u hu)
  counted := fun _ _ hcounted => counted_step hstep hl h hcounted
  drawn := by
    intro n hn
    have hsame : (∀ u, l ≠ .send u) → ∀ x ∈ s'.outstanding, x ∈ s.outstanding := by
      intro hne x hx
      rcases mem_outstanding_step hstep hs hx with hx | ⟨u, _, _, hsend, _⟩
      · exact hx
      · exact absurd hsend (hne u)
    rcases held_step hstep hn with ⟨hold, hsend⟩ | ⟨rfl, hnext, m, rfl⟩ | ⟨m, rfl, hcounted, hnext⟩
    · obtain ⟨hlt, hsent⟩ := h.drawn n hold
      refine ⟨Nat.lt_of_lt_of_le hlt (counter_le_alone hstep h), fun x hx => ?_⟩
      rcases mem_outstanding_step hstep hs hx with hx | ⟨u, m, k, rfl, hlocked, _⟩
      · exact hsent x hx
      · rw [h.of_locked hlocked] at hsend
        exact absurd rfl hsend
    · refine ⟨by rw [hnext]; exact Nat.lt_succ_self _, fun x hx => ?_⟩
      exact h.sent x (hsame nofun x hx)
    · refine ⟨by rw [hnext]; exact Nat.lt_succ_self _, fun x hx => ?_⟩
      rw [h.counted m n hcounted]
      exact h.sent x (hsame nofun x hx)
  sent := by
    intro x hx
    rcases mem_outstanding_step hstep hs hx with hx | ⟨u, m, n, _, hlocked, rfl⟩
    · exact Nat.lt_of_lt_of_le (h.sent x hx) (counter_le_alone hstep h)
    · have hu := h.of_locked hlocked
      subst hu
      exact Nat.lt_of_lt_of_le (h.drawn n (by rw [hlocked]; rfl)).1 (counter_le_alone hstep h)
  wrote := by
    intro r stale hw
    rcases wrote_step hstep hw with hold | ⟨u, m, n, hlocked, rfl, rfl⟩
    · exact h.wrote r stale hold
    · have hu := h.of_locked hlocked
      subst hu
      exact (h.drawn n (by rw [hlocked]; rfl)).2

theorem alone_start (hs : Connected s) : Alone t s where
  others := fun u _ => hs.threads u
  counted := by
    intro m n ht
    rw [hs.threads] at ht
    cases ht
  drawn := by
    intro n ht
    rw [hs.threads] at ht
    cases ht
  sent := by
    rw [hs.outstanding]
    intro x hx
    cases hx
  wrote := fun r stale hw => absurd hw (hs.not_wrote r stale)

end Thread

/-- **Whose response a single thread's call returns, also after the ids have
    wrapped.**  It is the response to its own request if and only if every response
    outstanding from an earlier lap of the 16-bit counter has a smaller id: within
    a lap ids increase, and what was left behind is skipped. -/
theorem returns_own_iff_no_earlier_lap {start s : Client} {labels : List Label} {t : Nat}
    (hstart : Connected start) (hby : ∀ l ∈ labels, By t l) (hrun : run step start labels = some s)
    {e : Ended} (he : e ∈ s.log) {r : Request} (hown : e.own = some r)
    (hvoid : e.call.isVoid = false) {v : PyValue} (hret : e.outcome = .ok v) :
    Matched e ↔ ∀ x ∈ e.stale, x.counter / 2 ^ 16 < r.counter / 2 ^ 16 → x.id < r.id := by
  have hboth : Inv s ∧ Alone t s := by
    refine run_invariant (I := fun s => Inv s ∧ Alone t s) ?_ ⟨hstart.inv, alone_start hstart⟩ hrun
    rintro a l b hl ⟨hinv, halone⟩ hstep
    have hone := step_cases hstep
    exact ⟨inv_step hone hinv, alone_step hone (hby l hl) hinv.streams halone⟩
  obtain ⟨hinv, halone⟩ := hboth
  have hearlier := halone.wrote r e.stale (Or.inr ⟨e, Or.inl he, hown, rfl⟩)
  rw [matched_iff (hinv.ended e (Or.inl he)) hown hvoid hret]
  refine forall₂_congr fun x hx => ?_
  have hlt := hearlier x hx
  have hx : x.id = x.counter % 2 ^ 16 := callId_eq x.counter
  have hr : r.id = r.counter % 2 ^ 16 := callId_eq r.counter
  omega

/-- Two calls within a lap, the first of which times out. -/
def inLap : List Label :=
  [.draw 1 ping, .acquire 1, .send 1, .timeout 1, .release 1, .draw 1 ping, .acquire 1, .send 1,
    .serve (pong 1) [], .receive 1, .serve (pong 2) [9], .receive 1, .release 1]

theorem returns_own_iff_no_earlier_lap_two :
    ∃ s e, run step (connected 1) inLap = some s ∧ e ∈ s.log ∧ e.own = some ⟨1, 2, false⟩ ∧
      e.outcome = .ok (.bytes [2]) ∧
      (Matched e ↔ ∀ x ∈ e.stale, x.counter / 2 ^ 16 < (⟨1, 2, false⟩ : Request).counter / 2 ^ 16 →
        x.id < (⟨1, 2, false⟩ : Request).id) := by
  have hby : ∀ l ∈ inLap, By 1 l := by
    intro l hl
    simp only [inLap, List.mem_cons, List.not_mem_nil, or_false] at hl
    rcases hl with rfl | rfl | rfl | rfl | rfl | rfl | rfl | rfl | rfl | rfl | rfl | rfl | rfl <;>
      first | rfl | exact trivial
  refine ⟨_, _, rfl, List.mem_cons_of_mem _ List.mem_cons_self, rfl, rfl, ?_⟩
  exact returns_own_iff_no_earlier_lap (connected_connected 1) hby rfl
    (List.mem_cons_of_mem _ List.mem_cons_self) rfl rfl rfl

/-- A call that draws an id and returns without a request. -/
def localCall : Call := ⟨"ping", 4, .ok (.justReturn .none), .absent, false⟩

def localEnd : Ended := ⟨localCall, none, [], none, .returned .none⟩

def localCalls (n : Nat) : List Label := (List.replicate n [.draw 1 localCall, .leave 1]).flatten

theorem run_localCalls (n : Nat) : ∀ s : Client, s.threads 1 = .idle →
    run step s (localCalls n) = some { s with
      callCounter := s.callCounter + n
      log := s.log ++ List.replicate n localEnd } := by
  induction n with
  | zero => intro s _; simp [localCalls]
  | succ n ih =>
    intro s hidle
    have hone : run step s [.draw 1 localCall, .leave 1] =
        some { s with callCounter := s.callCounter + 1, log := s.log ++ [localEnd] } := by
      simp [step, readCounter, writeCounter, leave, hidle, Client.setPhase, Client.finished,
        localCall, localEnd]
    have hrest := ih { s with callCounter := s.callCounter + 1, log := s.log ++ [localEnd] } hidle
    unfold localCalls at hrest ⊢
    have hcount : s.callCounter + 1 + n = s.callCounter + (n + 1) := by omega
    rw [List.replicate_succ, List.flatten_cons, run_append, hone, Option.bind_some, hrest]
    simp [List.replicate_succ, hcount]

/-- The call with the id 65535 times out, and the next one has the id 0. -/
def wrapped : List Label :=
  localCalls 65534 ++
    [.draw 1 ping, .acquire 1, .send 1, .timeout 1, .release 1, .draw 1 ping, .acquire 1, .send 1,
      .serve (pong 1) [], .receive 1, .release 1, .serve (pong 2) []]

/-- Behind the wrap the late response is not skipped. -/
theorem returns_the_earlier_response :
    Connected (connected 1) ∧ (∀ l ∈ wrapped, By 1 l) ∧
      ∃ s e, run step (connected 1) wrapped = some s ∧ e ∈ s.log ∧ e.call.isVoid = false ∧
        e.own = some ⟨1, 65536, false⟩ ∧ e.outcome = .ok (.bytes [1]) ∧ ¬ Matched e := by
  refine ⟨connected_connected 1, ?_, ?_⟩
  · intro l hl
    rcases List.mem_append.mp hl with hl | hl
    · obtain ⟨pair, hpair, hmem⟩ := List.mem_flatten.mp hl
      rw [List.eq_of_mem_replicate hpair] at hmem
      rcases List.mem_cons.mp hmem with rfl | hmem
      · rfl
      · rw [List.mem_singleton.mp hmem]
        rfl
    · simp only [List.mem_cons, List.not_mem_nil, or_false] at hl
      rcases hl with rfl | rfl | rfl | rfl | rfl | rfl | rfl | rfl | rfl | rfl | rfl | rfl <;>
        first | rfl | exact trivial
  · unfold wrapped
    rw [run_append, run_localCalls _ _ rfl, Option.bind_some]
    refine ⟨_, _, rfl, List.mem_append_right _ (List.mem_singleton.mpr rfl), rfl, rfl, rfl, ?_⟩
    rintro ⟨r, x, hown, hreceived, hrequest, _⟩
    cases hown
    cases hreceived
    cases hrequest

/-! ### Runs without timeouts -/

def Untimed : Label → Prop
  | .timeout _ => False
  | _ => True

/-- Nothing is left behind: a response is outstanding only while its call waits. -/
structure Quiet (s : Client) : Prop where
  idle : (∀ t m r stale, s.threads t ≠ .waiting m r stale) → s.outstanding = []
  wrote : ∀ r stale, Wrote s r stale → stale = []
  answered : ∀ e, Ends s e → ∀ r, e.own = some r → ∀ x, e.how ≠ .raised x

section Quietly

variable {s s' : Client} {l : Label}

theorem Quiet.awaits (h : Quiet s) (hinv : Inv s) {t : Nat} {m : Call} {r : Request}
    {stale : List Request} (hwaiting : s.threads t = .waiting m r stale) : s.outstanding = [r] := by
  obtain ⟨_, _, done, rest, hstale, hout, _⟩ := hinv.waiting t m r stale hwaiting
  rw [h.wrote r stale (Or.inl ⟨t, m, hwaiting⟩)] at hstale
  obtain ⟨_, rfl⟩ := List.append_eq_nil_iff.mp hstale.symm
  exact hout

theorem waiting_of_update {t : Nat} {p q : Phase}
    (hnone : ∀ u m r stale, Function.update s.threads t p u ≠ .waiting m r stale)
    (ht : s.threads t = q) (hq : ∀ m r stale, q ≠ .waiting m r stale) :
    ∀ u m r stale, s.threads u ≠ .waiting m r stale := by
  intro u m r stale hu
  by_cases heq : u = t
  · rw [heq, ht] at hu
    exact hq m r stale hu
  · apply hnone u m r stale
    rw [← hu]
    exact Function.update_of_ne heq p s.threads

theorem quiet_idle (hstep : Step s l s') (hl : Untimed l) (hinv : Inv s) (h : Quiet s)
    (hnone : ∀ t m r stale, s'.threads t ≠ .waiting m r stale) : s'.outstanding = [] := by
  cases hstep with
  | read ht => exact h.idle (waiting_of_update hnone ht (by rintro _ _ _ ⟨⟩))
  | write ht => exact h.idle (waiting_of_update hnone ht (by rintro _ _ _ ⟨⟩))
  | draw ht => exact h.idle (waiting_of_update hnone ht (by rintro _ _ _ ⟨⟩))
  | refuse ht => exact h.idle (waiting_of_update hnone ht (by rintro _ _ _ ⟨⟩))
  | leave ht _ => exact h.idle (waiting_of_update hnone ht (by rintro _ _ _ ⟨⟩))
  | acquire ht _ _ => exact h.idle (waiting_of_update hnone ht (by rintro _ _ _ ⟨⟩))
  | unsent ht _ => exact h.idle (waiting_of_update hnone ht (by rintro _ _ _ ⟨⟩))
  | release ht => exact h.idle (waiting_of_update hnone ht (by rintro _ _ _ ⟨⟩))
  | sentVoid ht _ _ =>
    exact (outstanding_sentVoid s _ rfl).trans
      (h.idle (waiting_of_update hnone ht (by rintro _ _ _ ⟨⟩)))
  | sent _ _ _ => exact absurd (Client.setPhase_self _ _ _) (hnone _ _ _ _)
  | skip hwaiting _ _ => exact absurd hwaiting (hnone _ _ _ _)
  | take hwaiting hrecv _ =>
    obtain ⟨x, hunread, _⟩ := hinv.streams.taken hrecv
    have hout := h.awaits hinv hwaiting
    rw [outstanding_taken hunread] at hout
    exact (List.cons.inj hout).2
  | broken _ hrecv => exact absurd hrecv hinv.streams.unbroken
  | timeout _ => exact False.elim hl
  | discard hpending hvoid => exact (outstanding_discard hpending hvoid).trans (h.idle hnone)
  | answer hpending hvoid => exact (outstanding_answer hpending hvoid).trans (h.idle hnone)

theorem answered_step (hstep : Step s l s') (hl : Untimed l) (hs : Streams s) (h : Quiet s) :
    ∀ e, Ends s' e → ∀ r, e.own = some r → ∀ x, e.how ≠ .raised x := by
  intro e he r hown x hraised
  rcases ends_step hstep he with hold | hnew
  · exact h.answered e hold r hown x hraised
  · cases hnew with
    | unwritten => cases hown
    | sent _ _ => cases hraised
    | took _ _ _ => cases hraised
    | broken _ hrecv => exact hs.unbroken hrecv
    | timedOut _ => exact False.elim hl

theorem quiet_step (hstep : Step s l s') (hl : Untimed l) (hinv : Inv s) (h : Quiet s) :
    Quiet s' where
  idle := quiet_idle hstep hl hinv h
  answered := answered_step hstep hl hinv.streams h
  wrote := by
    intro r stale hw
    rcases wrote_step hstep hw with hold | ⟨t, m, n, hlocked, _, rfl⟩
    · exact h.wrote r stale hold
    · -- the writer holds the lock, so nobody waits
      apply h.idle
      intro u m' r' stale' hwaiting
      have hsame := hinv.locked.only (t := t) (u := u) (by rw [hlocked]; exact trivial)
        (by rw [hwaiting]; exact trivial)
      rw [hsame, hlocked] at hwaiting
      cases hwaiting

theorem quiet_start (hs : Connected s) : Quiet s where
  idle := fun _ => hs.outstanding
  wrote := fun r stale hw => absurd hw (hs.not_wrote r stale)
  answered := fun e he => absurd he (hs.not_ends e)

end Quietly

/-- **Without timeouts every call returns its own response**, in every interleaving
    of any number of calls, also when two of them draw the same id; and while nobody
    holds the lock no response is left in the stream, and none is due. -/
theorem returns_own_without_timeouts {start s : Client} {labels : List Label}
    (hstart : Connected start) (huntimed : ∀ l ∈ labels, Untimed l)
    (hrun : run step start labels = some s) :
    (∀ e ∈ s.log, ∀ r, e.own = some r → e.call.isVoid = false → Matched e) ∧
      (s.requestLock = none → bytesOf s.inbox = [] ∧ ∀ r ∈ s.pending, r.void = true) := by
  have hboth : Inv s ∧ Quiet s := by
    refine run_invariant (I := fun s => Inv s ∧ Quiet s) ?_ ⟨hstart.inv, quiet_start hstart⟩ hrun
    rintro a l b hl ⟨hinv, hquiet⟩ hstep
    have hone := step_cases hstep
    exact ⟨inv_step hone hinv, quiet_step hone (huntimed l hl) hinv hquiet⟩
  obtain ⟨hinv, hquiet⟩ := hboth
  constructor
  · intro e he r hown hvoid
    have hstale := hquiet.wrote r e.stale (Or.inr ⟨e, Or.inl he, hown, rfl⟩)
    rcases hinv.ended e (Or.inl he) r hown with ⟨x, hraised⟩ | ⟨hsent, _⟩ |
      ⟨_, x, hreceived, hgot, hiff⟩
    · exact absurd hraised (hquiet.answered e (Or.inl he) r hown x)
    · rw [hvoid] at hsent
      cases hsent
    · have hmine : x.request = r := hiff.mpr (by rw [hstale]; exact nofun)
      refine ⟨r, x, hown, hreceived, hmine, ?_⟩
      unfold Ended.outcome
      rw [hgot]
  · intro hfree
    have hnone : s.outstanding = [] := by
      apply hquiet.idle
      intro t m r stale hwaiting
      have hlock := hinv.locked t (by rw [hwaiting]; exact trivial)
      rw [hfree] at hlock
      cases hlock
    obtain ⟨hunread, hpending⟩ := List.append_eq_nil_iff.mp hnone
    constructor
    · rw [hinv.streams.bytes, List.map_eq_nil_iff.mp hunread]
      rfl
    · intro r hr
      have h := List.filter_eq_nil_iff.mp hpending r hr
      simpa using h

/-- Two calls that draw the same id, one after the other in the stream. -/
def sameId : List Label :=
  [.read 1 ping, .read 2 ping, .write 1, .write 2, .acquire 2, .send 2, .serve (pong 2) [],
    .receive 2, .release 2, .acquire 1, .send 1, .serve (pong 1) [1, 4], .receive 1, .release 1]

theorem returns_own_without_timeouts_same_id :
    ∃ s, run step (connected 1) sameId = some s ∧
      (∀ e ∈ s.log, ∀ r, e.own = some r → e.call.isVoid = false → Matched e) ∧
      (s.requestLock = none → bytesOf s.inbox = [] ∧ ∀ r ∈ s.pending, r.void = true) := by
  have huntimed : ∀ l ∈ sameId, Untimed l := by
    intro l hl
    simp only [sameId, List.mem_cons, List.not_mem_nil, or_false] at hl
    rcases hl with
      rfl | rfl | rfl | rfl | rfl | rfl | rfl | rfl | rfl | rfl | rfl | rfl | rfl | rfl <;>
      exact trivial
  exact ⟨_, rfl, returns_own_without_timeouts (connected_connected 1) huntimed rfl⟩

end Albatross.Returns
