/-
  Albatross/Separated.lean
  ========================
  **Texts made of items, each behind a separator.**

  A text is cut at every occurrence of a separator `sep`: what stands before the
  first one is `leading sep t`, and what follows each of them is an item.  Searching
  for `sep :: q`, where `q` has no separator, is then a question about the items
  (`infix_iff`), and deleting every `sep :: p` acts item by item: an item that `p`
  begins gives way, and what is left of it joins the text before it
  (`items_delete`).

  Where only one separator matters, `append_sep_inj` cuts a text at its last one and
  `prefix_sep` says how a beginning lies to a cut.
-/
import Mathlib.Data.List.Infix
import Mathlib.Data.List.TakeWhile

namespace Albatross.Separated

variable {α : Type} [DecidableEq α]

def leading (sep : α) (t : List α) : List α := t.takeWhile fun c => decide (c ≠ sep)

def items (sep : α) : List α → List (List α)
  | [] => []
  | c :: t => if c = sep then leading sep t :: items sep t else items sep t

/-- Deletes the occurrences of `a :: p` from left to right, each search going on
    behind the last hit; `skip` more characters belong to the hit just found. -/
def delete (a : α) (p : List α) : Nat → List α → List α
  | _, [] => []
  | skip + 1, _ :: t => delete a p skip t
  | 0, c :: t => if (a :: p) <+: c :: t then delete a p p.length t else c :: delete a p 0 t

/-! ### Cutting -/

section Cut

variable {sep : α}

@[simp] theorem leading_nil : leading sep [] = [] := rfl

@[simp] theorem leading_sep (t : List α) : leading sep (sep :: t) = [] := by
  simp [leading]

theorem leading_cons {c : α} (hc : c ≠ sep) (t : List α) :
    leading sep (c :: t) = c :: leading sep t := by
  simp [leading, hc]

@[simp] theorem items_nil : items sep [] = [] := rfl

@[simp] theorem items_sep (t : List α) : items sep (sep :: t) = leading sep t :: items sep t := by
  simp [items]

theorem items_cons {c : α} (hc : c ≠ sep) (t : List α) : items sep (c :: t) = items sep t := by
  simp [items, hc]

theorem not_mem_leading (t : List α) : sep ∉ leading sep t := by
  intro h
  simpa using List.mem_takeWhile_imp h

theorem not_mem_items {t x : List α} (hx : x ∈ items sep t) : sep ∉ x := by
  induction t with
  | nil => cases hx
  | cons c t ih =>
    by_cases hc : c = sep
    · subst hc
      rw [items_sep] at hx
      rcases List.mem_cons.mp hx with rfl | hx
      · exact not_mem_leading t
      · exact ih hx
    · rw [items_cons hc] at hx
      exact ih hx

/-- A text without separators in front belongs to what stands before the first one. -/
theorem leading_append {h : List α} (hh : sep ∉ h) (t : List α) :
    leading sep (h ++ t) = h ++ leading sep t := by
  induction h with
  | nil => rfl
  | cons c h ih =>
    rw [List.mem_cons, not_or] at hh
    rw [List.cons_append, leading_cons (Ne.symm hh.1), ih hh.2, List.cons_append]

theorem items_append {h : List α} (hh : sep ∉ h) (t : List α) :
    items sep (h ++ t) = items sep t := by
  induction h with
  | nil => rfl
  | cons c h ih =>
    rw [List.mem_cons, not_or] at hh
    rw [List.cons_append, items_cons (Ne.symm hh.1), ih hh.2]

/-- **The cut loses nothing.** -/
theorem leading_append_items (sep : α) (t : List α) :
    leading sep t ++ (items sep t).flatMap (sep :: ·) = t := by
  induction t with
  | nil => rfl
  | cons c t ih =>
    by_cases hc : c = sep
    · subst hc
      rw [leading_sep, items_sep, List.flatMap_cons, List.nil_append, List.cons_append, ih]
    · rw [leading_cons hc, items_cons hc, List.cons_append, ih]

theorem leading_append_item (x t : List α) : leading sep (t ++ sep :: x) = leading sep t := by
  induction t with
  | nil => simp
  | cons c t ih =>
    by_cases hc : c = sep
    · subst hc
      simp
    · rw [List.cons_append, leading_cons hc, leading_cons hc, ih]

theorem items_append_item {x : List α} (hx : sep ∉ x) (t : List α) :
    items sep (t ++ sep :: x) = items sep t ++ [x] := by
  have hlast : leading sep x = x := by
    have h := leading_append hx []
    rwa [List.append_nil, leading_nil, List.append_nil] at h
  have hno : items sep x = [] := by
    have h := items_append hx []
    rwa [List.append_nil] at h
  induction t with
  | nil => rw [List.nil_append, items_sep, hlast, hno]; rfl
  | cons c t ih =>
    by_cases hc : c = sep
    · subst hc
      rw [List.cons_append, items_sep, items_sep, ih, leading_append_item, List.cons_append]
    · rw [List.cons_append, items_cons hc, items_cons hc, ih]

end Cut

/-! ### Searching -/

section Search

variable {sep : α} {q : List α}

theorem prefix_iff_leading (hq : sep ∉ q) (t : List α) : q <+: t ↔ q <+: leading sep t := by
  constructor
  · rintro ⟨rest, rfl⟩
    rw [leading_append hq]
    exact List.prefix_append q _
  · intro h
    rw [← leading_append_items sep t]
    exact h.trans (List.prefix_append _ _)

/-- **The text contains `sep :: q` when `q` begins one of the items.** -/
theorem infix_iff (hq : sep ∉ q) (t : List α) :
    (sep :: q) <:+: t ↔ ∃ x ∈ items sep t, q <+: x := by
  induction t with
  | nil => simp
  | cons c t ih =>
    rw [List.infix_cons_iff, ih]
    by_cases hc : c = sep
    · subst hc
      rw [items_sep, List.cons_prefix_cons, prefix_iff_leading hq t]
      simp
    · rw [items_cons hc, List.cons_prefix_cons]
      simp [Ne.symm hc]

end Search

/-! ### Deleting -/

/-- What is left of the items at the front that `p` begins. -/
def leftover (p : List α) (xs : List (List α)) : List α :=
  (xs.takeWhile fun x => decide (p <+: x)).flatMap (·.drop p.length)

/-- The items that `p` does not begin, each with what is left of those behind it. -/
def kept (p : List α) : List (List α) → List (List α)
  | [] => []
  | x :: xs => if p <+: x then kept p xs else (x ++ leftover p xs) :: kept p xs

section Delete

variable {sep : α} {p : List α}

@[simp] theorem delete_nil (a : α) (skip : Nat) : delete a p skip [] = [] := by
  cases skip <;> rfl

theorem delete_skip (a : α) (s t : List α) : delete a p s.length (s ++ t) = delete a p 0 t := by
  induction s with
  | nil => rfl
  | cons c s ih => exact ih

theorem delete_append {h : List α} (hh : sep ∉ h) (t : List α) :
    delete sep p 0 (h ++ t) = h ++ delete sep p 0 t := by
  induction h with
  | nil => rfl
  | cons c h ih =>
    rw [List.mem_cons, not_or] at hh
    have hmiss : ¬ (sep :: p) <+: c :: (h ++ t) := fun hp => hh.1 (List.cons_prefix_cons.mp hp).1
    rw [List.cons_append, delete, if_neg hmiss, ih hh.2, List.cons_append]

/-- One item: `p` is taken off its front, or it stays with its separator. -/
def deleteItem (sep : α) (p x : List α) : List α :=
  if p <+: x then x.drop p.length else sep :: x

theorem delete_item (hp : sep ∉ p) {x : List α} (hx : sep ∉ x) {xs : List (List α)} :
    delete sep p 0 (sep :: (x ++ xs.flatMap (sep :: ·))) =
      deleteItem sep p x ++ delete sep p 0 (xs.flatMap (sep :: ·)) := by
  have hbegins : (sep :: p) <+: sep :: (x ++ xs.flatMap (sep :: ·)) ↔ p <+: x := by
    rw [List.cons_prefix_cons, prefix_iff_leading hp, leading_append hx]
    have hstop : leading sep (xs.flatMap (sep :: ·)) = [] := by
      cases xs with
      | nil => rfl
      | cons y ys => simp
    rw [hstop, List.append_nil]
    exact and_iff_right rfl
  rw [delete, deleteItem]
  by_cases h : p <+: x
  · rw [if_pos (hbegins.mpr h), if_pos h]
    obtain ⟨rest, rfl⟩ := h
    have hrest : sep ∉ rest := fun hmem => hx (List.mem_append_right p hmem)
    rw [List.append_assoc, delete_skip, delete_append hrest, List.drop_left]
  · rw [if_neg (fun hp' => h (hbegins.mp hp')), if_neg h, delete_append hx, List.cons_append]

theorem delete_items (hp : sep ∉ p) {xs : List (List α)} (hxs : ∀ x ∈ xs, sep ∉ x) :
    delete sep p 0 (xs.flatMap (sep :: ·)) = xs.flatMap (deleteItem sep p) := by
  induction xs with
  | nil => simp
  | cons x xs ih =>
    rw [List.flatMap_cons, List.cons_append, delete_item hp (hxs x List.mem_cons_self),
      ih (fun y hy => hxs y (List.mem_cons_of_mem x hy)), List.flatMap_cons]

theorem leftover_cons_of_begins {x : List α} (h : p <+: x) (xs : List (List α)) :
    leftover p (x :: xs) = x.drop p.length ++ leftover p xs := by
  simp [leftover, h]

theorem leftover_cons_of_not {x : List α} (h : ¬ p <+: x) (xs : List (List α)) :
    leftover p (x :: xs) = [] := by
  simp [leftover, h]

/-- The cut of what the deletion leaves of a list of items. -/
theorem cut_deleteItems {xs : List (List α)} (hxs : ∀ x ∈ xs, sep ∉ x) :
    leading sep (xs.flatMap (deleteItem sep p)) = leftover p xs ∧
      items sep (xs.flatMap (deleteItem sep p)) = kept p xs := by
  induction xs with
  | nil => exact ⟨rfl, rfl⟩
  | cons x xs ih =>
    obtain ⟨hlead, hitems⟩ := ih (fun y hy => hxs y (List.mem_cons_of_mem x hy))
    have hx := hxs x List.mem_cons_self
    rw [List.flatMap_cons, kept, deleteItem]
    by_cases h : p <+: x
    · have hdrop : sep ∉ x.drop p.length := fun hmem => hx (List.mem_of_mem_drop hmem)
      rw [if_pos h, if_pos h, leading_append hdrop, items_append hdrop, leftover_cons_of_begins h,
        hlead, hitems]
      exact ⟨rfl, rfl⟩
    · rw [if_neg h, if_neg h, List.cons_append, leading_sep, items_sep, leading_append hx,
        items_append hx, leftover_cons_of_not h, hlead, hitems]
      exact ⟨rfl, rfl⟩

/-- **Deleting every `sep :: p` acts on the items alone.** -/
theorem items_delete (hp : sep ∉ p) (t : List α) :
    items sep (delete sep p 0 t) = kept p (items sep t) := by
  have hcut := fun x (hx : x ∈ items sep t) => not_mem_items hx
  conv_lhs => rw [← leading_append_items sep t]
  rw [delete_append (not_mem_leading t), items_append (not_mem_leading t), delete_items hp hcut,
    (cut_deleteItems hcut).2]

/-! ### What is spelled by what is left -/

/-- The items at the front that `p` begins, by what follows `p` in them. -/
theorem exists_rests (p : List α) (xs : List (List α)) :
    ∃ rests after : List (List α), xs = rests.map (p ++ ·) ++ after ∧ leftover p xs = rests.flatten := by
  induction xs with
  | nil => exact ⟨[], [], rfl, rfl⟩
  | cons x xs ih =>
    by_cases h : p <+: x
    · obtain ⟨rest, rfl⟩ := h
      obtain ⟨rests, after, hxs, hleft⟩ := ih
      refine ⟨rest :: rests, after, by rw [hxs]; rfl, ?_⟩
      rw [leftover_cons_of_begins (List.prefix_append p rest), hleft, List.drop_left,
        List.flatten_cons]
    · exact ⟨[], x :: xs, rfl, leftover_cons_of_not h xs⟩

theorem flatten_prefix_leftover (rests after : List (List α)) :
    rests.flatten <+: leftover p (rests.map (p ++ ·) ++ after) := by
  induction rests with
  | nil => exact List.nil_prefix
  | cons rest rests ih =>
    rw [List.map_cons, List.cons_append, leftover_cons_of_begins (List.prefix_append p rest),
      List.drop_left, List.flatten_cons]
    exact (List.prefix_append_right_inj rest).mpr ih

/-- **What begins an item that is kept**: it begins an item that `p` does not begin, joined
    with what follows `p` in items right behind it. -/
theorem exists_kept_iff {w : List α} {xs : List (List α)} :
    (∃ y ∈ kept p xs, w <+: y) ↔ ∃ (before : List (List α)) (x : List α)
      (rests after : List (List α)), xs = before ++ x :: (rests.map (p ++ ·) ++ after) ∧
        ¬ p <+: x ∧ w <+: x ++ rests.flatten := by
  constructor
  · intro h
    induction xs with
    | nil =>
      obtain ⟨y, hy, -⟩ := h
      cases hy
    | cons x xs ih =>
      have hlater : (∃ y ∈ kept p xs, w <+: y) → ∃ (before : List (List α)) (x' : List α)
          (rests after : List (List α)), x :: xs = before ++ x' :: (rests.map (p ++ ·) ++ after) ∧
            ¬ p <+: x' ∧ w <+: x' ++ rests.flatten := by
        intro htail
        obtain ⟨before, x', rests, after, hxs, hrest⟩ := ih htail
        exact ⟨x :: before, x', rests, after, by rw [hxs]; rfl, hrest⟩
      obtain ⟨y, hy, hw⟩ := h
      rw [kept] at hy
      split at hy
      · exact hlater ⟨y, hy, hw⟩
      · next hx =>
        rcases List.mem_cons.mp hy with rfl | hy
        · obtain ⟨rests, after, hxs, hleft⟩ := exists_rests p xs
          exact ⟨[], x, rests, after, by rw [← hxs]; rfl, hx, hleft ▸ hw⟩
        · exact hlater ⟨y, hy, hw⟩
  · rintro ⟨before, x, rests, after, rfl, hx, hw⟩
    induction before with
    | nil =>
      rw [List.nil_append, kept, if_neg hx]
      refine ⟨_, List.mem_cons_self, hw.trans ?_⟩
      exact (List.prefix_append_right_inj x).mpr (flatten_prefix_leftover rests after)
    | cons z before ih =>
      obtain ⟨y, hy, hw⟩ := ih
      rw [List.cons_append, kept]
      split
      · exact ⟨y, hy, hw⟩
      · exact ⟨y, List.mem_cons_of_mem _ hy, hw⟩

/-! ### Items that `p` begins only when they are `p` -/

theorem leftover_eq_nil {xs : List (List α)} (h : ∀ x ∈ xs, p <+: x → x = p) :
    leftover p xs = [] := by
  induction xs with
  | nil => rfl
  | cons x xs ih =>
    by_cases hx : p <+: x
    · rw [leftover_cons_of_begins hx, ih (fun y hy => h y (List.mem_cons_of_mem x hy)),
        h x List.mem_cons_self hx, List.drop_length]
      rfl
    · exact leftover_cons_of_not hx xs

theorem mem_kept_iff {xs : List (List α)} (h : ∀ x ∈ xs, p <+: x → x = p) {y : List α} :
    y ∈ kept p xs ↔ y ∈ xs ∧ y ≠ p := by
  induction xs with
  | nil => simp [kept]
  | cons x xs ih =>
    have htail := fun y hy => h y (List.mem_cons_of_mem x hy)
    rw [kept]
    by_cases hx : p <+: x
    · have hxp := h x List.mem_cons_self hx
      subst hxp
      rw [if_pos hx, ih htail, List.mem_cons]
      constructor
      · intro ⟨hy, hne⟩
        exact ⟨Or.inr hy, hne⟩
      · rintro ⟨rfl | hy, hne⟩
        · exact absurd rfl hne
        · exact ⟨hy, hne⟩
    · have hne : x ≠ p := fun heq => hx (heq ▸ List.prefix_rfl)
      rw [if_neg hx, leftover_eq_nil htail, List.append_nil, List.mem_cons, List.mem_cons, ih htail]
      constructor
      · rintro (rfl | ⟨hy, hyne⟩)
        · exact ⟨Or.inl rfl, hne⟩
        · exact ⟨Or.inr hy, hyne⟩
      · rintro ⟨rfl | hy, hyne⟩
        · exact Or.inl rfl
        · exact Or.inr ⟨hy, hyne⟩

end Delete

/-! ### Cutting at one separator -/

section Once

variable {α : Type} {sep : α}

/-- A text begins a join when it begins the first part, or continues that into the second. -/
theorem prefix_append_iff {w x r : List α} :
    w <+: x ++ r ↔ w <+: x ∨ ∃ t, t ≠ [] ∧ w = x ++ t ∧ t <+: r := by
  constructor
  · rintro ⟨z, hz⟩
    rcases List.append_eq_append_iff.mp hz with ⟨t, hx, -⟩ | ⟨t, hw, hr⟩
    · exact Or.inl ⟨t, hx.symm⟩
    · by_cases ht : t = []
      · rw [ht, List.append_nil] at hw
        exact Or.inl (hw ▸ List.prefix_rfl)
      · exact Or.inr ⟨t, ht, hw, z, hr.symm⟩
  · rintro (h | ⟨t, -, rfl, h⟩)
    · exact h.trans (List.prefix_append x r)
    · exact (List.prefix_append_right_inj x).mpr h

/-- Two texts are cut at the same place by their last separators. -/
theorem append_sep_inj {x y v w : List α} (hv : sep ∉ v) (hw : sep ∉ w)
    (h : x ++ sep :: v = y ++ sep :: w) : x = y ∧ v = w := by
  rcases List.append_eq_append_iff.mp h with ⟨z, hy, hz⟩ | ⟨z, hx, hz⟩
  · cases z with
    | nil =>
      simp only [List.append_nil, List.nil_append, List.cons.injEq, true_and] at hy hz
      exact ⟨hy.symm, hz⟩
    | cons c z =>
      rw [List.cons_append, List.cons.injEq] at hz
      exact absurd (by simp [hz.2]) hv
  · cases z with
    | nil =>
      simp only [List.append_nil, List.nil_append, List.cons.injEq, true_and] at hx hz
      exact ⟨hx, hz.symm⟩
    | cons c z =>
      rw [List.cons_append, List.cons.injEq] at hz
      exact absurd (by simp [hz.2]) hw

/-- A text with a separator behind it begins one that is cut at a separator: it ends before the
    cut, at it or behind it. -/
theorem prefix_sep {x u v : List α} (h : x ++ [sep] <+: u ++ sep :: v) :
    x ++ [sep] <+: u ∨ x = u ∨ ∃ r, x = u ++ sep :: r ∧ r ++ [sep] <+: v := by
  obtain ⟨t, ht⟩ := h
  rcases List.append_eq_append_iff.mp ht with ⟨z, hu, -⟩ | ⟨z, hx, hv⟩
  · exact Or.inl ⟨z, hu.symm⟩
  · cases z with
    | nil =>
      left
      rw [List.append_nil] at hx
      rw [hx]
    | cons c z =>
      rw [List.cons_append, List.cons.injEq] at hv
      obtain ⟨rfl, hv⟩ := hv
      right
      rcases List.eq_nil_or_concat z with rfl | ⟨r, c, rfl⟩
      · exact Or.inl (List.append_inj_left' hx rfl)
      · right
        have hcut : x ++ [sep] = (u ++ sep :: r) ++ [c] := by rw [hx]; simp
        obtain ⟨hx', hc⟩ := List.append_inj' hcut rfl
        rw [List.cons.injEq] at hc
        refine ⟨r, hx', ?_⟩
        rw [hv, hc.1, List.concat_eq_append]
        exact List.prefix_append _ _

end Once

end Albatross.Separated
