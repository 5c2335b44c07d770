/-
  Albatross/PyLines.lean
  ======================
  **Lines of words.**

  What `splitlines`, `strip` and `split` of Python's `str` make of a text that is a table:
  lines of words, with one space between two words and the end of a line behind each line.
  A word is a text without white space, so a table is read back as it was written
  (`table_read`).
-/
import Albatross.PyText
import Mathlib.Data.List.DropRight

namespace Albatross.PyText

/-- The characters at which `splitlines` cuts. -/
def isLineEnd (c : Char) : Bool :=
  let n := c.toNat
  decide (10 ≤ n ∧ n ≤ 13 ∨ 28 ≤ n ∧ n ≤ 30 ∨ n = 0x85 ∨ n = 0x2028 ∨ n = 0x2029)

/-- The lines of a text, `line` being the reverse of what has been read of the first. -/
def linesFrom (line : Text) : Text → List Text
  | [] => if line = [] then [] else [line.reverse]
  | '\r' :: '\n' :: s => line.reverse :: linesFrom [] s
  | c :: s => if isLineEnd c then line.reverse :: linesFrom [] s else linesFrom (c :: line) s

/-- `s.splitlines()`. -/
def splitlines (s : Text) : List Text := linesFrom [] s

structure Word where
  text : Text
  nonempty : text ≠ []
  plain : ∀ c ∈ text, isSpace c = false

instance : DecidableEq Word := fun v w =>
  decidable_of_iff (v.text = w.text) (by cases v; cases w; simp)

theorem Word.ext {v w : Word} (h : v.text = w.text) : v = w := by
  cases v
  cases w
  cases h
  rfl

/-- A text that begins and ends with something else than white space. -/
structure Trimmed (t : Text) : Prop where
  head : ∃ c s, t = c :: s ∧ isSpace c = false
  last : ∃ s c, t = s ++ [c] ∧ isSpace c = false

section Trimmed

variable {s t : Text}

theorem Word.trimmed (w : Word) : Trimmed w.text := by
  constructor
  · obtain ⟨c, s, hs⟩ := List.exists_cons_of_ne_nil w.nonempty
    exact ⟨c, s, hs, w.plain c (by rw [hs]; exact List.mem_cons_self)⟩
  · obtain ⟨s, c, hs⟩ := (List.eq_nil_or_concat w.text).resolve_left w.nonempty
    rw [List.concat_eq_append] at hs
    exact ⟨s, c, hs, w.plain c (by rw [hs]; simp)⟩

theorem Trimmed.append (hs : Trimmed s) (mid : Text) (ht : Trimmed t) :
    Trimmed (s ++ (mid ++ t)) := by
  constructor
  · obtain ⟨c, r, rfl, hc⟩ := hs.head
    exact ⟨c, r ++ (mid ++ t), rfl, hc⟩
  · obtain ⟨r, c, rfl, hc⟩ := ht.last
    exact ⟨s ++ (mid ++ r), c, by simp, hc⟩

theorem Trimmed.dropWhile (h : Trimmed s) (t : Text) :
    (s ++ t).dropWhile isSpace = s ++ t := by
  obtain ⟨c, r, rfl, hc⟩ := h.head
  simp [hc]

theorem Trimmed.strip (h : Trimmed s) : strip s = s := by
  have hdrop := h.dropWhile []
  rw [List.append_nil] at hdrop
  rw [PyText.strip, hdrop]
  obtain ⟨r, c, rfl, hc⟩ := h.last
  exact List.rdropWhile_concat_neg _ _ _ (by simp [hc])

theorem Trimmed.strip_space (h : Trimmed s) {c : Char} (hc : isSpace c = true) :
    PyText.strip (s ++ [c]) = s := by
  rw [PyText.strip, h.dropWhile, List.rdropWhile_concat_pos _ _ _ hc]
  have hstrip := h.strip
  have hdrop := h.dropWhile []
  rw [List.append_nil] at hdrop
  rwa [PyText.strip, hdrop] at hstrip

theorem Trimmed.intercalate (sep : Text) {l : List Text} (hl : ∀ t ∈ l, Trimmed t) (hne : l ≠ []) :
    Trimmed (sep.intercalate l) := by
  induction l with
  | nil => exact absurd rfl hne
  | cons t l ih =>
    cases l with
    | nil =>
      rw [List.intercalate_singleton]
      exact hl t List.mem_cons_self
    | cons u l =>
      rw [List.intercalate_cons_cons, List.append_assoc]
      exact (hl t List.mem_cons_self).append sep
        (ih (fun v hv => hl v (List.mem_cons_of_mem t hv)) (List.cons_ne_nil u l))

end Trimmed

theorem isLineEnd_of_isSpace {c : Char} (h : isSpace c = false) : isLineEnd c = false := by
  unfold isSpace at h
  unfold isLineEnd
  simp only [decide_eq_false_iff_not] at h ⊢
  omega

/-! ### Tables -/

def lineOf (words : List Word) : Text := [' '].intercalate (words.map Word.text)

def tableText (table : List (List Word)) : Text :=
  table.flatMap fun words => lineOf words ++ ['\n']

theorem lineOf_trimmed {words : List Word} (h : words ≠ []) : Trimmed (lineOf words) := by
  apply Trimmed.intercalate
  · intro t ht
    obtain ⟨w, _, rfl⟩ := List.mem_map.mp ht
    exact w.trimmed
  · simpa using h

theorem split_lineOf (words : List Word) : split (lineOf words) = words.map Word.text := by
  induction words with
  | nil => rfl
  | cons w words ih =>
    have hw : (!w.text.isEmpty) = true := by simp [w.nonempty]
    cases words with
    | nil =>
      simp only [lineOf, List.map_cons, List.map_nil, List.intercalate_singleton, split]
      rw [List.splitOnP_eq_singleton w.plain]
      simp [w.nonempty]
    | cons v words =>
      have hline : lineOf (w :: v :: words) = w.text ++ ' ' :: lineOf (v :: words) := by
        simp [lineOf, List.intercalate_cons_cons]
      rw [hline, split, List.splitOnP_append_cons_of_forall_mem w.plain ' ' (by decide),
        List.filter_cons, if_pos hw]
      exact congrArg (w.text :: ·) ih

theorem notMem_lineOf {words : List Word} {c : Char} (h : c ∈ lineOf words) :
    isLineEnd c = false := by
  induction words with
  | nil => cases h
  | cons w words ih =>
    cases words with
    | nil =>
      simp only [lineOf, List.map_cons, List.map_nil, List.intercalate_singleton] at h
      exact isLineEnd_of_isSpace (w.plain c h)
    | cons v words =>
      have hline : lineOf (w :: v :: words) = w.text ++ ' ' :: lineOf (v :: words) := by
        simp [lineOf, List.intercalate_cons_cons]
      rw [hline] at h
      rcases List.mem_append.mp h with h | h
      · exact isLineEnd_of_isSpace (w.plain c h)
      · rcases List.mem_cons.mp h with rfl | h
        · decide
        · exact ih h

section Lines

variable {a : Text}

/-- What has no end of a line is read into the first line. -/
theorem linesFrom_append (ha : ∀ c ∈ a, isLineEnd c = false) :
    ∀ line s, linesFrom line (a ++ s) = linesFrom (a.reverse ++ line) s := by
  induction a with
  | nil => exact fun _ _ => rfl
  | cons c a ih =>
    intro line s
    have hc := ha c List.mem_cons_self
    have hr : c ≠ '\r' := by
      rintro rfl
      revert hc
      decide
    have hstep : linesFrom line (c :: (a ++ s)) = linesFrom (c :: line) (a ++ s) := by
      rw [linesFrom]
      · rw [hc]
        rfl
      · intro t hcr _
        exact hr hcr
    rw [List.cons_append, hstep, ih (fun d hd => ha d (List.mem_cons_of_mem c hd))]
    simp

theorem linesFrom_newline (line s : Text) :
    linesFrom line ('\n' :: s) = line.reverse :: linesFrom [] s := by
  rw [linesFrom]
  · rfl
  · intro t h
    cases h

theorem splitlines_intercalate {l : List Text}
    (hl : ∀ t ∈ l, t ≠ [] ∧ ∀ c ∈ t, isLineEnd c = false) :
    splitlines (['\n'].intercalate l) = l := by
  induction l with
  | nil => rfl
  | cons t l ih =>
    obtain ⟨hne, hplain⟩ := hl t List.mem_cons_self
    cases l with
    | nil =>
      have hread := linesFrom_append hplain [] []
      rw [List.append_nil, List.append_nil] at hread
      rw [List.intercalate_singleton, splitlines, hread, linesFrom, if_neg (by simpa using hne),
        List.reverse_reverse]
    | cons u l =>
      rw [List.intercalate_cons_cons, List.append_assoc, splitlines, linesFrom_append hplain,
        List.singleton_append, linesFrom_newline, List.append_nil, List.reverse_reverse]
      exact congrArg (t :: ·) (ih fun v hv => hl v (List.mem_cons_of_mem t hv))

end Lines

/-- The text of a table without the end of its last line. -/
theorem strip_tableText {table : List (List Word)} (h : ∀ words ∈ table, words ≠ []) :
    strip (tableText table) = ['\n'].intercalate (table.map lineOf) := by
  cases table with
  | nil => rfl
  | cons words table =>
    have htext : ∀ (words : List Word) (table : List (List Word)), tableText (words :: table) =
        ['\n'].intercalate ((words :: table).map lineOf) ++ ['\n'] := by
      intro words table
      induction table generalizing words with
      | nil => simp [tableText]
      | cons more table ih =>
        rw [tableText, List.flatMap_cons]
        change lineOf words ++ ['\n'] ++ tableText (more :: table) = _
        rw [ih more]
        simp [List.intercalate_cons_cons]
    rw [htext]
    refine Trimmed.strip_space (Trimmed.intercalate _ ?_ (by simp)) (by decide)
    intro t ht
    obtain ⟨ws, hws, rfl⟩ := List.mem_map.mp ht
    exact lineOf_trimmed (h ws hws)

/-- **A table is read back as it was written.** -/
theorem table_read {table : List (List Word)} (h : ∀ words ∈ table, words ≠ []) :
    (splitlines (strip (tableText table))).map (fun line => split (strip line)) =
      table.map fun words => words.map Word.text := by
  have hlines : ∀ t ∈ table.map lineOf, t ≠ [] ∧ ∀ c ∈ t, isLineEnd c = false := by
    intro t ht
    obtain ⟨ws, hws, rfl⟩ := List.mem_map.mp ht
    refine ⟨?_, fun c hc => notMem_lineOf hc⟩
    obtain ⟨c, s, hs, _⟩ := (lineOf_trimmed (h ws hws)).head
    rw [hs]
    exact List.cons_ne_nil c s
  rw [strip_tableText h, splitlines_intercalate hlines, List.map_map]
  apply List.map_congr_left
  intro words hwords
  rw [Function.comp_apply, (lineOf_trimmed (h words hwords)).strip, split_lineOf]

end Albatross.PyText
