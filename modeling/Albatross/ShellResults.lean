/-
  Albatross/ShellResults.lean
  ===========================
  **The two parsers of a shell response** (`albatross_client.py`:
  `ShellExecResult.parse_value`; `AlbatrossClient.java`: `execShell`).

  A response is `e:n:rest`, with the exit code, a length, and what that many units of
  output leave behind a separator.  Python counts characters and Java UTF-16 units, so the
  parsers agree exactly when the output and the separator are basic characters
  (`shell_parsers_agree_iff`).

  The positions in a Java string are below `2^31`, and a sum of two of them is taken
  without the wrap of `int`: one that wraps is negative, and both are outside the string.
-/
import Albatross.Marshal
import Albatross.PyText
import Albatross.Utf16

namespace Albatross.ShellResults

open Decimal Marshal PyText Utf16
open Python (Bytes PyExn PyValue sliceBound sliceBound_of_le)

structure ShellExecResult (τ : Type) where
  exitCode : Int
  stdout : τ
  stderr : τ
deriving DecidableEq

/-! ### Python -/

/-- `s[:j]`. -/
def sliceTo (s : Text) (j : Int) : Text := s.take (sliceBound s.length j)

/-- `s[i:]`. -/
def sliceFrom (s : Text) (i : Int) : Text := s.drop (sliceBound s.length i)

/-- The block `if s:`. -/
def parseText (s : Text) : Except PyExn (ShellExecResult Text) :=
  match splitMax ':' 2 s with
  | [exitCode, stdoutLen, shellStr] => do
      let stdoutLen ← int stdoutLen
      let stdout := sliceTo shellStr stdoutLen
      let stderr := sliceFrom shellStr (stdoutLen + 1)
      let exitCode ← int exitCode
      pure ⟨exitCode, stdout, stderr⟩
  | _ => .error .valueError

def parseValue (data : Bytes) : Except PyExn (Option (ShellExecResult Text)) := do
  let (s, _) ← readString data 0
  match s with
  | .str s => if s ≠ "" then some <$> parseText s.toList else pure none
  | _ => pure none

/-! ### Java -/

inductive JavaExn where
  | disconnect
  | stringIndexOutOfBounds
  | numberFormat
deriving DecidableEq

abbrev Units := List UInt16

/-- The unit of `:`. -/
def COLON : UInt16 := 58

/-- `s.indexOf(ch, start)`. -/
def indexOf (s : Units) (ch : UInt16) (start : Int) : Int :=
  let t := s.drop start.toNat
  if ch ∈ t then start.toNat + (t.takeWhile (· ≠ ch)).length else -1

/-- `s.substring(start, stop)`. -/
def substring (s : Units) (start stop : Int) : Except JavaExn Units :=
  if 0 ≤ start ∧ start ≤ stop ∧ stop ≤ s.length then
    .ok ((s.drop start.toNat).take (stop - start).toNat)
  else .error .stringIndexOutOfBounds

/-- `Integer.parseInt(s)`, of the digits from 0 to 9. -/
def parseInt (s : Units) : Except JavaExn Int :=
  match intOf (ofUnits s) with
  | some i => if -2 ^ 31 ≤ i ∧ i < 2 ^ 31 then .ok i else .error .numberFormat
  | none => .error .numberFormat

/-- `tid` is what `getTid()` returns, and `s` what `shell(command)` does. -/
def execShell (tid : Int) (s : Option Units) : Except JavaExn (Option (ShellExecResult Units)) :=
  if tid = 0 then .error .disconnect
  else match s with
    | none => .ok none
    | some s => do
        let idx := indexOf s COLON 0
        let exitCode ← parseInt (← substring s 0 idx)
        let idx2 := indexOf s COLON (idx + 1)
        let stdoutLen ← parseInt (← substring s (idx + 1) idx2)
        let idx3 := idx2 + 1 + stdoutLen
        let stdout ← substring s (idx2 + 1) idx3
        let stderr ← substring s (idx3 + 1) s.length
        pure (some ⟨exitCode, stdout, stderr⟩)

/-! ### What they make of a response -/

section Response

variable {e n rest : Text} {i : Int} {k : Nat}

/-- `e:n:rest`. -/
def response (e n rest : Text) : Text := e ++ ':' :: (n ++ ':' :: rest)

theorem colon_not_mem_of_intOf (he : intOf e = some i) : ':' ∉ e := by
  intro hmem
  rcases mem_of_intOf he hmem with h | h | h
  · cases h
  · cases h
  · cases h

theorem parseText_response (he : intOf e = some i) (hn : natOf n = some k)
    (hlen : k + 1 ≤ rest.length) :
    parseText (response e n rest) = .ok ⟨i, rest.take k, rest.drop (k + 1)⟩ := by
  have hcolon : ':' ∉ n := colon_not_mem_of_intOf (intOf_of_natOf hn)
  have hbound : sliceBound rest.length (k : Int) = k := sliceBound_of_le (by omega)
  have hbound' : sliceBound rest.length ((k : Int) + 1) = k + 1 := by
    exact_mod_cast sliceBound_of_le hlen
  unfold parseText response
  rw [splitMax_succ (colon_not_mem_of_intOf he), splitMax_succ hcolon]
  simp only [splitMax, int_of_intOf he, int_of_intOf (intOf_of_natOf hn), Python.bind_ok, sliceTo,
    sliceFrom, hbound, hbound']
  rfl

theorem indexOf_eq {s : Units} (before mid after : Units) {ch : UInt16} {start : Int}
    (hs : s = before ++ (mid ++ ch :: after)) (hch : ch ∉ mid) (hstart : start = before.length) :
    indexOf s ch start = before.length + mid.length := by
  have hmid : ∀ x ∈ mid, decide (x ≠ ch) = true := by
    intro x hx
    exact decide_eq_true fun heq => hch (heq ▸ hx)
  subst hs hstart
  unfold indexOf
  simp only [Int.toNat_natCast, List.drop_left]
  rw [if_pos (by simp), List.takeWhile_append_of_pos hmid]
  simp

theorem substring_eq {s : Units} (before mid after : Units) {start stop : Int}
    (hs : s = before ++ (mid ++ after)) (hstart : start = before.length)
    (hstop : stop = before.length + mid.length) : substring s start stop = .ok mid := by
  have hlen : stop ≤ s.length := by
    rw [hstop, hs]
    simp
  have htake : (stop - start).toNat = mid.length := by omega
  rw [substring, if_pos ⟨by omega, by omega, hlen⟩, htake, hs, hstart]
  simp

theorem parseInt_utf16 {t : Text} {i : Int} (ht : intOf t = some i) (hlo : -2 ^ 31 ≤ i)
    (hhi : i < 2 ^ 31) (hbasic : ∀ c ∈ t, Basic c) : parseInt (utf16 t) = .ok i := by
  unfold parseInt
  rw [ofUnits_utf16 hbasic, ht]
  simp only
  rw [if_pos ⟨hlo, hhi⟩]

theorem basic_of_intOf {t : Text} {i : Int} (ht : intOf t = some i) : ∀ c ∈ t, Basic c := by
  intro c hc
  rcases mem_of_intOf ht hc with hdigit | rfl | rfl
  · have hrange : 48 ≤ c.toNat ∧ c.toNat ≤ 57 := by
      simpa [Char.isDigit, UInt32.le_iff_toNat_le] using hdigit
    show c.toNat < 0x10000
    omega
  · decide
  · decide

theorem colon_not_mem_utf16 {t : Text} {i : Int} (ht : intOf t = some i) : COLON ∉ utf16 t := by
  intro hmem
  exact colon_not_mem_of_intOf ht ((mem_utf16_iff (c := ':') (by decide)).mp hmem)

theorem utf16_response (e n rest : Text) :
    utf16 (response e n rest) = utf16 e ++ COLON :: (utf16 n ++ COLON :: utf16 rest) := by
  have hcolon : units ':' = [COLON] := rfl
  simp [response, hcolon]

theorem execShell_response {tid : Int} (htid : tid ≠ 0) (he : intOf e = some i)
    (hlo : -2 ^ 31 ≤ i) (hhi : i < 2 ^ 31) (hn : natOf n = some k) (hk : k < 2 ^ 31)
    (hlen : k + 1 ≤ rest.length) :
    execShell tid (some (utf16 (response e n rest))) =
      .ok (some ⟨i, (utf16 rest).take k, (utf16 rest).drop (k + 1)⟩) := by
  have hint : intOf n = some (k : Int) := intOf_of_natOf hn
  have hunits := length_le_utf16 rest
  have htext := utf16_response e n rest
  generalize utf16 (response e n rest) = s at htext
  -- the positions of the two separators, and what stands between them
  have hidx : indexOf s COLON 0 = (utf16 e).length := by
    simpa using indexOf_eq [] (utf16 e) _ htext (colon_not_mem_utf16 he) rfl
  have hexit : substring s 0 (utf16 e).length = .ok (utf16 e) :=
    substring_eq [] (utf16 e) _ htext rfl (by simp)
  have hidx2 : indexOf s COLON ((utf16 e).length + 1) =
      (utf16 e).length + 1 + (utf16 n).length := by
    have h : indexOf s COLON ((utf16 e).length + 1) =
        ((utf16 e ++ [COLON]).length : Int) + (utf16 n).length :=
      indexOf_eq _ _ (utf16 rest) (by simp [htext]) (colon_not_mem_utf16 hint) (by simp)
    simpa using h
  have hlength : substring s ((utf16 e).length + 1) ((utf16 e).length + 1 + (utf16 n).length) =
      .ok (utf16 n) :=
    substring_eq (utf16 e ++ [COLON]) (utf16 n) (COLON :: utf16 rest) (by simp [htext]) (by simp)
      (by simp)
  have hstdout : substring s ((utf16 e).length + 1 + (utf16 n).length + 1)
      ((utf16 e).length + 1 + (utf16 n).length + 1 + k) = .ok ((utf16 rest).take k) := by
    apply substring_eq (utf16 e ++ COLON :: (utf16 n ++ [COLON])) _ ((utf16 rest).drop k)
    · simp [htext]
    · simp
      omega
    · simp
      omega
  have hstderr : substring s ((utf16 e).length + 1 + (utf16 n).length + 1 + k + 1) s.length =
      .ok ((utf16 rest).drop (k + 1)) := by
    apply substring_eq (utf16 e ++ COLON :: (utf16 n ++ COLON :: (utf16 rest).take (k + 1))) _ []
    · simp [htext]
    · simp
      omega
    · simp [htext]
      omega
  unfold execShell
  rw [if_neg htid]
  simp only [bind, Except.bind, hidx, hexit, hidx2, hlength, hstdout, hstderr,
    parseInt_utf16 he hlo hhi (basic_of_intOf he), parseInt_utf16 hint (by omega) (by omega)
      (basic_of_intOf hint)]
  rfl

theorem parseValue_response {data : Bytes} {idx : Int}
    (hdata : readString data 0 = .ok (.str (String.ofList (response e n rest)), idx))
    (he : intOf e = some i) (hn : natOf n = some k) (hlen : k + 1 ≤ rest.length) :
    parseValue data = .ok (some ⟨i, rest.take k, rest.drop (k + 1)⟩) := by
  have hne : String.ofList (response e n rest) ≠ "" := by
    intro h
    have hlist := congrArg String.toList h
    simp [response] at hlist
  unfold parseValue
  rw [hdata, Python.bind_ok]
  simp only [if_pos hne, String.toList_ofList, parseText_response he hn hlen]
  rfl

/-- The same exit code and the same two texts. -/
def Agree (python : Except PyExn (Option (ShellExecResult Text)))
    (java : Except JavaExn (Option (ShellExecResult Units))) : Prop :=
  ∃ r r', python = .ok (some r) ∧ java = .ok (some r') ∧
    r'.exitCode = r.exitCode ∧ r'.stdout = utf16 r.stdout ∧ r'.stderr = utf16 r.stderr

/-- **When the two parsers agree.**  The output and the separator behind it are basic characters. -/
theorem shell_parsers_agree_iff {data : Bytes} {idx tid : Int} {e n rest : Text} {i : Int} {k : Nat}
    (hdata : readString data 0 = .ok (.str (String.ofList (response e n rest)), idx))
    (htid : tid ≠ 0) (he : intOf e = some i) (hlo : -2 ^ 31 ≤ i) (hhi : i < 2 ^ 31)
    (hn : natOf n = some k) (hk : k < 2 ^ 31) (hlen : k + 1 ≤ rest.length) :
    Agree (parseValue data) (execShell tid (some (utf16 (response e n rest)))) ↔
      ∀ c ∈ rest.take (k + 1), Basic c := by
  rw [parseValue_response hdata he hn hlen, execShell_response htid he hlo hhi hn hk hlen,
    ← drop_utf16_iff hlen]
  constructor
  · rintro ⟨r, r', hr, hr', -, -, hstderr⟩
    cases hr
    cases hr'
    exact hstderr
  · intro hdrop
    have hbasic := (drop_utf16_iff hlen).mp hdrop
    refine ⟨_, _, rfl, rfl, rfl, ?_, hdrop⟩
    apply (take_utf16_iff (by omega)).mpr
    intro c hc
    exact hbasic c (List.take_subset_take_left _ (by omega) hc)

theorem readString_response (hlen : (response e n rest).length < 10000) : ∃ idx,
    readString (stringBytes (String.ofList (response e n rest))) 0 =
      .ok (.str (String.ofList (response e n rest)), idx) := by
  have hne : String.ofList (response e n rest) ≠ "" := by
    intro h
    have hlist := congrArg String.toList h
    simp [response] at hlist
  have hutf8 := Python.length_utf8_le (String.ofList (response e n rest))
  have hok : TextOk (String.ofList (response e n rest)) := by
    left
    rw [String.length_ofList] at hutf8
    omega
  have hread := readString_reads hok [] []
  rw [List.nil_append, List.append_nil, textValue, if_neg hne] at hread
  exact ⟨_, hread⟩

theorem shell_parsers_agree_iff_ok :
    Agree (parseValue (stringBytes (String.ofList (response "-1".toList ['2'] "ok|".toList))))
      (execShell 7 (some (utf16 (response "-1".toList ['2'] "ok|".toList)))) := by
  obtain ⟨idx, hdata⟩ := @readString_response "-1".toList ['2'] "ok|".toList (by decide)
  exact (shell_parsers_agree_iff hdata (by decide) (i := -1) (k := 2) (by decide) (by decide)
    (by decide) (by decide) (by decide) (by decide)).mpr (by simp [Basic])

/-- A character outside the plane is one unit of output for Python and two for Java. -/
theorem wide_output_differs :
    ¬ Agree (parseValue (stringBytes (String.ofList (response ['0'] ['1'] "😀|".toList))))
      (execShell 7 (some (utf16 (response ['0'] ['1'] "😀|".toList)))) := by
  obtain ⟨idx, hdata⟩ := @readString_response ['0'] ['1'] "😀|".toList (by decide)
  rw [parseValue_response (i := 0) (k := 1) hdata (by decide) (by decide) (by decide),
    execShell_response (i := 0) (k := 1) (by decide) (by decide) (by decide) (by decide) (by decide)
      (by decide) (by decide)]
  rintro ⟨r, r', hr, hr', -, hstdout, -⟩
  cases hr
  cases hr'
  revert hstdout
  decide

end Response

end Albatross.ShellResults
