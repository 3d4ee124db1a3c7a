import FormLogic.Text.Position
import Mathlib.Data.List.Induction
import Mathlib.Data.List.TakeWhile

/-!
# FormLogic.Proofs.Text.Position

Walking through a text against counting what stands in it. A position that moves
along a text character by character ends in the line and the column that counting
gives (`after_start`), whatever line feeds and wide characters the text holds. Of
two texts one behind the other, the second decides the column if it has a line
feed (`lastLine_append`).
-/

namespace FormLogic.Text

theorem lastLine_concat_newline (s : List Char) : lastLine (s ++ ['\n']) = [] := by
  simp [lastLine]

theorem lastLine_concat {c : Char} (h : c ≠ '\n') (s : List Char) :
    lastLine (s ++ [c]) = lastLine s ++ [c] := by
  simp [lastLine, h]

/-- A text without a line feed is one line. -/
theorem lastLine_eq_self {s : List Char} (h : '\n' ∉ s) : lastLine s = s := by
  have hall : s.reverse.takeWhile (· != '\n') = s.reverse := by
    refine List.takeWhile_eq_self_iff.mpr fun c hc => ?_
    simpa using fun heq : c = '\n' => h (heq ▸ List.mem_reverse.mp hc)
  rw [lastLine, hall, List.reverse_reverse]

/-- What stands in front of a line feed is not in the last line. -/
theorem lastLine_append (s t : List Char) :
    lastLine (s ++ t) = if '\n' ∈ t then lastLine t else lastLine s ++ t := by
  induction t using List.reverseRecOn with
  | nil => simp
  | append_singleton t c ih =>
      rw [← List.append_assoc]
      by_cases hc : c = '\n'
      · subst hc
        rw [lastLine_concat_newline, lastLine_concat_newline, if_pos (by simp)]
      · rw [lastLine_concat hc, lastLine_concat hc, ih]
        have hmem : '\n' ∈ t ++ [c] ↔ '\n' ∈ t := by simp [Ne.symm hc]
        by_cases ht : '\n' ∈ t
        · rw [if_pos ht, if_pos (hmem.mpr ht)]
        · rw [if_neg ht, if_neg (fun h => ht (hmem.mp h)), List.append_assoc]

/-- Walking through a text from the start counts its lines, the characters of the
last one and its bytes. -/
theorem after_start (s : List Char) :
    Position.start.after s = ⟨lineBehind s, columnBehind s, byteLength s⟩ := by
  induction s using List.reverseRecOn with
  | nil => rfl
  | append_singleton s c ih =>
      rw [Position.after_append, ih]
      by_cases hc : c = '\n'
      · subst hc
        simp [Position.next, lineBehind, columnBehind, lastLine_concat_newline]
      · simp [Position.next, lineBehind, columnBehind, lastLine_concat hc, hc]

/-- The end of a source is the same by counting and by walking. -/
theorem endOf_eq_endSpan (source : List Char) : endOf source = endSpan source := by
  rw [endSpan, after_start]
  rfl

/-- In the first line, the column counts all characters. -/
theorem columnBehind_of_lineBehind {s : List Char} (h : lineBehind s = 1) :
    columnBehind s = s.length + 1 := by
  have hcount : s.count '\n' = 0 := by
    unfold lineBehind at h
    omega
  rw [columnBehind, lastLine_eq_self (List.count_eq_zero.mp hcount)]

/-! ## A text in front -/

theorem lineBehind_append_eq_iff {s t : List Char} :
    lineBehind (s ++ t) = lineBehind t ↔ '\n' ∉ s := by
  unfold lineBehind
  rw [List.count_append, ← List.count_eq_zero]
  omega

/-- A text in front does not move a place exactly when it has no line feed and, if
it is not empty, a line feed stands between it and the place. -/
theorem behind_append_eq_iff {s t : List Char} :
    lineBehind (s ++ t) = lineBehind t ∧ columnBehind (s ++ t) = columnBehind t ↔
      '\n' ∉ s ∧ (s = [] ∨ '\n' ∈ t) := by
  rw [lineBehind_append_eq_iff]
  refine and_congr_right fun hs => ?_
  unfold columnBehind
  rw [lastLine_append]
  by_cases ht : '\n' ∈ t
  · simp [ht]
  · simp [ht, lastLine_eq_self hs, lastLine_eq_self ht]

end FormLogic.Text
