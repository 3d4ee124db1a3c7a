import FormLogic.Text.Blank
import Mathlib.Data.List.DropRight

/-!
# FormLogic.Proofs.Text.Blank

Trimming: a trimmed text has nothing left to trim, and trimming takes
blanks away at the ends only (`exists_eq_append_trim`, `trim_append`).
-/

namespace FormLogic.Text

theorem trimEnd_eq_rdropWhile (s : List Char) : trimEnd s = s.rdropWhile isBlank := rfl

theorem trimEnd_trimEnd (s : List Char) : trimEnd (trimEnd s) = trimEnd s := by
  simp only [trimEnd_eq_rdropWhile, List.rdropWhile_idempotent]

/-- A text that starts with something else than a blank still does so when the
blanks at its end are gone. -/
theorem trimStart_trimEnd_trimStart (s : List Char) :
    trimStart (trimEnd (trimStart s)) = trimEnd (trimStart s) := by
  cases h : trimEnd (trimStart s) with
  | nil => rfl
  | cons c t =>
      have hprefix : c :: t <+: trimStart s := h ▸ List.rdropWhile_prefix isBlank _
      obtain ⟨u, hu⟩ := hprefix
      have hc : isBlank c = false := by
        have hhead := List.head?_dropWhile_not isBlank s
        rw [show s.dropWhile isBlank = c :: (t ++ u) from hu.symm] at hhead
        simpa using hhead
      simp [trimStart, hc]

/-- Trimming a second time changes nothing. -/
theorem trim_trim (s : List Char) : trim (trim s) = trim s := by
  unfold trim
  rw [trimStart_trimEnd_trimStart, trimEnd_trimEnd]

theorem trim_sublist (s : List Char) : (trim s).Sublist s :=
  (List.rdropWhile_prefix isBlank (trimStart s)).sublist.trans
    (List.dropWhile_sublist isBlank)

/-! ## What is trimmed away -/

theorem head?_trimStart (s : List Char) : ∀ c ∈ (trimStart s).head?, isBlank c = false := by
  intro c hc
  have hhead := List.head?_dropWhile_not isBlank s
  rw [show (s.dropWhile isBlank).head? = some c from hc] at hhead
  simpa using hhead

theorem getLast?_trimEnd (s : List Char) : ∀ c ∈ (trimEnd s).getLast?, isBlank c = false := by
  intro c hc
  rw [trimEnd, List.getLast?_reverse] at hc
  exact head?_trimStart s.reverse c hc

theorem getLast?_trim (s : List Char) : ∀ c ∈ (trim s).getLast?, isBlank c = false :=
  getLast?_trimEnd (trimStart s)

/-- Trimming takes blanks away and nothing else. -/
theorem exists_eq_append_trim (s : List Char) :
    ∃ u v, s = u ++ (trim s ++ v) ∧ (∀ c ∈ u, isBlank c = true) ∧ ∀ c ∈ v, isBlank c = true := by
  refine ⟨s.takeWhile isBlank, (trimStart s).rtakeWhile isBlank, ?_, ?_, ?_⟩
  · calc s = s.takeWhile isBlank ++ trimStart s := List.takeWhile_append_dropWhile.symm
      _ = s.takeWhile isBlank ++ (trim s ++ (trimStart s).rtakeWhile isBlank) := by
        rw [trim, trimEnd_eq_rdropWhile, List.rdropWhile_append_rtakeWhile]
  · exact fun c hc => List.mem_takeWhile_imp hc
  · exact fun c hc => List.mem_rtakeWhile_imp hc

/-- A character that is no blank is not trimmed away. -/
theorem mem_trim {s : List Char} {c : Char} (h : c ∈ s) (hc : isBlank c = false) : c ∈ trim s := by
  obtain ⟨u, v, hs, hu, hv⟩ := exists_eq_append_trim s
  rw [hs, List.mem_append, List.mem_append] at h
  rcases h with h | h | h
  · rw [hu c h] at hc
    contradiction
  · exact h
  · rw [hv c h] at hc
    contradiction

theorem trimStart_eq_self {s : List Char} (h : ∀ c ∈ s.head?, isBlank c = false) :
    trimStart s = s := by
  cases s with
  | nil => rfl
  | cons c s => rw [trimStart, List.dropWhile_cons_of_neg (by simp [h c rfl])]

theorem trimEnd_append {s v : List Char} (hs : ∀ c ∈ s.getLast?, isBlank c = false)
    (hv : ∀ c ∈ v, isBlank c = true) : trimEnd (s ++ v) = s := by
  have hback : trimStart s.reverse = s.reverse :=
    trimStart_eq_self fun c hc => hs c (by rwa [List.head?_reverse] at hc)
  have hdrop : (v.reverse ++ s.reverse).dropWhile isBlank = s.reverse.dropWhile isBlank :=
    List.dropWhile_append_of_pos fun c hc => hv c (List.mem_reverse.mp hc)
  rw [trimEnd, List.reverse_append, hdrop, ← trimStart, hback, List.reverse_reverse]

/-- The blanks around a text that has none at its ends are what is trimmed
away. -/
theorem trim_append {u s v : List Char} (hu : ∀ c ∈ u, isBlank c = true)
    (hstart : ∀ c ∈ s.head?, isBlank c = false) (hend : ∀ c ∈ s.getLast?, isBlank c = false)
    (hv : ∀ c ∈ v, isBlank c = true) : trim (u ++ (s ++ v)) = s := by
  have hfront : trimStart (u ++ (s ++ v)) = trimStart (s ++ v) :=
    List.dropWhile_append_of_pos hu
  cases s with
  | nil =>
      rw [trim, hfront, List.nil_append, trimStart, List.dropWhile_eq_nil_iff.mpr hv]
      rfl
  | cons c s =>
      have hself : trimStart (c :: s ++ v) = c :: s ++ v := trimStart_eq_self hstart
      rw [trim, hfront, hself, trimEnd_append hend hv]

theorem trim_eq_self {s : List Char} (hstart : ∀ c ∈ s.head?, isBlank c = false)
    (hend : ∀ c ∈ s.getLast?, isBlank c = false) : trim s = s := by
  have h := trim_append (u := []) (v := []) (by simp) hstart hend (by simp)
  rwa [List.nil_append, List.append_nil] at h

/-! ## Pieces -/

theorem splitWhere_eq_splitOnP (p : Char → Bool) (s : List Char) : splitWhere p s = s.splitOnP p := by
  induction s with
  | nil => rfl
  | cons c s ih =>
      rw [List.splitOnP_cons_eq_if_modifyHead, splitWhere, ih]
      cases h : s.splitOnP p with
      | nil => exact absurd h (List.splitOnP_ne_nil p s)
      | cons piece pieces => rfl

theorem splitAt_eq_splitOn (separator : Char) (s : List Char) :
    splitAt separator s = s.splitOn separator := by
  rw [splitAt, splitWhere_eq_splitOnP, List.splitOn_eq_splitOnP]

/-- A text that holds no separator is one piece. -/
theorem splitAt_of_not_mem {separator : Char} {s : List Char} (h : separator ∉ s) :
    splitAt separator s = [s] := by
  rw [splitAt_eq_splitOn, List.splitOn_eq_singleton h]

/-- No piece holds a separator. -/
theorem eq_false_of_mem_splitWhere {p : Char → Bool} {s piece : List Char}
    (h : piece ∈ splitWhere p s) : ∀ c ∈ piece, p c = false := by
  rw [splitWhere_eq_splitOnP] at h
  induction s generalizing piece with
  | nil => simp [List.mem_singleton.mp h]
  | cons c s ih =>
      obtain ⟨first, others, hs⟩ := List.exists_cons_of_ne_nil (List.splitOnP_ne_nil p s)
      rw [List.splitOnP_cons_eq_if_modifyHead, hs] at h
      rw [hs] at ih
      by_cases hc : p c = true
      · rw [if_pos hc] at h
        rcases List.mem_cons.mp h with rfl | h
        · simp
        · exact ih h
      · rw [if_neg hc, List.modifyHead_cons] at h
        rcases List.mem_cons.mp h with rfl | h
        · exact List.forall_mem_cons.mpr ⟨by simpa using hc, ih List.mem_cons_self⟩
        · exact ih (List.mem_cons_of_mem _ h)

end FormLogic.Text
