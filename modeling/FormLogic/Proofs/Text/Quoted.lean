import FormLogic.Text.Quoted
import Mathlib.Data.List.Infix

/-!
# FormLogic.Proofs.Text.Quoted

Writing a quote twice against reading it. A quote is escaped by another quote
or by a backslash, so a text whose quotes are doubled is read back only if it is
`Doublable`: no backslash stands in front of a quote or at its end.
-/

namespace FormLogic.Text

/-- A text that doubling its quotes does not change for a reader. -/
def Doublable (q : Char) (s : List Char) : Prop :=
  ¬ ['\\', q] <:+: s ∧ s.getLast? ≠ some '\\'

variable {q : Char}

@[simp] theorem doublable_nil : Doublable q [] := by
  simp [Doublable]

/-- Without quotes in it, a text is read back unless it ends in a backslash. -/
theorem doublable_of_not_mem {s : List Char} (h : q ∉ s) (hend : s.getLast? ≠ some '\\') :
    Doublable q s :=
  ⟨fun hin => h (hin.subset (by simp)), hend⟩

/-- A backslash in front must be followed by something else than a quote. -/
theorem doublable_cons {c : Char} {s : List Char} :
    Doublable q (c :: s) ↔ (c = '\\' → s ≠ [] ∧ s.head? ≠ some q) ∧ Doublable q s := by
  unfold Doublable
  rw [List.infix_cons_iff]
  cases s with
  | nil => by_cases hc : c = '\\' <;> simp [hc]
  | cons d t =>
      by_cases hc : c = '\\'
      · simp [hc]
        grind
      · simp [hc]
        grind

theorem doubleQuotes_cons_quote {s : List Char} :
    doubleQuotes q (q :: s) = q :: q :: doubleQuotes q s := by
  simp [doubleQuotes]

theorem doubleQuotes_cons_of_ne {c : Char} {s : List Char} (h : c ≠ q) :
    doubleQuotes q (c :: s) = c :: doubleQuotes q s := by
  simp [doubleQuotes, h]

theorem doubleQuotes_of_not_mem {s : List Char} (h : q ∉ s) : doubleQuotes q s = s := by
  induction s with
  | nil => rfl
  | cons c s ih =>
      have hc : c ≠ q := fun hc => h (by simp [hc])
      have hs : q ∉ s := fun hs => h (List.mem_cons_of_mem c hs)
      rw [doubleQuotes_cons_of_ne hc, ih hs]

/-- Doubling starts with a quote exactly when the text does. -/
theorem head?_doubleQuotes (s : List Char) : (doubleQuotes q s).head? = s.head? := by
  cases s with
  | nil => rfl
  | cons c s =>
      by_cases h : c = q
      · subst h
        simp [doubleQuotes_cons_quote]
      · simp [doubleQuotes_cons_of_ne h]

/-! ## Reading one character -/

theorem readLiteral_close {rest : List Char} (hrest : rest.head? ≠ some q) :
    readLiteral q (q :: rest) = ⟨[], [q], true⟩ := by
  cases rest with
  | nil => simp [readLiteral]
  | cons d rest =>
      have hd : d ≠ q := by simpa using hrest
      simp [readLiteral, hd]

theorem readLiteral_doubled {rest : List Char} :
    readLiteral q (q :: q :: rest) = (readLiteral q rest).push [q] [q, q] := by
  simp [readLiteral]

/-- A character that is neither a quote nor escapes one stands for itself. -/
theorem readLiteral_cons {c : Char} {rest : List Char} (hc : c ≠ q)
    (hrest : ¬ (c = '\\' ∧ rest.head? = some q)) :
    readLiteral q (c :: rest) = (readLiteral q rest).push [c] [c] := by
  cases rest with
  | nil => simp [readLiteral, hc, Literal.push]
  | cons d rest =>
      rw [List.head?_cons, Option.some.injEq] at hrest
      simp [readLiteral, hc, hrest]

/-- A backslash in front of a quote stands for nothing. -/
theorem readLiteral_escaped {rest : List Char} (hq : q ≠ '\\') :
    readLiteral q ('\\' :: q :: rest) = (readLiteral q rest).push [q] ['\\', q] := by
  simp [readLiteral, hq.symm]

/-! ## Where a literal ends -/

/-- The source of a literal starts with the first character behind the opening
quote. -/
theorem head?_source_readLiteral (c : Char) (rest : List Char) :
    (readLiteral q (c :: rest)).source.head? = some c := by
  cases rest with
  | nil =>
      unfold readLiteral
      split <;> simp_all
  | cons d rest =>
      unfold readLiteral
      split_ifs <;> simp_all [Literal.push]

/-- A literal takes up the front of the text. If it never closes it takes up the
whole text, and if it closes, the reader does not look further than to the next
character, which must not be a quote. -/
theorem readLiteral_source (rest : List Char) :
    ∃ t, rest = (readLiteral q rest).source ++ t ∧
      ((readLiteral q rest).closed = false → t = []) ∧
      ((readLiteral q rest).closed = true → t.head? ≠ some q ∧ ∀ t', t'.head? ≠ some q →
        readLiteral q ((readLiteral q rest).source ++ t') = readLiteral q rest) := by
  fun_induction readLiteral q rest with
  | case1 => exact ⟨[], by simp⟩
  | case2 => exact ⟨[], by simpa using fun t' ht' => readLiteral_close ht'⟩
  | case3 c hc => exact ⟨[], by simp⟩
  | case4 rest ih =>
      obtain ⟨t, hrest, hopen, hclosed⟩ := ih
      refine ⟨t, by simpa [Literal.push] using hrest, hopen, fun h => ⟨(hclosed h).1, ?_⟩⟩
      intro t' ht'
      show readLiteral q (q :: q :: ((readLiteral q rest).source ++ t')) = _
      rw [readLiteral_doubled, (hclosed h).2 t' ht']
  | case5 d rest hd =>
      exact ⟨d :: rest, by simpa [hd] using fun t' ht' => readLiteral_close ht'⟩
  | case6 c d rest hc hescaped ih =>
      obtain ⟨rfl, rfl⟩ := hescaped
      obtain ⟨t, hrest, hopen, hclosed⟩ := ih
      refine ⟨t, by simpa [Literal.push] using hrest, hopen, fun h => ⟨(hclosed h).1, ?_⟩⟩
      intro t' ht'
      show readLiteral d ('\\' :: d :: ((readLiteral d rest).source ++ t')) = _
      rw [readLiteral_escaped (Ne.symm hc), (hclosed h).2 t' ht']
  | case7 c d rest hc hplain ih =>
      obtain ⟨t, hrest, hopen, hclosed⟩ := ih
      refine ⟨t, by simpa [Literal.push] using hrest, hopen, fun h => ⟨(hclosed h).1, ?_⟩⟩
      intro t' ht'
      -- the character behind `c` is the same in both texts
      obtain ⟨source, hsource⟩ :=
        List.head?_eq_some_iff.mp (head?_source_readLiteral (q := q) d rest)
      have hread := (hclosed h).2 t' ht'
      show readLiteral q (c :: ((readLiteral q (d :: rest)).source ++ t')) = _
      rw [hsource, List.cons_append] at hread ⊢
      rw [readLiteral_cons hc (by simpa using hplain), hread]

/-- A literal that closes ends in its quote. -/
theorem getLast?_source_readLiteral {rest : List Char} (h : (readLiteral q rest).closed = true) :
    (readLiteral q rest).source.getLast? = some q := by
  fun_induction readLiteral q rest with
  | case1 => contradiction
  | case2 => rfl
  | case3 => contradiction
  | case4 rest ih => rw [Literal.push, List.getLast?_append, ih h, Option.some_or]
  | case5 => rfl
  | case6 c d rest hc hescaped ih =>
      rw [Literal.push, List.getLast?_append, ih h, Option.some_or]
  | case7 c d rest hc hplain ih => rw [Literal.push, List.getLast?_append, ih h, Option.some_or]

/-! ## Reading a doubled text -/

/-- What stands behind a character of a doubled text is a quote only if the text
ends there or goes on with a quote. -/
theorem head?_doubleQuotes_append {s rest : List Char} :
    (doubleQuotes q s ++ q :: rest).head? = some q ↔ s = [] ∨ s.head? = some q := by
  rw [List.head?_append, head?_doubleQuotes]
  cases s <;> simp

/-- A character of a doubled text stands for itself, unless it is a backslash
that escapes what stands behind it. -/
theorem readLiteral_cons_doubleQuotes {c : Char} {s rest : List Char} (hc : c ≠ q)
    (h : c = '\\' → s ≠ [] ∧ s.head? ≠ some q) :
    readLiteral q (c :: (doubleQuotes q s ++ q :: rest)) =
      (readLiteral q (doubleQuotes q s ++ q :: rest)).push [c] [c] := by
  refine readLiteral_cons hc fun ⟨hback, hhead⟩ => ?_
  rcases head?_doubleQuotes_append.mp hhead with hnil | hquote
  · exact (h hback).1 hnil
  · exact (h hback).2 hquote

/-- A backslash in front of a quote is read as the quote. -/
theorem head?_value_readLiteral_backslash {s rest : List Char} (hq : q ≠ '\\')
    (h : s = [] ∨ s.head? = some q) :
    (readLiteral q ('\\' :: (doubleQuotes q s ++ q :: rest))).value.head? = some q := by
  obtain ⟨t, ht⟩ := List.head?_eq_some_iff.mp (head?_doubleQuotes_append.mpr h)
  rw [ht, readLiteral_escaped hq]
  rfl

/-- A doubled text is read back together with its closing quote. -/
theorem readLiteral_doubleQuotes {s rest : List Char} (hs : Doublable q s)
    (hrest : rest.head? ≠ some q) :
    readLiteral q (doubleQuotes q s ++ q :: rest) = ⟨s, doubleQuotes q s ++ [q], true⟩ := by
  induction s with
  | nil => exact readLiteral_close hrest
  | cons c s ih =>
      obtain ⟨hc, hs⟩ := doublable_cons.mp hs
      by_cases h : c = q
      · subst h
        simp only [doubleQuotes_cons_quote, List.cons_append]
        rw [readLiteral_doubled, ih hs]
        rfl
      · simp only [doubleQuotes_cons_of_ne h, List.cons_append]
        rw [readLiteral_cons_doubleQuotes h hc, ih hs]
        rfl

/-- A doubled text that is no doublable one is read as another text. -/
theorem value_readLiteral_ne {s rest : List Char} (hq : q ≠ '\\') (hs : ¬ Doublable q s) :
    (readLiteral q (doubleQuotes q s ++ q :: rest)).value ≠ s := by
  induction s with
  | nil => simp at hs
  | cons c s ih =>
      by_cases h : c = q
      · subst h
        have hs : ¬ Doublable c s := fun h => hs (doublable_cons.mpr ⟨by simp [hq], h⟩)
        simp only [doubleQuotes_cons_quote, List.cons_append, readLiteral_doubled]
        simpa [Literal.push] using ih hs
      · simp only [doubleQuotes_cons_of_ne h, List.cons_append]
        by_cases hc : c = '\\' → s ≠ [] ∧ s.head? ≠ some q
        · have hs : ¬ Doublable q s := fun h => hs (doublable_cons.mpr ⟨hc, h⟩)
          rw [readLiteral_cons_doubleQuotes h hc]
          simpa [Literal.push] using ih hs
        · -- the backslash is lost in front of the quote
          obtain ⟨rfl, hquote⟩ := Classical.not_imp.mp hc
          intro hvalue
          have hhead :
              (readLiteral q ('\\' :: (doubleQuotes q s ++ q :: rest))).value.head? = some q :=
            head?_value_readLiteral_backslash hq (by tauto)
          rw [hvalue] at hhead
          simp [hq.symm] at hhead

end FormLogic.Text
