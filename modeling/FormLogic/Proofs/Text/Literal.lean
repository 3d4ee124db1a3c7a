import FormLogic.Proofs.Text.Quoted

/-!
# FormLogic.Proofs.Text.Literal

What a quoted literal can express. With a backslash in front of each quote, every
text is read back that does not end in a backslash (`readLiteral_escapeQuotes`).
No literal stands for a text that does, for that backslash would stand in front of
the closing quote (`getLast?_value_readLiteral`). With its quotes written twice, only
a `Doublable` text is read back.
-/

namespace FormLogic.Text

/-- `source` is one literal for the text `s`. Its first character is passed over as
the opening quote, and all the others are read, up to the quote that closes it. -/
def Expresses (q : Char) (source s : List Char) : Prop :=
  readLiteral q source.tail = ⟨s, source.tail, true⟩

/-- The text with a backslash in front of every quote. -/
def escapeQuotes (q : Char) (s : List Char) : List Char :=
  s.flatMap fun c => if c = q then ['\\', q] else [c]

variable {q : Char} {s source rest : List Char}

/-! ## Writing a backslash in front of quotes -/

theorem escapeQuotes_cons_quote : escapeQuotes q (q :: s) = '\\' :: q :: escapeQuotes q s := by
  simp [escapeQuotes]

theorem escapeQuotes_cons_of_ne {c : Char} (h : c ≠ q) :
    escapeQuotes q (c :: s) = c :: escapeQuotes q s := by
  simp [escapeQuotes, h]

/-- An escaped text never starts with a quote, so with a quote behind it, what
stands first is a quote only if the text is empty. -/
theorem head?_escapeQuotes_append (hq : q ≠ '\\') :
    (escapeQuotes q s ++ q :: rest).head? = some q ↔ s = [] := by
  cases s with
  | nil => simp [escapeQuotes]
  | cons c s =>
      by_cases h : c = q
      · subst h
        simp [escapeQuotes_cons_quote, hq.symm]
      · simp [escapeQuotes_cons_of_ne h, h]

/-- An escaped text is read back together with its closing quote. -/
theorem readLiteral_escapeQuotes (hq : q ≠ '\\') (hs : s.getLast? ≠ some '\\')
    (hrest : rest.head? ≠ some q) :
    readLiteral q (escapeQuotes q s ++ q :: rest) = ⟨s, escapeQuotes q s ++ [q], true⟩ := by
  induction s with
  | nil => exact readLiteral_close hrest
  | cons c s ih =>
      have htail : s.getLast? ≠ some '\\' := fun h =>
        hs (by rw [List.getLast?_cons, h, Option.getD_some])
      by_cases h : c = q
      · subst h
        simp only [escapeQuotes_cons_quote, List.cons_append]
        rw [readLiteral_escaped hq, ih htail]
        rfl
      · -- a backslash is not the last character, so no quote stands behind it
        have hplain : ¬ (c = '\\' ∧ (escapeQuotes q s ++ q :: rest).head? = some q) := by
          rw [head?_escapeQuotes_append hq]
          rintro ⟨rfl, rfl⟩
          exact hs rfl
        simp only [escapeQuotes_cons_of_ne h, List.cons_append]
        rw [readLiteral_cons h hplain, ih htail]
        rfl

/-! ## What a literal stands for -/

/-- A literal that does not start with its closing quote stands for some character. -/
theorem value_readLiteral_ne_nil {c : Char} (hc : c ≠ q) :
    (readLiteral q (c :: rest)).value ≠ [] := by
  cases rest with
  | nil => simp [readLiteral, hc]
  | cons d rest =>
      rw [readLiteral, if_neg hc]
      split_ifs <;> simp [Literal.push]

/-- A character put in front is the last one only of an empty text. -/
theorem getLast?_value_push {l : Literal} {c : Char} (hl : l.value.getLast? ≠ some '\\')
    (hc : l.value = [] → c ≠ '\\') : (l.push [c] source).value.getLast? ≠ some '\\' := by
  show (c :: l.value).getLast? ≠ some '\\'
  rw [List.getLast?_cons]
  cases hlast : l.value.getLast? with
  | none => simpa using hc (List.getLast?_eq_none_iff.mp hlast)
  | some d => simpa [hlast] using hl

/-- A literal that closes stands for no text that ends in a backslash. -/
theorem getLast?_value_readLiteral (hq : q ≠ '\\') (h : (readLiteral q rest).closed = true) :
    (readLiteral q rest).value.getLast? ≠ some '\\' := by
  fun_induction readLiteral q rest with
  | case1 => contradiction
  | case2 => simp
  | case3 => contradiction
  | case4 rest ih => exact getLast?_value_push (ih h) fun _ => hq
  | case5 => simp
  | case6 c d rest hc hescaped ih => exact getLast?_value_push (ih h) fun _ => hq
  | case7 c d rest hc hplain ih =>
      -- behind a backslash that stands for itself there is no quote to close the literal
      refine getLast?_value_push (ih h) fun hvalue hback => ?_
      have hd : d ≠ q := fun hd => hplain ⟨hback, hd⟩
      exact value_readLiteral_ne_nil hd hvalue

theorem Expresses.getLast?_ne (hq : q ≠ '\\') (h : Expresses q source s) :
    s.getLast? ≠ some '\\' := by
  have hclosed : (readLiteral q source.tail).closed = true := congrArg Literal.closed h
  have hvalue : (readLiteral q source.tail).value = s := congrArg Literal.value h
  rw [← hvalue]
  exact getLast?_value_readLiteral hq hclosed

/-! ## The two ways of writing a text -/

theorem expresses_escapeQuotes_iff (hq : q ≠ '\\') :
    Expresses q (q :: (escapeQuotes q s ++ [q])) s ↔ s.getLast? ≠ some '\\' :=
  ⟨fun h => h.getLast?_ne hq, fun h => readLiteral_escapeQuotes hq h (by simp)⟩

theorem expresses_doubleQuotes_iff (hq : q ≠ '\\') :
    Expresses q (q :: (doubleQuotes q s ++ [q])) s ↔ Doublable q s := by
  refine ⟨fun h => ?_, fun h => readLiteral_doubleQuotes h (by simp)⟩
  by_contra hs
  exact value_readLiteral_ne hq hs (congrArg Literal.value h)

/-- Literals express the texts that do not end in a backslash, and a backslash in
front of each quote is enough for all of these. Writing each quote twice is not: a
backslash in front of a quote then takes the first of the two for its own. -/
theorem expressible_iff (hq : q ≠ '\\') (s : List Char) :
    ((∃ source, Expresses q source s) ↔ s.getLast? ≠ some '\\') ∧
      (Expresses q (q :: (escapeQuotes q s ++ [q])) s ↔ s.getLast? ≠ some '\\') ∧
      (Expresses q (q :: (doubleQuotes q s ++ [q])) s ↔
        ¬ ['\\', q] <:+: s ∧ s.getLast? ≠ some '\\') := by
  have hescaped := expresses_escapeQuotes_iff (s := s) hq
  refine ⟨⟨?_, fun h => ⟨_, hescaped.mpr h⟩⟩, hescaped, expresses_doubleQuotes_iff hq⟩
  rintro ⟨source, h⟩
  exact h.getLast?_ne hq

/-- A backslash and a quote are expressed by one more backslash between them, not by
one more quote, and nothing expresses a backslash alone. -/
theorem expressible_iff_backslash_quote :
    '\'' ≠ '\\' ∧ Expresses '\'' ['\'', '\\', '\\', '\'', '\''] ['\\', '\''] ∧
      ¬ Expresses '\'' ['\'', '\\', '\'', '\'', '\''] ['\\', '\''] ∧
      ¬ ∃ source, Expresses '\'' source ['\\'] := by
  have hq : '\'' ≠ '\\' := by decide
  obtain ⟨-, hescaped, hdoubled⟩ := expressible_iff hq ['\\', '\'']
  obtain ⟨halone, -⟩ := expressible_iff hq ['\\']
  refine ⟨hq, hescaped.mpr (by decide), fun h => ?_, fun h => halone.mp h rfl⟩
  exact (hdoubled.mp h).1 List.infix_rfl

end FormLogic.Text
