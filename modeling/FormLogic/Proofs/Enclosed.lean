import FormLogic.Proofs.Expr.Plain
import FormLogic.Proofs.Strict

/-!
# FormLogic.Proofs.Enclosed

Expressions with quotes around them, and plain texts. An expression in which
nothing is out of place is evaluated as it is read, whichever way of reading a
text the evaluator tries first: as it stands, unless it is one literal
(`parseValue_of_clean`), and from inside a pair of quotes that it does not hold
itself (`parseValue_wrapped`). A plain text is never read as an expression, so a
strict evaluator could do without looking for plain texts (`valueWith_never`).
-/

namespace FormLogic

open Text

/-! ## Pairs of quotes -/

/-- A mark that a literal may stand between. -/
def IsQuote (q : Char) : Prop := q = '\'' ∨ q = '"'

/-- A text that starts and ends with the same quote. -/
def Enclosed (s : List Char) : Prop :=
  ∃ q, IsQuote q ∧ s.head? = some q ∧ s.getLast? = some q

/-- A text between two quotes. -/
def wrapped (q : Char) (text : List Char) : List Char := q :: (text ++ [q])

variable {q : Char} {s inner : List Char}

theorem IsQuote.ne_backslash (hq : IsQuote q) : q ≠ '\\' := by
  rcases hq with rfl | rfl <;> decide

theorem IsQuote.isBlank_eq_false (hq : IsQuote q) : isBlank q = false := by
  rcases hq with rfl | rfl <;> rfl

theorem enclosed?_cons (c : Char) (s : List Char) :
    enclosed? (c :: s) =
      if (c = '\'' ∨ c = '"') ∧ (c :: s).getLast? = some c then some s.dropLast else none := rfl

theorem enclosed_cons {c : Char} :
    Enclosed (c :: s) ↔ (c = '\'' ∨ c = '"') ∧ (c :: s).getLast? = some c := by
  constructor
  · rintro ⟨_, hq, ⟨⟩, hlast⟩
    exact ⟨hq, hlast⟩
  · rintro ⟨hq, hlast⟩
    exact ⟨c, hq, rfl, hlast⟩

theorem enclosed?_eq_none_iff : enclosed? s = none ↔ ¬ Enclosed s := by
  cases s with
  | nil => simp [enclosed?, Enclosed]
  | cons c s =>
      rw [enclosed_cons, enclosed?_cons]
      simp

theorem getLast?_wrapped : (wrapped q inner).getLast? = some q := by
  rw [wrapped, ← List.cons_append, List.getLast?_concat]

theorem enclosed?_wrapped (hq : IsQuote q) : enclosed? (wrapped q inner) = some inner := by
  have hlast : (wrapped q inner).getLast? = some q := getLast?_wrapped
  rw [wrapped] at hlast ⊢
  rw [enclosed?_cons, if_pos ⟨hq, hlast⟩, List.dropLast_concat]

/-- What stands in quotes stands between two of them, but for a quote alone. -/
theorem eq_of_enclosed? (h : enclosed? s = some inner) :
    ∃ q, IsQuote q ∧ (s = [q] ∨ s = wrapped q inner) := by
  cases s with
  | nil => contradiction
  | cons q rest =>
      rw [enclosed?_cons] at h
      split_ifs at h with hquote
      obtain ⟨hq, hlast⟩ := hquote
      obtain rfl := Option.some.inj h
      refine ⟨q, hq, ?_⟩
      cases rest with
      | nil => exact .inl rfl
      | cons d rest =>
          rw [List.getLast?_cons_cons] at hlast
          rw [wrapped, List.dropLast_append_getLast? q hlast]
          exact .inr rfl

theorem trim_wrapped (hq : IsQuote q) : trim (wrapped q inner) = wrapped q inner := by
  refine trim_eq_self ?_ ?_
  · rintro _ ⟨⟩
    exact hq.isBlank_eq_false
  · rw [getLast?_wrapped]
    rintro _ ⟨⟩
    exact hq.isBlank_eq_false

/-! ## Reading what stands in quotes -/

/-- A backslash at the end of a text takes the quote behind it for its own. -/
theorem closed_readLiteral_eq_false (hq : IsQuote q) (hs : q ∉ s) (hend : s.getLast? = some '\\') :
    (readLiteral q (s ++ [q])).closed = false := by
  induction s with
  | nil => contradiction
  | cons c s ih =>
      have hc : c ≠ q := fun hc => hs (by simp [hc])
      cases s with
      | nil =>
          obtain rfl : c = '\\' := Option.some.inj hend
          show (readLiteral q ['\\', q]).closed = false
          rw [readLiteral_escaped hq.ne_backslash]
          rfl
      | cons d s =>
          have hd : d ≠ q := fun hd => hs (by simp [hd])
          rw [List.getLast?_cons_cons] at hend
          have htail := ih (fun h => hs (List.mem_cons_of_mem c h)) hend
          show (readLiteral q (c :: d :: (s ++ [q]))).closed = false
          rw [readLiteral_cons hc (by simp [hd])]
          exact htail

namespace Expr

open Grammar

theorem nextPiece_isQuote (hq : IsQuote q) (rest : List Char) :
    nextPiece q rest = literalPiece Kind.text q rest := by
  rcases hq with rfl | rfl <;> rfl

/-- A text between quotes that it does not hold is one literal. -/
theorem parseExpr_wrapped (hq : IsQuote q) (hs : q ∉ s) (hend : s.getLast? ≠ some '\\')
    (strict : Bool) :
    parseExpr (String.ofList (wrapped q s)) strict = .ok ⟨.text (String.ofList s), []⟩ := by
  have hspells : Spells nextPiece (wrapped q s) [] [.text (String.ofList s)] := by
    have hx : Doublable q (String.ofList s).toList := by
      rw [String.toList_ofList]
      exact doublable_of_not_mem hs hend
    have h := spells_literal (nextPiece_isQuote hq) hx (by simp : ([] : List Char).head? ≠ some q)
    rwa [String.toList_ofList, doubleQuotes_of_not_mem hs] at h
  obtain ⟨hkinds, hfaults⟩ := hspells
  rw [List.append_nil] at hkinds hfaults
  rw [parseExpr_clean, String.toList_ofList, hkinds, hfaults]
  refine ⟨⟨⟨0, ?_⟩, ?_⟩, rfl⟩
  · exact .single (.simple .text)
  · exact shallow_singleton (by simp) (by simp)

/-- A quote that is not closed is out of place. -/
theorem faultsOf_cut_quote (hq : IsQuote q) {rest : List Char}
    (hopen : (readLiteral q rest).closed = false) : faultsOf (cut nextPiece (q :: rest)) ≠ [] := by
  rw [cut_cons, nextPiece_isQuote hq, faultsOf, List.filterMap_cons_some (b := .unterminatedString)]
  · exact List.cons_ne_nil _ _
  · rw [literalPiece, hopen]
    rfl

/-- Where a text without quotes is one literal in its quotes, the literal stands
for the text. -/
theorem eq_of_parseExpr_enclosed (h : enclosed? s = some inner)
    (hquotes : ∀ q, IsQuote q → q ∉ inner) {strict : Bool} {e : Expr}
    (hp : parseExpr (String.ofList s) strict = .ok ⟨e, []⟩) : e = .text (String.ofList inner) := by
  have hclean := (parseExpr_clean.mp hp).2
  rw [String.toList_ofList] at hclean
  obtain ⟨q, hq, rfl | rfl⟩ := eq_of_enclosed? h
  · exact absurd hclean (faultsOf_cut_quote hq rfl)
  · by_cases hend : inner.getLast? = some '\\'
    · have hopen := closed_readLiteral_eq_false hq (hquotes q hq) hend
      exact absurd hclean (faultsOf_cut_quote hq hopen)
    · have hliteral := parseExpr_wrapped hq (hquotes q hq) hend strict
      rw [hp, Except.ok.injEq, Parsed.mk.injEq] at hliteral
      exact hliteral.1

end Expr

namespace Evaluator

/-! ## Expressions in quotes -/

variable {expr : String} {tree : Expr}

/-- An expression in which nothing is out of place is no plain text, and either
mode reads it. -/
theorem parseUnquoted_of_clean (h : parseExpr (String.ofList s) false = .ok ⟨tree, []⟩)
    (ev : Evaluator) : parseUnquoted ev s = .ok ⟨tree, []⟩ := by
  have hplain := Expr.not_isPlain_of_clean h
  rw [String.toList_ofList] at hplain
  rw [parseUnquoted, hplain, if_neg (by simp)]
  exact Expr.parseExpr_clean.mpr (Expr.parseExpr_clean.mp h)

/-- A text that is no plain text is read as it stands, unless it is one literal in its
quotes. -/
theorem parseValue_of_parseExpr {ev : Evaluator} {p : Parsed Expr}
    (h : parseExpr (String.ofList (trim expr.toList)) ev.strict = .ok p)
    (hplain : isPlain (trim expr.toList) = false)
    (hwhole : ¬ p.IsLiteral ∨ ¬ Enclosed (trim expr.toList)) : parseValue ev expr = .ok p := by
  cases henclosed : enclosed? (trim expr.toList) with
  | none =>
      rw [parseValue_of_not_enclosed henclosed, parseUnquoted, hplain, if_neg (by simp)]
      exact h
  | some inner =>
      refine (parseValue_eq_ok henclosed).mpr (.inl ⟨h, fun hliteral => ?_⟩)
      rcases hwhole with hnot | hnot
      · exact absurd hliteral hnot
      · rw [enclosed?_eq_none_iff.mpr hnot] at henclosed
        contradiction

/-- An expression in which nothing is out of place is read as it stands, unless it is
one literal in its quotes. -/
theorem parseValue_of_clean (h : parseExpr expr false = .ok ⟨tree, []⟩)
    (hwhole : (∀ x, tree ≠ .text x) ∨ ¬ Enclosed (trim expr.toList)) (ev : Evaluator) :
    parseValue ev expr = .ok ⟨tree, []⟩ := by
  have hplain := Expr.not_isPlain_of_clean (Expr.parseExpr_trim h false)
  rw [String.toList_ofList] at hplain
  have hliteral : (∀ x, tree ≠ .text x) → ¬ Parsed.IsLiteral ⟨tree, []⟩ := fun hne ⟨x, hx⟩ =>
    hne x hx
  exact parseValue_of_parseExpr (Expr.parseExpr_trim h ev.strict) hplain (hwhole.imp_left hliteral)

/-- Between quotes that it does not hold, an expression is read from inside, for
the whole is one literal. -/
theorem parseValue_wrapped (h : parseExpr expr false = .ok ⟨tree, []⟩) (hq : IsQuote q)
    (hmem : q ∉ expr.toList) (ev : Evaluator) :
    parseValue ev (String.ofList (wrapped q expr.toList)) = .ok ⟨tree, []⟩ := by
  have henclosed : enclosed? (trim (String.ofList (wrapped q expr.toList)).toList) =
      some expr.toList := by
    rw [String.toList_ofList, trim_wrapped hq, enclosed?_wrapped hq]
  have hinner : parseUnquoted ev expr.toList = .ok ⟨tree, []⟩ :=
    parseUnquoted_of_clean (by rwa [String.ofList_toList]) ev
  have hend := Expr.getLast?_ne_backslash (Expr.parseExpr_clean.mp h).2
  have hliteral := Expr.parseExpr_wrapped hq hmem hend ev.strict
  refine (parseValue_eq_ok henclosed).mpr (.inr ⟨hinner, fun p hp => ?_⟩)
  rw [String.toList_ofList, trim_wrapped hq, hliteral] at hp
  obtain rfl := Except.ok.inj hp
  exact ⟨_, rfl⟩

/-- An expression in which nothing is out of place is evaluated as it is read, in
either mode, and quotes around it that it does not hold make no difference. One
literal in its quotes is another matter: its inside may be an expression. -/
theorem value?_of_clean (h : parseExpr expr false = .ok ⟨tree, []⟩)
    (hwhole : (∀ x, tree ≠ .text x) ∨ ¬ Enclosed (trim expr.toList)) (ev : Evaluator) (s : State) :
    ev.value? expr s = .ok (tree.eval s).topLevel ∧
      ∀ q, IsQuote q → q ∉ expr.toList →
        ev.value? (String.ofList (wrapped q expr.toList)) s = ev.value? expr s := by
  have hvalue : ev.value? expr s = .ok (tree.eval s).topLevel :=
    map_eq_ok.mpr ⟨_, parseValue_of_clean h hwhole ev, rfl⟩
  refine ⟨hvalue, fun q hq hmem => ?_⟩
  rw [hvalue]
  exact map_eq_ok.mpr ⟨_, parseValue_wrapped h hq hmem ev, rfl⟩

/-- Quotes of the other kind stand around the whole, and it is still joined. -/
theorem value?_of_clean_joined :
    parseExpr "'Hi ' + \x7bfirst\x7d + '!'" false =
        .ok ⟨.concat [.text "Hi ", .var (.ofText "first"), .text "!"], []⟩ ∧
      IsQuote '"' ∧ '"' ∉ "'Hi ' + \x7bfirst\x7d + '!'".toList ∧
      value? ⟨true⟩ "\"'Hi ' + \x7bfirst\x7d + '!'\"" (.ofPairs [("first", .text "Ada")]) =
        .ok (.text "Hi Ada!") := by
  have hread : parseExpr "'Hi ' + \x7bfirst\x7d + '!'" false =
      .ok ⟨.concat [.text "Hi ", .var (.ofText "first"), .text "!"], []⟩ := by decide +kernel
  have hquote : IsQuote '"' := .inr rfl
  have hmem : '"' ∉ "'Hi ' + \x7bfirst\x7d + '!'".toList := by decide
  obtain ⟨hvalue, hwrapped⟩ :=
    value?_of_clean hread (.inl nofun) ⟨true⟩ (.ofPairs [("first", .text "Ada")])
  exact ⟨hread, hquote, hmem, ((hwrapped '"' hquote hmem).trans hvalue).trans (by decide +kernel)⟩

/-! ## Plain texts -/

/-- Read a text that is not enclosed in quotes, where `plain` tells which texts
stand for themselves. -/
def parseUnquotedWith (plain : List Char → Bool) (ev : Evaluator) (text : List Char) :
    Except SourceFault (Parsed Expr) :=
  if plain text then .ok ⟨.text (String.ofList text), []⟩
  else parseExpr (String.ofList text) ev.strict

/-- Read a value expression, where `plain` tells which texts stand for
themselves. -/
def parseValueWith (plain : List Char → Bool) (ev : Evaluator) (expr : String) :
    Except SourceFault (Parsed Expr) :=
  let trimmed := trim expr.toList
  match enclosed? trimmed with
  | none => ev.parseUnquotedWith plain trimmed
  | some inner =>
    match parseExpr (String.ofList trimmed) ev.strict with
    | .ok parsed =>
      match parsed.tree with
      | .text _ =>
        match ev.parseUnquotedWith plain inner with
        | .ok inside => .ok inside
        | .error _ => .ok parsed
      | _ => .ok parsed
    | .error _ => ev.parseUnquotedWith plain inner

/-- The answer of a value expression, where `plain` tells which texts stand for
themselves. -/
def valueWith (plain : List Char → Bool) (ev : Evaluator) (expr : String) (s : State) : Value :=
  match (ev.parseValueWith plain expr).map fun parsed => (parsed.tree.eval s).topLevel with
  | .ok v => v
  | .error _ => .text (passedThrough expr)

theorem parseValueWith_isPlain : parseValueWith isPlain = parseValue := rfl

theorem valueWith_isPlain : valueWith isPlain = value := rfl

/-- Where a plain text in quotes is one literal, the literal stands for it. -/
theorem eq_of_isPlain_enclosed (h : enclosed? s = some inner) (hplain : isPlain inner = true)
    {x : String} {as : List Anomaly} (hp : parseExpr (String.ofList s) true = .ok ⟨.text x, as⟩) :
    x = String.ofList inner := by
  have hquotes : ∀ q, IsQuote q → q ∉ inner := by
    rintro q (rfl | rfl) hmem
    · exact absurd (by decide) (Expr.not_mem_marks_of_isPlain hplain _ hmem)
    · exact absurd (by decide) (Expr.not_mem_marks_of_isPlain hplain _ hmem)
  obtain rfl : as = [] := (parseExpr_strict.mp hp).2
  exact Expr.text.inj (Expr.eq_of_parseExpr_enclosed h hquotes hp)

theorem parseUnquotedWith_of_isPlain {text : List Char} (h : isPlain text = true)
    (ev : Evaluator) :
    parseUnquotedWith isPlain ev text = .ok ⟨.text (String.ofList text), []⟩ := by
  rw [parseUnquotedWith, if_pos h]

theorem parseUnquotedWith_of_not_isPlain {text : List Char} (h : isPlain text = false)
    (ev : Evaluator) :
    parseUnquotedWith (fun _ => false) ev text = parseUnquotedWith isPlain ev text := by
  rw [parseUnquotedWith, parseUnquotedWith, h]

/-- A plain text cannot be read strictly. -/
theorem parseExpr_of_isPlain {source : String} (h : isPlain source.toList = true) :
    ∃ fault, parseExpr source true = .error fault := by
  cases hp : parseExpr source true with
  | error fault => exact ⟨fault, rfl⟩
  | ok p => exact absurd (parseExpr_strict.mp hp).2 (Expr.eq_bool_of_isPlain h hp).2

theorem parseUnquotedWith_never {text : List Char} (h : isPlain text = true) :
    ∃ fault, parseUnquotedWith (fun _ => false) ⟨true⟩ text = .error fault := by
  rw [parseUnquotedWith, if_neg (by simp)]
  exact parseExpr_of_isPlain (by rwa [String.toList_ofList])

/-- Without looking for plain texts, a strict evaluator reads a text as it does
with it, or fails where the text was to stand for itself. -/
theorem parseValueWith_never (expr : String) :
    parseValueWith (fun _ => false) ⟨true⟩ expr = parseValue ⟨true⟩ expr ∨
      parseValue ⟨true⟩ expr = .ok ⟨.text (passedThrough expr), []⟩ ∧
        ∃ fault, parseValueWith (fun _ => false) ⟨true⟩ expr = .error fault := by
  rw [← parseValueWith_isPlain]
  unfold parseValueWith passedThrough
  cases henclosed : enclosed? (trim expr.toList) with
  | none =>
      simp only [henclosed, Option.getD_none]
      cases hplain : isPlain (trim expr.toList) with
      | false => exact .inl (parseUnquotedWith_of_not_isPlain hplain ⟨true⟩)
      | true =>
          exact .inr ⟨parseUnquotedWith_of_isPlain hplain ⟨true⟩, parseUnquotedWith_never hplain⟩
  | some inner =>
      simp only [henclosed, Option.getD_some]
      cases hplain : isPlain inner with
      | false =>
          left
          simp only [parseUnquotedWith_of_not_isPlain hplain]
      | true =>
          obtain ⟨fault, hnever⟩ := parseUnquotedWith_never hplain
          have hitself := parseUnquotedWith_of_isPlain hplain ⟨true⟩
          -- the inside cannot be read, so only one literal as it stands is left to compare
          cases hwhole : parseExpr (String.ofList (trim expr.toList)) true with
          | error => exact .inr ⟨hitself, fault, hnever⟩
          | ok p =>
              obtain ⟨tree, as⟩ := p
              left
              cases tree with
              | text x =>
                  obtain rfl := eq_of_isPlain_enclosed henclosed hplain hwhole
                  obtain rfl : as = [] := (parseExpr_strict.mp hwhole).2
                  simp only [hnever, hitself]
              | bool | var | concat | ifElse | replaceAll => rfl

/-- A strict evaluator could do without looking for plain texts: what it fails to
read stands for its own text. -/
theorem valueWith_never (expr : String) (s : State) :
    valueWith (fun _ => false) ⟨true⟩ expr s = value ⟨true⟩ expr s := by
  unfold valueWith value value?
  rcases parseValueWith_never expr with hsame | ⟨hitself, fault, hfault⟩
  · cases hread : parseValue ⟨true⟩ expr with
    | error => simp [hsame, hread, Except.map]
    | ok p => simp [hsame, hread, Except.map]
  · simp [hitself, hfault, Except.map, Expr.eval, Value.topLevel]

/-- The look for plain texts hides no expression: strictly, a plain text is none,
and leniently it is at most a boolean with something out of place beside it. A
strict evaluator gives the same without that look. -/
theorem isPlain_hides_nothing :
    (∀ source : String, isPlain source.toList = true →
      (∃ fault, parseExpr source true = .error fault) ∧
      ((∃ fault, parseExpr source false = .error fault) ∨
        ∃ b as, as ≠ [] ∧ parseExpr source false = .ok ⟨.bool b, as⟩)) ∧
    ∀ expr s, valueWith (fun _ => false) ⟨true⟩ expr s = value ⟨true⟩ expr s := by
  refine ⟨fun source hplain => ⟨parseExpr_of_isPlain hplain, ?_⟩, valueWith_never⟩
  cases hp : parseExpr source false with
  | error fault => exact .inl ⟨fault, rfl⟩
  | ok p =>
      obtain ⟨tree, as⟩ := p
      obtain ⟨⟨b, rfl⟩, hskipped⟩ := Expr.eq_bool_of_isPlain hplain hp
      exact .inr ⟨b, as, hskipped, rfl⟩

/-- The boolean with something out of place beside it. -/
theorem isPlain_hides_nothing_bool :
    isPlain "true!".toList = true ∧
      (∃ fault, parseExpr "true!" true = .error fault) ∧
      (∃ b as, as ≠ [] ∧ parseExpr "true!" false = .ok ⟨.bool b, as⟩) ∧
      valueWith (fun _ => false) ⟨true⟩ "true!" .empty = .text "true!" := by
  have hplain : isPlain "true!".toList = true := by decide +kernel
  obtain ⟨hstrict, hlenient⟩ := isPlain_hides_nothing.1 "true!" hplain
  have hvalue := isPlain_hides_nothing.2 "true!" .empty
  refine ⟨hplain, hstrict, ?_, hvalue.trans (by decide +kernel)⟩
  rcases hlenient with ⟨fault, hfault⟩ | hbool
  · have hread : (parseExpr "true!" false).isOk = true := by decide +kernel
    rw [hfault] at hread
    contradiction
  · exact hbool

end Evaluator

end FormLogic
