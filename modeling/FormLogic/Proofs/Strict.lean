import FormLogic.Proofs.Evaluator
import Mathlib.Tactic.Common

/-!
# FormLogic.Proofs.Strict

A strict reading against a lenient one. Strictness refuses what a lenient
reading skips, so a text that is read in one way only is read strictly as it is
read leniently, or not at all (`condition?_of_strict`). A text in quotes can be read
in two ways, as it stands and without the quotes (`parseValue_eq_ok`). There a
refusal can leave the other way open, and what was to be refused is `Masked` by
it: then, and only then, both modes read the text and read it differently.
-/

namespace FormLogic

open Text

/-- A reading that is one literal. -/
def Parsed.IsLiteral (p : Parsed Expr) : Prop := ∃ x, p.tree = .text x

/-! ## One way of reading -/

theorem parseExpr_strict {source : String} {p : Parsed Expr} :
    parseExpr source true = .ok p ↔ parseExpr source false = .ok p ∧ p.anomalies = [] :=
  parseWith_strict

namespace Evaluator

/-- A condition is read in one way only, so strictness only turns truths into
failures. -/
theorem condition?_of_strict {expr : String} {s : State} {b : Bool}
    (h : condition? ⟨true⟩ expr s = .ok b) : condition? ⟨false⟩ expr s = .ok b := by
  obtain ⟨p, hp, hb⟩ := map_eq_ok.mp h
  exact map_eq_ok.mpr ⟨p, (parseWith_strict.mp hp).1, hb⟩

theorem parseUnquoted_strict {text : List Char} {p : Parsed Expr} :
    parseUnquoted ⟨true⟩ text = .ok p ↔
      parseUnquoted ⟨false⟩ text = .ok p ∧ p.anomalies = [] := by
  unfold parseUnquoted
  split
  · constructor
    · rintro ⟨⟩
      exact ⟨rfl, rfl⟩
    · exact fun h => h.1
  · exact parseExpr_strict

/-! ## Two ways of reading -/

/-- A text in quotes is read as it stands unless that is one literal whose inside
can be read; the inside is read when there is no better reading of the whole. -/
theorem parseValue_eq_ok {strict : Bool} {expr : String} {inner : List Char}
    (h : enclosed? (trim expr.toList) = some inner) {p : Parsed Expr} :
    parseValue ⟨strict⟩ expr = .ok p ↔
      parseExpr (String.ofList (trim expr.toList)) strict = .ok p ∧
          (p.IsLiteral → ∀ q, parseUnquoted ⟨strict⟩ inner ≠ .ok q) ∨
        parseUnquoted ⟨strict⟩ inner = .ok p ∧
          ∀ q, parseExpr (String.ofList (trim expr.toList)) strict = .ok q → q.IsLiteral := by
  unfold parseValue
  simp only [h]
  cases hwhole : parseExpr (String.ofList (trim expr.toList)) strict with
  | error e => simp
  | ok whole =>
      obtain ⟨tree, as⟩ := whole
      cases tree with
      | text x =>
          have hliteral : Parsed.IsLiteral ⟨.text x, as⟩ := ⟨x, rfl⟩
          cases hinner : parseUnquoted ⟨strict⟩ inner with
          | error e => simp
          | ok inside =>
              simp only [Except.ok.injEq, forall_eq']
              constructor
              · rintro rfl
                exact .inr ⟨rfl, hliteral⟩
              · rintro (⟨rfl, hnot⟩ | ⟨rfl, -⟩)
                · exact absurd rfl (hnot hliteral inside)
                · rfl
      | bool | var | concat | ifElse | replaceAll =>
          simp only [Except.ok.injEq, forall_eq']
          constructor
          · rintro rfl
            exact .inl ⟨rfl, fun ⟨x, hx⟩ => by contradiction⟩
          · rintro (⟨rfl, -⟩ | ⟨-, x, hx⟩)
            · rfl
            · contradiction

/-- Where refusing what is skipped leaves another reading open: the whole text is
refused and its inside is not, or the other way round, and a lenient reading
takes the one that is refused. -/
inductive Masked (expr : String) : Prop
  /-- The whole text is refused, and what stands inside the quotes is read. -/
  | outside {inner : List Char} {whole inside : Parsed Expr} :
      enclosed? (trim expr.toList) = some inner →
      parseExpr (String.ofList (trim expr.toList)) false = .ok whole →
      parseUnquoted ⟨false⟩ inner = .ok inside →
      ¬ whole.IsLiteral → whole.anomalies ≠ [] → inside.anomalies = [] → Masked expr
  /-- What stands inside the quotes is refused, and the whole is one literal. -/
  | inside {inner : List Char} {whole inside : Parsed Expr} :
      enclosed? (trim expr.toList) = some inner →
      parseExpr (String.ofList (trim expr.toList)) false = .ok whole →
      parseUnquoted ⟨false⟩ inner = .ok inside →
      whole.IsLiteral → whole.anomalies = [] → inside.anomalies ≠ [] → Masked expr

theorem parseValue_of_not_enclosed {ev : Evaluator} {expr : String}
    (h : enclosed? (trim expr.toList) = none) :
    parseValue ev expr = parseUnquoted ev (trim expr.toList) := by
  unfold parseValue
  simp only [h]

/-- A masked text is read in both modes, and not in the same way. -/
theorem Masked.exists_ne {expr : String} (h : Masked expr) :
    ∃ p q, parseValue ⟨true⟩ expr = .ok p ∧
      parseValue ⟨false⟩ expr = .ok q ∧ p ≠ q := by
  cases h with
  | @outside inner whole inside henclosed hwhole hinside hliteral hskipped hclean =>
      have hstrict := parseUnquoted_strict.mpr ⟨hinside, hclean⟩
      refine ⟨inside, whole, (parseValue_eq_ok henclosed).mpr (.inr ⟨hstrict, fun q hq => ?_⟩),
        (parseValue_eq_ok henclosed).mpr (.inl ⟨hwhole, fun hl => absurd hl hliteral⟩), ?_⟩
      · obtain ⟨hq, hnone⟩ := parseExpr_strict.mp hq
        obtain rfl := Except.ok.inj (hwhole.symm.trans hq)
        exact absurd hnone hskipped
      · rintro rfl
        exact hskipped hclean
  | @inside inner whole inside henclosed hwhole hinside hliteral hclean hskipped =>
      have hstrict := parseExpr_strict.mpr ⟨hwhole, hclean⟩
      refine ⟨whole, inside, (parseValue_eq_ok henclosed).mpr (.inl ⟨hstrict, fun _ q hq => ?_⟩),
        (parseValue_eq_ok henclosed).mpr (.inr ⟨hinside, fun q hq => ?_⟩), ?_⟩
      · obtain ⟨hq, hnone⟩ := parseUnquoted_strict.mp hq
        obtain rfl := Except.ok.inj (hinside.symm.trans hq)
        exact absurd hnone hskipped
      · obtain rfl := Except.ok.inj (hwhole.symm.trans hq)
        exact hliteral
      · rintro rfl
        exact hskipped hclean

/-- What a strict reading gives is what a lenient reading gives, unless the text is
masked. -/
theorem parseValue_of_strict {expr : String} (hmasked : ¬ Masked expr) {p : Parsed Expr}
    (h : parseValue ⟨true⟩ expr = .ok p) :
    parseValue ⟨false⟩ expr = .ok p := by
  cases henclosed : enclosed? (trim expr.toList) with
  | none =>
      rw [parseValue_of_not_enclosed henclosed] at h ⊢
      exact (parseUnquoted_strict.mp h).1
  | some inner =>
      rw [parseValue_eq_ok henclosed] at h ⊢
      rcases h with ⟨hwhole, hinner⟩ | ⟨hinner, hwhole⟩
      · obtain ⟨hwhole, hclean⟩ := parseExpr_strict.mp hwhole
        refine .inl ⟨hwhole, fun hliteral q hq => ?_⟩
        have hskipped : q.anomalies ≠ [] := fun hnone =>
          hinner hliteral q (parseUnquoted_strict.mpr ⟨hq, hnone⟩)
        exact hmasked (.inside henclosed hwhole hq hliteral hclean hskipped)
      · obtain ⟨hinner, hclean⟩ := parseUnquoted_strict.mp hinner
        refine .inr ⟨hinner, fun q hq => ?_⟩
        by_contra hliteral
        have hskipped : q.anomalies ≠ [] := fun hnone =>
          hliteral (hwhole q (parseExpr_strict.mpr ⟨hq, hnone⟩))
        exact hmasked (.outside henclosed hq hinner hliteral hskipped hclean)

/-- Strictness only turns values into failures, except for a text that is masked;
that one is read in both modes, and differently. -/
theorem strict_restricts_iff (expr : String) :
    ((∀ p, parseValue ⟨true⟩ expr = .ok p →
        parseValue ⟨false⟩ expr = .ok p) ↔ ¬ Masked expr) ∧
      (Masked expr ∨ ∀ s v, value? ⟨true⟩ expr s = .ok v →
        value? ⟨false⟩ expr s = .ok v) := by
  constructor
  · constructor
    · intro h hmasked
      obtain ⟨p, q, hp, hq, hne⟩ := hmasked.exists_ne
      exact hne (Except.ok.inj ((h p hp).symm.trans hq))
    · exact fun hmasked _ => parseValue_of_strict hmasked
  · by_cases hmasked : Masked expr
    · exact .inl hmasked
    · refine .inr fun s v h => ?_
      obtain ⟨p, hp, hv⟩ := map_eq_ok.mp h
      exact map_eq_ok.mpr ⟨p, parseValue_of_strict hmasked hp, hv⟩

/-- What stands between two literals is skipped by a lenient reading. A strict
reading refuses it and then takes the quotes at both ends for a pair, so it gives
another value where it should give none. -/
theorem value?_between_literals :
    value? ⟨true⟩ "'\"' ; + '\"'" .empty = .ok (.text "' ; + '") ∧
      value? ⟨false⟩ "'\"' ; + '\"'" .empty = .ok (.text "\"\"") := by
  constructor
  · decide +kernel
  · decide +kernel

end Evaluator

end FormLogic
