import FormLogic.Evaluator
import FormLogic.Proofs.Text.Sigma

/-!
# FormLogic.Proofs.Widening

Ignoring letter case should only widen a match: an answer that holds a text holds it
in any letter case as well. It does so for the texts whose sigmas are settled, and
for no others (`widening_iff`), because the text and the answer are lower-cased apart
from each other and a sigma at the end of the text may stand inside a word of the
answer.
-/

namespace FormLogic

open Text

namespace Text

variable {x s : List Char}

theorem occursIn_iff : occursIn x s = true ↔ x <:+: s := by
  induction s with
  | nil => simp [occursIn]
  | cons c s ih => simp [occursIn, ih, List.infix_cons_iff]

/-- What holds a text whose sigmas are settled does so in small letters. -/
theorem occursIn_lowercase (h : SigmasSettled x) (hx : occursIn x s = true) :
    occursIn (lowercase x) (lowercase s) = true := by
  obtain ⟨u, v, rfl⟩ := occursIn_iff.mp hx
  rw [occursIn_iff, lowercase_eq (u ++ x ++ v), lowercaseBetween_append,
    lowercaseBetween_append, lowercaseBetween_of_settled h]
  exact ⟨_, _, rfl⟩

/-- What holds fewer of a character than a text does not hold the text. -/
theorem occursIn_of_count_lt {c : Char} (h : s.count c < x.count c) : occursIn x s = false := by
  rw [Bool.eq_false_iff]
  intro hx
  have hle := (occursIn_iff.mp hx).sublist.count_le c
  omega

end Text

variable {x : String}

theorem Value.containsIgnoringCase_of_containsText (h : SigmasSettled x.toList) {v : Value}
    (hv : v.containsText x = true) : v.containsIgnoringCase x = true := by
  obtain ⟨s, hs, hx⟩ := List.any_eq_true.mp hv
  refine List.any_eq_true.mpr ⟨s, hs, ?_⟩
  have hlower := occursIn_lowercase h hx
  simpa [Value.textContains, String.lowercase] using hlower

/-- A text with a sigma that is not settled stands in some answer that does not hold
it in small letters. -/
theorem Value.exists_containsText_of_not_settled (h : ¬ SigmasSettled x.toList) :
    ∃ v : Value, v.containsText x = true ∧ v.containsIgnoringCase x = false := by
  obtain ⟨t, c, hinfix, hcount⟩ := exists_count_lt_of_not_settled h
  refine ⟨.text (String.ofList t), ?_, ?_⟩
  · simpa [containsText, comparableTexts, textContains] using occursIn_iff.mpr hinfix
  · simpa [containsIgnoringCase, comparableTexts, textContains, String.lowercase] using
      occursIn_of_count_lt hcount

/-- Ignoring case only widens the matches of a text exactly when its sigmas are
settled: as a question to an answer, and as comparisons of a condition. -/
theorem widening_iff (x : String) :
    ((∀ v : Value, v.containsText x = true → v.containsIgnoringCase x = true) ↔
        SigmasSettled x.toList) ∧
      ((∀ (s : State) (name : String), (Condition.compare name .contains x).eval s = true →
          (Condition.compare name .icontains x).eval s = true ∧
            (Condition.compare name .noticontains x).eval s = false) ↔
        SigmasSettled x.toList) := by
  constructor
  · constructor
    · intro hwiden
      by_contra hsettled
      obtain ⟨v, hv, hnot⟩ := Value.exists_containsText_of_not_settled hsettled
      rw [hwiden v hv] at hnot
      contradiction
    · exact fun h v => Value.containsIgnoringCase_of_containsText h
  · constructor
    · intro hwiden
      by_contra hsettled
      obtain ⟨v, hv, hnot⟩ := Value.exists_containsText_of_not_settled hsettled
      have hget : (State.ofPairs [("v", v)]).get "v" = v := rfl
      have hicontains := (hwiden (.ofPairs [("v", v)]) "v" (by
        rw [Condition.eval, hget]
        exact hv)).1
      rw [Condition.eval, hget, CompareOp.holds, hnot] at hicontains
      contradiction
    · intro h s name hcontains
      have hignoring : (s.get name).containsIgnoringCase x = true :=
        Value.containsIgnoringCase_of_containsText h hcontains
      simp [Condition.eval, CompareOp.holds, hignoring]

/-- The start of a word up to a sigma stands in the word, and not in small letters. -/
theorem icontains_before_sigma :
    evaluateCondition "\x7bv\x7d contains 'ΟΔΥΣ'" (.ofPairs [("v", .text "ΟΔΥΣΣΕΑΣ")]) = true ∧
      evaluateCondition "\x7bv\x7d icontains 'ΟΔΥΣ'" (.ofPairs [("v", .text "ΟΔΥΣΣΕΑΣ")]) = false ∧
      evaluateCondition "\x7bv\x7d noticontains 'ΟΔΥΣ'" (.ofPairs [("v", .text "ΟΔΥΣΣΕΑΣ")]) = true ∧
      (Value.text "ΟΔΥΣΣΕΑΣ").containsText "ΟΔΥΣ" = true ∧
      (Value.text "ΟΔΥΣΣΕΑΣ").containsIgnoringCase "ΟΔΥΣ" = false := by
  decide +kernel

end FormLogic
