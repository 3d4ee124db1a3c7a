import FormLogic.Text.Case
import Mathlib.Data.List.Basic

/-!
# FormLogic.Proofs.Text.Sigma

Lower-casing a text inside another one. Only a capital sigma looks at what stands
around it, and only as far as the first character on each side that is not
case-ignorable. A sigma is settled when the text itself holds enough of these; a
text whose sigmas are settled has the same small letters wherever it stands
(`lowercaseBetween_of_settled`). One letter in front or behind changes the others,
and only in one direction, so that the letters it takes away can be counted
(`count_lowercaseBetween_lt`).
-/

namespace FormLogic.Text

/-! ## The context of a sigma -/

/-- Whether the first character that the casing context does not look past is
cased, if there is one. -/
def caseAhead? (s : List Char) : Option Bool :=
  (s.dropWhile isCaseIgnorable).head?.map isCased

theorem startsCased_eq (s : List Char) : startsCased s = (caseAhead? s).getD false := by
  unfold startsCased caseAhead?
  cases s.dropWhile isCaseIgnorable <;> rfl

theorem caseAhead?_append (s t : List Char) :
    caseAhead? (s ++ t) = (caseAhead? s).or (caseAhead? t) := by
  unfold caseAhead?
  rw [List.dropWhile_append]
  cases s.dropWhile isCaseIgnorable <;> rfl

/-- The small letter of a sigma between two texts, the one before it in reverse. -/
def sigmaForm (before behind : List Char) : Char :=
  if startsCased before && !startsCased behind then 'ς' else 'σ'

theorem sigmaForm_eq (before behind : List Char) :
    sigmaForm before behind =
      if (caseAhead? before).getD false && !(caseAhead? behind).getD false then 'ς' else 'σ' := by
  rw [sigmaForm, startsCased_eq, startsCased_eq]

/-- The text around a sigma holds enough to tell its small letter: a character that
is not cased before it, one that is cased behind it, or any on both sides. -/
def SigmaSettled (before behind : List Char) : Prop :=
  caseAhead? before = some false ∨ caseAhead? behind = some true ∨
    (caseAhead? before).isSome ∧ (caseAhead? behind).isSome

/-- More text on both sides does not change a sigma that is settled. -/
theorem sigmaForm_append {before behind : List Char} (h : SigmaSettled before behind)
    (u v : List Char) : sigmaForm (before ++ u) (behind ++ v) = sigmaForm before behind := by
  simp only [sigmaForm_eq, caseAhead?_append]
  rcases h with hbefore | hbehind | ⟨hbefore, hbehind⟩
  · rw [hbefore]
    rfl
  · rw [hbehind]
    simp
  · obtain ⟨b, hb⟩ := Option.isSome_iff_exists.mp hbefore
    obtain ⟨d, hd⟩ := Option.isSome_iff_exists.mp hbehind
    rw [hb, hd]
    rfl

/-! ## Lower-casing between two texts -/

/-- Lower-case a text that stands between `before`, which is held in reverse, and
`behind`. -/
def lowercaseBetween (before s behind : List Char) : List Char :=
  match s with
  | [] => []
  | c :: rest =>
    (if c = 'Σ' then [sigmaForm before (rest ++ behind)] else lowercaseChar c) ++
      lowercaseBetween (c :: before) rest behind

theorem lowercaseBetween_cons (before : List Char) (c : Char) (rest behind : List Char) :
    lowercaseBetween before (c :: rest) behind =
      (if c = 'Σ' then [sigmaForm before (rest ++ behind)] else lowercaseChar c) ++
        lowercaseBetween (c :: before) rest behind := rfl

theorem lowercaseBetween_nil (before s : List Char) :
    lowercaseBetween before s [] = lowercaseAfter before s := by
  induction s generalizing before with
  | nil => rfl
  | cons c rest ih =>
      rw [lowercaseBetween_cons, ih, List.append_nil]
      rfl

theorem lowercase_eq (s : List Char) : lowercase s = lowercaseBetween [] s [] :=
  (lowercaseBetween_nil [] s).symm

theorem lowercaseBetween_append (before s t behind : List Char) :
    lowercaseBetween before (s ++ t) behind =
      lowercaseBetween before s (t ++ behind) ++
        lowercaseBetween (s.reverse ++ before) t behind := by
  induction s generalizing before with
  | nil => rfl
  | cons c rest ih =>
      rw [List.cons_append, lowercaseBetween_cons, ih, lowercaseBetween_cons, List.append_assoc,
        List.append_assoc, List.reverse_cons, List.append_assoc]
      rfl

/-- The text itself settles the small letter of each of its sigmas. -/
def SigmasSettled (s : List Char) : Prop :=
  ∀ before behind, s = before ++ 'Σ' :: behind → SigmaSettled before.reverse behind

/-- A text whose sigmas are settled is lower-cased as it is alone. -/
theorem lowercaseBetween_of_settled {s : List Char} (h : SigmasSettled s) (u v : List Char) :
    lowercaseBetween u s v = lowercase s := by
  -- `done` is the part of the text that is already lower-cased, in reverse
  have hrest : ∀ rest done : List Char, done.reverse ++ rest = s →
      lowercaseBetween (done ++ u) rest v = lowercaseAfter done rest := by
    intro rest
    induction rest with
    | nil => exact fun _ _ => rfl
    | cons c rest ih =>
        intro done hs
        have hih := ih (c :: done) (by simpa using hs)
        rw [lowercaseBetween_cons, ← List.cons_append, hih]
        by_cases hc : c = 'Σ'
        · have hsettled := h done.reverse rest (by rw [← hs, hc])
          rw [List.reverse_reverse] at hsettled
          rw [if_pos hc, sigmaForm_append hsettled, lowercaseAfter, if_pos hc, sigmaForm]
        · rw [if_neg hc, lowercaseAfter, if_neg hc]
  exact hrest s [] rfl

/-! ## Sigmas that are not settled -/

/-- A sigma that is not settled would be written otherwise behind a letter, or it
ends a word and would not in front of a letter. -/
theorem exists_of_not_settled {s : List Char} (h : ¬ SigmasSettled s) :
    ∃ before behind, s = before ++ 'Σ' :: behind ∧
      (caseAhead? before.reverse = none ∧ caseAhead? behind ≠ some true ∨
        caseAhead? before.reverse = some true ∧ caseAhead? behind = none) := by
  unfold SigmasSettled at h
  push Not at h
  obtain ⟨before, behind, hs, hsettled⟩ := h
  refine ⟨before, behind, hs, ?_⟩
  unfold SigmaSettled at hsettled
  revert hsettled
  cases caseAhead? before.reverse with
  | none => cases caseAhead? behind <;> simp
  | some b =>
      cases b with
      | false => simp
      | true => cases caseAhead? behind <;> simp

theorem count_singleton_le {x c c' : Char} (h : c' = x → c = x) : [c'].count x ≤ [c].count x := by
  by_cases hc : c' = x
  · exact Nat.le_of_eq (by rw [hc, h hc])
  · have hnone : [c'].count x = 0 := List.count_eq_zero.mpr (by simpa [eq_comm] using hc)
    omega

section
variable {x : Char} {d d' v v' : List Char}
  (h : ∀ p q, sigmaForm (p ++ d') (q ++ v') = x → sigmaForm (p ++ d) (q ++ v) = x)
include h

/-- In a context that makes no sigma an `x`, there are no more of them. -/
theorem count_lowercaseBetween_le (p s q : List Char) :
    (lowercaseBetween (p ++ d') s (q ++ v')).count x ≤
      (lowercaseBetween (p ++ d) s (q ++ v)).count x := by
  induction s generalizing p with
  | nil => exact Nat.le_refl _
  | cons c rest ih =>
      rw [lowercaseBetween_cons, lowercaseBetween_cons, List.count_append, List.count_append]
      refine Nat.add_le_add ?_ (ih (c :: p))
      by_cases hc : c = 'Σ'
      · rw [if_pos hc, if_pos hc, ← List.append_assoc, ← List.append_assoc]
        exact count_singleton_le (h p (rest ++ q))
      · exact Nat.le_of_eq (by rw [if_neg hc, if_neg hc])

/-- In a context that makes no sigma an `x` and unmakes one, there are fewer. -/
theorem count_lowercaseBetween_lt {before behind : List Char}
    (hold : sigmaForm (before.reverse ++ d) (behind ++ v) = x)
    (hnew : sigmaForm (before.reverse ++ d') (behind ++ v') ≠ x) :
    (lowercaseBetween d' (before ++ 'Σ' :: behind) v').count x <
      (lowercaseBetween d (before ++ 'Σ' :: behind) v).count x := by
  have hbefore := count_lowercaseBetween_le h [] before ('Σ' :: behind)
  have hbehind := count_lowercaseBetween_le h ('Σ' :: before.reverse) behind []
  simp only [List.nil_append, List.cons_append] at hbefore hbehind
  have hone : [sigmaForm (before.reverse ++ d) (behind ++ v)].count x = 1 := by
    rw [hold, List.count_singleton_self]
  have hnone : [sigmaForm (before.reverse ++ d') (behind ++ v')].count x = 0 :=
    List.count_eq_zero.mpr fun hmem => hnew (List.mem_singleton.mp hmem).symm
  rw [lowercaseBetween_append, lowercaseBetween_append, lowercaseBetween_cons,
    lowercaseBetween_cons, if_pos rfl, if_pos rfl, List.count_append, List.count_append,
    List.count_append, List.count_append, hone, hnone, List.cons_append, List.cons_append]
  omega

end

/-! ## A letter in front or behind -/

theorem caseAhead?_letter : caseAhead? ['a'] = some true := by decide +kernel

variable {p q : List Char}

/-- A letter in front can only make a sigma end a word. -/
theorem sigmaForm_of_letter_before (h : sigmaForm (p ++ ['a']) q = 'σ') : sigmaForm p q = 'σ' := by
  rw [sigmaForm_eq, caseAhead?_append, caseAhead?_letter] at h
  rw [sigmaForm_eq]
  cases hp : caseAhead? p with
  | none => rfl
  | some b => rwa [hp] at h

/-- A letter behind can only keep a sigma from ending a word. -/
theorem sigmaForm_of_letter_behind (h : sigmaForm p (q ++ ['a']) = 'ς') : sigmaForm p q = 'ς' := by
  rw [sigmaForm_eq, caseAhead?_append, caseAhead?_letter] at h
  rw [sigmaForm_eq]
  cases hq : caseAhead? q with
  | none => simp [hq] at h
  | some b => rwa [hq] at h

/-- A letter makes a sigma end a word that no letter stands before or behind. -/
theorem sigmaForm_letter_before (hp : caseAhead? p = none) (hq : caseAhead? q ≠ some true) :
    sigmaForm p q = 'σ' ∧ sigmaForm (p ++ ['a']) q = 'ς' := by
  have hbehind : (caseAhead? q).getD false = false := by
    cases hb : caseAhead? q with
    | none => rfl
    | some b => simpa [hb] using hq
  simp [sigmaForm_eq, caseAhead?_append, caseAhead?_letter, hp, hbehind]

/-- A letter keeps a sigma from ending a word that nothing else stands behind. -/
theorem sigmaForm_letter_behind (hp : caseAhead? p = some true) (hq : caseAhead? q = none) :
    sigmaForm p q = 'ς' ∧ sigmaForm p (q ++ ['a']) = 'σ' := by
  simp [sigmaForm_eq, caseAhead?_append, caseAhead?_letter, hp, hq]

theorem lowercaseBetween_letter (before behind : List Char) :
    lowercaseBetween before ['a'] behind = ['a'] := by
  have hletter : lowercaseChar 'a' = ['a'] := by decide +kernel
  rw [lowercaseBetween_cons, if_neg (by decide), hletter]
  rfl

theorem lowercase_letter_append (s : List Char) :
    lowercase (['a'] ++ s) = 'a' :: lowercaseBetween ['a'] s [] := by
  rw [lowercase_eq, lowercaseBetween_append, lowercaseBetween_letter]
  rfl

theorem lowercase_append_letter (s : List Char) :
    lowercase (s ++ ['a']) = lowercaseBetween [] s ['a'] ++ ['a'] := by
  rw [lowercase_eq, lowercaseBetween_append, lowercaseBetween_letter]
  rfl

/-- A text with a sigma that is not settled loses one of its small letters behind or
in front of a letter. -/
theorem exists_count_lt_of_not_settled {s : List Char} (h : ¬ SigmasSettled s) :
    ∃ t c, s <:+: t ∧ (lowercase t).count c < (lowercase s).count c := by
  obtain ⟨before, behind, rfl, ⟨hbefore, hbehind⟩ | ⟨hbefore, hbehind⟩⟩ := exists_of_not_settled h
  · obtain ⟨halone, hletter⟩ := sigmaForm_letter_before hbefore hbehind
    have hlt : (lowercaseBetween ['a'] (before ++ 'Σ' :: behind) []).count 'σ' <
        (lowercaseBetween [] (before ++ 'Σ' :: behind) []).count 'σ' := by
      refine count_lowercaseBetween_lt (fun p q hform => ?_) ?_ ?_
      · rw [List.append_nil] at hform
        rw [List.append_nil, List.append_nil]
        exact sigmaForm_of_letter_before hform
      · rw [List.append_nil, List.append_nil, halone]
      · rw [List.append_nil, hletter]
        decide
    refine ⟨_, 'σ', (List.suffix_append ['a'] _).isInfix, ?_⟩
    rwa [lowercase_letter_append, List.count_cons_of_ne (by decide), lowercase_eq]
  · obtain ⟨halone, hletter⟩ := sigmaForm_letter_behind hbefore hbehind
    have hlt : (lowercaseBetween [] (before ++ 'Σ' :: behind) ['a']).count 'ς' <
        (lowercaseBetween [] (before ++ 'Σ' :: behind) []).count 'ς' := by
      refine count_lowercaseBetween_lt (fun p q hform => ?_) ?_ ?_
      · rw [List.append_nil] at hform
        rw [List.append_nil, List.append_nil]
        exact sigmaForm_of_letter_behind hform
      · rw [List.append_nil, List.append_nil, halone]
      · rw [List.append_nil, hletter]
        decide
    refine ⟨_, 'ς', (List.prefix_append _ ['a']).isInfix, ?_⟩
    have hnone : ['a'].count 'ς' = 0 := by decide
    rwa [lowercase_append_letter, List.count_append, hnone, Nat.add_zero, lowercase_eq]

end FormLogic.Text
