import FormLogic.Text.Case
import FormLogic.Text.Position

/-!
# FormLogic.Proofs.Text.Letters

The letters `A` to `Z` and `a` to `z`, and the digits: which characters they
are, and that a text of such letters is lower-cased letter by letter. Two texts
that differ in the case of letters only (`SameLetters`) take up the same bytes,
lines and columns, and are cut off at the same place by a test that does not look
at case.
-/

namespace FormLogic.Text

theorem isAlpha_iff_toNat {c : Char} :
    c.isAlpha = true ↔ 65 ≤ c.toNat ∧ c.toNat ≤ 90 ∨ 97 ≤ c.toNat ∧ c.toNat ≤ 122 := by
  have hrange : c.isAlpha = (decide (65 ≤ c.val ∧ c.val ≤ 90) ||
      (decide (97 ≤ c.val) && decide (c.val ≤ 122))) := rfl
  simp [hrange, UInt32.le_iff_toNat_le]

theorem toNat_of_isAlpha {c : Char} (h : c.isAlpha = true) :
    65 ≤ c.toNat ∧ c.toNat ≤ 90 ∨ 97 ≤ c.toNat ∧ c.toNat ≤ 122 := isAlpha_iff_toNat.mp h

theorem toNat_of_isDigit {c : Char} (h : c.isDigit = true) : 48 ≤ c.toNat ∧ c.toNat ≤ 57 := by
  have hrange : (decide (48 ≤ c.val) && decide (c.val ≤ 57)) = true := h
  simpa [UInt32.le_iff_toNat_le] using hrange

theorem toNat_toLower (c : Char) :
    c.toLower.toNat = if 65 ≤ c.toNat ∧ c.toNat ≤ 90 then c.toNat + 32 else c.toNat := by
  have hrange : ('A'.val ≤ c.val ∧ c.val ≤ 'Z'.val) ↔ 65 ≤ c.toNat ∧ c.toNat ≤ 90 := by
    simp [UInt32.le_iff_toNat_le]
  by_cases hupper : 65 ≤ c.toNat ∧ c.toNat ≤ 90
  · have hval : c.toLower.val = c.val + 32 := congrArg Char.val (dif_pos (hrange.mpr hupper))
    have hadd : (c.val + 32).toNat = c.toNat + 32 := by
      have hnat : c.val.toNat = c.toNat := rfl
      simp only [UInt32.toNat_add, UInt32.reduceToNat]
      omega
    rw [if_pos hupper, Char.toNat, hval, hadd]
  · have hsame : c.toLower = c := dif_neg (mt hrange.mp hupper)
    rw [if_neg hupper, hsame]

/-- Lower-casing changes only letters, and makes letters of them. -/
theorem toLower_eq_self_or (c : Char) :
    c.toLower = c ∨ c.isAlpha = true ∧ c.toLower.isAlpha = true := by
  have hlower := toNat_toLower c
  by_cases hupper : 65 ≤ c.toNat ∧ c.toNat ≤ 90
  · grind [isAlpha_iff_toNat]
  · rw [if_neg hupper] at hlower
    exact .inl (Char.ext (UInt32.toNat_inj.mp hlower))

/-- Only letters are lower-cased to letters. -/
theorem isAlpha_of_toLower {c : Char} (h : c.toLower.isAlpha = true) : c.isAlpha = true := by
  rcases toLower_eq_self_or c with hsame | ⟨halpha, -⟩
  · rwa [hsame] at h
  · exact halpha

/-- Characters with one small letter are equal or letters. -/
theorem eq_or_isAlpha_of_toLower_eq {c d : Char} (h : d.toLower = c.toLower) :
    d = c ∨ d.isAlpha = true ∧ c.isAlpha = true := by
  rcases toLower_eq_self_or c with hc | ⟨hc, hlower⟩
  · rcases toLower_eq_self_or d with hd | ⟨hd, hlower⟩
    · exact .inl (hd.symm.trans (h.trans hc))
    · exact .inr ⟨hd, isAlpha_of_toLower (h ▸ hlower)⟩
  · exact .inr ⟨isAlpha_of_toLower (h ▸ hlower), hc⟩

/-! ## Lower-casing -/

/-- Below 128, characters are lower-cased one by one. -/
theorem lowercaseAfter_of_ascii {s : List Char} (h : ∀ c ∈ s, c.toNat < 0x80)
    (before : List Char) : lowercaseAfter before s = s.map Char.toLower := by
  induction s generalizing before with
  | nil => rfl
  | cons c s ih =>
      obtain ⟨hc, hs⟩ := List.forall_mem_cons.mp h
      have hsigma : c ≠ 'Σ' := by
        rintro rfl
        simp at hc
      simp [lowercaseAfter, hsigma, lowercaseChar, hc, ih hs]

theorem lowercase_of_ascii {s : List Char} (h : ∀ c ∈ s, c.toNat < 0x80) :
    lowercase s = s.map Char.toLower := lowercaseAfter_of_ascii h []

/-- Letters are lower-cased one by one. -/
theorem lowercase_of_isAlpha {s : List Char} (h : ∀ c ∈ s, c.isAlpha = true) :
    lowercase s = s.map Char.toLower := by
  refine lowercase_of_ascii fun c hc => ?_
  have hn := toNat_of_isAlpha (h c hc)
  omega

/-! ## Texts in another letter case -/

/-- The text `t` is `s` but for the case of letters. -/
def SameLetters (t s : List Char) : Prop := t.map Char.toLower = s.map Char.toLower

@[simp] theorem utf8Size_toLower (c : Char) : c.toLower.utf8Size = c.utf8Size := by
  have hletter : ∀ {d : Char}, d.isAlpha = true → d.utf8Size = 1 := by
    intro d hd
    have hn := toNat_of_isAlpha hd
    exact Char.utf8Size_eq_one_iff.mpr (UInt32.le_iff_toNat_le.mpr (by
      show d.toNat ≤ 127
      omega))
  rcases toLower_eq_self_or c with hsame | ⟨hc, hlower⟩
  · rw [hsame]
  · rw [hletter hc, hletter hlower]

@[simp] theorem byteLength_map_toLower (s : List Char) :
    byteLength (s.map Char.toLower) = byteLength s := by
  induction s with
  | nil => rfl
  | cons c s ih => simp [ih]

@[simp] theorem next_toLower (p : Position) (c : Char) : p.next c.toLower = p.next c := by
  have hnewline : c.toLower = '\n' ↔ c = '\n' := by
    rcases toLower_eq_self_or c with hsame | ⟨hc, hlower⟩
    · rw [hsame]
    · constructor
      · intro h
        rw [h] at hlower
        contradiction
      · rintro rfl
        contradiction
  simp [Position.next, hnewline]

@[simp] theorem after_map_toLower (p : Position) (s : List Char) :
    p.after (s.map Char.toLower) = p.after s := by
  induction s generalizing p with
  | nil => rfl
  | cons c s ih => simp [ih]

namespace SameLetters

variable {s t : List Char} (h : SameLetters t s)
include h

theorem length_eq : t.length = s.length := by simpa using congrArg List.length h

theorem byteLength_eq : byteLength t = byteLength s := by simpa using congrArg byteLength h

theorem after_eq (p : Position) : p.after t = p.after s := by simpa using congrArg p.after h

theorem span_eq (p : Position) : p.span t = p.span s := by
  rw [Position.span, Position.span, h.byteLength_eq]

theorem lowercase_eq (ht : ∀ c ∈ t, c.toNat < 0x80) (hs : ∀ c ∈ s, c.toNat < 0x80) :
    lowercase t = lowercase s := by
  rw [lowercase_of_ascii ht, lowercase_of_ascii hs]
  exact h

/-- A test that does not look at case ends both texts at one place. -/
theorem takeWhile {p : Char → Bool} (hp : ∀ c, p c.toLower = p c) :
    SameLetters (t.takeWhile p) (s.takeWhile p) := by
  have hcomp : p ∘ Char.toLower = p := funext hp
  have hsame := congrArg (List.takeWhile p) h
  rwa [List.takeWhile_map, List.takeWhile_map, hcomp] at hsame

/-- A character that is no letter stands in front of both texts or of none. -/
theorem head?_ne {c : Char} (hc : c.isAlpha = false) (hs : s.head? ≠ some c) :
    t.head? ≠ some c := by
  intro ht
  obtain ⟨t, rfl⟩ := List.head?_eq_some_iff.mp ht
  cases s with
  | nil => simp [SameLetters] at h
  | cons d s =>
      obtain ⟨hfirst, -⟩ := List.cons.inj h
      rcases eq_or_isAlpha_of_toLower_eq hfirst with rfl | ⟨halpha, -⟩
      · exact hs rfl
      · simp [hc] at halpha

end SameLetters

theorem SameLetters.append {s t u v : List Char} (hs : SameLetters t s) (hu : SameLetters v u) :
    SameLetters (t ++ v) (s ++ u) := by
  unfold SameLetters
  rw [List.map_append, List.map_append, hs, hu]

/-- What stands behind a common front differs in the case of letters only. -/
theorem SameLetters.of_append_left {front s t : List Char}
    (h : SameLetters (front ++ t) (front ++ s)) : SameLetters t s := by
  unfold SameLetters at h
  rw [List.map_append, List.map_append] at h
  exact List.append_cancel_left h

end FormLogic.Text
