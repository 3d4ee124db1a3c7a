import FormLogic.Proofs.Cut

/-!
# FormLogic.Proofs.Padding

Blanks around a source. Where blanks keep pieces apart (`PaddedCut`), the blanks
in front of a text and behind it are pieces of their own, so a text that lacks no
closing mark has the tokens of the trimmed text (`kindsOf_cut_trim`), and if it has
one token only and nothing is out of place, that token is the trimmed text
(`exists_token_of_kindsOf_eq`). A missing mark matters: a literal that lacks its
closing quote takes the blanks behind it up.
-/

namespace FormLogic

open Text

section
variable {κ : Type} [TokenKind κ]

/-- What the pieces of a language have in common when blanks keep them apart: a
blank is a piece of its own, and no token ends in one, nor does what is skipped. -/
structure PaddedCut (next : Char → List Char → Piece κ) : Prop extends LawfulCut next where
  blank (c : Char) (rest : List Char) : isBlank c = true → next c rest = charPiece c .blank
  token_end (c : Char) (rest : List Char) (k : κ) : (next c rest).reading = .token k →
    ∀ d ∈ (next c rest).text.getLast?, isBlank d = false
  skipped_end (c : Char) (rest : List Char) (why : AnomalyKind) :
    (next c rest).reading = .skipped why → ∀ d ∈ (next c rest).text.getLast?, isBlank d = false

/-- Nothing among some pieces is out of place exactly when each is a blank or a
token. -/
theorem faultsOf_eq_nil_iff {κ : Type} {pieces : List (Piece κ)} :
    faultsOf pieces = [] ↔ ∀ x ∈ pieces, x.reading = .blank ∨ ∃ k, x.reading = .token k := by
  rw [faultsOf, List.filterMap_eq_nil_iff]
  refine forall₂_congr fun x _ => ?_
  cases x.reading <;> simp [Reading.anomaly?]

/-- Where nothing is out of place, no closing mark is missing. -/
theorem isOpen_of_faultsOf_eq_nil {κ : Type} {pieces : List (Piece κ)}
    (hclean : faultsOf pieces = []) : ∀ x ∈ pieces, x.reading.isOpen = false := by
  intro x hx
  rcases faultsOf_eq_nil_iff.mp hclean x hx with hblank | ⟨k, htoken⟩
  · rw [hblank]; rfl
  · rw [htoken]; rfl

/-- Pieces that are no tokens hold blanks only, when nothing is out of place. -/
theorem isBlank_of_mem_text {κ : Type} {pieces : List (Piece κ)}
    (hclean : faultsOf pieces = []) (hsound : ∀ x ∈ pieces, x.Sound)
    (hkinds : kindsOf pieces = []) : ∀ c ∈ pieces.flatMap (·.text), isBlank c = true := by
  intro c hc
  obtain ⟨x, hx, hc⟩ := List.mem_flatMap.mp hc
  have hnone := List.filterMap_eq_nil_iff.mp hkinds x hx
  rcases faultsOf_eq_nil_iff.mp hclean x hx with hblank | ⟨k, htoken⟩
  · have hx := hsound x hx
    rw [Piece.Sound, hblank] at hx
    exact hx c hc
  · rw [htoken] at hnone
    contradiction

variable {next : Char → List Char → Piece κ} (h : PaddedCut next) {u v : List Char}
include h

theorem cut_blanks_append (hu : ∀ c ∈ u, isBlank c = true) (rest : List Char) :
    cut next (u ++ rest) = u.map (charPiece · .blank) ++ cut next rest := by
  induction u with
  | nil => rfl
  | cons c u ih =>
      obtain ⟨hc, hu⟩ := List.forall_mem_cons.mp hu
      have hnext := h.blank c (u ++ rest) hc
      rw [List.cons_append, cut_cons, hnext]
      show _ :: cut next (u ++ rest) = _
      rw [ih hu, List.map_cons, List.cons_append]

theorem cut_blanks (hu : ∀ c ∈ u, isBlank c = true) :
    cut next u = u.map (charPiece · .blank) := by
  have hcut := cut_blanks_append h hu []
  rwa [List.append_nil, cut_nil, List.append_nil] at hcut

/-- A piece that is no blank and lacks no closing mark does not end in a blank. -/
theorem PaddedCut.isBlank_of_getLast? {c : Char} {rest : List Char}
    (hblank : (next c rest).reading ≠ .blank) (hclosed : (next c rest).reading.isOpen = false) :
    ∀ d ∈ (next c rest).text.getLast?, isBlank d = false := by
  cases hr : (next c rest).reading with
  | blank => contradiction
  | token k => exact h.token_end c rest k hr
  | openToken k missing =>
      rw [hr] at hclosed
      contradiction
  | skipped why => exact h.skipped_end c rest why hr

/-- A piece that lacks no closing mark and starts in a text without a blank at its
end does not reach into the blanks behind the text. -/
theorem eq_nil_of_reaches_blanks {c : Char} {s a rest : List Char}
    (htext : (next c rest).text = c :: s ++ a) (hclosed : (next c rest).reading.isOpen = false)
    (hs : ∀ d ∈ (c :: s).getLast?, isBlank d = false) (ha : ∀ d ∈ a, isBlank d = true) :
    a = [] := by
  by_cases hblank : (next c rest).reading = .blank
  · have hsound : ∀ d ∈ (next c rest).text, isBlank d = true := by
      simpa [Piece.Sound, hblank] using h.sound c rest
    have hlast := List.getLast?_eq_some_getLast (List.cons_ne_nil c s)
    have hfalse := hs _ hlast
    rw [hsound _ (by rw [htext]; exact List.mem_append_left _ (List.getLast_mem _))] at hfalse
    contradiction
  · cases hlast : a.getLast? with
    | none => exact List.getLast?_eq_none_iff.mp hlast
    | some d =>
        have hfalse := h.isBlank_of_getLast? hblank hclosed d
          (by rw [htext, List.getLast?_append, hlast]; rfl)
        rw [ha d (List.mem_of_getLast? hlast)] at hfalse
        contradiction

/-- Blanks behind a text are pieces of their own, when no closing mark is missing. -/
theorem cut_append_blanks (hv : ∀ c ∈ v, isBlank c = true) {s : List Char}
    (hs : ∀ c ∈ s.getLast?, isBlank c = false)
    (hclosed : ∀ x ∈ cut next (s ++ v), x.reading.isOpen = false) :
    cut next (s ++ v) = cut next s ++ v.map (charPiece · .blank) := by
  refine cut_induction h.toLawfulCut (motive := fun source pieces => ∀ s, source = s ++ v →
    (∀ c ∈ s.getLast?, isBlank c = false) → (∀ x ∈ pieces, x.reading.isOpen = false) →
      pieces = cut next s ++ v.map (charPiece · .blank)) ?_ ?_ (s ++ v) s rfl hs hclosed
  · intro s hnil _ _
    obtain ⟨rfl, rfl⟩ := List.append_eq_nil_iff.mp hnil.symm
    simp
  · intro c s t hstarts ih y hsource hy hclosed
    obtain ⟨hhead, htail⟩ := List.forall_mem_cons.mp hclosed
    cases y with
    | nil =>
        rw [← cut_append hstarts.text, hsource, List.nil_append, cut_nil, List.nil_append,
          cut_blanks h hv]
    | cons d y =>
        obtain ⟨rfl, hrest⟩ := List.cons.inj hsource
        -- the first piece ends inside the text, or it would end in a blank
        obtain ⟨a, rfl, rfl⟩ : ∃ a, y = s ++ a ∧ t = a ++ v := by
          rcases List.append_eq_append_iff.mp hrest with hinside | ⟨a, rfl, rfl⟩
          · exact hinside
          · have ha : ∀ d ∈ a, isBlank d = true := fun d hd => hv d (by simp [hd])
            obtain rfl := eq_nil_of_reaches_blanks h hstarts.text hhead hy ha
            exact ⟨[], by simp, rfl⟩
        have hfollows : Follows (a ++ v) a := by
          intro d hd
          simp [Option.mem_def.mp hd]
        -- and it does so without the blanks behind the text as well
        have hnext := hstarts.steady hhead a hfollows
        have ha : ∀ d ∈ a.getLast?, isBlank d = false := fun d hd => hy d (by
          rw [← List.cons_append, List.getLast?_append, Option.mem_def.mp hd]
          rfl)
        rw [← List.cons_append, cut_append (by rw [hnext, hstarts.text]), hnext,
          ih a rfl ha htail, List.cons_append]

/-- Trimming cuts the blanks around a text off, when no closing mark is missing. -/
theorem exists_cut_trim {source : List Char}
    (hclosed : ∀ x ∈ cut next source, x.reading.isOpen = false) :
    ∃ u v : List Char, cut next source =
      u.map (charPiece · .blank) ++ (cut next (trim source) ++ v.map (charPiece · .blank)) := by
  obtain ⟨u, v, hsource, hu, hv⟩ := exists_eq_append_trim source
  have hfront := cut_blanks_append h hu (trim source ++ v)
  rw [← hsource] at hfront
  have hinside : ∀ x ∈ cut next (trim source ++ v), x.reading.isOpen = false := fun x hx =>
    hclosed x (by rw [hfront]; exact List.mem_append_right _ hx)
  exact ⟨u, v, by rw [hfront, cut_append_blanks h hv (getLast?_trim source) hinside]⟩

/-- Blanks around a text do not count: a text that lacks no closing mark is read as it
is without them. -/
theorem kindsOf_cut_trim {source : List Char}
    (hclosed : ∀ x ∈ cut next source, x.reading.isOpen = false) :
    kindsOf (cut next (trim source)) = kindsOf (cut next source) ∧
      faultsOf (cut next (trim source)) = faultsOf (cut next source) := by
  obtain ⟨u, v, hcut⟩ := exists_cut_trim h hclosed
  have hkinds (w : List Char) : kindsOf (w.map fun c => (charPiece c .blank : Piece κ)) = [] := by
    simp [kindsOf, charPiece, Reading.token?]
  have hfaults (w : List Char) : faultsOf (w.map fun c => (charPiece c .blank : Piece κ)) = [] := by
    simp [faultsOf, charPiece, Reading.anomaly?]
  constructor
  · rw [hcut, kindsOf_append, kindsOf_append, hkinds, hkinds, List.nil_append, List.append_nil]
  · rw [hcut, faultsOf_append, faultsOf_append, hfaults, hfaults, List.nil_append,
      List.append_nil]

/-- A text with one token and nothing out of place is that token, but for the
blanks around it. -/
theorem exists_token_of_kindsOf_eq {source : List Char} {k : κ}
    (hclean : faultsOf (cut next source) = []) (hkinds : kindsOf (cut next source) = [k]) :
    ∃ c rest, (next c rest).reading = .token k ∧ (next c rest).text = trim source := by
  obtain ⟨xs, x, ys, hcut, hxs, hx, hys⟩ := List.filterMap_eq_cons_iff.mp hkinds
  obtain ⟨c, rest, rfl⟩ := exists_of_mem_cut (show x ∈ cut next source by simp [hcut])
  have hsound : ∀ y ∈ xs ++ next c rest :: ys, y.Sound := fun y hy =>
    sound_of_mem_cut h.toLawfulCut (hcut ▸ hy)
  rw [hcut, faultsOf_eq_nil_iff] at hclean
  have htoken : (next c rest).reading = .token k := by
    rcases hclean (next c rest) (by simp) with hblank | ⟨l, htoken⟩
    · simp [hblank, Reading.token?] at hx
    · simpa [htoken, Reading.token?] using hx
  have hfront : ∀ d ∈ xs.flatMap (·.text), isBlank d = true :=
    isBlank_of_mem_text (faultsOf_eq_nil_iff.mpr fun y hy => hclean y (by simp [hy]))
      (fun y hy => hsound y (by simp [hy])) (List.filterMap_eq_nil_iff.mpr hxs)
  have hback : ∀ d ∈ ys.flatMap (·.text), isBlank d = true :=
    isBlank_of_mem_text (faultsOf_eq_nil_iff.mpr fun y hy => hclean y (by simp [hy]))
      (fun y hy => hsound y (by simp [hy])) hys
  have hstart : ∀ d ∈ (next c rest).text.head?, isBlank d = false := by
    obtain ⟨s, t, rfl, hstarts⟩ := h.steady c rest
    rw [hstarts.text]
    rintro _ ⟨⟩
    by_contra hblank
    rw [h.blank c _ (by simpa using hblank)] at htoken
    contradiction
  refine ⟨c, rest, htoken, ?_⟩
  rw [← flatMap_text_cut h.toLawfulCut source, hcut, List.flatMap_append, List.flatMap_cons]
  exact (trim_append hfront hstart (h.token_end c rest k htoken) hback).symm

end

end FormLogic
