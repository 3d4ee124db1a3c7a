import FormLogic.Lexeme
import Mathlib.Data.List.Basic

/-!
# FormLogic.Proofs.Span

The spans of pieces that stand one behind the other. They come in the order of
the source without a byte in common (`pairwise_located`), each is the stretch of
the source that its piece takes up (`exists_of_mem_located`), and every character
of the source stands in the span of a piece (`exists_located_of_char`).
-/

namespace FormLogic

open Text

/-! ## Spans -/

namespace Text

/-- Whether the byte at an offset lies in a span. -/
def Span.Contains (a : Span) (i : Nat) : Prop := a.offset ≤ i ∧ i < a.offset + a.length

instance (a : Span) (i : Nat) : Decidable (a.Contains i) :=
  inferInstanceAs (Decidable (_ ∧ _))

/-- No byte lies in both spans. -/
def Span.Disjoint (a b : Span) : Prop := ∀ i, a.Contains i → ¬ b.Contains i

theorem Span.Disjoint.symm {a b : Span} (h : a.Disjoint b) : b.Disjoint a :=
  fun i hb ha => h i ha hb

/-- One span ends before another one starts. -/
def Span.Before (a b : Span) : Prop := a.offset < b.offset ∧ a.offset + a.length ≤ b.offset

theorem Span.Before.disjoint {a b : Span} (h : a.Before b) : a.Disjoint b := by
  intro i ha hb
  have hend := h.2
  unfold Span.Contains at ha hb
  omega

/-- A span is the place of some text in the source, from one character boundary
to another. -/
def Span.IsStretch (source : List Char) (a : Span) : Prop :=
  ∃ before text behind, source = before ++ text ++ behind ∧ text ≠ [] ∧
    a.offset = byteLength before ∧ a.length = byteLength text

theorem byteLength_pos {s : List Char} (h : s ≠ []) : 0 < byteLength s := by
  obtain ⟨c, s, rfl⟩ := List.exists_cons_of_ne_nil h
  have hc := c.utf8Size_pos
  rw [byteLength_cons]
  omega

@[simp] theorem Position.offset_start : Position.start.offset = 0 := rfl

@[simp] theorem Position.offset_next (p : Position) (c : Char) :
    (p.next c).offset = p.offset + c.utf8Size := by
  unfold Position.next
  split <;> rfl

@[simp] theorem Position.offset_after (p : Position) (s : List Char) :
    (p.after s).offset = p.offset + byteLength s := by
  induction s generalizing p with
  | nil => rfl
  | cons c s ih =>
      rw [Position.after_cons, ih, Position.offset_next, byteLength_cons, Nat.add_assoc]

@[simp] theorem Position.offset_span (p : Position) (s : List Char) :
    (p.span s).offset = p.offset := rfl

@[simp] theorem Position.length_span (p : Position) (s : List Char) :
    (p.span s).length = byteLength s := rfl

end Text

/-! ## Spans of pieces -/

variable {κ : Type} {pieces : List (Piece κ)} {p : Position} {r : Reading κ} {a : Span}

theorem located_append (p : Position) (xs ys : List (Piece κ)) :
    located p (xs ++ ys) = located p xs ++ located (p.after (xs.flatMap (·.text))) ys := by
  induction xs generalizing p with
  | nil => rfl
  | cons x xs ih => simp [located, ih]

/-- A span is the place of its piece behind the pieces in front of it. -/
theorem exists_of_mem_located (h : (r, a) ∈ located p pieces) :
    ∃ xs x ys, pieces = xs ++ x :: ys ∧ r = x.reading ∧
      a = (p.after (xs.flatMap (·.text))).span x.text := by
  induction pieces generalizing p with
  | nil => simp [located] at h
  | cons x pieces ih =>
      rcases List.mem_cons.mp h with h | h
      · obtain ⟨rfl, rfl⟩ := Prod.mk.inj h
        exact ⟨[], x, pieces, rfl, rfl, rfl⟩
      · obtain ⟨xs, y, ys, rfl, hr, ha⟩ := ih h
        exact ⟨x :: xs, y, ys, rfl, hr, by simpa using ha⟩

theorem mem_located (p : Position) (xs : List (Piece κ)) (x : Piece κ) (ys : List (Piece κ)) :
    (x.reading, (p.after (xs.flatMap (·.text))).span x.text) ∈ located p (xs ++ x :: ys) := by
  simp [located_append, located]

/-- The spans of pieces come one behind the other. -/
theorem pairwise_located (h : ∀ piece ∈ pieces, piece.text ≠ []) (p : Position) :
    (located p pieces).Pairwise fun x y => x.2.Before y.2 := by
  induction pieces generalizing p with
  | nil => exact .nil
  | cons x pieces ih =>
      obtain ⟨hx, hpieces⟩ := List.forall_mem_cons.mp h
      refine .cons ?_ (ih hpieces (p.after x.text))
      rintro ⟨r, a⟩ hmem
      obtain ⟨xs, y, ys, -, -, rfl⟩ := exists_of_mem_located hmem
      have hpos := byteLength_pos hx
      simp only [Span.Before, Position.offset_span, Position.length_span, Position.offset_after]
      omega

/-- The span of a piece is a stretch of the source. -/
theorem isStretch_of_mem_located (h : ∀ piece ∈ pieces, piece.text ≠ [])
    (hmem : (r, a) ∈ located .start pieces) : a.IsStretch (pieces.flatMap (·.text)) := by
  obtain ⟨xs, x, ys, rfl, -, rfl⟩ := exists_of_mem_located hmem
  exact ⟨xs.flatMap (·.text), x.text, ys.flatMap (·.text), by simp, h x (by simp), by simp, rfl⟩

/-- A character of the source stands in one of the pieces. -/
theorem exists_piece_of_char {before behind : List Char} {c : Char}
    (h : pieces.flatMap (·.text) = before ++ c :: behind) :
    ∃ xs x ys u v, pieces = xs ++ x :: ys ∧ x.text = u ++ c :: v ∧
      before = xs.flatMap (·.text) ++ u := by
  induction pieces generalizing before with
  | nil => simp at h
  | cons x pieces ih =>
      rw [List.flatMap_cons] at h
      rcases List.append_eq_append_iff.mp h with ⟨u, rfl, hrest⟩ | ⟨u, htext, hrest⟩
      · obtain ⟨xs, y, ys, v, w, rfl, hy, rfl⟩ := ih hrest
        exact ⟨x :: xs, y, ys, v, w, rfl, hy, by simp⟩
      · cases u with
        | nil =>
            have hrest : pieces.flatMap (·.text) = [] ++ c :: behind := hrest.symm
            obtain ⟨xs, y, ys, v, w, rfl, hy, hnil⟩ := ih hrest
            exact ⟨x :: xs, y, ys, v, w, rfl, hy, by simp [htext, ← hnil]⟩
        | cons d u =>
            obtain ⟨rfl, rfl⟩ := List.cons.inj hrest
            exact ⟨[], x, pieces, before, u, rfl, htext, by simp⟩

/-- Every byte of a character of the source lies in the span of a piece that
holds the character. -/
theorem exists_located_of_char {before behind : List Char} {c : Char} {i : Nat}
    (h : pieces.flatMap (·.text) = before ++ c :: behind) (hlow : byteLength before ≤ i)
    (hhigh : i < byteLength before + c.utf8Size) :
    ∃ x ∈ pieces, ∃ a, (x.reading, a) ∈ located .start pieces ∧ a.Contains i ∧ c ∈ x.text := by
  obtain ⟨xs, x, ys, u, v, rfl, hx, rfl⟩ := exists_piece_of_char h
  refine ⟨x, by simp, _, mem_located .start xs x ys, ?_, by simp [hx]⟩
  simp only [byteLength_append] at hlow hhigh
  simp only [Span.Contains, Position.offset_span, Position.length_span, Position.offset_after,
    Position.offset_start, hx, byteLength_append, byteLength_cons]
  omega

end FormLogic
