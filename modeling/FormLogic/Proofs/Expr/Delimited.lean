import FormLogic.Proofs.Expr.Clean

/-!
# FormLogic.Proofs.Expr.Delimited

Value expressions that are put together from texts with blanks, commas and
parentheses between them. No token runs into one of these (`Delimited`), so a text
that lacks no closing mark is cut in front of them as it is alone
(`cut_append_of_delimited`). Where nothing is out of place, the text spells its own
kinds there (`spells_of_clean`).
-/

namespace FormLogic

open Text

/-! ## Pieces in front of another text -/

section
variable {κ : Type} {s rest : List Char}

/-- A variable ends in its brace, whatever stands behind it. -/
theorem variablePiece_append {kind : String → κ} (htext : (variablePiece kind s).text = '{' :: s)
    (hclosed : (variablePiece kind s).reading.isOpen = false) :
    variablePiece kind (s ++ rest) = variablePiece kind s := by
  by_cases hmem : '}' ∈ s
  · obtain ⟨inside, t, rfl, hinside⟩ := List.eq_append_cons_of_mem hmem
    have hends : ∀ u, variablePiece kind (inside ++ ['}'] ++ u) =
        ⟨'{' :: (inside ++ ['}']), .token (kind (String.ofList (trim inside)))⟩ := fun _ =>
      variablePiece_of_closed hinside
    rw [List.append_cons, hends] at htext
    obtain rfl : t = [] := by simpa using htext
    rw [hends rest, ← hends [], List.append_nil]
  · rw [variablePiece, if_neg hmem] at hclosed
    contradiction

/-- A literal ends in its quote, unless another quote stands behind it. -/
theorem literalPiece_append {kind : String → κ} {q : Char}
    (htext : (literalPiece kind q s).text = q :: s)
    (hclosed : (literalPiece kind q s).reading.isOpen = false) (hrest : rest.head? ≠ some q) :
    literalPiece kind q (s ++ rest) = literalPiece kind q s := by
  obtain ⟨_, -, -, hread⟩ := readLiteral_source (q := q) s
  have hsource : (readLiteral q s).source = s := (List.cons.inj htext).2
  have hends : (readLiteral q s).closed = true := by
    by_contra hopen
    rw [literalPiece, if_neg hopen] at hclosed
    contradiction
  have happend := (hread hends).2 rest hrest
  rw [hsource] at happend
  rw [literalPiece, happend, literalPiece]

/-- A word ends where a character stands that no word holds. -/
theorem wordPiece_append {p : Char → Bool} {read : List Char → Reading κ} {c : Char}
    (htext : (wordPiece p read c s).text = c :: s) (hrest : ∀ d ∈ rest.head?, p d = false) :
    wordPiece p read c (s ++ rest) = wordPiece p read c s := by
  have htake : s.takeWhile p = s := (List.cons.inj htext).2
  have hword : ∀ d ∈ s, p d = true := List.takeWhile_eq_self_iff.mp htake
  rw [wordPiece_eq hword hrest, wordPiece, htake]

end

namespace Expr

/-! ## Delimiters -/

/-- The text is empty or starts with a character that no token runs into. -/
def Delimited (rest : List Char) : Prop := ∀ d ∈ rest.head?, d ∈ [' ', ',', '(', ')']

variable {s rest : List Char}

/-- A piece that lacks no closing mark ends in front of a delimiter. -/
theorem nextPiece_append_of_delimited {c : Char} (htext : (nextPiece c s).text = c :: s)
    (hclosed : (nextPiece c s).reading.isOpen = false) (hrest : Delimited rest) :
    nextPiece c (s ++ rest) = nextPiece c s := by
  have hmark : ∀ p : Char → Bool, [' ', ',', '(', ')'].all (fun d => !p d) = true →
      ∀ d ∈ rest.head?, p d = false := fun p hp d hd => by
    simpa using List.all_eq_true.mp hp d (hrest d hd)
  rcases nextPiece_cases c with ⟨-, hnext⟩ | ⟨rfl, hnext⟩ | ⟨hquote, hnext⟩ | ⟨k, -, hnext⟩ |
    ⟨-, hnext⟩ | ⟨-, hnext⟩
  · rw [hnext, hnext]
  · rw [hnext] at htext hclosed
    rw [hnext, hnext]
    exact variablePiece_append htext hclosed
  · rw [hnext] at htext hclosed
    rw [hnext, hnext]
    refine literalPiece_append htext hclosed fun hhead => ?_
    rcases hquote with rfl | rfl
    · exact absurd (hrest _ hhead) (by decide)
    · exact absurd (hrest _ hhead) (by decide)
  · rw [hnext, hnext]
  · rw [hnext] at htext
    rw [hnext, hnext]
    exact wordPiece_append htext (hmark isNameChar (by decide))
  · rw [hnext, hnext]

/-- In front of a delimiter, a text that lacks no closing mark is cut as it is
alone. -/
theorem cut_append_of_delimited
    (hclosed : ∀ piece ∈ cut nextPiece s, piece.reading.isOpen = false) (hrest : Delimited rest) :
    cut nextPiece (s ++ rest) = cut nextPiece s ++ cut nextPiece rest := by
  revert hclosed
  refine cut_induction lawfulCut (motive := fun s pieces =>
    (∀ piece ∈ pieces, piece.reading.isOpen = false) →
      cut nextPiece (s ++ rest) = pieces ++ cut nextPiece rest) (by simp) ?_ s
  intro c s t hstarts ih hclosed
  obtain ⟨hhead, htail⟩ := List.forall_mem_cons.mp hclosed
  have hnext : nextPiece c (s ++ (t ++ rest)) = nextPiece c (s ++ t) := by
    cases t with
    | nil =>
        have htext := hstarts.text
        rw [List.append_nil] at htext hhead ⊢
        exact nextPiece_append_of_delimited htext hhead hrest
    | cons d t => exact hstarts.steady hhead _ fun _ hd => .inl hd
  rw [List.append_assoc, cut_append (by rw [hnext, hstarts.text]), hnext, ih htail,
    List.cons_append]

/-- A text in which nothing is out of place spells its kinds in front of a
delimiter. -/
theorem spells_of_clean (hclean : faultsOf (cut nextPiece s) = []) (hrest : Delimited rest) :
    Spells nextPiece s rest (kindsOf (cut nextPiece s)) := by
  have hcut := cut_append_of_delimited (isOpen_of_faultsOf_eq_nil hclean) hrest
  constructor
  · rw [hcut, kindsOf_append]
  · rw [hcut, faultsOf_append, hclean, List.nil_append]

end Expr

end FormLogic
