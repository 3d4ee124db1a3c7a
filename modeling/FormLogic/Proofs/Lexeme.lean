import FormLogic.Lexeme.Bracket
import FormLogic.Proofs.Stream
import FormLogic.Proofs.Text.Blank
import FormLogic.Proofs.Text.Quoted
import Mathlib.Data.List.Chain

/-!
# FormLogic.Proofs.Lexeme

Cutting a text that is put together from written kinds. `Spells next s rest ks`
says that `s` in front of `rest` is cut into pieces with the kinds `ks`, with
nothing out of place, and that the cutting of `rest` does not notice. Spellings
of neighbours add up (`Spells.append`), so the spelling of a whole text comes
from the spellings of its kinds (`spells_flatMap`).
-/

namespace FormLogic

open Text

/-! ## Kinds and anomalies of pieces -/

section
variable {κ : Type}

/-- The kinds of the tokens among some pieces. -/
def kindsOf (pieces : List (Piece κ)) : List κ :=
  pieces.filterMap (·.reading.token?)

/-- What is out of place among some pieces. -/
def faultsOf (pieces : List (Piece κ)) : List AnomalyKind :=
  pieces.filterMap (·.reading.anomaly?)

theorem kindsOf_append (xs ys : List (Piece κ)) : kindsOf (xs ++ ys) = kindsOf xs ++ kindsOf ys :=
  List.filterMap_append

theorem faultsOf_append (xs ys : List (Piece κ)) :
    faultsOf (xs ++ ys) = faultsOf xs ++ faultsOf ys :=
  List.filterMap_append

theorem map_kind_filterMap_located (p : Position) (pieces : List (Piece κ)) :
    ((located p pieces).filterMap fun (r, span) => r.token?.map (Token.mk · span)).map (·.kind) =
      kindsOf pieces := by
  induction pieces generalizing p with
  | nil => rfl
  | cons piece pieces ih =>
      cases h : piece.reading.token? <;>
        simp_all [located, kindsOf]

theorem map_kind_tokensOf (pieces : List (Piece κ)) :
    (tokensOf pieces).map (·.kind) = kindsOf pieces :=
  map_kind_filterMap_located .start pieces

theorem map_kind_anomaliesOf (pieces : List (Piece κ)) :
    (anomaliesOf pieces).map (·.kind) = faultsOf pieces := by
  suffices ∀ p, ((located p pieces).filterMap fun (r, span) =>
      r.anomaly?.map (Anomaly.mk · span)).map (·.kind) = faultsOf pieces from this .start
  intro p
  induction pieces generalizing p with
  | nil => rfl
  | cons piece pieces ih =>
      cases h : piece.reading.anomaly? <;>
        simp_all [located, faultsOf]

theorem anomaliesOf_eq_nil_iff {pieces : List (Piece κ)} :
    anomaliesOf pieces = [] ↔ faultsOf pieces = [] := by
  rw [← map_kind_anomaliesOf, List.map_eq_nil_iff]

variable {next : Char → List Char → Piece κ}

/-- Every piece starts at a character of the text. -/
theorem exists_mem_of_mem_cut {source : List Char} {piece : Piece κ}
    (h : piece ∈ cut next source) : ∃ c ∈ source, ∃ rest, piece = next c rest := by
  induction hn : source.length using Nat.strong_induction_on generalizing source with
  | _ n ih =>
      cases source with
      | nil => simp at h
      | cons c rest =>
          rw [cut_cons] at h
          rcases List.mem_cons.mp h with rfl | h
          · exact ⟨c, List.mem_cons_self, rest, rfl⟩
          · obtain ⟨d, hd, behind, hpiece⟩ := ih _ (by
              rw [← hn, List.length_drop, List.length_cons]
              omega) h rfl
            exact ⟨d, List.mem_cons_of_mem c (List.mem_of_mem_drop hd), behind, hpiece⟩

theorem exists_of_mem_cut {source : List Char} {piece : Piece κ} (h : piece ∈ cut next source) :
    ∃ c rest, piece = next c rest := by
  obtain ⟨c, -, rest, hpiece⟩ := exists_mem_of_mem_cut h
  exact ⟨c, rest, hpiece⟩

theorem exists_of_mem_kindsOf {source : List Char} {k : κ} (h : k ∈ kindsOf (cut next source)) :
    ∃ c rest, (next c rest).reading.token? = some k := by
  obtain ⟨piece, hpiece, htoken⟩ := List.mem_filterMap.mp h
  obtain ⟨c, rest, rfl⟩ := exists_of_mem_cut hpiece
  exact ⟨c, rest, htoken⟩

/-- A piece that takes up a text is followed by what the rest is cut into. -/
theorem cut_append {c : Char} {s rest : List Char} (h : (next c (s ++ rest)).text = c :: s) :
    cut next (c :: s ++ rest) = next c (s ++ rest) :: cut next rest := by
  rw [List.cons_append, cut_cons, h]
  simp

/-- The tokens of a lexed text in front of its end of file are those of its
pieces, when no piece is read as an end of file. -/
theorem kindsAhead_lexWith [TokenKind κ] [LawfulTokenKind κ] {source : List Char}
    (h : ∀ c rest k, (next c rest).reading.token? = some k → TokenKind.isEof k = false) :
    kindsAhead (lexWith next source).tokens = kindsOf (cut next source) := by
  have hkinds : ∀ k ∈ kindsOf (cut next source), TokenKind.isEof k = false := by
    intro k hk
    obtain ⟨c, rest, htoken⟩ := exists_of_mem_kindsOf hk
    exact h c rest k htoken
  have heof : TokenKind.isEof (TokenKind.eof : κ) = true := (isEof_iff _).mpr rfl
  unfold kindsAhead lexWith
  simp only [List.map_append, map_kind_tokensOf, List.map_cons, List.map_nil]
  rw [List.takeWhile_append_of_pos (by simpa using hkinds)]
  simp [heof]

/-! ## Spelling -/

/-- In front of `rest`, the text `s` is cut into pieces with the kinds `ks` and
with nothing out of place. -/
def Spells (next : Char → List Char → Piece κ) (s rest : List Char) (ks : List κ) : Prop :=
  kindsOf (cut next (s ++ rest)) = ks ++ kindsOf (cut next rest) ∧
    faultsOf (cut next (s ++ rest)) = faultsOf (cut next rest)

variable {s t rest : List Char} {ks ls : List κ} {c : Char} {k : κ}

@[simp] theorem spells_nil : Spells next [] rest [] := ⟨rfl, rfl⟩

theorem Spells.append (hs : Spells next s (t ++ rest) ks) (ht : Spells next t rest ls) :
    Spells next (s ++ t) rest (ks ++ ls) := by
  unfold Spells at *
  rw [List.append_assoc, hs.1, hs.2, ht.1, ht.2, List.append_assoc]
  exact ⟨rfl, rfl⟩

theorem spells_token (h : next c (s ++ rest) = ⟨c :: s, .token k⟩) :
    Spells next (c :: s) rest [k] := by
  unfold Spells
  rw [cut_append (by rw [h]), h]
  simp [kindsOf, faultsOf, Reading.token?, Reading.anomaly?]

theorem spells_blank (h : next c (s ++ rest) = ⟨c :: s, .blank⟩) :
    Spells next (c :: s) rest [] := by
  unfold Spells
  rw [cut_append (by rw [h]), h]
  simp [kindsOf, faultsOf, Reading.token?, Reading.anomaly?]

/-- A word is read between the blanks around it. -/
theorem spells_padded (hblank : ∀ rest, next ' ' rest = ⟨[' '], .blank⟩)
    (hword : next c (s ++ ' ' :: rest) = ⟨c :: s, .token k⟩) :
    Spells next (' ' :: c :: s ++ [' ']) rest [k] :=
  (spells_blank (hblank _)).append ((spells_token hword).append (spells_blank (hblank _)))

/-! ## Spelling of kinds -/

/-- How the kinds of a language are written. -/
structure Writing (next : Char → List Char → Piece κ) where
  /-- The text of a kind. -/
  written : κ → List Char
  /-- Whether a kind may run into a solid kind behind it. -/
  Solid : κ → Prop
  /-- The value of a literal. -/
  text? : κ → Option String
  /-- Whether a kind can be written, the value of a literal aside. -/
  Allowed : κ → Prop
  /-- A kind with a value that can be written is read back. -/
  spells (k : κ) (ls : List κ) : Allowed k → (∀ x ∈ text? k, Doublable '\'' x.toList) →
    (∀ l ∈ ls.head?, Allowed l ∧ ¬ (Solid k ∧ Solid l)) →
      Spells next (written k) (ls.flatMap written) [k]
  /-- A literal with another value is read as some literal, but not as itself. -/
  misspells (k : κ) (rest : List Char) (x : String) : text? k = some x → ¬ Doublable '\'' x.toList →
    ∃ l y more, text? l = some y ∧ y ≠ x ∧ kindsOf (cut next (written k ++ rest)) = l :: more

namespace Writing

variable (w : Writing next)

/-- No two solid kinds are neighbours. -/
def Apart (ks : List κ) : Prop := ks.IsChain fun k l => ¬ (w.Solid k ∧ w.Solid l)

variable {w} in
/-- A kind that is not solid keeps what stands around it apart. -/
theorem Apart.append_cons (hk : ¬ w.Solid k) (hks : w.Apart ks) (hls : w.Apart ls) :
    w.Apart (ks ++ k :: ls) := by
  unfold Apart at *
  refine List.isChain_append.mpr ⟨hks, List.isChain_cons.mpr ⟨?_, hls⟩, ?_⟩
  · exact fun _ _ h => hk h.1
  · rintro _ _ _ ⟨⟩ h
    exact hk h.2

/-- Kinds that can be written, with solid ones apart, are read back. -/
theorem spells_flatMap (hapart : w.Apart ks) (hallowed : ∀ k ∈ ks, w.Allowed k)
    (htexts : ∀ k ∈ ks, ∀ x ∈ w.text? k, Doublable '\'' x.toList) :
    Spells next (ks.flatMap w.written) [] ks := by
  induction ks with
  | nil => exact spells_nil
  | cons k ks ih =>
      obtain ⟨hk, hks⟩ := List.forall_mem_cons.mp hallowed
      obtain ⟨hx, hxs⟩ := List.forall_mem_cons.mp htexts
      obtain ⟨hkl, hapart⟩ := List.isChain_cons.mp hapart
      have hhead := w.spells k ks hk hx fun l hl => ⟨hks l (List.mem_of_mem_head? hl), hkl l hl⟩
      rw [List.flatMap_cons]
      exact Spells.append (by rwa [List.append_nil]) (ih hapart hks hxs)

/-- Kinds that are read with the values they were written with have only values
that can be written. -/
theorem doublable_of_texts_eq (hapart : w.Apart ks) (hallowed : ∀ k ∈ ks, w.Allowed k)
    (htexts : (kindsOf (cut next (ks.flatMap w.written))).filterMap w.text? =
      ks.filterMap w.text?) : ∀ k ∈ ks, ∀ x ∈ w.text? k, Doublable '\'' x.toList := by
  induction ks with
  | nil => simp
  | cons k ks ih =>
      obtain ⟨hk, hks⟩ := List.forall_mem_cons.mp hallowed
      obtain ⟨hkl, hapart⟩ := List.isChain_cons.mp hapart
      -- the first value that cannot be written is read as another one
      have hx : ∀ x ∈ w.text? k, Doublable '\'' x.toList := by
        intro x hx
        by_contra hbad
        obtain ⟨l, y, more, hy, hne, hcut⟩ := w.misspells k (ks.flatMap w.written) x hx hbad
        rw [List.flatMap_cons, hcut, List.filterMap_cons_some hy,
          List.filterMap_cons_some hx] at htexts
        exact hne (List.cons.inj htexts).1
      have hhead := w.spells k ks hk hx fun l hl => ⟨hks l (List.mem_of_mem_head? hl), hkl l hl⟩
      rw [List.flatMap_cons, hhead.1, List.singleton_append] at htexts
      refine List.forall_mem_cons.mpr ⟨hx, ih hapart hks ?_⟩
      cases hk : w.text? k with
      | none => simpa [List.filterMap_cons_none hk] using htexts
      | some x => simpa [List.filterMap_cons_some hk] using htexts

/-- The text of kinds that can be written is lexed as these kinds, with nothing
out of place. -/
theorem lexWith_flatMap [TokenKind κ] [LawfulTokenKind κ] (hapart : w.Apart ks)
    (hallowed : ∀ k ∈ ks, w.Allowed k) (htexts : ∀ k ∈ ks, ∀ x ∈ w.text? k, Doublable '\'' x.toList)
    (heof : ∀ c rest k, (next c rest).reading.token? = some k → TokenKind.isEof k = false) :
    kindsAhead (lexWith next (ks.flatMap w.written)).tokens = ks ∧
      (lexWith next (ks.flatMap w.written)).anomalies = [] := by
  obtain ⟨hkinds, hfaults⟩ := w.spells_flatMap hapart hallowed htexts
  simp only [List.append_nil, cut_nil] at hkinds hfaults
  exact ⟨by rw [kindsAhead_lexWith heof, hkinds]; simp [kindsOf],
    anomaliesOf_eq_nil_iff.mpr hfaults⟩

end Writing

/-! ## Variables, words and literals -/

/-- A name that reads back from between braces. -/
def IsName (name : String) : Prop := trim name.toList = name.toList ∧ '}' ∉ name.toList

theorem variablePiece_of_closed {kind : String → κ} {inside : List Char} (h : '}' ∉ inside) :
    variablePiece kind (inside ++ ['}'] ++ rest) =
      ⟨'{' :: (inside ++ ['}']), .token (kind (String.ofList (trim inside)))⟩ := by
  have htake : (inside ++ '}' :: rest).takeWhile (· != '}') = inside := by
    rw [List.takeWhile_append_of_pos]
    · simp
    · intro c hc
      have : c ≠ '}' := fun he => h (he ▸ hc)
      simpa using this
  simp [variablePiece, htake]

theorem variablePiece_eq {kind : String → κ} {name : String} (h : IsName name) :
    variablePiece kind (name.toList ++ '}' :: rest) =
      ⟨'{' :: (name.toList ++ ['}']), .token (kind name)⟩ := by
  rw [List.append_cons, variablePiece_of_closed h.2, h.1, String.ofList_toList]

/-- A variable is read with a name that reads back. -/
theorem isName_of_variablePiece {kind : String → κ}
    (h : (variablePiece kind rest).reading.token? = some k) :
    ∃ name, k = kind name ∧ IsName name := by
  have hname : IsName (String.ofList (trim (rest.takeWhile (· != '}')))) := by
    constructor
    · simp [trim_trim]
    · intro hmem
      have := List.mem_takeWhile_imp ((trim_sublist _).subset (by simpa using hmem))
      simp at this
  refine ⟨_, ?_, hname⟩
  unfold variablePiece at h
  split at h <;> simp_all [Reading.token?]

/-- A word ends where a character stands that no word holds. -/
theorem wordPiece_eq {p : Char → Bool} {read : List Char → Reading κ} (hs : ∀ d ∈ s, p d = true)
    (hrest : ∀ d ∈ rest.head?, p d = false) :
    wordPiece p read c (s ++ rest) = ⟨c :: s, read (c :: s)⟩ := by
  have htake : (s ++ rest).takeWhile p = s := by
    rw [List.takeWhile_append_of_pos hs]
    cases rest with
    | nil => simp
    | cons d rest => simp [hrest d rfl]
  rw [wordPiece, htake]

theorem literalPiece_eq {kind : String → κ} {q : Char} {x : String} (hx : Doublable q x.toList)
    (hrest : rest.head? ≠ some q) :
    literalPiece kind q (doubleQuotes q x.toList ++ q :: rest) =
      ⟨q :: (doubleQuotes q x.toList ++ [q]), .token (kind x)⟩ := by
  simp [literalPiece, readLiteral_doubleQuotes hx hrest]

/-- A literal is a token whose value is what the reader of literals gives. -/
theorem token?_literalPiece {kind : String → κ} {q : Char} :
    (literalPiece kind q rest).reading.token? =
      some (kind (String.ofList (readLiteral q rest).value)) := by
  cases h : (readLiteral q rest).closed <;> simp [literalPiece, h, Reading.token?]

theorem getLast?_variablePiece {kind : String → κ}
    (h : (variablePiece kind rest).reading = .token k) :
    (variablePiece kind rest).text.getLast? = some '}' := by
  unfold variablePiece at h ⊢
  split at h
  · next hmem => rw [if_pos hmem, List.getLast?_concat]
  · contradiction

theorem getLast?_literalPiece {kind : String → κ} {q : Char}
    (h : (literalPiece kind q rest).reading = .token k) :
    (literalPiece kind q rest).text.getLast? = some q := by
  cases hclosed : (readLiteral q rest).closed with
  | false => simp [literalPiece, hclosed] at h
  | true =>
      rw [literalPiece, List.getLast?_cons, getLast?_source_readLiteral hclosed, Option.getD_some]

section
variable {kind : String → κ}

theorem spells_variable (hnext : ∀ rest, next '{' rest = variablePiece kind rest) {name : String}
    (h : IsName name) : Spells next ('{' :: (name.toList ++ ['}'])) rest [kind name] := by
  refine spells_token ?_
  rw [hnext, List.append_assoc]
  exact variablePiece_eq h

theorem spells_literal {q : Char} (hnext : ∀ rest, next q rest = literalPiece kind q rest)
    {x : String} (hx : Doublable q x.toList) (hrest : rest.head? ≠ some q) :
    Spells next (q :: (doubleQuotes q x.toList ++ [q])) rest [kind x] := by
  refine spells_token ?_
  rw [hnext, List.append_assoc]
  exact literalPiece_eq hx hrest

variable (hnext : ∀ rest, next '\'' rest = literalPiece kind '\'' rest) {x : String}
include hnext

/-- A literal with a value that cannot be written is read with another value. -/
theorem exists_ne_of_not_doublable (hx : ¬ Doublable '\'' x.toList) (rest : List Char) :
    ∃ y more, y ≠ x ∧ kindsOf (cut next (quoted x.toList ++ rest)) = kind y :: more := by
  have hquoted : quoted x.toList ++ rest =
      '\'' :: (doubleQuotes '\'' x.toList ++ '\'' :: rest) := by
    simp [quoted]
  rw [hquoted, cut_cons, kindsOf, List.filterMap_cons_some (by rw [hnext, token?_literalPiece])]
  refine ⟨_, _, fun hvalue => ?_, rfl⟩
  have hlist := congrArg String.toList hvalue
  rw [String.toList_ofList] at hlist
  exact value_readLiteral_ne (by simp) hx hlist

end

end

end FormLogic
