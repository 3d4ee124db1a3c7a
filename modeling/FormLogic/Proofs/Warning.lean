import FormLogic.Proofs.Enclosed
import FormLogic.Proofs.Lossless
import FormLogic.Proofs.Text.Position

/-!
# FormLogic.Proofs.Warning

Where the warnings of a check point. A warning stands at the first character of
the text that it tells about, counted in the text that was lexed
(`exists_pointsAt_of_mem_anomalies`). For a condition that is the expression
itself. A value is lexed without the blanks around it, and without a pair of
quotes, so its warnings are short of what stands in front (`ReadIn`): by lines and
by the columns of the first line.
-/

namespace FormLogic

open Text

/-! ## Messages -/

namespace AnomalyKind

theorem getElem?_toList_between {u : String} {n : Nat} (h : n < u.toList.length) (s v : String) :
    (u ++ s ++ v).toList[n]? = u.toList[n]? := by
  simp only [String.toList_append, List.append_assoc]
  exact List.getElem?_append_left h

theorem eq_of_between {s t u v : String} (h : u ++ s ++ v = u ++ t ++ v) : s = t := by
  have hlist := congrArg String.toList h
  simp only [String.toList_append] at hlist
  exact String.toList_inj.mp (List.append_cancel_left (List.append_cancel_right hlist))

/-- The first character by which the messages of warnings of different kinds all
differ. -/
def mark : AnomalyKind → Char
  | .unknownWord _ => 'n'
  | .unexpectedCharacter _ => 'x'
  | .unterminatedString => 'r'
  | .unterminatedVariable => 'f'

theorem getElem?_warning (why : AnomalyKind) : why.warning.toList[11]? = some why.mark := by
  cases why with
  | unknownWord word =>
      have hfront : "ignored unknown word '".toList[11]? = some 'n' := by decide +kernel
      exact (getElem?_toList_between (by decide +kernel) _ _).trans hfront
  | unexpectedCharacter c =>
      have hfront : "ignored unexpected character '".toList[11]? = some 'x' := by decide +kernel
      exact (getElem?_toList_between (by decide +kernel) _ _).trans hfront
  | unterminatedString => decide +kernel
  | unterminatedVariable => decide +kernel

/-- The message of a warning says all that is known about an anomaly. -/
theorem warning_injective : Function.Injective warning := by
  intro why why' h
  have hmark : why.mark = why'.mark := by
    refine Option.some.inj ?_
    rw [← getElem?_warning, h, getElem?_warning]
  cases why <;> cases why' <;> simp only [mark, Char.reduceEq] at hmark
  case unterminatedString.unterminatedString => rfl
  case unterminatedVariable.unterminatedVariable => rfl
  case unknownWord.unknownWord word word' => rw [eq_of_between h]
  case unexpectedCharacter.unexpectedCharacter c c' =>
      have hc := congrArg String.toList (eq_of_between h)
      simp only [Char.toString_eq_singleton, String.toList_singleton] at hc
      rw [List.singleton_inj.mp hc]

end AnomalyKind

/-! ## What a warning tells about -/

/-- The text that is out of place: the character, the word in some letter case, or
what starts with a mark that is never closed. -/
def AnomalyKind.Shows (text : List Char) : AnomalyKind → Prop
  | .unexpectedCharacter c => text = [c]
  | .unknownWord word => lowercase text = word.toList
  | .unterminatedString => ∃ q s, text = q :: s ∧ IsQuote q ∧ (readLiteral q s).closed = false
  | .unterminatedVariable => ∃ s, text = '{' :: s ∧ '}' ∉ s

/-- A warning about a text that stands behind `before`. -/
structure Warning.PointsAt (w : Warning) (before text : List Char) : Prop where
  ne_nil : text ≠ []
  tells : ∃ why : AnomalyKind, w.message = why.warning ∧ why.Shows text
  line : w.line = lineBehind before
  column : w.column = columnBehind before

/-- A warning about a text at its place in an expression. -/
def Warning.Points (expr : List Char) (w : Warning) : Prop :=
  ∃ before text behind, expr = before ++ (text ++ behind) ∧ w.PointsAt before text

/-- With a text in front, a warning still points at the same text only if no line
feed comes in front and none of the characters of its own line. -/
theorem Warning.PointsAt.append_iff {w : Warning} {before text : List Char}
    (h : w.PointsAt before text) (front : List Char) :
    w.PointsAt (front ++ before) text ↔ '\n' ∉ front ∧ (front = [] ∨ '\n' ∈ before) := by
  rw [← behind_append_eq_iff]
  constructor
  · intro h'
    exact ⟨h'.line.symm.trans h.line, h'.column.symm.trans h.column⟩
  · intro hplace
    exact ⟨h.ne_nil, h.tells, h.line.trans hplace.1.symm, h.column.trans hplace.2.symm⟩

/-! ## Pieces -/

section
variable {κ : Type}

theorem shows_variablePiece {kind : String → κ} {rest : List Char} {why : AnomalyKind}
    (h : (variablePiece kind rest).reading.anomaly? = some why) :
    why.Shows (variablePiece kind rest).text := by
  unfold variablePiece at h ⊢
  split at h
  · contradiction
  · rename_i hmem
    obtain rfl := Option.some.inj h
    rw [if_neg hmem]
    refine ⟨_, rfl, fun hinside => ?_⟩
    simpa using List.mem_takeWhile_imp hinside

theorem shows_literalPiece {kind : String → κ} {q : Char} (hq : IsQuote q) {rest : List Char}
    {why : AnomalyKind} (h : (literalPiece kind q rest).reading.anomaly? = some why) :
    why.Shows (literalPiece kind q rest).text := by
  cases hclosed : (readLiteral q rest).closed with
  | true => simp [literalPiece, hclosed, Reading.anomaly?] at h
  | false =>
      obtain rfl : .unterminatedString = why := by
        simpa [literalPiece, hclosed, Reading.anomaly?] using h
      -- an open literal takes up all of the rest
      obtain ⟨t, hrest, hnil, -⟩ := readLiteral_source rest
      obtain rfl := hnil hclosed
      rw [List.append_nil] at hrest
      exact ⟨q, _, rfl, hq, by rwa [← hrest]⟩

variable [TokenKind κ] {next : Char → List Char → Piece κ}

/-- The warning of an anomaly points at its place in the text that is lexed, when
the pieces of the language are what their anomalies say. -/
theorem exists_pointsAt_of_mem_anomalies (h : LawfulCut next)
    (hshows : ∀ c rest why, (next c rest).reading.anomaly? = some why →
      why.Shows (next c rest).text) {source : List Char} {a : Anomaly}
    (ha : a ∈ (lexWith next source).anomalies) : a.warning.Points source := by
  obtain ⟨r, hmem, hwhy⟩ := exists_of_mem_anomaliesOf ha
  obtain ⟨xs, x, ys, hcut, rfl, hspan⟩ := exists_of_mem_located hmem
  have hx : x ∈ cut next source := by simp [hcut]
  have hsource := flatMap_text_cut h source
  obtain ⟨c, rest, rfl⟩ := exists_of_mem_cut hx
  refine ⟨xs.flatMap (·.text), (next c rest).text, ys.flatMap (·.text), ?_,
    text_ne_nil_of_mem_cut h hx, ⟨a.kind, rfl, hshows c rest a.kind hwhy⟩, ?_, ?_⟩
  · rw [← hsource, hcut, List.flatMap_append, List.flatMap_cons]
  · rw [Anomaly.warning, hspan, after_start]
    rfl
  · rw [Anomaly.warning, hspan, after_start]
    rfl

end

/-- What is out of place in a condition. -/
theorem Condition.shows_of_anomaly? {c : Char} {rest : List Char} {why : AnomalyKind}
    (h : (nextPiece c rest).reading.anomaly? = some why) : why.Shows (nextPiece c rest).text := by
  unfold nextPiece at h ⊢
  split_ifs at h ⊢ with hblank hvariable hquote hleft hright hword
  · contradiction
  · exact shows_variablePiece h
  · exact shows_literalPiece (.inl rfl) h
  · contradiction
  · contradiction
  · simp only [wordPiece, readWord] at h ⊢
    split_ifs at h
    · contradiction
    · contradiction
    · contradiction
    · obtain rfl := Option.some.inj h
      exact String.toList_ofList.symm
  · obtain rfl := Option.some.inj h
    rfl

/-- What is out of place in a value expression. -/
theorem Expr.shows_of_anomaly? {c : Char} {rest : List Char} {why : AnomalyKind}
    (h : (nextPiece c rest).reading.anomaly? = some why) : why.Shows (nextPiece c rest).text := by
  rcases nextPiece_cases c with ⟨-, hnext⟩ | ⟨-, hnext⟩ | ⟨hquote, hnext⟩ | ⟨k, -, hnext⟩ |
    ⟨-, hnext⟩ | ⟨-, hnext⟩
  · rw [hnext] at h
    contradiction
  · rw [hnext] at h ⊢
    exact shows_variablePiece h
  · rw [hnext] at h ⊢
    exact shows_literalPiece hquote h
  · rw [hnext] at h
    contradiction
  · rw [hnext] at h
    simp only [wordPiece, readName] at h
    split_ifs at h <;> contradiction
  · rw [hnext] at h ⊢
    obtain rfl := Option.some.inj h
    rfl

/-! ## What a value is read from -/

/-- The stretch `read` of an expression, behind `front`, is the expression without
the blanks around it, or what a pair of quotes between the blanks holds. -/
def ReadIn (expr front read : List Char) : Prop :=
  (∃ back, expr = front ++ (read ++ back)) ∧
    (read = trim expr ∧ (∀ c ∈ front, isBlank c = true) ∨
      enclosed? (trim expr) = some read ∧
        ∃ blanks q, front = blanks ++ [q] ∧ (∀ c ∈ blanks, isBlank c = true) ∧ IsQuote q)

theorem exists_readIn_trim (expr : List Char) : ∃ front, ReadIn expr front (trim expr) := by
  obtain ⟨u, v, hexpr, hu, -⟩ := exists_eq_append_trim expr
  exact ⟨u, ⟨v, hexpr⟩, .inl ⟨rfl, hu⟩⟩

theorem exists_readIn_of_enclosed? {expr inner : List Char}
    (h : enclosed? (trim expr) = some inner) : ∃ front, ReadIn expr front inner := by
  obtain ⟨u, v, hexpr, hu, -⟩ := exists_eq_append_trim expr
  obtain ⟨q, hq, hquoted⟩ := eq_of_enclosed? h
  refine ⟨u ++ [q], ?_, .inr ⟨h, u, q, rfl, hu, hq⟩⟩
  rcases hquoted with halone | hwrapped
  · -- a quote alone holds the empty text
    obtain rfl : inner = [] := by
      rw [halone, enclosed?_cons, if_pos ⟨hq, rfl⟩] at h
      exact (Option.some.inj h).symm
    exact ⟨v, hexpr.trans (by simp [halone])⟩
  · exact ⟨q :: v, hexpr.trans (by simp [hwrapped, wrapped])⟩

namespace Evaluator

variable {ev : Evaluator} {p : Parsed Expr}

theorem anomalies_of_parseExpr {source : String} {strict : Bool}
    (h : parseExpr source strict = .ok p) : p.anomalies = (Expr.lex source).anomalies := by
  obtain ⟨tree, as⟩ := p
  exact (parseWith_eq_ok.mp h).2.1

theorem anomalies_of_parseUnquoted {text : List Char} (h : ev.parseUnquoted text = .ok p) :
    p.anomalies ⊆ (Expr.lex (String.ofList text)).anomalies := by
  unfold parseUnquoted at h
  split_ifs at h
  · obtain rfl := Except.ok.inj h
    exact List.nil_subset _
  · rw [anomalies_of_parseExpr h]
    exact List.Subset.refl _

/-- The anomalies of a value are those of the stretch that it is read from. -/
theorem exists_readIn_of_parseValue {expr : String} (h : ev.parseValue expr = .ok p) :
    ∃ front read, ReadIn expr.toList front read ∧
      p.anomalies ⊆ (Expr.lex (String.ofList read)).anomalies := by
  obtain ⟨strict⟩ := ev
  cases henclosed : enclosed? (trim expr.toList) with
  | none =>
      rw [parseValue_of_not_enclosed henclosed] at h
      obtain ⟨front, hread⟩ := exists_readIn_trim expr.toList
      exact ⟨front, trim expr.toList, hread, anomalies_of_parseUnquoted h⟩
  | some inner =>
      rcases (parseValue_eq_ok henclosed).mp h with ⟨hwhole, -⟩ | ⟨hinside, -⟩
      · obtain ⟨front, hread⟩ := exists_readIn_trim expr.toList
        refine ⟨front, trim expr.toList, hread, ?_⟩
        rw [anomalies_of_parseExpr hwhole]
        exact List.Subset.refl _
      · obtain ⟨front, hread⟩ := exists_readIn_of_enclosed? henclosed
        exact ⟨front, inner, hread, anomalies_of_parseUnquoted hinside⟩

/-! ## Warnings of a check -/

/-- Every warning about a condition points into the condition. Every warning about a
value points into the stretch that the value is read from, and at the same text in
the expression only if what stands in front of the stretch does not move it. -/
theorem warnings_point (ev : Evaluator) (expr : String) :
    (∀ r, ev.checkCondition expr = .ok r → ∀ w ∈ r.warnings, w.Points expr.toList) ∧
      ∀ r, ev.checkValue expr = .ok r → ∃ front read, ReadIn expr.toList front read ∧
        ∀ w ∈ r.warnings, ∃ before text behind,
          read = before ++ (text ++ behind) ∧ w.PointsAt before text ∧
            (w.PointsAt (front ++ before) text ↔
              '\n' ∉ front ∧ (front = [] ∨ '\n' ∈ before)) := by
  constructor
  · intro r hr w hw
    obtain ⟨⟨tree, as⟩, hp, rfl⟩ := map_eq_ok.mp hr
    obtain ⟨-, rfl, -⟩ := parseWith_eq_ok.mp hp
    obtain ⟨a, ha, rfl⟩ := List.mem_map.mp hw
    exact exists_pointsAt_of_mem_anomalies Condition.lawfulCut
      (fun _ _ _ => Condition.shows_of_anomaly?) ha
  · intro r hr
    obtain ⟨p, hp, rfl⟩ := map_eq_ok.mp hr
    obtain ⟨front, read, hread, hanomalies⟩ := exists_readIn_of_parseValue hp
    refine ⟨front, read, hread, fun w hw => ?_⟩
    obtain ⟨a, ha, rfl⟩ := List.mem_map.mp hw
    have ha := hanomalies ha
    rw [Expr.lex, String.toList_ofList] at ha
    obtain ⟨before, text, behind, hsplit, hpoints⟩ :=
      exists_pointsAt_of_mem_anomalies Expr.lawfulCut (fun _ _ _ => Expr.shows_of_anomaly?) ha
    exact ⟨before, text, behind, hsplit, hpoints, hpoints.append_iff front⟩

/-- What is skipped in a condition, and behind two blanks in a value expression. -/
theorem warnings_point_behind_blanks :
    checkCondition ⟨false⟩ "\x7ba\x7d ; == 'x'" = .ok ⟨.compare "a" .equals "x",
        [⟨"ignored unexpected character ';'", 1, 5⟩]⟩ ∧
      Warning.Points "\x7ba\x7d ; == 'x'".toList ⟨"ignored unexpected character ';'", 1, 5⟩ ∧
      checkValue ⟨false⟩ "  'a' ; + 'b'" = .ok ⟨.concat [.text "a", .text "b"],
        [⟨"ignored unexpected character ';'", 1, 5⟩]⟩ ∧
      ∃ front read before text behind, ReadIn "  'a' ; + 'b'".toList front read ∧
        read = before ++ (text ++ behind) ∧
        Warning.PointsAt ⟨"ignored unexpected character ';'", 1, 5⟩ before text := by
  have hcondition : checkCondition ⟨false⟩ "\x7ba\x7d ; == 'x'" =
      .ok ⟨.compare "a" .equals "x", [⟨"ignored unexpected character ';'", 1, 5⟩]⟩ := by
    decide +kernel
  have hvalue : checkValue ⟨false⟩ "  'a' ; + 'b'" = .ok ⟨.concat [.text "a", .text "b"],
      [⟨"ignored unexpected character ';'", 1, 5⟩]⟩ := by
    decide +kernel
  have hpoints := (warnings_point ⟨false⟩ "\x7ba\x7d ; == 'x'").1 _ hcondition _
    (List.mem_singleton_self _)
  obtain ⟨front, read, hread, hwarnings⟩ := (warnings_point ⟨false⟩ "  'a' ; + 'b'").2 _ hvalue
  obtain ⟨before, text, behind, hsplit, hat, -⟩ := hwarnings _ (List.mem_singleton_self _)
  exact ⟨hcondition, hpoints, hvalue, front, read, before, text, behind, hread, hsplit, hat⟩

/-- Behind two blanks, the warning about a semicolon points at a quote. -/
theorem checkValue_behind_blanks :
    ∃ r, checkValue ⟨false⟩ "  'a' ; + 'b'" = .ok r ∧
      ∃ w ∈ r.warnings, ¬ w.Points "  'a' ; + 'b'".toList := by
  have hvalue : checkValue ⟨false⟩ "  'a' ; + 'b'" = .ok ⟨.concat [.text "a", .text "b"],
      [⟨"ignored unexpected character ';'", 1, 5⟩]⟩ := by
    decide +kernel
  refine ⟨_, hvalue, _, List.mem_singleton_self _, ?_⟩
  rintro ⟨before, text, behind, hexpr, -, ⟨why, hmessage, hshows⟩, hline, hcolumn⟩
  have hlength : before.length = 4 :=
    Nat.succ.inj ((columnBehind_of_lineBehind hline.symm).symm.trans hcolumn.symm)
  have hrest : "  'a' ; + 'b'".toList.drop 4 = text ++ behind := by
    rw [hexpr, ← hlength, List.drop_left]
  have hsemicolon : "ignored unexpected character ';'" =
      (AnomalyKind.unexpectedCharacter ';').warning := rfl
  obtain rfl := AnomalyKind.warning_injective (hmessage.symm.trans hsemicolon)
  obtain rfl : text = [';'] := hshows
  have hquote : ("  'a' ; + 'b'".toList.drop 4).head? = some '\'' := by decide +kernel
  rw [hrest] at hquote
  exact absurd (Option.some.inj hquote) (by decide)

end Evaluator

end FormLogic
