import FormLogic.Proofs.Blanking
import FormLogic.Proofs.Condition.Composition
import FormLogic.Proofs.Expr.Folded

/-!
# FormLogic.Proofs.Recasing

Sources in another letter case. `Recased kept 0 s t` says that the text `t` is the
source `s` but for the case of letters whose bytes lie in none of the spans `kept`.
A language that ignores case reads a piece of `t` as the piece of `s` at the same
place, up to the case of names (`Ignores`), so it reads the whole of `t` as it reads
`s` (`located_recased`) when `kept` holds the spans of the tokens that keep their text:

* `Condition.lex_recased`, `Evaluator.condition_recased` — conditions keep their tokens
  and their truth;
* `Expr.parseExpr_recased` — value expressions keep their trees.
-/

namespace FormLogic

open Text

/-! ## Changing the case of letters -/

/-- Whether `t` is `s` but for the case of letters that lie in none of some spans, when
both stand behind `n` bytes. -/
def Recased (kept : List Span) : (n : Nat) → (s t : List Char) → Prop
  | _, [], [] => True
  | n, c :: s, d :: t =>
    (d = c ∨ d.toLower = c.toLower ∧ ∀ a ∈ kept, ¬ a.Contains n) ∧
      Recased kept (n + c.utf8Size) s t
  | _, _, _ => False

instance Recased.decidable (kept : List Span) : (n : Nat) → (s t : List Char) →
    Decidable (Recased kept n s t)
  | _, [], [] => inferInstanceAs (Decidable True)
  | n, c :: s, d :: t =>
    have := Recased.decidable kept (n + c.utf8Size) s t
    inferInstanceAs (Decidable ((d = c ∨ d.toLower = c.toLower ∧ ∀ a ∈ kept, ¬ a.Contains n) ∧
      Recased kept (n + c.utf8Size) s t))
  | _, [], _ :: _ => inferInstanceAs (Decidable False)
  | _, _ :: _, [] => inferInstanceAs (Decidable False)

namespace Recased

variable {kept : List Span} {n : Nat} {s t u : List Char}

theorem sameLetters (h : Recased kept n s t) : SameLetters t s := by
  fun_induction Recased kept n s t with
  | case1 => rfl
  | case2 n c s d t ih =>
      obtain ⟨hfirst, hrest⟩ := h
      have hlower : d.toLower = c.toLower := hfirst.elim (congrArg Char.toLower) And.left
      exact congrArg₂ List.cons hlower (ih hrest)
  | case3 => contradiction

/-- A text behind another one is changed behind it. -/
theorem exists_append (h : Recased kept n (s ++ u) t) :
    ∃ s' u', t = s' ++ u' ∧ Recased kept n s s' ∧ Recased kept (n + byteLength s) u u' := by
  induction s generalizing n t with
  | nil => exact ⟨[], t, rfl, trivial, h⟩
  | cons c s ih =>
      cases t with
      | nil => contradiction
      | cons d t =>
          obtain ⟨hfirst, hrest⟩ := h
          obtain ⟨s', u', rfl, hs, hu⟩ := ih hrest
          refine ⟨d :: s', u', rfl, ⟨hfirst, hs⟩, ?_⟩
          rwa [byteLength_cons, ← Nat.add_assoc]

/-- What lies in a span that is kept is not changed. -/
theorem eq_of_mem (h : Recased kept n s t) {a : Span} (ha : a ∈ kept) (hstart : a.offset ≤ n)
    (hend : n + byteLength s ≤ a.offset + a.length) : t = s := by
  fun_induction Recased kept n s t with
  | case1 => rfl
  | case2 n c s d t ih =>
      obtain ⟨hfirst, hrest⟩ := h
      have hpos := c.utf8Size_pos
      rw [byteLength_cons] at hend
      have hcontains : a.Contains n := ⟨hstart, by omega⟩
      have hsame : d = c := hfirst.resolve_right fun hout => hout.2 a ha hcontains
      rw [hsame, ih hrest (by omega) (by omega)]
  | case3 => contradiction

end Recased

/-! ## Readings without case -/

section
variable {κ : Type}

/-- A reading with its kind changed. -/
def Reading.map (fold : κ → κ) : Reading κ → Reading κ
  | .blank => .blank
  | .token k => .token (fold k)
  | .openToken k missing => .openToken (fold k) missing
  | .skipped why => .skipped why

@[simp] theorem Reading.token?_map (fold : κ → κ) (r : Reading κ) :
    (r.map fold).token? = r.token?.map fold := by
  cases r <;> rfl

@[simp] theorem Reading.anomaly?_map (fold : κ → κ) (r : Reading κ) :
    (r.map fold).anomaly? = r.anomaly? := by
  cases r <;> rfl

/-- A token with its kind changed. -/
def Token.map (fold : κ → κ) (t : Token κ) : Token κ := ⟨fold t.kind, t.span⟩

@[simp] theorem Token.map_id : Token.map (id : κ → κ) = id := rfl

/-- Some pieces with their spans, without what `fold` forgets. -/
def locatedFolded (fold : κ → κ) (p : Position) (pieces : List (Piece κ)) :
    List (Reading κ × Span) :=
  (located p pieces).map (Prod.map (·.map fold) id)

theorem locatedFolded_cons (fold : κ → κ) (p : Position) (x : Piece κ) (pieces : List (Piece κ)) :
    locatedFolded fold p (x :: pieces) =
      (x.reading.map fold, p.span x.text) :: locatedFolded fold (p.after x.text) pieces := rfl

theorem map_tokensOf (fold : κ → κ) (pieces : List (Piece κ)) :
    (tokensOf pieces).map (Token.map fold) =
      (locatedFolded fold .start pieces).filterMap fun x => x.1.token?.map (⟨·, x.2⟩) := by
  rw [tokensOf, locatedFolded, List.map_filterMap, List.filterMap_map]
  refine List.filterMap_congr fun x _ => ?_
  simp [Token.map, Function.comp_def]

theorem anomaliesOf_eq (fold : κ → κ) (pieces : List (Piece κ)) :
    anomaliesOf pieces =
      (locatedFolded fold .start pieces).filterMap fun x => x.1.anomaly?.map (⟨·, x.2⟩) := by
  rw [anomaliesOf, locatedFolded, List.filterMap_map]
  refine List.filterMap_congr fun x _ => ?_
  simp

/-- Pieces of the same length that are read alike but for what `fold` forgets. -/
structure Piece.Resembles (fold : κ → κ) (x y : Piece κ) : Prop where
  length : x.text.length = y.text.length
  reading : x.reading.map fold = y.reading.map fold

variable {fold : κ → κ}

theorem Piece.Resembles.of_eq {x y : Piece κ} (h : x = y) : x.Resembles fold y := by
  rw [h]
  exact ⟨rfl, rfl⟩

section
variable {s t : List Char} (h : SameLetters t s)
include h

/-- A text in which a variable is kept has the same variable in front. -/
theorem variablePiece_of_kept {kind : String → κ}
    (hkept : (variablePiece kind s).text <+: '{' :: t) :
    variablePiece kind t = variablePiece kind s := by
  by_cases hclosed : '}' ∈ s
  · obtain ⟨inside, s, rfl, hinside⟩ := List.eq_append_cons_of_mem hclosed
    rw [List.append_cons, variablePiece_of_closed hinside] at hkept
    obtain ⟨t, rfl⟩ := (List.prefix_cons_inj '{').mp hkept
    rw [List.append_cons inside '}' s, variablePiece_of_closed hinside,
      variablePiece_of_closed hinside]
  · have hinside : s.takeWhile (· != '}') = s :=
      List.takeWhile_eq_self_iff.mpr fun c hc => by
        simpa using fun heq : c = '}' => hclosed (heq ▸ hc)
    have hwhole : s <+: t := by simpa [variablePiece, hclosed, hinside] using hkept
    rw [hwhole.eq_of_length h.length_eq.symm]

/-- A text in which a literal is kept has the same literal in front. -/
theorem literalPiece_of_kept {kind : String → κ} {q : Char} (hq : q.isAlpha = false)
    (hkept : (literalPiece kind q s).text <+: q :: t) :
    literalPiece kind q t = literalPiece kind q s := by
  obtain ⟨behind, hs, hopen, hclosed⟩ := readLiteral_source (q := q) s
  obtain ⟨behind', ht⟩ := (List.prefix_cons_inj q).mp hkept
  cases hend : (readLiteral q s).closed with
  | false =>
      have hwhole : (readLiteral q s).source = s := by
        rw [hopen hend, List.append_nil] at hs
        exact hs.symm
      have hwithin : s <+: t := ⟨behind', by rwa [hwhole] at ht⟩
      rw [hwithin.eq_of_length h.length_eq.symm]
  | true =>
      obtain ⟨hquote, hsteady⟩ := hclosed hend
      have hwhole : SameLetters ((readLiteral q s).source ++ behind')
          ((readLiteral q s).source ++ behind) := by rwa [ht, ← hs]
      have hbehind : SameLetters behind' behind := hwhole.of_append_left
      have hread : readLiteral q t = readLiteral q s := by
        rw [← ht]
        exact hsteady behind' (hbehind.head?_ne hq hquote)
      rw [literalPiece, literalPiece, hread]

section
variable {kind : String → κ} {keeps : κ → Bool} (hkeeps : ∀ name, keeps (kind name) = true)
include hkeeps

theorem variablePiece_resembles (hkept : ∀ k ∈ (variablePiece kind s).reading.token?,
    keeps k = true → (variablePiece kind s).text <+: '{' :: t) :
    (variablePiece kind t).Resembles fold (variablePiece kind s) := by
  have htoken : (variablePiece kind s).reading.token? =
      some (kind (String.ofList (trim (s.takeWhile (· != '}'))))) := by
    unfold variablePiece
    split <;> rfl
  exact .of_eq (variablePiece_of_kept h (hkept _ htoken (hkeeps _)))

theorem literalPiece_resembles {q : Char} (hq : q.isAlpha = false)
    (hkept : ∀ k ∈ (literalPiece kind q s).reading.token?,
      keeps k = true → (literalPiece kind q s).text <+: q :: t) :
    (literalPiece kind q t).Resembles fold (literalPiece kind q s) :=
  .of_eq (literalPiece_of_kept h hq (hkept _ token?_literalPiece (hkeeps _)))

end

/-- A word in another letter case is a word of the same letters. -/
theorem wordPiece_resembles {p : Char → Bool} {read : List Char → Reading κ} {c d : Char}
    (hp : ∀ c, p c.toLower = p c) (hc : p c = true) (hd : d.toLower = c.toLower)
    (hread : ∀ word word', (∀ x ∈ word, p x = true) → (∀ x ∈ word', p x = true) →
      SameLetters word' word → (read word').map fold = (read word).map fold) :
    (wordPiece p read d t).Resembles fold (wordPiece p read c s) := by
  have hword : ∀ {c : Char} (s : List Char), p c = true → ∀ x ∈ c :: s.takeWhile p, p x = true :=
    fun s hc => List.forall_mem_cons.mpr ⟨hc, fun _ => List.mem_takeWhile_imp⟩
  have hpd : p d = true := by rw [← hp, hd, hp, hc]
  have hletters : SameLetters (d :: t.takeWhile p) (c :: s.takeWhile p) :=
    congrArg₂ List.cons hd (h.takeWhile hp)
  exact ⟨hletters.length_eq, hread _ _ (hword s hc) (hword t hpd) hletters⟩

end

/-! ## Languages without case -/

/-- A language that reads letters in any case, but for what `fold` forgets and for tokens
of the kinds `keeps`, which keep their text. -/
structure Ignores (next : Char → List Char → Piece κ) (keeps : κ → Bool) (fold : κ → κ) :
    Prop where
  resembles {c d : Char} {s t : List Char} (hd : d.toLower = c.toLower) (h : SameLetters t s)
    (hkept : ∀ k ∈ (next c s).reading.token?, keeps k = true → (next c s).text <+: d :: t) :
    (next d t).Resembles fold (next c s)

/-- The spans of the tokens of some kinds. -/
def Lexed.spansOf (l : Lexed κ) (keeps : κ → Bool) : List Span :=
  (l.tokens.filter (keeps ·.kind)).map (·.span)

variable [TokenKind κ] {next : Char → List Char → Piece κ} {keeps : κ → Bool}

/-- The piece in front ends where it ended, and is read as it was. -/
theorem next_recased (hlawful : LawfulCut next) (hignores : Ignores next keeps fold) {c d : Char}
    {s t u v : List Char} (hstarts : PieceStarts (next c) c s u)
    (hfront : SameLetters (d :: t) (c :: s)) (hbehind : SameLetters v u)
    (hkept : ∀ k ∈ (next c (s ++ u)).reading.token?, keeps k = true → d :: t = c :: s) :
    (next d (t ++ v)).text = d :: t ∧
      (next d (t ++ v)).reading.map fold = (next c (s ++ u)).reading.map fold := by
  obtain ⟨hd, hrest⟩ := List.cons.inj hfront
  have hpiece : (next d (t ++ v)).Resembles fold (next c (s ++ u)) := by
    refine hignores.resembles hd (SameLetters.append hrest hbehind) fun k hk hkeeps => ?_
    rw [hstarts.text, ← hkept k hk hkeeps]
    exact List.prefix_append (d :: t) v
  refine ⟨?_, hpiece.reading⟩
  obtain ⟨t', v', hsplit, hstarts'⟩ := hlawful.steady d (t ++ v)
  have hlength : (d :: t').length = (d :: t).length := by
    rw [hfront.length_eq, ← hstarts.text, ← hstarts'.text, ← hsplit, hpiece.length]
  rw [hsplit, hstarts'.text, (List.append_inj hsplit (Nat.succ.inj hlength).symm).1]

/-- The pieces of a changed source have the readings and the spans that they had. -/
theorem located_recased (hlawful : LawfulCut next) (hignores : Ignores next keeps fold)
    {kept : List Span} {p : Position} {s t : List Char} (h : Recased kept p.offset s t)
    (hkept : ∀ r a, (r, a) ∈ located p (cut next s) → ∀ k ∈ r.token?, keeps k = true → a ∈ kept) :
    locatedFolded fold p (cut next t) = locatedFolded fold p (cut next s) := by
  refine cut_induction hlawful (motive := fun s pieces => ∀ p t, Recased kept p.offset s t →
    (∀ r a, (r, a) ∈ located p pieces → ∀ k ∈ r.token?, keeps k = true → a ∈ kept) →
      locatedFolded fold p (cut next t) = locatedFolded fold p pieces) ?_ ?_ s p t h hkept
  · intro p t h _
    cases t with
    | nil => rw [cut_nil]
    | cons => contradiction
  · intro c s u hstarts ih p t h hkept
    -- `front` is the changed piece, which is kept as it was or has other letters
    rw [located, hstarts.text] at hkept
    obtain ⟨front, v, rfl, hfront, hv⟩ := h.exists_append
    cases front with
    | nil => contradiction
    | cons d front =>
        have hletters : SameLetters (d :: front) (c :: s) := hfront.sameLetters
        have hbehind : locatedFolded fold (p.after (c :: s)) (cut next v) =
            locatedFolded fold (p.after (c :: s)) (cut next u) :=
          ih _ _ (by rwa [Position.offset_after]) fun r a hmem =>
            hkept r a (List.mem_cons_of_mem _ hmem)
        obtain ⟨htext, hreading⟩ := next_recased hlawful hignores hstarts hletters hv.sameLetters
          fun k hk hkeeps =>
            have hspan : p.span (c :: s) ∈ kept := hkept _ _ List.mem_cons_self k hk hkeeps
            hfront.eq_of_mem hspan (Nat.le_refl _) (Nat.le_refl _)
        rw [cut_append htext, locatedFolded_cons, locatedFolded_cons, htext, hstarts.text,
          hletters.span_eq, hletters.after_eq, hreading, hbehind]

/-- A source in another letter case is read with the same anomalies and, but for what
`fold` forgets, with the same tokens. -/
theorem lexWith_recased (hlawful : LawfulCut next) (hignores : Ignores next keeps fold)
    {s t : List Char} (h : Recased ((lexWith next s).spansOf keeps) 0 s t) :
    (tokensOf (cut next t)).map (Token.map fold) = (tokensOf (cut next s)).map (Token.map fold) ∧
      endSpan t = endSpan s ∧ anomaliesOf (cut next t) = anomaliesOf (cut next s) := by
  have hlocated : locatedFolded fold .start (cut next t) =
      locatedFolded fold .start (cut next s) := by
    refine located_recased hlawful hignores h fun r a hmem k hk hkeeps => ?_
    have htoken : (⟨k, a⟩ : Token κ) ∈ tokensOf (cut next s) :=
      List.mem_filterMap.mpr ⟨(r, a), hmem, by simp [Option.mem_def.mp hk]⟩
    exact List.mem_map.mpr
      ⟨⟨k, a⟩, List.mem_filter.mpr ⟨List.mem_append_left _ htoken, hkeeps⟩, rfl⟩
  refine ⟨by rw [map_tokensOf, map_tokensOf, hlocated], ?_, ?_⟩
  · rw [endSpan, endSpan, h.sameLetters.after_eq]
  · rw [anomaliesOf_eq fold, hlocated, ← anomaliesOf_eq]

end

/-! ## Conditions -/

namespace Condition

/-- Whether a token of the kind keeps the text that it was read from. -/
def Kind.keepsText : Kind → Bool
  | .var _ | .text _ => true
  | _ => false

theorem isWordChar_toLower (c : Char) : isWordChar c.toLower = isWordChar c := by
  rcases toLower_eq_self_or c with hsame | ⟨hc, hlower⟩
  · rw [hsame]
  · simp [isWordChar, hc, hlower]

theorem toNat_of_isWordChar {c : Char} (h : isWordChar c = true) : c.toNat < 0x80 := by
  simp only [isWordChar, Bool.or_eq_true, beq_iff_eq] at h
  rcases h with ((halpha | rfl) | rfl) | rfl
  · have hn := toNat_of_isAlpha halpha
    omega
  · decide
  · decide
  · decide

theorem readWord_congr {word word' : List Char} (hword : ∀ c ∈ word, isWordChar c = true)
    (hword' : ∀ c ∈ word', isWordChar c = true) (h : SameLetters word' word) :
    readWord word' = readWord word := by
  have hlower : lowercase word' = lowercase word :=
    h.lowercase_eq (fun c hc => toNat_of_isWordChar (hword' c hc)) fun c hc =>
      toNat_of_isWordChar (hword c hc)
  rw [readWord, readWord, hlower]

/-- Conditions are read in any letter case. -/
theorem ignores : Ignores nextPiece Kind.keepsText id where
  resembles {c d s t} hd h hkept := by
    have hword : isWordChar c = true →
        (wordPiece isWordChar readWord d t).Resembles id (wordPiece isWordChar readWord c s) :=
      fun hc => wordPiece_resembles h isWordChar_toLower hc hd fun _ _ hall hall' hletters => by
        rw [readWord_congr hall hall' hletters]
    rcases eq_or_isAlpha_of_toLower_eq hd with rfl | ⟨halpha, hc⟩
    · unfold nextPiece at hkept ⊢
      split_ifs at hkept ⊢ with hblank hvariable hquote hleft hright hc
      · exact .of_eq rfl
      · obtain rfl := hvariable
        exact variablePiece_resembles h (fun _ => rfl) hkept
      · obtain rfl := hquote
        exact literalPiece_resembles h (fun _ => rfl) rfl hkept
      · exact .of_eq rfl
      · exact .of_eq rfl
      · exact hword hc
      · exact .of_eq rfl
    · rw [nextPiece_of_isAlpha halpha, nextPiece_of_isAlpha hc]
      exact hword (by simp [isWordChar, hc])

/-- A condition in another letter case has the same tokens and anomalies. -/
theorem lex_recased {source recased : String}
    (h : Recased ((lex source).spansOf Kind.keepsText) 0 source.toList recased.toList) :
    lex recased = lex source := by
  obtain ⟨htokens, hend, hanomalies⟩ := lexWith_recased lawfulCut ignores h
  rw [Token.map_id, List.map_id, List.map_id] at htokens
  simp only [lex, lexWith, htokens, hend, hanomalies]

theorem parseCondition_recased {source recased : String} (strict : Bool)
    (parsed : Parsed Condition)
    (h : Recased ((lex source).spansOf Kind.keepsText) 0 source.toList recased.toList) :
    parseCondition recased strict = .ok parsed ↔ parseCondition source strict = .ok parsed := by
  obtain ⟨tree, as⟩ := parsed
  rw [parseCondition, parseWith_eq_ok, parseWith_eq_ok, lex_recased h,
    ofTokens_congr recased source _ _ tree rfl]

end Condition

/-- A condition in another letter case is true in the same states. -/
theorem Evaluator.condition_recased (ev : Evaluator) {source recased : String}
    (h : Recased ((Condition.lex source).spansOf Condition.Kind.keepsText) 0 source.toList
      recased.toList) (s : State) : ev.condition recased s = ev.condition source s := by
  have hread := fun parsed => Condition.parseCondition_recased ev.strict parsed h
  cases hsource : parseCondition source ev.strict with
  | ok parsed => simp [condition, condition?, hsource, (hread parsed).mpr hsource]
  | error fault =>
      cases hrecased : parseCondition recased ev.strict with
      | ok parsed =>
          have hok := (hread parsed).mp hrecased
          rw [hsource] at hok
          contradiction
      | error => simp [condition, condition?, hsource, hrecased, Except.map]

/-! ## Value expressions -/

namespace Expr

/-- Whether a token of the kind keeps the text that it was read from. -/
def Kind.keepsText : Kind → Bool
  | .var _ | .text _ => true
  | _ => false

theorem isNameChar_toLower (c : Char) : isNameChar c.toLower = isNameChar c := by
  rcases toLower_eq_self_or c with hsame | ⟨hc, hlower⟩
  · rw [hsame]
  · simp [isNameChar, Char.isAlphanum, hc, hlower]

theorem toNat_of_isNameChar {c : Char} (h : isNameChar c = true) : c.toNat < 0x80 := by
  simp only [isNameChar, Char.isAlphanum, Bool.or_eq_true, beq_iff_eq] at h
  rcases h with (halpha | hdigit) | rfl
  · have hn := toNat_of_isAlpha halpha
    omega
  · have hn := toNat_of_isDigit hdigit
    omega
  · decide

theorem readName_congr {name name' : List Char} (hname : ∀ c ∈ name, isNameChar c = true)
    (hname' : ∀ c ∈ name', isNameChar c = true) (h : SameLetters name' name) :
    (readName name').map Kind.folded = (readName name).map Kind.folded := by
  have hlower : lowercase name' = lowercase name :=
    h.lowercase_eq (fun c hc => toNat_of_isNameChar (hname' c hc)) fun c hc =>
      toNat_of_isNameChar (hname c hc)
  have hident : (Kind.ident (String.ofList name')).folded =
      (Kind.ident (String.ofList name)).folded := by
    simp [Kind.folded, String.lowercase, hlower]
  unfold readName
  dsimp only
  rw [hlower]
  split_ifs
  · rfl
  · rfl
  · rfl
  · exact congrArg Reading.token hident

theorem nextPiece_of_isAlpha {c : Char} (h : c.isAlpha = true) (rest : List Char) :
    nextPiece c rest = wordPiece isNameChar readName c rest := by
  have hstart : isNameStart c = true := by simp [isNameStart, h]
  have hblank : isBlank c = false := isBlank_of_isNameChar (isNameChar_of_isNameStart hstart)
  have hne : ∀ d : Char, d.isAlpha = false → c ≠ d := by
    rintro d hd rfl
    simp [h] at hd
  simp [nextPiece, hblank, hne, hstart]

/-- Value expressions are read in any letter case, but for names. -/
theorem ignores : Ignores nextPiece Kind.keepsText Kind.folded where
  resembles {c d s t} hd h hkept := by
    have hword : isNameStart c = true → (wordPiece isNameChar readName d t).Resembles Kind.folded
        (wordPiece isNameChar readName c s) := fun hc =>
      wordPiece_resembles h isNameChar_toLower (isNameChar_of_isNameStart hc) hd
        fun _ _ => readName_congr
    rcases eq_or_isAlpha_of_toLower_eq hd with rfl | ⟨halpha, hc⟩
    · rcases nextPiece_cases d with ⟨-, hnext⟩ | ⟨rfl, hnext⟩ | ⟨hquote, hnext⟩ | ⟨k, -, hnext⟩ |
        ⟨hc, hnext⟩ | ⟨-, hnext⟩
      · rw [hnext, hnext]
        exact .of_eq rfl
      · rw [hnext] at hkept ⊢
        rw [hnext]
        exact variablePiece_resembles h (fun _ => rfl) hkept
      · have hmark : d.isAlpha = false := by rcases hquote with rfl | rfl <;> rfl
        rw [hnext] at hkept ⊢
        rw [hnext]
        exact literalPiece_resembles h (fun _ => rfl) hmark hkept
      · rw [hnext, hnext]
        exact .of_eq rfl
      · rw [hnext, hnext]
        exact hword hc
      · rw [hnext, hnext]
        exact .of_eq rfl
    · rw [nextPiece_of_isAlpha halpha, nextPiece_of_isAlpha hc]
      exact hword (by simp [isNameStart, hc])

theorem alike_recased {source recased : String}
    (h : Recased ((lex source).spansOf Kind.keepsText) 0 source.toList recased.toList) :
    Alike (kindsOf (cut nextPiece recased.toList)) (kindsOf (cut nextPiece source.toList)) := by
  obtain ⟨htokens, -, -⟩ := lexWith_recased lawfulCut ignores h
  have hkinds : ∀ tokens : List (Token Kind),
      (tokens.map (·.kind)).map Kind.folded = (tokens.map (Token.map Kind.folded)).map (·.kind) :=
    fun tokens => by simp [Token.map]
  rw [Alike, ← map_kind_tokensOf, ← map_kind_tokensOf, hkinds, hkinds, htokens]

/-- A value expression in another letter case has the same tree and anomalies. -/
theorem parseExpr_recased {source recased : String} (strict : Bool) (parsed : Parsed Expr)
    (h : Recased ((lex source).spansOf Kind.keepsText) 0 source.toList recased.toList) :
    parseExpr recased strict = .ok parsed ↔ parseExpr source strict = .ok parsed := by
  have hanomalies : (lex recased).anomalies = (lex source).anomalies :=
    (lexWith_recased lawfulCut ignores h).2.2
  rw [parseExpr_eq_ok, parseExpr_eq_ok, accepts_iff_of_alike (alike_recased h), hanomalies]

end Expr

/-- Letter case outside of literals and variables does not matter. A condition is read as
the same tokens, at the same places and with the same anomalies, and a value expression
as the same tree with the same anomalies, or as none. -/
theorem letter_case_ignored (source recased : String) :
    (Recased ((Condition.lex source).spansOf Condition.Kind.keepsText) 0 source.toList
        recased.toList → Condition.lex recased = Condition.lex source) ∧
    (Recased ((Expr.lex source).spansOf Expr.Kind.keepsText) 0 source.toList recased.toList →
      ∀ strict parsed,
        parseExpr recased strict = .ok parsed ↔ parseExpr source strict = .ok parsed) :=
  ⟨Condition.lex_recased, fun h strict parsed => Expr.parseExpr_recased strict parsed h⟩

/-- Words of both languages, among them an unknown one, between texts with wide
characters and with letters of their own case, and one that is never closed. -/
theorem letter_case_ignored_words :
    ∃ condition condition' expr expr' : String,
      condition = "\x7bÄ\x7d ICONTAINS 'É b' and foo (oR \x7bb\x7d != 'Yes or" ∧
      condition' = "\x7bÄ\x7d iContains 'É b' AND FOO (Or \x7bb\x7d != 'Yes or" ∧
      expr = "IF(\x7bÄ\x7d is 'Yes', ReplaceAll(\x7bb\x7d, 'Y', \"é\"), FALSE) + tRUE" ∧
      expr' = "if(\x7bÄ\x7d IS 'Yes', REPLACEALL(\x7bb\x7d, 'Y', \"é\"), False) + true" ∧
      Condition.lex condition' = Condition.lex condition ∧
      (Condition.lex condition).anomalies.length = 2 ∧
      (∀ strict parsed, parseExpr expr' strict = .ok parsed ↔ parseExpr expr strict = .ok parsed) ∧
      (parseExpr expr true).isOk = true := by
  let condition := "\x7bÄ\x7d ICONTAINS 'É b' and foo (oR \x7bb\x7d != 'Yes or"
  let condition' := "\x7bÄ\x7d iContains 'É b' AND FOO (Or \x7bb\x7d != 'Yes or"
  let expr := "IF(\x7bÄ\x7d is 'Yes', ReplaceAll(\x7bb\x7d, 'Y', \"é\"), FALSE) + tRUE"
  let expr' := "if(\x7bÄ\x7d IS 'Yes', REPLACEALL(\x7bb\x7d, 'Y', \"é\"), False) + true"
  have hcondition : Recased ((Condition.lex condition).spansOf Condition.Kind.keepsText) 0
      condition.toList condition'.toList := by decide +kernel
  have hexpr : Recased ((Expr.lex expr).spansOf Expr.Kind.keepsText) 0 expr.toList
      expr'.toList := by decide +kernel
  exact ⟨condition, condition', expr, expr', rfl, rfl, rfl, rfl,
    (letter_case_ignored condition condition').1 hcondition, by decide +kernel,
    (letter_case_ignored expr expr').2 hexpr, by decide +kernel⟩

end FormLogic
