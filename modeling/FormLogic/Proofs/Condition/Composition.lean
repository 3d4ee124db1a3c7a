import FormLogic.Proofs.Condition.Written
import FormLogic.Proofs.Evaluator
import FormLogic.Proofs.Text.Letters

/-!
# FormLogic.Proofs.Condition.Composition

Conditions put together as texts. A text that can be read on its own, with no
closing mark or parenthesis missing, can be put in parentheses and joined to
others, and it keeps its meaning there. Its pieces stay as they are
(`cut_append_of_closed`), so the kinds of a composed text are the kinds of its
parts with connectives between them, and a `Run` of these is a derivation.
`Means L value ks a` says that `ks` derives a tree that is worth what `value a`
says, which connectives turn into `all` and `any` of the values.
-/

namespace FormLogic.Condition

open Text Grammar

/-! ## Composed texts -/

/-- A connective between conditions. -/
inductive Connective where
  | and
  | or
deriving DecidableEq, Repr

/-- The word for a connective in small letters. -/
def Connective.word : Connective → String
  | .and => "and"
  | .or => "or"

/-- The kind of the tokens that are a connective. -/
def Connective.kind : Connective → Kind
  | .and => .and
  | .or => .or

/-- Whether a word is the word for a connective, in any letter case. -/
def Connective.Spells (o : Connective) (word : String) : Prop :=
  word.toList.map Char.toLower = o.word.toList

instance (o : Connective) (word : String) : Decidable (o.Spells word) :=
  inferInstanceAs (Decidable (word.toList.map Char.toLower = o.word.toList))

/-- A condition as text, behind the word for a connective. -/
structure Link where
  connective : Connective
  word : String
  text : String
deriving DecidableEq, Repr

/-- Conditions in parentheses, with the words for connectives between them. -/
def composed : (first : String) → List Link → String
  | first, [] => "(" ++ first ++ ")"
  | first, link :: more => "(" ++ first ++ ") " ++ link.word ++ " " ++ composed link.text more

/-- The runs of texts between one `or` and the next. -/
def runs : (first : String) → List Link → List (List String)
  | first, [] => [[first]]
  | first, link :: more =>
    match link.connective with
    | .and => (runs link.text more).modifyHead (first :: ·)
    | .or => [first] :: runs link.text more

/-- A text that can be part of another: it can be read, it lacks no closing mark
and no parenthesis, and at most `limit` of its parentheses are open at once. -/
structure Composable (limit : Nat) (c : String) : Prop where
  accepted : (parseCondition c false).isOk = true
  closed : ∀ a ∈ (lex c).anomalies, a.kind.isOpen = false
  balanced : Balanced .leftParen .rightParen (kindsAhead (lex c).tokens)
  shallow : Shallow .leftParen .rightParen limit (kindsAhead (lex c).tokens)

instance (limit : Nat) (c : String) : Decidable (Composable limit c) :=
  decidable_of_iff
    ((parseCondition c false).isOk = true ∧ (∀ a ∈ (lex c).anomalies, a.kind.isOpen = false) ∧
      Balanced .leftParen .rightParen (kindsAhead (lex c).tokens) ∧
      Shallow .leftParen .rightParen limit (kindsAhead (lex c).tokens))
    ⟨fun ⟨h₁, h₂, h₃, h₄⟩ => ⟨h₁, h₂, h₃, h₄⟩, fun ⟨h₁, h₂, h₃, h₄⟩ => ⟨h₁, h₂, h₃, h₄⟩⟩

/-! ## Kinds of composed texts -/

theorem nextPiece_of_isAlpha {c : Char} (h : c.isAlpha = true) (rest : List Char) :
    nextPiece c rest = wordPiece isWordChar readWord c rest := by
  have hn := toNat_of_isAlpha h
  have hblank : isBlank c = false := by
    simp [isBlank]
    omega
  have hne : ∀ d : Char, d.isAlpha = false → c ≠ d := by
    rintro d hd rfl
    simp [h] at hd
  simp [nextPiece, hblank, hne, isWordChar, h]

/-- A connective in any letter case is read in front of a blank. -/
theorem Connective.Spells.nextPiece_eq {o : Connective} {word : String} (h : o.Spells word) :
    ∃ c s, word.toList = c :: s ∧
      ∀ rest, nextPiece c (s ++ ' ' :: rest) = ⟨c :: s, .token o.kind⟩ := by
  have hletters : ∀ d ∈ o.word.toList, d.isAlpha = true := by cases o <;> simp [Connective.word]
  have halpha : ∀ d ∈ word.toList, d.isAlpha = true := fun d hd =>
    isAlpha_of_toLower (hletters _ (h ▸ List.mem_map_of_mem hd))
  have hread : readWord word.toList = .token o.kind := by
    unfold readWord
    rw [lowercase_of_isAlpha halpha, h, String.ofList_toList]
    cases o <;> rfl
  cases hword : word.toList with
  | nil => cases o <;> simp [Spells, hword, Connective.word] at h
  | cons c s =>
      rw [hword] at halpha hread
      obtain ⟨hc, hs⟩ := List.forall_mem_cons.mp halpha
      refine ⟨c, s, rfl, fun rest => ?_⟩
      have hrest : ∀ d ∈ s, isWordChar d = true := fun d hd => by simp [isWordChar, hs d hd]
      rw [nextPiece_of_isAlpha hc, wordPiece_eq hrest (by simp [isWordChar]), hread]

/-- Whether no piece of a text lacks its closing mark. -/
def Closed (s : List Char) : Prop := ∀ piece ∈ cut nextPiece s, piece.reading.isOpen = false

theorem cut_group {s : List Char} (h : Closed s) :
    cut nextPiece ('(' :: s ++ [')']) =
      charPiece '(' (.token .leftParen) :: cut nextPiece s ++
        [charPiece ')' (.token .rightParen)] := by
  have hopen : cut nextPiece ('(' :: (s ++ [')'])) =
      charPiece '(' (.token .leftParen) :: cut nextPiece (s ++ [')']) := cut_append (s := []) rfl
  rw [List.cons_append, hopen, cut_append_of_closed lawfulCut h (by simp [Follows])]
  rfl

theorem Closed.group {s : List Char} (h : Closed s) : Closed ('(' :: s ++ [')']) := by
  intro piece hmem
  rw [cut_group h] at hmem
  simp only [List.cons_append, List.mem_cons, List.mem_append, List.not_mem_nil, or_false] at hmem
  rcases hmem with rfl | hmem | rfl
  · rfl
  · exact h piece hmem
  · rfl

theorem kindsOf_cut_group {s : List Char} (h : Closed s) :
    kindsOf (cut nextPiece ('(' :: s ++ [')'])) =
      .leftParen :: kindsOf (cut nextPiece s) ++ [.rightParen] := by
  rw [cut_group h]
  simp [kindsOf, charPiece, Reading.token?]

/-- A connective between two texts stands between their kinds. -/
theorem kindsOf_cut_link {s t : List Char} {o : Connective} {word : String} (hs : Closed s)
    (hword : o.Spells word) :
    kindsOf (cut nextPiece (s ++ ' ' :: word.toList ++ ' ' :: t)) =
      kindsOf (cut nextPiece s) ++ o.kind :: kindsOf (cut nextPiece t) := by
  obtain ⟨c, rest, hcons, hnext⟩ := hword.nextPiece_eq
  have hpadded : Spells nextPiece (' ' :: c :: rest ++ [' ']) t [o.kind] :=
    spells_padded (fun _ => rfl) (hnext t)
  have htext : s ++ ' ' :: word.toList ++ ' ' :: t = s ++ ((' ' :: c :: rest ++ [' ']) ++ t) := by
    simp [hcons]
  rw [htext, cut_append_of_closed lawfulCut hs (by simp [Follows]), kindsOf_append, hpadded.1,
    List.singleton_append]

/-! ## What kinds mean -/

/-- The kinds `ks` derive a tree that is worth what `value a` says. -/
def Means {α : Type} (L : List Kind → Condition → Prop) (value : α → State → Bool)
    (ks : List Kind) (a : α) : Prop :=
  ∃ t, L ks t ∧ ∀ s, t.eval s = value a s

theorem eval_conjunction (s : State) (ts : List Condition) :
    (conjunction ts).eval s = (ts.map (eval s)).and := by
  match ts with
  | [] => simp [conjunction, eval, evalAll]
  | [t] => simp [conjunction]
  | t :: u :: ts => simp [conjunction, eval, evalAll_eq, List.and, List.all_map]

theorem eval_disjunction (s : State) (ts : List Condition) :
    (disjunction ts).eval s = (ts.map (eval s)).or := by
  match ts with
  | [] => simp [disjunction, eval, evalAny]
  | [t] => simp [disjunction]
  | t :: u :: ts => simp [disjunction, eval, evalAny_eq, List.or, List.any_map]

section
variable {α : Type} {separator : Kind} {L M : List Kind → Condition → Prop}
  {value : α → State → Bool} {ks ls : List Kind} {a : α} {as : List α} {limit : Nat}

/-- The trees of a run are worth what its phrases mean. -/
theorem exists_run_of_means (h : Run separator (Means L value) ks as) :
    ∃ ts, Run separator L ks ts ∧ ∀ s, ts.map (eval s) = as.map (value · s) := by
  induction h with
  | one ha =>
      obtain ⟨t, ht, hvalue⟩ := ha
      exact ⟨[t], .one ht, fun s => by simp [hvalue]⟩
  | cons ha _ ih =>
      obtain ⟨t, ht, hvalue⟩ := ha
      obtain ⟨ts, hts, hvalues⟩ := ih
      exact ⟨t :: ts, .cons ht hts, fun s => by simp [hvalue, hvalues]⟩

/-- A run is joined to a tree that is worth what its phrases mean together. -/
theorem means_joined {join : List Condition → Condition} {together : List Bool → Bool}
    (hjoin : ∀ t, (∃ ts, Run separator L ks ts ∧ t = join ts) ↔ M ks t)
    (heval : ∀ s ts, (join ts).eval s = together (ts.map (eval s)))
    (h : Run separator (Means L value) ks as) :
    Means M (fun as s => together (as.map (value · s))) ks as := by
  obtain ⟨ts, hts, hvalues⟩ := exists_run_of_means h
  exact ⟨join ts, (hjoin _).mp ⟨ts, hts, rfl⟩, fun s => by rw [heval, hvalues]⟩

theorem means_conjunct
    (h : Run .and (Means (Within .leftParen .rightParen limit Primary) value) ks as) :
    Means (Within .leftParen .rightParen limit Conjunct)
      (fun as s => (as.map (value · s)).and) ks as := by
  refine means_joined (fun t => ?_) eval_conjunction h
  exact within_joined_iff (by simp) (by simp) (fun _ _ h => h.induct hereditary_balanced)
    (fun _ => rfl) (by intro _ _ _; rfl) fun _ _ => conjunct_iff

theorem within_disjunct_iff {t : Condition} :
    (∃ ts, Run .or (Within .leftParen .rightParen limit Conjunct) ks ts ∧ t = disjunction ts) ↔
      Within .leftParen .rightParen limit Disjunct ks t :=
  within_joined_iff (by simp) (by simp) (fun _ _ h => h.induct hereditary_balanced)
    (fun _ => rfl) (by intro _ _ _; rfl) fun _ _ => disjunct_iff

theorem means_disjunct
    (h : Run .or (Means (Within .leftParen .rightParen limit Conjunct) value) ks as) :
    Means (Within .leftParen .rightParen limit Disjunct)
      (fun as s => (as.map (value · s)).or) ks as :=
  means_joined (fun _ => within_disjunct_iff) eval_disjunction h

/-- Parentheses around a disjunct make it a primary, one level up. -/
theorem means_group (h : Means (Within .leftParen .rightParen limit Disjunct) value ks a) :
    Means (Within .leftParen .rightParen (limit + 1) Primary) value
      (.leftParen :: ks ++ [.rightParen]) a := by
  obtain ⟨t, ⟨ht, hshallow⟩, hvalue⟩ := h
  have hgroup := (shallow_group (by simp) (ht.induct hereditary_balanced)).mpr
    ⟨limit, rfl, hshallow⟩
  exact ⟨t, ⟨.group ht, hgroup⟩, hvalue⟩

/-- Two disjuncts with an `or` between them are one. -/
theorem means_or {b : α} (ha : Means (Within .leftParen .rightParen limit Disjunct) value ks a)
    (hb : Means (Within .leftParen .rightParen limit Disjunct) value ls b) :
    Means (Within .leftParen .rightParen limit Disjunct) (fun x s => value x.1 s || value x.2 s)
      (ks ++ .or :: ls) (a, b) := by
  obtain ⟨t, ht, hvalue⟩ := ha
  obtain ⟨u, hu, hvalue'⟩ := hb
  obtain ⟨ts, hts, rfl⟩ := within_disjunct_iff.mpr ht
  obtain ⟨us, hus, rfl⟩ := within_disjunct_iff.mpr hu
  refine ⟨disjunction (ts ++ us), within_disjunct_iff.mp ⟨_, hts.append hus, rfl⟩, fun s => ?_⟩
  calc (disjunction (ts ++ us)).eval s
      = (ts.map (eval s) ++ us.map (eval s)).or := by rw [eval_disjunction, List.map_append]
    _ = ((ts.map (eval s)).or || (us.map (eval s)).or) := List.any_append
    _ = (value a s || value b s) := by
        rw [← hvalue, ← hvalue', eval_disjunction, eval_disjunction]

end

/-! ## Texts and what they mean -/

theorem evaluateCondition_eq {c : String} {p : Parsed Condition}
    (h : parseCondition c false = .ok p) (s : State) : evaluateCondition c s = p.tree.eval s := by
  simp [evaluateCondition, Evaluator.condition, Evaluator.condition?, h, Except.map]

/-- A composable text means what it evaluates to. -/
theorem Composable.means {limit : Nat} {c : String} (h : Composable limit c) :
    Means (Within .leftParen .rightParen limit Disjunct) evaluateCondition
      (kindsOf (cut nextPiece c.toList)) c := by
  obtain ⟨⟨t, as⟩, hp⟩ := exists_eq_ok_of_isOk h.accepted
  have hread : ofTokens c (lex c).tokens = .ok t := (parseWith_eq_ok.mp hp).1
  obtain ⟨⟨n, hderived⟩, -⟩ := run_whole_disjunct_eq_ok.mp hread
  obtain rfl : n = 0 :=
    eq_zero_of_balanced (by simp) h.balanced (hderived.induct hereditary_balanced)
  rw [List.replicate_zero, List.append_nil] at hderived
  rw [← kindsAhead_lex]
  exact ⟨t, ⟨hderived, h.shallow⟩, fun s => (evaluateCondition_eq hp s).symm⟩

/-- A text evaluates to what its kinds mean. -/
theorem evaluateCondition_of_means {α : Type} {value : α → State → Bool} {a : α} {c : String}
    (h : Means (Within .leftParen .rightParen 64 Disjunct) value
      (kindsOf (cut nextPiece c.toList)) a) :
    (parseCondition c false).isOk = true ∧ ∀ s, evaluateCondition c s = value a s := by
  obtain ⟨t, ⟨hderived, hshallow⟩, hvalue⟩ := h
  rw [← kindsAhead_lex] at hderived hshallow
  have hread : ofTokens c (lex c).tokens = .ok t :=
    run_whole_disjunct_eq_ok.mpr ⟨⟨0, by simpa using hderived⟩, hshallow⟩
  have hp : parseCondition c false = .ok ⟨t, (lex c).anomalies⟩ :=
    parseWith_eq_ok.mpr ⟨hread, rfl, by simp⟩
  exact ⟨by rw [hp]; rfl, fun s => (evaluateCondition_eq hp s).trans (hvalue s)⟩

theorem Composable.isClosed {limit : Nat} {c : String} (h : Composable limit c) :
    Closed c.toList := fun _ => isOpen_of_mem_cut lawfulCut h.closed

/-- The kinds of a composed text are runs of groups joined by `and`, with `or`
between one run and the next. -/
theorem run_composed {first : String} {more : List Link} (hfirst : Composable 63 first)
    (hmore : ∀ link ∈ more, link.connective.Spells link.word ∧ Composable 63 link.text) :
    Run .or (Run .and (Means (Within .leftParen .rightParen 64 Primary) evaluateCondition))
      (kindsOf (cut nextPiece (composed first more).toList)) (runs first more) := by
  induction more generalizing first with
  | nil =>
      have htext : (composed first []).toList = '(' :: first.toList ++ [')'] := by simp [composed]
      rw [htext, kindsOf_cut_group hfirst.isClosed]
      exact .one (.one (means_group hfirst.means))
  | cons link more ih =>
      obtain ⟨⟨hword, hlink⟩, hmore⟩ := List.forall_mem_cons.mp hmore
      have htext : (composed first (link :: more)).toList = ('(' :: first.toList ++ [')']) ++
          ' ' :: link.word.toList ++ ' ' :: (composed link.text more).toList := by
        simp [composed]
      have hgroup := means_group hfirst.means
      rw [htext, kindsOf_cut_link hfirst.isClosed.group hword, kindsOf_cut_group hfirst.isClosed]
      cases ho : link.connective with
      | or =>
        simp only [runs, ho]
        exact .cons (.one hgroup) (ih hlink hmore)
      | and =>
        simp only [runs, ho]
        exact Run.cons_head hgroup (ih hlink hmore)

/-- A composed text can be read, and its runs are joined to its value. -/
theorem evaluateCondition_runs {first : String} {more : List Link} (hfirst : Composable 63 first)
    (hmore : ∀ link ∈ more, link.connective.Spells link.word ∧ Composable 63 link.text) :
    (parseCondition (composed first more) false).isOk = true ∧
      ∀ s, evaluateCondition (composed first more) s =
        (runs first more).any fun run => run.all fun c => evaluateCondition c s := by
  have hruns := (run_composed hfirst hmore).mono fun _ _ => means_conjunct
  obtain ⟨hp, hvalue⟩ := evaluateCondition_of_means (means_disjunct hruns)
  refine ⟨hp, fun s => (hvalue s).trans ?_⟩
  simp [List.or, List.and, List.any_map, List.all_map]

theorem evaluateCondition_or {c d : String} (hc : Composable 64 c) (hd : Composable 64 d) :
    (parseCondition (c ++ " or " ++ d) false).isOk = true ∧
      ∀ s, evaluateCondition (c ++ " or " ++ d) s =
        (evaluateCondition c s || evaluateCondition d s) := by
  have htext : (c ++ " or " ++ d).toList = c.toList ++ ' ' :: "or".toList ++ ' ' :: d.toList := by
    simp
  have hkinds : kindsOf (cut nextPiece (c ++ " or " ++ d).toList) =
      kindsOf (cut nextPiece c.toList) ++ .or :: kindsOf (cut nextPiece d.toList) := by
    rw [htext]
    exact kindsOf_cut_link hc.isClosed (show Connective.or.Spells "or" from rfl)
  have hmeans := means_or hc.means hd.means
  rw [← hkinds] at hmeans
  exact evaluateCondition_of_means hmeans

/-- Conditions compose as texts, and `and` binds tighter than `or`: conditions in
parentheses with connectives between them hold when all of some run between one
`or` and the next hold. An `or` between two conditions needs no parentheses. -/
theorem evaluateCondition_composed (s : State) :
    (∀ first more, Composable 63 first →
      (∀ link ∈ more, link.connective.Spells link.word ∧ Composable 63 link.text) →
      (parseCondition (composed first more) false).isOk = true ∧
      evaluateCondition (composed first more) s =
        (runs first more).any fun run => run.all fun c => evaluateCondition c s) ∧
    ∀ c d, Composable 64 c → Composable 64 d →
      (parseCondition (c ++ " or " ++ d) false).isOk = true ∧
      evaluateCondition (c ++ " or " ++ d) s =
        (evaluateCondition c s || evaluateCondition d s) := by
  constructor
  · intro first more hfirst hmore
    obtain ⟨hp, hvalue⟩ := evaluateCondition_runs hfirst hmore
    exact ⟨hp, hvalue s⟩
  · intro c d hc hd
    obtain ⟨hp, hvalue⟩ := evaluateCondition_or hc hd
    exact ⟨hp, hvalue s⟩

/-- An `and` does not take the `or` in front of it, so the first condition alone
decides here. -/
theorem evaluateCondition_composed_or_and :
    Composable 63 "{a} == '('" ∧ Composable 63 "{b} == 'y' or {b} maybe == 'z'" ∧
      Composable 63 "({c} == 'z')" ∧ Connective.or.Spells "OR" ∧ Connective.and.Spells "aNd" ∧
      composed "{a} == '('" [⟨.or, "OR", "{b} == 'y' or {b} maybe == 'z'"⟩,
          ⟨.and, "aNd", "({c} == 'z')"⟩] =
        "({a} == '(') OR ({b} == 'y' or {b} maybe == 'z') aNd (({c} == 'z'))" ∧
      evaluateCondition "({a} == '(') OR ({b} == 'y' or {b} maybe == 'z') aNd (({c} == 'z'))"
        (.ofPairs [("a", .text "("), ("b", .text "z")]) = true ∧
      Composable 64 "({c} == 'z')" ∧ Composable 64 "{a} == '('" ∧
      evaluateCondition "({c} == 'z') or {a} == '('"
        (.ofPairs [("a", .text "("), ("b", .text "z")]) = true := by
  have hfirst : Composable 63 "{a} == '('" := by decide
  have hor : Connective.or.Spells "OR" ∧ Composable 63 "{b} == 'y' or {b} maybe == 'z'" := by
    decide
  have hand : Connective.and.Spells "aNd" ∧ Composable 63 "({c} == 'z')" := by decide
  have hmore : ∀ link ∈ [Link.mk .or "OR" "{b} == 'y' or {b} maybe == 'z'",
      ⟨.and, "aNd", "({c} == 'z')"⟩], link.connective.Spells link.word ∧ Composable 63 link.text :=
    List.forall_mem_cons.mpr ⟨hor, List.forall_mem_cons.mpr ⟨hand, by simp⟩⟩
  have hleft : Composable 64 "({c} == 'z')" := by decide
  have hright : Composable 64 "{a} == '('" := by decide
  have h := evaluateCondition_composed (.ofPairs [("a", .text "("), ("b", .text "z")])
  have hruns := (h.1 _ _ hfirst hmore).2
  have heither := (h.2 _ _ hleft hright).2
  exact ⟨hfirst, hor.2, hand.2, hor.1, hand.1, rfl, hruns.trans (by decide +kernel), hleft, hright,
    heither.trans (by decide +kernel)⟩

end FormLogic.Condition
