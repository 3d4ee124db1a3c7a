import FormLogic.Condition.Parser
import FormLogic.Proofs.Nesting
import Mathlib.Data.Set.Subsingleton

/-!
# FormLogic.Proofs.Condition.Grammar

The grammar of conditions, and the reader against it. `Grammar.Disjunct ks c`
says that the kinds `ks` are derived with the tree `c`. The grammar knows no
missing parentheses and no limit of nesting: a stream is accepted when some
closing parentheses behind it complete a derivation that stays shallow.
-/

namespace FormLogic.Condition

open Reader

/-! ## The grammar -/

namespace Grammar

mutual

/-- `conjunct ('or' conjunct)*`, where two or more operands are one node. -/
inductive Disjunct : List Kind → Condition → Prop
  | single {ks : List Kind} {c : Condition} : Conjunct ks c → Disjunct ks c
  | run {ks : List Kind} {cs : List Condition} :
      Run .or Conjunct ks cs → 2 ≤ cs.length → Disjunct ks (.or cs)

/-- `primary ('and' primary)*`, where two or more operands are one node. -/
inductive Conjunct : List Kind → Condition → Prop
  | single {ks : List Kind} {c : Condition} : Primary ks c → Conjunct ks c
  | run {ks : List Kind} {cs : List Condition} :
      Run .and Primary ks cs → 2 ≤ cs.length → Conjunct ks (.and cs)

/-- `'(' disjunct ')' | VAR OP TEXT` -/
inductive Primary : List Kind → Condition → Prop
  | group {ks : List Kind} {c : Condition} :
      Disjunct ks c → Primary (.leftParen :: ks ++ [.rightParen]) c
  | comparison {name word expected : String} {op : CompareOp} :
      CompareOp.ofWord? word = some op →
        Primary [.var name, .op word, .text expected] (.compare name op expected)

end

/-! ## Induction over derivations -/

/-- A relation that holds of comparisons and that groups and runs keep. -/
structure Hereditary (Q : List Kind → Condition → Prop) : Prop where
  comparison (name word expected : String) (op : CompareOp) :
    CompareOp.ofWord? word = some op →
      Q [.var name, .op word, .text expected] (.compare name op expected)
  group (ks : List Kind) (c : Condition) : Q ks c → Q (.leftParen :: ks ++ [.rightParen]) c
  and (ks : List Kind) (cs : List Condition) : Run .and Q ks cs → 2 ≤ cs.length → Q ks (.and cs)
  or (ks : List Kind) (cs : List Condition) : Run .or Q ks cs → 2 ≤ cs.length → Q ks (.or cs)

mutual

/-- A hereditary relation holds of every derivation. -/
theorem Disjunct.induct {Q : List Kind → Condition → Prop} (hQ : Hereditary Q) {ks : List Kind}
    {c : Condition} : Disjunct ks c → Q ks c
  | .single h => h.induct hQ
  | .run h hlen => hQ.or _ _ (induct_conjuncts hQ h) hlen

theorem induct_conjuncts {Q : List Kind → Condition → Prop} (hQ : Hereditary Q) {ks : List Kind}
    {cs : List Condition} : Run .or Conjunct ks cs → Run .or Q ks cs
  | .one h => .one (h.induct hQ)
  | .cons h hs => .cons (h.induct hQ) (induct_conjuncts hQ hs)

theorem Conjunct.induct {Q : List Kind → Condition → Prop} (hQ : Hereditary Q) {ks : List Kind}
    {c : Condition} : Conjunct ks c → Q ks c
  | .single h => h.induct hQ
  | .run h hlen => hQ.and _ _ (induct_primaries hQ h) hlen

theorem induct_primaries {Q : List Kind → Condition → Prop} (hQ : Hereditary Q) {ks : List Kind}
    {cs : List Condition} : Run .and Primary ks cs → Run .and Q ks cs
  | .one h => .one (h.induct hQ)
  | .cons h hs => .cons (h.induct hQ) (induct_primaries hQ hs)

theorem Primary.induct {Q : List Kind → Condition → Prop} (hQ : Hereditary Q) {ks : List Kind}
    {c : Condition} : Primary ks c → Q ks c
  | .group h => hQ.group _ _ (h.induct hQ)
  | .comparison h => hQ.comparison _ _ _ _ h

end

/-! ## Kinds of a derivation -/

theorem hereditary_balanced :
    Hereditary fun ks _ => Balanced Kind.leftParen Kind.rightParen ks where
  comparison _ _ _ _ _ := rfl
  group _ _ h := h.group (by simp)
  and _ _ h _ := h.balanced (by simp) (by simp) fun _ _ => id
  or _ _ h _ := h.balanced (by simp) (by simp) fun _ _ => id

theorem hereditary_not_eof : Hereditary fun ks _ => ∀ k ∈ ks, TokenKind.isEof k = false where
  comparison _ _ _ _ _ := by simp [TokenKind.isEof]
  group _ _ h := by simpa [TokenKind.isEof, or_imp, forall_and] using h
  and _ _ h _ := h.forall_mem (by simp [TokenKind.isEof]) fun _ _ => id
  or _ _ h _ := h.forall_mem (by simp [TokenKind.isEof]) fun _ _ => id

end Grammar

instance : LawfulTokenKind Kind where
  isEof_iff k := by simp [TokenKind.isEof, TokenKind.eof]

open Grammar

/-! ## Readers of conditions -/

theorem run_comparison_eq_ok {s s' : Stream Kind} {c : Condition} :
    comparison.run s = .ok (c, s') ↔
      ∃ name word expected op, CompareOp.ofWord? word = some op ∧
        c = .compare name op expected ∧
        s.Takes .rightParen [.var name, .op word, .text expected] s' := by
  unfold comparison
  simp only [Stream.takes_cons, Stream.takes_nil, Stream.step_of_ne, ne_eq, reduceCtorEq,
    not_false_eq_true, run_peek_bind]
  constructor
  · intro h
    cases hname : s.current.kind with
    | var name =>
        simp only [hname, run_advance_bind, run_peek_bind] at h
        cases hword : s.next.current.kind with
        | op word =>
            simp only [hword] at h
            cases hop : CompareOp.ofWord? word with
            | some op =>
                simp only [hop, run_advance_bind, run_peek_bind] at h
                cases htext : s.next.next.current.kind with
                | text expected =>
                    simp only [htext, run_advance_bind, run_pure_eq_ok] at h
                    exact ⟨name, word, expected, op, hop, h.1, _, ⟨rfl, rfl⟩, _, ⟨hword, rfl⟩, _,
                      ⟨htext, rfl⟩, h.2⟩
                | _ => simp [htext] at h
            | none => simp [hop] at h
        | _ => simp [hword] at h
    | _ => simp [hname] at h
  · rintro ⟨name, word, expected, op, hop, rfl, _, ⟨hname, rfl⟩, _, ⟨hword, rfl⟩, _,
      ⟨htext, rfl⟩, rfl⟩
    simp only [hname, hword, hop, htext, run_advance_bind, run_peek_bind]
    rfl

/-- Behind an opening parenthesis stand a condition one level down and the
parenthesis that closes the group. -/
theorem run_primary_of_group {limit : Nat} {s s' : Stream Kind} {c : Condition}
    (h : s.current.kind = .leftParen) :
    (primary (inside? limit)).run s = .ok (c, s') ↔
      ∃ inner m, limit = inner + 1 ∧ (disjunct (inside? inner)).run s.next = .ok (c, m) ∧
        m.Step .rightParen .rightParen s' := by
  have hkind : TokenKind.isEof Kind.rightParen = false := rfl
  unfold primary
  rw [run_peek_bind, if_pos h]
  cases limit with
  | zero => simp [inside?, nested]
  | succ inner =>
      simp only [inside?, nested, run_advance_bind, run_bind_eq_ok, run_pure_eq_ok,
        run_close_eq_ok hkind]
      constructor
      · intro hread
        obtain ⟨c', m, hrun, -, m', hclose, rfl, rfl⟩ := hread
        exact ⟨inner, m, rfl, hrun, hclose⟩
      · intro hread
        obtain ⟨inner', m, heq, hrun, hclose⟩ := hread
        obtain rfl := Nat.succ.inj heq
        exact ⟨c, m, hrun, (), s', hclose, rfl, rfl⟩

/-- Whether a kind may stand behind a disjunct. -/
def EndsDisjunct (k : Kind) : Prop := k ≠ .and ∧ k ≠ .or

theorem endsDisjunct_of_step {s s' : Stream Kind} (h : s.Step .rightParen .rightParen s') :
    EndsDisjunct s.current.kind := by
  rcases h with ⟨h, -⟩ | ⟨h, -, -⟩
  · simp [EndsDisjunct, h]
  · simp [EndsDisjunct, (isEof_iff _).mp h, TokenKind.eof]

theorem recognizes_primary {limit : Nat}
    (ih : ∀ inner, limit = inner + 1 →
      Recognizes .rightParen (disjunct (inside? inner))
        (Within .leftParen .rightParen inner Disjunct) EndsDisjunct) :
    Recognizes .rightParen (primary (inside? limit))
      (Within .leftParen .rightParen limit Primary) fun _ => True := by
  intro s hs c s'
  by_cases h : s.current.kind = .leftParen
  · rw [run_primary_of_group h]
    constructor
    · intro hread
      obtain ⟨inner, m, rfl, hrun, hclose⟩ := hread
      obtain ⟨ks, ⟨hks, hshallow⟩, htakes, -⟩ := (ih inner rfl s.next hs.next c m).mp hrun
      have hgroup := (shallow_group (by simp) (hks.induct hereditary_balanced)).mpr
        ⟨inner, rfl, hshallow⟩
      exact ⟨_, ⟨.group hks, hgroup⟩, ⟨s.next, (Stream.step_of_ne (by simp)).mpr ⟨h, rfl⟩,
        Stream.takes_append.mpr ⟨m, htakes, s', hclose, rfl⟩⟩, trivial⟩
    · intro hphrase
      obtain ⟨ks, ⟨hks, hshallow⟩, htakes, -⟩ := hphrase
      cases hks with
      | group hks =>
          obtain ⟨inner, rfl, hinner⟩ :=
            (shallow_group (by simp) (hks.induct hereditary_balanced)).mp hshallow
          obtain ⟨m, htakes, _, hclose, rfl⟩ :=
            Stream.takes_append.mp ((Stream.takes_cons_of_ne (by simp)).mp htakes).2
          exact ⟨inner, m, rfl, (ih inner rfl s.next hs.next c m).mpr
            ⟨_, ⟨hks, hinner⟩, htakes, endsDisjunct_of_step hclose⟩, hclose⟩
      | comparison hop =>
          have hvar := ((Stream.takes_cons_of_ne (by simp)).mp htakes).1
          simp [h] at hvar
  · have hcomparison : (primary (inside? limit)).run s = comparison.run s := by
      unfold primary
      rw [run_peek_bind, if_neg h]
    rw [hcomparison, run_comparison_eq_ok]
    constructor
    · intro hphrase
      obtain ⟨name, word, expected, op, hop, rfl, htakes⟩ := hphrase
      have hshallow : Shallow Kind.leftParen Kind.rightParen limit
          [.var name, .op word, .text expected] := by
        simp [shallow_cons, shallow_nil]
      exact ⟨_, ⟨.comparison hop, hshallow⟩, htakes, trivial⟩
    · intro hphrase
      obtain ⟨ks, ⟨hks, -⟩, htakes, -⟩ := hphrase
      cases hks with
      | group hks => exact absurd ((Stream.takes_cons_of_ne (by simp)).mp htakes).1 h
      | comparison hop => exact ⟨_, _, _, _, hop, rfl, htakes⟩

theorem conjunct_iff {ks : List Kind} {c : Condition} :
    Conjunct ks c ↔ Primary ks c ∨ ∃ cs, Run .and Primary ks cs ∧ 2 ≤ cs.length ∧ c = .and cs := by
  constructor
  · rintro (h | ⟨h, hlen⟩)
    · exact .inl h
    · exact .inr ⟨_, h, hlen, rfl⟩
  · rintro (h | ⟨cs, h, hlen, rfl⟩)
    · exact .single h
    · exact .run h hlen

theorem disjunct_iff {ks : List Kind} {c : Condition} :
    Disjunct ks c ↔ Conjunct ks c ∨ ∃ cs, Run .or Conjunct ks cs ∧ 2 ≤ cs.length ∧ c = .or cs := by
  constructor
  · rintro (h | ⟨h, hlen⟩)
    · exact .inl h
    · exact .inr ⟨_, h, hlen, rfl⟩
  · rintro (h | ⟨cs, h, hlen, rfl⟩)
    · exact .single h
    · exact .run h hlen

theorem disjunct_eq (inner? : Option (Reader Kind Condition)) :
    disjunct inner? =
      disjunction <$> separated .or (conjunction <$> separated .and (primary inner?)) := by
  simp [disjunct]

theorem recognizes_conjunct {limit : Nat}
    (h : Recognizes .rightParen (primary (inside? limit))
      (Within .leftParen .rightParen limit Primary) fun _ => True) :
    Recognizes .rightParen (conjunction <$> separated .and (primary (inside? limit)))
      (Within .leftParen .rightParen limit Conjunct) (· ≠ .and) := by
  have hjoined := recognizes_joined Kind.and conjunction Condition.and h trivial rfl (by simp)
    (by simp) (fun _ _ h => h.induct hereditary_balanced) (fun _ => rfl) (fun _ _ _ => rfl)
    (fun _ _ => conjunct_iff)
  exact hjoined.congr (fun _ _ => Iff.rfl) (by simp)

theorem recognizes_disjunct_of_inner {limit : Nat}
    (ih : ∀ inner, limit = inner + 1 → Recognizes .rightParen (disjunct (inside? inner))
      (Within .leftParen .rightParen inner Disjunct) EndsDisjunct) :
    Recognizes .rightParen (disjunct (inside? limit)) (Within .leftParen .rightParen limit Disjunct)
      EndsDisjunct := by
  rw [disjunct_eq]
  exact recognizes_joined Kind.or disjunction Condition.or
    (recognizes_conjunct (recognizes_primary ih)) (by simp) rfl (by simp) (by simp)
    (fun _ _ h => h.induct hereditary_balanced) (fun _ => rfl) (fun _ _ _ => rfl)
    (fun _ _ => disjunct_iff)

/-- With `limit` levels of nesting allowed, the reader of disjuncts takes
exactly the disjuncts within that limit. -/
theorem recognizes_disjunct (limit : Nat) :
    Recognizes .rightParen (disjunct (inside? limit)) (Within .leftParen .rightParen limit Disjunct)
      EndsDisjunct := by
  induction limit with
  | zero => exact recognizes_disjunct_of_inner (by simp)
  | succ limit ih =>
      refine recognizes_disjunct_of_inner fun inner h => ?_
      rwa [← Nat.succ.inj h]

/-! ## Whole streams -/

theorem run_whole_disjunct_eq_ok {limit : Nat} {source : String} {tokens : List (Token Kind)}
    {c : Condition} :
    ((whole (disjunct (inside? limit)) .connective).run (Stream.ofTokens source tokens)).map (·.1) =
        .ok c ↔
      (∃ n, Disjunct (kindsAhead tokens ++ List.replicate n .rightParen) c) ∧
        Shallow .leftParen .rightParen limit (kindsAhead tokens) :=
  run_whole_within_eq_ok (by simp) (by simp [EndsDisjunct, TokenKind.eof])
    (fun _ _ h => h.induct hereditary_not_eof) (recognizes_disjunct limit)

/-- A sequence of kinds has at most one tree, however many parentheses are
missing behind it. -/
theorem Grammar.disjunct_unique {ks : List Kind} {m n : Nat} {c d : Condition}
    (hc : Disjunct (ks ++ List.replicate m .rightParen) c)
    (hd : Disjunct (ks ++ List.replicate n .rightParen) d) : c = d :=
  unique_of_recognizes (by simp) (by simp [EndsDisjunct, TokenKind.eof])
    (fun _ _ h => h.induct hereditary_not_eof) .connective recognizes_disjunct hc hd

/-- The reader accepts a stream exactly when some closing parentheses complete
a derivation from the kinds in front of the end of file, and no prefix of these
has more than 64 parentheses open. So the tree depends on these kinds alone, and
no other tree can be derived from them. -/
theorem ofTokens_eq_ok_iff_disjunct (source : String) (tokens : List (Token Kind)) :
    (∀ c, ofTokens source tokens = .ok c ↔
      (∃ n, Disjunct (kindsAhead tokens ++ List.replicate n .rightParen) c) ∧
        Shallow .leftParen .rightParen 64 (kindsAhead tokens)) ∧
    {c | ∃ n, Disjunct (kindsAhead tokens ++ List.replicate n .rightParen) c}.Subsingleton := by
  constructor
  · intro c
    exact run_whole_disjunct_eq_ok
  · rintro c ⟨m, hc⟩ d ⟨n, hd⟩
    exact disjunct_unique hc hd

end FormLogic.Condition
