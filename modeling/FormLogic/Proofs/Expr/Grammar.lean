import FormLogic.Expr.Parser
import FormLogic.Proofs.Nesting
import Mathlib.Data.Set.Subsingleton

/-!
# FormLogic.Proofs.Expr.Grammar

The grammar of value expressions, and the reader against it.
`Grammar.Expression ks e` says that the kinds `ks` are derived with the tree
`e`. As for conditions, the grammar knows no missing parentheses and no limit of
nesting: a stream is accepted when some closing parentheses behind it complete
a derivation that stays shallow. Every group and every call has one pair of
parentheses, so these count what is open.
-/

namespace FormLogic.Expr

open Reader

/-! ## The grammar -/

namespace Grammar

/-- The kinds of a call with three arguments. -/
def call (name : String) (first second third : List Kind) : List Kind :=
  .ident name :: (.leftParen :: (first ++ .comma :: (second ++ .comma :: third)) ++ [.rightParen])

mutual

/-- `term ('+' term)*`, where two or more terms are one node. -/
inductive Expression : List Kind → Expr → Prop
  | single {ks : List Kind} {e : Expr} : Term ks e → Expression ks e
  | run {ks : List Kind} {es : List Expr} :
      Run .plus Term ks es → 2 ≤ es.length → Expression ks (.concat es)

/-- `TEXT | BOOL | VAR | call | '(' expression ')'` -/
inductive Term : List Kind → Expr → Prop
  | simple {ks : List Kind} {e : Expr} : Simple ks e → Term ks e
  | ifCall {ks : List Kind} {e : Expr} : IfCall ks e → Term ks e
  | replaceCall {ks : List Kind} {e : Expr} : ReplaceCall ks e → Term ks e

/-- `TEXT | BOOL | VAR | '(' expression ')'` -/
inductive Simple : List Kind → Expr → Prop
  | text {s : String} : Simple [.text s] (.text s)
  | bool {b : Bool} : Simple [.bool b] (.bool b)
  | var {raw : String} : Simple [.var raw] (.var (Path.ofText raw))
  | group {ks : List Kind} {e : Expr} :
      Expression ks e → Simple (.leftParen :: ks ++ [.rightParen]) e

/-- `'if' '(' test ',' expression ',' expression ')'`, the name in any letter
case. -/
inductive IfCall : List Kind → Expr → Prop
  | call {name : String} {ks ls ms : List Kind} {t : Test} {yes no : Expr} :
      name.lowercase = "if" → IfTest ks t → Expression ls yes → Expression ms no →
        IfCall (call name ks ls ms) (.ifElse t yes no)

/-- `'replaceAll' '(' expression ',' expression ',' expression ')'`, the name in
any letter case. -/
inductive ReplaceCall : List Kind → Expr → Prop
  | call {name : String} {ks ls ms : List Kind} {value search replacement : Expr} :
      name.lowercase = "replaceall" → Expression ks value → Expression ls search →
        Expression ms replacement →
          ReplaceCall (call name ks ls ms) (.replaceAll value search replacement)

/-- `BOOL | operand 'is' operand`, where a boolean in front is the whole test. -/
inductive IfTest : List Kind → Test → Prop
  | literal {b : Bool} : IfTest [.bool b] (.literal b)
  | is {ks ls : List Kind} {l r : Expr} :
      Operand ks l → (∀ b, ks.head? ≠ some (.bool b)) → Operand ls r →
        IfTest (ks ++ .is :: ls) (.is l r)

/-- `TEXT | BOOL | VAR | replaceAll-call | '(' expression ')'` -/
inductive Operand : List Kind → Expr → Prop
  | simple {ks : List Kind} {e : Expr} : Simple ks e → Operand ks e
  | replaceCall {ks : List Kind} {e : Expr} : ReplaceCall ks e → Operand ks e

end

/-! ## Induction over derivations -/

/-- Relations on terms, expressions and tests that hold of single kinds and
that groups, runs, calls and tests keep. -/
structure Hereditary (P Q : List Kind → Expr → Prop) (T : List Kind → Test → Prop) : Prop where
  text (s : String) : P [.text s] (.text s)
  bool (b : Bool) : P [.bool b] (.bool b)
  var (raw : String) : P [.var raw] (.var (Path.ofText raw))
  group (ks : List Kind) (e : Expr) : Q ks e → P (.leftParen :: ks ++ [.rightParen]) e
  ifCall (name : String) (ks ls ms : List Kind) (t : Test) (yes no : Expr) :
    T ks t → Q ls yes → Q ms no → P (call name ks ls ms) (.ifElse t yes no)
  replaceCall (name : String) (ks ls ms : List Kind) (value search replacement : Expr) :
    Q ks value → Q ls search → Q ms replacement →
      P (call name ks ls ms) (.replaceAll value search replacement)
  single (ks : List Kind) (e : Expr) : P ks e → Q ks e
  run (ks : List Kind) (es : List Expr) : Run .plus P ks es → 2 ≤ es.length → Q ks (.concat es)
  literal (b : Bool) : T [.bool b] (.literal b)
  is (ks ls : List Kind) (l r : Expr) : Operand ks l → (∀ b, ks.head? ≠ some (.bool b)) →
    Operand ls r → P ks l → P ls r → T (ks ++ .is :: ls) (.is l r)

section
variable {P Q : List Kind → Expr → Prop} {T : List Kind → Test → Prop}

mutual

/-- Hereditary relations hold of every derivation. -/
theorem Expression.induct (hQ : Hereditary P Q T) {ks : List Kind} {e : Expr} :
    Expression ks e → Q ks e
  | .single h => hQ.single _ _ (h.induct hQ)
  | .run h hlen => hQ.run _ _ (induct_terms hQ h) hlen

theorem induct_terms (hQ : Hereditary P Q T) {ks : List Kind} {es : List Expr} :
    Run .plus Term ks es → Run .plus P ks es
  | .one h => .one (h.induct hQ)
  | .cons h hs => .cons (h.induct hQ) (induct_terms hQ hs)

theorem Term.induct (hQ : Hereditary P Q T) {ks : List Kind} {e : Expr} : Term ks e → P ks e
  | .simple h => h.induct hQ
  | .ifCall h => h.induct hQ
  | .replaceCall h => h.induct hQ

theorem Simple.induct (hQ : Hereditary P Q T) {ks : List Kind} {e : Expr} : Simple ks e → P ks e
  | .text => hQ.text _
  | .bool => hQ.bool _
  | .var => hQ.var _
  | .group h => hQ.group _ _ (h.induct hQ)

theorem IfCall.induct (hQ : Hereditary P Q T) {ks : List Kind} {e : Expr} : IfCall ks e → P ks e
  | .call _ ht hyes hno =>
    hQ.ifCall _ _ _ _ _ _ _ (ht.induct hQ) (hyes.induct hQ) (hno.induct hQ)

theorem ReplaceCall.induct (hQ : Hereditary P Q T) {ks : List Kind} {e : Expr} :
    ReplaceCall ks e → P ks e
  | .call _ hv hs hr =>
    hQ.replaceCall _ _ _ _ _ _ _ (hv.induct hQ) (hs.induct hQ) (hr.induct hQ)

theorem IfTest.induct (hQ : Hereditary P Q T) {ks : List Kind} {t : Test} : IfTest ks t → T ks t
  | .literal => hQ.literal _
  | .is hl hb hr => hQ.is _ _ _ _ hl hb hr (hl.induct hQ) (hr.induct hQ)

theorem Operand.induct (hQ : Hereditary P Q T) {ks : List Kind} {e : Expr} : Operand ks e → P ks e
  | .simple h => h.induct hQ
  | .replaceCall h => h.induct hQ

end

end

/-! ## Kinds of a derivation -/

theorem balanced_call {name : String} {ks ls ms : List Kind}
    (hks : Balanced .leftParen .rightParen ks) (hls : Balanced .leftParen .rightParen ls)
    (hms : Balanced .leftParen .rightParen ms) :
    Balanced .leftParen .rightParen (call name ks ls ms) := by
  refine (balanced_cons (by simp) (by simp)).mpr (Balanced.group (by simp) ?_)
  exact hks.append ((balanced_cons (by simp) (by simp)).mpr
    (hls.append ((balanced_cons (by simp) (by simp)).mpr hms)))

theorem hereditary_balanced :
    Hereditary (fun ks _ => Balanced Kind.leftParen Kind.rightParen ks)
      (fun ks _ => Balanced Kind.leftParen Kind.rightParen ks)
      (fun ks _ => Balanced Kind.leftParen Kind.rightParen ks) where
  text _ := rfl
  bool _ := rfl
  var _ := rfl
  group _ _ h := h.group (by simp)
  ifCall _ _ _ _ _ _ _ := balanced_call
  replaceCall _ _ _ _ _ _ _ := balanced_call
  single _ _ := id
  run _ _ h _ := h.balanced (by simp) (by simp) fun _ _ => id
  literal _ := rfl
  is _ _ _ _ _ _ _ hl hr := hl.append ((balanced_cons (by simp) (by simp)).mpr hr)

theorem hereditary_not_eof :
    Hereditary (fun ks _ => ∀ k ∈ ks, TokenKind.isEof k = false)
      (fun ks _ => ∀ k ∈ ks, TokenKind.isEof k = false)
      (fun ks _ => ∀ k ∈ ks, TokenKind.isEof k = false) where
  text _ := by simp [TokenKind.isEof]
  bool _ := by simp [TokenKind.isEof]
  var _ := by simp [TokenKind.isEof]
  group _ _ h := by simpa [TokenKind.isEof, or_imp, forall_and] using h
  ifCall _ _ _ _ _ _ _ hks hls hms := by
    simp_all [call, TokenKind.isEof, or_imp]
  replaceCall _ _ _ _ _ _ _ hks hls hms := by
    simp_all [call, TokenKind.isEof, or_imp]
  single _ _ := id
  run _ _ h _ := h.forall_mem (by simp [TokenKind.isEof]) fun _ _ => id
  literal _ := by simp [TokenKind.isEof]
  is _ _ _ _ _ _ _ hl hr := by simp_all [TokenKind.isEof, or_imp]

end Grammar

instance : LawfulTokenKind Kind where
  isEof_iff k := by simp [TokenKind.isEof, TokenKind.eof]

open Grammar

/-! ## Calls -/

theorem shallow_call {limit : Nat} {name : String} {ks ls ms : List Kind}
    (hks : Balanced .leftParen .rightParen ks) (hls : Balanced .leftParen .rightParen ls)
    (hms : Balanced .leftParen .rightParen ms) :
    Shallow .leftParen .rightParen limit (call name ks ls ms) ↔
      ∃ inner, limit = inner + 1 ∧ Shallow .leftParen .rightParen inner ks ∧
        Shallow .leftParen .rightParen inner ls ∧ Shallow .leftParen .rightParen inner ms := by
  have hrest := hls.append ((balanced_cons (k := .comma) (by simp) (by simp)).mpr hms)
  have hall := hks.append ((balanced_cons (k := .comma) (by simp) (by simp)).mpr hrest)
  unfold call
  rw [shallow_cons (by simp) (by simp), shallow_group (by simp) hall]
  simp only [shallow_append hks, shallow_append hls, shallow_cons, ne_eq, reduceCtorEq,
    not_false_eq_true]

theorem takes_call {name : String} {ks ls ms : List Kind} {s s' : Stream Kind} :
    s.Takes .rightParen (call name ks ls ms) s' ↔
      s.current.kind = .ident name ∧ s.next.current.kind = .leftParen ∧
        ∃ m₁ m₂ m₃, s.next.next.Takes .rightParen ks m₁ ∧ m₁.current.kind = .comma ∧
          m₁.next.Takes .rightParen ls m₂ ∧ m₂.current.kind = .comma ∧
          m₂.next.Takes .rightParen ms m₃ ∧ m₃.Step .rightParen .rightParen s' := by
  unfold call
  simp [Stream.takes_append, Stream.step_of_ne]

theorem ne_plus_of_step {s s' : Stream Kind} (h : s.Step .rightParen .rightParen s') :
    s.current.kind ≠ .plus := by
  rcases h with ⟨h, -⟩ | ⟨h, -, -⟩
  · simp [h]
  · simp [(isEof_iff _).mp h, TokenKind.eof]

/-- Read a call with three arguments from its name on. -/
def threeArguments {α : Type} (f : Function) (first : Reader Kind α) (expr : Reader Kind Expr)
    (node : α → Expr → Expr → Expr) : Reader Kind Expr := do
  advance
  expect .leftParen (.opening f)
  let a ← first
  expect .comma (.comma f)
  let b ← expr
  expect .comma (.comma f)
  let c ← expr
  close .rightParen
  return node a b c

theorem ifCall_eq (inside : Inside) :
    ifCall inside = threeArguments .ifElse (test inside) inside.expression .ifElse := rfl

theorem replaceCall_eq (inside : Inside) :
    replaceCall inside =
      threeArguments .replaceAll inside.expression inside.expression .replaceAll :=
  rfl

theorem run_threeArguments_eq_ok {α : Type} {f : Function} {first : Reader Kind α}
    {expr : Reader Kind Expr} {node : α → Expr → Expr → Expr} {s s' : Stream Kind} {e : Expr} :
    (threeArguments f first expr node).run s = .ok (e, s') ↔
      s.next.current.kind = .leftParen ∧
        ∃ a m₁ b m₂ c m₃, first.run s.next.next = .ok (a, m₁) ∧ m₁.current.kind = .comma ∧
          expr.run m₁.next = .ok (b, m₂) ∧ m₂.current.kind = .comma ∧
          expr.run m₂.next = .ok (c, m₃) ∧ m₃.Step .rightParen .rightParen s' ∧
          e = node a b c := by
  unfold threeArguments
  have hclose : TokenKind.isEof Kind.rightParen = false := rfl
  simp only [run_advance_bind, run_bind_eq_ok, run_expect_eq_ok, run_close_eq_ok hclose,
    run_pure_eq_ok, exists_and_left, exists_eq_left, exists_const, and_assoc,
    exists_eq_right_right']

/-- A call is taken when the readers of its arguments take them, one level
down. -/
theorem run_threeArguments_iff {α : Type} {inner : Nat} {f : Function} {first : Reader Kind α}
    {expr : Reader Kind Expr} {node : α → Expr → Expr → Expr} {A : List Kind → α → Prop}
    {stop : Kind → Prop}
    (hfirst : Recognizes .rightParen first (Within .leftParen .rightParen inner A) stop)
    (hstop : stop .comma)
    (hexpr : Recognizes .rightParen expr (Within .leftParen .rightParen inner Expression)
      (· ≠ .plus))
    (hA : ∀ ks a, A ks a → Balanced .leftParen .rightParen ks)
    {s s' : Stream Kind} (hs : s.Ended) {name : String} (hname : s.current.kind = .ident name)
    {e : Expr} :
    (threeArguments f first expr node).run s = .ok (e, s') ↔
      ∃ ks ls ms a b c, A ks a ∧ Expression ls b ∧ Expression ms c ∧ e = node a b c ∧
        Shallow .leftParen .rightParen (inner + 1) (call name ks ls ms) ∧
        s.Takes .rightParen (call name ks ls ms) s' := by
  rw [run_threeArguments_eq_ok]
  constructor
  · intro h
    obtain ⟨hopen, a, m₁, b, m₂, c, m₃, ha, hcomma₁, hb, hcomma₂, hc, hclose, rfl⟩ := h
    obtain ⟨ks, ⟨hks, hkshallow⟩, hktakes, -⟩ := (hfirst _ hs.next.next a m₁).mp ha
    have hm₁ := hktakes.ended hs.next.next
    obtain ⟨ls, ⟨hls, hlshallow⟩, hltakes, -⟩ := (hexpr _ hm₁.next b m₂).mp hb
    have hm₂ := hltakes.ended hm₁.next
    obtain ⟨ms, ⟨hms, hmshallow⟩, hmtakes, -⟩ := (hexpr _ hm₂.next c m₃).mp hc
    refine ⟨ks, ls, ms, a, b, c, hks, hls, hms, rfl, ?_, ?_⟩
    · exact (shallow_call (hA _ _ hks) (hls.induct hereditary_balanced)
        (hms.induct hereditary_balanced)).mpr ⟨inner, rfl, hkshallow, hlshallow, hmshallow⟩
    · exact takes_call.mpr ⟨hname, hopen, m₁, m₂, m₃, hktakes, hcomma₁, hltakes, hcomma₂,
        hmtakes, hclose⟩
  · intro h
    obtain ⟨ks, ls, ms, a, b, c, hks, hls, hms, rfl, hshallow, htakes⟩ := h
    obtain ⟨_, hinner, hkshallow, hlshallow, hmshallow⟩ := (shallow_call (hA _ _ hks)
      (hls.induct hereditary_balanced) (hms.induct hereditary_balanced)).mp hshallow
    obtain rfl := Nat.succ.inj hinner
    obtain ⟨-, hopen, m₁, m₂, m₃, hktakes, hcomma₁, hltakes, hcomma₂, hmtakes, hclose⟩ :=
      takes_call.mp htakes
    have hm₁ := hktakes.ended hs.next.next
    have hm₂ := hltakes.ended hm₁.next
    refine ⟨hopen, a, m₁, b, m₂, c, m₃, ?_, hcomma₁, ?_, hcomma₂, ?_, hclose, rfl⟩
    · exact (hfirst _ hs.next.next a m₁).mpr ⟨ks, ⟨hks, hkshallow⟩, hktakes, by rwa [hcomma₁]⟩
    · exact (hexpr _ hm₁.next b m₂).mpr ⟨ls, ⟨hls, hlshallow⟩, hltakes, by simp [hcomma₂]⟩
    · exact (hexpr _ hm₂.next c m₃).mpr
        ⟨ms, ⟨hms, hmshallow⟩, hmtakes, ne_plus_of_step hclose⟩

/-! ## Readers by level -/

/-- The readers that have `limit` levels of nesting left take the phrases
within that limit. -/
structure Level (limit : Nat) : Prop where
  expression : Recognizes .rightParen (expression (inside? limit))
    (Within .leftParen .rightParen limit Expression) (· ≠ .plus)
  operand : Recognizes .rightParen (operand (inside? limit))
    (Within .leftParen .rightParen limit Operand) fun _ => True

theorem run_nested_eq_ok {α : Type} {limit : Nat} {read : Inside → Reader Kind α}
    {s s' : Stream Kind} {a : α} :
    (nested (inside? limit) read).run s = .ok (a, s') ↔
      ∃ inner, limit = inner + 1 ∧
        (read ⟨expression (inside? inner), operand (inside? inner)⟩).run s = .ok (a, s') := by
  cases limit with
  | zero => simp [inside?, nested]
  | succ inner =>
      constructor
      · intro h
        exact ⟨inner, rfl, h⟩
      · intro hrun
        obtain ⟨_, ⟨⟩, h⟩ := hrun
        exact h

theorem run_group_iff {inner : Nat} (h : Level inner) {s s' : Stream Kind} (hs : s.Ended)
    (hopen : s.current.kind = .leftParen) {e : Expr} :
    (group ⟨expression (inside? inner), operand (inside? inner)⟩).run s = .ok (e, s') ↔
      ∃ ks, Expression ks e ∧
        Shallow .leftParen .rightParen (inner + 1) (.leftParen :: ks ++ [.rightParen]) ∧
        s.Takes .rightParen (.leftParen :: ks ++ [.rightParen]) s' := by
  unfold group
  have hclose : TokenKind.isEof Kind.rightParen = false := rfl
  simp only [run_advance_bind, run_bind_eq_ok, run_close_eq_ok hclose, run_pure_eq_ok]
  constructor
  · intro hread
    obtain ⟨e, m, hrun, -, _, hclose, rfl, rfl⟩ := hread
    obtain ⟨ks, ⟨hks, hshallow⟩, htakes, -⟩ := (h.expression _ hs.next e m).mp hrun
    refine ⟨ks, hks, (shallow_group (by simp) (hks.induct hereditary_balanced)).mpr
      ⟨inner, rfl, hshallow⟩, s.next, (Stream.step_of_ne (by simp)).mpr ⟨hopen, rfl⟩, ?_⟩
    exact Stream.takes_append.mpr ⟨m, htakes, s', hclose, rfl⟩
  · intro hphrase
    obtain ⟨ks, hks, hshallow, htakes⟩ := hphrase
    obtain ⟨_, hinner, hshallow⟩ :=
      (shallow_group (by simp) (hks.induct hereditary_balanced)).mp hshallow
    obtain rfl := Nat.succ.inj hinner
    obtain ⟨m, htakes, _, hclose, rfl⟩ :=
      Stream.takes_append.mp ((Stream.takes_cons_of_ne (by simp)).mp htakes).2
    exact ⟨e, m, (h.expression _ hs.next e m).mpr
      ⟨ks, ⟨hks, hshallow⟩, htakes, ne_plus_of_step hclose⟩, (), s', hclose, rfl, rfl⟩

theorem recognizes_simple {limit : Nat} (ih : ∀ inner, limit = inner + 1 → Level inner)
    (wanted : Wanted) :
    Recognizes .rightParen (simple (inside? limit) wanted)
      (Within .leftParen .rightParen limit Simple) fun _ => True := by
  intro s hs e s'
  unfold simple
  rw [run_peek_bind]
  constructor
  · intro h
    split at h
    · next hopen =>
        obtain ⟨inner, rfl, h⟩ := run_nested_eq_ok.mp h
        obtain ⟨ks, hks, hshallow, htakes⟩ := (run_group_iff (ih inner rfl) hs hopen).mp h
        exact ⟨_, ⟨.group hks, hshallow⟩, htakes, trivial⟩
    · next x hx =>
        obtain ⟨rfl, rfl⟩ := run_pure_eq_ok.mp h
        exact ⟨_, ⟨.text, shallow_singleton (by simp) (by simp)⟩,
          Stream.takes_current (by simp) hx, trivial⟩
    · next b hb =>
        obtain ⟨rfl, rfl⟩ := run_pure_eq_ok.mp h
        exact ⟨_, ⟨.bool, shallow_singleton (by simp) (by simp)⟩,
          Stream.takes_current (by simp) hb, trivial⟩
    · next raw hraw =>
        obtain ⟨rfl, rfl⟩ := run_pure_eq_ok.mp h
        exact ⟨_, ⟨.var, shallow_singleton (by simp) (by simp)⟩,
          Stream.takes_current (by simp) hraw, trivial⟩
    · simp at h
  · intro hphrase
    obtain ⟨ks, ⟨hks, hshallow⟩, htakes, -⟩ := hphrase
    cases hks with
    | group hks =>
        have hopen := ((Stream.takes_cons_of_ne (by simp)).mp htakes).1
        obtain ⟨inner, rfl, -⟩ :=
          (shallow_group (by simp) (hks.induct hereditary_balanced)).mp hshallow
        simp only [hopen, run_nested_eq_ok]
        exact ⟨inner, rfl, (run_group_iff (ih inner rfl) hs hopen).mpr ⟨_, hks, hshallow, htakes⟩⟩
    | text | bool | var =>
        obtain ⟨hkind, rfl⟩ := (Stream.takes_cons_of_ne (by simp)).mp htakes
        simp only [hkind, run_advance_bind]
        rfl

/-- An operand starts with a kind of its own, which no missing parenthesis can
stand for. -/
theorem Grammar.Operand.exists_cons {ks : List Kind} {e : Expr} (h : Operand ks e) :
    ∃ k rest, ks = k :: rest ∧ k ≠ .rightParen := by
  rcases h with (_ | _ | _ | _) | ⟨_, _, _, _⟩
  all_goals exact ⟨_, _, rfl, by simp⟩

theorem recognizes_test {inner : Nat} (h : Level inner) :
    Recognizes .rightParen (test ⟨expression (inside? inner), operand (inside? inner)⟩)
      (Within .leftParen .rightParen inner IfTest) fun _ => True := by
  intro s hs t s'
  unfold test
  rw [run_peek_bind]
  constructor
  · intro hrun
    split at hrun
    · next b hb =>
        obtain ⟨rfl, rfl⟩ := run_pure_eq_ok.mp hrun
        exact ⟨_, ⟨.literal, shallow_singleton (by simp) (by simp)⟩,
          Stream.takes_current (by simp) hb, trivial⟩
    · next hb =>
        simp only [run_bind_eq_ok, run_expect_eq_ok, run_pure_eq_ok] at hrun
        obtain ⟨l, m, hl, -, _, ⟨his, rfl⟩, r, _, hr, rfl, rfl⟩ := hrun
        obtain ⟨ks, ⟨hks, hkshallow⟩, hktakes, -⟩ := (h.operand s hs l m).mp hl
        obtain ⟨ls, ⟨hls, hlshallow⟩, hltakes, -⟩ :=
          (h.operand _ (hktakes.ended hs).next r _).mp hr
        have hhead : ∀ b, ks.head? ≠ some (.bool b) := by
          intro b hhead
          obtain ⟨rest, rfl⟩ := List.head?_eq_some_iff.mp hhead
          exact hb b ((Stream.takes_cons_of_ne (by simp)).mp hktakes).1
        refine ⟨_, ⟨.is hks hhead hls, ?_⟩, ?_, trivial⟩
        · exact (shallow_append (hks.induct hereditary_balanced)).mpr
            ⟨hkshallow, (shallow_cons (by simp) (by simp)).mpr hlshallow⟩
        · exact Stream.takes_append.mpr
            ⟨m, hktakes, m.next, (Stream.step_of_ne (by simp)).mpr ⟨his, rfl⟩, hltakes⟩
  · intro hphrase
    obtain ⟨ks, ⟨hks, hshallow⟩, htakes, -⟩ := hphrase
    cases hks with
    | literal =>
        obtain ⟨hkind, rfl⟩ := (Stream.takes_cons_of_ne (by simp)).mp htakes
        simp only [hkind, run_advance_bind]
        rfl
    | is hl hhead hr =>
        obtain ⟨hkshallow, hlshallow⟩ :=
          (shallow_append (hl.induct hereditary_balanced)).mp hshallow
        obtain ⟨m, hktakes, hltakes⟩ := Stream.takes_append.mp htakes
        obtain ⟨his, hltakes⟩ := (Stream.takes_cons_of_ne (by simp)).mp hltakes
        -- the left side does not start with a boolean, so the test is no literal
        have hb : ∀ b, s.current.kind ≠ .bool b := by
          obtain ⟨k, rest, rfl, hk⟩ := hl.exists_cons
          rw [((Stream.takes_cons_of_ne hk).mp hktakes).1]
          intro b hkb
          exact hhead b (by simp [hkb])
        split
        · next b hkind => exact absurd hkind (hb b)
        · simp only [run_bind_eq_ok, run_expect_eq_ok, run_pure_eq_ok]
          refine ⟨_, m, (h.operand s hs _ m).mpr ⟨_, ⟨hl, hkshallow⟩, hktakes, trivial⟩, (), m.next,
            ⟨his, rfl⟩, _, s', ?_, rfl, rfl⟩
          exact (h.operand _ (hktakes.ended hs).next _ s').mpr
            ⟨_, ⟨hr, (shallow_cons (by simp) (by simp)).mp hlshallow⟩, hltakes, trivial⟩

theorem Function.ofName?_eq_ifElse {name : String} :
    Function.ofName? name = some .ifElse ↔ name.lowercase = "if" := by
  unfold Function.ofName?
  split
  · simp_all
  · split <;> simp_all

theorem Function.ofName?_eq_replaceAll {name : String} :
    Function.ofName? name = some .replaceAll ↔ name.lowercase = "replaceall" := by
  unfold Function.ofName?
  split
  · simp_all
  · split <;> simp_all

section
variable {limit : Nat} (ih : ∀ inner, limit = inner + 1 → Level inner) {s s' : Stream Kind}
  (hs : s.Ended) {name : String} (hname : s.current.kind = .ident name) {e : Expr}
include ih hs hname

theorem run_nested_ifCall_iff (hif : name.lowercase = "if") :
    (nested (inside? limit) ifCall).run s = .ok (e, s') ↔
      ∃ ks, Within .leftParen .rightParen limit IfCall ks e ∧ s.Takes .rightParen ks s' := by
  have hbalanced : ∀ ks t, IfTest ks t → Balanced Kind.leftParen Kind.rightParen ks :=
    fun _ _ h => h.induct hereditary_balanced
  rw [run_nested_eq_ok]
  constructor
  · intro hread
    obtain ⟨inner, rfl, hrun⟩ := hread
    rw [ifCall_eq, run_threeArguments_iff (recognizes_test (ih inner rfl)) trivial
      (ih inner rfl).expression hbalanced hs hname] at hrun
    obtain ⟨ks, ls, ms, t, yes, no, ht, hyes, hno, rfl, hshallow, htakes⟩ := hrun
    exact ⟨_, ⟨.call hif ht hyes hno, hshallow⟩, htakes⟩
  · intro hphrase
    obtain ⟨ks, ⟨hks, hshallow⟩, htakes⟩ := hphrase
    cases hks with
    | call hif' ht hyes hno =>
        obtain ⟨inner, rfl, -⟩ := (shallow_call (hbalanced _ _ ht)
          (hyes.induct hereditary_balanced) (hno.induct hereditary_balanced)).mp hshallow
        refine ⟨inner, rfl, ?_⟩
        rw [ifCall_eq, run_threeArguments_iff (recognizes_test (ih inner rfl)) trivial
          (ih inner rfl).expression hbalanced hs hname]
        obtain rfl : name = _ := Kind.ident.inj (hname.symm.trans (takes_call.mp htakes).1)
        exact ⟨_, _, _, _, _, _, ht, hyes, hno, rfl, hshallow, htakes⟩

theorem run_nested_replaceCall_iff (hreplace : name.lowercase = "replaceall") :
    (nested (inside? limit) replaceCall).run s = .ok (e, s') ↔
      ∃ ks, Within .leftParen .rightParen limit ReplaceCall ks e ∧ s.Takes .rightParen ks s' := by
  have hbalanced : ∀ ks e, Expression ks e → Balanced Kind.leftParen Kind.rightParen ks :=
    fun _ _ h => h.induct hereditary_balanced
  rw [run_nested_eq_ok]
  constructor
  · intro hread
    obtain ⟨inner, rfl, hrun⟩ := hread
    rw [replaceCall_eq, run_threeArguments_iff (ih inner rfl).expression (by simp)
      (ih inner rfl).expression hbalanced hs hname] at hrun
    obtain ⟨ks, ls, ms, v, x, r, hv, hx, hr, rfl, hshallow, htakes⟩ := hrun
    exact ⟨_, ⟨.call hreplace hv hx hr, hshallow⟩, htakes⟩
  · intro hphrase
    obtain ⟨ks, ⟨hks, hshallow⟩, htakes⟩ := hphrase
    cases hks with
    | call hreplace' hv hx hr =>
        obtain ⟨inner, rfl, -⟩ := (shallow_call (hbalanced _ _ hv) (hbalanced _ _ hx)
          (hbalanced _ _ hr)).mp hshallow
        refine ⟨inner, rfl, ?_⟩
        rw [replaceCall_eq, run_threeArguments_iff (ih inner rfl).expression (by simp)
          (ih inner rfl).expression hbalanced hs hname]
        obtain rfl : name = _ := Kind.ident.inj (hname.symm.trans (takes_call.mp htakes).1)
        exact ⟨_, _, _, _, _, _, hv, hx, hr, rfl, hshallow, htakes⟩

end

section
variable {ks : List Kind} {e : Expr} {s s' : Stream Kind} (htakes : s.Takes .rightParen ks s')
include htakes

theorem Grammar.Simple.current_ne_ident (h : Simple ks e) (name : String) :
    s.current.kind ≠ .ident name := by
  cases h with
  | text | bool | var | group =>
      rw [((Stream.takes_cons_of_ne (by simp)).mp htakes).1]
      simp

theorem Grammar.IfCall.current_eq (h : IfCall ks e) :
    ∃ name, s.current.kind = .ident name ∧ Function.ofName? name = some .ifElse := by
  cases h with
  | call hif _ _ _ =>
      exact ⟨_, (takes_call.mp htakes).1, Function.ofName?_eq_ifElse.mpr hif⟩

theorem Grammar.ReplaceCall.current_eq (h : ReplaceCall ks e) :
    ∃ name, s.current.kind = .ident name ∧ Function.ofName? name = some .replaceAll := by
  cases h with
  | call hreplace _ _ _ =>
      exact ⟨_, (takes_call.mp htakes).1, Function.ofName?_eq_replaceAll.mpr hreplace⟩

/-- The kind in front of a term tells which of its forms it has. -/
theorem Grammar.Term.cases_current (h : Term ks e) :
    Simple ks e ∧ (∀ name, s.current.kind ≠ .ident name) ∨
      ∃ name, s.current.kind = .ident name ∧
        (IfCall ks e ∧ Function.ofName? name = some .ifElse ∨
          ReplaceCall ks e ∧ Function.ofName? name = some .replaceAll) := by
  cases h with
  | simple h => exact .inl ⟨h, h.current_ne_ident htakes⟩
  | ifCall h =>
      obtain ⟨name, hname, hf⟩ := h.current_eq htakes
      exact .inr ⟨name, hname, .inl ⟨h, hf⟩⟩
  | replaceCall h =>
      obtain ⟨name, hname, hf⟩ := h.current_eq htakes
      exact .inr ⟨name, hname, .inr ⟨h, hf⟩⟩

/-- The kind in front of an operand tells which of its forms it has. -/
theorem Grammar.Operand.cases_current (h : Operand ks e) :
    Simple ks e ∧ (∀ name, s.current.kind ≠ .ident name) ∨
      ∃ name, s.current.kind = .ident name ∧ ReplaceCall ks e ∧
        Function.ofName? name = some .replaceAll := by
  cases h with
  | simple h => exact .inl ⟨h, h.current_ne_ident htakes⟩
  | replaceCall h =>
      obtain ⟨name, hname, hf⟩ := h.current_eq htakes
      exact .inr ⟨name, hname, h, hf⟩

end

theorem recognizes_term {limit : Nat} (ih : ∀ inner, limit = inner + 1 → Level inner) :
    Recognizes .rightParen (term (inside? limit)) (Within .leftParen .rightParen limit Term)
      fun _ => True := by
  intro s hs e s'
  unfold term
  rw [run_peek_bind]
  constructor
  · intro hrun
    split at hrun
    · next name hname =>
        split at hrun
        · next hf =>
            obtain ⟨ks, ⟨hks, hshallow⟩, htakes⟩ :=
              (run_nested_ifCall_iff ih hs hname (Function.ofName?_eq_ifElse.mp hf)).mp hrun
            exact ⟨ks, ⟨.ifCall hks, hshallow⟩, htakes, trivial⟩
        · next hf =>
            obtain ⟨ks, ⟨hks, hshallow⟩, htakes⟩ := (run_nested_replaceCall_iff ih hs hname
              (Function.ofName?_eq_replaceAll.mp hf)).mp hrun
            exact ⟨ks, ⟨.replaceCall hks, hshallow⟩, htakes, trivial⟩
        · simp at hrun
    · obtain ⟨ks, ⟨hks, hshallow⟩, hrest⟩ := (recognizes_simple ih .value s hs e s').mp hrun
      exact ⟨ks, ⟨.simple hks, hshallow⟩, hrest⟩
  · intro h
    obtain ⟨ks, ⟨hks, hshallow⟩, htakes, -⟩ := h
    rcases hks.cases_current htakes with
      ⟨hsimple, hne⟩ | ⟨name, hname, ⟨hcall, hf⟩ | ⟨hcall, hf⟩⟩
    · split
      · next name hname => exact absurd hname (hne name)
      · exact (recognizes_simple ih .value s hs e s').mpr ⟨ks, ⟨hsimple, hshallow⟩, htakes, trivial⟩
    · simp only [hname, hf]
      exact (run_nested_ifCall_iff ih hs hname (Function.ofName?_eq_ifElse.mp hf)).mpr
        ⟨ks, ⟨hcall, hshallow⟩, htakes⟩
    · simp only [hname, hf]
      exact (run_nested_replaceCall_iff ih hs hname (Function.ofName?_eq_replaceAll.mp hf)).mpr
        ⟨ks, ⟨hcall, hshallow⟩, htakes⟩

theorem recognizes_operand {limit : Nat} (ih : ∀ inner, limit = inner + 1 → Level inner) :
    Recognizes .rightParen (operand (inside? limit)) (Within .leftParen .rightParen limit Operand)
      fun _ => True := by
  intro s hs e s'
  unfold operand
  rw [run_peek_bind]
  constructor
  · intro hrun
    split at hrun
    · next name hname =>
        split at hrun
        · next hf =>
            obtain ⟨ks, ⟨hks, hshallow⟩, htakes⟩ := (run_nested_replaceCall_iff ih hs hname
              (Function.ofName?_eq_replaceAll.mp hf)).mp hrun
            exact ⟨ks, ⟨.replaceCall hks, hshallow⟩, htakes, trivial⟩
        · simp at hrun
        · simp at hrun
    · obtain ⟨ks, ⟨hks, hshallow⟩, hrest⟩ := (recognizes_simple ih .operand s hs e s').mp hrun
      exact ⟨ks, ⟨.simple hks, hshallow⟩, hrest⟩
  · intro h
    obtain ⟨ks, ⟨hks, hshallow⟩, htakes, -⟩ := h
    rcases hks.cases_current htakes with ⟨hsimple, hne⟩ | ⟨name, hname, hcall, hf⟩
    · split
      · next name hname => exact absurd hname (hne name)
      · exact (recognizes_simple ih .operand s hs e s').mpr
          ⟨ks, ⟨hsimple, hshallow⟩, htakes, trivial⟩
    · simp only [hname, hf]
      exact (run_nested_replaceCall_iff ih hs hname (Function.ofName?_eq_replaceAll.mp hf)).mpr
        ⟨ks, ⟨hcall, hshallow⟩, htakes⟩

theorem expression_iff {ks : List Kind} {e : Expr} :
    Expression ks e ↔ Term ks e ∨ ∃ es, Run .plus Term ks es ∧ 2 ≤ es.length ∧ e = .concat es := by
  constructor
  · rintro (h | ⟨h, hlen⟩)
    · exact .inl h
    · exact .inr ⟨_, h, hlen, rfl⟩
  · rintro (h | ⟨es, h, hlen, rfl⟩)
    · exact .single h
    · exact .run h hlen

theorem level_of_inner {limit : Nat} (ih : ∀ inner, limit = inner + 1 → Level inner) :
    Level limit where
  expression := by
    have h := recognizes_joined .plus join .concat (recognizes_term ih) trivial rfl (by simp)
      (by simp) (fun _ _ h => h.induct hereditary_balanced) (fun _ => rfl) (fun _ _ _ => rfl)
      (fun _ _ => expression_iff)
    exact h.congr (fun _ _ => Iff.rfl) (by simp)
  operand := recognizes_operand ih

/-- At every level of nesting the readers take exactly the phrases within it. -/
theorem level (limit : Nat) : Level limit := by
  induction limit with
  | zero => exact level_of_inner (by simp)
  | succ limit ih =>
      refine level_of_inner fun inner h => ?_
      rwa [← Nat.succ.inj h]

/-! ## Whole streams -/

theorem run_whole_expression_eq_ok {limit : Nat} {source : String} {tokens : List (Token Kind)}
    {e : Expr} :
    ((whole (expression (inside? limit)) .plus).run (Stream.ofTokens source tokens)).map (·.1) =
        .ok e ↔
      (∃ n, Expression (kindsAhead tokens ++ List.replicate n .rightParen) e) ∧
        Shallow .leftParen .rightParen limit (kindsAhead tokens) :=
  run_whole_within_eq_ok (by simp) (by simp [TokenKind.eof])
    (fun _ _ h => h.induct hereditary_not_eof) (level limit).expression

/-- A sequence of kinds has at most one tree, however many parentheses are
missing behind it. -/
theorem Grammar.expression_unique {ks : List Kind} {m n : Nat} {e f : Expr}
    (he : Expression (ks ++ List.replicate m .rightParen) e)
    (hf : Expression (ks ++ List.replicate n .rightParen) f) : e = f :=
  unique_of_recognizes (by simp) (by simp [TokenKind.eof])
    (fun _ _ h => h.induct hereditary_not_eof) .plus (fun limit => (level limit).expression) he hf

/-- The reader accepts a stream exactly when some closing parentheses complete
a derivation from the kinds in front of the end of file, and no prefix of these
has more than 64 groups and calls open. So the tree depends on these kinds
alone, and no other tree can be derived from them. -/
theorem ofTokens_eq_ok_iff_expression (source : String) (tokens : List (Token Kind)) :
    (∀ e, ofTokens source tokens = .ok e ↔
      (∃ n, Expression (kindsAhead tokens ++ List.replicate n .rightParen) e) ∧
        Shallow .leftParen .rightParen 64 (kindsAhead tokens)) ∧
    {e | ∃ n, Expression (kindsAhead tokens ++ List.replicate n .rightParen) e}.Subsingleton := by
  constructor
  · intro e
    exact run_whole_expression_eq_ok
  · rintro e ⟨m, he⟩ f ⟨n, hf⟩
    exact expression_unique he hf

end FormLogic.Expr
