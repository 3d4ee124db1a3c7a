import FormLogic.Proofs.Expr.Grammar
import FormLogic.Proofs.Joined

/-!
# FormLogic.Proofs.Expr.Tree

Value expressions as trees: their nodes, how deep they nest, and the kinds that
their canonical text is put together from. As in the canonical text, an
expression that joins parts stands in parentheses where it is an operand, so
these parentheses and those of the calls count how deep the tree nests
(`shallow_kinds`).
-/

namespace FormLogic

/-! ## Nodes -/

/-- The two sides that a test compares, if it does. -/
def Test.sides : Test → List Expr
  | .literal _ => []
  | .is l r => [l, r]

namespace Expr

/-- What holds of single values, and of every other expression when it holds of
what this is made of, holds of every expression. -/
@[elab_as_elim, induction_eliminator]
theorem induction {motive : Expr → Prop} (text : ∀ s, motive (.text s))
    (bool : ∀ b, motive (.bool b)) (var : ∀ p, motive (.var p))
    (concat : ∀ es, (∀ e ∈ es, motive e) → motive (.concat es))
    (ifElse : ∀ t yes no, (∀ e ∈ t.sides, motive e) → motive yes → motive no →
      motive (.ifElse t yes no))
    (replaceAll : ∀ v s r, motive v → motive s → motive r → motive (.replaceAll v s r))
    (e : Expr) : motive e := by
  refine @Expr.rec motive (fun t => ∀ e ∈ t.sides, motive e) (fun es => ∀ e ∈ es, motive e)
    text bool var concat ifElse replaceAll ?_ ?_ ?_ ?_ e
  · simp [Test.sides]
  · intro l r hl hr
    simpa [Test.sides] using ⟨hl, hr⟩
  · simp
  · intro e es he hes
    exact List.forall_mem_cons.mpr ⟨he, hes⟩

end Expr

mutual

/-- The nodes of an expression, from the root on. -/
def Expr.nodes : Expr → List Expr
  | .text s => [.text s]
  | .bool b => [.bool b]
  | .var p => [.var p]
  | .concat parts => .concat parts :: Expr.nodesOfParts parts
  | .ifElse t a b => .ifElse t a b :: (t.nodes ++ a.nodes ++ b.nodes)
  | .replaceAll v s r => .replaceAll v s r :: (v.nodes ++ s.nodes ++ r.nodes)

/-- The nodes of the sides of a test. -/
def Test.nodes : Test → List Expr
  | .literal _ => []
  | .is l r => l.nodes ++ r.nodes

/-- The nodes of some parts. -/
def Expr.nodesOfParts : List Expr → List Expr
  | [] => []
  | e :: es => e.nodes ++ Expr.nodesOfParts es

end

@[simp] theorem Expr.nodesOfParts_eq (es : List Expr) :
    Expr.nodesOfParts es = es.flatMap Expr.nodes := by
  induction es with
  | nil => rfl
  | cons e es ih => rw [nodesOfParts, ih, List.flatMap_cons]

@[simp] theorem Test.nodes_eq (t : Test) : t.nodes = t.sides.flatMap Expr.nodes := by
  cases t <;> simp [nodes, sides]

/-! ## Nesting -/

/-- The nesting of an operand, given that of the expression alone. -/
def Expr.operandNesting (e : Expr) (alone : Nat) : Nat :=
  if e.isConcat then alone + 1 else alone

mutual

/-- The most calls on a path from the root to a leaf, counting the expressions
that join parts where they are operands as well. -/
def Expr.nesting : Expr → Nat
  | .text _ | .bool _ | .var _ => 0
  | .concat parts => Expr.nestingOfParts parts
  | .ifElse t a b => max t.nesting (max a.nesting b.nesting) + 1
  | .replaceAll v s r => max v.nesting (max s.nesting r.nesting) + 1

/-- The largest nesting of the sides of a test. -/
def Test.nesting : Test → Nat
  | .literal _ => 0
  | .is l r => max (l.operandNesting l.nesting) (r.operandNesting r.nesting)

/-- The largest nesting of some parts. -/
def Expr.nestingOfParts : List Expr → Nat
  | [] => 0
  | e :: es => max (e.operandNesting e.nesting) (Expr.nestingOfParts es)

end

theorem Expr.nestingOfParts_le {es : List Expr} {limit : Nat} :
    Expr.nestingOfParts es ≤ limit ↔ ∀ e ∈ es, e.operandNesting e.nesting ≤ limit := by
  induction es with
  | nil => simp [nestingOfParts]
  | cons e es ih => rw [nestingOfParts, Nat.max_le, ih, List.forall_mem_cons]

/-! ## Kinds -/

/-- The kinds of an operand, given those of the expression alone. -/
def Expr.operandKinds (e : Expr) (alone : List Kind) : List Kind :=
  if e.isConcat then .leftParen :: alone ++ [.rightParen] else alone

mutual

/-- The kinds that the canonical text of an expression is put together from. -/
def Expr.kinds : Expr → List Expr.Kind
  | .text s => [.text s]
  | .bool b => [.bool b]
  | .var p => [.var p.raw]
  | .concat parts => [Expr.Kind.plus].intercalate (Expr.kindsOfParts parts)
  | .ifElse t a b => Expr.Grammar.call "if" t.kinds a.kinds b.kinds
  | .replaceAll v s r => Expr.Grammar.call "replaceAll" v.kinds s.kinds r.kinds

/-- The kinds of a test. -/
def Test.kinds : Test → List Expr.Kind
  | .literal b => [.bool b]
  | .is l r => l.operandKinds l.kinds ++ .is :: r.operandKinds r.kinds

/-- The kinds of each of some parts. -/
def Expr.kindsOfParts : List Expr → List (List Expr.Kind)
  | [] => []
  | e :: es => e.operandKinds e.kinds :: Expr.kindsOfParts es

end

/-- The kinds of an expression where it is an operand. -/
def Expr.kindsInside (e : Expr) : List Kind := e.operandKinds e.kinds

@[simp] theorem Expr.kindsOfParts_eq (es : List Expr) :
    Expr.kindsOfParts es = es.map kindsInside := by
  induction es with
  | nil => rfl
  | cons e es ih => rw [kindsOfParts, ih, List.map_cons, kindsInside]

theorem Test.kinds_is (l r : Expr) :
    (Test.is l r).kinds = l.kindsInside ++ .is :: r.kindsInside := by
  rw [kinds, Expr.kindsInside, Expr.kindsInside]

namespace Expr

/-- As an operand, an expression stands alone or in parentheses. -/
theorem kindsInside_of {p : List Kind → Prop} {e : Expr} (alone : p e.kinds)
    (group : p (.leftParen :: e.kinds ++ [.rightParen])) : p e.kindsInside := by
  unfold kindsInside operandKinds
  split
  · exact group
  · exact alone

/-- The kind of a single value. -/
def leaf? : Expr → Option Kind
  | .text s => some (.text s)
  | .bool b => some (.bool b)
  | .var p => some (.var p.raw)
  | _ => none

/-- A property of the kinds of single values that operators, groups and calls
keep is one of the kinds of an expression. -/
theorem kinds_induction {p : List Kind → Prop} {e : Expr} (nil : p [])
    (leaf : ∀ n ∈ e.nodes, ∀ k ∈ n.leaf?, p [k])
    (bool : ∀ b, p [.bool b])
    (join : ∀ ks k ls, k ∈ [Kind.is, .comma, .plus] → p ks → p ls → p (ks ++ k :: ls))
    (group : ∀ ks, p ks → p (.leftParen :: ks ++ [.rightParen]))
    (call : ∀ name ks, name ∈ ["if", "replaceAll"] → p (.leftParen :: ks ++ [.rightParen]) →
      p (.ident name :: (.leftParen :: ks ++ [.rightParen]))) : p e.kinds := by
  have hinside : ∀ e : Expr, p e.kinds → p e.kindsInside := fun e h =>
    kindsInside_of h (group _ h)
  have hcall : ∀ name ks ls ms, name ∈ ["if", "replaceAll"] → p ks → p ls → p ms →
      p (Grammar.call name ks ls ms) := fun name ks ls ms hname hks hls hms =>
    call _ _ hname (group _ (join _ _ _ (by simp) hks (join _ _ _ (by simp) hls hms)))
  induction e with
  | text s => exact leaf (.text s) (by simp [nodes]) _ rfl
  | bool b => exact bool b
  | var q => exact leaf (.var q) (by simp [nodes]) _ rfl
  | concat es ih =>
      have hparts : ∀ ks ∈ es.map kindsInside, p ks := by
        refine List.forall_mem_map.mpr fun e he => hinside e (ih e he fun n hn => leaf n ?_)
        simpa [nodes] using .inr ⟨e, he, hn⟩
      rw [kinds, kindsOfParts_eq]
      exact forall_intercalate nil (fun ks ls => join ks _ ls (by simp)) hparts
  | ifElse t yes no iht ihyes ihno =>
      have hsides : ∀ e ∈ t.sides, p e.kindsInside := by
        refine fun e he => hinside e (iht e he fun n hn => leaf n ?_)
        simpa [nodes] using .inr (.inl ⟨e, he, hn⟩)
      have ht : p t.kinds := by
        cases t with
        | literal b => exact bool b
        | is l r =>
            rw [Test.kinds_is]
            exact join _ _ _ (by simp) (hsides l (by simp [Test.sides]))
              (hsides r (by simp [Test.sides]))
      rw [kinds]
      exact hcall _ _ _ _ (by simp) ht (ihyes fun n hn => leaf n (by simp [nodes, hn]))
        (ihno fun n hn => leaf n (by simp [nodes, hn]))
  | replaceAll v s r ihv ihs ihr =>
      rw [kinds]
      exact hcall _ _ _ _ (by simp) (ihv fun n hn => leaf n (by simp [nodes, hn]))
        (ihs fun n hn => leaf n (by simp [nodes, hn]))
        (ihr fun n hn => leaf n (by simp [nodes, hn]))

/-- The kinds of an expression are those of its single values, booleans, names of
functions, and marks. -/
theorem forall_kinds {p : Kind → Prop} {e : Expr} (leaf : ∀ n ∈ e.nodes, ∀ k ∈ n.leaf?, p k)
    (bool : ∀ b, p (.bool b))
    (fixed : ∀ k ∈ [Kind.ident "if", .ident "replaceAll", .is, .comma, .plus, .leftParen,
      .rightParen], p k) : ∀ k ∈ e.kinds, p k := by
  refine kinds_induction (p := fun ks => ∀ k ∈ ks, p k) (by simp) ?_ (by simpa using bool) ?_ ?_ ?_
  · intro n hn k hk
    simpa using leaf n hn k hk
  · intro ks k ls hk hks hls
    have hfixed : [Kind.is, .comma, .plus] ⊆ [Kind.ident "if", .ident "replaceAll", .is, .comma,
      .plus, .leftParen, .rightParen] := by simp
    exact List.forall_mem_append.mpr ⟨hks, List.forall_mem_cons.mpr ⟨fixed k (hfixed hk), hls⟩⟩
  · intro ks hks
    exact List.forall_mem_append.mpr ⟨List.forall_mem_cons.mpr
      ⟨fixed .leftParen (by simp), hks⟩, by simpa using fixed .rightParen (by simp)⟩
  · intro name ks hname hks
    have hfixed : p (.ident name) := by
      simp only [List.mem_cons, List.not_mem_nil, or_false] at hname
      rcases hname with rfl | rfl <;> exact fixed _ (by simp)
    exact List.forall_mem_cons.mpr ⟨hfixed, hks⟩

theorem kindsInside_subset_of_side {t : Test} {e : Expr} (he : e ∈ t.sides) :
    e.kindsInside ⊆ t.kinds := by
  cases t with
  | literal b => simp [Test.sides] at he
  | is l r =>
      simp only [Test.sides, List.mem_cons, List.not_mem_nil, or_false] at he
      rw [Test.kinds_is]
      rcases he with rfl | rfl
      · exact List.subset_append_left _ _
      · exact fun k hk => by simp [hk]

/-- The kind of every single value in an expression is among its kinds. -/
theorem leaf_mem_kinds {e n : Expr} {k : Kind} (hn : n ∈ e.nodes) (hk : k ∈ n.leaf?) :
    k ∈ e.kinds := by
  have hinside : ∀ e : Expr, k ∈ e.kinds → k ∈ e.kindsInside := fun e h =>
    kindsInside_of h (List.mem_cons_of_mem _ (List.mem_append_left _ h))
  induction e with
  | text | bool | var =>
      simp only [nodes, List.mem_singleton] at hn
      subst hn
      simp_all [leaf?, kinds]
  | concat es ih =>
      simp only [nodes, nodesOfParts_eq, List.mem_cons, List.mem_flatMap] at hn
      rcases hn with rfl | ⟨e, he, hn⟩
      · simp [leaf?] at hk
      · rw [kinds, kindsOfParts_eq]
        exact subset_intercalate (List.mem_map_of_mem he) (hinside e (ih e he hn))
  | ifElse t yes no iht ihyes ihno =>
      simp only [nodes, Test.nodes_eq, List.mem_cons, List.mem_append, List.mem_flatMap] at hn
      rcases hn with rfl | (⟨e, he, hn⟩ | hn) | hn
      · simp [leaf?] at hk
      · have ht := kindsInside_subset_of_side he (hinside e (iht e he hn))
        simp [kinds, Grammar.call, ht]
      · simp [kinds, Grammar.call, ihyes hn]
      · simp [kinds, Grammar.call, ihno hn]
  | replaceAll v s r ihv ihs ihr =>
      simp only [nodes, List.mem_cons, List.mem_append] at hn
      rcases hn with rfl | (hn | hn) | hn
      · simp [leaf?] at hk
      · simp [kinds, Grammar.call, ihv hn]
      · simp [kinds, Grammar.call, ihs hn]
      · simp [kinds, Grammar.call, ihr hn]

/-! ## Nesting of kinds -/

theorem balanced_kinds (e : Expr) : Balanced Kind.leftParen Kind.rightParen e.kinds := by
  refine kinds_induction rfl ?_ (fun _ => rfl) ?_ (fun ks h => h.group (by simp)) ?_
  · intro n _ k hk
    cases n with
    | text | bool | var =>
        obtain rfl := Option.some.inj hk
        rfl
    | concat | ifElse | replaceAll => simp [leaf?] at hk
  · intro ks k ls hk hks hls
    refine hks.append ((balanced_cons ?_ ?_).mpr hls)
    · rintro rfl
      simp at hk
    · rintro rfl
      simp at hk
  · exact fun name ks _ h => (balanced_cons (by simp) (by simp)).mpr h

theorem balanced_kindsInside (e : Expr) :
    Balanced Kind.leftParen Kind.rightParen e.kindsInside :=
  kindsInside_of e.balanced_kinds (e.balanced_kinds.group (by simp))

theorem balanced_test_kinds (t : Test) : Balanced Kind.leftParen Kind.rightParen t.kinds := by
  cases t with
  | literal b => rfl
  | is l r =>
      rw [Test.kinds_is]
      exact l.balanced_kindsInside.append
        ((balanced_cons (by simp) (by simp)).mpr r.balanced_kindsInside)

/-- The parentheses of an operand are one level more. -/
theorem shallow_kindsInside {e : Expr}
    (h : ∀ limit, Shallow .leftParen .rightParen limit e.kinds ↔ e.nesting ≤ limit)
    (limit : Nat) :
    Shallow .leftParen .rightParen limit e.kindsInside ↔ e.operandNesting e.nesting ≤ limit := by
  unfold kindsInside operandKinds operandNesting
  split
  · exact shallow_group_le (by simp) e.balanced_kinds h
  · exact h limit

/-- The parentheses of a call are one level more. -/
theorem shallow_call_iff {name : String} {ks ls ms : List Kind} {a b c limit : Nat}
    (hks : Balanced .leftParen .rightParen ks) (hls : Balanced .leftParen .rightParen ls)
    (hms : Balanced .leftParen .rightParen ms)
    (ha : ∀ limit, Shallow .leftParen .rightParen limit ks ↔ a ≤ limit)
    (hb : ∀ limit, Shallow .leftParen .rightParen limit ls ↔ b ≤ limit)
    (hc : ∀ limit, Shallow .leftParen .rightParen limit ms ↔ c ≤ limit) :
    Shallow .leftParen .rightParen limit (Grammar.call name ks ls ms) ↔
      max a (max b c) + 1 ≤ limit := by
  rw [shallow_call hks hls hms]
  simp only [ha, hb, hc]
  constructor
  · intro hlevel
    obtain ⟨inner, rfl, ha, hb, hc⟩ := hlevel
    omega
  · intro h
    exact ⟨limit - 1, by omega, by omega, by omega, by omega⟩

/-- As many parentheses are open as the tree nests. -/
theorem shallow_kinds (e : Expr) (limit : Nat) :
    Shallow .leftParen .rightParen limit e.kinds ↔ e.nesting ≤ limit := by
  induction e generalizing limit with
  | text | bool | var => simp [kinds, nesting, shallow_cons, shallow_nil]
  | concat es ih =>
      have hbalanced : ∀ ks ∈ es.map kindsInside, Balanced Kind.leftParen Kind.rightParen ks :=
        List.forall_mem_map.mpr fun e _ => e.balanced_kindsInside
      rw [kinds, kindsOfParts_eq, shallow_intercalate (by simp) (by simp) hbalanced,
        List.forall_mem_map, nesting, nestingOfParts_le]
      exact forall₂_congr fun e he => shallow_kindsInside (ih e he) limit
  | ifElse t yes no iht ihyes ihno =>
      have ht : ∀ limit, Shallow .leftParen .rightParen limit t.kinds ↔ t.nesting ≤ limit := by
        intro limit
        cases t with
        | literal b => simp [Test.kinds, Test.nesting, shallow_cons, shallow_nil]
        | is l r =>
            have hl := shallow_kindsInside (iht l (by simp [Test.sides])) limit
            have hr := shallow_kindsInside (iht r (by simp [Test.sides])) limit
            rw [Test.kinds_is, shallow_append l.balanced_kindsInside,
              shallow_cons (by simp) (by simp), hl, hr, Test.nesting, Nat.max_le]
      rw [kinds, nesting, shallow_call_iff (balanced_test_kinds t) yes.balanced_kinds
        no.balanced_kinds ht ihyes ihno]
  | replaceAll v s r ihv ihs ihr =>
      rw [kinds, nesting, shallow_call_iff v.balanced_kinds s.balanced_kinds r.balanced_kinds
        ihv ihs ihr]

end Expr

end FormLogic
