import FormLogic.Proofs.Condition.Grammar
import FormLogic.Proofs.Expr.Tree

/-!
# FormLogic.Proofs.Height

How high the trees are that readers give. A path leads from the root of a tree to
a leaf (`IsPath`), and `AtMost n` says that no path has more than `n` nodes. A
level of parentheses adds at most two nodes to a path: the one that a run of `or`,
of `and` or of `+` is joined to, and that of a call or of a second connective.
-/

namespace FormLogic

/-! ## Paths -/

section
variable {τ : Type} {children : τ → List τ}

/-- The nodes from a tree down to a leaf. -/
inductive IsPath (children : τ → List τ) : τ → List τ → Prop
  | leaf {t : τ} : children t = [] → IsPath children t [t]
  | node {t c : τ} {p : List τ} : c ∈ children t → IsPath children c p → IsPath children t (t :: p)

/-- No path from the tree to a leaf has more than `n` nodes. -/
def AtMost (children : τ → List τ) (n : Nat) (t : τ) : Prop :=
  ∀ p, IsPath children t p → p.length ≤ n

theorem AtMost.mono {m n : Nat} {t : τ} (h : AtMost children m t) (hmn : m ≤ n) :
    AtMost children n t :=
  fun p hp => Nat.le_trans (h p hp) hmn

/-- A node is one more than what its children have. -/
theorem atMost_node {n : Nat} {t : τ} (h : ∀ c ∈ children t, AtMost children n c) :
    AtMost children (n + 1) t := by
  intro p hp
  cases hp with
  | leaf => simp
  | node hc hp => exact Nat.succ_le_succ (h _ hc _ hp)

theorem atMost_leaf {n : Nat} {t : τ} (h : children t = []) : AtMost children (n + 1) t :=
  atMost_node (by simp [h])

end

/-! ## Conditions -/

namespace Condition

open Grammar

/-- The operands of a condition. -/
def children : Condition → List Condition
  | .and cs => cs
  | .or cs => cs
  | .compare .. => []

mutual

/-- With `limit` levels of parentheses, a disjunct has at most `2 * limit + 3` nodes
on a path. -/
theorem atMost_disjunct {limit : Nat} {ks : List Kind} {c : Condition} :
    Disjunct ks c → Shallow .leftParen .rightParen limit ks → AtMost children (2 * limit + 3) c
  | .single h, hshallow => (atMost_conjunct h hshallow).mono (by omega)
  | .run h _, hshallow => atMost_node (atMost_conjuncts h hshallow)

theorem atMost_conjuncts {limit : Nat} {ks : List Kind} {cs : List Condition} :
    Run .or Conjunct ks cs → Shallow .leftParen .rightParen limit ks →
      ∀ c ∈ cs, AtMost children (2 * limit + 2) c
  | .one h, hshallow => List.forall_mem_singleton.mpr (atMost_conjunct h hshallow)
  | .cons h hs, hshallow => by
      obtain ⟨hc, hcs⟩ := (shallow_append (h.induct hereditary_balanced)).mp hshallow
      have hcs := (shallow_cons (by simp) (by simp)).mp hcs
      exact List.forall_mem_cons.mpr ⟨atMost_conjunct h hc, atMost_conjuncts hs hcs⟩

theorem atMost_conjunct {limit : Nat} {ks : List Kind} {c : Condition} :
    Conjunct ks c → Shallow .leftParen .rightParen limit ks → AtMost children (2 * limit + 2) c
  | .single h, hshallow => (atMost_primary h hshallow).mono (by omega)
  | .run h _, hshallow => atMost_node (atMost_primaries h hshallow)

theorem atMost_primaries {limit : Nat} {ks : List Kind} {cs : List Condition} :
    Run .and Primary ks cs → Shallow .leftParen .rightParen limit ks →
      ∀ c ∈ cs, AtMost children (2 * limit + 1) c
  | .one h, hshallow => List.forall_mem_singleton.mpr (atMost_primary h hshallow)
  | .cons h hs, hshallow => by
      obtain ⟨hc, hcs⟩ := (shallow_append (h.induct hereditary_balanced)).mp hshallow
      have hcs := (shallow_cons (by simp) (by simp)).mp hcs
      exact List.forall_mem_cons.mpr ⟨atMost_primary h hc, atMost_primaries hs hcs⟩

theorem atMost_primary {limit : Nat} {ks : List Kind} {c : Condition} :
    Primary ks c → Shallow .leftParen .rightParen limit ks → AtMost children (2 * limit + 1) c
  | .group h, hshallow => by
      obtain ⟨inner, rfl, hinner⟩ :=
        (shallow_group (by simp) (h.induct hereditary_balanced)).mp hshallow
      exact (atMost_disjunct h hinner).mono (by omega)
  | .comparison _, _ => atMost_leaf rfl

end

/-- A condition that is read has at most 131 nodes on a path. -/
theorem atMost_of_ofTokens {source : String} {tokens : List (Token Kind)} {c : Condition}
    (h : ofTokens source tokens = .ok c) : AtMost children 131 c := by
  obtain ⟨⟨n, hc⟩, hshallow⟩ := run_whole_disjunct_eq_ok.mp h
  exact atMost_disjunct hc ((shallow_append_replicate (by simp) n).mpr hshallow)

end Condition

/-! ## Value expressions -/

namespace Expr

open Grammar

/-- The expressions that an expression is made of. -/
def children : Expr → List Expr
  | .text _ | .bool _ | .var _ => []
  | .concat parts => parts
  | .ifElse t yes no => t.sides ++ [yes, no]
  | .replaceAll value search replacement => [value, search, replacement]

/-- Kinds that are balanced, and with `limit` levels of parentheses give at most `2 *
limit + n` nodes on a path. -/
def Grows (n : Nat) (ks : List Kind) (e : Expr) : Prop :=
  Balanced .leftParen .rightParen ks ∧
    ∀ limit, Shallow .leftParen .rightParen limit ks → AtMost children (2 * limit + n) e

/-- The same for the sides of a test. -/
def SidesGrow (ks : List Kind) (t : Test) : Prop :=
  Balanced .leftParen .rightParen ks ∧
    ∀ limit, Shallow .leftParen .rightParen limit ks →
      ∀ e ∈ t.sides, AtMost children (2 * limit + 1) e

theorem grows_leaf {k : Kind} {e : Expr} (hopen : k ≠ .leftParen) (hclose : k ≠ .rightParen)
    (h : e.children = []) : Grows 1 [k] e :=
  ⟨(balanced_cons hopen hclose).mpr rfl, fun _ _ => atMost_leaf h⟩

/-- A call is one level of parentheses and one node. -/
theorem grows_call {name : String} {ks ls ms : List Kind} {e : Expr}
    (hks : Balanced .leftParen .rightParen ks) (hls : Balanced .leftParen .rightParen ls)
    (hms : Balanced .leftParen .rightParen ms)
    (h : ∀ limit, Shallow .leftParen .rightParen limit ks →
      Shallow .leftParen .rightParen limit ls → Shallow .leftParen .rightParen limit ms →
        ∀ c ∈ e.children, AtMost children (2 * limit + 2) c) :
    Grows 1 (call name ks ls ms) e := by
  refine ⟨balanced_call hks hls hms, fun limit hshallow => ?_⟩
  obtain ⟨inner, rfl, hks, hls, hms⟩ := (shallow_call hks hls hms).mp hshallow
  exact atMost_node (h inner hks hls hms)

theorem grows_run {ks : List Kind} {es : List Expr} (h : Run .plus (Grows 1) ks es) :
    Balanced .leftParen .rightParen ks ∧ ∀ limit, Shallow .leftParen .rightParen limit ks →
      ∀ e ∈ es, AtMost children (2 * limit + 1) e := by
  induction h with
  | one he =>
      exact ⟨he.1, fun limit hshallow => List.forall_mem_singleton.mpr (he.2 limit hshallow)⟩
  | cons he _ ih =>
      refine ⟨he.1.append ((balanced_cons (by simp) (by simp)).mpr ih.1), fun limit hshallow => ?_⟩
      obtain ⟨hfst, hrest⟩ := (shallow_append he.1).mp hshallow
      have hrest := (shallow_cons (by simp) (by simp)).mp hrest
      exact List.forall_mem_cons.mpr ⟨he.2 limit hfst, ih.2 limit hrest⟩

theorem hereditary_grows : Hereditary (Grows 1) (Grows 2) SidesGrow where
  text _ := grows_leaf (by simp) (by simp) rfl
  bool _ := grows_leaf (by simp) (by simp) rfl
  var _ := grows_leaf (by simp) (by simp) rfl
  group ks e h := by
    refine ⟨h.1.group (by simp), fun limit hshallow => ?_⟩
    obtain ⟨inner, rfl, hinner⟩ := (shallow_group (by simp) h.1).mp hshallow
    exact (h.2 inner hinner).mono (by omega)
  ifCall _ _ _ _ t yes no ht hyes hno :=
    grows_call ht.1 hyes.1 hno.1 fun limit hks hls hms c hc => by
      rcases List.mem_append.mp hc with hside | hbranch
      · exact (ht.2 limit hks c hside).mono (by omega)
      · rcases List.mem_pair.mp hbranch with rfl | rfl
        · exact hyes.2 limit hls
        · exact hno.2 limit hms
  replaceCall _ _ _ _ value search replacement hv hs hr :=
    grows_call hv.1 hs.1 hr.1 fun limit hks hls hms c hc => by
      simp only [children, List.mem_cons, List.not_mem_nil, or_false] at hc
      rcases hc with rfl | rfl | rfl
      · exact hv.2 limit hks
      · exact hs.2 limit hls
      · exact hr.2 limit hms
  single _ _ h := ⟨h.1, fun limit hshallow => (h.2 limit hshallow).mono (by omega)⟩
  run _ _ h _ := ⟨(grows_run h).1, fun limit hshallow =>
    atMost_node ((grows_run h).2 limit hshallow)⟩
  literal _ := ⟨rfl, fun _ _ e he => by simp [Test.sides] at he⟩
  is ks ls l r _ _ _ hl hr := by
    refine ⟨hl.1.append ((balanced_cons (by simp) (by simp)).mpr hr.1), fun limit hshallow => ?_⟩
    obtain ⟨hks, hls⟩ := (shallow_append hl.1).mp hshallow
    have hls := (shallow_cons (by simp) (by simp)).mp hls
    simpa [Test.sides] using ⟨hl.2 limit hks, hr.2 limit hls⟩

/-- An expression that is read has at most 130 nodes on a path. -/
theorem atMost_of_ofTokens {source : String} {tokens : List (Token Kind)} {e : Expr}
    (h : ofTokens source tokens = .ok e) : AtMost children 130 e := by
  obtain ⟨⟨n, he⟩, hshallow⟩ := run_whole_expression_eq_ok.mp h
  exact (he.induct hereditary_grows).2 64 ((shallow_append_replicate (by simp) n).mpr hshallow)

end Expr

end FormLogic
