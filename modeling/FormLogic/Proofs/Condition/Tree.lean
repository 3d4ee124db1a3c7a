import FormLogic.Condition.Basic
import FormLogic.Condition.Token
import FormLogic.Proofs.Joined

/-!
# FormLogic.Proofs.Condition.Tree

Conditions as trees: their nodes, how deep they nest, and the kinds that their
canonical text is put together from. Every connective stands in parentheses
there, so these parentheses count how deep the tree nests (`shallow_kinds`).
-/

namespace FormLogic.Condition

/-! ## Nodes -/

/-- What holds of comparisons, and of connectives when it holds of their
operands, holds of every condition. -/
@[elab_as_elim, induction_eliminator]
theorem induction {motive : Condition → Prop}
    (compare : ∀ name op expected, motive (.compare name op expected))
    (and : ∀ cs, (∀ c ∈ cs, motive c) → motive (.and cs))
    (or : ∀ cs, (∀ c ∈ cs, motive c) → motive (.or cs)) (c : Condition) : motive c := by
  match c with
  | .compare name op expected => exact compare name op expected
  | .and cs => exact and cs fun c _ => induction compare and or c
  | .or cs => exact or cs fun c _ => induction compare and or c

mutual

/-- The nodes of a condition, from the root on. -/
def nodes : Condition → List Condition
  | .and cs => .and cs :: nodesOfList cs
  | .or cs => .or cs :: nodesOfList cs
  | .compare name op expected => [.compare name op expected]

/-- The nodes of some conditions. -/
def nodesOfList : List Condition → List Condition
  | [] => []
  | c :: cs => nodes c ++ nodesOfList cs

end

@[simp] theorem nodesOfList_eq (cs : List Condition) : nodesOfList cs = cs.flatMap nodes := by
  induction cs with
  | nil => rfl
  | cons c cs ih => rw [nodesOfList, ih, List.flatMap_cons]

theorem mem_nodes_and {n : Condition} {cs : List Condition} :
    n ∈ (Condition.and cs).nodes ↔ n = .and cs ∨ ∃ c ∈ cs, n ∈ c.nodes := by
  simp [nodes]

theorem mem_nodes_or {n : Condition} {cs : List Condition} :
    n ∈ (Condition.or cs).nodes ↔ n = .or cs ∨ ∃ c ∈ cs, n ∈ c.nodes := by
  simp [nodes]

mutual

/-- The most connectives on a path from the root to a leaf. -/
def depth : Condition → Nat
  | .and cs => depthOfList cs + 1
  | .or cs => depthOfList cs + 1
  | .compare .. => 0

/-- The largest depth among some conditions. -/
def depthOfList : List Condition → Nat
  | [] => 0
  | c :: cs => max (depth c) (depthOfList cs)

end

theorem depthOfList_le {cs : List Condition} {limit : Nat} :
    depthOfList cs ≤ limit ↔ ∀ c ∈ cs, c.depth ≤ limit := by
  induction cs with
  | nil => simp [depthOfList]
  | cons c cs ih => rw [depthOfList, Nat.max_le, ih, List.forall_mem_cons]

/-! ## Kinds of a condition -/

/-- The kinds of operands with a connective between neighbours, in parentheses. -/
def connected (connective : Kind) (operands : List (List Kind)) : List Kind :=
  .leftParen :: [connective].intercalate operands ++ [.rightParen]

mutual

/-- The kinds that the canonical text of a condition is put together from. -/
def kinds : Condition → List Kind
  | .and cs => connected .and (kindsOfList cs)
  | .or cs => connected .or (kindsOfList cs)
  | .compare name op expected => [.var name, .op op.word, .text expected]

/-- The kinds of each of some conditions. -/
def kindsOfList : List Condition → List (List Kind)
  | [] => []
  | c :: cs => kinds c :: kindsOfList cs

end

@[simp] theorem kindsOfList_eq (cs : List Condition) : kindsOfList cs = cs.map kinds := by
  induction cs with
  | nil => rfl
  | cons c cs ih => rw [kindsOfList, ih, List.map_cons]

/-- The kinds of a condition are those of its comparisons, connectives and
parentheses. -/
theorem mem_kinds {c : Condition} {k : Kind} (h : k ∈ c.kinds) :
    k ∈ [Kind.leftParen, .rightParen, .and, .or] ∨
      ∃ name op expected, .compare name op expected ∈ c.nodes ∧
        k ∈ [Kind.var name, .op op.word, .text expected] := by
  induction c with
  | compare name op expected => exact .inr ⟨name, op, expected, by simp [nodes], h⟩
  | and cs ih | or cs ih =>
      simp only [kinds, connected, kindsOfList_eq, List.cons_append, List.mem_cons,
        List.mem_append, List.not_mem_nil, or_false] at h
      rcases h with rfl | h | rfl
      · simp
      · rcases mem_intercalate h with rfl | ⟨_, hks, hk⟩
        · simp
        · obtain ⟨c, hc, rfl⟩ := List.mem_map.mp hks
          rcases ih c hc hk with hk | ⟨name, op, expected, hnode, hk⟩
          · exact .inl hk
          · refine .inr ⟨name, op, expected, ?_, hk⟩
            simp only [nodes, nodesOfList_eq, List.mem_cons, List.mem_flatMap]
            exact .inr ⟨c, hc, hnode⟩
      · simp

/-- The text of every comparison is among the kinds. -/
theorem text_mem_kinds {c : Condition} {name expected : String} {op : CompareOp}
    (h : .compare name op expected ∈ c.nodes) : .text expected ∈ c.kinds := by
  induction c with
  | compare => simp_all [nodes, kinds]
  | and cs ih | or cs ih =>
      simp only [nodes, nodesOfList_eq, List.mem_cons, reduceCtorEq, List.mem_flatMap,
        false_or] at h
      obtain ⟨c, hc, hnode⟩ := h
      have hmem : ∀ joint, .text expected ∈ [joint].intercalate (cs.map kinds) := fun joint =>
        subset_intercalate (List.mem_map_of_mem hc) (ih c hc hnode)
      simp [kinds, connected, hmem]

/-! ## Nesting of kinds -/

theorem balanced_kinds (c : Condition) : Balanced Kind.leftParen Kind.rightParen c.kinds := by
  induction c with
  | compare name op expected => rfl
  | and cs ih | or cs ih =>
      rw [kinds, kindsOfList_eq]
      exact (Balanced.intercalate (by simp) (by simp) (List.forall_mem_map.mpr ih)).group (by simp)

theorem shallow_connected {connective : Kind} (ho : connective ≠ .leftParen)
    (hc : connective ≠ .rightParen) {cs : List Condition} {limit : Nat}
    (h : ∀ c ∈ cs, ∀ limit, Shallow .leftParen .rightParen limit c.kinds ↔ c.depth ≤ limit) :
    Shallow .leftParen .rightParen limit (connected connective (cs.map kinds)) ↔
      depthOfList cs + 1 ≤ limit := by
  have hbalanced : ∀ ks ∈ cs.map kinds, Balanced Kind.leftParen Kind.rightParen ks :=
    List.forall_mem_map.mpr fun c _ => balanced_kinds c
  have hoperands : ∀ inner, Shallow .leftParen .rightParen inner
      ([connective].intercalate (cs.map kinds)) ↔ depthOfList cs ≤ inner := by
    intro inner
    rw [shallow_intercalate ho hc hbalanced, List.forall_mem_map, depthOfList_le]
    exact forall₂_congr fun c hc => h c hc inner
  exact shallow_group_le (by simp) (Balanced.intercalate ho hc hbalanced) hoperands

/-- As many parentheses are open as there are connectives on a path. -/
theorem shallow_kinds (c : Condition) (limit : Nat) :
    Shallow .leftParen .rightParen limit c.kinds ↔ c.depth ≤ limit := by
  induction c generalizing limit with
  | compare name op expected => simp [kinds, depth, shallow_cons, shallow_nil]
  | and cs ih => rw [kinds, kindsOfList_eq, shallow_connected (by simp) (by simp) ih, depth]
  | or cs ih => rw [kinds, kindsOfList_eq, shallow_connected (by simp) (by simp) ih, depth]

end FormLogic.Condition
