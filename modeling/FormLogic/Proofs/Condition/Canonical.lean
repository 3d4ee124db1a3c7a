import FormLogic.Proofs.Condition.Written
import FormLogic.Proofs.Evaluator

/-!
# FormLogic.Proofs.Condition.Canonical

Which conditions are read back from their canonical text. The text is lexed as
the kinds it is put together from unless a name or a text gets lost between its
marks, and these kinds derive the condition when every connective joins two
operands or more (`primary_kinds`). What is derived tells in turn how it was
written: no connective with fewer operands, no name with blanks around it and
no other literals.
-/

namespace FormLogic.Condition

open Text

/-- What it takes to be read back from canonical text: connectives with two
operands or more, names and texts that the marks around them leave alone, and no
more nesting than readers allow. -/
structure Restorable (c : Condition) : Prop where
  joined : ∀ cs, .and cs ∈ c.nodes ∨ .or cs ∈ c.nodes → 2 ≤ cs.length
  name : ∀ name op expected, .compare name op expected ∈ c.nodes → IsName name
  expected : ∀ name op expected, .compare name op expected ∈ c.nodes →
    Doublable '\'' expected.toList
  depth : c.depth ≤ 64

/-! ## Derivations -/

open Grammar

/-- Whether a node is derived from its kinds, given that its operands are. -/
def Derivable : Condition → Prop
  | .and cs => 2 ≤ cs.length
  | .or cs => 2 ≤ cs.length
  | .compare .. => True

/-- The kinds of a condition derive it. -/
theorem primary_kinds {c : Condition} (h : ∀ n ∈ c.nodes, n.Derivable) : Primary c.kinds c := by
  induction c with
  | compare name op expected => exact .comparison (by cases op <;> rfl)
  | and cs ih =>
      have hlen : 2 ≤ cs.length := h (.and cs) (mem_nodes_and.mpr (.inl rfl))
      have hcs : ∀ c ∈ cs, Primary c.kinds c := fun c hc =>
        ih c hc fun n hn => h n (mem_nodes_and.mpr (.inr ⟨c, hc, hn⟩))
      have hne : cs ≠ [] := List.ne_nil_of_length_pos (by omega)
      rw [kinds, kindsOfList_eq]
      exact .group (.single (.run (run_intercalate hne hcs) hlen))
  | or cs ih =>
      have hlen : 2 ≤ cs.length := h (.or cs) (mem_nodes_or.mpr (.inl rfl))
      have hcs : ∀ c ∈ cs, Conjunct c.kinds c := fun c hc =>
        .single (ih c hc fun n hn => h n (mem_nodes_or.mpr (.inr ⟨c, hc, hn⟩)))
      have hne : cs ≠ [] := List.ne_nil_of_length_pos (by omega)
      rw [kinds, kindsOfList_eq]
      exact .group (.run (run_intercalate hne hcs) hlen)

/-- What a derivation from `ks` says about a node of its condition. -/
def Stated (ks : List Kind) : Condition → Prop
  | .and cs => 2 ≤ cs.length
  | .or cs => 2 ≤ cs.length
  | .compare name _ _ => .var name ∈ ks

theorem Stated.mono {ks ls : List Kind} {n : Condition} (hsub : ks ⊆ ls) (h : Stated ks n) :
    Stated ls n := by
  cases n with
  | and cs | or cs => exact h
  | compare name op expected => exact hsub h

theorem Grammar.hereditary_stated : Hereditary fun ks c => ∀ n ∈ c.nodes, Stated ks n where
  comparison name word expected op _ := by simp [nodes, Stated]
  group ks c h n hn := (h n hn).mono fun k hk => by simp [hk]
  and ks cs hrun hlen n hn := by
    rcases mem_nodes_and.mp hn with rfl | ⟨c, hc, hn⟩
    · exact hlen
    · obtain ⟨ls, hls, h⟩ := hrun.exists_of_mem hc
      exact (h n hn).mono hls
  or ks cs hrun hlen n hn := by
    rcases mem_nodes_or.mp hn with rfl | ⟨c, hc, hn⟩
    · exact hlen
    · obtain ⟨ls, hls, h⟩ := hrun.exists_of_mem hc
      exact (h n hn).mono hls

/-! ## Literals of derivations -/

theorem filterMap_text?_group (ks : List Kind) :
    (Kind.leftParen :: ks ++ [Kind.rightParen]).filterMap Kind.text? = ks.filterMap Kind.text? := by
  simp [List.filterMap_cons, Kind.text?]

theorem filterMap_text?_connected {connective : Kind} (hc : connective.text? = none)
    (cs : List Condition) :
    (connected connective (cs.map kinds)).filterMap Kind.text? =
      cs.flatMap fun c => c.kinds.filterMap Kind.text? := by
  rw [connected, filterMap_text?_group, filterMap_intercalate hc, List.flatMap_map]

/-- The literals of a derivation are those that the condition is written with. -/
theorem Grammar.hereditary_texts :
    Hereditary fun ks c => ks.filterMap Kind.text? = c.kinds.filterMap Kind.text? where
  comparison name word expected op _ := rfl
  group ks c h := by rwa [filterMap_text?_group]
  and ks cs hrun _ := by
    rw [kinds, kindsOfList_eq, filterMap_text?_connected rfl, hrun.filterMap_eq rfl]
  or ks cs hrun _ := by
    rw [kinds, kindsOfList_eq, filterMap_text?_connected rfl, hrun.filterMap_eq rfl]

/-! ## Canonical text -/

theorem Restorable.derivable {c : Condition} (h : Restorable c) :
    ∀ n ∈ c.nodes, n.Derivable := by
  intro n hn
  cases n with
  | and cs => exact h.joined cs (.inl hn)
  | or cs => exact h.joined cs (.inr hn)
  | compare => trivial

theorem ofTokens_canonical {c : Condition} (h : Restorable c) :
    ofTokens c.canonical (lex c.canonical).tokens = .ok c := by
  have hkinds := (lex_canonical h.name h.expected).1
  refine run_whole_disjunct_eq_ok.mpr ?_
  rw [hkinds]
  refine ⟨⟨0, ?_⟩, (shallow_kinds c 64).mpr h.depth⟩
  rw [List.replicate_zero, List.append_nil]
  exact .single (.single (primary_kinds h.derivable))

theorem restorable_of_ofTokens {c : Condition}
    (h : ofTokens c.canonical (lex c.canonical).tokens = .ok c) : Restorable c := by
  obtain ⟨⟨n, hderived⟩, hshallow⟩ := run_whole_disjunct_eq_ok.mp h
  have hstated := hderived.induct hereditary_stated
  have hname : ∀ name op expected, .compare name op expected ∈ c.nodes → IsName name := by
    intro name op expected hnode
    rcases List.mem_append.mp (hstated _ hnode) with hmem | hmem
    · exact isName_of_mem_lex hmem
    · simp at hmem
  -- closing parentheses hold no literals, so the literals are read unchanged
  have htexts : (kindsOf (cut nextPiece (c.kinds.flatMap writing.written))).filterMap
      writing.text? = c.kinds.filterMap writing.text? := by
    rw [← toList_canonical, ← kindsAhead_lex]
    have htexts := hderived.induct hereditary_texts
    rwa [List.filterMap_append, List.filterMap_replicate_of_none rfl, List.append_nil] at htexts
  have hdoublable := writing.doublable_of_texts_eq (apart_kinds c) (allowed_kinds hname) htexts
  have hexpected : ∀ name op expected, .compare name op expected ∈ c.nodes →
      Doublable '\'' expected.toList := fun _ _ _ hnode =>
    hdoublable _ (text_mem_kinds hnode) _ rfl
  have hkinds := (lex_canonical hname hexpected).1
  rw [hkinds] at hshallow
  exact {
    joined := fun cs hnode => hnode.elim (hstated _) (hstated _)
    name := hname
    expected := hexpected
    depth := (shallow_kinds c 64).mp hshallow }

/-- The canonical text of a condition is read as the condition exactly when the
condition is restorable, and then nothing in it is out of place. -/
theorem parseCondition_canonical_iff (c : Condition) (strict : Bool) :
    ((∃ as, parseCondition c.canonical strict = .ok ⟨c, as⟩) ↔ Restorable c) ∧
      (parseCondition c.canonical strict = .ok ⟨c, []⟩ ↔ Restorable c) := by
  have hread : Restorable c → parseCondition c.canonical strict = .ok ⟨c, []⟩ := fun h =>
    parseWith_eq_ok.mpr ⟨ofTokens_canonical h, (lex_canonical h.name h.expected).2.symm,
      fun _ => rfl⟩
  have hrestorable : ∀ as, parseCondition c.canonical strict = .ok ⟨c, as⟩ → Restorable c :=
    fun as h => restorable_of_ofTokens (parseWith_eq_ok.mp h).1
  exact ⟨⟨fun ⟨as, h⟩ => hrestorable as h, fun h => ⟨[], hread h⟩⟩, hrestorable [], hread⟩

end FormLogic.Condition
