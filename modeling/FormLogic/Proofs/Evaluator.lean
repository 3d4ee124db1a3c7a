import FormLogic.Evaluator

/-!
# FormLogic.Proofs.Evaluator

When a text is read: its tokens make a tree, and a strict reading finds nothing
that it would have to skip.
-/

namespace FormLogic

theorem mapError_eq_ok {ε ε' α : Type} {f : ε → ε'} {x : Except ε α} {a : α} :
    x.mapError f = .ok a ↔ x = .ok a := by
  cases x with
  | error e => exact ⟨nofun, nofun⟩
  | ok b =>
      show (Except.ok b : Except ε' α) = .ok a ↔ _
      rw [Except.ok.injEq, Except.ok.injEq]

theorem mapError_eq_error {ε ε' α : Type} {f : ε → ε'} {x : Except ε α} {e' : ε'} :
    x.mapError f = .error e' ↔ ∃ e, x = .error e ∧ f e = e' := by
  cases x with
  | error e =>
      show (Except.error (f e) : Except ε' α) = .error e' ↔ _
      simp
  | ok a => exact ⟨nofun, nofun⟩

theorem map_eq_ok {ε α β : Type} {f : α → β} {x : Except ε α} {b : β} :
    x.map f = .ok b ↔ ∃ a, x = .ok a ∧ f a = b := by
  cases x <;> simp [Except.map]

theorem map_eq_error {ε α β : Type} {f : α → β} {x : Except ε α} {e : ε} :
    x.map f = .error e ↔ x = .error e := by
  cases x <;> simp [Except.map]

theorem exists_eq_ok_of_isOk {ε α : Type} {x : Except ε α} (h : x.isOk = true) :
    ∃ a, x = .ok a := by
  cases x with
  | error e => simp [Except.isOk, Except.toBool] at h
  | ok a => exact ⟨a, rfl⟩

/-- A text is read as a tree exactly when its tokens make the tree. What is
skipped on the way is kept, and a strict reading skips nothing. -/
theorem parseWith_eq_ok {κ τ : Type} {known : List String} {lex : String → Lexed κ}
    {ofTokens : String → List (Token κ) → Except Fault τ} {source : String} {strict : Bool}
    {tree : τ} {as : List Anomaly} :
    parseWith known lex ofTokens source strict = .ok ⟨tree, as⟩ ↔
      ofTokens source (lex source).tokens = .ok tree ∧ as = (lex source).anomalies ∧
        (strict = true → as = []) := by
  have hread : ∀ x : Except Fault τ,
      ((do return ⟨← x, (lex source).anomalies⟩ : Except Fault (Parsed τ)) = .ok ⟨tree, as⟩ ↔
        x = .ok tree ∧ as = (lex source).anomalies) := by
    intro x
    cases x <;> simp [bind, Except.bind, pure, Except.pure, eq_comm]
  unfold parseWith
  rw [mapError_eq_ok]
  cases strict with
  | false => simpa using hread _
  | true =>
      rw [if_pos rfl]
      cases has : (lex source).anomalies with
      | nil =>
          refine (has ▸ hread _).trans ?_
          simp
      | cons a rest =>
          simp only [rejectAnomalies, bind, Except.bind]
          constructor
          · simp
          · intro hall
            obtain ⟨-, rfl, h⟩ := hall
            simp at h

/-- A text that is not read is refused for an anomaly, or its tokens make no tree. -/
theorem parseWith_eq_error {κ τ : Type} {known : List String} {lex : String → Lexed κ}
    {ofTokens : String → List (Token κ) → Except Fault τ} {source : String} {strict : Bool}
    {e : SourceFault} (h : parseWith known lex ofTokens source strict = .error e) :
    e.source = source ∧
      (rejectAnomalies known (lex source).anomalies = .error e.fault ∨
        ofTokens source (lex source).tokens = .error e.fault) := by
  obtain ⟨f, hf, rfl⟩ := mapError_eq_error.mp h
  refine ⟨rfl, ?_⟩
  have hrun : (do return ⟨← ofTokens source (lex source).tokens, (lex source).anomalies⟩ :
      Except Fault (Parsed τ)) = .error f → ofTokens source (lex source).tokens = .error f := by
    cases ofTokens source (lex source).tokens <;> simp [bind, Except.bind, pure, Except.pure]
  cases strict with
  | false => exact .inr (hrun hf)
  | true =>
      cases hreject : rejectAnomalies known (lex source).anomalies with
      | error f' =>
          rw [if_pos rfl, hreject] at hf
          have hf : (.error f' : Except Fault (Parsed τ)) = .error f := hf
          exact .inl (congrArg Except.error (Except.error.inj hf))
      | ok u =>
          rw [if_pos rfl, hreject] at hf
          exact .inr (hrun hf)

/-- A strict reading is a lenient one that skips nothing. -/
theorem parseWith_strict {κ τ : Type} {known : List String} {lex : String → Lexed κ}
    {ofTokens : String → List (Token κ) → Except Fault τ} {source : String} {p : Parsed τ} :
    parseWith known lex ofTokens source true = .ok p ↔
      parseWith known lex ofTokens source false = .ok p ∧ p.anomalies = [] := by
  obtain ⟨tree, as⟩ := p
  simp [parseWith_eq_ok, and_assoc]

/-- The tree of a text that was read. -/
def tree? {τ : Type} (x : Except SourceFault (Parsed τ)) : Option τ :=
  x.toOption.map (·.tree)

theorem tree?_eq_some {τ : Type} {x : Except SourceFault (Parsed τ)} {tree : τ} :
    tree? x = some tree ↔ ∃ as, x = .ok ⟨tree, as⟩ := by
  cases x with
  | error e => simp [tree?, Except.toOption]
  | ok p =>
      obtain ⟨t, as⟩ := p
      simp [tree?, Except.toOption]

theorem tree?_parseWith_eq_some {κ τ : Type} {known : List String} {lex : String → Lexed κ}
    {ofTokens : String → List (Token κ) → Except Fault τ} {source : String} {strict : Bool}
    {tree : τ} :
    tree? (parseWith known lex ofTokens source strict) = some tree ↔
      ofTokens source (lex source).tokens = .ok tree ∧
        (strict = true → (lex source).anomalies = []) := by
  simp only [tree?_eq_some, parseWith_eq_ok]
  constructor
  · intro h
    obtain ⟨as, htree, rfl, hstrict⟩ := h
    exact ⟨htree, hstrict⟩
  · intro h
    exact ⟨_, h.1, rfl, h.2⟩

end FormLogic
