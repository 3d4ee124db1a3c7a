import FormLogic.Proofs.Expr.Clean

/-!
# FormLogic.Proofs.Expr.Folded

Names without their case. Kinds that differ in the case of names only (`Alike`) derive
the same trees, since a derivation asks of a name which function it calls in any case,
and they nest alike. So they are read as the same expressions
(`accepts_iff_of_alike`).
-/

namespace FormLogic.Expr

open Grammar

/-- A kind without the case of a name. -/
def Kind.folded : Kind → Kind
  | .ident name => .ident name.lowercase
  | k => k

/-- The kinds `ks'` are the kinds `ks` but for the case of names. -/
def Alike (ks' ks : List Kind) : Prop := ks'.map Kind.folded = ks.map Kind.folded

/-! ## Parts -/

section
variable {k : Kind} {ks ks' ls ms : List Kind}

/-- Only names have a case to forget. -/
theorem folded_eq_iff (hk : ∀ name, k ≠ .ident name) {k' : Kind} :
    k'.folded = k ↔ k' = k := by
  cases k' <;> cases k <;> simp_all [Kind.folded]

namespace Alike

theorem symm (h : Alike ks' ks) : Alike ks ks' := Eq.symm h

theorem exists_append (h : Alike ks' (ks ++ ls)) :
    ∃ ks₁ ls₁, ks' = ks₁ ++ ls₁ ∧ Alike ks₁ ks ∧ Alike ls₁ ls := by
  unfold Alike at h
  rw [List.map_append] at h
  exact List.map_eq_append_iff.mp h

theorem exists_cons (hk : ∀ name, k ≠ .ident name) (h : Alike ks' (k :: ks)) :
    ∃ ks₁, ks' = k :: ks₁ ∧ Alike ks₁ ks := by
  obtain ⟨k', ks₁, rfl, hkind, hrest⟩ := List.map_eq_cons_iff.mp h
  have hsame : k.folded = k := (folded_eq_iff hk).mpr rfl
  rw [(folded_eq_iff hk).mp (hkind.trans hsame)]
  exact ⟨ks₁, rfl, hrest⟩

theorem eq_singleton (hk : ∀ name, k ≠ .ident name) (h : Alike ks' [k]) : ks' = [k] := by
  obtain ⟨ks₁, rfl, hnil⟩ := exists_cons hk h
  rw [List.map_eq_nil_iff.mp hnil]

theorem exists_group (h : Alike ks' (.leftParen :: ks ++ [.rightParen])) :
    ∃ ks₁, ks' = .leftParen :: ks₁ ++ [.rightParen] ∧ Alike ks₁ ks := by
  rw [List.cons_append] at h
  obtain ⟨_, rfl, hinside⟩ := exists_cons (by simp) h
  obtain ⟨ks₁, _, rfl, hks, hclosing⟩ := exists_append hinside
  rw [hclosing.eq_singleton (by simp)]
  exact ⟨ks₁, rfl, hks⟩

/-- A kind that is no name stands in front of both or of none. -/
theorem head?_eq (hk : ∀ name, k ≠ .ident name) (h : Alike ks' ks) (hhead : ks'.head? = some k) :
    ks.head? = some k := by
  obtain ⟨rest, rfl⟩ := List.head?_eq_some_iff.mp hhead
  obtain ⟨_, rfl, -⟩ := h.symm.exists_cons hk
  rfl

theorem count_eq (hk : ∀ name, k ≠ .ident name) (h : Alike ks' ks) : ks'.count k = ks.count k := by
  have hfolded : ∀ ls : List Kind, (ls.map Kind.folded).count k = ls.count k := by
    intro ls
    rw [List.count_eq_countP, List.countP_map, List.count_eq_countP]
    exact List.countP_congr fun l _ => by simp [folded_eq_iff hk]
  rw [← hfolded ks', ← hfolded ks, h]

theorem exists_ident {name : String} (h : Alike ks' (.ident name :: ks)) :
    ∃ name' ks₁, ks' = .ident name' :: ks₁ ∧ name'.lowercase = name.lowercase ∧ Alike ks₁ ks := by
  obtain ⟨k', ks₁, rfl, hkind, hrest⟩ := List.map_eq_cons_iff.mp h
  cases k' with
  | ident name' => exact ⟨name', ks₁, rfl, Kind.ident.inj hkind, hrest⟩
  | _ => contradiction

theorem exists_call {name : String} (h : Alike ks' (call name ks ls ms)) :
    ∃ name' ks₁ ls₁ ms₁, ks' = call name' ks₁ ls₁ ms₁ ∧ name'.lowercase = name.lowercase ∧
      Alike ks₁ ks ∧ Alike ls₁ ls ∧ Alike ms₁ ms := by
  unfold call at h
  obtain ⟨name', _, rfl, hname, hgroup⟩ := exists_ident h
  obtain ⟨_, rfl, harguments⟩ := exists_group hgroup
  obtain ⟨ks₁, _, rfl, hks, hcomma⟩ := exists_append harguments
  obtain ⟨_, rfl, hrest⟩ := exists_cons (by simp) hcomma
  obtain ⟨ls₁, _, rfl, hls, hcomma'⟩ := exists_append hrest
  obtain ⟨ms₁, rfl, hms⟩ := exists_cons (by simp) hcomma'
  exact ⟨name', ks₁, ls₁, ms₁, rfl, hname, hks, hls, hms⟩

end Alike

end

/-! ## Derivations -/

mutual

theorem Grammar.Expression.of_alike {ks : List Kind} {e : Expr} :
    Expression ks e → ∀ {ks'}, Alike ks' ks → Expression ks' e
  | .single h, _, hks => .single (h.of_alike hks)
  | .run h hlen, _, hks => .run (terms_of_alike h hks) hlen

theorem terms_of_alike {ks : List Kind} {es : List Expr} :
    Run .plus Term ks es → ∀ {ks'}, Alike ks' ks → Run .plus Term ks' es
  | .one h, _, hks => .one (h.of_alike hks)
  | .cons h hs, _, hks => by
      obtain ⟨_, _, rfl, hfirst, hplus⟩ := hks.exists_append
      obtain ⟨_, rfl, hrest⟩ := hplus.exists_cons (by simp)
      exact .cons (h.of_alike hfirst) (terms_of_alike hs hrest)

theorem Grammar.Term.of_alike {ks : List Kind} {e : Expr} :
    Term ks e → ∀ {ks'}, Alike ks' ks → Term ks' e
  | .simple h, _, hks => .simple (h.of_alike hks)
  | .ifCall h, _, hks => .ifCall (h.of_alike hks)
  | .replaceCall h, _, hks => .replaceCall (h.of_alike hks)

theorem Grammar.Simple.of_alike {ks : List Kind} {e : Expr} :
    Simple ks e → ∀ {ks'}, Alike ks' ks → Simple ks' e
  | .text, _, hks => by rw [hks.eq_singleton (by simp)]; exact .text
  | .bool, _, hks => by rw [hks.eq_singleton (by simp)]; exact .bool
  | .var, _, hks => by rw [hks.eq_singleton (by simp)]; exact .var
  | .group h, _, hks => by
      obtain ⟨_, rfl, hinside⟩ := hks.exists_group
      exact .group (h.of_alike hinside)

theorem Grammar.IfCall.of_alike {ks : List Kind} {e : Expr} :
    IfCall ks e → ∀ {ks'}, Alike ks' ks → IfCall ks' e
  | .call hname ht hyes hno, _, hks => by
      obtain ⟨_, _, _, _, rfl, hcase, hks, hls, hms⟩ := hks.exists_call
      exact .call (hcase.trans hname) (ht.of_alike hks) (hyes.of_alike hls) (hno.of_alike hms)

theorem Grammar.ReplaceCall.of_alike {ks : List Kind} {e : Expr} :
    ReplaceCall ks e → ∀ {ks'}, Alike ks' ks → ReplaceCall ks' e
  | .call hname hvalue hsearch hreplacement, _, hks => by
      obtain ⟨_, _, _, _, rfl, hcase, hks, hls, hms⟩ := hks.exists_call
      exact .call (hcase.trans hname) (hvalue.of_alike hks) (hsearch.of_alike hls)
        (hreplacement.of_alike hms)

theorem Grammar.IfTest.of_alike {ks : List Kind} {t : Test} :
    IfTest ks t → ∀ {ks'}, Alike ks' ks → IfTest ks' t
  | .literal, _, hks => by rw [hks.eq_singleton (by simp)]; exact .literal
  | .is hl hbool hr, _, hks => by
      obtain ⟨_, _, rfl, hleft, his⟩ := hks.exists_append
      obtain ⟨_, rfl, hright⟩ := his.exists_cons (by simp)
      have hhead := fun b hb => hbool b (hleft.head?_eq (by simp) hb)
      exact .is (hl.of_alike hleft) hhead (hr.of_alike hright)

theorem Grammar.Operand.of_alike {ks : List Kind} {e : Expr} :
    Operand ks e → ∀ {ks'}, Alike ks' ks → Operand ks' e
  | .simple h, _, hks => .simple (h.of_alike hks)
  | .replaceCall h, _, hks => .replaceCall (h.of_alike hks)

end

/-! ## Reading -/

section
variable {ks ks' : List Kind} (h : Alike ks' ks)
include h

theorem shallow_of_alike {limit : Nat} (hks : Shallow .leftParen .rightParen limit ks) :
    Shallow .leftParen .rightParen limit ks' := by
  rintro p ⟨ls, rfl⟩
  obtain ⟨p', ls', rfl, hp, -⟩ := h.symm.exists_append
  rw [← hp.count_eq (by simp), ← hp.count_eq (by simp)]
  exact hks p' (List.prefix_append p' ls')

theorem accepts_of_alike {e : Expr} (hks : Accepts ks e) : Accepts ks' e := by
  obtain ⟨⟨n, hderived⟩, hshallow⟩ := hks
  refine ⟨⟨n, hderived.of_alike ?_⟩, shallow_of_alike h hshallow⟩
  unfold Alike at h ⊢
  rw [List.map_append, List.map_append, h]

end

/-- Kinds that differ in the case of names are read as the same expressions. -/
theorem accepts_iff_of_alike {ks ks' : List Kind} {e : Expr} (h : Alike ks' ks) :
    Accepts ks' e ↔ Accepts ks e :=
  ⟨accepts_of_alike h.symm, accepts_of_alike h⟩

end FormLogic.Expr
