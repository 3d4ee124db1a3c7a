import FormLogic.Proofs.Expr.Tree
import FormLogic.Proofs.Form.Seeding
import FormLogic.Proofs.Path

/-!
# FormLogic.Proofs.Form.Shape

The shape of seeded answers. An answer is flat when it is no object and, if it is a
list, has one item. Over flat answers every expression stands for a flat answer
(`isFlat_eval`): a variable finds one of them, and nothing inside it. A field keeps the
answers flat whatever its kind (`isFlat_seed`), so they are flat after any number of
fields (`isFlat_seedFields`). Whether a name holds a list is up to the last select that
answers it.
-/

namespace FormLogic

/-- No object, and one item if it is a list. -/
def Value.IsFlat : Value → Prop
  | .object _ => False
  | .list items => items.length = 1
  | _ => True

/-- Answers that are all flat. -/
def Entries.IsFlat (es : Entries Value) : Prop :=
  ∀ e ∈ es, e.2.IsFlat

/-- Nothing stands inside a flat answer. -/
theorem inherited_isFlat : Inherited Value.IsFlat where
  absent := trivial
  entry h := h.elim

/-! ## Evaluating -/

variable {s : State}

/-- Over flat answers an expression stands for a flat answer. -/
theorem isFlat_eval (h : s.entries.IsFlat) (e : Expr) : (e.eval s).IsFlat := by
  induction e with
  | text | bool | concat | replaceAll => rw [Expr.eval]; trivial
  | var p => exact inherited_isFlat.follow h p.segments
  | ifElse t yes no _ hyes hno =>
      rw [Expr.eval]
      cases t.eval s with
      | true => exact hyes
      | false => exact hno

theorem Value.IsFlat.topLevel {v : Value} (h : v.IsFlat) : v.topLevel.IsFlat := by
  cases v with
  | object => trivial
  | _ => exact h

theorem isFlat_value (h : s.entries.IsFlat) (ev : Evaluator) (expr : String) :
    (ev.value expr s).IsFlat := by
  unfold Evaluator.value Evaluator.value?
  cases ev.parseValue expr with
  | error => trivial
  | ok parsed => exact (isFlat_eval h parsed.tree).topLevel

/-! ## Seeding -/

theorem isFlat_normalizeSelect {v : Value} (h : v.IsFlat) (multiple : Bool) :
    (normalizeSelect multiple v).IsFlat := by
  cases v with
  | object => exact h.elim
  | list items =>
      cases multiple with
      | true => exact h
      | false => cases items <;> trivial
  | absent | bool | text => cases multiple <;> trivial

theorem isFlat_normalize {v : Value} (h : v.IsFlat) (k : FieldKind) : (k.normalize v).IsFlat := by
  cases k with
  | select multiple => exact isFlat_normalizeSelect h multiple
  | _ => exact h

/-- A field makes a flat answer of flat ones. -/
theorem isFlat_seed (h : s.entries.IsFlat) (ev : Evaluator) (f : Field) : (f.seed ev s).IsFlat := by
  rw [Field.seed_eq]
  refine isFlat_normalize ?_ f.kind
  cases f.defaultValue.filter (· ≠ "") with
  | none => trivial
  | some d => exact isFlat_value h ev d

theorem Entries.IsFlat.set {es : Entries Value} (h : es.IsFlat) {v : Value} (hv : v.IsFlat)
    (key : String) : (Entries.set es key v).IsFlat := by
  intro e he
  rcases mem_of_mem_set he with rfl | hmem
  · exact hv
  · exact h e hmem

/-- The answers stay flat from field to field. -/
theorem isFlat_seedFields (ev : Evaluator) (h : s.entries.IsFlat) (fields : List Field) :
    (seedFields ev s fields).entries.IsFlat := by
  induction fields using List.reverseRecOn with
  | nil => exact h
  | append_singleton front f ih =>
      rw [seedFields_concat]
      exact ih.set (isFlat_seed ih ev f) f.dataName

theorem isFlat_seed_form (form : Form) (ev : Evaluator) : (form.seed ev).entries.IsFlat :=
  isFlat_seedFields ev (fun _ he => absurd he List.not_mem_nil) form.fields

/-- Whether a select keeps several values. -/
def FieldKind.multiple? : FieldKind → Option Bool
  | .select multiple .. => some multiple
  | _ => none

/-- A select makes a list of its value exactly when it keeps several values. -/
theorem exists_normalize_eq_list {k : FieldKind} {multiple : Bool} (h : k.multiple? = some multiple)
    (v : Value) : (∃ items, k.normalize v = .list items) ↔ multiple = true := by
  cases k with
  | select m =>
      obtain rfl : m = multiple := Option.some.inj h
      cases m with
      | true => cases v <;> simp [FieldKind.normalize, normalizeSelect]
      | false =>
          cases v with
          | list items => cases items <;> simp [FieldKind.normalize, normalizeSelect]
          | _ => simp [FieldKind.normalize, normalizeSelect]
  | _ => exact absurd h nofun

/-- No seeded answer is an object, and a seeded list has one item. A name whose last
field is a select holds a list exactly when the select keeps several values. -/
theorem seed_shape (form : Form) (ev : Evaluator) :
    (∀ e ∈ (form.seed ev).entries,
      (∀ inner, e.2 ≠ .object inner) ∧ ∀ items, e.2 = .list items → items.length = 1) ∧
    ∀ name n f multiple, form.LastOf name n f → f.kind.multiple? = some multiple →
      ∃ v, Entries.get? (form.seed ev).entries name = some v ∧
        ((∃ items, v = .list items) ↔ multiple = true) := by
  constructor
  · intro e he
    have hflat := isFlat_seed_form form ev e he
    constructor
    · intro inner hobject
      rw [hobject] at hflat
      exact hflat
    · intro items hlist
      rw [hlist] at hflat
      exact hflat
  · intro name n f multiple hlast hkind
    exact ⟨_, by rw [hlast.get?_seed ev, Field.seed_eq], exists_normalize_eq_list hkind _⟩

/-- A select with several values, and one with a single value that copies it. -/
theorem seed_shape_copied :
    ∃ form : Form,
      form.fields.map (fun f => (f.dataName, f.defaultValue, f.kind.multiple?)) =
        [("pets", some "cat", some true), ("pet", some "\x7bpets\x7d", some false)] ∧
      (∃ items, Entries.get? (form.seed {}).entries "pets" = some (.list items)) ∧
      ¬ ∃ items, Entries.get? (form.seed {}).entries "pet" = some (.list items) := by
  let field (name default : String) (multiple : Bool) : Field :=
    ⟨name, "", name, false, none, none, some default, false, false, none, none, none,
      .select multiple false [] false none none none⟩
  let form : Form := ⟨"Pets", none,
    [⟨"a", "", none, [field "pets" "cat" true, field "pet" "\x7bpets\x7d" false]⟩]⟩
  obtain ⟨-, hselect⟩ := seed_shape form {}
  obtain ⟨v, hv, hlist⟩ :=
    hselect "pets" 0 (field "pets" "cat" true) true ⟨rfl, rfl, by decide⟩ rfl
  obtain ⟨w, hw, hsingle⟩ :=
    hselect "pet" 1 (field "pet" "\x7bpets\x7d" false) false ⟨rfl, rfl, by decide⟩ rfl
  refine ⟨form, rfl, ?_, ?_⟩
  · obtain ⟨items, hitems⟩ := hlist.mpr rfl
    exact ⟨items, hitems ▸ hv⟩
  · intro h
    obtain ⟨items, hitems⟩ := h
    have hw' : w = .list items := Option.some.inj (hw.symm.trans hitems)
    exact absurd (hsingle.mp ⟨items, hw'⟩) nofun

end FormLogic
