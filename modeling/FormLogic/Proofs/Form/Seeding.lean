import FormLogic.Form.Seeding
import FormLogic.Proofs.Updates

/-!
# FormLogic.Proofs.Form.Seeding

Seeding as one pass over the fields of a form. A field answers its name after the
fields in front of it (`seedFields_concat`). So the names come in the order in which
they first stand in the form (`keys_seedFields`), and the answer of a name is what its
last field makes of the answers in front of that field (`get?_seedFields_last`). The
main statement says this of the form cut in front of the field
(`seed_follows_schema`).
-/

namespace FormLogic

/-- What holds of some item of a list holds of a last one. -/
theorem exists_last {α : Type} {p : α → Prop} {l : List α} (h : ∃ a ∈ l, p a) :
    ∃ front a back, l = front ++ a :: back ∧ p a ∧ ∀ b ∈ back, ¬ p b := by
  induction l with
  | nil =>
      obtain ⟨a, ha, -⟩ := h
      exact absurd ha List.not_mem_nil
  | cons b l ih =>
      by_cases hl : ∃ a ∈ l, p a
      · obtain ⟨front, a, back, hsplit, ha, hback⟩ := ih hl
        exact ⟨b :: front, a, back, by rw [hsplit, List.cons_append], ha, hback⟩
      · obtain ⟨a, hmem, ha⟩ := h
        have hab : a = b := (List.mem_cons.mp hmem).resolve_right fun hm => hl ⟨a, hm, ha⟩
        exact ⟨[], b, l, rfl, hab ▸ ha, fun c hc hpc => hl ⟨c, hc, hpc⟩⟩

/-! ## A pass over some fields -/

section Pass

variable (ev : Evaluator) (s : State)

theorem seedFields_append (front back : List Field) :
    seedFields ev s (front ++ back) = seedFields ev (seedFields ev s front) back := by
  rw [seedFields, List.foldl_append]
  rfl

/-- A field answers its name after the fields in front of it. -/
theorem seedFields_concat (front : List Field) (f : Field) :
    seedFields ev s (front ++ [f]) =
      (seedFields ev s front).set f.dataName (f.seed ev (seedFields ev s front)) := by
  rw [seedFields_append]
  rfl

/-- The names that are answered, in the order in which they first stand there. -/
theorem keys_seedFields (fields : List Field) :
    Entries.keys (seedFields ev .empty fields).entries =
      (fields.map (·.dataName)).eraseDups := by
  induction fields using List.reverseRecOn with
  | nil => rfl
  | append_singleton front f ih =>
      have hstep : Entries.keys (seedFields ev .empty (front ++ [f])).entries =
          if f.dataName ∈ Entries.keys (seedFields ev .empty front).entries then
            Entries.keys (seedFields ev .empty front).entries
          else Entries.keys (seedFields ev .empty front).entries ++ [f.dataName] := by
        rw [seedFields_concat]
        exact Entries.keys_set ..
      rw [hstep, ih, List.map_append, List.map_singleton, eraseDups_concat]
      simp only [List.mem_eraseDups]

/-- The fields of other names leave an answer alone. -/
theorem get?_seedFields_of_ne {fields : List Field} {k : String}
    (h : ∀ f ∈ fields, f.dataName ≠ k) :
    Entries.get? (seedFields ev s fields).entries k = Entries.get? s.entries k := by
  induction fields using List.reverseRecOn with
  | nil => rfl
  | append_singleton front f ih =>
      have hfront : ∀ g ∈ front, g.dataName ≠ k := fun g hg =>
        h g (List.mem_append_left _ hg)
      have hne : f.dataName ≠ k := h f (List.mem_append_right _ (List.mem_singleton_self f))
      rw [seedFields_concat, State.set, Entries.get?_set, if_neg hne, ih hfront]

/-- The last field of a name answers it after the fields in front. -/
theorem get?_seedFields_last (front : List Field) (f : Field) {back : List Field}
    (h : ∀ g ∈ back, g.dataName ≠ f.dataName) :
    Entries.get? (seedFields ev s (front ++ f :: back)).entries f.dataName =
      some (f.seed ev (seedFields ev s front)) := by
  have hsplit : front ++ f :: back = (front ++ [f]) ++ back := by simp
  rw [hsplit, seedFields_append, get?_seedFields_of_ne ev _ h, seedFields_concat, State.set,
    Entries.get?_set, if_pos rfl]

end Pass

/-! ## The form in front of a field -/

/-- Sections with no more than their first `n` fields in all. -/
def cutSections : Nat → List Section → List Section
  | _, [] => []
  | n, x :: xs =>
    { x with fields := x.fields.take n } :: cutSections (n - x.fields.length) xs

/-- The form cut in front of its field number `n`, counted from zero. -/
def Form.cut (form : Form) (n : Nat) : Form :=
  { form with sections := cutSections n form.sections }

theorem fields_cutSections (n : Nat) (xs : List Section) :
    (cutSections n xs).flatMap (·.fields) = (xs.flatMap (·.fields)).take n := by
  induction xs generalizing n with
  | nil => simp [cutSections]
  | cons x xs ih =>
      rw [cutSections, List.flatMap_cons, List.flatMap_cons, List.take_append, ih]

@[simp] theorem Form.fields_cut (form : Form) (n : Nat) :
    (form.cut n).fields = form.fields.take n :=
  fields_cutSections n form.sections

/-- Field number `n` is the last one of a form that answers a name. -/
structure Form.LastOf (form : Form) (name : String) (n : Nat) (f : Field) : Prop where
  getElem? : form.fields[n]? = some f
  dataName : f.dataName = name
  last : ∀ g ∈ form.fields.drop (n + 1), g.dataName ≠ name

namespace Form

variable {form : Form} {name : String} {n : Nat} {f : Field}

theorem LastOf.fields_eq (h : form.LastOf name n f) :
    form.fields = form.fields.take n ++ f :: form.fields.drop (n + 1) := by
  obtain ⟨hn, hf⟩ := List.getElem?_eq_some_iff.mp h.getElem?
  have hdrop : form.fields[n] :: form.fields.drop (n + 1) = form.fields.drop n :=
    (List.drop_eq_getElem_cons hn).symm
  rw [← hf, hdrop, List.take_append_drop]

/-- Every name of a form has a last field. -/
theorem exists_lastOf (h : name ∈ form.fields.map (·.dataName)) :
    ∃ n f, form.LastOf name n f := by
  obtain ⟨g, hg, hname⟩ := List.mem_map.mp h
  obtain ⟨front, f, back, hsplit, hf, hback⟩ :=
    exists_last (p := (·.dataName = name)) ⟨g, hg, hname⟩
  have hget : form.fields[front.length]? = some f := by rw [hsplit]; simp
  have hdrop : form.fields.drop (front.length + 1) = back := by rw [hsplit]; simp
  exact ⟨front.length, f, hget, hf, by rwa [hdrop]⟩

/-- The answer of a name is what its last field makes of the answers in front of
it. -/
theorem LastOf.get?_seed (h : form.LastOf name n f) (ev : Evaluator) :
    Entries.get? (form.seed ev).entries name = some (f.seed ev ((form.cut n).seed ev)) := by
  have hback : ∀ g ∈ form.fields.drop (n + 1), g.dataName ≠ f.dataName := by
    rw [h.dataName]
    exact h.last
  rw [seed, seed, fields_cut, h.fields_eq, ← h.dataName, get?_seedFields_last ev .empty _ f hback,
    ← h.fields_eq]

end Form

/-! ## Default values -/

/-- A default that is missing or empty is not evaluated. -/
theorem Field.seed_eq (ev : Evaluator) (s : State) (f : Field) :
    f.seed ev s = f.kind.normalize
      ((f.defaultValue.filter (· ≠ "")).elim (.text "") fun d => ev.value d s) := by
  cases hdefault : f.defaultValue with
  | none => simp [seed, hdefault]
  | some d =>
      by_cases hempty : d = ""
      · simp [seed, hdefault, hempty, Option.filter_some]
      · simp [seed, hdefault, hempty, Option.filter_some]

/-- Only a select changes the value of its default. -/
theorem FieldKind.normalize_eq_self {k : FieldKind} (h : k.fieldType ≠ .select) (v : Value) :
    k.normalize v = v := by
  cases k with
  | select => exact absurd rfl h
  | _ => rfl

/-- A form's names are answered in the order in which they first stand there, each
once. What a name holds is made of the default of its last field, with the answers of
the form cut in front of that field, so it does not depend on what stands behind. -/
theorem seed_follows_schema (form : Form) (ev : Evaluator) :
    Entries.keys (form.seed ev).entries = (form.fields.map (·.dataName)).eraseDups ∧
    (∀ name ∈ form.fields.map (·.dataName), ∃ n f, form.LastOf name n f) ∧
    ∀ name n f, form.LastOf name n f →
      Entries.get? (form.seed ev).entries name =
        some (f.kind.normalize ((f.defaultValue.filter (· ≠ "")).elim (.text "") fun d =>
          ev.value d ((form.cut n).seed ev))) ∧
      (f.kind.fieldType ≠ .select → ∀ v, f.kind.normalize v = v) ∧
      ∀ other : Form, other.fields.take (n + 1) = form.fields.take (n + 1) →
        other.LastOf name n f →
        Entries.get? (other.seed ev).entries name = Entries.get? (form.seed ev).entries name := by
  refine ⟨keys_seedFields ev form.fields, fun name => Form.exists_lastOf, ?_⟩
  intro name n f h
  refine ⟨?_, FieldKind.normalize_eq_self, fun other hsame hother => ?_⟩
  · rw [h.get?_seed, Field.seed_eq]
  · have hcut : (other.cut n).fields = (form.cut n).fields := by
      have htake := congrArg (List.take n) hsame
      rw [List.take_take, List.take_take, Nat.min_eq_left (Nat.le_succ n)] at htake
      rw [Form.fields_cut, Form.fields_cut, htake]
    rw [h.get?_seed, hother.get?_seed, Form.seed, Form.seed, hcut]

/-- Two fields answer one name, and the default of the field between them reads the
answer of the first. -/
theorem seed_follows_schema_repeated :
    ∃ form : Form,
      form.fields.map (fun f => (f.dataName, f.defaultValue)) =
        [("pet", some "cat"), ("cry", some "\x7bpet\x7d + '!'"), ("pet", some "dog")] ∧
      Entries.keys (form.seed {}).entries = ["pet", "cry"] ∧
      Entries.get? (form.seed {}).entries "cry" = some (.text "cat!") ∧
      Entries.get? (form.seed {}).entries "pet" = some (.list ["dog"]) := by
  let field (name default : String) (kind : FieldKind) : Field :=
    ⟨name, "", name, false, none, none, some default, false, false, none, none, none, kind⟩
  let cry := field "cry" "\x7bpet\x7d + '!'" .date
  let dog := field "pet" "dog" (.select true false [] false none none none)
  let form : Form := ⟨"Pets", none,
    [⟨"a", "", none, [field "pet" "cat" .date, cry]⟩, ⟨"b", "", none, [dog]⟩]⟩
  obtain ⟨hkeys, -, hlast⟩ := seed_follows_schema form {}
  have hcry : form.LastOf "cry" 1 cry := ⟨rfl, rfl, by decide⟩
  have hdog : form.LastOf "pet" 2 dog := ⟨rfl, rfl, by decide⟩
  refine ⟨form, rfl, hkeys, ?_, ?_⟩
  · rw [(hlast _ _ _ hcry).1]
    decide +kernel
  · rw [(hlast _ _ _ hdog).1]
    decide +kernel

end FormLogic
