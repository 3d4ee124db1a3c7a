import FormLogic.Proofs.Json.Ascending
import FormLogic.Value.Json

/-!
# FormLogic.Proofs.Value.Sorted

Answers whose objects stand in ascending order of keys. `sorted` puts them there. It
moves entries and changes none, when the keys of every object are distinct
(`reordered_sorted`), and an answer that is sorted already stays as it is
(`sorted_eq_self`). Writing an answer as JSON and reading it back sorts it
(`ofJson_toJson`).
-/

namespace FormLogic

namespace Value

/-- What holds of the single answers, and of an object when it holds of its entries,
holds of every answer. -/
@[elab_as_elim, induction_eliminator]
theorem induction {motive : Value → Prop} (absent : motive .absent)
    (bool : ∀ b, motive (.bool b)) (text : ∀ s, motive (.text s))
    (list : ∀ items, motive (.list items))
    (object : ∀ es, (∀ e ∈ es, motive e.2) → motive (.object es)) (v : Value) : motive v := by
  refine @Value.rec motive (fun es => ∀ e ∈ es, motive e.2) (fun e => motive e.2)
    absent bool text list object ?_ ?_ ?_ v
  · simp
  · intro e es he hes
    exact List.forall_mem_cons.mpr ⟨he, hes⟩
  · exact fun _ _ hv => hv

/-! ## Objects inside an answer -/

/-- The entries of the answer, and of all objects inside it, satisfy `p`. -/
inductive Everywhere (p : Entries Value → Prop) : Value → Prop
  | absent : Everywhere p .absent
  | bool (b : Bool) : Everywhere p (.bool b)
  | text (s : String) : Everywhere p (.text s)
  | list (items : List String) : Everywhere p (.list items)
  | object {es : Entries Value} : p es → (∀ e ∈ es, Everywhere p e.2) → Everywhere p (.object es)

theorem everywhere_object {p : Entries Value → Prop} {es : Entries Value} :
    Everywhere p (.object es) ↔ p es ∧ ∀ e ∈ es, Everywhere p e.2 := by
  constructor
  · intro h
    cases h with
    | object hp hes => exact ⟨hp, hes⟩
  · exact fun h => .object h.1 h.2

/-- Every object has distinct keys, as every map has. -/
def WellKeyed : Value → Prop :=
  Everywhere fun es => (Entries.keys es).Nodup

/-- Every object has its keys in ascending order. -/
def IsSorted : Value → Prop :=
  Everywhere Entries.Ascending

/-! ## Sorting -/

mutual

/-- The answer with the entries of all its objects in ascending order of keys. -/
def sorted : Value → Value
  | .absent => .absent
  | .bool b => .bool b
  | .text s => .text s
  | .list items => .list items
  | .object es => .object (Json.sortEntries (sortedEntries es))

/-- The entries with their answers sorted. -/
def sortedEntries : List (String × Value) → List (String × Value)
  | [] => []
  | (k, v) :: es => (k, sorted v) :: sortedEntries es

end

theorem sortedEntries_eq (es : Entries Value) :
    sortedEntries es = Entries.mapValues sorted es :=
  Entries.eq_mapValues (by rw [sortedEntries]) (fun _ _ _ => by rw [sortedEntries]) es

end Value

/-- The entries in ascending order of keys, with their answers sorted. -/
def Entries.sorted (es : Entries Value) : Entries Value :=
  Json.sortEntries (mapValues Value.sorted es)

namespace Value

theorem sorted_object (es : Entries Value) : sorted (.object es) = .object es.sorted := by
  rw [sorted, sortedEntries_eq]
  rfl

/-- Sorting does not show at the top of an expression. -/
@[simp] theorem topLevel_sorted (v : Value) : v.sorted.topLevel = v.topLevel := by
  cases v with
  | object es => rw [sorted_object]; rfl
  | _ => rw [sorted]

theorem isSorted_sorted (v : Value) : v.sorted.IsSorted := by
  induction v with
  | absent => rw [sorted]; exact .absent
  | bool b => rw [sorted]; exact .bool b
  | text s => rw [sorted]; exact .text s
  | list items => rw [sorted]; exact .list items
  | object es ih =>
      rw [sorted_object]
      refine .object (Json.ascending_sortEntries _) fun e he => ?_
      obtain ⟨e', he', rfl⟩ := List.mem_map.mp (Json.mem_of_mem_sortEntries he)
      exact ih e' he'

theorem sorted_eq_self {v : Value} (h : v.IsSorted) : v.sorted = v := by
  induction h with
  | object hascending _ ih =>
      rw [sorted_object, Entries.sorted, Entries.mapValues_eq_self ih,
        Json.sortEntries_of_ascending hascending]
  | _ => rw [sorted]

end Value

/-! ## Up to order -/

mutual

/-- Two answers are the same up to the order of the entries of their objects. -/
inductive Value.Reordered : Value → Value → Prop
  | absent : Value.Reordered .absent .absent
  | bool (b : Bool) : Value.Reordered (.bool b) (.bool b)
  | text (s : String) : Value.Reordered (.text s) (.text s)
  | list (items : List String) : Value.Reordered (.list items) (.list items)
  | object {es es' : List (String × Value)} :
    Entries.Reordered es es' → Value.Reordered (.object es) (.object es')

/-- The entries of two objects are the same up to order: the first one stands
somewhere in the other object, and so do the entries behind it. -/
inductive Entries.Reordered : List (String × Value) → List (String × Value) → Prop
  | nil : Entries.Reordered [] []
  | cons {k : String} {v v' : Value} {es front back : List (String × Value)} :
    Value.Reordered v v' → Entries.Reordered es (front ++ back) →
    Entries.Reordered ((k, v) :: es) (front ++ (k, v') :: back)

end

/-- Entries whose answers are moved to other places and changed up to order. -/
theorem Entries.reordered_of_perm {f : Value → Value} {es es' : Entries Value}
    (hperm : es'.Perm (mapValues f es)) (h : ∀ e ∈ es, e.2.Reordered (f e.2)) :
    Entries.Reordered es es' := by
  induction es generalizing es' with
  | nil =>
      rw [List.Perm.eq_nil hperm]
      exact .nil
  | cons e es ih =>
      obtain ⟨k, v⟩ := e
      obtain ⟨hv, hes⟩ := List.forall_mem_cons.mp h
      have hmem : (k, f v) ∈ es' := hperm.mem_iff.mpr (List.mem_cons_self ..)
      obtain ⟨front, back, rfl⟩ := List.append_of_mem hmem
      have hrest : (front ++ back).Perm (mapValues f es) :=
        (List.perm_middle.symm.trans hperm).cons_inv
      exact .cons hv (ih hrest hes)

theorem Entries.perm_sorted {es : Entries Value} (h : (keys es).Nodup) :
    es.sorted.Perm (mapValues Value.sorted es) :=
  Json.perm_sortEntries (by rwa [keys_mapValues])

namespace Value

/-- Sorting changes an answer only up to order. -/
theorem reordered_sorted {v : Value} (h : v.WellKeyed) : v.Reordered v.sorted := by
  induction h with
  | absent => rw [sorted]; exact .absent
  | bool b => rw [sorted]; exact .bool b
  | text s => rw [sorted]; exact .text s
  | list items => rw [sorted]; exact .list items
  | object hnodup _ ih =>
      rw [sorted_object]
      exact .object (Entries.reordered_of_perm (Entries.perm_sorted hnodup) ih)

/-! ## JSON and back -/

theorem toJsonMembers_eq (es : Entries Value) :
    toJsonMembers es = Entries.mapValues toJson es :=
  Entries.eq_mapValues (by rw [toJsonMembers]) (fun _ _ _ => by rw [toJsonMembers]) es

theorem ofJsonMembers_eq (members : Entries Json) :
    ofJsonMembers members = Entries.mapValues ofJson members :=
  Entries.eq_mapValues (by rw [ofJsonMembers]) (fun _ _ _ => by rw [ofJsonMembers]) members

/-- What stands in a written object are its answers, written. -/
theorem exists_of_mem_toJsonMembers {es : Entries Value} {m : String × Json}
    (h : m ∈ Json.sortEntries (toJsonMembers es)) : ∃ e ∈ es, (e.1, toJson e.2) = m := by
  rw [toJsonMembers_eq] at h
  exact List.mem_map.mp (Json.mem_of_mem_sortEntries h)

/-- A written answer has all its objects in ascending order already. -/
theorem sorted_toJson (v : Value) : (toJson v).sorted = toJson v := by
  induction v with
  | absent | bool | text => rw [toJson, Json.sorted] <;> nofun
  | list items => rw [toJson, Json.sorted, Json.sortedItems_string]
  | object es ih =>
      have hmembers : Entries.mapValues Json.sorted (Json.sortEntries (toJsonMembers es)) =
          Json.sortEntries (toJsonMembers es) := by
        refine Entries.mapValues_eq_self fun m hm => ?_
        obtain ⟨e, he, rfl⟩ := exists_of_mem_toJsonMembers hm
        exact ih e he
      rw [toJson, Json.sorted, Json.sortedMembers_eq, hmembers,
        Json.sortEntries_of_ascending (Json.ascending_sortEntries _)]

theorem ofJsonItems_string (items : List String) :
    ofJsonItems (items.map .string) = items := by
  induction items with
  | nil => rfl
  | cons item items ih =>
      rw [List.map_cons, ofJsonItems, ih, ofJson]
      rfl

/-- The members of a written object, read back one by one. -/
theorem ofPairs_ofJsonMembers {es : Entries Value}
    (h : ∀ e ∈ es, ofJson (toJson e.2) = e.2.sorted) :
    Entries.ofPairs (ofJsonMembers (Json.sortEntries (toJsonMembers es))) = es.sorted := by
  have hvalues : Entries.mapValues (fun v => ofJson (toJson v)) es = Entries.mapValues sorted es :=
    Entries.mapValues_congr h
  have hread : ofJsonMembers (Json.sortEntries (toJsonMembers es)) = es.sorted := by
    rw [ofJsonMembers_eq, toJsonMembers_eq, ← Json.sortEntries_mapValues,
      Entries.mapValues_mapValues, hvalues]
    rfl
  rw [hread]
  exact Entries.ofPairs_of_nodup (Json.ascending_sortEntries _).nodup_keys

/-- An answer is read back sorted. -/
theorem ofJson_toJson (v : Value) : ofJson (toJson v) = v.sorted := by
  induction v with
  | absent | bool | text => rw [toJson, ofJson, sorted]
  | list items => rw [toJson, ofJson, ofJsonItems_string, sorted]
  | object es ih => rw [toJson, ofJson, ofPairs_ofJsonMembers ih, sorted_object]

end Value

end FormLogic
