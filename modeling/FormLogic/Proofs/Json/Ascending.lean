import FormLogic.Json.Basic
import Mathlib.Data.List.Induction

/-!
# FormLogic.Proofs.Json.Ascending

Maps in ascending order of keys. Inserting keeps the order (`Ascending.insertSorted`),
so sorting makes it (`ascending_sortEntries`), and entries that have it already are
sorted as they stand (`sortEntries_of_ascending`). When the keys are distinct, sorting
moves the entries and changes none (`perm_sortEntries`), so every key is found where it
was (`get?_sortEntries`).
-/

namespace FormLogic

namespace Entries

variable {α β γ : Type}

/-! ## Values -/

/-- The entries with their values mapped. -/
def mapValues (f : α → β) (es : Entries α) : Entries β :=
  es.map fun e => (e.1, f e.2)

theorem mapValues_cons (f : α → β) (k : String) (v : α) (es : Entries α) :
    mapValues f ((k, v) :: es) = (k, f v) :: mapValues f es := rfl

/-- A pass over entries that maps each value and keeps each key. -/
theorem eq_mapValues {f : α → β} {g : List (String × α) → List (String × β)} (hnil : g [] = [])
    (hcons : ∀ k v es, g ((k, v) :: es) = (k, f v) :: g es) (es : Entries α) :
    g es = mapValues f es := by
  induction es with
  | nil => exact hnil
  | cons e es ih => rw [hcons, ih, mapValues_cons]

@[simp] theorem keys_mapValues (f : α → β) (es : Entries α) :
    keys (mapValues f es) = keys es := by
  simp [keys, mapValues]

theorem mapValues_mapValues (g : β → γ) (f : α → β) (es : Entries α) :
    mapValues g (mapValues f es) = mapValues (fun v => g (f v)) es := by
  simp [mapValues]

theorem mapValues_congr {f g : α → β} {es : Entries α} (h : ∀ e ∈ es, f e.2 = g e.2) :
    mapValues f es = mapValues g es :=
  List.map_congr_left fun e he => by rw [h e he]

theorem mapValues_eq_self {f : α → α} {es : Entries α} (h : ∀ e ∈ es, f e.2 = e.2) :
    mapValues f es = es := by
  have hid : es.map (fun e => (e.1, f e.2)) = es.map id :=
    List.map_congr_left fun e he => by rw [h e he]; rfl
  rw [mapValues, hid, List.map_id]

theorem get?_mapValues (f : α → β) (es : Entries α) (key : String) :
    get? (mapValues f es) key = (get? es key).map f := by
  induction es with
  | nil => rfl
  | cons e es ih =>
      obtain ⟨k, v⟩ := e
      rw [mapValues_cons, get?_cons, get?_cons, ih]
      by_cases h : k = key <;> simp [h]

/-! ## Setting pairs one after another -/

theorem set_of_not_mem {es : Entries α} {key : String} (h : key ∉ keys es) (value : α) :
    set es key value = es ++ [(key, value)] := by
  induction es with
  | nil => rfl
  | cons e es ih =>
      obtain ⟨k, v⟩ := e
      have hkeys : ¬ (key = k ∨ key ∈ keys es) := fun hor => h (List.mem_cons.mpr hor)
      rw [set, if_neg fun heq => hkeys (.inl heq.symm), ih fun hmem => hkeys (.inr hmem),
        List.cons_append]

theorem nodup_keys_concat {es : Entries α} {e : String × α} (h : (keys (es ++ [e])).Nodup) :
    (keys es).Nodup ∧ e.1 ∉ keys es := by
  rw [keys, List.map_append, List.map_singleton, List.nodup_append] at h
  exact ⟨h.1, fun hmem => h.2.2 _ hmem _ (List.mem_singleton_self _) rfl⟩

/-- Pairs with distinct keys are set as they stand. -/
theorem ofPairs_of_nodup {es : Entries α} (h : (keys es).Nodup) : ofPairs es = es := by
  induction es using List.reverseRecOn with
  | nil => rfl
  | append_singleton es e ih =>
      have hkeys := nodup_keys_concat h
      have hstep : ofPairs (es ++ [e]) = set (ofPairs es) e.1 e.2 := by
        rw [ofPairs, List.foldl_append]
        rfl
      rw [hstep, ih hkeys.1, set_of_not_mem hkeys.2]

/-! ## Ascending keys -/

/-- Every key is less than the keys behind it. -/
def Ascending (es : Entries α) : Prop :=
  es.Pairwise fun e e' => e.1 < e'.1

theorem Ascending.nodup_keys {es : Entries α} (h : es.Ascending) : (keys es).Nodup := by
  refine List.pairwise_map.mpr (h.imp fun {e e'} hlt heq => ?_)
  rw [heq] at hlt
  exact String.lt_irrefl _ hlt

end Entries

namespace Json

open Entries

variable {α β : Type}

/-! ## Inserting -/

theorem mem_of_mem_insertSorted {es : Entries α} {key : String} {value : α} {e : String × α}
    (h : e ∈ insertSorted key value es) : e = (key, value) ∨ e ∈ es := by
  induction es with
  | nil => exact .inl (List.mem_singleton.mp h)
  | cons e' es ih =>
      obtain ⟨k, v⟩ := e'
      rw [insertSorted] at h
      by_cases hlt : key < k
      · rw [if_pos hlt] at h
        exact List.mem_cons.mp h
      · rw [if_neg hlt] at h
        by_cases heq : k = key
        · rw [if_pos heq] at h
          exact (List.mem_cons.mp h).imp_right (List.mem_cons_of_mem _)
        · rw [if_neg heq] at h
          rcases List.mem_cons.mp h with hhead | htail
          · exact .inr (hhead ▸ List.mem_cons_self ..)
          · exact (ih htail).imp_right (List.mem_cons_of_mem _)

/-- Inserting keeps the keys ascending. -/
theorem ascending_insertSorted {es : Entries α} (h : es.Ascending) (key : String) (value : α) :
    Ascending (insertSorted key value es) := by
  induction es with
  | nil => exact List.pairwise_singleton ..
  | cons e es ih =>
      obtain ⟨k, v⟩ := e
      have hes : (∀ e ∈ es, k < e.1) ∧ Ascending es := List.pairwise_cons.mp h
      rw [insertSorted]
      by_cases hlt : key < k
      · rw [if_pos hlt]
        refine List.pairwise_cons.mpr ⟨fun e he => ?_, h⟩
        rcases List.mem_cons.mp he with heq | hmem
        · rw [heq]
          exact hlt
        · exact String.lt_trans hlt (hes.1 e hmem)
      · rw [if_neg hlt]
        by_cases heq : k = key
        · rw [if_pos heq]
          exact List.pairwise_cons.mpr ⟨heq ▸ hes.1, hes.2⟩
        · have hgt : k < key := ((Std.lt_trichotomy k key).resolve_right
            fun hor => hor.elim heq hlt)
          rw [if_neg heq]
          refine List.pairwise_cons.mpr ⟨fun e he => ?_, ih hes.2⟩
          rcases mem_of_mem_insertSorted he with hnew | hmem
          · rw [hnew]
            exact hgt
          · exact hes.1 e hmem

/-- A key beyond all others goes last. -/
theorem insertSorted_of_lt {es : Entries α} {key : String} (h : ∀ e ∈ es, e.1 < key) (value : α) :
    insertSorted key value es = es ++ [(key, value)] := by
  induction es with
  | nil => rfl
  | cons e es ih =>
      obtain ⟨k, v⟩ := e
      have hk : k < key := h (k, v) (List.mem_cons_self ..)
      have hne : k ≠ key := fun heq => String.lt_irrefl _ (heq ▸ hk)
      rw [insertSorted, if_neg (String.lt_asymm hk), if_neg hne,
        ih fun e he => h e (List.mem_cons_of_mem _ he), List.cons_append]

/-- A key that is not there is one entry more. -/
theorem perm_insertSorted {es : Entries α} {key : String} (h : key ∉ keys es) (value : α) :
    (insertSorted key value es).Perm ((key, value) :: es) := by
  induction es with
  | nil => exact .refl _
  | cons e es ih =>
      obtain ⟨k, v⟩ := e
      have hkeys : ¬ (key = k ∨ key ∈ keys es) := fun hor => h (List.mem_cons.mpr hor)
      rw [insertSorted]
      by_cases hlt : key < k
      · rw [if_pos hlt]
      · rw [if_neg hlt, if_neg fun heq => hkeys (.inl heq.symm)]
        exact ((ih fun hmem => hkeys (.inr hmem)).cons _).trans (.swap ..)

theorem insertSorted_mapValues (f : α → β) (key : String) (value : α) (es : Entries α) :
    insertSorted key (f value) (mapValues f es) = mapValues f (insertSorted key value es) := by
  induction es with
  | nil => rfl
  | cons e es ih =>
      obtain ⟨k, v⟩ := e
      rw [mapValues_cons, insertSorted, insertSorted, ih]
      by_cases hlt : key < k
      · rw [if_pos hlt, if_pos hlt]
        rfl
      · rw [if_neg hlt, if_neg hlt]
        by_cases heq : k = key
        · rw [if_pos heq, if_pos heq]
          rfl
        · rw [if_neg heq, if_neg heq]
          rfl

/-! ## Sorting -/

theorem sortEntries_concat (es : Entries α) (e : String × α) :
    sortEntries (es ++ [e]) = insertSorted e.1 e.2 (sortEntries es) := by
  rw [sortEntries, List.foldl_append]
  rfl

theorem mem_of_mem_sortEntries {es : Entries α} {e : String × α} (h : e ∈ sortEntries es) :
    e ∈ es := by
  induction es using List.reverseRecOn with
  | nil => exact h
  | append_singleton es e' ih =>
      rw [sortEntries_concat] at h
      rcases mem_of_mem_insertSorted h with hnew | hmem
      · exact List.mem_append_right _ (List.mem_singleton.mpr hnew)
      · exact List.mem_append_left _ (ih hmem)

theorem ascending_sortEntries (es : Entries α) : (sortEntries es).Ascending := by
  induction es using List.reverseRecOn with
  | nil => exact List.Pairwise.nil
  | append_singleton es e ih =>
      rw [sortEntries_concat]
      exact ascending_insertSorted ih e.1 e.2

theorem sortEntries_of_ascending {es : Entries α} (h : es.Ascending) : sortEntries es = es := by
  induction es using List.reverseRecOn with
  | nil => rfl
  | append_singleton es e ih =>
      obtain ⟨hes, -, hlt⟩ := List.pairwise_append.mp h
      rw [sortEntries_concat, ih hes,
        insertSorted_of_lt fun e' he' => hlt e' he' e (List.mem_singleton_self e)]

theorem sortEntries_mapValues (f : α → β) (es : Entries α) :
    sortEntries (mapValues f es) = mapValues f (sortEntries es) := by
  induction es using List.reverseRecOn with
  | nil => rfl
  | append_singleton es e ih =>
      have hconcat : mapValues f (es ++ [e]) = mapValues f es ++ [(e.1, f e.2)] := by
        simp [mapValues]
      rw [hconcat, sortEntries_concat, sortEntries_concat, ih]
      exact insertSorted_mapValues f e.1 e.2 (sortEntries es)

/-- Sorting moves entries with distinct keys and changes none. -/
theorem perm_sortEntries {es : Entries α} (h : (keys es).Nodup) : (sortEntries es).Perm es := by
  induction es using List.reverseRecOn with
  | nil => exact .refl _
  | append_singleton es e ih =>
      have hkeys := nodup_keys_concat h
      have hperm := ih hkeys.1
      have hnew : e.1 ∉ keys (sortEntries es) := fun hmem =>
        hkeys.2 ((hperm.map (·.1)).mem_iff.mp hmem)
      rw [sortEntries_concat]
      exact ((perm_insertSorted hnew e.2).trans (hperm.cons e)).trans
        (List.perm_append_singleton e es).symm

theorem get?_sortEntries {es : Entries α} (h : (keys es).Nodup) (key : String) :
    get? (sortEntries es) key = get? es key := by
  have hperm := perm_sortEntries h
  have hsorted := (ascending_sortEntries es).nodup_keys
  refine Option.ext fun v => ?_
  constructor
  · exact fun hv => get?_of_mem h (hperm.mem_iff.mp (mem_of_get? hv))
  · exact fun hv => get?_of_mem hsorted (hperm.mem_iff.mpr (mem_of_get? hv))

/-! ## Objects inside a value -/

theorem sortedMembers_eq (members : Entries Json) :
    sortedMembers members = mapValues sorted members :=
  eq_mapValues (by rw [sortedMembers]) (fun _ _ _ => by rw [sortedMembers]) members

theorem sortedItems_string (items : List String) :
    sortedItems (items.map .string) = items.map .string := by
  induction items with
  | nil => rfl
  | cons item items ih => exact congrArg (string item :: ·) ih

end Json

end FormLogic
