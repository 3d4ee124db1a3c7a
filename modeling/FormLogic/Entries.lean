/-!
# FormLogic.Entries

Lists of keys with values, in the order in which the keys came. Setting a key
that is there keeps its place; a new key goes last; erasing a key leaves the
others in order. A list is looked up from the front, and the operations keep
its keys distinct.
-/

namespace FormLogic

/-- Keys with values, in order. -/
abbrev Entries (α : Type) := List (String × α)

namespace Entries

variable {α : Type}

/-- The keys in order. -/
def keys (es : Entries α) : List String :=
  es.map (·.1)

/-- The value of a key. -/
def get? : Entries α → String → Option α
  | [], _ => none
  | (k, v) :: es, key => if k = key then some v else get? es key

/-- Give a key a value, in its place if it has one. -/
def set : Entries α → String → α → Entries α
  | [], key, value => [(key, value)]
  | (k, v) :: es, key, value => if k = key then (k, value) :: es else (k, v) :: set es key value

/-- Give a key a value, and hand out the value that it had. -/
def replace : Entries α → String → α → Option α × Entries α
  | [], key, value => (none, [(key, value)])
  | (k, v) :: es, key, value =>
    if k = key then (some v, (k, value) :: es)
    else
      let (old, rest) := replace es key value
      (old, (k, v) :: rest)

/-- Take a key out. -/
def erase : Entries α → String → Entries α
  | [], _ => []
  | (k, v) :: es, key => if k = key then es else (k, v) :: erase es key

/-- Take a key out, and hand out the value that it had. -/
def remove : Entries α → String → Option α × Entries α
  | [], _ => (none, [])
  | (k, v) :: es, key =>
    if k = key then (some v, es)
    else
      let (old, rest) := remove es key
      (old, (k, v) :: rest)

/-- The entries that result from setting some pairs one after another. -/
def ofPairs (pairs : List (String × α)) : Entries α :=
  pairs.foldl (fun es p => set es p.1 p.2) []

/-! ## Looking up -/

@[simp] theorem get?_nil (key : String) : get? ([] : Entries α) key = none := rfl

theorem get?_cons (k key : String) (v : α) (es : Entries α) :
    get? ((k, v) :: es) key = if k = key then some v else get? es key := rfl

/-- A key that is not there has no value. -/
theorem get?_eq_none {es : Entries α} {key : String} (h : key ∉ keys es) :
    get? es key = none := by
  induction es with
  | nil => rfl
  | cons e es ih =>
    obtain ⟨k, v⟩ := e
    simp only [keys, List.map_cons, List.mem_cons, not_or] at h
    rw [get?_cons, if_neg (Ne.symm h.1)]
    exact ih h.2

/-- What is found under a key is an entry. -/
theorem mem_of_get? {es : Entries α} {key : String} {v : α} (h : get? es key = some v) :
    (key, v) ∈ es := by
  induction es with
  | nil => exact absurd h nofun
  | cons e es ih =>
    obtain ⟨k, w⟩ := e
    rw [get?_cons] at h
    by_cases hk : k = key
    · rw [if_pos hk, Option.some.injEq] at h
      rw [hk, h]
      exact List.mem_cons_self ..
    · rw [if_neg hk] at h
      exact List.mem_cons_of_mem _ (ih h)

/-- An entry is found under its key, when the keys are distinct. -/
theorem get?_of_mem {es : Entries α} {key : String} {v : α} (hnodup : (keys es).Nodup)
    (h : (key, v) ∈ es) : get? es key = some v := by
  induction es with
  | nil => exact absurd h List.not_mem_nil
  | cons e es ih =>
    obtain ⟨k, w⟩ := e
    have hkeys : k ∉ keys es ∧ (keys es).Nodup := List.nodup_cons.mp hnodup
    rw [get?_cons]
    rcases List.mem_cons.mp h with heq | hmem
    · rw [if_pos (Prod.mk.inj heq).1.symm, (Prod.mk.inj heq).2]
    · have hne : k ≠ key := fun heq => hkeys.1 (heq ▸ List.mem_map_of_mem hmem)
      rw [if_neg hne, ih hkeys.2 hmem]

/-- The entries after setting a key are the new one and old ones. -/
theorem mem_of_mem_set {es : Entries α} {key : String} {value : α} {e : String × α}
    (h : e ∈ set es key value) : e = (key, value) ∨ e ∈ es := by
  induction es with
  | nil => exact .inl (List.mem_singleton.mp h)
  | cons e' es ih =>
    obtain ⟨k, v⟩ := e'
    by_cases hk : k = key
    · rw [set, if_pos hk, hk] at h
      exact (List.mem_cons.mp h).imp_right (List.mem_cons_of_mem _)
    · rw [set, if_neg hk] at h
      rcases List.mem_cons.mp h with heq | hmem
      · exact .inr (heq ▸ List.mem_cons_self ..)
      · exact (ih hmem).imp_right (List.mem_cons_of_mem _)

/-- Setting a key changes its value and no other. -/
theorem get?_set (es : Entries α) (key k : String) (value : α) :
    get? (set es key value) k = if key = k then some value else get? es k := by
  induction es with
  | nil => simp [set, get?_cons]
  | cons e es ih =>
    obtain ⟨k', v⟩ := e
    by_cases h : k' = key
    · subst h
      by_cases hk : k' = k <;> simp [set, get?_cons, hk]
    · by_cases hk : k' = k
      · subst hk
        simp [set, h, get?_cons, Ne.symm h]
      · simp [set, h, get?_cons, hk, ih]

/-- Replacing a value is looking it up and setting another one. -/
theorem replace_eq (es : Entries α) (key : String) (value : α) :
    replace es key value = (get? es key, set es key value) := by
  induction es with
  | nil => rfl
  | cons e es ih =>
    obtain ⟨k, v⟩ := e
    by_cases h : k = key
    · simp [replace, get?_cons, set, h]
    · simp [replace, get?_cons, set, h, ih]

/-- Removing a key is looking it up and taking it out. -/
theorem remove_eq (es : Entries α) (key : String) :
    remove es key = (get? es key, erase es key) := by
  induction es with
  | nil => rfl
  | cons e es ih =>
    obtain ⟨k, v⟩ := e
    by_cases h : k = key
    · simp [remove, get?_cons, erase, h]
    · simp [remove, get?_cons, erase, h, ih]

/-! ## Keys stay distinct -/

theorem mem_keys_set {es : Entries α} {key k : String} {value : α} :
    k ∈ keys (set es key value) ↔ k = key ∨ k ∈ keys es := by
  induction es with
  | nil => simp [set, keys]
  | cons e es ih =>
    obtain ⟨k', v⟩ := e
    by_cases h : k' = key
    · subst h; simp [set, keys]
    · simp only [set, h, if_false]
      simp only [keys, List.map_cons, List.mem_cons] at ih ⊢
      rw [ih]
      exact or_left_comm

/-- Setting leaves the keys where they are; a key that is not there goes last. -/
theorem keys_set (es : Entries α) (key : String) (value : α) :
    keys (set es key value) = if key ∈ keys es then keys es else keys es ++ [key] := by
  induction es with
  | nil => rfl
  | cons e es ih =>
    obtain ⟨k, v⟩ := e
    have hcons : keys ((k, v) :: es) = k :: keys es := rfl
    by_cases h : k = key
    · subst h
      rw [set, if_pos rfl, hcons, if_pos (List.mem_cons_self ..)]
      rfl
    · have htail : keys (set ((k, v) :: es) key value) = k :: keys (set es key value) := by
        rw [set, if_neg h]
        rfl
      rw [htail, ih, hcons]
      by_cases hmem : key ∈ keys es
      · rw [if_pos hmem, if_pos (List.mem_cons_of_mem _ hmem)]
      · have hnot : key ∉ k :: keys es := by
          rw [List.mem_cons, not_or]
          exact ⟨Ne.symm h, hmem⟩
        rw [if_neg hmem, if_neg hnot, List.cons_append]

theorem nodup_keys_set {es : Entries α} {key : String} {value : α}
    (h : (keys es).Nodup) : (keys (set es key value)).Nodup := by
  induction es with
  | nil => simp [set, keys]
  | cons e es ih =>
    obtain ⟨k, v⟩ := e
    simp only [keys, List.map_cons, List.nodup_cons] at h
    by_cases hk : k = key
    · subst hk
      simp only [set, if_true]
      exact List.nodup_cons.2 h
    · simp only [set, hk, if_false]
      show (k :: keys (set es key value)).Nodup
      refine List.nodup_cons.2 ⟨?_, ih h.2⟩
      rw [mem_keys_set]
      exact fun hor => hor.elim hk h.1

theorem nodup_keys_replace {es : Entries α} {key : String} {value : α}
    (h : (keys es).Nodup) : (keys (replace es key value).2).Nodup := by
  rw [replace_eq]
  exact nodup_keys_set h

theorem mem_keys_of_mem_keys_erase {es : Entries α} {key k : String}
    (h : k ∈ keys (erase es key)) : k ∈ keys es := by
  induction es with
  | nil => simp [erase, keys] at h
  | cons e es ih =>
    obtain ⟨k', v⟩ := e
    by_cases hk : k' = key
    · simp only [erase, hk, if_true] at h
      exact List.mem_cons_of_mem _ h
    · simp only [erase, hk, if_false, keys, List.map_cons, List.mem_cons] at h ⊢
      exact h.imp_right ih

theorem nodup_keys_erase {es : Entries α} {key : String} (h : (keys es).Nodup) :
    (keys (erase es key)).Nodup := by
  induction es with
  | nil => simp [erase, keys]
  | cons e es ih =>
    obtain ⟨k, v⟩ := e
    simp only [keys, List.map_cons, List.nodup_cons] at h
    by_cases hk : k = key
    · simp only [erase, hk, if_true]
      exact h.2
    · simp only [erase, hk, if_false]
      exact List.nodup_cons.2 ⟨fun hm => h.1 (mem_keys_of_mem_keys_erase hm), ih h.2⟩

theorem nodup_keys_remove {es : Entries α} {key : String} (h : (keys es).Nodup) :
    (keys (remove es key).2).Nodup := by
  rw [remove_eq]
  exact nodup_keys_erase h

/-- Taking out a key leaves the others in order. -/
theorem keys_erase (es : Entries α) (key : String) : keys (erase es key) = (keys es).erase key := by
  induction es with
  | nil => rfl
  | cons e es ih =>
    obtain ⟨k, v⟩ := e
    have hcons : keys ((k, v) :: es) = k :: keys es := rfl
    by_cases h : k = key
    · subst h
      rw [erase, if_pos rfl, hcons, List.erase_cons_head]
    · rw [erase, if_neg h, hcons, List.erase_cons_tail (by simpa using h), ← ih]
      rfl

/-- Taking out a key takes out its value and no other. -/
theorem get?_erase {es : Entries α} (h : (keys es).Nodup) (key k : String) :
    get? (erase es key) k = if key = k then none else get? es k := by
  induction es with
  | nil => simp [erase]
  | cons e es ih =>
    obtain ⟨k', v⟩ := e
    simp only [keys, List.map_cons, List.nodup_cons] at h
    by_cases hk : k' = key
    · subst hk
      by_cases hk' : k' = k
      · subst hk'
        simpa [erase] using get?_eq_none h.1
      · simp [erase, get?_cons, hk']
    · by_cases hk' : k' = k
      · subst hk'
        simp [erase, hk, get?_cons, Ne.symm hk]
      · simp [erase, hk, get?_cons, hk', ih h.2]

theorem nodup_keys_foldl_set {pairs : List (String × α)} {es : Entries α}
    (h : (keys es).Nodup) :
    (keys (pairs.foldl (fun es p => set es p.1 p.2) es)).Nodup := by
  induction pairs generalizing es with
  | nil => exact h
  | cons p ps ih => exact ih (nodup_keys_set h)

theorem nodup_keys_ofPairs (pairs : List (String × α)) : (keys (ofPairs pairs)).Nodup :=
  nodup_keys_foldl_set (by simp [keys])

end Entries

end FormLogic
