import FormLogic.Text.Similar
import Mathlib.Data.List.Induction
import Mathlib.Data.List.Infix
import Mathlib.Order.Bounds.Basic
import Mathlib.Order.MinMax

/-!
# FormLogic.Proofs.Text.Similar

Suggestions are the best ones. `leastEdits` counts edits by what becomes of the first
characters, and no run of edits is shorter (`isLeast_leastEdits`): one edit anywhere
changes the count by at most one. The table of two rows holds these counts for the
characters read so far, the last one first (`holds_fillRow`, `holds_lastRow`), so the
edit distance is the least number of edits (`isLeast_editDistance`). The search for a
candidate keeps the first one of the nearest so far (`isNearest_foldl`), which gives the
main statement (`findSimilar_nearest`).
-/

namespace FormLogic.Text

/-! ## Edits -/

/-- One character is inserted, deleted or replaced. -/
inductive Edit : List Char → List Char → Prop
  | insert (front behind : List Char) (c : Char) : Edit (front ++ behind) (front ++ c :: behind)
  | delete (front behind : List Char) (c : Char) : Edit (front ++ c :: behind) (front ++ behind)
  | replace (front behind : List Char) (c d : Char) :
      Edit (front ++ c :: behind) (front ++ d :: behind)

/-- So many edits, one after another, turn a text into another one. -/
inductive Edits : Nat → List Char → List Char → Prop
  | refl (s : List Char) : Edits 0 s s
  | step {n : Nat} {s t u : List Char} : Edit s t → Edits n t u → Edits (n + 1) s u

variable {a b s t : List Char} {n : Nat}

theorem Edit.cons (x : Char) (h : Edit s t) : Edit (x :: s) (x :: t) := by
  cases h with
  | insert front behind c => exact .insert (x :: front) behind c
  | delete front behind c => exact .delete (x :: front) behind c
  | replace front behind c d => exact .replace (x :: front) behind c d

theorem Edit.reverse (h : Edit s t) : Edit s.reverse t.reverse := by
  cases h with
  | insert front behind c =>
      simpa using Edit.insert behind.reverse front.reverse c
  | delete front behind c =>
      simpa using Edit.delete behind.reverse front.reverse c
  | replace front behind c d =>
      simpa using Edit.replace behind.reverse front.reverse c d

theorem Edits.cons (x : Char) (h : Edits n s t) : Edits n (x :: s) (x :: t) := by
  induction h with
  | refl s => exact .refl _
  | step hedit _ ih => exact .step (hedit.cons x) ih

theorem Edits.reverse (h : Edits n s t) : Edits n s.reverse t.reverse := by
  induction h with
  | refl s => exact .refl _
  | step hedit _ ih => exact .step hedit.reverse ih

/-! ## The least number of edits -/

/-- The least number of edits from one text to another, by what becomes of their first
characters. -/
def leastEdits : List Char → List Char → Nat
  | [], b => b.length
  | a, [] => a.length
  | x :: a, y :: b =>
    min (min (leastEdits a (y :: b) + 1) (leastEdits (x :: a) b + 1))
      (leastEdits a b + (if x = y then 0 else 1))
termination_by a b => a.length + b.length

@[simp] theorem leastEdits_nil_left (b : List Char) : leastEdits [] b = b.length := by
  rw [leastEdits]

@[simp] theorem leastEdits_nil_right (a : List Char) : leastEdits a [] = a.length := by
  cases a with
  | nil => rw [leastEdits]
  | cons x a => rw [leastEdits]; simp

theorem leastEdits_cons_cons (x y : Char) (a b : List Char) :
    leastEdits (x :: a) (y :: b) =
      min (min (leastEdits a (y :: b) + 1) (leastEdits (x :: a) b + 1))
        (leastEdits a b + (if x = y then 0 else 1)) := by
  rw [leastEdits]

theorem leastEdits_self (a : List Char) : leastEdits a a = 0 := by
  induction a with
  | nil => rw [leastEdits_nil_left, List.length_nil]
  | cons x a ih => simp [leastEdits_cons_cons, ih]

theorem edits_nil_left (b : List Char) : Edits b.length [] b := by
  induction b with
  | nil => exact .refl []
  | cons y b ih => exact .step (.insert [] [] y) (ih.cons y)

theorem edits_nil_right (a : List Char) : Edits a.length a [] := by
  induction a with
  | nil => exact .refl []
  | cons x a ih => exact .step (.delete [] a x) ih

/-- As many edits are enough. -/
theorem edits_leastEdits (a b : List Char) : Edits (leastEdits a b) a b := by
  fun_induction leastEdits a b with
  | case1 b => exact edits_nil_left b
  | case2 a => exact edits_nil_right a
  | case3 x a y b ihDelete ihInsert ihKeep =>
      have hdelete : Edits (leastEdits a (y :: b) + 1) (x :: a) (y :: b) :=
        .step (.delete [] a x) ihDelete
      have hinsert : Edits (leastEdits (x :: a) b + 1) (x :: a) (y :: b) :=
        .step (.insert [] (x :: a) y) (ihInsert.cons y)
      have hkeep : Edits (leastEdits a b + (if x = y then 0 else 1)) (x :: a) (y :: b) := by
        by_cases hxy : x = y
        · rw [if_pos hxy, hxy]
          exact ihKeep.cons y
        · rw [if_neg hxy]
          exact .step (.replace [] a x y) (ihKeep.cons y)
      -- the least of three numbers is one of them
      rcases min_choice (min (leastEdits a (y :: b) + 1) (leastEdits (x :: a) b + 1))
        (leastEdits a b + (if x = y then 0 else 1)) with hmin | hmin
      · rcases min_choice (leastEdits a (y :: b) + 1) (leastEdits (x :: a) b + 1) with h | h <;>
          rwa [hmin, h]
      · rwa [hmin]

/-! ### One edit -/

theorem leastEdits_cons_right_le (y : Char) (a b : List Char) :
    leastEdits a (y :: b) ≤ leastEdits a b + 1 := by
  cases a with
  | nil => simp
  | cons x a => rw [leastEdits_cons_cons]; omega

theorem leastEdits_cons_left_le (x : Char) (a b : List Char) :
    leastEdits (x :: a) b ≤ leastEdits a b + 1 := by
  cases b with
  | nil => simp
  | cons y b => rw [leastEdits_cons_cons]; omega

theorem leastEdits_le_cons_left (x : Char) (a b : List Char) :
    leastEdits a b ≤ leastEdits (x :: a) b + 1 := by
  induction b with
  | nil => simp; omega
  | cons y b ih =>
      have hright := leastEdits_cons_right_le y a b
      rw [leastEdits_cons_cons]
      omega

theorem leastEdits_replace_le (c d : Char) (a b : List Char) :
    leastEdits (c :: a) b ≤ leastEdits (d :: a) b + 1 := by
  induction b with
  | nil => simp
  | cons y b ih =>
      rw [leastEdits_cons_cons, leastEdits_cons_cons]
      split <;> split <;> omega

/-- A character in front does not make the count change by more. -/
theorem leastEdits_cons_le_cons (x : Char) (h : ∀ b, leastEdits s b ≤ leastEdits t b + 1)
    (b : List Char) : leastEdits (x :: s) b ≤ leastEdits (x :: t) b + 1 := by
  induction b with
  | nil => simpa using h []
  | cons y b ih =>
      have hboth := h (y :: b)
      have hkeep := h b
      rw [leastEdits_cons_cons, leastEdits_cons_cons]
      omega

theorem leastEdits_append_le_append (front : List Char)
    (h : ∀ b, leastEdits s b ≤ leastEdits t b + 1) (b : List Char) :
    leastEdits (front ++ s) b ≤ leastEdits (front ++ t) b + 1 := by
  induction front generalizing b with
  | nil => exact h b
  | cons x front ih => exact leastEdits_cons_le_cons x ih b

/-- One edit changes the count by at most one. -/
theorem leastEdits_le_of_edit (h : Edit s t) (b : List Char) :
    leastEdits s b ≤ leastEdits t b + 1 := by
  cases h with
  | insert front behind c =>
      exact leastEdits_append_le_append front (leastEdits_le_cons_left c behind) b
  | delete front behind c =>
      exact leastEdits_append_le_append front (leastEdits_cons_left_le c behind) b
  | replace front behind c d =>
      exact leastEdits_append_le_append front (leastEdits_replace_le c d behind) b

theorem leastEdits_le_of_edits (h : Edits n a b) : leastEdits a b ≤ n := by
  induction h with
  | refl s => rw [leastEdits_self]
  | step hedit _ ih => exact (leastEdits_le_of_edit hedit _).trans (Nat.succ_le_succ ih)

/-- No run of edits is shorter. -/
theorem isLeast_leastEdits (a b : List Char) : IsLeast {n | Edits n a b} (leastEdits a b) :=
  ⟨edits_leastEdits a b, fun _ h => leastEdits_le_of_edits h⟩

/-! ## The table -/

section Table

variable {read b rest : List Char} {x : Char} {above row : Array Nat}

/-- Up to the end of `front`, the row holds the counts from what is read of a text, the
last character first, to each beginning of the other text. -/
def HoldsUpTo (read front : List Char) (row : Array Nat) : Prop :=
  ∀ p, p <+: front → row[p.length]? = some (leastEdits read p.reverse)

theorem HoldsUpTo.getD (h : HoldsUpTo read b row) {p : List Char} (hp : p <+: b) :
    row.getD p.length 0 = leastEdits read p.reverse := by
  rw [Array.getD_eq_getD_getElem?, h p hp, Option.getD_some]

@[simp] theorem size_fillRow (x : Char) (above : Array Nat) (j : Nat) (rest : List Char)
    (row : Array Nat) : (fillRow x above j rest row).size = row.size := by
  induction rest generalizing j row with
  | nil => rfl
  | cons c rest ih => rw [fillRow, ih, Array.size_setIfInBounds]

/-- A row is filled with the counts for one character more. -/
theorem holds_fillRow (front : List Char) (habove : HoldsUpTo read (front ++ rest) above)
    (hrow : HoldsUpTo (x :: read) front row) (hsize : (front ++ rest).length < row.size) :
    HoldsUpTo (x :: read) (front ++ rest) (fillRow x above front.length rest row) := by
  induction rest generalizing front row with
  | nil => rwa [List.append_nil, fillRow]
  | cons c rest ih =>
      have hsplit : front ++ c :: rest = front ++ [c] ++ rest := by simp
      have hlength : front.length + 1 = (front ++ [c]).length := by simp
      rw [hsplit] at habove hsize ⊢
      have hplace : (front ++ [c]).length < row.size := by
        rw [List.length_append] at hsize
        omega
      have hdelete := habove.getD (p := front ++ [c]) (List.prefix_append ..)
      have hinsert := hrow.getD List.prefix_rfl
      have hkeep := habove.getD (p := front) (by simp)
      rw [fillRow, hlength, hdelete, hinsert, hkeep]
      -- the beginning that ends in `c` has its count at the place just filled
      refine ih (front ++ [c]) habove (fun p hp => ?_) (by rwa [Array.size_setIfInBounds])
      rcases List.prefix_concat_iff.mp hp with rfl | hp
      · rw [Array.getElem?_setIfInBounds_self_of_lt hplace, List.reverse_concat,
          leastEdits_cons_cons]
      · have hne : (front ++ [c]).length ≠ p.length := by
          have hle := hp.length_le
          omega
        rw [Array.getElem?_setIfInBounds_ne hne, hrow p hp]

/-- The last row holds the counts for the whole text. -/
theorem holds_lastRow (habove : HoldsUpTo read b above) (hsize : b.length < above.size)
    (hrow : b.length < row.size) :
    HoldsUpTo (rest.reverse ++ read) b (lastRow b read.length rest above row) := by
  induction rest generalizing read above row with
  | nil => exact habove
  | cons x rest ih =>
      have hstart : HoldsUpTo (x :: read) [] (row.setIfInBounds 0 (read.length + 1)) := by
        intro p hp
        obtain rfl := List.prefix_nil.mp hp
        rw [List.length_nil, Array.getElem?_setIfInBounds_self_of_lt (by omega), List.reverse_nil,
          leastEdits_nil_right, List.length_cons]
      have hfilled : HoldsUpTo (x :: read) b
          (fillRow x above 0 b (row.setIfInBounds 0 (read.length + 1))) :=
        holds_fillRow [] habove hstart (by simpa using hrow)
      have hread : (x :: rest).reverse ++ read = rest.reverse ++ (x :: read) := by simp
      rw [lastRow, hread]
      -- the rows change places; what the one to be filled holds does not matter
      exact ih hfilled (by simpa using hrow) hsize

theorem holds_range (b : List Char) : HoldsUpTo [] b (Array.range (b.length + 1)) := by
  intro p hp
  have hle := hp.length_le
  rw [leastEdits_nil_left, List.length_reverse, Array.getElem?_range, if_pos (by omega)]

end Table

/-- The table counts from the ends of the texts. -/
theorem editDistance_eq (a b : List Char) : editDistance a b = leastEdits a.reverse b.reverse := by
  rw [editDistance]
  split
  · next ha => rw [List.isEmpty_iff.mp ha]; simp
  · split
    · next hb => rw [List.isEmpty_iff.mp hb]; simp
    · have hlast : HoldsUpTo (a.reverse ++ []) b (lastRow b 0 a (Array.range (b.length + 1))
          (Array.replicate (b.length + 1) 0)) :=
        holds_lastRow (holds_range b) (by simp) (by simp)
      rw [List.append_nil] at hlast
      exact hlast.getD List.prefix_rfl

/-- The edit distance is the least number of edits. -/
theorem isLeast_editDistance (a b : List Char) : IsLeast {n | Edits n a b} (editDistance a b) := by
  have hleast := isLeast_leastEdits a.reverse b.reverse
  rw [editDistance_eq]
  refine ⟨?_, fun n hn => hleast.2 hn.reverse⟩
  have hedits := hleast.1.reverse
  rwa [List.reverse_reverse, List.reverse_reverse] at hedits

example : editDistance "equals".toList "eqauls".toList = 2 := by decide +kernel

/-! ## The nearest candidate -/

/-- Among the candidates `c` is the first one of those nearest to `word`, and is within
`limit`. -/
structure FirstNearest (word : String) (limit : Nat) (candidates : List String) (c : String) :
    Prop where
  within : wordDistance word c ≤ limit
  first : ∃ before behind, candidates = before ++ c :: behind ∧
    (∀ e ∈ before, wordDistance word c < wordDistance word e) ∧
    ∀ e ∈ behind, wordDistance word c ≤ wordDistance word e

/-- What the search holds after some candidates: the first one of the nearest with its
distance, or nothing if none is within `limit`. -/
inductive IsNearest (word : String) (limit : Nat) (candidates : List String) :
    Option (String × Nat) → Prop
  | none (h : ∀ c ∈ candidates, limit < wordDistance word c) :
      IsNearest word limit candidates none
  | some {c : String} (h : FirstNearest word limit candidates c) :
      IsNearest word limit candidates (some (c, wordDistance word c))

variable {word : String} {limit : Nat} {candidates : List String} {best : Option (String × Nat)}

theorem FirstNearest.mem {c : String} (h : FirstNearest word limit candidates c) :
    c ∈ candidates := by
  obtain ⟨before, behind, rfl, -⟩ := h.first
  simp

theorem FirstNearest.le {c : String} (h : FirstNearest word limit candidates c) :
    ∀ e ∈ candidates, wordDistance word c ≤ wordDistance word e := by
  obtain ⟨before, behind, rfl, hbefore, hbehind⟩ := h.first
  intro e he
  rcases List.mem_append.mp he with he | he
  · exact Nat.le_of_lt (hbefore e he)
  · rcases List.mem_cons.mp he with rfl | he
    · exact Nat.le_refl _
    · exact hbehind e he

/-- There is only one of them. -/
theorem FirstNearest.unique {c c' : String} (h : FirstNearest word limit candidates c)
    (h' : FirstNearest word limit candidates c') : c = c' := by
  have hfind : ∀ {e}, FirstNearest word limit candidates e → candidates.find? (fun e =>
      candidates.all (wordDistance word e ≤ wordDistance word ·)) = some e := by
    intro e he
    obtain ⟨before, behind, hsplit, hbefore, -⟩ := he.first
    refine List.find?_eq_some_iff_append.mpr ⟨by simpa using he.le, before, behind, hsplit, ?_⟩
    intro d hd
    have hfarther : ∃ e ∈ candidates, wordDistance word e < wordDistance word d :=
      ⟨e, he.mem, hbefore d hd⟩
    simpa using hfarther
  exact Option.some.inj ((hfind h).symm.trans (hfind h'))

/-- A candidate that is nearer than all those so far is the first one of the nearest. -/
theorem firstNearest_concat {candidate : String} (hwithin : wordDistance word candidate ≤ limit)
    (h : ∀ e ∈ candidates, wordDistance word candidate < wordDistance word e) :
    FirstNearest word limit (candidates ++ [candidate]) candidate :=
  ⟨hwithin, candidates, [], rfl, h, by simp⟩

/-- The first one of the nearest remains it when a candidate follows that is not nearer. -/
theorem FirstNearest.concat {c candidate : String} (h : FirstNearest word limit candidates c)
    (hbehind : wordDistance word c ≤ wordDistance word candidate) :
    FirstNearest word limit (candidates ++ [candidate]) c := by
  obtain ⟨before, behind, rfl, hbefore, hrest⟩ := h.first
  refine ⟨h.within, before, behind ++ [candidate], by simp, hbefore, ?_⟩
  rw [List.forall_mem_append]
  exact ⟨hrest, by simpa using hbehind⟩

/-- One candidate more: the search keeps the better one of two. -/
theorem isNearest_nearer (h : IsNearest word limit candidates best) (candidate : String) :
    IsNearest word limit (candidates ++ [candidate]) (nearer word limit best candidate) := by
  rw [nearer]
  cases h with
  | none hfar =>
      by_cases hwithin : wordDistance word candidate ≤ limit
      · rw [if_pos ⟨hwithin, Option.all_none⟩]
        exact .some (firstNearest_concat hwithin fun e he => hwithin.trans_lt (hfar e he))
      · rw [if_neg fun hboth => hwithin hboth.1]
        refine .none (List.forall_mem_append.mpr ⟨hfar, ?_⟩)
        simpa using hwithin
  | @some c hnearest =>
      by_cases hnearer : wordDistance word candidate ≤ limit ∧
          wordDistance word candidate < wordDistance word c
      · rw [if_pos (by simpa using hnearer)]
        exact .some (firstNearest_concat hnearer.1 fun e he =>
          hnearer.2.trans_le (hnearest.le e he))
      · rw [if_neg (by simpa using hnearer)]
        have hwithin := hnearest.within
        exact .some (hnearest.concat (by omega))

theorem isNearest_foldl (word : String) (limit : Nat) (candidates : List String) :
    IsNearest word limit candidates (candidates.foldl (nearer word limit) none) := by
  induction candidates using List.reverseRecOn with
  | nil => exact .none fun _ hc => absurd hc List.not_mem_nil
  | append_singleton candidates candidate ih =>
      rw [List.foldl_append, List.foldl_cons, List.foldl_nil]
      exact isNearest_nearer ih candidate

/-- The edit distance of two texts is the least number of edits that turn one into the
other. By this distance of the lower-cased words, the word that is suggested is the
first one of those nearest, and there is none exactly when no candidate is within the
limit. -/
theorem findSimilar_nearest :
    (∀ a b : String, IsLeast {n | Edits n a.toList b.toList} (editDistance a.toList b.toList)) ∧
      ∀ (word : String) (candidates : List String) (limit : Nat),
        (∀ c, IsLeast {n | Edits n word.lowercase.toList c.lowercase.toList}
          (wordDistance word c)) ∧
        (∀ c, findSimilar word candidates limit = some c ↔
          FirstNearest word limit candidates c) ∧
        (findSimilar word candidates limit = none ↔
          ∀ c ∈ candidates, limit < wordDistance word c) := by
  refine ⟨fun a b => isLeast_editDistance _ _, fun word candidates limit => ?_⟩
  refine ⟨fun c => isLeast_editDistance _ _, ?_⟩
  rw [findSimilar]
  have hnearest := isNearest_foldl word limit candidates
  generalize candidates.foldl (nearer word limit) none = best at hnearest ⊢
  cases hnearest with
  | none hfar =>
      refine ⟨fun c => ⟨nofun, fun hc => ?_⟩, fun _ => hfar, fun _ => rfl⟩
      exact absurd hc.within (Nat.not_le.mpr (hfar c hc.mem))
  | some hfirst =>
      refine ⟨fun e => ⟨fun he => ?_, fun he => ?_⟩, nofun, fun hfar => ?_⟩
      · rw [← Option.some.inj he]
        exact hfirst
      · rw [Option.map_some, hfirst.unique he]
      · exact absurd hfirst.within (Nat.not_le.mpr (hfar _ hfirst.mem))

end FormLogic.Text
