import FormLogic.Form.Gates
import Mathlib.Order.Bounds.Basic

/-!
# FormLogic.Proofs.Form.Navigation

The way from section to section. The two searches for a section agree with the list of
the sections that are shown: one finds the least index behind the current one
(`isNext_nearestVisible`), the other the greatest in front of it
(`isPrevious_nearestVisible`). So going on and on visits the sections behind the current
one in order and then stays (`map_iterate_next`, `iterate_next_of_le`), and one step back
undoes one step on.
-/

namespace FormLogic

/-! ## Nearest indices -/

/-- The least of some indices behind `current`, or `current` itself if there is none. -/
def IsNext (indices : List Nat) (current i : Nat) : Prop :=
  IsLeast {j | j ∈ indices ∧ current < j} i ∨ (∀ j ∈ indices, j ≤ current) ∧ i = current

/-- The greatest of some indices in front of `current`, or `current` itself if there is
none. -/
def IsPrevious (indices : List Nat) (current i : Nat) : Prop :=
  IsGreatest {j | j ∈ indices ∧ j < current} i ∨ (∀ j ∈ indices, current ≤ j) ∧ i = current

/-- The first one of the indices behind `current`, in order, is the next one. -/
theorem isNext_head? {indices later : List Nat} {current : Nat}
    (hascending : later.Pairwise (· < ·))
    (hmem : ∀ j, j ∈ later ↔ j ∈ indices ∧ current < j) :
    IsNext indices current (later.head?.getD current) := by
  cases later with
  | nil =>
      refine .inr ⟨fun j hj => ?_, rfl⟩
      by_contra hlt
      simpa using (hmem j).mpr ⟨hj, Nat.lt_of_not_le hlt⟩
  | cons i rest =>
      obtain ⟨hrest, -⟩ := List.pairwise_cons.mp hascending
      refine .inl ⟨(hmem i).mp List.mem_cons_self, fun j hj => ?_⟩
      rcases List.mem_cons.mp ((hmem j).mpr hj) with rfl | hj
      · exact Nat.le_refl j
      · exact Nat.le_of_lt (hrest j hj)

/-- The last one of the indices in front of `current`, in order, is the previous one. -/
theorem isPrevious_getLast? {indices earlier : List Nat} {current : Nat}
    (hascending : earlier.Pairwise (· < ·))
    (hmem : ∀ j, j ∈ earlier ↔ j ∈ indices ∧ j < current) :
    IsPrevious indices current (earlier.getLast?.getD current) := by
  cases hlast : earlier.getLast? with
  | none =>
      obtain rfl := List.getLast?_eq_none_iff.mp hlast
      refine .inr ⟨fun j hj => ?_, rfl⟩
      by_contra hlt
      simpa using (hmem j).mpr ⟨hj, Nat.lt_of_not_le hlt⟩
  | some i =>
      obtain ⟨front, rfl⟩ := List.getLast?_eq_some_iff.mp hlast
      obtain ⟨-, -, hfront⟩ := List.pairwise_append.mp hascending
      refine .inl ⟨(hmem i).mp (by simp), fun j hj => ?_⟩
      rcases List.mem_append.mp ((hmem j).mpr hj) with hj | hj
      · exact Nat.le_of_lt (hfront j hj i (List.mem_singleton_self i))
      · exact Nat.le_of_eq (List.mem_singleton.mp hj)

/-! ## Sections that are shown -/

section
variable (f : Form) (s : State)

/-- The indices of the sections that are shown. -/
def Form.visibleIndices : List Nat := (f.visibleSections s).map (·.1)

/-- They are the indices at which the form shows a section, in order. -/
theorem visibleIndices_eq :
    f.visibleIndices s = (List.range f.sections.length).filter (f.showsSection s) := by
  have hshows : ∀ p ∈ f.sections.zipIdx, p.1.isVisible s = f.showsSection s p.2 := by
    rintro ⟨x, i⟩ hp
    rw [Form.showsSection, List.mem_zipIdx_iff_getElem?.mp hp]
  rw [Form.visibleIndices, Form.visibleSections, List.map_map, List.filter_congr hshows,
    List.range_eq_range', ← List.zipIdx_map_snd 0 f.sections, List.filter_map]
  rfl

theorem lt_of_showsSection {i : Nat} (h : f.showsSection s i = true) : i < f.sections.length := by
  by_contra hlt
  rw [Form.showsSection, List.getElem?_eq_none (Nat.not_lt.mp hlt)] at h
  contradiction

theorem mem_visibleIndices {i : Nat} : i ∈ f.visibleIndices s ↔ f.showsSection s i = true := by
  rw [visibleIndices_eq, List.mem_filter, List.mem_range]
  exact and_iff_right_of_imp (lt_of_showsSection f s)

theorem pairwise_visibleIndices : (f.visibleIndices s).Pairwise (· < ·) := by
  rw [visibleIndices_eq]
  exact List.pairwise_lt_range.filter _

/-! ## One step -/

/-- The indices of the sections that are shown behind `current`. -/
def Form.laterIndices (current : Nat) : List Nat :=
  (f.visibleIndices s).filter (current < ·)

theorem pairwise_laterIndices (current : Nat) :
    (f.laterIndices s current).Pairwise (· < ·) :=
  (pairwise_visibleIndices f s).filter _

/-- The next section is the first one of those behind. -/
theorem nearestVisible_next (current : Nat) :
    f.nearestVisible current .next s = (f.laterIndices s current).head?.getD current := by
  rw [Form.laterIndices, visibleIndices_eq, List.filter_filter, List.head?_filter]
  rfl

theorem isNext_nearestVisible (current : Nat) :
    IsNext (f.visibleIndices s) current (f.nearestVisible current .next s) := by
  rw [nearestVisible_next]
  exact isNext_head? (pairwise_laterIndices f s current) fun j => by simp [Form.laterIndices]

theorem isPrevious_nearestVisible (current : Nat) :
    IsPrevious (f.visibleIndices s) current (f.nearestVisible current .previous s) := by
  let earlier := (List.range (min current f.sections.length)).filter (f.showsSection s)
  have hfound : f.nearestVisible current .previous s = earlier.getLast?.getD current := by
    rw [List.getLast?_filter]
    rfl
  rw [hfound]
  refine isPrevious_getLast? (List.pairwise_lt_range.filter _) fun j => ?_
  have hlt := @lt_of_showsSection f s j
  grind [mem_visibleIndices]

/-- A step back undoes a step on from a section that is shown. -/
theorem previous_next {current : Nat} (hshown : current ∈ f.visibleIndices s)
    (hmoves : f.nearestVisible current .next s ≠ current) :
    f.nearestVisible (f.nearestVisible current .next s) .previous s = current := by
  obtain ⟨⟨-, hlt⟩, hleast⟩ := (isNext_nearestVisible f s current).resolve_right
    fun hstays => hmoves hstays.2
  have hgreatest : IsGreatest {j | j ∈ f.visibleIndices s ∧ j < f.nearestVisible current .next s}
      current := by
    refine ⟨⟨hshown, hlt⟩, fun j hj => ?_⟩
    by_contra hbehind
    have hle := hleast ⟨hj.1, Nat.lt_of_not_le hbehind⟩
    exact Nat.not_lt.mpr hle hj.2
  rcases isPrevious_nearestVisible f s (f.nearestVisible current .next s) with h | ⟨hnone, -⟩
  · exact h.unique hgreatest
  · exact absurd hlt (Nat.not_lt.mpr (hnone current hshown))

/-! ## The whole way -/

variable {f s} in
/-- Behind the next section stand the others. -/
theorem laterIndices_of_cons {current i : Nat} {rest : List Nat}
    (h : f.laterIndices s current = i :: rest) :
    f.nearestVisible current .next s = i ∧ f.laterIndices s i = rest := by
  have hascending := pairwise_laterIndices f s current
  rw [h] at hascending
  obtain ⟨hrest, -⟩ := List.pairwise_cons.mp hascending
  have hlt : current < i := by
    have hi : i ∈ f.laterIndices s current := h ▸ List.mem_cons_self
    simpa using (List.mem_filter.mp hi).2
  have hlater : f.laterIndices s i = (f.laterIndices s current).filter (i < ·) := by
    rw [Form.laterIndices, Form.laterIndices, List.filter_filter]
    refine List.filter_congr fun j _ => ?_
    by_cases hj : i < j
    · simp [hj, hlt.trans hj]
    · simp [hj]
  refine ⟨by rw [nearestVisible_next, h]; rfl, ?_⟩
  rw [hlater, h, List.filter_cons_of_neg (by simp), List.filter_eq_self]
  simpa using hrest

/-- Going on visits the sections behind `current` in order, each of them once. -/
theorem map_iterate_next (current : Nat) :
    (List.range (f.laterIndices s current).length).map
      (fun n => (fun i => f.nearestVisible i .next s)^[n + 1] current) =
        f.laterIndices s current := by
  generalize hlater : f.laterIndices s current = later
  induction later generalizing current with
  | nil => rfl
  | cons i rest ih =>
      obtain ⟨hnext, hrest⟩ := laterIndices_of_cons hlater
      rw [List.length_cons, List.range_succ_eq_map, List.map_cons, List.map_map]
      simp only [Function.comp_def, Function.iterate_succ, hnext] at ih ⊢
      exact congrArg (i :: ·) (ih i hrest)

/-- Behind the last section there is nowhere to go. -/
theorem iterate_next_of_le {current n : Nat} (h : (f.laterIndices s current).length ≤ n) :
    (fun i => f.nearestVisible i .next s)^[n] current =
      (f.laterIndices s current).getLast?.getD current := by
  generalize hlater : f.laterIndices s current = later at h ⊢
  induction later generalizing current n with
  | nil =>
      have hstays : f.nearestVisible current .next s = current := by
        rw [nearestVisible_next, hlater]
        rfl
      exact Function.iterate_fixed hstays n
  | cons i rest ih =>
      obtain ⟨hnext, hrest⟩ := laterIndices_of_cons hlater
      rw [List.length_cons] at h
      obtain ⟨n, rfl⟩ := Nat.exists_eq_add_of_le' h
      have hwalk := ih (n := n + rest.length) hrest (by omega)
      rw [← Nat.add_assoc, Function.iterate_succ_apply, hnext, hwalk, List.getLast?_cons]
      rfl

/-! ## Machine integers -/

/-- The next section as a machine finds it whose integers end at `top`: the search starts
one behind `current`, which is `top` again for `top`. -/
def Form.nextVisibleUpTo (top current : Nat) : Nat :=
  let first := min (current + 1) top
  ((List.range' first (f.sections.length - first)).find? (f.showsSection s)).getD current

/-- A machine that can count the sections finds the next one. -/
theorem nextVisibleUpTo_eq {top : Nat} (h : f.sections.length ≤ top) (current : Nat) :
    f.nextVisibleUpTo s top current = f.nearestVisible current .next s := by
  have hfound : ∀ i, (List.range' (min (current + 1) top)
      (f.sections.length - min (current + 1) top)).find? (f.showsSection s) = some i ↔
        (List.range f.sections.length).find? (fun i => current < i && f.showsSection s i) =
          some i := by
    intro i
    simp only [List.find?_range'_eq_some, List.find?_range_eq_some, List.mem_range'_1,
      List.mem_range]
    grind
  rw [Form.nextVisibleUpTo, Form.nearestVisible]
  exact congrArg (·.getD current) (Option.ext hfound)

end

/-- From `current` one walks along the sections that are shown. -/
structure Form.WalksVisible (f : Form) (s : State) (current : Nat) : Prop where
  /-- The sections that are shown stand in order, each of them once. -/
  ascending : (f.visibleIndices s).Pairwise (· < ·)
  next : IsNext (f.visibleIndices s) current (f.nearestVisible current .next s)
  previous : IsPrevious (f.visibleIndices s) current (f.nearestVisible current .previous s)
  /-- Going on visits all sections behind `current` in order. -/
  visited : (List.range (f.laterIndices s current).length).map
    (fun n => (fun i => f.nearestVisible i .next s)^[n + 1] current) = f.laterIndices s current
  /-- Going on from the last of them stays there. -/
  stays : ∀ n, (f.laterIndices s current).length ≤ n →
    (fun i => f.nearestVisible i .next s)^[n] current =
      (f.laterIndices s current).getLast?.getD current
  /-- A step back undoes a step on. -/
  back : current ∈ f.visibleIndices s → f.nearestVisible current .next s ≠ current →
    f.nearestVisible (f.nearestVisible current .next s) .previous s = current
  /-- Machine integers that can count the sections change nothing. -/
  saturating : ∀ top, f.sections.length ≤ top →
    f.nextVisibleUpTo s top current = f.nearestVisible current .next s

/-- From every index, be it one of a section that is shown, of one that is not or of none,
navigation walks along the sections that are shown and along no others. -/
theorem navigation_walks_visible (f : Form) (s : State) (current : Nat) :
    f.WalksVisible s current where
  ascending := pairwise_visibleIndices f s
  next := isNext_nearestVisible f s current
  previous := isPrevious_nearestVisible f s current
  visited := map_iterate_next f s current
  stays _ := iterate_next_of_le f s
  back := previous_next f s
  saturating _ h := nextVisibleUpTo_eq f s h current

end FormLogic
