import FormLogic.Proofs.Nesting
import Mathlib.Data.List.Flatten

/-!
# FormLogic.Proofs.Joined

Sequences written one behind the other with a separator between neighbours, as
`[separator].intercalate` writes them. What holds of the sequences holds of what
they are joined to, and joined phrases are a `Run`.
-/

namespace FormLogic

variable {κ α β : Type} {separator : κ} {kss : List (List κ)}

/-- Joined sequences are nothing, one sequence, or a sequence in front of
joined ones. -/
theorem intercalate_induction {motive : List (List κ) → List κ → Prop} (nil : motive [] [])
    (one : ∀ ks, motive [ks] ks)
    (cons : ∀ ks kss ls, kss ≠ [] → motive kss ls → motive (ks :: kss) (ks ++ separator :: ls))
    (kss : List (List κ)) : motive kss ([separator].intercalate kss) := by
  induction kss with
  | nil => exact nil
  | cons ks kss ih =>
      cases kss with
      | nil => rw [List.intercalate_singleton]; exact one ks
      | cons ls kss =>
          rw [List.intercalate_cons_of_ne_nil (by simp), List.append_assoc]
          exact cons ks _ _ (by simp) ih

/-- A property that joining keeps. -/
theorem forall_intercalate {p : List κ → Prop} (nil : p [])
    (join : ∀ ks ls, p ks → p ls → p (ks ++ separator :: ls)) (h : ∀ ks ∈ kss, p ks) :
    p ([separator].intercalate kss) := by
  revert h
  refine intercalate_induction (motive := fun kss ls => (∀ ks ∈ kss, p ks) → p ls) ?_ ?_ ?_ kss
  · exact fun _ => nil
  · exact fun ks h => h ks List.mem_cons_self
  · intro ks kss ls _ ih h
    obtain ⟨hks, hkss⟩ := List.forall_mem_cons.mp h
    exact join ks ls hks (ih hkss)

theorem mem_intercalate {k : κ} (h : k ∈ [separator].intercalate kss) :
    k = separator ∨ ∃ ks ∈ kss, k ∈ ks := by
  revert h
  refine forall_intercalate (p := fun ls => k ∈ ls → k = separator ∨ ∃ ks ∈ kss, k ∈ ks)
    (by simp) ?_ fun ks hks hk => .inr ⟨ks, hks, hk⟩
  intro ks ls hks hls hk
  rcases List.mem_append.mp hk with hk | hk
  · exact hks hk
  · rcases List.mem_cons.mp hk with rfl | hk
    · exact .inl rfl
    · exact hls hk

theorem subset_intercalate {ks : List κ} (h : ks ∈ kss) : ks ⊆ [separator].intercalate kss := by
  revert h
  refine intercalate_induction (motive := fun kss ls => ks ∈ kss → ks ⊆ ls) ?_ ?_ ?_ kss
  · simp
  · simp
  · intro ls kss ms _ ih h
    rcases List.mem_cons.mp h with rfl | h
    · exact List.subset_append_left ks _
    · intro k hk
      simp [ih h hk]

/-- What a sequence is written as joins what its parts are written as. -/
theorem flatMap_intercalate (f : κ → List α) :
    ([separator].intercalate kss).flatMap f =
      (f separator).intercalate (kss.map fun ks => ks.flatMap f) := by
  refine intercalate_induction (motive := fun kss ls =>
    ls.flatMap f = (f separator).intercalate (kss.map fun ks => ks.flatMap f)) ?_ ?_ ?_ kss
  · simp
  · simp
  · intro ks kss ls hne ih
    rw [List.map_cons, List.intercalate_cons_of_ne_nil (by simpa using hne), ← ih]
    simp

/-- A separator without a value leaves the values of the sequences. -/
theorem filterMap_intercalate {f : κ → Option α} (hsep : f separator = none) :
    ([separator].intercalate kss).filterMap f = kss.flatMap fun ks => ks.filterMap f := by
  refine intercalate_induction (motive := fun kss ls =>
    ls.filterMap f = kss.flatMap fun ks => ks.filterMap f) ?_ ?_ ?_ kss
  · simp
  · simp
  · intro ks kss ls _ ih
    rw [List.filterMap_append, List.filterMap_cons_none hsep, ih, List.flatMap_cons]

/-! ## Runs -/

variable {L : List κ → α → Prop} {ks : List κ} {as : List α}

/-- Joined phrases are a run. -/
theorem run_intercalate {f : α → List κ} (hne : as ≠ []) (h : ∀ a ∈ as, L (f a) a) :
    Run separator L ([separator].intercalate (as.map f)) as := by
  induction as with
  | nil => contradiction
  | cons a as ih =>
      obtain ⟨ha, has⟩ := List.forall_mem_cons.mp h
      cases as with
      | nil => simpa using .one ha
      | cons b as =>
          rw [List.map_cons, List.intercalate_cons_of_ne_nil (by simp), List.append_assoc]
          exact .cons ha (ih (by simp) has)

/-- The values in a run are those of its phrases. -/
theorem Run.filterMap_eq {f : κ → Option β} {g : α → List β} (hsep : f separator = none)
    (h : Run separator (fun ks a => ks.filterMap f = g a) ks as) :
    ks.filterMap f = as.flatMap g := by
  induction h with
  | one ha => simpa using ha
  | cons ha _ ih =>
      rw [List.filterMap_append, List.filterMap_cons_none hsep, ha, ih, List.flatMap_cons]

/-- Every item of a run has its phrase in it. -/
theorem Run.exists_of_mem (h : Run separator L ks as) {a : α} (ha : a ∈ as) :
    ∃ ls, ls ⊆ ks ∧ L ls a := by
  induction h with
  | one hb =>
      obtain rfl := List.mem_singleton.mp ha
      exact ⟨_, List.Subset.refl _, hb⟩
  | cons hb _ ih =>
      rcases List.mem_cons.mp ha with rfl | ha
      · exact ⟨_, List.subset_append_left _ _, hb⟩
      · obtain ⟨ls, hls, ha⟩ := ih ha
        exact ⟨ls, fun k hk => by simp [hls hk], ha⟩

/-! ## Nesting -/

variable [DecidableEq κ] {opening closing : κ} {limit : Nat}

theorem Balanced.intercalate (ho : separator ≠ opening) (hc : separator ≠ closing)
    (h : ∀ ks ∈ kss, Balanced opening closing ks) :
    Balanced opening closing ([separator].intercalate kss) :=
  forall_intercalate rfl (fun _ _ hks hls => hks.append ((balanced_cons ho hc).mpr hls)) h

/-- Joined sequences are as shallow as each of them. -/
theorem shallow_intercalate (ho : separator ≠ opening) (hc : separator ≠ closing)
    (h : ∀ ks ∈ kss, Balanced opening closing ks) :
    Shallow opening closing limit ([separator].intercalate kss) ↔
      ∀ ks ∈ kss, Shallow opening closing limit ks := by
  revert h
  refine intercalate_induction (motive := fun kss ls => (∀ ks ∈ kss, Balanced opening closing ks) →
    (Shallow opening closing limit ls ↔ ∀ ks ∈ kss, Shallow opening closing limit ks)) ?_ ?_ ?_ kss
  · simp [shallow_nil]
  · simp
  · intro ks kss ls _ ih h
    obtain ⟨hks, hkss⟩ := List.forall_mem_cons.mp h
    rw [shallow_append hks, shallow_cons ho hc, ih hkss, List.forall_mem_cons]

end FormLogic
