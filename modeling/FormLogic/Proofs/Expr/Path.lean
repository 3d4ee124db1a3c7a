import FormLogic.Proofs.Reload
import FormLogic.Proofs.Text.Blank

/-!
# FormLogic.Proofs.Expr.Path

Paths whose texts are joined by a slash. Their steps follow one another
(`Path.segments_ofText_slash`), and following them is following the steps of the first
path and then, inside what it finds, those of the second one (`State.follow_append`). So
a path leads from answers to answers, and a longer one is two shorter ones
(`resolve_slash`).
-/

namespace FormLogic

open Text

/-! ## Steps -/

theorem Path.segments_ofText_ne_nil (text : String) : (Path.ofText text).segments ≠ [] := by
  rw [ofText, ne_eq, List.map_eq_nil_iff, splitAt_eq_splitOn]
  exact List.splitOn_ne_nil '/' text.toList

theorem Path.segments_ofText_slash (p q : String) :
    (Path.ofText (p ++ "/" ++ q)).segments =
      (Path.ofText p).segments ++ (Path.ofText q).segments := by
  have hjoint : (p ++ "/" ++ q).toList = p.toList ++ '/' :: q.toList := by simp
  simp only [ofText, hjoint, splitAt_eq_splitOn, List.splitOn_append_cons_self, List.map_append]

namespace State

theorem step_no_entries (segment : PathSegment) : step [] segment = .absent := by
  rw [step, Entries.get?_nil]
  cases segment.accessor <;> rfl

/-- Nothing is found where there are no entries. -/
theorem follow_no_entries (segments : List PathSegment) : follow [] segments = .absent := by
  induction segments with
  | nil => rfl
  | cons segment rest ih =>
      cases rest with
      | nil => rw [follow, step_no_entries, ite_self]
      | cons next more =>
          have hrest : follow (within .absent) (next :: more) = .absent := ih
          rw [follow, step_no_entries, hrest, ite_self]

/-- Following some steps and then some more is following the others inside what the
first ones find. -/
theorem follow_append {front back : List PathSegment} (hfront : front ≠ []) (hback : back ≠ [])
    (es : Entries Value) : follow es (front ++ back) = follow (within (follow es front)) back := by
  obtain ⟨next, more, rfl⟩ := List.exists_cons_of_ne_nil hback
  fun_induction follow es front with
  | case1 => contradiction
  | case2 es segment rest hkey =>
      -- a step without a key ends the search, so nothing is left to look inside of
      have hempty : follow es (segment :: (rest ++ next :: more)) = .absent := by
        rw [follow.eq_def]
        exact if_pos hkey
      rw [List.cons_append, hempty]
      exact (follow_no_entries _).symm
  | case3 es segment hkey => rw [List.singleton_append, follow, if_neg hkey]
  | case4 es segment hkey second rest ih =>
      rw [List.cons_append, List.cons_append, follow, if_neg hkey, ← List.cons_append]
      exact ih (List.cons_ne_nil _ _)

/-- Every answer that a path finds has distinct keys in its objects, as the answers have
that it starts from. -/
theorem wellKeyed_resolve {s : State} (h : s.WellKeyed) (p : Path) : (s.resolve p).WellKeyed :=
  inherited_wellKeyed.follow (Value.everywhere_object.mp h).2 p.segments

end State

/-- A path that is joined of two by a slash takes the steps of the first one and then
those of the second one. It finds what the second one finds among the answers of the
object that the first one finds, and nothing if that is no object. Those answers are a
state of their own. -/
theorem resolve_slash (s : State) (p q : String) :
    (Path.ofText (p ++ "/" ++ q)).segments =
        (Path.ofText p).segments ++ (Path.ofText q).segments ∧
      s.resolve (Path.ofText (p ++ "/" ++ q)) =
        (match s.resolve (Path.ofText p) with
        | .object entries => State.follow entries (Path.ofText q).segments
        | _ => .absent) ∧
      (s.WellKeyed → ∀ entries, s.resolve (Path.ofText p) = .object entries →
        ∃ t : State, t.entries = entries ∧
          s.resolve (Path.ofText (p ++ "/" ++ q)) = t.resolve (Path.ofText q)) := by
  have hresolve : s.resolve (Path.ofText (p ++ "/" ++ q)) =
      State.follow (State.within (s.resolve (Path.ofText p))) (Path.ofText q).segments := by
    rw [State.resolve, Path.segments_ofText_slash]
    exact State.follow_append (Path.segments_ofText_ne_nil p) (Path.segments_ofText_ne_nil q) _
  refine ⟨Path.segments_ofText_slash p q, ?_, fun h entries hentries => ?_⟩
  · rw [hresolve]
    cases s.resolve (Path.ofText p) with
    | object entries => rfl
    | _ => exact State.follow_no_entries _
  · have hkeyed := State.wellKeyed_resolve h (Path.ofText p)
    rw [hentries] at hkeyed
    refine ⟨⟨entries, (Value.everywhere_object.mp hkeyed).1⟩, rfl, ?_⟩
    rw [hresolve, hentries]
    rfl

/-- The step behind the slash starts inside what the accessor in front of it finds. -/
theorem resolve_slash_accessor :
    ∃ s t : State, s.WellKeyed ∧ s.resolve (Path.ofText "pet: home") = .object t.entries ∧
      t.entries = [("town", .text "Bern")] ∧
      s.resolve (Path.ofText "pet: home/town") = t.resolve (Path.ofText "town") ∧
      t.resolve (Path.ofText "town") = .text "Bern" := by
  let home : Entries Value := [("town", .text "Bern")]
  let s : State := ⟨[("pet", .object [("name", .text "Tom"), ("home", .object home)])], by decide⟩
  have hhome : (Value.object home).WellKeyed :=
    .object (by decide) (List.forall_mem_singleton.mpr (.text _))
  have hs : s.WellKeyed := .object (by decide) <| List.forall_mem_singleton.mpr <|
    .object (by decide) (List.forall_mem_cons.mpr ⟨.text _, List.forall_mem_singleton.mpr hhome⟩)
  have hfound : s.resolve (Path.ofText "pet: home") = .object home := by decide +kernel
  obtain ⟨t, ht, hresolve⟩ := (resolve_slash s "pet: home" "town").2.2 hs home hfound
  refine ⟨s, t, hs, by rw [hfound, ht], ht, hresolve, ?_⟩
  rw [State.resolve, ht]
  decide +kernel

end FormLogic
