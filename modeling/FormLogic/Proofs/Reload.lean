import FormLogic.Proofs.Expr.Congruence
import FormLogic.Proofs.Form.Gates
import FormLogic.Proofs.Json.RoundTrip
import FormLogic.Proofs.Path
import FormLogic.Proofs.Value.Sorted

/-!
# FormLogic.Proofs.Reload

Saving answers as JSON and loading them again. What is loaded are the answers in
ascending order, from the JSON value (`State.ofJson?_toJson`) as from its text
(`State.ofJsonText?_text`). A path finds there what it found before, up to
order (`State.resolve_sorted`), and order does not show in a text, in a comparison or at
the top of an expression. So nothing that is evaluated tells the loaded answers from
the saved ones (`Evaluator.condition_sorted`, `Evaluator.value_sorted`).
-/

namespace FormLogic

/-- Answers are printed without loss: no number stands among them. -/
theorem Value.legible_toJson (v : Value) : (toJson v).Legible := by
  induction v with
  | absent => rw [toJson]; exact .null
  | bool b => rw [toJson]; exact .bool b
  | text s => rw [toJson]; exact .string s
  | list items =>
      rw [toJson]
      refine .array fun j hj => ?_
      obtain ⟨item, -, rfl⟩ := List.mem_map.mp hj
      exact .string item
  | object es ih =>
      rw [toJson]
      refine .object fun m hm => ?_
      obtain ⟨e, he, rfl⟩ := exists_of_mem_toJsonMembers hm
      exact ih e he

namespace State

/-- Every object among the answers has distinct keys, as every map has. -/
def WellKeyed (s : State) : Prop :=
  (Value.object s.entries).WellKeyed

/-- The answers in ascending order of names, and sorted themselves. -/
def sorted (s : State) : State :=
  ⟨s.entries.sorted, (Json.ascending_sortEntries _).nodup_keys⟩

/-- The answers are loaded in ascending order. -/
theorem ofJson?_toJson (s : State) : ofJson? s.toJson = .ok s.sorted := by
  have hentries :
      Entries.ofPairs (Value.ofJsonMembers (Json.sortEntries (Value.toJsonMembers s.entries))) =
        s.entries.sorted :=
    Value.ofPairs_ofJsonMembers fun e _ => Value.ofJson_toJson e.2
  exact congrArg Except.ok (State.ext hentries)

theorem isSorted_sorted (s : State) : (Value.object s.sorted.entries).IsSorted := by
  have h := Value.isSorted_sorted (.object s.entries)
  rwa [Value.sorted_object] at h

theorem sorted_sorted (s : State) : s.sorted.sorted = s.sorted := by
  have h := Value.sorted_eq_self s.isSorted_sorted
  rw [Value.sorted_object] at h
  exact State.ext (Value.object.inj h)

theorem toJson_eq (s : State) : s.toJson = Value.toJson (.object s.entries) := by
  rw [Value.toJson]
  rfl

/-- The answers are loaded from their text as from their JSON value, when the text
is not nested too deeply to be read. -/
theorem ofJsonText?_text {s : State} (h : s.toJson.depth ≤ Json.maxDepth) :
    ofJsonText? s.toJson.text = .ok s.sorted := by
  have hlegible : s.toJson.Legible := s.toJson_eq ▸ Value.legible_toJson _
  have hsorted : s.toJson.sorted = s.toJson := by
    rw [toJson_eq, Value.sorted_toJson]
  rw [ofJsonText?, Json.ofReadableText?_text hlegible h]
  show ofJson? s.toJson.sorted = .ok s.sorted
  rw [hsorted, ofJson?_toJson]

/-! ## Following paths -/

variable {es : Entries Value}

theorem getD_get?_sorted (h : (Entries.keys es).Nodup) (key : String) :
    (Entries.get? es.sorted key).getD .absent =
      ((Entries.get? es key).getD .absent).sorted := by
  have hget : Entries.get? es.sorted key = (Entries.get? es key).map Value.sorted := by
    rw [Entries.sorted, Json.get?_sortEntries (by rwa [Entries.keys_mapValues]),
      Entries.get?_mapValues]
  rw [hget]
  cases Entries.get? es key with
  | none => rw [Option.map_none, Option.getD_none, Value.sorted]
  | some v => rfl

theorem inherited_wellKeyed : Inherited Value.WellKeyed where
  absent := .absent
  entry h he := (Value.everywhere_object.mp h).2 _ he

/-- A step finds what it found before, sorted. -/
theorem step_sorted (h : (Value.object es).WellKeyed) (segment : PathSegment) :
    step es.sorted segment = (step es segment).sorted := by
  obtain ⟨hnodup, hes⟩ := Value.everywhere_object.mp h
  have hfound := inherited_wellKeyed.getD_get? hes segment.key
  rw [step, step, getD_get?_sorted hnodup]
  cases hvalue : (Entries.get? es segment.key).getD .absent with
  | object inner =>
      rw [hvalue] at hfound
      rw [Value.sorted_object]
      cases segment.accessor with
      | none => exact (Value.sorted_object inner).symm
      | some accessor => exact getD_get?_sorted (Value.everywhere_object.mp hfound).1 accessor
  | _ => rw [Value.sorted]; cases segment.accessor <;> rfl

theorem within_sorted (v : Value) : within v.sorted = (within v).sorted := by
  cases v with
  | object es => rw [Value.sorted_object]; rfl
  | _ => rw [Value.sorted]; rfl

theorem wellKeyed_within {v : Value} (h : v.WellKeyed) :
    (Value.object (within v)).WellKeyed := by
  cases v with
  | object es => exact h
  | _ => exact .object List.nodup_nil fun _ he => absurd he List.not_mem_nil

theorem follow_sorted (h : (Value.object es).WellKeyed) (segments : List PathSegment) :
    follow es.sorted segments = (follow es segments).sorted := by
  fun_induction follow es segments with
  | case1 => rw [follow, Value.sorted]
  | case2 es segment rest hkey => rw [follow.eq_def, Value.sorted]; exact if_pos hkey
  | case3 es segment hkey => rw [follow, if_neg hkey, step_sorted h]
  | case4 es segment hkey next more ih =>
      have hstep := inherited_wellKeyed.step (Value.everywhere_object.mp h).2 segment
      rw [follow, if_neg hkey, step_sorted h, within_sorted, ih (wellKeyed_within hstep)]

/-- A path finds what it found before, sorted. -/
theorem resolve_sorted {s : State} (h : s.WellKeyed) (p : Path) :
    s.sorted.resolve p = (s.resolve p).sorted :=
  follow_sorted h p.segments

theorem get_sorted (s : State) (name : String) : s.sorted.get name = (s.get name).sorted :=
  getD_get?_sorted s.nodup_keys name

end State

/-! ## Evaluating -/

variable {s : State}

theorem Evaluator.condition_sorted (ev : Evaluator) (expr : String) (s : State) :
    ev.condition expr s.sorted = ev.condition expr s :=
  condition_congr fun _ _ name _ => by rw [s.get_sorted, Value.topLevel_sorted]

theorem Evaluator.value_sorted (ev : Evaluator) (expr : String) (h : s.WellKeyed) :
    ev.value expr s.sorted = ev.value expr s :=
  value_congr fun _ _ p _ => by rw [State.resolve_sorted h, Value.topLevel_sorted]

/-- Saving answers and loading them again only sorts them. What is loaded are the
same answers up to the order of entries, it is loaded again as it is, and no condition
or value expression tells it from what was saved. -/
theorem reload_invisible {s : State} (h : s.WellKeyed) :
    ∃ r : State, State.ofJson? s.toJson = .ok r ∧
      (Entries.keys r.entries).Perm (Entries.keys s.entries) ∧
      (Value.object s.entries).Reordered (.object r.entries) ∧
      (Value.object r.entries).IsSorted ∧
      State.ofJson? r.toJson = .ok r ∧
      ∀ (ev : Evaluator) (expr : String),
        ev.condition expr r = ev.condition expr s ∧ ev.value expr r = ev.value expr s := by
  have hkeys := (Entries.perm_sorted s.nodup_keys).map (·.1)
  have hreordered := Value.reordered_sorted h
  refine ⟨s.sorted, s.ofJson?_toJson, ?_, ?_, s.isSorted_sorted, ?_, fun ev expr => ?_⟩
  · rwa [← Entries.keys, ← Entries.keys, Entries.keys_mapValues] at hkeys
  · rwa [Value.sorted_object] at hreordered
  · rw [State.ofJson?_toJson, State.sorted_sorted]
  · exact ⟨ev.condition_sorted expr s, ev.value_sorted expr h⟩

/-- Two levels that stand out of order, and a name that is looked up in both. -/
theorem reload_invisible_unsorted :
    ∃ s r : State,
      s.entries = [("pet", .object [("sound", .text "meow"), ("name", .list ["Tom"])]),
        ("age", .text "3")] ∧
      State.ofJson? s.toJson = .ok r ∧ r.entries ≠ s.entries ∧
      (Value.object s.entries).Reordered (.object r.entries) ∧
      ({} : Evaluator).value "\x7bpet/name\x7d + \x7bage\x7d" r = .text "Tom3" := by
  let pet : Entries Value := [("sound", .text "meow"), ("name", .list ["Tom"])]
  let s : State := ⟨[("pet", .object pet), ("age", .text "3")], by decide⟩
  have hpet : (Value.object pet).WellKeyed := .object (by decide)
    (List.forall_mem_cons.mpr ⟨.text _, List.forall_mem_singleton.mpr (.list _)⟩)
  have hs : s.WellKeyed := .object (by decide)
    (List.forall_mem_cons.mpr ⟨hpet, List.forall_mem_singleton.mpr (.text _)⟩)
  obtain ⟨r, hr, -, hreordered, hsorted, -, heval⟩ := reload_invisible hs
  refine ⟨s, r, rfl, hr, ?_, hreordered, ?_⟩
  · intro hsame
    have hascending := (Value.everywhere_object.mp hsorted).1
    rw [hsame] at hascending
    have hlt : "pet" < "age" := (List.pairwise_cons.mp hascending).1 _ (List.mem_singleton_self _)
    exact absurd hlt (by decide)
  · rw [(heval {} _).2]
    decide +kernel

end FormLogic
