import FormLogic.Form.Printer
import FormLogic.Host
import FormLogic.Proofs.Form.Shape
import FormLogic.Proofs.Reload

/-!
# FormLogic.Proofs.Host

What a host does with the first answers of a form. It holds them as a text, and every
call reads that text again. First answers are flat, so the text is not nested too
deeply to be read (`depth_toJson_le`), and what is read are the answers in ascending
order (`Host.stateOf_text`). Order does not show, neither in an evaluation nor in a
gate (`Section.visibleFields_sorted`).
-/

namespace FormLogic

/-! ## Depth -/

theorem Json.depthItems_string (items : List String) : depthItems (items.map .string) = 0 := by
  induction items with
  | nil => rfl
  | cons item items ih => rw [List.map_cons, depthItems, ih]; rfl

theorem Json.depthMembers_le {members : List (String × Json)} {n : Nat}
    (h : ∀ m ∈ members, m.2.depth ≤ n) : depthMembers members ≤ n := by
  induction members with
  | nil => exact Nat.zero_le n
  | cons m members ih =>
      obtain ⟨hm, hmembers⟩ := List.forall_mem_cons.mp h
      exact Nat.max_le.mpr ⟨hm, ih hmembers⟩

theorem Value.IsFlat.depth_toJson_le {v : Value} (h : v.IsFlat) : v.toJson.depth ≤ 1 := by
  cases v with
  | object => exact h.elim
  | list items => rw [toJson, Json.depth, Json.depthItems_string]
  | absent | bool | text => exact Nat.zero_le 1

/-- Flat answers are written as an object of single values and lists. -/
theorem depth_toJson_le {s : State} (h : s.entries.IsFlat) : s.toJson.depth ≤ 2 := by
  have hmembers : Json.depthMembers (Json.sortEntries (Value.toJsonMembers s.entries)) ≤ 1 := by
    refine Json.depthMembers_le fun m hm => ?_
    obtain ⟨e, he, rfl⟩ := Value.exists_of_mem_toJsonMembers hm
    exact (h e he).depth_toJson_le
  rw [State.toJson, Json.depth]
  omega

theorem Value.IsFlat.wellKeyed {v : Value} (h : v.IsFlat) : v.WellKeyed := by
  cases v with
  | absent => exact .absent
  | bool b => exact .bool b
  | text s => exact .text s
  | list items => exact .list items
  | object => exact h.elim

theorem wellKeyed_of_isFlat {s : State} (h : s.entries.IsFlat) : s.WellKeyed :=
  .object s.nodup_keys fun e he => (h e he).wellKeyed

/-! ## Gates -/

theorem gateCondition?_sorted (condition : Option String) (s : State) :
    gateCondition? condition s.sorted = gateCondition? condition s := by
  cases condition with
  | none => rfl
  | some expr =>
      rw [gateCondition?, gateCondition?, evaluateCondition, evaluateCondition,
        Evaluator.condition_sorted]

theorem Section.visibleFields_sorted (x : Section) (s : State) :
    x.visibleFields s.sorted = x.visibleFields s :=
  List.filter_congr fun f _ => by
    rw [Field.isVisible, Field.isVisible, gateCondition?_sorted]

/-! ## Calls -/

namespace Host

variable {s : State}

/-- Answers that are not nested too deeply are read in ascending order. -/
theorem stateOf_text (h : s.toJson.depth ≤ Json.maxDepth) : stateOf s.toJson.text = s.sorted := by
  rw [stateOf, State.ofJsonText?_text h]

/-- A form is accepted when its text is one, and then its first answers are given. -/
theorem createFormState_success {formText : String}
    (h : (createFormState formText).success = true) :
    ∃ form, Form.ofJsonText? formText = .ok form ∧
      createFormState formText = .ok form.initialState.toJson := by
  unfold createFormState at h ⊢
  cases hform : Form.ofJsonText? formText with
  | error e =>
      rw [hform] at h
      exact absurd h nofun
  | ok form => exact ⟨form, rfl, rfl⟩

end Host

/-- A host that creates the answers of a form, and hands their text back with later
calls, gets from each call what the answers themselves give: the truth of every
condition, the JSON of every value, and the names of the fields that a section
shows. -/
theorem host_calls_agree {formText : String}
    (h : (Host.createFormState formText).success = true) :
    ∃ (form : Form) (output : String),
      Form.ofJsonText? formText = .ok form ∧
      Host.createFormState formText = ⟨output, "", true⟩ ∧
      (∀ expr, Host.evaluateCondition expr output = evaluateCondition expr form.initialState) ∧
      (∀ expr, Host.evaluateValue expr output =
        ⟨(evaluateValue expr form.initialState).toJson.text, "", true⟩) ∧
      ∀ index x, form.sections[index]? = some x →
        Host.visibleFields formText index output =
          ⟨(Json.array ((x.visibleFields form.initialState).map fun f =>
            .string f.dataName)).text, "", true⟩ := by
  obtain ⟨form, hform, hcreate⟩ := Host.createFormState_success h
  have hflat : form.initialState.entries.IsFlat := isFlat_seed_form form {}
  have hdepth : form.initialState.toJson.depth ≤ Json.maxDepth :=
    (depth_toJson_le hflat).trans (by decide)
  have hstate : Host.stateOf form.initialState.toJson.text = form.initialState.sorted :=
    Host.stateOf_text hdepth
  refine ⟨form, _, hform, hcreate, fun expr => ?_, fun expr => ?_, fun index x hx => ?_⟩
  · rw [Host.evaluateCondition, hstate]
    exact Evaluator.condition_sorted {} expr _
  · rw [Host.evaluateValue, hstate, evaluateValue,
      Evaluator.value_sorted {} expr (wellKeyed_of_isFlat hflat)]
    rfl
  · rw [Host.visibleFields, hform]
    simp only [hx, hstate, Section.visibleFields_sorted]
    rfl

/-- A select with several values, and two fields that ask for one of them. -/
theorem host_calls_agree_pets :
    ∃ (form : Form) (output : String),
      Host.createFormState form.text = ⟨output, "", true⟩ ∧
      Host.evaluateCondition "\x7bpet\x7d contains 'cat'" output = true ∧
      Host.evaluateValue "\x7bpet\x7d + '!'" output = ⟨"\"cat!\"", "", true⟩ ∧
      Host.visibleFields form.text 0 output = ⟨"[\"pet\",\"lives\"]", "", true⟩ := by
  let date (name condition : String) : Field :=
    ⟨name, "", name, false, some condition, none, none, false, false, none, none, none, .date⟩
  let pet : Field := ⟨"pet", "", "pet", false, none, none, some "cat", false, false, none, none,
    none, .select true false [] false none none none⟩
  let x : Section := ⟨"a", "", none,
    [pet, date "lives" "\x7bpet\x7d contains 'cat'", date "walks" "\x7bpet\x7d contains 'dog'"]⟩
  let pets : Form := ⟨"Pets", none, [x]⟩
  have hread : Form.ofJsonText? pets.text = .ok pets := by
    rw [Form.ofJsonText?, Json.ofText?, Form.text, Json.text, String.toList_ofList]
    decide +kernel
  have hsuccess : (Host.createFormState pets.text).success = true := by
    rw [Host.createFormState, hread]
    rfl
  obtain ⟨form, output, hform, hcreate, hcondition, hvalue, hvisible⟩ := host_calls_agree hsuccess
  obtain rfl : pets = form := Except.ok.inj (hread.symm.trans hform)
  refine ⟨pets, output, hcreate, ?_, ?_, ?_⟩
  · rw [hcondition]
    decide +kernel
  · rw [hvalue]
    decide +kernel
  · rw [hvisible 0 x rfl]
    decide +kernel

end FormLogic
