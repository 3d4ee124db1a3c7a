import FormLogic.Proofs.Json.Literal

/-!
# FormLogic.Proofs.Json.RoundTrip

Compact JSON texts read back. Every value whose numbers are integers of 64 bits is
read off the front of its text, whatever ends a value behind it
(`Legible.readsBack`). Items and members are read back when each of their values is
(`readItems_render`, `readMembers_render`). A value takes no more steps than its text
has characters, so a whole text is read back as its value (`ofText?_text`).
-/

namespace FormLogic.Json

/-- A value that is printed without loss: its numbers are integers of 64 bits, and
every literal in it has a value. -/
inductive Legible : Json → Prop
  | null : Legible .null
  | bool (b : Bool) : Legible (.bool b)
  | integer {i : Int} : Fits i → Legible (.number (.integer i))
  | string (s : String) : Legible (.string s)
  | array {items : List Json} : (∀ j ∈ items, Legible j) → Legible (.array items)
  | object {members : List (String × Json)} :
    (∀ m ∈ members, Legible m.2) → Legible (.object members)

/-- The value is read off the front of its text, with enough steps. -/
def ReadsBack (j : Json) : Prop :=
  ∀ (steps : Nat) (rest : List Char), j.render.length ≤ steps → EndsValue rest →
    readValue steps (j.render ++ rest) = some (j, rest)

/-! ## The first character -/

theorem ne_of_isDigit {c d : Char} (hc : c.isDigit = true) (hd : d.isDigit = false) : c ≠ d := by
  intro heq
  rw [heq, hd] at hc
  exact Bool.false_ne_true hc

theorem readValue_number {c : Char} (h : c = '-' ∨ c.isDigit = true) (steps : Nat)
    (cs : List Char) : readValue (steps + 1) (c :: cs) = readNumber (c :: cs) := by
  have hne : ∀ d : Char, d ≠ '-' → d.isDigit = false → c ≠ d := by
    intro d hd hdigit
    exact h.elim (fun hc => hc ▸ hd.symm) fun hc => ne_of_isDigit hc hdigit
  rw [readValue]
  all_goals intro more heq
  all_goals exact hne _ (by decide) (by decide) (List.cons.inj heq).1

/-- The text of an integer starts with a sign or a digit. -/
theorem exists_text_integer (i : Int) :
    ∃ c cs, JsonNumber.text (.integer i) = c :: cs ∧ (c = '-' ∨ c.isDigit = true) := by
  by_cases hneg : i < 0
  · exact ⟨'-', _, if_pos hneg, .inl rfl⟩
  · obtain ⟨c, cs, hcs, hdigit⟩ := exists_digitsOf_eq_cons i.natAbs
    refine ⟨c, cs, ?_, .inr hdigit⟩
    rw [JsonNumber.text, if_neg hneg, hcs]

/-- A text that starts with neither a blank nor a closing bracket. -/
def StartsValue (s : List Char) : Prop :=
  ∃ c cs, s = c :: cs ∧ isSpace c = false ∧ c ≠ ']'

theorem StartsValue.append {s : List Char} (h : StartsValue s) (rest : List Char) :
    StartsValue (s ++ rest) := by
  obtain ⟨c, cs, hcs, hc⟩ := h
  exact ⟨c, cs ++ rest, by rw [hcs, List.cons_append], hc⟩

theorem StartsValue.skipSpace_eq {s : List Char} (h : StartsValue s) : skipSpace s = s := by
  obtain ⟨c, cs, hcs, hspace, -⟩ := h
  rw [hcs]
  exact List.dropWhile_cons_of_neg (by simp [hspace])

theorem StartsValue.ne_bracket {s : List Char} (h : StartsValue s) (rest : List Char) :
    s ≠ ']' :: rest := by
  obtain ⟨c, cs, hcs, -, hc⟩ := h
  intro heq
  exact hc (List.cons.inj (hcs.symm.trans heq)).1

theorem Legible.startsValue {j : Json} (h : j.Legible) : StartsValue j.render := by
  cases h with
  | null => exact ⟨'n', _, rfl, by decide, by decide⟩
  | bool b =>
      cases b with
      | true => exact ⟨'t', _, rfl, by decide, by decide⟩
      | false => exact ⟨'f', _, rfl, by decide, by decide⟩
  | @integer i _ =>
      obtain ⟨c, cs, hcs, hc⟩ := exists_text_integer i
      refine ⟨c, cs, hcs, ?_, ?_⟩
      · rcases hc with rfl | hdigit
        · decide
        · simp [isSpace, ne_of_isDigit hdigit]
      · rcases hc with rfl | hdigit
        · decide
        · exact ne_of_isDigit hdigit (by decide)
  | string s => exact ⟨'"', _, rfl, by decide, by decide⟩
  | array _ => exact ⟨'[', _, rfl, by decide, by decide⟩
  | object _ => exact ⟨'{', _, rfl, by decide, by decide⟩

/-! ## Items and members -/

theorem endsValue_cons {c : Char} (h : c = ',' ∨ c = ']' ∨ c = '}') (rest : List Char) :
    EndsValue (c :: rest) := by
  intro d hd
  rwa [← Option.some.inj hd]

/-- The text of some items starts as the text of the first one. -/
theorem Legible.startsValue_items {j : Json} (h : j.Legible) (js : List Json) :
    StartsValue (renderItems (j :: js)) := by
  cases js with
  | nil =>
      rw [renderItems]
      exact h.startsValue
  | cons k js =>
      rw [renderItems]
      exact h.startsValue.append _

/-- Items are read back up to the closing bracket when each of them is. -/
theorem readItems_render {j : Json} {js : List Json} {steps : Nat}
    (h : ∀ i ∈ j :: js, i.ReadsBack) (hlegible : ∀ i ∈ js, i.Legible)
    (hsteps : (renderItems (j :: js)).length < steps) (rest : List Char) :
    readItems steps (renderItems (j :: js) ++ ']' :: rest) = some (j :: js, rest) := by
  obtain ⟨steps, rfl⟩ := Nat.exists_eq_add_one_of_ne_zero (Nat.ne_zero_of_lt hsteps)
  induction js generalizing j steps with
  | nil =>
      have hj := h j (List.mem_cons_self ..) steps (']' :: rest) (Nat.le_of_lt_succ hsteps)
        (endsValue_cons (by decide) rest)
      rw [renderItems, readItems, hj]
      rfl
  | cons k js ih =>
      obtain ⟨hj, hjs⟩ := List.forall_mem_cons.mp h
      obtain ⟨hk, hlegible⟩ := List.forall_mem_cons.mp hlegible
      have hskip := ((hk.startsValue_items js).append (']' :: rest)).skipSpace_eq
      -- The item and the comma take up what one more step needs.
      rw [renderItems, List.length_append, List.length_cons] at hsteps
      obtain ⟨steps, rfl⟩ := Nat.exists_eq_add_one_of_ne_zero (by omega : steps ≠ 0)
      have hfirst := hj (steps + 1) (',' :: (renderItems (k :: js) ++ ']' :: rest)) (by omega)
        (endsValue_cons (by decide) _)
      have hmore := ih hjs hlegible steps (by omega)
      rw [renderItems, List.append_assoc, List.cons_append, readItems, hfirst]
      change (readItems _ (skipSpace _)).bind _ = _
      rw [hskip, hmore]
      rfl

/-- A member is read up to its value, and then what stands behind it decides. -/
theorem readMembers_member {j : Json} (h : j.ReadsBack) (hlegible : j.Legible) (key : String)
    {steps : Nat} (hsteps : j.render.length ≤ steps) {rest : List Char} (hends : EndsValue rest) :
    readMembers (steps + 1) (renderString key ++ ':' :: (j.render ++ rest)) =
      match skipSpace rest with
      | ',' :: rest =>
        (readMembers steps (skipSpace rest)).bind fun p => some ((some key, j) :: p.1, p.2)
      | '}' :: rest => some ([(some key, j)], rest)
      | _ => none := by
  have hskip := (hlegible.startsValue.append rest).skipSpace_eq
  rw [renderString_append, readMembers, readString_escaped]
  change (readValue _ (skipSpace _)).bind _ = _
  rw [hskip, h steps rest hsteps hends]
  rfl

/-- Members are read back up to the closing brace when each of their values is. -/
theorem readMembers_render {m : String × Json} {ms : List (String × Json)} {steps : Nat}
    (h : ∀ e ∈ m :: ms, e.2.ReadsBack) (hlegible : ∀ e ∈ m :: ms, e.2.Legible)
    (hsteps : (renderMembers (m :: ms)).length < steps) (rest : List Char) :
    readMembers steps (renderMembers (m :: ms) ++ '}' :: rest) =
      some ((m :: ms).map fun e => (some e.1, e.2), rest) := by
  obtain ⟨steps, rfl⟩ := Nat.exists_eq_add_one_of_ne_zero (Nat.ne_zero_of_lt hsteps)
  induction ms generalizing m steps with
  | nil =>
      obtain ⟨key, j⟩ := m
      have hj : j.ReadsBack := h (key, j) (List.mem_cons_self ..)
      rw [renderMembers, List.length_append, List.length_cons] at hsteps
      rw [renderMembers, List.append_assoc, List.cons_append,
        readMembers_member hj (hlegible (key, j) (List.mem_cons_self ..)) key (by omega)
          (endsValue_cons (by decide) rest)]
      rfl
  | cons next ms ih =>
      obtain ⟨key, j⟩ := m
      have hj : j.ReadsBack := h (key, j) (List.mem_cons_self ..)
      have hlegiblej : j.Legible := hlegible (key, j) (List.mem_cons_self ..)
      rw [renderMembers, List.length_append, List.length_append, List.length_cons,
        List.length_cons] at hsteps
      obtain ⟨steps, rfl⟩ := Nat.exists_eq_add_one_of_ne_zero (by omega : steps ≠ 0)
      have hmore := ih (List.forall_mem_cons.mp h).2 (List.forall_mem_cons.mp hlegible).2 steps
        (by omega)
      have hskip : skipSpace (renderMembers (next :: ms) ++ '}' :: rest) =
          renderMembers (next :: ms) ++ '}' :: rest := by
        cases ms <;> rfl
      rw [renderMembers, List.append_assoc, List.append_assoc, List.cons_append, List.cons_append,
        readMembers_member hj hlegiblej key (by omega) (endsValue_cons (by decide) _)]
      change (readMembers _ (skipSpace _)).bind _ = _
      rw [hskip, hmore]
      rfl

/-! ## Values -/

theorem objectOf_some (members : List (String × Json)) :
    objectOf (members.map fun m => (some m.1, m.2)) = .object members := by
  have hkeys : (members.map fun m => (some m.1, m.2)).mapM
      (fun m => m.1.map fun k => (k, m.2)) = some members := by
    induction members with
    | nil => rfl
    | cons m members ih => rw [List.map_cons, List.mapM_cons, ih]; rfl
  unfold objectOf
  split
  case h_1 found heq => rw [Option.some.inj (heq.symm.trans hkeys)]
  case h_2 heq => exact absurd (heq.symm.trans hkeys) nofun

/-- No text is empty, so there is a step to take. -/
theorem Legible.readsBack_of_step {j : Json} (h : j.Legible)
    (hstep : ∀ (steps : Nat) (rest : List Char), j.render.length ≤ steps + 1 → EndsValue rest →
      readValue (steps + 1) (j.render ++ rest) = some (j, rest)) : j.ReadsBack := by
  intro steps rest hsteps hends
  obtain ⟨c, cs, hcs, -⟩ := h.startsValue
  cases steps with
  | zero => simp [hcs] at hsteps
  | succ steps => exact hstep steps rest hsteps hends

theorem readsBack_integer {i : Int} (hi : Fits i) : (Json.number (.integer i)).ReadsBack := by
  refine (Legible.integer hi).readsBack_of_step fun steps rest _ hends => ?_
  obtain ⟨c, cs, hcs, hc⟩ := exists_text_integer i
  have hrender : (Json.number (.integer i)).render = c :: cs := by
    rw [← hcs]
    rfl
  have hread := readNumber_integer hi hends
  rw [hcs, List.cons_append] at hread
  rw [hrender, List.cons_append, readValue_number hc, hread]

theorem readsBack_array {items : List Json} (hlegible : ∀ j ∈ items, j.Legible)
    (h : ∀ j ∈ items, j.ReadsBack) : (Json.array items).ReadsBack := by
  refine (Legible.array hlegible).readsBack_of_step fun steps rest hsteps _ => ?_
  cases items with
  | nil => rfl
  | cons j js =>
      obtain ⟨hj, hjs⟩ := List.forall_mem_cons.mp hlegible
      have hstarts := (hj.startsValue_items js).append (']' :: rest)
      rw [render, List.length_append, List.length_cons, List.length_singleton] at hsteps
      have hread := readItems_render h hjs (by omega : _ < steps) rest
      rw [render, List.append_assoc, List.cons_append, List.singleton_append, readValue]
      simp only [hstarts.skipSpace_eq]
      -- The first item does not start as the end of an empty array does.
      split
      case h_1 heq => exact absurd heq (hstarts.ne_bracket _)
      case h_2 => rw [hread]; rfl

theorem readsBack_object {members : List (String × Json)} (hlegible : ∀ m ∈ members, m.2.Legible)
    (h : ∀ m ∈ members, m.2.ReadsBack) : (Json.object members).ReadsBack := by
  refine (Legible.object hlegible).readsBack_of_step fun steps rest hsteps _ => ?_
  cases members with
  | nil => rfl
  | cons m ms =>
      obtain ⟨cs, hcs⟩ : ∃ cs, renderMembers (m :: ms) = '"' :: cs := by
        cases ms <;> exact ⟨_, rfl⟩
      rw [render, List.length_append, List.length_cons, List.length_singleton] at hsteps
      have hread := readMembers_render h hlegible (by omega : _ < steps) rest
      rw [hcs, List.cons_append] at hread
      rw [render, hcs, List.append_assoc, List.cons_append, List.singleton_append, readValue]
      change (readMembers steps ('"' :: (cs ++ '}' :: rest))).bind _ = _
      rw [hread]
      exact congrArg (fun j => some (j, rest)) (objectOf_some (m :: ms))

/-- A value that is printed without loss is read off the front of its text. -/
theorem Legible.readsBack {j : Json} (h : j.Legible) : j.ReadsBack := by
  induction h with
  | null => exact Legible.null.readsBack_of_step fun _ _ _ _ => rfl
  | bool b =>
      refine (Legible.bool b).readsBack_of_step fun steps rest _ _ => ?_
      cases b <;> rfl
  | integer hi => exact readsBack_integer hi
  | string s =>
      refine (Legible.string s).readsBack_of_step fun steps rest _ _ => ?_
      rw [render, renderString_append, readValue, readString_escaped]
      rfl
  | array hitems ih => exact readsBack_array hitems ih
  | object hmembers ih => exact readsBack_object hmembers ih

/-- A whole text is read back as its value. -/
theorem ofText?_text {j : Json} (h : j.Legible) : ofText? j.text = some j := by
  have hskip : skipSpace j.text.toList = j.render := by
    rw [text, String.toList_ofList, h.startsValue.skipSpace_eq]
  have hread := h.readsBack (2 * j.render.length + 2) [] (by omega) (by nofun)
  rw [List.append_nil] at hread
  rw [ofText?, hskip, hread]
  rfl

/-! ## Readable texts -/

theorem allUsable_of_forall {items : List Json} (h : ∀ j ∈ items, j.isUsable = true) :
    allUsable items = true := by
  induction items with
  | nil => rfl
  | cons j js ih =>
      obtain ⟨hj, hjs⟩ := List.forall_mem_cons.mp h
      rw [allUsable, hj, ih hjs]
      rfl

theorem allUsableMembers_of_forall {members : List (String × Json)}
    (h : ∀ m ∈ members, m.2.isUsable = true) : allUsableMembers members = true := by
  induction members with
  | nil => rfl
  | cons m ms ih =>
      obtain ⟨key, j⟩ := m
      obtain ⟨hj, hms⟩ := List.forall_mem_cons.mp h
      rw [allUsableMembers, hj, ih hms]
      rfl

theorem Legible.isUsable {j : Json} (h : j.Legible) : j.isUsable = true := by
  induction h with
  | null | bool | integer | string => rfl
  | array _ ih => exact allUsable_of_forall ih
  | object _ ih => exact allUsableMembers_of_forall ih

/-- A text that is not nested too deeply is read back as its value. -/
theorem ofReadableText?_text {j : Json} (h : j.Legible) (hdepth : j.depth ≤ maxDepth) :
    ofReadableText? j.text = some j := by
  have hreadable : j.isReadable 0 = true := by
    simp [isReadable, h.isUsable, hdepth]
  rw [ofReadableText?, ofText?_text h, Option.filter_some_pos hreadable]

end FormLogic.Json
