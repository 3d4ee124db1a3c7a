import FormLogic.Form.Gates
import FormLogic.Proofs.Condition.Tree

/-!
# FormLogic.Proofs.Form.Gates

What an answer can change. The truth of a condition depends on the answers of the
names that it compares (`Condition.eval_congr`), and a text that cannot be read is
false whatever the answers are. So a gate stands where it stood when a name is
answered that its condition does not mention (`gateCondition?_answer`), and it
stands there after any number of such answers (`gateCondition?_answers`).
-/

namespace FormLogic

namespace Condition

/-! ## Names of a condition -/

@[simp] theorem variableNamesOfList_eq (cs : List Condition) :
    variableNamesOfList cs = cs.flatMap variableNames := by
  induction cs with
  | nil => rfl
  | cons c cs ih => rw [variableNamesOfList, ih, List.flatMap_cons]

/-- A comparison depends on what an answer is at the top. -/
theorem holds_congr {v w : Value} (h : v.topLevel = w.topLevel) (op : CompareOp)
    (expected : String) : op.holds v expected = op.holds w expected := by
  have htexts := Value.comparableTexts_congr h
  cases op <;>
    simp only [CompareOp.holds, Value.containsIgnoringCase, Value.containsText,
      Value.equalsIgnoringCase, htexts]

/-- The truth of a condition depends on the answers of its names and on nothing
else, and of these on what they are at the top. -/
theorem eval_congr {c : Condition} {s s' : State}
    (h : ∀ name ∈ c.variableNames, (s'.get name).topLevel = (s.get name).topLevel) :
    c.eval s' = c.eval s := by
  induction c with
  | compare name op expected =>
      rw [eval, eval, holds_congr (h name (by simp [variableNames]))]
  | and cs ih =>
      have hcs : ∀ c ∈ cs, c.eval s' = c.eval s := fun c hc =>
        ih c hc fun name hname => h name (by simpa [variableNames] using ⟨c, hc, hname⟩)
      rw [eval, eval, evalAll_eq, evalAll_eq, Bool.eq_iff_iff, List.all_eq_true, List.all_eq_true]
      exact forall₂_congr fun c hc => by rw [hcs c hc]
  | or cs ih =>
      have hcs : ∀ c ∈ cs, c.eval s' = c.eval s := fun c hc =>
        ih c hc fun name hname => h name (by simpa [variableNames] using ⟨c, hc, hname⟩)
      rw [eval, eval, evalAny_eq, evalAny_eq, Bool.eq_iff_iff, List.any_eq_true, List.any_eq_true]
      exact exists_congr fun c => and_congr_right fun hc => by rw [hcs c hc]

end Condition

/-- A text that cannot be read is false, and one that can depends on the names of
its condition. -/
theorem Evaluator.condition_congr {ev : Evaluator} {expr : String} {s s' : State}
    (h : ∀ p, parseCondition expr ev.strict = .ok p →
      ∀ name ∈ p.tree.variableNames, (s'.get name).topLevel = (s.get name).topLevel) :
    ev.condition expr s' = ev.condition expr s := by
  unfold Evaluator.condition Evaluator.condition?
  cases hread : parseCondition expr ev.strict with
  | error => rfl
  | ok p =>
      show p.tree.eval s' = p.tree.eval s
      exact Condition.eval_congr (h p hread)

/-! ## Names of a gate -/

/-- The names that a gate's condition compares. A gate without a condition, or
with one that cannot be read, mentions none. -/
def gateNames (condition : Option String) : List String :=
  match condition with
  | none => []
  | some expr =>
    if expr.isEmpty then []
    else match parseCondition expr false with
      | .ok p => p.tree.variableNames
      | .error _ => []

/-- A name is mentioned by a condition that is not empty, is read and compares
it. -/
theorem mem_gateNames {condition : Option String} {name : String} :
    name ∈ gateNames condition ↔ ∃ expr p, condition = some expr ∧ expr ≠ "" ∧
      parseCondition expr false = .ok p ∧ name ∈ p.tree.variableNames := by
  cases condition with
  | none => simp [gateNames]
  | some expr =>
      by_cases hempty : expr = ""
      · simp [gateNames, hempty]
      · cases hread : parseCondition expr false with
        | error => simp [gateNames, hempty, hread]
        | ok p => simp [gateNames, hempty, hread]

variable {condition : Option String} {s s' : State}

/-- A gate depends on the answers of the names that it mentions. -/
theorem gateCondition?_congr
    (h : ∀ name ∈ gateNames condition, (s'.get name).topLevel = (s.get name).topLevel) :
    gateCondition? condition s' = gateCondition? condition s := by
  cases condition with
  | none => rfl
  | some expr =>
      by_cases hempty : expr = ""
      · simp [gateCondition?, hempty]
      · have hsame : evaluateCondition expr s' = evaluateCondition expr s :=
          Evaluator.condition_congr fun p hp name hname =>
            h name (mem_gateNames.mpr ⟨expr, p, rfl, hempty, hp, hname⟩)
        simp [gateCondition?, hempty, hsame]

/-! ## Answering -/

theorem get_answer (s : State) (key k : String) (v : Value) :
    (s.answer key v).2.get k = if key = k then v else s.get k := by
  rw [State.answer_eq, State.get_set]

/-- A gate that does not mention a name stands where it stood when the name is
answered. -/
theorem gateCondition?_answer {k : String} (h : k ∉ gateNames condition) (s : State) (v : Value) :
    gateCondition? condition (s.answer k v).2 = gateCondition? condition s := by
  refine gateCondition?_congr fun name hname => ?_
  have hne : k ≠ name := fun heq => h (heq ▸ hname)
  rw [get_answer, if_neg hne]

/-- Some answers one after another leave a gate alone that mentions none of their
names. -/
theorem gateCondition?_answers {answers : List (String × Value)}
    (h : ∀ a ∈ answers, a.1 ∉ gateNames condition) (s : State) :
    gateCondition? condition (answers.foldl (fun s a => (s.answer a.1 a.2).2) s) =
      gateCondition? condition s := by
  induction answers generalizing s with
  | nil => rfl
  | cons a answers ih =>
      obtain ⟨ha, hrest⟩ := List.forall_mem_cons.mp h
      rw [List.foldl_cons, ih hrest, gateCondition?_answer ha]

/-- An answer moves only the gates that mention its name. The answer that it
replaces is handed out, and the answers of the other names stay. -/
theorem answer_moves_mentioned (s : State) (k : String) (v : Value) :
    (∀ x : Section, k ∉ gateNames x.displayCondition →
      x.isVisible (s.answer k v).2 = x.isVisible s) ∧
    (∀ f : Field,
      (k ∉ gateNames f.displayCondition → f.isVisible (s.answer k v).2 = f.isVisible s) ∧
      (k ∉ gateNames f.requiredCondition → f.isRequired (s.answer k v).2 = f.isRequired s) ∧
      (k ∉ gateNames f.readOnlyCondition → f.isReadOnly (s.answer k v).2 = f.isReadOnly s)) ∧
    (s.answer k v).1 = s.get k ∧
    (s.answer k v).2.get k = v ∧
    ∀ j, j ≠ k → (s.answer k v).2.get j = s.get j := by
  refine ⟨fun x h => ?_, fun f => ⟨fun h => ?_, fun h => ?_, fun h => ?_⟩, ?_, ?_, fun j hj => ?_⟩
  · rw [Section.isVisible, Section.isVisible, gateCondition?_answer h]
  · rw [Field.isVisible, Field.isVisible, gateCondition?_answer h]
  · rw [Field.isRequired, Field.isRequired, gateCondition?_answer h]
  · rw [Field.isReadOnly, Field.isReadOnly, gateCondition?_answer h]
  · rw [State.answer_eq]
  · rw [get_answer, if_pos rfl]
  · rw [get_answer, if_neg hj.symm]

/-- A section with a condition on other names, and a field whose condition names
the town but cannot be read. -/
theorem answer_moves_mentioned_town :
    ∃ (x : Section) (f : Field),
      x.displayCondition =
        some "\x7bage\x7d == '18' or (\x7bage\x7d == '19' and \x7bname\x7d != '')" ∧
      f.displayCondition = some "\x7btown\x7d equals" ∧
      f.requiredCondition = some "\x7bage\x7d == '18'" ∧ f.readOnlyCondition = some "" ∧
      "town" ∉ gateNames x.displayCondition ∧ "town" ∉ gateNames f.displayCondition ∧
      "town" ∉ gateNames f.requiredCondition ∧ "town" ∉ gateNames f.readOnlyCondition ∧
      x.isVisible (State.empty.answer "town" (.text "Hull")).2 = x.isVisible .empty ∧
      f.isVisible (State.empty.answer "town" (.text "Hull")).2 = f.isVisible .empty ∧
      f.isRequired (State.empty.answer "town" (.text "Hull")).2 = f.isRequired .empty ∧
      f.isReadOnly (State.empty.answer "town" (.text "Hull")).2 = f.isReadOnly .empty ∧
      (State.empty.answer "town" (.text "Hull")).2.get "age" = .absent := by
  obtain ⟨hsection, hfield, -, -, hother⟩ :=
    answer_moves_mentioned .empty "town" (.text "Hull")
  let x : Section := ⟨"home", "Home",
    some "\x7bage\x7d == '18' or (\x7bage\x7d == '19' and \x7bname\x7d != '')", []⟩
  let f : Field := ⟨"f", "Town", "town", false, some "\x7btown\x7d equals", none, none, false, true,
    some "", some "\x7bage\x7d == '18'", none, .date⟩
  have hx : "town" ∉ gateNames x.displayCondition := by decide +kernel
  have hvisible : "town" ∉ gateNames f.displayCondition := by decide +kernel
  have hrequired : "town" ∉ gateNames f.requiredCondition := by decide +kernel
  have hreadOnly : "town" ∉ gateNames f.readOnlyCondition := by decide +kernel
  exact ⟨x, f, rfl, rfl, rfl, rfl, hx, hvisible, hrequired, hreadOnly, hsection x hx,
    (hfield f).1 hvisible, (hfield f).2.1 hrequired, (hfield f).2.2 hreadOnly,
    hother "age" (by decide)⟩

end FormLogic
