import FormLogic.Proofs.Evaluator
import FormLogic.Proofs.Expr.Congruence
import FormLogic.Proofs.Updates

/-!
# FormLogic.Proofs.Expr.Names

The names that a value expression asks for. A path starts from the answer of its
first key and looks into nothing else (`State.resolve_congr`), so the names of an
expression are the first keys of its paths. Two states that answer these alike are the
same to it (`Evaluator.value_sees_named`), and updates of other names are not seen,
however many there are (`Evaluator.value_run`).
-/

namespace FormLogic

/-- The name whose answer a path starts from. Nothing is found from an empty first
key. -/
def Path.name? (p : Path) : Option String :=
  (p.segments.head?.map (·.key)).filter (!·.isEmpty)

/-- The names whose answers the paths of an expression start from. -/
def Expr.names (e : Expr) : List String :=
  e.nodes.filterMap fun
    | .var p => p.name?
    | _ => none

theorem Expr.mem_names {e : Expr} {name : String} :
    name ∈ e.names ↔ ∃ p, .var p ∈ e.nodes ∧ p.name? = some name := by
  rw [names, List.mem_filterMap]
  constructor
  · intro hname
    obtain ⟨node, hnode, heq⟩ := hname
    cases node with
    | var p => exact ⟨p, hnode, heq⟩
    | _ => cases heq
  · intro hname
    obtain ⟨p, hp, heq⟩ := hname
    exact ⟨.var p, hp, heq⟩

variable {s s' : State}

/-! ## Paths -/

/-- A step depends on the answer of its key. -/
theorem State.step_congr {segment : PathSegment} (h : s'.get segment.key = s.get segment.key) :
    step s'.entries segment = step s.entries segment := by
  have hfound : (Entries.get? s'.entries segment.key).getD .absent =
      (Entries.get? s.entries segment.key).getD .absent := h
  rw [step, step, hfound]

/-- A path depends on the answer of the name that it starts from. What its later
steps find lies in that answer. -/
theorem State.resolve_congr {p : Path} (h : ∀ name ∈ p.name?, s'.get name = s.get name) :
    s'.resolve p = s.resolve p := by
  obtain ⟨raw, segments⟩ := p
  cases segments with
  | nil => rfl
  | cons segment rest =>
      have hstep (hkey : ¬segment.key.isEmpty) : step s'.entries segment = step s.entries segment :=
        step_congr (h segment.key (by simp [Path.name?, hkey]))
      by_cases hempty : segment.key.isEmpty <;>
        cases rest <;> simp [resolve, follow, hempty, hstep]

/-! ## Texts -/

namespace Evaluator

variable {ev : Evaluator} {expr : String}

/-- A check that succeeds reports the tree that is evaluated. -/
theorem checkValue_of_parseValue {parsed : Parsed Expr} (h : ev.parseValue expr = .ok parsed) :
    ev.checkValue expr = .ok parsed.report :=
  map_eq_ok.mpr ⟨parsed, h, rfl⟩

theorem value?_of_names
    (h : ∀ parsed, ev.parseValue expr = .ok parsed →
      ∀ name ∈ parsed.tree.names, s'.get name = s.get name) :
    ev.value? expr s' = ev.value? expr s := by
  refine value?_congr fun parsed hread p hp => ?_
  have hfound : s'.resolve p = s.resolve p := State.resolve_congr fun name hname =>
    h parsed hread name (Expr.mem_names.mpr ⟨p, hp, hname⟩)
  rw [hfound]

/-- Updates of names that a text does not ask for leave its answer alone, in any
order and however often. -/
theorem value_run {us : List Update}
    (h : ∀ parsed, ev.parseValue expr = .ok parsed →
      ∀ u ∈ us, u.key ∉ parsed.tree.names) :
    ev.value expr (s.run us) = ev.value expr s := by
  rw [value, value, value?_of_names]
  intro parsed hread name hname
  have hlast : Update.lastOn us name = none :=
    Update.lastOn_eq_none fun u hu heq => h parsed hread u hu (heq ▸ hname)
  rw [State.get, State.get?_run, hlast]
  rfl

/-- A text is the same in two states that answer alike what its tree asks for, and a
text that is no expression in any two states. So is the reason why it is none. -/
theorem value_sees_named (ev : Evaluator) (expr : String) (s s' : State)
    (h : ∀ report, ev.checkValue expr = .ok report →
      ∀ name ∈ report.tree.names, s'.get name = s.get name) :
    ev.value expr s' = ev.value expr s ∧ ev.value? expr s' = ev.value? expr s := by
  have hsame : ev.value? expr s' = ev.value? expr s :=
    value?_of_names fun parsed hread => h parsed.report (checkValue_of_parseValue hread)
  exact ⟨by rw [value, value, hsame], hsame⟩

/-- A call that asks for four names, by an accessor, by a blank accessor, in an empty
search and in a branch that is not taken. The path behind an empty key asks for none. -/
theorem value_sees_named_call :
    ∃ (expr : String) (s s' : State), s ≠ s' ∧
      expr = "IF({home/town:display} is {/pet}, {age}, " ++
        "replaceAll({name: }, '', {pet:kind}))" ∧
      (({} : Evaluator).checkValue expr).toOption.map (·.tree.names) =
        some ["home", "age", "name", "pet"] ∧
      s.get "town" ≠ s'.get "town" ∧
      ({} : Evaluator).value expr s' = ({} : Evaluator).value expr s ∧
      ({} : Evaluator).value expr s = .text "Ada" := by
  let expr := "IF({home/town:display} is {/pet}, {age}, " ++
    "replaceAll({name: }, '', {pet:kind}))"
  let home : Value := .object [("town", .object [("display", .text "Hull")])]
  let s := State.ofPairs [("home", home), ("name", .text "Ada"), ("town", .text "Hull")]
  let s' := State.ofPairs [("name", .text "Ada"), ("display", .bool true), ("home", home)]
  have hnames : (({} : Evaluator).checkValue expr).toOption.map (·.tree.names) =
      some ["home", "age", "name", "pet"] := by decide +kernel
  have hagree : ∀ name ∈ ["home", "age", "name", "pet"], s'.get name = s.get name := by
    decide +kernel
  have hsame := value_sees_named {} expr s s' fun report hreport name hname => by
    rw [hreport] at hnames
    exact hagree name (Option.some.inj hnames ▸ hname)
  exact ⟨expr, s, s', by decide +kernel, rfl, hnames, by decide +kernel, hsame.1,
    by decide +kernel⟩

end Evaluator

end FormLogic
