import FormLogic.CommandLine.Arguments
import FormLogic.Error
import FormLogic.Form.Gates
import FormLogic.Form.Seeding
import FormLogic.Json.Printer
import FormLogic.Yaml.Document
import FormLogic.Yaml.Printer

/-!
# FormLogic.CommandLine.Run

What a command line prints and how it ends, given the texts of the files it
names. A file whose name ends in `.yaml` or `.yml` holds YAML, every other one
JSON.
-/

namespace FormLogic.CommandLine

open Text

/-- What a run leaves behind: its output, the warnings beside it, and the error
or the misuse that ended it. -/
structure Outcome where
  output : String := ""
  warnings : List String := []
  error : Option Error := none
  misused : Bool := false
deriving DecidableEq, Repr

/-- The exit code of a run. -/
def Outcome.exitCode (o : Outcome) : UInt8 :=
  if o.misused then 2
  else match o.error with
    | none => 0
    | some (.io _) => 3
    | some _ => 1

/-- A run that ended with its output. -/
def Outcome.ofResult : Except Error Outcome → Outcome
  | .ok o => o
  | .error e => { error := some e }

/-- How files are read: the text of a file, or why there is none. -/
abbrev Files := String → Except String String

/-! ## Files -/

/-- The part of a file's name behind its last point, if something stands in
front of that. -/
def extension? (path : String) : Option String :=
  let file := (splitAt '/' path.toList).getLastD []
  match (splitAt '.' file).reverse with
  | last :: second :: more =>
    if second.isEmpty ∧ more.isEmpty then none else some (String.ofList last)
  | _ => none

/-- Whether a file holds YAML. -/
def isYaml (path : String) : Bool :=
  extension? path == some "yaml" || extension? path == some "yml"

/-- The text of a file. -/
def readFile (files : Files) (path : String) : Except Error String :=
  (files path).mapError fun why => .io ("failed to read " ++ path ++ ": " ++ why)

/-- The form of a file. -/
def loadForm (files : Files) (path : String) : Except Error Form := do
  let text ← readFile files path
  (if isYaml path then Form.ofYamlText? text else Form.ofJsonText? text).mapError .invalidForm

/-- The answers of a file. -/
def loadAnswers (files : Files) (path : String) : Except Error State := do
  let text ← readFile files path
  (if isYaml path then State.ofYamlText? text else State.ofJsonText? text).mapError .invalidState

/-- The texts between the commas of a value, without the blanks around them; an
empty value has none. -/
def listItems (value : String) : List String :=
  if value.isEmpty then [] else (splitAt ',' value.toList).map fun s => String.ofList (trim s)

/-- The answers that arguments give on top of others: the texts first, then the
lists. -/
def StateArguments.applyTo (args : StateArguments) (base : State) : State :=
  let s := args.set.foldl (fun s kv => s.set kv.1 (.text kv.2)) base
  args.setList.foldl (fun s kv => s.set kv.1 (.list (listItems kv.2))) s

/-- The answers that arguments give. -/
def StateArguments.load (files : Files) (args : StateArguments) : Except Error State := do
  let base ← match args.file with
    | some path => loadAnswers files path
    | none => pure .empty
  return args.applyTo base

/-! ## Commands -/

/-- One line. -/
def line (s : String) : String := s ++ "\n"

/-- A number with blanks in front, at least `width` characters wide. -/
def padLeft (width n : Nat) : String :=
  let ds := toString n
  String.ofList (List.replicate (width - ds.length) ' ') ++ ds

/-- A number with blanks behind, at least `width` characters wide. -/
def padRight (width n : Nat) : String :=
  let ds := toString n
  ds ++ String.ofList (List.replicate (width - ds.length) ' ')

/-- A warning with its place. -/
def warningLine (w : Warning) : String :=
  "warning: " ++ w.message ++ " (<expr>:" ++ toString w.line ++ ":" ++ toString w.column ++ ")"

/-- The canonical text of a tree, and the warnings of reading it. -/
def checked {τ : Type} (canonical : τ → String) (r : Except SourceFault (Report τ)) :
    Except Error Outcome := do
  let r ← r.mapError .expression
  return { output := line (canonical r.tree), warnings := r.warnings.map warningLine }

/-- The tokens of an expression, one a line, and the warnings of reading them. -/
def listed {κ : Type} [TokenKind κ] (lexed : Lexed κ) : Outcome where
  output := String.join <| lexed.tokens.map fun t =>
    line (padLeft 4 t.span.line ++ ":" ++ padRight 3 t.span.column ++ "  "
      ++ TokenKind.text t.kind)
  warnings := lexed.anomalies.map fun a => warningLine a.warning

/-- A text without the blanks at its end. -/
def trimmedEnd (s : String) : String :=
  String.ofList (trimEnd s.toList)

/-- The line for a field that is shown. -/
def fieldLine (s : State) (f : Field) : String :=
  line <| trimmedEnd <| f.dataName ++ "  " ++ f.label
    ++ (if f.isRequired s then " [required]" else "")
    ++ (if f.isReadOnly s then " [read-only]" else "")

/-- The line for a section that is shown. -/
def sectionLine (p : Nat × Section) : String :=
  line (padLeft 3 p.1 ++ "  " ++ p.2.title)

/-- Run a command. -/
def Command.run (files : Files) : Command → Except Error Outcome
  | .condition expr state strict => do
    let s ← state.load files
    return { output := line (toString (({ strict } : Evaluator).condition expr s)) }
  | .value expr state strict => do
    let s ← state.load files
    return { output := line (({ strict } : Evaluator).value expr s).toJson.text }
  | .check expr .condition strict =>
    checked Condition.canonical (({ strict } : Evaluator).checkCondition expr)
  | .check expr .value strict =>
    checked Expr.canonical (({ strict } : Evaluator).checkValue expr)
  | .lex expr .condition => .ok (listed (Condition.lex expr))
  | .lex expr .value => .ok (listed (Expr.lex expr))
  | .initState path format => do
    let form ← loadForm files path
    let s := form.initialState
    let text := match format with
      | .json => s.toJson.prettyText
      | .yaml => Yaml.stateText s
    return { output := line (trimmedEnd text) }
  | .visible path state sectionIndex => do
    let form ← loadForm files path
    let s ← state.load files
    match sectionIndex with
    | none => return { output := String.join ((form.visibleSections s).map sectionLine) }
    | some i =>
      match form.sections[i]? with
      | none => throw (.invalidForm (.noSection i form.sections.length))
      | some x => return { output := String.join ((x.visibleFields s).map (fieldLine s)) }

/-- The files that a command reads. -/
def Command.files : Command → List String
  | .condition _ state _ => state.file.toList
  | .value _ state _ => state.file.toList
  | .check .. => []
  | .lex .. => []
  | .initState form _ => [form]
  | .visible form state _ => form :: state.file.toList

/-- The name and the version of the program. -/
def versionText : String := "formexpr 0.1.0"

/-- How to use the program. -/
def usageText : String :=
  "Usage: formexpr <condition|value|check|lex|init-state|visible> [ARGUMENTS]"

/-- Run a command line. -/
def run (files : Files) (args : List String) : Outcome :=
  match Command.ofArguments args with
  | .ok command => .ofResult (command.run files)
  | .error .misuse => { misused := true }
  | .error .help => { output := line usageText }
  | .error .version => { output := line versionText }

end FormLogic.CommandLine
