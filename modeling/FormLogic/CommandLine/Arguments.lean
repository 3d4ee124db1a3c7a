/-!
# FormLogic.CommandLine.Arguments

Commands from the arguments of a command line. Arguments are read from the
left, so the first one that is wrong, or asks for help, decides. An option's
value follows behind `=` or as the next argument, which must not look like an
option; everything behind `--` is a value.
-/

namespace FormLogic.CommandLine

/-- The language of an expression. -/
inductive Language where
  | condition
  | value
deriving DecidableEq, Repr

/-- The format of answers that are printed. -/
inductive OutputFormat where
  | json
  | yaml
deriving DecidableEq, Repr

/-- The answers that a command line gives. -/
structure StateArguments where
  /-- A file of answers. -/
  file : Option String := none
  /-- Answers of one text. -/
  set : List (String × String) := []
  /-- Answers of several texts, separated by commas. -/
  setList : List (String × String) := []
deriving DecidableEq, Repr

/-- What a command line asks for. -/
inductive Command where
  | condition (expr : String) (state : StateArguments) (strict : Bool)
  | value (expr : String) (state : StateArguments) (strict : Bool)
  | check (expr : String) (language : Language) (strict : Bool)
  | lex (expr : String) (language : Language)
  | initState (form : String) (format : OutputFormat)
  | visible (form : String) (state : StateArguments) (sectionIndex : Option Nat)
deriving DecidableEq, Repr

/-- Why there is no command to run. -/
inductive Stop where
  /-- The arguments make no command. -/
  | misuse
  /-- The arguments ask how to use the program. -/
  | help
  /-- The arguments ask for the version. -/
  | version
deriving DecidableEq, Repr

/-! ## Values of options -/

/-- A key and its value, cut at the first equals sign. -/
def keyValue? (s : String) : Option (String × String) :=
  let cs := s.toList
  match cs.dropWhile (· != '=') with
  | [] => none
  | _ :: value => some (String.ofList (cs.takeWhile (· != '=')), String.ofList value)

/-- A natural number of 64 bits. -/
def index? (s : String) : Option Nat :=
  let digits := match s.toList with
    | '+' :: rest => rest
    | cs => cs
  if digits.isEmpty || !digits.all Char.isDigit then none
  else
    let n := digits.foldl (fun n c => n * 10 + (c.toNat - '0'.toNat)) 0
    if n ≤ 0xFFFFFFFFFFFFFFFF then some n else none

/-- The language that a word names. -/
def Language.ofWord? (s : String) : Option Language :=
  if s = "condition" then some .condition else if s = "value" then some .value else none

/-- The format that a word names. -/
def OutputFormat.ofWord? (s : String) : Option OutputFormat :=
  if s = "json" then some .json else if s = "yaml" then some .yaml else none

/-! ## Drafts -/

/-- The names of the commands. -/
inductive CommandName where
  | condition
  | value
  | check
  | lex
  | initState
  | visible
deriving DecidableEq, Repr

/-- The command that a word names. -/
def CommandName.ofWord? (s : String) : Option CommandName :=
  match s with
  | "condition" => some .condition
  | "value" => some .value
  | "check" => some .check
  | "lex" => some .lex
  | "init-state" => some .initState
  | "visible" => some .visible
  | _ => none

/-- The options that take a value. -/
def CommandName.options : CommandName → List String
  | .condition => ["state", "set", "set-list"]
  | .value => ["state", "set", "set-list"]
  | .check => ["lang"]
  | .lex => ["lang"]
  | .initState => ["format"]
  | .visible => ["state", "set", "set-list", "section"]

/-- Whether the command may be strict. -/
def CommandName.hasStrict : CommandName → Bool
  | .condition => true
  | .value => true
  | .check => true
  | _ => false

/-- The arguments read so far. -/
structure Draft where
  subject : Option String := none
  state : StateArguments := {}
  strict : Bool := false
  language : Option Language := none
  format : Option OutputFormat := none
  sectionIndex : Option Nat := none

/-- Whether the command works on a form, so that its subject is a file. -/
def CommandName.takesForm : CommandName → Bool
  | .initState => true
  | .visible => true
  | _ => false

/-- Put the value of an option that may stand once. -/
def putOnce {α : Type} (slot : Option α) (value : Option α) : Except Stop (Option α) :=
  match slot, value with
  | none, some a => .ok (some a)
  | _, _ => .error .misuse

/-- A text that names a file. -/
def fileName? (s : String) : Option String :=
  if s.isEmpty then none else some s

/-- Put the value of an option. -/
def Draft.putOption (d : Draft) (name value : String) : Except Stop Draft :=
  match name with
  | "state" => do
    return { d with state.file := ← putOnce d.state.file (fileName? value) }
  | "set" =>
    match keyValue? value with
    | some kv => .ok { d with state.set := d.state.set ++ [kv] }
    | none => .error .misuse
  | "set-list" =>
    match keyValue? value with
    | some kv => .ok { d with state.setList := d.state.setList ++ [kv] }
    | none => .error .misuse
  | "lang" => do return { d with language := ← putOnce d.language (Language.ofWord? value) }
  | "format" => do return { d with format := ← putOnce d.format (OutputFormat.ofWord? value) }
  | "section" => do return { d with sectionIndex := ← putOnce d.sectionIndex (index? value) }
  | _ => .error .misuse

/-- Put a value that belongs to no option. -/
def Draft.putSubject (d : Draft) (name : CommandName) (value : String) : Except Stop Draft := do
  return { d with
    subject := ← putOnce d.subject (if name.takesForm then fileName? value else some value) }

/-! ## Arguments -/

/-- Whether an argument looks like an option. -/
def looksLikeOption (s : String) : Bool :=
  match s.toList with
  | '-' :: _ :: _ => true
  | _ => false

/-- What an argument is. -/
inductive Argument where
  /-- `--` -/
  | escape
  /-- `--name` or `--name=value` -/
  | long (name : String) (value : Option String)
  /-- `-x` with the characters behind it -/
  | short (letter : Char) (rest : List Char)
  | word (s : String)

/-- What an argument is. -/
def Argument.ofText (s : String) : Argument :=
  match s.toList with
  | ['-', '-'] => .escape
  | '-' :: '-' :: rest =>
    let name := String.ofList (rest.takeWhile (· != '='))
    match rest.dropWhile (· != '=') with
    | [] => .long name none
    | _ :: value => .long name (some (String.ofList value))
  | '-' :: letter :: rest => .short letter rest
  | _ => .word s

/-- What an argument asks of a command. -/
inductive Request where
  /-- Everything behind it is a value. -/
  | escape
  /-- Put the value of an option, which may be the next argument. -/
  | option (name : String) (value : Option String)
  /-- Be strict. -/
  | strict
  /-- Put a value that belongs to no option. -/
  | word (s : String)
  | stop (why : Stop)

/-- What an argument asks of a command. -/
def CommandName.request (name : CommandName) : Argument → Request
  | .escape => .escape
  | .long long given =>
    if long ∈ name.options then .option long given
    else if given.isSome then .stop .misuse
    else if long = "help" then .stop .help
    else if long = "strict" ∧ name.hasStrict then .strict
    else .stop .misuse
  | .short letter more =>
    if letter = 'h' then .stop .help
    else if letter = 'f' ∧ name = .initState then
      .option "format" <| match more with
        | [] => none
        | '=' :: given => some (String.ofList given)
        | given => some (String.ofList given)
    else .stop .misuse
  | .word s => .word s

/-- Read the arguments of a command. -/
def readArguments (name : CommandName) : Draft → List String → Except Stop Draft
  | d, [] => .ok d
  | d, arg :: rest =>
    match name.request (.ofText arg), rest with
    | .escape, rest => rest.foldlM (fun d v => d.putSubject name v) d
    | .option _ none, [] => .error .misuse
    | .option option none, v :: rest =>
      if looksLikeOption v then .error .misuse
      else do readArguments name (← d.putOption option v) rest
    | .option option (some v), rest => do readArguments name (← d.putOption option v) rest
    | .strict, rest =>
      if d.strict then .error .misuse else readArguments name { d with strict := true } rest
    | .word s, rest => do readArguments name (← d.putSubject name s) rest
    | .stop why, _ => .error why

/-- The command that a draft describes. -/
def Draft.finish (d : Draft) (name : CommandName) : Except Stop Command :=
  match d.subject with
  | none => .error .misuse
  | some subject =>
    let language := d.language.getD .condition
    .ok <| match name with
      | .condition => .condition subject d.state d.strict
      | .value => .value subject d.state d.strict
      | .check => .check subject language d.strict
      | .lex => .lex subject language
      | .initState => .initState subject (d.format.getD .json)
      | .visible => .visible subject d.state d.sectionIndex

/-- The command of a command line. -/
def Command.ofArguments (args : List String) : Except Stop Command :=
  match args with
  | [] => .error .misuse
  | first :: rest =>
    match CommandName.ofWord? first with
    | some name => do (← readArguments name {} rest).finish name
    | none =>
      match Argument.ofText first with
      | .long "help" none => .error .help
      | .long "version" none => .error .version
      | .short 'h' _ => .error .help
      | .short 'V' _ => .error .version
      | .word "help" =>
        match rest with
        | [] => .error .help
        | [w] =>
          if w = "help" ∨ (CommandName.ofWord? w).isSome then .error .help else .error .misuse
        | _ => .error .misuse
      | _ => .error .misuse

end FormLogic.CommandLine
