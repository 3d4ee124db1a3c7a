import FormLogic.CommandLine.Run
import FormLogic.Proofs.Text.Blank
import FormLogic.Proofs.Updates
import Mathlib.Data.List.Forall2

/-!
# FormLogic.Proofs.CommandLine.Assignment

Answers that a command line gives on top of those of a file. Its assignments are
gathered by their kind, each kind in order (`readArguments_flatten`, `assigned_eq`), and
loading is a run of updates: the texts first, then the lists (`load_assigned`). So the
last list of a name decides, else its last text, else the file, whatever the order
of the arguments (`assignments_override`).
-/

namespace FormLogic.CommandLine

open Text

/-! ## Assignments -/

/-- An answer that an argument gives: `--set key=value` gives one text,
`--set-list key=value` the texts between the commas of the value. -/
structure Assignment where
  isList : Bool
  key : String
  value : String
deriving DecidableEq, Repr

namespace Assignment

/-- The name of its option. -/
def option (a : Assignment) : String :=
  if a.isList then "set-list" else "set"

/-- The value of its option. -/
def text (a : Assignment) : String :=
  a.key ++ "=" ++ a.value

/-- The answer that it gives. -/
def answer (a : Assignment) : Value :=
  if a.isList then .list (listItems a.value) else .text a.value

/-- How an assignment stands in a command line: as one argument, or as two when the
second one does not look like an option. The key holds no equals sign, the value may. -/
inductive Written (a : Assignment) : List String → Prop
  | joined : '=' ∉ a.key.toList → Written a ["--" ++ a.option ++ "=" ++ a.text]
  | apart : '=' ∉ a.key.toList → looksLikeOption a.text = false →
      Written a ["--" ++ a.option, a.text]

/-- The assignments of one kind, in order. -/
def ofKind (isList : Bool) (as : List Assignment) : List Assignment :=
  as.filter (·.isList = isList)

/-- The value that the last assignment of a kind gives to a name. -/
def lastValue (isList : Bool) (as : List Assignment) (key : String) : Option String :=
  ((ofKind isList as).reverse.find? (·.key = key)).map (·.value)

end Assignment

/-- The arguments with one assignment more. -/
def StateArguments.assign (args : StateArguments) (a : Assignment) : StateArguments :=
  if a.isList then { args with setList := args.setList ++ [(a.key, a.value)] }
  else { args with set := args.set ++ [(a.key, a.value)] }

/-- The arguments with some assignments more. -/
def StateArguments.assigned (args : StateArguments) (as : List Assignment) : StateArguments :=
  as.foldl assign args

/-! ## Reading -/

/-- What stands in front of the first equals sign, and what stands behind it. -/
theorem cut_at_equals {front : String} (h : '=' ∉ front.toList) (value : String) :
    (front ++ "=" ++ value).toList.takeWhile (· != '=') = front.toList ∧
      (front ++ "=" ++ value).toList.dropWhile (· != '=') = '=' :: value.toList := by
  have hfront : ∀ c ∈ front.toList, (c != '=') = true := fun c hc => by
    simpa using fun heq : c = '=' => h (heq ▸ hc)
  have htext : (front ++ "=" ++ value).toList = front.toList ++ '=' :: value.toList := by simp
  rw [htext, List.takeWhile_append_of_pos hfront, List.dropWhile_append_of_pos hfront]
  simp

theorem keyValue?_eq {key : String} (h : '=' ∉ key.toList) (value : String) :
    keyValue? (key ++ "=" ++ value) = some (key, value) := by
  rw [keyValue?, (cut_at_equals h value).1, (cut_at_equals h value).2]
  simp

/-- A pair is cut at its first equals sign, and there is none without one. -/
theorem keyValue?_eq_some {text key value : String} :
    keyValue? text = some (key, value) ↔ '=' ∉ key.toList ∧ text = key ++ "=" ++ value := by
  constructor
  · intro h
    rw [keyValue?] at h
    cases hdrop : text.toList.dropWhile (· != '=') with
    | nil =>
        rw [hdrop] at h
        contradiction
    | cons c rest =>
        rw [hdrop, Option.some.injEq, Prod.mk.injEq] at h
        obtain ⟨rfl, rfl⟩ := h
        have hc : c = '=' := by
          have hhead := List.head?_dropWhile_not (· != '=') text.toList
          rw [hdrop] at hhead
          simpa using hhead
        have hkey : '=' ∉ text.toList.takeWhile (· != '=') := fun hmem => by
          simpa using List.mem_takeWhile_imp hmem
        refine ⟨by rwa [String.toList_ofList], String.toList_inj.mp ?_⟩
        have hsplit := List.takeWhile_append_dropWhile (p := (· != '=')) (l := text.toList)
        rw [hdrop, hc] at hsplit
        simpa using hsplit.symm
  · rintro ⟨hkey, rfl⟩
    exact keyValue?_eq hkey value

theorem ofText_joined (a : Assignment) :
    Argument.ofText ("--" ++ a.option ++ "=" ++ a.text) = .long a.option (some a.text) := by
  have hoption : '=' ∉ a.option.toList := by
    rw [Assignment.option]
    cases a.isList <;> decide +kernel
  have htext : ("--" ++ a.option ++ "=" ++ a.text).toList =
      '-' :: '-' :: (a.option ++ "=" ++ a.text).toList := by simp
  obtain ⟨htake, hdrop⟩ := cut_at_equals hoption a.text
  obtain ⟨c, cs, hcons⟩ := List.exists_cons_of_ne_nil
    (show (a.option ++ "=" ++ a.text).toList ≠ [] by simp)
  -- the dashes are matched against a text with a character behind them
  rw [hcons] at htext htake hdrop
  rw [Argument.ofText, htext]
  simp only [htake, hdrop, String.ofList_toList]

theorem ofText_option (a : Assignment) :
    Argument.ofText ("--" ++ a.option) = .long a.option none := by
  rw [Assignment.option]
  cases a.isList <;> rfl

theorem putOption_assignment (d : Draft) {a : Assignment} (h : '=' ∉ a.key.toList) :
    d.putOption a.option a.text = .ok { d with state := d.state.assign a } := by
  have hpair : keyValue? a.text = some (a.key, a.value) := keyValue?_eq h a.value
  rw [Assignment.option, StateArguments.assign]
  cases a.isList <;> simp [Draft.putOption, hpair]

/-- The commands that work on answers. -/
def CommandName.TakesAnswers (name : CommandName) : Prop :=
  "set" ∈ name.options ∧ "set-list" ∈ name.options

instance (name : CommandName) : Decidable name.TakesAnswers :=
  inferInstanceAs (Decidable (_ ∧ _))

/-- An assignment is read wherever it stands. -/
theorem readArguments_written {name : CommandName} (hname : name.TakesAnswers) {a : Assignment}
    {words : List String} (hwritten : a.Written words) (d : Draft) (rest : List String) :
    readArguments name d (words ++ rest) =
      readArguments name { d with state := d.state.assign a } rest := by
  have hoption : a.option ∈ name.options := by
    rw [Assignment.option]
    cases a.isList with
    | true => exact hname.2
    | false => exact hname.1
  have hrequest : ∀ given, name.request (.long a.option given) = .option a.option given :=
    fun _ => if_pos hoption
  cases hwritten with
  | joined hkey =>
      rw [List.singleton_append, readArguments.eq_def]
      simp only [ofText_joined, hrequest, putOption_assignment d hkey]
      rfl
  | apart hkey hlooks =>
      rw [List.cons_append, List.singleton_append, readArguments.eq_def]
      simp only [ofText_option, hrequest, if_neg (Bool.eq_false_iff.mp hlooks),
        putOption_assignment d hkey]
      rfl

/-- Some assignments are gathered one after another. -/
theorem readArguments_flatten {name : CommandName} (hname : name.TakesAnswers)
    {as : List Assignment} {words : List (List String)}
    (hwritten : List.Forall₂ Assignment.Written as words) (d : Draft) (rest : List String) :
    readArguments name d (words.flatten ++ rest) =
      readArguments name { d with state := d.state.assigned as } rest := by
  induction hwritten generalizing d with
  | nil => rfl
  | cons ha _ ih =>
      rw [List.flatten_cons, List.append_assoc, readArguments_written hname ha, ih]
      rfl

/-! ## Loading -/

/-- Each kind of assignments is gathered in order. -/
theorem assigned_eq (args : StateArguments) (as : List Assignment) :
    args.assigned as =
      { file := args.file
        set := args.set ++ (Assignment.ofKind false as).map fun a => (a.key, a.value)
        setList := args.setList ++ (Assignment.ofKind true as).map fun a => (a.key, a.value) } := by
  induction as generalizing args with
  | nil => simp [StateArguments.assigned, Assignment.ofKind]
  | cons a as ih =>
      have hstep : args.assigned (a :: as) = (args.assign a).assigned as := rfl
      rw [hstep, ih, StateArguments.assign]
      cases ha : a.isList <;> simp [ha, Assignment.ofKind]

namespace Assignment

/-- What an assignment does to the answers. -/
def update (a : Assignment) : Update :=
  .set a.key a.answer

/-- The updates of some assignments: the texts first, then the lists. -/
def updates (as : List Assignment) : List Update :=
  (ofKind false as ++ ofKind true as).map update

variable {isList : Bool} {as : List Assignment}

theorem answer_of_mem {a : Assignment} (h : a ∈ ofKind isList as) :
    a.answer = if isList then .list (listItems a.value) else .text a.value := by
  have hkind : a.isList = isList := by simpa using (List.mem_filter.mp h).2
  rw [answer, hkind]

theorem run_ofKind (isList : Bool) (as : List Assignment) (s : State) :
    s.run ((ofKind isList as).map update) = (ofKind isList as).foldl (fun s a =>
      s.set a.key (if isList then .list (listItems a.value) else .text a.value)) s := by
  rw [State.run, List.foldl_map]
  refine List.foldl_ext _ _ _ fun s a ha => ?_
  rw [update, Update.perform, State.replace_eq, answer_of_mem ha]

/-- The last update of a name by one kind. -/
theorem lastOn_ofKind (isList : Bool) (as : List Assignment) (key : String) :
    Update.lastOn ((ofKind isList as).map update) key = (lastValue isList as key).map fun value =>
      .set key (if isList then .list (listItems value) else .text value) := by
  have hlast : Update.lastOn ((ofKind isList as).map update) key =
      ((ofKind isList as).reverse.find? (·.key = key)).map update := by
    rw [Update.lastOn, ← List.map_reverse, List.find?_map]
    rfl
  rw [hlast, lastValue, Option.map_map]
  cases hfind : (ofKind isList as).reverse.find? (·.key = key) with
  | none => rfl
  | some a =>
      have hmem : a ∈ ofKind isList as := List.mem_reverse.mp (List.mem_of_find?_eq_some hfind)
      have hkey : a.key = key := by simpa using List.find?_some hfind
      simp [update, answer_of_mem hmem, hkey]

end Assignment

/-- Loading does the updates of the texts first, and then those of the lists. -/
theorem applyTo_assigned (file : Option String) (as : List Assignment) (base : State) :
    (({ file } : StateArguments).assigned as).applyTo base =
      base.run (Assignment.updates as) := by
  rw [Assignment.updates, List.map_append, State.run_append, Assignment.run_ofKind,
    Assignment.run_ofKind, assigned_eq]
  simp [StateArguments.applyTo, List.foldl_map]

/-- The answers of the file that a command line names, or none without a file. -/
def IsBase (files : Files) : Option String → State → Prop
  | none, base => base = .empty
  | some path, base => loadAnswers files path = .ok base

theorem load_assigned {files : Files} {file : Option String} {base : State}
    (h : IsBase files file base) (as : List Assignment) :
    (({ file } : StateArguments).assigned as).load files =
      .ok (base.run (Assignment.updates as)) := by
  have hfile : (({ file } : StateArguments).assigned as).file = file := by rw [assigned_eq]
  rw [StateArguments.load, hfile, ← applyTo_assigned file]
  cases file with
  | none =>
      obtain rfl := h
      rfl
  | some path =>
      have hloaded : loadAnswers files path = .ok base := h
      simp only [hloaded]
      rfl

/-! ## Lists -/

/-- The items of a list: the texts between the commas of a value, without the blanks
around them. An empty value has none. -/
def IsItems (value : String) (items : List String) : Prop :=
  if value = "" then items = []
  else ∃ pieces : List (List Char), (∀ p ∈ pieces, ',' ∉ p) ∧
    [','].intercalate pieces = value.toList ∧ items = pieces.map fun p => String.ofList (trim p)

theorem isItems_listItems (value : String) : IsItems value (listItems value) := by
  rw [IsItems, listItems]
  split
  · next hvalue => simp [hvalue]
  · next hvalue =>
      rw [if_neg (by simpa using hvalue)]
      refine ⟨splitAt ',' value.toList, fun p hp hcomma => ?_, ?_, rfl⟩
      · have hfalse := eq_false_of_mem_splitWhere hp ',' hcomma
        contradiction
      · rw [splitAt_eq_splitOn, List.intercalate_splitOn]

/-! ## Overriding -/

/-- The answers behind some assignments on top of others. -/
structure Overrides (base : State) (as : List Assignment) (s : State) : Prop where
  /-- The last list of a name decides, else its last text, else the base. -/
  get : ∀ key, s.get key =
    match Assignment.lastValue true as key, Assignment.lastValue false as key with
    | some value, _ => .list (listItems value)
    | none, some value => .text value
    | none, none => base.get key
  /-- New names stand behind those of the base in the order in which they come first,
  those of texts in front of those of lists. -/
  keys : Entries.keys s.entries = Entries.keys base.entries ++
    (((Assignment.ofKind false as ++ Assignment.ofKind true as).map (·.key)).filter
      (· ∉ Entries.keys base.entries)).eraseDups

theorem overrides_run (base : State) (as : List Assignment) :
    Overrides base as (base.run (Assignment.updates as)) := by
  constructor
  · intro key
    rw [State.get, State.get?_run, Assignment.updates, List.map_append, Update.lastOn_append,
      Assignment.lastOn_ofKind, Assignment.lastOn_ofKind]
    cases Assignment.lastValue true as key with
    | some value => rfl
    | none => cases Assignment.lastValue false as key <;> rfl
  · have hanswers : ∀ u ∈ Assignment.updates as, u.value?.isSome := by
      intro u hu
      obtain ⟨a, -, rfl⟩ := List.mem_map.mp hu
      rfl
    rw [State.keys_run base hanswers, Assignment.updates, List.map_map]
    rfl

/-- The answers that a command line gives on top of those of a file, or of none. Its
assignments are gathered wherever they stand, each cut at its first equals sign. Loading
overrides the base with them: the last list of a name decides, else its last text. -/
theorem assignments_override {name : CommandName} (hname : name.TakesAnswers)
    {as : List Assignment} {words : List (List String)}
    (hwritten : List.Forall₂ Assignment.Written as words) :
    (∀ (d : Draft) (rest : List String), readArguments name d (words.flatten ++ rest) =
        readArguments name { d with state := d.state.assigned as } rest) ∧
      (∀ text key value, keyValue? text = some (key, value) ↔
        '=' ∉ key.toList ∧ text = key ++ "=" ++ value) ∧
      (∀ (files : Files) (file : Option String) (base : State), IsBase files file base →
        ∃ s, (({ file } : StateArguments).assigned as).load files = .ok s ∧
          Overrides base as s) ∧
      ∀ value, IsItems value (listItems value) :=
  ⟨readArguments_flatten hname hwritten, fun _ _ _ => keyValue?_eq_some,
    fun _ _ base hbase => ⟨_, load_assigned hbase as, overrides_run base as⟩, isItems_listItems⟩

/-- Names that are given more than once, out of order, and with an equals sign in a
value. -/
theorem assignments_override_repeated :
    ∃ (files : Files) (base s : State) (d : Draft),
      loadAnswers files "answers.json" = .ok base ∧
      Entries.keys base.entries = ["k", "m"] ∧
      readArguments .value {} ["--state", "answers.json", "--set-list", "j=1", "--set=n=x=y",
        "--set-list=k=a, b", "--set", "k=c", "--set-list", "m="] = .ok d ∧
      d.state.load files = .ok s ∧
      s.get "k" = .list ["a", "b"] ∧ s.get "m" = .list [] ∧ s.get "n" = .text "x=y" ∧
      Entries.keys s.entries = ["k", "m", "n", "j"] := by
  let files : Files := fun _ => .ok "\x7b\"k\": \"0\", \"m\": true\x7d"
  let base : State := ⟨[("k", .text "0"), ("m", .bool true)], by decide⟩
  let as : List Assignment := [⟨true, "j", "1"⟩, ⟨false, "n", "x=y"⟩, ⟨true, "k", "a, b"⟩,
    ⟨false, "k", "c"⟩, ⟨true, "m", ""⟩]
  have hbase : IsBase files (some "answers.json") base := by
    show loadAnswers files "answers.json" = .ok base
    decide +kernel
  have hwritten : List.Forall₂ Assignment.Written as [["--set-list", "j=1"], ["--set=n=x=y"],
      ["--set-list=k=a, b"], ["--set", "k=c"], ["--set-list", "m="]] :=
    .cons (.apart (by decide) (by decide)) <| .cons (.joined (by decide)) <|
      .cons (.joined (by decide)) <| .cons (.apart (by decide) (by decide)) <|
      .cons (.apart (by decide) (by decide)) .nil
  have htakes : CommandName.TakesAnswers .value := by decide
  obtain ⟨hread, -, hload, -⟩ := assignments_override htakes hwritten
  obtain ⟨s, hs, hget, hkeys⟩ := hload files (some "answers.json") base hbase
  refine ⟨files, base, s, _, hbase, rfl, hread { state := { file := some "answers.json" } } [], hs,
    (hget "k").trans ?_, (hget "m").trans ?_, (hget "n").trans ?_, hkeys.trans ?_⟩
  all_goals decide +kernel

end FormLogic.CommandLine
