import FormLogic.Form.Printer
import FormLogic.Form.Reader
import FormLogic.Proofs.Json.RoundTrip

/-!
# FormLogic.Proofs.Form.RoundTrip

Forms read back from their JSON texts. A form, a section, a field and a choice are
printed as members one behind another, and reading puts them one after another into a
draft; `Fills put d members d'` says that this takes the draft `d` to `d'`. A setting
that is absent is not printed and leaves its slot empty, which stands for the same
(`fills_optional`). The settings of a field's kind stand beside those of the field:
they pass through the draft of the field (`FieldDraft.put_other`), because no type has
a setting with the name of one of these (`not_mem_names_of_mem_settings`).
-/

namespace FormLogic

/-! ## Filling a draft -/

section
variable {δ α : Type} {put : δ → String → Node → Read δ} {d d' d'' : δ}
  {xs ys : List (String × Json)} {name : String}

/-- The members put one after another into the draft `d` make the draft `d'`. -/
def Fills (put : δ → String → Node → Read δ) (d : δ) (members : List (String × Json))
    (d' : δ) : Prop :=
  members.foldlM (fun d m => put d m.1 (Node.ofJson m.2)) d = .ok d'

theorem fills_nil : Fills put d [] d := rfl

theorem Fills.append (hx : Fills put d xs d') (hy : Fills put d' ys d'') :
    Fills put d (xs ++ ys) d'' := by
  unfold Fills at *
  rw [List.foldlM_append, hx]
  exact hy

/-- One more member fills an empty slot with what is read from it. -/
theorem Fills.member (h : Fills put d xs d') (name : String) {read : Node → Read α} {j : Json}
    {a : α} (set : δ → Option α → δ)
    (hput : ∀ n, put d' name n = set d' <$> once name none (read n))
    (hread : read (Node.ofJson j) = .ok a) :
    Fills put d (xs ++ [(name, j)]) (set d' (some a)) := by
  refine h.append ?_
  show (put d' name (Node.ofJson j) >>= pure) = _
  rw [hput, hread]
  rfl

/-- A member that is there only when the setting is fills an empty slot with the
setting, and no member leaves it empty. -/
theorem Fills.optional (h : Fills put d xs d') (name : String) {read : Node → Read α}
    {write : α → Json} (set : δ → Option (Option α) → δ) (hempty : set d' none = d')
    (hput : ∀ n, put d' name n = set d' <$> once name none (readOptional read n))
    (hread : ∀ a, readOptional read (Node.ofJson (write a)) = .ok (some a)) (o : Option α) :
    Fills put d (xs ++ optionalMember name write o) (set d' (o.map some)) := by
  cases o with
  | none => exact h.append (congrArg Except.ok hempty.symm)
  | some a => exact h.member name set hput (hread a)

theorem ofJsonMembers_eq (members : List (String × Json)) :
    Node.ofJsonMembers members = members.map fun m => (Node.ofText m.1, Node.ofJson m.2) := by
  induction members with
  | nil => rfl
  | cons m ms ih => rw [Node.ofJsonMembers, ih, List.map_cons]

theorem ofJsonItems_eq (items : List Json) : Node.ofJsonItems items = items.map Node.ofJson := by
  induction items with
  | nil => rfl
  | cons j js ih => rw [Node.ofJsonItems, ih, List.map_cons]

/-- The members of a JSON object are read as settings with their own names. -/
theorem Fills.readSettings {names : List String} (h : Fills put d xs d') :
    readSettings names put d (Node.ofJsonMembers xs) = .ok d' := by
  rw [ofJsonMembers_eq, FormLogic.readSettings, List.foldlM_map]
  exact h

/-- Items that are read back one by one are read back together. -/
theorem readItems_map {read : Node → Read α} {write : α → Json} {as : List α}
    (h : ∀ a ∈ as, read (Node.ofJson (write a)) = .ok a) :
    readItems read (Node.ofJson (.array (as.map write))) = .ok as := by
  show (Node.ofJsonItems (as.map write)).mapM read = .ok as
  induction as with
  | nil => rfl
  | cons a as ih =>
      obtain ⟨ha, has⟩ := List.forall_mem_cons.mp h
      rw [List.map_cons, Node.ofJsonItems, List.mapM_cons, ha, ih has]
      rfl

end

theorem readText_string (s : String) : readText (Node.ofJson (.string s)) = .ok s := rfl

theorem readBool_bool (b : Bool) : readBool (Node.ofJson (.bool b)) = .ok b := rfl

theorem readOptional_text (s : String) :
    readOptional readText (Node.ofJson (.string s)) = .ok (some s) := rfl

theorem readOptional_count (n : UInt32) :
    readOptional readCount (Node.ofJson (countJson n)) = .ok (some n) := by
  have hfits : (0 : Int) ≤ n.toNat ∧ (n.toNat : Int) ≤ 0xFFFFFFFF := by
    have hlt := n.toNat_lt
    omega
  have hcount : readCount (Node.ofJson (countJson n)) = .ok n := by
    show (if _ then _ else _ : Read UInt32) = _
    rw [if_pos hfits, Int.toNat_natCast, UInt32.ofNat_toNat]
  show some <$> readCount (Node.ofJson (countJson n)) = _
  rw [hcount]
  rfl

theorem readOptional_displayStyle (style : DisplayStyle) :
    readOptional readDisplayStyle (Node.ofJson style.toJson) = .ok (some style) := by
  cases style <;> rfl

/-! ## Choices -/

theorem readChoice_toJson (c : Choice) : readChoice (Node.ofJson c.toJson) = .ok c := by
  rfl

theorem readItems_choices (cs : List Choice) :
    readItems readChoice (Node.ofJson (choicesJson cs)) = .ok cs :=
  readItems_map fun c _ => readChoice_toJson c

/-! ## Kinds of field -/

/-- A number has neither bound. -/
def FieldKind.Unbounded (k : FieldKind) : Prop :=
  ∀ lo hi, k = .number lo hi → lo = none ∧ hi = none

/-- What the settings of a kind make of an empty draft. -/
def FieldKind.draft : FieldKind → KindDraft
  | .staticText content | .html content => { content := some content }
  | .text lo hi | .textarea lo hi =>
    { minimumLength := lo.map some, maximumLength := hi.map some }
  | .radio options other style =>
    { options := some options, allowOther := some other, displayStyle := style.map some }
  | .checkbox options lo hi style =>
    { options := some options, minimumChoices := lo.map some, maximumChoices := hi.map some,
      displayStyle := style.map some }
  | .select multiple dynamic options other lo hi label =>
    { allowMultiple := some multiple, isDynamic := some dynamic, options := some options,
      allowOther := some other, minimumChoices := lo.map some, maximumChoices := hi.map some,
      selectLabel := label.map some }
  | .number .. | .date | .autoLookup | .subform => {}

theorem join_map_some {α : Type} (o : Option α) : (o.map some).join = o := by
  cases o <;> rfl

theorem FieldKind.finish_draft {k : FieldKind} (h : k.Unbounded) :
    k.draft.finish k.fieldType = k := by
  cases k with
  | number lo hi =>
      obtain ⟨rfl, rfl⟩ := h lo hi rfl
      rfl
  | staticText | html | date | autoLookup | subform => rfl
  | text | textarea | radio | checkbox | select =>
      simp [draft, fieldType, KindDraft.finish, join_map_some]

theorem fills_lengths (lo hi : Option String) :
    Fills KindDraft.put {}
      (optionalMember "minimumLength" .string lo ++ optionalMember "maximumLength" .string hi)
      { minimumLength := lo.map some, maximumLength := hi.map some } := by
  have hempty : Fills KindDraft.put {} [] {} := fills_nil
  have hlo := hempty.optional "minimumLength" (fun d slot => { d with minimumLength := slot })
    rfl (fun _ => rfl) readOptional_text lo
  exact hlo.optional "maximumLength" (fun d slot => { d with maximumLength := slot })
    rfl (fun _ => rfl) readOptional_text hi

/-- The settings of a kind are read as the kind has them. -/
theorem FieldKind.fills_members {k : FieldKind} (h : k.Unbounded) :
    Fills KindDraft.put {} k.members k.draft := by
  have hempty : Fills KindDraft.put {} [] {} := fills_nil
  cases k with
  | number lo hi =>
      obtain ⟨rfl, rfl⟩ := h lo hi rfl
      exact hempty
  | date | autoLookup | subform => exact hempty
  | staticText content | html content =>
      exact hempty.member "content" (fun d slot => { d with content := slot })
        (fun _ => rfl) (readText_string content)
  | text lo hi | textarea lo hi => exact fills_lengths lo hi
  | radio options other style =>
      have hoptions := hempty.member "options" (fun d slot => { d with options := slot })
        (fun _ => rfl) (readItems_choices options)
      have hother := hoptions.member "allowOther" (fun d slot => { d with allowOther := slot })
        (fun _ => rfl) (readBool_bool other)
      exact hother.optional "displayStyle" (fun d slot => { d with displayStyle := slot })
        rfl (fun _ => rfl) readOptional_displayStyle style
  | checkbox options lo hi style =>
      have hoptions := hempty.member "options" (fun d slot => { d with options := slot })
        (fun _ => rfl) (readItems_choices options)
      have hlo := hoptions.optional "minimumChoices"
        (fun d slot => { d with minimumChoices := slot }) rfl (fun _ => rfl)
        readOptional_count lo
      have hhi := hlo.optional "maximumChoices" (fun d slot => { d with maximumChoices := slot })
        rfl (fun _ => rfl) readOptional_count hi
      exact hhi.optional "displayStyle" (fun d slot => { d with displayStyle := slot })
        rfl (fun _ => rfl) readOptional_displayStyle style
  | select multiple dynamic options other lo hi label =>
      have hmultiple := hempty.member "allowMultiple"
        (fun d slot => { d with allowMultiple := slot }) (fun _ => rfl) (readBool_bool multiple)
      have hdynamic := hmultiple.member "isDynamic" (fun d slot => { d with isDynamic := slot })
        (fun _ => rfl) (readBool_bool dynamic)
      have hoptions := hdynamic.member "options" (fun d slot => { d with options := slot })
        (fun _ => rfl) (readItems_choices options)
      have hother := hoptions.member "allowOther" (fun d slot => { d with allowOther := slot })
        (fun _ => rfl) (readBool_bool other)
      have hlo := hother.optional "minimumChoices"
        (fun d slot => { d with minimumChoices := slot }) rfl (fun _ => rfl)
        readOptional_count lo
      have hhi := hlo.optional "maximumChoices" (fun d slot => { d with maximumChoices := slot })
        rfl (fun _ => rfl) readOptional_count hi
      exact hhi.optional "selectLabel" (fun d slot => { d with selectLabel := slot })
        rfl (fun _ => rfl) readOptional_text label

/-! ## Settings beside those of the field -/

theorem asContentItems_eq (ns : List Node) : Node.asContentItems ns = ns.map Node.asContent := by
  induction ns with
  | nil => rfl
  | cons n ns ih => rw [Node.asContentItems, ih, List.map_cons]

theorem asContentMembers_eq (ms : List (Node × Node)) :
    Node.asContentMembers ms = ms.map fun m => (m.1.asContent, m.2.asContent) := by
  induction ms with
  | nil => rfl
  | cons m ms ih => rw [Node.asContentMembers, ih, List.map_cons]

/-- A JSON value is content as it stands. -/
theorem asContent_ofJson {j : Json} (h : j.Legible) :
    (Node.ofJson j).asContent = Node.ofJson j := by
  induction h with
  | null | bool | integer | string => rfl
  | array _ ih =>
      rw [Node.ofJson, Node.asContent, asContentItems_eq, ofJsonItems_eq, List.map_map]
      exact congrArg Node.seq (List.map_congr_left ih)
  | object _ ih =>
      rw [Node.ofJson, Node.asContent, asContentMembers_eq, ofJsonMembers_eq, List.map_map]
      exact congrArg Node.map (List.map_congr_left fun m hm => Prod.ext rfl (ih m hm))

theorem allContent_eq (depth : Nat) (ns : List Node) :
    Node.allContent depth ns = ns.all (Node.isContent depth) := by
  induction ns with
  | nil => rfl
  | cons n ns ih => rw [Node.allContent, ih, List.all_cons]

theorem isContent_choices (cs : List Choice) (depth : Nat) :
    (Node.ofJson (choicesJson cs)).isContent (depth + 2) = true := by
  show Node.allContent (depth + 1) (Node.ofJsonItems (cs.map Choice.toJson)) = true
  rw [ofJsonItems_eq, allContent_eq, List.all_map, List.all_map, List.all_eq_true]
  exact fun _ _ => rfl

theorem forall_mem_optionalMember {α : Type} {name : String} {write : α → Json} {o : Option α}
    {p : String × Json → Prop} :
    (∀ m ∈ optionalMember name write o, p m) ↔ ∀ a ∈ o, p (name, write a) := by
  cases o <;> simp [optionalMember]

/-- What can stand in a setting of a kind: a text, a truth value, a number of choices or
the choices. -/
inductive IsSetting : Json → Prop
  | text (s : String) : IsSetting (.string s)
  | bool (b : Bool) : IsSetting (.bool b)
  | count (n : UInt32) : IsSetting (countJson n)
  | choices (cs : List Choice) : IsSetting (choicesJson cs)

theorem IsSetting.legible {j : Json} (h : IsSetting j) : j.Legible := by
  cases h with
  | text s => exact .string s
  | bool b => exact .bool b
  | count n =>
      have hlt := n.toNat_lt
      exact .integer ⟨by omega, by omega⟩
  | choices cs =>
      refine .array fun j hj => ?_
      obtain ⟨c, -, rfl⟩ := List.mem_map.mp hj
      exact .object (by simp [Json.Legible.string])

theorem IsSetting.isContent {j : Json} (h : IsSetting j) :
    (Node.ofJson j).isContent maxSettingDepth = true := by
  cases h with
  | text | bool | count => rfl
  | choices cs => exact isContent_choices cs _

theorem isSetting_displayStyle (style : DisplayStyle) : IsSetting style.toJson :=
  .text style.name

/-- The members of a kind have the names of the settings of its type. -/
theorem FieldKind.forall_members {k : FieldKind} (h : k.Unbounded) :
    ∀ m ∈ k.members, m.1 ∈ k.fieldType.settings ∧ IsSetting m.2 := by
  cases k with
  | number lo hi =>
      obtain ⟨rfl, rfl⟩ := h lo hi rfl
      nofun
  | _ =>
      simp only [members, List.forall_mem_append, List.forall_mem_cons, forall_mem_optionalMember]
      simp [fieldType, FieldType.settings, IsSetting.text, IsSetting.bool, IsSetting.count,
        IsSetting.choices, isSetting_displayStyle]

/-- The settings that a field has of itself. -/
def FieldDraft.names : List String :=
  ["id", "label", "dataName", "hidden", "displayCondition", "helpText", "defaultValue",
    "readOnly", "required", "readOnlyCondition", "requiredCondition", "validationCondition"]

/-- No type has a setting with the name of one of the field's own. -/
theorem not_mem_names_of_mem_settings {t : FieldType} {name : String}
    (h : name ∈ "type" :: t.settings) : name ∉ FieldDraft.names := by
  have hall : ∀ t ∈ FieldType.all, ∀ name ∈ "type" :: t.settings, name ∉ FieldDraft.names := by
    decide
  exact hall t (by cases t <;> decide) name h

/-- A setting that no field has of itself is kept for the type. -/
theorem FieldDraft.put_other {d : FieldDraft} {name : String} {n : Node}
    (hname : name ∉ FieldDraft.names) (hn : n.isContent maxSettingDepth = true) :
    d.put name n = .ok { d with others := d.others ++ [(name, n.asContent)] } := by
  unfold FieldDraft.put
  split
  case h_13 =>
    rw [if_pos hn]
    rfl
  all_goals exact absurd (by decide) hname

/-- Settings that no field has of itself are kept in order. -/
theorem fills_others {members : List (String × Json)}
    (h : ∀ m ∈ members, m.1 ∉ FieldDraft.names ∧ IsSetting m.2) (d : FieldDraft) :
    Fills FieldDraft.put d members
      { d with others := d.others ++ members.map fun m => (m.1, Node.ofJson m.2) } := by
  induction members generalizing d with
  | nil =>
      rw [List.map_nil, List.append_nil]
      rfl
  | cons m ms ih =>
      obtain ⟨⟨hname, hsetting⟩, hms⟩ := List.forall_mem_cons.mp h
      have hput := FieldDraft.put_other (d := d) hname hsetting.isContent
      rw [asContent_ofJson hsetting.legible] at hput
      have hrest := ih hms { d with others := d.others ++ [(m.1, Node.ofJson m.2)] }
      rw [List.map_cons, List.append_cons]
      unfold Fills
      rw [List.foldlM_cons, hput]
      exact hrest

/-! ## Fields -/

theorem readVariant_fieldType (t : FieldType) :
    readVariant FieldType.name FieldType.all (Node.ofJson (.string t.name)) = .ok t := by
  cases t <;> rfl

theorem FieldType.not_mem_settings (t : FieldType) : "type" ∉ t.settings := by
  cases t <;> decide

/-- Behind the type, the settings that are not named like it are left as they are. -/
theorem splitType_some {settings : List (String × Node)} (h : ∀ s ∈ settings, s.1 ≠ "type")
    (t : FieldType) : splitType (some t) settings = .ok (t, settings) := by
  induction settings with
  | nil => rfl
  | cons s settings ih =>
      obtain ⟨hs, hsettings⟩ := List.forall_mem_cons.mp h
      rw [splitType, if_neg hs, ih hsettings]
      rfl

/-- A kind is read from its type and its settings. -/
theorem readKind_members {k : FieldKind} (h : k.Unbounded) :
    readKind (("type", Node.ofJson (.string k.name)) ::
      k.members.map fun m => (m.1, Node.ofJson m.2)) = .ok k := by
  have hnames : ∀ m ∈ k.members.map (fun m => (m.1, Node.ofJson m.2)),
      m.1 ∈ k.fieldType.settings :=
    List.forall_mem_map.mpr fun m hm => (FieldKind.forall_members h m hm).1
  have hsplit : splitType none (("type", Node.ofJson (.string k.name)) ::
      k.members.map fun m => (m.1, Node.ofJson m.2)) =
        .ok (k.fieldType, k.members.map fun m => (m.1, Node.ofJson m.2)) := by
    rw [splitType, if_pos rfl, FieldKind.name, readVariant_fieldType]
    exact splitType_some (fun m hm heq => k.fieldType.not_mem_settings (heq ▸ hnames m hm)) _
  have hfilter : (k.members.map fun m => (m.1, Node.ofJson m.2)).filter
      (fun s => s.1 ∈ k.fieldType.settings) = k.members.map fun m => (m.1, Node.ofJson m.2) :=
    List.filter_eq_self.mpr fun m hm => decide_eq_true (hnames m hm)
  have hfills : (k.members.map fun m => (m.1, Node.ofJson m.2)).foldlM
      (fun d s => KindDraft.put d s.1 s.2) {} = .ok k.draft := by
    rw [List.foldlM_map]
    exact k.fills_members h
  have hread : readKind (("type", Node.ofJson (.string k.name)) ::
      k.members.map fun m => (m.1, Node.ofJson m.2)) = .ok (k.draft.finish k.fieldType) := by
    rw [readKind, hsplit]
    show (List.foldlM (fun d (s : String × Node) => KindDraft.put d s.1 s.2) {}
      (List.filter _ _) >>= fun draft => pure (draft.finish k.fieldType) : Read FieldKind) = _
    rw [hfilter, hfills]
    rfl
  rw [hread, k.finish_draft h]

/-- The members that a field is printed as. -/
def Field.members (f : Field) : List (String × Json) :=
  [("id", .string f.id), ("label", .string f.label), ("dataName", .string f.dataName),
      ("hidden", .bool f.hidden)]
    ++ optionalMember "displayCondition" .string f.displayCondition
    ++ optionalMember "helpText" .string f.helpText
    ++ optionalMember "defaultValue" .string f.defaultValue
    ++ [("readOnly", .bool f.readOnly), ("required", .bool f.required)]
    ++ optionalMember "readOnlyCondition" .string f.readOnlyCondition
    ++ optionalMember "requiredCondition" .string f.requiredCondition
    ++ optionalMember "validationCondition" .string f.validationCondition
    ++ [("type", .string f.kind.name)]
    ++ f.kind.members

/-- What the members of a field make of an empty draft. -/
def Field.draft (f : Field) : FieldDraft where
  id := some f.id
  label := some f.label
  dataName := some f.dataName
  hidden := some f.hidden
  displayCondition := f.displayCondition.map some
  helpText := f.helpText.map some
  defaultValue := f.defaultValue.map some
  readOnly := some f.readOnly
  required := some f.required
  readOnlyCondition := f.readOnlyCondition.map some
  requiredCondition := f.requiredCondition.map some
  validationCondition := f.validationCondition.map some
  others := ("type", Node.ofJson (.string f.kind.name)) ::
    f.kind.members.map fun m => (m.1, Node.ofJson m.2)

theorem Field.fills_members {f : Field} (h : f.kind.Unbounded) :
    Fills FieldDraft.put {} f.members f.draft := by
  have hnames : Fills FieldDraft.put {}
      [("id", .string f.id), ("label", .string f.label), ("dataName", .string f.dataName),
        ("hidden", .bool f.hidden)]
      { id := some f.id, label := some f.label, dataName := some f.dataName,
        hidden := some f.hidden } := rfl
  have hdisplay := hnames.optional "displayCondition"
    (fun d slot => { d with displayCondition := slot }) rfl (fun _ => rfl) readOptional_text
    f.displayCondition
  have hhelp := hdisplay.optional "helpText" (fun d slot => { d with helpText := slot })
    rfl (fun _ => rfl) readOptional_text f.helpText
  have hdefault := hhelp.optional "defaultValue" (fun d slot => { d with defaultValue := slot })
    rfl (fun _ => rfl) readOptional_text f.defaultValue
  have hflags := hdefault.append ((fills_nil.member "readOnly"
    (fun d slot => { d with readOnly := slot }) (fun _ => rfl) (readBool_bool f.readOnly)).member
      "required" (fun d slot => { d with required := slot }) (fun _ => rfl)
      (readBool_bool f.required))
  have hreadOnlyIf := hflags.optional "readOnlyCondition"
    (fun d slot => { d with readOnlyCondition := slot }) rfl (fun _ => rfl) readOptional_text
    f.readOnlyCondition
  have hrequiredIf := hreadOnlyIf.optional "requiredCondition"
    (fun d slot => { d with requiredCondition := slot }) rfl (fun _ => rfl) readOptional_text
    f.requiredCondition
  have hvalidation := hrequiredIf.optional "validationCondition"
    (fun d slot => { d with validationCondition := slot }) rfl (fun _ => rfl) readOptional_text
    f.validationCondition
  have htype : ∀ m ∈ [("type", Json.string f.kind.name)],
      m.1 ∉ FieldDraft.names ∧ IsSetting m.2 := by
    refine List.forall_mem_singleton.mpr ⟨?_, .text _⟩
    exact not_mem_names_of_mem_settings
      (List.mem_cons_self : "type" ∈ "type" :: f.kind.fieldType.settings)
  have hmembers : ∀ m ∈ f.kind.members, m.1 ∉ FieldDraft.names ∧ IsSetting m.2 := by
    intro m hm
    obtain ⟨hname, hsetting⟩ := FieldKind.forall_members h m hm
    exact ⟨not_mem_names_of_mem_settings (List.mem_cons_of_mem _ hname), hsetting⟩
  exact (hvalidation.append (fills_others htype _)).append (fills_others hmembers _)

theorem Field.finish_draft {f : Field} (h : f.kind.Unbounded) : f.draft.finish = .ok f := by
  have hkind : readKind f.draft.others = .ok f.kind := readKind_members h
  unfold FieldDraft.finish
  rw [hkind]
  simp only [draft, join_map_some]
  rfl

/-- A field is read back. -/
theorem readField_toJson {f : Field} (h : f.kind.Unbounded) :
    readField (Node.ofJson f.toJson) = .ok f := by
  have hread : readSettings [] FieldDraft.put {} (Node.ofJsonMembers f.members) = .ok f.draft :=
    (Field.fills_members h).readSettings
  show (readSettings [] FieldDraft.put {} (Node.ofJsonMembers f.members) >>=
    fun d => d.finish) = _
  rw [hread]
  exact Field.finish_draft h

/-! ## Sections and forms -/

theorem readSection_toJson {s : Section} (h : ∀ f ∈ s.fields, f.kind.Unbounded)
    (positional : Bool) : readSection positional (Node.ofJson s.toJson) = .ok s := by
  have hid : Fills SectionDraft.put {} [("id", .string s.id), ("title", .string s.title)]
      { id := some s.id, title := some s.title } := rfl
  have hdisplay := hid.optional "displayCondition"
    (fun d slot => { d with displayCondition := slot }) rfl (fun _ => rfl) readOptional_text
    s.displayCondition
  have hfields := hdisplay.member "fields" (fun d slot => { d with fields := slot })
    (fun _ => rfl) (readItems_map fun f hf => readField_toJson (h f hf))
  show (readSettings [] SectionDraft.put {} (Node.ofJsonMembers _) >>= fun d => d.finish) = _
  rw [hfields.readSettings]
  show (Except.ok { s with displayCondition := (s.displayCondition.map some).join } :
    Read Section) = _
  rw [join_map_some]

theorem readForm_toJson {f : Form} (h : ∀ x ∈ f.fields, x.kind.Unbounded) (positional : Bool) :
    readForm positional (Node.ofJson f.toJson) = .ok f := by
  have hsection : ∀ s ∈ f.sections, readSection positional (Node.ofJson s.toJson) = .ok s :=
    fun s hs => readSection_toJson (fun x hx => h x (List.mem_flatMap.mpr ⟨s, hs, hx⟩)) positional
  have htitle : Fills (FormDraft.put positional) {} [("title", .string f.title)]
      { title := some f.title } := rfl
  have hdescription := htitle.optional "description"
    (fun d slot => { d with description := slot }) rfl (fun _ => rfl) readOptional_text
    f.description
  have hsections := hdescription.member "sections" (fun d slot => { d with sections := slot })
    (fun _ => rfl) (readItems_map hsection)
  show (readSettings [] (FormDraft.put positional) {} (Node.ofJsonMembers _) >>=
    fun d => d.finish) = _
  rw [hsections.readSettings]
  show (Except.ok { f with description := (f.description.map some).join } : Read Form) = _
  rw [join_map_some]

/-! ## Texts -/

theorem Field.legible_toJson {f : Field} (h : f.kind.Unbounded) : f.toJson.Legible := by
  have hkind : ∀ m ∈ f.kind.members, m.2.Legible := fun m hm =>
    (FieldKind.forall_members h m hm).2.legible
  refine .object ?_
  simp only [List.forall_mem_append, List.forall_mem_cons, forall_mem_optionalMember]
  simpa [Json.Legible.string, Json.Legible.bool] using hkind

theorem Section.legible_toJson {s : Section} (h : ∀ f ∈ s.fields, f.kind.Unbounded) :
    s.toJson.Legible := by
  have hfields : (Json.array (s.fields.map Field.toJson)).Legible :=
    .array (List.forall_mem_map.mpr fun f hf => Field.legible_toJson (h f hf))
  refine .object ?_
  simp only [List.forall_mem_append, List.forall_mem_cons, forall_mem_optionalMember]
  simp [Json.Legible.string, hfields]

theorem Form.legible_toJson {f : Form} (h : ∀ x ∈ f.fields, x.kind.Unbounded) :
    f.toJson.Legible := by
  have hsections : (Json.array (f.sections.map Section.toJson)).Legible :=
    .array (List.forall_mem_map.mpr fun s hs => Section.legible_toJson fun x hx =>
      h x (List.mem_flatMap.mpr ⟨s, hs, hx⟩))
  refine .object ?_
  simp only [List.forall_mem_append, List.forall_mem_cons, forall_mem_optionalMember]
  simp [Json.Legible.string, hsections]

/-- A form whose numbers have no bounds is read back from its JSON text. -/
theorem form_round_trip (f : Form)
    (h : ∀ x ∈ f.fields, ∀ lo hi, x.kind = .number lo hi → lo = none ∧ hi = none) :
    Form.ofJsonText? f.text = .ok f := by
  have hread : Form.ofJson? f.toJson = .ok f := readForm_toJson h true
  unfold Form.ofJsonText? Form.text
  rw [Json.ofText?_text (Form.legible_toJson h)]
  simp only [hread]

/-- A form with a number and a list to choose from, some settings there and some not. -/
theorem form_round_trip_pets :
    let f : Form := ⟨"Pets \"and\" others", none, [⟨"s", "", some "\x7bn\x7d != ''", [
      ⟨"a", "", "n", false, none, some "help", none, true, false, none, none, none,
        .number none none⟩,
      ⟨"b", "B", "pets", true, none, none, some "'cat'", false, true, none, none, none,
        .select true false [⟨"Cat", "cat"⟩, ⟨"Dog", "dog"⟩] true (some 1) none (some "pick")⟩]⟩]⟩
    (∀ x ∈ f.fields, ∀ lo hi, x.kind = .number lo hi → lo = none ∧ hi = none) ∧
      Form.ofJsonText? f.text = .ok f := by
  intro f
  have h : ∀ x ∈ f.fields, ∀ lo hi, x.kind = .number lo hi → lo = none ∧ hi = none := by
    simp [f, Form.fields]
  exact ⟨h, form_round_trip f h⟩

end FormLogic
