import FormLogic.Entries

/-!
# FormLogic.Value.Basic

Answers. An answer is absent, a boolean, a text, a list of texts or an object
of named answers; numbers are held as text.
-/

namespace FormLogic

/-- An answer, or the result of a value expression. -/
inductive Value where
  | absent
  | bool (b : Bool)
  | text (s : String)
  /-- An answer with several values. -/
  | list (items : List String)
  /-- A nested answer, reached by paths only. -/
  | object (entries : List (String × Value))
deriving Repr

namespace Value

mutual

/-- Whether two answers are the same. -/
def decEq : (a b : Value) → Decidable (a = b)
  | .absent, .absent => isTrue rfl
  | .bool b, .bool b' => decidable_of_iff (b = b') (by simp)
  | .text s, .text s' => decidable_of_iff (s = s') (by simp)
  | .list l, .list l' => decidable_of_iff (l = l') (by simp)
  | .object es, .object es' =>
    match decEqEntries es es' with
    | isTrue h => isTrue (by rw [h])
    | isFalse h => isFalse fun e => h (Value.object.inj e)
  | .absent, .bool _ | .absent, .text _ | .absent, .list _ | .absent, .object _ => isFalse nofun
  | .bool _, .absent | .bool _, .text _ | .bool _, .list _ | .bool _, .object _ => isFalse nofun
  | .text _, .absent | .text _, .bool _ | .text _, .list _ | .text _, .object _ => isFalse nofun
  | .list _, .absent | .list _, .bool _ | .list _, .text _ | .list _, .object _ => isFalse nofun
  | .object _, .absent | .object _, .bool _ | .object _, .text _
  | .object _, .list _ => isFalse nofun

/-- Whether two lists hold the same entries. -/
def decEqEntries : (as bs : List (String × Value)) → Decidable (as = bs)
  | [], [] => isTrue rfl
  | [], _ :: _ => isFalse nofun
  | _ :: _, [] => isFalse nofun
  | (k, a) :: as, (k', b) :: bs =>
    match decEq a b, decEqEntries as bs with
    | isTrue h, isTrue hs =>
      if hk : k = k' then isTrue (by rw [hk, h, hs])
      else isFalse fun e => hk (Prod.mk.inj (List.cons.inj e).1).1
    | isFalse h, _ => isFalse fun e => h (Prod.mk.inj (List.cons.inj e).1).2
    | _, isFalse hs => isFalse fun e => hs (List.cons.inj e).2

end

instance : DecidableEq Value := decEq

instance : Inhabited Value := ⟨.absent⟩

/-- The name of an answer's type. -/
def typeName : Value → String
  | .absent => "absent"
  | .bool _ => "bool"
  | .text _ => "string"
  | .list _ => "list"
  | .object _ => "object"

/-- The text that joining an answer to other texts uses. Several values stand
with commas between them; an object has no text. -/
def displayText : Value → String
  | .absent => ""
  | .bool b => toString b
  | .text s => s
  | .list items => ",".intercalate items
  | .object _ => ""

/-- The texts that an answer is compared as. An answer that is absent counts as
the empty text, and a list counts as each of its items. -/
def comparableTexts : Value → List String
  | .absent => [""]
  | .bool b => [toString b]
  | .text s => [s]
  | .list items => items
  | .object _ => [""]

/-- An answer at the top of an expression: an object counts as absent. -/
def topLevel : Value → Value
  | .object _ => .absent
  | v => v

/-! An answer shows in texts what it is at the top of an expression. -/

@[simp] theorem displayText_topLevel (v : Value) : v.topLevel.displayText = v.displayText := by
  cases v <;> rfl

@[simp] theorem comparableTexts_topLevel (v : Value) :
    v.topLevel.comparableTexts = v.comparableTexts := by
  cases v <;> rfl

theorem displayText_congr {v w : Value} (h : v.topLevel = w.topLevel) :
    v.displayText = w.displayText := by
  rw [← displayText_topLevel, h, displayText_topLevel]

theorem comparableTexts_congr {v w : Value} (h : v.topLevel = w.topLevel) :
    v.comparableTexts = w.comparableTexts := by
  rw [← comparableTexts_topLevel, h, comparableTexts_topLevel]

end Value

end FormLogic
