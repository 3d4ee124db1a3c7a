import FormLogic.Expr.Path
import FormLogic.Value.Basic

/-!
# FormLogic.State

The answers of a form by data name. A state is an ordered map: setting a name
again keeps its place, and a new name goes last. A missing answer reads as
absent.
-/

namespace FormLogic

/-- The answers so far. -/
structure State where
  entries : Entries Value
  nodup_keys : (Entries.keys entries).Nodup
deriving DecidableEq, Repr

namespace State

@[ext] theorem ext {s t : State} (h : s.entries = t.entries) : s = t := by
  cases s
  cases t
  rw [State.mk.injEq]
  exact h

/-- No answers. -/
def empty : State := ⟨[], by simp [Entries.keys]⟩

instance : Inhabited State := ⟨empty⟩

/-- The state that results from setting some answers one after another. -/
def ofPairs (pairs : List (String × Value)) : State :=
  ⟨Entries.ofPairs pairs, Entries.nodup_keys_ofPairs pairs⟩

/-- The answer of a name. -/
def get (s : State) (key : String) : Value :=
  (Entries.get? s.entries key).getD .absent

/-- Whether a name has an answer, be it an absent one. -/
def contains (s : State) (key : String) : Bool :=
  (Entries.get? s.entries key).isSome

/-- The number of answers. -/
def size (s : State) : Nat :=
  s.entries.length

/-- Answer a name. -/
def set (s : State) (key : String) (value : Value) : State :=
  ⟨Entries.set s.entries key value, Entries.nodup_keys_set s.nodup_keys⟩

/-- Answer a name, and hand out the answer that it had. -/
def replace (s : State) (key : String) (value : Value) : Value × State :=
  let replaced := Entries.replace s.entries key value
  (replaced.1.getD .absent, ⟨replaced.2, Entries.nodup_keys_replace s.nodup_keys⟩)

/-- Record what a form is answered, and hand out the answer that it replaces. -/
def answer (s : State) (key : String) (value : Value) : Value × State :=
  s.replace key value

/-- Take an answer out. -/
def erase (s : State) (key : String) : State :=
  ⟨Entries.erase s.entries key, Entries.nodup_keys_erase s.nodup_keys⟩

/-- Take an answer out, and hand it out. -/
def remove (s : State) (key : String) : Value × State :=
  let removed := Entries.remove s.entries key
  (removed.1.getD .absent, ⟨removed.2, Entries.nodup_keys_remove s.nodup_keys⟩)

/-- An answer reads back, and no other answer changes. -/
theorem get_set (s : State) (key k : String) (value : Value) :
    (s.set key value).get k = if key = k then value else s.get k := by
  simp only [get, set, Entries.get?_set]
  by_cases h : key = k <;> simp [h]

/-- Replacing an answer is looking it up and setting another one. -/
theorem replace_eq (s : State) (key : String) (value : Value) :
    s.replace key value = (s.get key, s.set key value) := by
  simp [replace, get, set, Entries.replace_eq]

/-- Answering a name is looking its answer up and setting another one. -/
theorem answer_eq (s : State) (key : String) (value : Value) :
    s.answer key value = (s.get key, s.set key value) :=
  s.replace_eq key value

/-- Removing an answer is looking it up and taking it out. -/
theorem remove_eq (s : State) (key : String) : s.remove key = (s.get key, s.erase key) := by
  simp [remove, get, erase, Entries.remove_eq]

/-- A name without its answer reads as absent, and no other answer changes. -/
theorem get_erase (s : State) (key k : String) :
    (s.erase key).get k = if key = k then .absent else s.get k := by
  simp only [get, erase, Entries.get?_erase s.nodup_keys]
  by_cases h : key = k <;> simp [h]

/-! ## Paths -/

/-- What a step finds among some entries. Its accessor is looked up only in an
object. -/
def step (entries : Entries Value) (segment : PathSegment) : Value :=
  let found := (Entries.get? entries segment.key).getD .absent
  match segment.accessor, found with
  | some accessor, .object inner => (Entries.get? inner accessor).getD .absent
  | _, _ => found

/-- The entries that the next step looks into. -/
def within : Value → Entries Value
  | .object entries => entries
  | _ => []

/-- Follow some steps. An empty key makes the whole path absent, and nothing is
found inside an answer that is no object. -/
def follow (entries : Entries Value) : List PathSegment → Value
  | [] => .absent
  | segment :: rest =>
    if segment.key.isEmpty then .absent
    else match rest with
      | [] => step entries segment
      | next :: more => follow (within (step entries segment)) (next :: more)

/-- The answer at the end of a path. -/
def resolve (s : State) (path : Path) : Value :=
  follow s.entries path.segments

end State

end FormLogic
