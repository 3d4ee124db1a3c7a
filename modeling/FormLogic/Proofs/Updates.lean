import FormLogic.State
import Mathlib.Data.List.Induction
import Mathlib.Data.List.Nodup

/-!
# FormLogic.Proofs.Updates

A state under any run of updates. One update looks up what it hands out, touches the
answer of one name (`get?_perform`) and moves no other name (`keys_perform`). So a run
leaves under each name what its last update left there (`State.get?_run`), the names
that it does not remove stay in front in their order (`State.kept_run`), and answers are
undone by what they replaced, the last one first (`State.get_undo`).
-/

namespace FormLogic

/-- A name at the end counts when it does not stand in front already. -/
theorem eraseDups_concat (names : List String) (name : String) :
    (names ++ [name]).eraseDups =
      if name ∈ names then names.eraseDups else names.eraseDups ++ [name] := by
  rw [List.eraseDups_append]
  by_cases h : name ∈ names
  · have hremove : [name].removeAll names = [] := by simp [List.removeAll, h]
    rw [if_pos h, hremove, List.eraseDups_nil, List.append_nil]
  · have hremove : [name].removeAll names = [name] := by simp [List.removeAll, h]
    rw [if_neg h, hremove]
    rfl

/-! ## Updates -/

/-- What a host does to the answers. -/
inductive Update where
  | set (key : String) (value : Value)
  | answer (key : String) (value : Value)
  | remove (key : String)
deriving DecidableEq, Repr

namespace Update

/-- The name that an update touches. -/
def key : Update → String
  | .set key _ => key
  | .answer key _ => key
  | .remove key => key

/-- The answer that an update leaves under its name. -/
def value? : Update → Option Value
  | .set _ value => some value
  | .answer _ value => some value
  | .remove _ => none

/-- Do an update: the answer that it hands out, and the answers behind it. -/
def perform : Update → State → Value × State
  | .set key value, s => s.replace key value
  | .answer key value, s => s.answer key value
  | .remove key, s => s.remove key

/-- The names behind an update: one that had no answer is the last, and a removed one
is gone. -/
def reorder (names : List String) (u : Update) : List String :=
  match u.value? with
  | some _ => if u.key ∈ names then names else names ++ [u.key]
  | none => names.erase u.key

/-- The last update of a name. -/
def lastOn (us : List Update) (name : String) : Option Update :=
  us.reverse.find? (·.key = name)

theorem lastOn_eq_none {us : List Update} {name : String} (h : ∀ u ∈ us, u.key ≠ name) :
    lastOn us name = none := by
  simpa [lastOn] using h

/-- The last update of a name stands behind all others. -/
theorem lastOn_append (us vs : List Update) (name : String) :
    lastOn (us ++ vs) name = (lastOn vs name).or (lastOn us name) := by
  rw [lastOn, List.reverse_append, List.find?_append]
  rfl

theorem lastOn_concat (us : List Update) (u : Update) (name : String) :
    lastOn (us ++ [u]) name = if u.key = name then some u else lastOn us name := by
  by_cases h : u.key = name <;> simp [lastOn, h]

/-- Names in front stay in front, but for one that is removed. -/
theorem kept_reorder {front names : List String} (h : front <+: names) (hnodup : names.Nodup)
    (u : Update) : front.filter (fun name => u ≠ .remove name) <+: reorder names u := by
  cases u with
  | remove key =>
      have herase : reorder names (.remove key) = names.filter (· != key) :=
        hnodup.erase_eq_filter key
      have hfront : front.filter (fun name => (.remove key : Update) ≠ .remove name) =
          front.filter (· != key) :=
        List.filter_congr fun name _ => by by_cases hname : name = key <;> grind
      rw [herase, hfront]
      exact h.filter _
  | set key value | answer key value =>
      rw [List.filter_eq_self.mpr (by simp)]
      simp only [reorder, value?]
      split
      · exact h
      · exact h.trans (List.prefix_append ..)

variable (u : Update) (s : State)

/-- An update hands out the answer that its name had. -/
theorem fst_perform : (u.perform s).1 = s.get u.key := by
  cases u with
  | set key value => rw [perform, State.replace_eq, Update.key]
  | answer key value => rw [perform, State.answer_eq, Update.key]
  | remove key => rw [perform, State.remove_eq, Update.key]

/-- An update touches its name and no other. -/
theorem get?_perform (name : String) :
    Entries.get? (u.perform s).2.entries name =
      if u.key = name then u.value? else Entries.get? s.entries name := by
  cases u with
  | set key value => rw [perform, State.replace_eq]; exact Entries.get?_set ..
  | answer key value => rw [perform, State.answer_eq]; exact Entries.get?_set ..
  | remove key => rw [perform, State.remove_eq]; exact Entries.get?_erase s.nodup_keys ..

theorem keys_perform :
    Entries.keys (u.perform s).2.entries = reorder (Entries.keys s.entries) u := by
  cases u with
  | set key value => rw [perform, State.replace_eq]; exact Entries.keys_set ..
  | answer key value => rw [perform, State.answer_eq]; exact Entries.keys_set ..
  | remove key => rw [perform, State.remove_eq]; exact Entries.keys_erase ..

end Update

/-! ## Runs -/

namespace State

/-- The answers behind some updates. -/
def run (s : State) (us : List Update) : State :=
  us.foldl (fun s u => (u.perform s).2) s

/-- What some updates hand out. -/
def handedOut (s : State) : List Update → List Value
  | [] => []
  | u :: us => (u.perform s).1 :: handedOut (u.perform s).2 us

theorem run_append (s : State) (us vs : List Update) : s.run (us ++ vs) = (s.run us).run vs :=
  List.foldl_append

theorem run_concat (s : State) (us : List Update) (u : Update) :
    s.run (us ++ [u]) = (u.perform (s.run us)).2 := run_append s us [u]

/-- Under a name stands what its last update left there. -/
theorem get?_run (s : State) (us : List Update) (name : String) :
    Entries.get? (s.run us).entries name =
      (Update.lastOn us name).elim (Entries.get? s.entries name) Update.value? := by
  induction us using List.reverseRecOn with
  | nil => rfl
  | append_singleton us u ih =>
      rw [run_concat, Update.get?_perform, ih, Update.lastOn_concat]
      by_cases h : u.key = name <;> simp [h]

/-- The names that a run does not remove stay in front, in their order. -/
theorem kept_run (s : State) (us : List Update) :
    (Entries.keys s.entries).filter (fun name => .remove name ∉ us) <+:
      Entries.keys (s.run us).entries := by
  induction us using List.reverseRecOn with
  | nil => simp [run]
  | append_singleton us u ih =>
      have hstep := Update.kept_reorder ih (s.run us).nodup_keys u
      rw [List.filter_filter] at hstep
      rw [run_concat, Update.keys_perform]
      convert hstep using 3
      simp [and_comm, eq_comm]

/-- A run that answers names, and removes none, puts the new ones behind the others in
the order in which they come first. -/
theorem keys_run (s : State) {us : List Update} (h : ∀ u ∈ us, u.value?.isSome) :
    Entries.keys (s.run us).entries = Entries.keys s.entries ++
      ((us.map (·.key)).filter (· ∉ Entries.keys s.entries)).eraseDups := by
  induction us using List.reverseRecOn with
  | nil => simp [run]
  | append_singleton us u ih =>
      obtain ⟨hus, hu⟩ := List.forall_mem_append.mp h
      obtain ⟨value, hvalue⟩ := Option.isSome_iff_exists.mp (hu u (List.mem_singleton_self u))
      have hstep : Entries.keys (s.run (us ++ [u])).entries =
          if u.key ∈ Entries.keys (s.run us).entries then Entries.keys (s.run us).entries
          else Entries.keys (s.run us).entries ++ [u.key] := by
        rw [run_concat, Update.keys_perform, Update.reorder, hvalue]
      rw [hstep, ih hus, List.map_append, List.filter_append, List.map_singleton]
      by_cases hold : u.key ∈ Entries.keys s.entries
      · simp [hold]
      · have hnew : [u.key].filter (· ∉ Entries.keys s.entries) = [u.key] := by simp [hold]
        simp only [hnew, eraseDups_concat, List.mem_append, List.mem_eraseDups, or_iff_right hold]
        split
        · rfl
        · rw [List.append_assoc]

/-- An update hands out what its name had just before it. -/
theorem handedOut_eq (s : State) (us : List Update) :
    s.handedOut us = us.mapIdx fun i u => (s.run (us.take i)).get u.key := by
  induction us generalizing s with
  | nil => rfl
  | cons u us ih =>
      rw [handedOut, List.mapIdx_cons, ih, u.fst_perform]
      rfl

/-! ## Undoing -/

/-- Some answers as updates. -/
def answers (as : List (String × Value)) : List Update :=
  as.map fun a => .answer a.1 a.2

/-- The answers that some answers replace, the last one first. -/
def replaced (s : State) (as : List (String × Value)) : List (String × Value) :=
  ((as.map (·.1)).zip (s.handedOut (answers as))).reverse

theorem get_undo (s : State) (as : List (String × Value)) (name : String) :
    ((s.run (answers as)).run (answers (s.replaced as))).get name = s.get name := by
  induction as generalizing s with
  | nil => rfl
  | cons a as ih =>
      have hreplaced : s.replaced (a :: as) =
          (s.answer a.1 a.2).2.replaced as ++ [(a.1, s.get a.1)] := by
        simp [replaced, answers, handedOut, Update.perform, answer_eq]
      have hfirst : s.run (answers (a :: as)) = (s.answer a.1 a.2).2.run (answers as) := rfl
      have hlast : ∀ bs : List (String × Value), answers (bs ++ [(a.1, s.get a.1)]) =
          answers bs ++ [.answer a.1 (s.get a.1)] := fun bs => List.map_append
      -- what the first answer replaced is given back last
      rw [hreplaced, hfirst, hlast, run_concat, Update.perform, answer_eq, get_set]
      by_cases h : a.1 = name
      · rw [if_pos h, h]
      · rw [if_neg h, ih, answer_eq, get_set, if_neg h]

end State

/-- Answers are an ordered map along a run of updates. -/
structure State.RunsAsOrderedMap (s : State) (us : List Update) : Prop where
  /-- No name stands twice. -/
  distinct : (Entries.keys (s.run us).entries).Nodup
  size : (s.run us).size = (Entries.keys (s.run us).entries).length
  /-- A name has the answer that its last update left, and that of the start if it has no
  update. -/
  get : ∀ name, (s.run us).get name =
    (Update.lastOn us name).elim (s.get name) fun u => u.value?.getD .absent
  contains : ∀ name, (s.run us).contains name =
    (Update.lastOn us name).elim (s.contains name) fun u => u.value?.isSome
  /-- From every moment on, the names that are not removed stay in front, in their order. -/
  kept : ∀ before behind, us = before ++ behind →
    (Entries.keys (s.run before).entries).filter (fun name => .remove name ∉ behind) <+:
      Entries.keys (s.run us).entries
  /-- A name that is answered while it has no answer goes last. -/
  appended : ∀ before u behind, us = before ++ u :: behind → u.value?.isSome →
    u.key ∉ Entries.keys (s.run before).entries →
      Entries.keys (s.run (before ++ [u])).entries =
        Entries.keys (s.run before).entries ++ [u.key]
  /-- Every update hands out what its name had just before it. -/
  handedOut : s.handedOut us = us.mapIdx fun i u => (s.run (us.take i)).get u.key

/-- After every run of updates a state is an ordered map with what they left in it, and
answers are undone by those that they replaced, the last one first. -/
theorem State.runs_as_ordered_map (s : State) (us : List Update) :
    s.RunsAsOrderedMap us ∧
    ∀ (as : List (String × Value)) (name : String),
      ((s.run (answers as)).run (answers (s.replaced as))).get name = s.get name := by
  refine ⟨?_, s.get_undo⟩
  refine ⟨(s.run us).nodup_keys, (List.length_map _).symm, fun name => ?_, fun name => ?_, ?_, ?_,
    s.handedOut_eq us⟩
  · rw [State.get, get?_run]
    cases Update.lastOn us name <;> rfl
  · rw [State.contains, get?_run]
    cases Update.lastOn us name <;> rfl
  · rintro before behind rfl
    rw [run_append]
    exact kept_run ..
  · rintro before u behind rfl hsome hnew
    obtain ⟨value, hvalue⟩ := Option.isSome_iff_exists.mp hsome
    rw [run_concat, Update.keys_perform, Update.reorder, hvalue]
    exact if_neg hnew

end FormLogic
