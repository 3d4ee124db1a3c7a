import FormLogic.Stream

/-!
# FormLogic.Proofs.Cursor

Readers that count how deep they are. A `Cursor` is a stream with a counter that goes
up in front of a group or a call and down behind it, and it knows which groups and
calls are being read. A `Routine` moves a cursor and leaves it where it was when it
fails; each time it looks at a token, the moment is kept (`Cursor.moments`).

Nothing ties the counter to what is being read but the routines themselves.
`Tracks limit t r` says that the routine `t` gives what the reader `r` gives, that the
counter counts what is being read at every moment on the way, and that it is back
where it was at the end, whether a tree or a fault comes out.
-/

namespace FormLogic

/-! ## Cursors -/

/-- What a cursor shows at one moment: its counter, and the first tokens of the groups
and calls that are being read, the innermost in front. -/
structure Moment (κ : Type) where
  depth : Nat
  active : List (Token κ)

/-- The counter counts what is being read, and it is not over the limit. -/
def Moment.Steady {κ : Type} (m : Moment κ) : Prop :=
  m.depth = m.active.length ∧ m.depth ≤ maxNesting

/-- A place in a stream, with the moments on the way there. -/
structure Cursor (κ : Type) extends Moment κ where
  stream : Stream κ
  moments : List (Moment κ)

/-- A cursor in front of a stream. -/
def Cursor.start {κ : Type} (s : Stream κ) : Cursor κ := ⟨⟨0, []⟩, s, []⟩

/-- Keep this moment. -/
def Cursor.noted {κ : Type} (c : Cursor κ) : Cursor κ :=
  { c with moments := c.toMoment :: c.moments }

/-- Now and at every moment before, the counter counts what is being read. -/
structure Cursor.Steady {κ : Type} (c : Cursor κ) : Prop where
  now : c.toMoment.Steady
  before : ∀ m ∈ c.moments, m.Steady

/-! ## Routines -/

/-- What moves a cursor. It fails with a fault, or with none when it is out of fuel. -/
abbrev Routine (κ α : Type) := ExceptT (Option Fault) (StateM (Cursor κ)) α

namespace Routine

variable {κ α β : Type}

/-- What comes out of a routine, with the cursor that it leaves. -/
def runOn (t : Routine κ α) (c : Cursor κ) : Except (Option Fault) α × Cursor κ :=
  (ExceptT.run t).run c

/-- The token in front. -/
def look : Routine κ (Token κ) := do
  modify Cursor.noted
  return (← get).stream.current

/-- The kind of the token in front. -/
def peek : Routine κ κ :=
  return (← look).kind

/-- Take the token in front. -/
def advance : Routine κ Unit := do
  modify Cursor.noted
  modify fun c => { c with stream := c.stream.next }

/-- Fail at the token in front. -/
def fail (cause : Cause) : Routine κ α := do
  throw (some ⟨cause, (← look).span⟩)

/-- One level deeper, if the counter allows it. -/
def enter : Routine κ Unit := do
  if maxNesting ≤ (← get).depth then fail (.nestingTooDeep maxNesting)
  else modify fun c => { c with depth := c.depth + 1 }

/-- One level up. -/
def leave : Routine κ Unit :=
  modify fun c => { c with depth := c.depth - 1 }

/-- Read a group or a call that the token in front starts, and tell what came out of
it. While the routine runs, the group or call is being read. -/
def during (t : Routine κ α) : Routine κ (Except (Option Fault) α) := do
  let active := (← get).active
  modify fun c => { c with active := c.stream.current :: c.active }
  let result ← (ExceptT.lift (ExceptT.run t) : Routine κ (Except (Option Fault) α))
  modify fun c => { c with active }
  return result

/-- Read a group or a call one level deeper, and come back whatever happens. The
routines for the level below are `none` when there is no fuel left. -/
def nested (below : Option β) (read : β → Routine κ α) : Routine κ α := do
  enter
  let result ← during (match below with
    | none => throw none
    | some inner => read inner)
  leave
  ExceptT.mk (pure result)

variable [TokenKind κ]

/-- Fail because the token in front is not what is wanted. -/
def unexpected (wanted : Wanted) : Routine κ α := do
  fail (.unexpectedToken wanted (TokenKind.text (← peek)))

/-- Take a token of the given kind. -/
def expect [DecidableEq κ] (kind : κ) (wanted : Wanted) : Routine κ Unit := do
  if (← peek) = kind then advance else unexpected wanted

/-- Take a closing parenthesis; at the end of the stream it may be missing. -/
def close [DecidableEq κ] (rightParen : κ) : Routine κ Unit := do
  let kind ← peek
  if kind = rightParen then advance
  else if TokenKind.isEof kind then pure ()
  else unexpected .closing

/-- Read one more item behind each separator, at most `fuel` times. -/
def itemsAfter [DecidableEq κ] (separator : κ) (item : Routine κ α) :
    (fuel : Nat) → Routine κ (List α)
  | 0 => pure []
  | fuel + 1 => do
    if (← peek) = separator then
      advance
      let a ← item
      return a :: (← itemsAfter separator item fuel)
    else pure []

/-- Read one or more items with a separator between neighbours. -/
def separated [DecidableEq κ] (separator : κ) (item : Routine κ α) : Routine κ (List α) := do
  let a ← item
  return a :: (← itemsAfter separator item (← get).stream.ahead.length)

/-- Read a whole stream: nothing may be left behind what `read` takes. -/
def whole (read : Routine κ α) (wanted : Wanted) : Routine κ α := do
  let a ← read
  if TokenKind.isEof (← peek) then pure a else unexpected wanted

end Routine

/-! ## Routines against readers -/

section
variable {κ α β γ δ : Type} {limit : Nat} {c : Cursor κ}

theorem Cursor.Steady.noted (h : c.Steady) : c.noted.Steady :=
  ⟨h.now, List.forall_mem_cons.mpr ⟨h.now, h.before⟩⟩

/-- What came out of a routine is what comes out of a reader. -/
def SameResult : Except (Option Fault) α × Cursor κ → Except Fault (α × Stream κ) → Prop
  | (result, c), .ok (a, s) => result = .ok a ∧ c.stream = s
  | (result, _), .error f => result = .error (some f)

/-- Only the stream of the cursor matters to the result. -/
theorem SameResult.of_stream_eq {result : Except (Option Fault) α} {c' : Cursor κ}
    {want : Except Fault (α × Stream κ)} (h : SameResult (result, c) want)
    (hstream : c'.stream = c.stream) : SameResult (result, c') want := by
  cases want with
  | error f => exact h
  | ok x => exact ⟨h.1, hstream.trans h.2⟩

/-- From the cursor `c` a routine comes back to the counter and to what was being read,
and the result is `want`. -/
structure Returns (c : Cursor κ) (out : Except (Option Fault) α × Cursor κ)
    (want : Except Fault (α × Stream κ)) : Prop where
  steady : out.2.Steady
  depth : out.2.depth = c.depth
  active : out.2.active = c.active
  same : SameResult out want

/-- With `limit` levels left, the routine `t` counts what it reads and gives what the
reader `r` gives. -/
def Tracks (limit : Nat) (t : Routine κ α) (r : Reader κ α) : Prop :=
  ∀ c : Cursor κ, c.Steady → c.depth + limit = maxNesting → Returns c (t.runOn c) (r.run c.stream)

open Routine

theorem runOn_bind (t : Routine κ α) (f : α → Routine κ β) (c : Cursor κ) :
    (t >>= f).runOn c = match t.runOn c with
      | (.ok a, c') => (f a).runOn c'
      | (.error e, c') => (.error e, c') := by
  show (ExceptT.bindCont f (t.runOn c).1).run (t.runOn c).2 = _
  obtain ⟨result, c'⟩ := t.runOn c
  cases result <;> rfl

theorem tracks_pure (a : α) : Tracks limit (pure a : Routine κ α) (pure a) :=
  fun _ hc _ => ⟨hc, rfl, rfl, rfl, rfl⟩

theorem Tracks.bind {t : Routine κ α} {r : Reader κ α} {f : α → Routine κ β}
    {g : α → Reader κ β} (h : Tracks limit t r) (hf : ∀ a, Tracks limit (f a) (g a)) :
    Tracks limit (t >>= f) (r >>= g) := by
  intro c hc hlimit
  have hreturns := h c hc hlimit
  rw [runOn_bind, StateT.run_bind]
  obtain ⟨⟨result, c'⟩, hrun⟩ : ∃ out, t.runOn c = out := ⟨_, rfl⟩
  rw [hrun] at hreturns ⊢
  cases hr : r.run c.stream with
  | error e =>
      rw [hr] at hreturns
      obtain ⟨hsteady, hdepth, hactive, rfl⟩ := hreturns
      exact ⟨hsteady, hdepth, hactive, rfl⟩
  | ok x =>
      rw [hr] at hreturns
      obtain ⟨hsteady, hdepth, hactive, rfl, hstream⟩ := hreturns
      have hnext := hf x.1 c' hsteady (by rw [← hlimit]; exact congrArg (· + limit) hdepth)
      rw [hstream] at hnext
      exact ⟨hnext.steady, hnext.depth.trans hdepth, hnext.active.trans hactive, hnext.same⟩

theorem Tracks.map {t : Routine κ α} {r : Reader κ α} (h : Tracks limit t r) (f : α → β) :
    Tracks limit (f <$> t) (f <$> r) := by
  rw [map_eq_pure_bind, map_eq_pure_bind]
  exact h.bind fun _ => tracks_pure _

theorem tracks_peek : Tracks limit (peek : Routine κ κ) Reader.peek :=
  fun _ hc _ => ⟨hc.noted, rfl, rfl, rfl, rfl⟩

theorem tracks_advance : Tracks limit (advance : Routine κ Unit) Reader.advance :=
  fun _ hc _ => ⟨⟨hc.now, hc.noted.before⟩, rfl, rfl, rfl, rfl⟩

theorem tracks_fail (cause : Cause) :
    Tracks limit (fail cause : Routine κ α) (Reader.fail cause) :=
  fun _ hc _ => ⟨hc.noted, rfl, rfl, rfl⟩

theorem tracks_get_bind {f : Cursor κ → Routine κ α} {g : Stream κ → Reader κ α}
    (h : ∀ c, Tracks limit (f c) (g c.stream)) : Tracks limit (get >>= f) (get >>= g) :=
  fun c hc hlimit => h c c hc hlimit

/-! ## Levels -/

theorem runOn_enter_of_le (h : maxNesting ≤ c.depth) :
    (enter : Routine κ Unit).runOn c =
      (.error (some ⟨.nestingTooDeep maxNesting, c.stream.current.span⟩), c.noted) := by
  show (if maxNesting ≤ c.depth then _ else _ : Routine κ Unit).runOn c = _
  rw [if_pos h]
  rfl

theorem runOn_enter_of_lt (h : c.depth < maxNesting) :
    (enter : Routine κ Unit).runOn c = (.ok (), { c with depth := c.depth + 1 }) := by
  show (if maxNesting ≤ c.depth then _ else _ : Routine κ Unit).runOn c = _
  rw [if_neg (by omega)]
  rfl

/-- A cursor one level down, where the token in front starts what is being read. -/
def Cursor.entered (c : Cursor κ) : Cursor κ :=
  { c with depth := c.depth + 1, active := c.stream.current :: c.active }

theorem Cursor.Steady.entered (h : c.Steady) (hlt : c.depth < maxNesting) : c.entered.Steady where
  now := ⟨congrArg (· + 1) h.now.1, hlt⟩
  before := h.before

/-- What a routine gives one level down is given, whatever it is, and the cursor comes
back up. -/
theorem runOn_nested_some {inner : β} {read : β → Routine κ α} (h : c.depth < maxNesting) :
    (nested (some inner) read).runOn c =
      (((read inner).runOn c.entered).1,
        { ((read inner).runOn c.entered).2 with
          depth := ((read inner).runOn c.entered).2.depth - 1, active := c.active }) := by
  unfold nested
  rw [runOn_bind, runOn_enter_of_lt h]
  rfl

/-- With no level left, the counter stops a routine, however much fuel it has. -/
theorem tracks_nested_zero (below : Option β) (read : β → Routine κ α) (read' : γ → Reader κ α) :
    Tracks 0 (nested below read) (Reader.nested none read') := by
  intro c hc hlimit
  unfold nested
  rw [runOn_bind, runOn_enter_of_le (by omega)]
  exact ⟨hc.noted, rfl, rfl, rfl⟩

/-- One level down there is one more to be read, and it is no longer being read when a
tree or a fault has come out. -/
theorem tracks_nested_succ {inner : β} {inner' : γ} {read : β → Routine κ α}
    {read' : γ → Reader κ α} (h : Tracks limit (read inner) (read' inner')) :
    Tracks (limit + 1) (nested (some inner) read) (Reader.nested (some inner') read') := by
  intro c hc hlimit
  have hlt : c.depth < maxNesting := by omega
  have hreturns := h c.entered (hc.entered hlt) (by
    show c.depth + 1 + limit = maxNesting
    omega)
  rw [runOn_nested_some hlt]
  obtain ⟨⟨result, c'⟩, hrun⟩ : ∃ out, (read inner).runOn c.entered = out := ⟨_, rfl⟩
  rw [hrun] at hreturns ⊢
  have hdepth : c'.depth - 1 = c.depth := by
    rw [show c'.depth = c.depth + 1 from hreturns.depth, Nat.add_sub_cancel]
  have hnow := hc.now
  refine ⟨⟨?_, hreturns.steady.before⟩, hdepth, rfl, hreturns.same.of_stream_eq rfl⟩
  exact ⟨hdepth.trans hnow.1, Nat.le_trans (Nat.le_of_eq hdepth) hnow.2⟩

/-- The levels below a routine and below a reader: none are left to the reader, or both
have a level below, with one less. -/
inductive Below (R : Nat → β → γ → Prop) : Nat → Option β → Option γ → Prop
  | zero {below : Option β} : Below R 0 below none
  | succ {limit : Nat} {inner : β} {inner' : γ} :
    R limit inner inner' → Below R (limit + 1) (some inner) (some inner')

theorem Below.tracks_nested {R : Nat → β → γ → Prop} {below : Option β} {below' : Option γ}
    (h : Below R limit below below') {read : β → Routine κ α} {read' : γ → Reader κ α}
    (hread : ∀ limit inner inner', R limit inner inner' →
      Tracks limit (read inner) (read' inner')) :
    Tracks limit (nested below read) (Reader.nested below' read') := by
  cases h with
  | zero => exact tracks_nested_zero _ read read'
  | succ hinner => exact tracks_nested_succ (hread _ _ _ hinner)

/-! ## Routines of several tokens -/

variable [TokenKind κ]

theorem tracks_unexpected (wanted : Wanted) :
    Tracks limit (unexpected wanted : Routine κ α) (Reader.unexpected wanted) :=
  tracks_peek.bind fun _ => tracks_fail _

theorem Tracks.whole {t : Routine κ α} {r : Reader κ α} (h : Tracks limit t r)
    (wanted : Wanted) : Tracks limit (whole t wanted) (Reader.whole r wanted) := by
  refine h.bind fun a => tracks_peek.bind fun k => ?_
  split
  · exact tracks_pure a
  · exact tracks_unexpected wanted

variable [DecidableEq κ]

theorem tracks_expect (k : κ) (wanted : Wanted) :
    Tracks limit (expect k wanted) (Reader.expect k wanted) := by
  refine tracks_peek.bind fun k' => ?_
  split
  · exact tracks_advance
  · exact tracks_unexpected wanted

theorem tracks_close (closing : κ) : Tracks limit (close closing) (Reader.close closing) := by
  refine tracks_peek.bind fun k => ?_
  split
  · exact tracks_advance
  · split
    · exact tracks_pure ()
    · exact tracks_unexpected .closing

omit [TokenKind κ] in
theorem Tracks.itemsAfter {t : Routine κ α} {r : Reader κ α} (h : Tracks limit t r)
    (separator : κ) (fuel : Nat) :
    Tracks limit (itemsAfter separator t fuel) (Reader.itemsAfter separator r fuel) := by
  induction fuel with
  | zero => exact tracks_pure []
  | succ fuel ih =>
      refine tracks_peek.bind fun k => ?_
      split
      · exact tracks_advance.bind fun _ => h.bind fun _ => ih.bind fun _ => tracks_pure _
      · exact tracks_pure []

omit [TokenKind κ] in
theorem Tracks.separated {t : Routine κ α} {r : Reader κ α} (h : Tracks limit t r)
    (separator : κ) : Tracks limit (separated separator t) (Reader.separated separator r) := by
  exact h.bind fun a => tracks_get_bind fun c =>
    (h.itemsAfter separator c.stream.ahead.length).bind fun _ => tracks_pure _

end

end FormLogic
