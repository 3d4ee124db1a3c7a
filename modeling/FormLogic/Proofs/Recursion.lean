import FormLogic.Condition.Parser
import FormLogic.Expr.Parser
import FormLogic.Proofs.Cursor
import FormLogic.Proofs.Height

/-!
# FormLogic.Proofs.Recursion

Reading recurses no deeper than the limit, whatever the stream. The readers of both
languages are written a second time, as routines on a cursor: there only the counter
stops them, and they have as much fuel as they want. They give what the readers give
(`Tracks`), so what holds of their counter holds of reading, and the trees are no
higher than two nodes a level allow (`AtMost`).
-/

namespace FormLogic

open Routine

/-! ## Conditions -/

namespace Condition.Routines

/-- Read a comparison. -/
def comparison : Routine Kind Condition := do
  let .var name ← peek | unexpected .variable
  advance
  let op? := match ← peek with
    | .op word => CompareOp.ofWord? word
    | _ => none
  let some op := op? | unexpected .operator
  advance
  let .text expected ← peek | unexpected .literal
  advance
  return .compare name op expected

/-- Read a group or a comparison. A group is being read until its condition has been;
the parenthesis behind it is taken one level up. -/
def primary (inner? : Option (Routine Kind Condition)) : Routine Kind Condition := do
  if (← peek) = .leftParen then
    let c ← nested inner? fun inner => do
      advance
      inner
    close .rightParen
    return c
  else comparison

/-- Read primaries joined by `and`, and those joined by `or`. -/
def disjunct (inner? : Option (Routine Kind Condition)) : Routine Kind Condition := do
  let conjunct := conjunction <$> separated .and (primary inner?)
  return disjunction (← separated .or conjunct)

/-- The routine for what stands inside parentheses. -/
def inside? : (fuel : Nat) → Option (Routine Kind Condition)
  | 0 => none
  | fuel + 1 => some (disjunct (inside? fuel))

/-- Read a whole stream as one condition. -/
def read (fuel : Nat) : Routine Kind Condition :=
  whole (disjunct (inside? fuel)) .connective

variable {limit : Nat}

theorem tracks_comparison : Tracks limit comparison Condition.comparison := by
  refine tracks_peek.bind fun k => ?_
  cases k with
  | var name =>
      refine tracks_advance.bind fun _ => tracks_peek.bind fun k => ?_
      cases k with
      | op word =>
          dsimp only
          cases CompareOp.ofWord? word with
          | none => exact tracks_unexpected .operator
          | some op =>
              refine tracks_advance.bind fun _ => tracks_peek.bind fun k => ?_
              cases k with
              | text expected => exact tracks_advance.bind fun _ => tracks_pure _
              | _ => exact tracks_unexpected .literal
      | _ => exact tracks_unexpected .operator
  | _ => exact tracks_unexpected .variable

/-- A reader that goes on behind a group fails as the group does. -/
theorem nested_bind {β : Type} (below : Option β) (read : β → Reader Kind Condition)
    (more : Condition → Reader Kind Condition) :
    (Reader.nested below fun inner => read inner >>= more) = Reader.nested below read >>= more := by
  cases below <;> rfl

theorem tracks_primary {below : Option (Routine Kind Condition)}
    {below' : Option (Reader Kind Condition)} (h : Below Tracks limit below below') :
    Tracks limit (primary below) (Condition.primary below') := by
  refine tracks_peek.bind fun k => ?_
  split
  · have hnested : Tracks limit (nested below fun inner => do advance; inner)
        (Reader.nested below' fun inner => do Reader.advance; inner) :=
      h.tracks_nested fun _ _ _ hinner => tracks_advance.bind fun _ => hinner
    have hclosed := hnested.bind fun c => (tracks_close Kind.rightParen).bind fun _ =>
      tracks_pure c
    rw [← nested_bind] at hclosed
    exact hclosed
  · exact tracks_comparison

theorem tracks_disjunct_of_below {below : Option (Routine Kind Condition)}
    {below' : Option (Reader Kind Condition)} (h : Below Tracks limit below below') :
    Tracks limit (disjunct below) (Condition.disjunct below') :=
  ((((tracks_primary h).separated .and).map conjunction).separated .or).bind fun _ =>
    tracks_pure _

theorem below_inside? {fuel : Nat} (h : limit ≤ fuel) :
    Below Tracks limit (inside? fuel) (Condition.inside? limit) := by
  induction limit generalizing fuel with
  | zero => exact .zero
  | succ limit ih =>
      obtain ⟨fuel, rfl⟩ := Nat.exists_eq_add_one_of_ne_zero (by omega : fuel ≠ 0)
      exact .succ (tracks_disjunct_of_below (ih (by omega)))

/-- With fuel for every level, the routine gives what the reader gives. -/
theorem tracks_read {fuel : Nat} (h : maxNesting ≤ fuel) :
    Tracks maxNesting (read fuel) Condition.read :=
  (tracks_disjunct_of_below (below_inside? h)).whole .connective

end Condition.Routines

/-! ## Value expressions -/

namespace Expr.Routines

/-- The routines for what stands inside a group or a call. -/
structure Inside where
  expression : Routine Kind Expr
  operand : Routine Kind Expr

/-- Read the rest of a group. -/
def group (inside : Inside) : Routine Kind Expr := do
  advance
  let e ← inside.expression
  close .rightParen
  return e

/-- Read a literal, a variable or a group. -/
def simple (inside? : Option Inside) (wanted : Wanted) : Routine Kind Expr := do
  match ← peek with
  | .leftParen => nested inside? group
  | .text s => advance; return .text s
  | .bool b => advance; return .bool b
  | .var raw => advance; return .var (Path.ofText raw)
  | _ => unexpected wanted

/-- Read the test of an `if`: a boolean alone, or two operands. -/
def test (inside : Inside) : Routine Kind Test := do
  if let .bool b ← peek then
    advance
    return .literal b
  let left ← inside.operand
  expect .is .is
  return .is left (← inside.operand)

/-- Read a call of `if` from its name on. -/
def ifCall (inside : Inside) : Routine Kind Expr := do
  advance
  expect .leftParen (.opening .ifElse)
  let t ← test inside
  expect .comma (.comma .ifElse)
  let yes ← inside.expression
  expect .comma (.comma .ifElse)
  let no ← inside.expression
  close .rightParen
  return .ifElse t yes no

/-- Read a call of `replaceAll` from its name on. -/
def replaceCall (inside : Inside) : Routine Kind Expr := do
  advance
  expect .leftParen (.opening .replaceAll)
  let value ← inside.expression
  expect .comma (.comma .replaceAll)
  let search ← inside.expression
  expect .comma (.comma .replaceAll)
  let replacement ← inside.expression
  close .rightParen
  return .replaceAll value search replacement

/-- Read a term of a `+` run. -/
def term (inside? : Option Inside) : Routine Kind Expr := do
  let .ident name ← peek | simple inside? .value
  match Function.ofName? name with
  | some .ifElse => nested inside? ifCall
  | some .replaceAll => nested inside? replaceCall
  | none => fail (.unknownFunction name Function.names)

/-- Read a side of `is`. -/
def operand (inside? : Option Inside) : Routine Kind Expr := do
  let .ident name ← peek | simple inside? .operand
  match Function.ofName? name with
  | some .replaceAll => nested inside? replaceCall
  | some .ifElse => unexpected .operandNotIf
  | none => fail (.unknownFunction name Function.names)

/-- Read terms joined by `+`. -/
def expression (inside? : Option Inside) : Routine Kind Expr :=
  join <$> separated .plus (term inside?)

/-- The routines for what stands inside a group or a call. -/
def inside? : (fuel : Nat) → Option Inside
  | 0 => none
  | fuel + 1 => some ⟨expression (inside? fuel), operand (inside? fuel)⟩

/-- Read a whole stream as one expression. -/
def read (fuel : Nat) : Routine Kind Expr :=
  whole (expression (inside? fuel)) .plus

/-- Both routines for what stands inside track the readers. -/
structure TracksInside (limit : Nat) (inside : Inside) (inside' : Expr.Inside) : Prop where
  expression : Tracks limit inside.expression inside'.expression
  operand : Tracks limit inside.operand inside'.operand

section
variable {limit : Nat} {inside : Inside} {inside' : Expr.Inside}
  (h : TracksInside limit inside inside')
include h

theorem tracks_group : Tracks limit (group inside) (Expr.group inside') :=
  tracks_advance.bind fun _ => h.expression.bind fun _ => (tracks_close _).bind fun _ =>
    tracks_pure _

theorem tracks_test : Tracks limit (test inside) (Expr.test inside') := by
  have hoperands := h.operand.bind fun left =>
    (tracks_expect Kind.is .is).bind fun _ => h.operand.bind fun right =>
      tracks_pure (Test.is left right)
  refine tracks_peek.bind fun k => ?_
  cases k with
  | bool b => exact tracks_advance.bind fun _ => tracks_pure _
  | _ => exact hoperands

theorem tracks_ifCall : Tracks limit (ifCall inside) (Expr.ifCall inside') :=
  tracks_advance.bind fun _ => (tracks_expect _ _).bind fun _ => (tracks_test h).bind fun _ =>
    (tracks_expect _ _).bind fun _ => h.expression.bind fun _ => (tracks_expect _ _).bind fun _ =>
      h.expression.bind fun _ => (tracks_close _).bind fun _ => tracks_pure _

theorem tracks_replaceCall : Tracks limit (replaceCall inside) (Expr.replaceCall inside') :=
  tracks_advance.bind fun _ => (tracks_expect _ _).bind fun _ => h.expression.bind fun _ =>
    (tracks_expect _ _).bind fun _ => h.expression.bind fun _ => (tracks_expect _ _).bind fun _ =>
      h.expression.bind fun _ => (tracks_close _).bind fun _ => tracks_pure _

end

section
variable {limit : Nat} {below : Option Inside} {below' : Option Expr.Inside}
  (h : Below TracksInside limit below below')
include h

theorem tracks_simple (wanted : Wanted) :
    Tracks limit (simple below wanted) (Expr.simple below' wanted) := by
  refine tracks_peek.bind fun k => ?_
  cases k with
  | leftParen => exact h.tracks_nested fun _ _ _ => tracks_group
  | text | bool | var => exact tracks_advance.bind fun _ => tracks_pure _
  | _ => exact tracks_unexpected wanted

theorem tracks_term : Tracks limit (term below) (Expr.term below') := by
  refine tracks_peek.bind fun k => ?_
  cases k with
  | ident name =>
      dsimp only
      cases Function.ofName? name with
      | none => exact tracks_fail _
      | some f =>
          cases f with
          | ifElse => exact h.tracks_nested fun _ _ _ => tracks_ifCall
          | replaceAll => exact h.tracks_nested fun _ _ _ => tracks_replaceCall
  | _ => exact tracks_simple h .value

theorem tracks_operand : Tracks limit (operand below) (Expr.operand below') := by
  refine tracks_peek.bind fun k => ?_
  cases k with
  | ident name =>
      dsimp only
      cases Function.ofName? name with
      | none => exact tracks_fail _
      | some f =>
          cases f with
          | ifElse => exact tracks_unexpected .operandNotIf
          | replaceAll => exact h.tracks_nested fun _ _ _ => tracks_replaceCall
  | _ => exact tracks_simple h .operand

theorem tracks_expression : Tracks limit (expression below) (Expr.expression below') :=
  ((tracks_term h).separated .plus).map join

end

theorem below_inside? {limit fuel : Nat} (h : limit ≤ fuel) :
    Below TracksInside limit (inside? fuel) (Expr.inside? limit) := by
  induction limit generalizing fuel with
  | zero => exact .zero
  | succ limit ih =>
      obtain ⟨fuel, rfl⟩ := Nat.exists_eq_add_one_of_ne_zero (by omega : fuel ≠ 0)
      have hbelow := ih (by omega : limit ≤ fuel)
      exact .succ ⟨tracks_expression hbelow, tracks_operand hbelow⟩

/-- With fuel for every level, the routine gives what the reader gives. -/
theorem tracks_read {fuel : Nat} (h : maxNesting ≤ fuel) :
    Tracks maxNesting (read fuel) Expr.read :=
  (tracks_expression (below_inside? h)).whole .plus

end Expr.Routines

/-! ## Both languages -/

/-- A run of a routine over a whole stream that gives `want`, where the counter counts
the groups and calls that are being read at every moment, is never over the limit, and
is back at 0 in the end. -/
structure Bounded {κ α : Type} (out : Except (Option Fault) α × Cursor κ)
    (want : Except Fault α) : Prop where
  result : out.1 = want.mapError some
  counts : ∀ m ∈ out.2.moments, m.depth = m.active.length ∧ m.depth ≤ 64
  depth : out.2.depth = 0

theorem Tracks.bounded {κ α : Type} {t : Routine κ α} {r : Reader κ α}
    (h : Tracks maxNesting t r) (s : Stream κ) :
    Bounded (t.runOn (.start s)) ((r.run s).map (·.1)) := by
  have hreturns := h (.start s) ⟨⟨rfl, Nat.zero_le _⟩, by simp [Cursor.start]⟩ rfl
  refine ⟨?_, hreturns.steady.before, hreturns.depth⟩
  have hsame : SameResult (t.runOn (.start s)) (r.run s) := hreturns.same
  obtain ⟨⟨result, c⟩, hrun⟩ : ∃ out, t.runOn (.start s) = out := ⟨_, rfl⟩
  rw [hrun] at hsame ⊢
  cases hr : r.run s with
  | error f =>
      rw [hr] at hsame
      exact hsame
  | ok x =>
      rw [hr] at hsame
      exact hsame.1

/-- Recursion is bounded, however long a stream is. Conditions have at most 131 nodes
on a path from the root to a leaf, and value expressions at most 130. While they are
read, the counter counts the groups and calls that are being read, it is never over
64, and in the end it is 0, whether a tree or a fault comes out. -/
theorem recursion_bounded (source : String) (fuel : Nat) (h : maxNesting ≤ fuel) :
    (∀ tokens,
      (∀ c, Condition.ofTokens source tokens = .ok c →
        ∀ p, IsPath Condition.children c p → p.length ≤ 131) ∧
      Bounded ((Condition.Routines.read fuel).runOn (.start (.ofTokens source tokens)))
        (Condition.ofTokens source tokens)) ∧
    (∀ tokens,
      (∀ e, Expr.ofTokens source tokens = .ok e →
        ∀ p, IsPath Expr.children e p → p.length ≤ 130) ∧
      Bounded ((Expr.Routines.read fuel).runOn (.start (.ofTokens source tokens)))
        (Expr.ofTokens source tokens)) := by
  constructor
  · intro tokens
    exact ⟨fun _ => Condition.atMost_of_ofTokens, (Condition.Routines.tracks_read h).bounded _⟩
  · intro tokens
    exact ⟨fun _ => Expr.atMost_of_ofTokens, (Expr.Routines.tracks_read h).bounded _⟩

/-- A group that is never closed, and one behind a `+`: the paths of the trees, and the
counter at each token that is looked at, the last one in front. -/
theorem recursion_bounded_group :
    (Condition.ofTokens "(\x7ba\x7d == 'x'" (Condition.lex "(\x7ba\x7d == 'x'").tokens =
        .ok (.compare "a" .equals "x") ∧
      [Condition.compare "a" .equals "x"].length ≤ 131 ∧
      ((Condition.Routines.read 64).runOn (.start (.ofTokens "(\x7ba\x7d == 'x'"
        (Condition.lex "(\x7ba\x7d == 'x'").tokens))).2.moments.map (·.depth) =
          [0, 0, 1, 1, 1, 1, 1, 1, 1, 1, 0] ∧
      Bounded ((Condition.Routines.read 64).runOn (.start (.ofTokens "(\x7ba\x7d == 'x'"
          (Condition.lex "(\x7ba\x7d == 'x'").tokens)))
        (Condition.ofTokens "(\x7ba\x7d == 'x'" (Condition.lex "(\x7ba\x7d == 'x'").tokens)) ∧
    (Expr.ofTokens "'x' + (true)" (Expr.lex "'x' + (true)").tokens =
        .ok (.concat [.text "x", .bool true]) ∧
      [Expr.concat [.text "x", .bool true], .bool true].length ≤ 130) := by
  have hcondition : Condition.ofTokens "(\x7ba\x7d == 'x'"
      (Condition.lex "(\x7ba\x7d == 'x'").tokens = .ok (.compare "a" .equals "x") := rfl
  have hexpr : Expr.ofTokens "'x' + (true)" (Expr.lex "'x' + (true)").tokens =
      .ok (.concat [.text "x", .bool true]) := by decide +kernel
  have hbool : IsPath Expr.children (.concat [.text "x", .bool true])
      [.concat [.text "x", .bool true], .bool true] :=
    .node (List.mem_cons_of_mem _ (List.mem_singleton_self _)) (.leaf rfl)
  obtain ⟨hheight, hbounded⟩ := (recursion_bounded "(\x7ba\x7d == 'x'" 64 (Nat.le_refl _)).1
    (Condition.lex "(\x7ba\x7d == 'x'").tokens
  refine ⟨⟨hcondition, hheight _ hcondition _ (.leaf rfl), rfl, hbounded⟩, hexpr, ?_⟩
  exact ((recursion_bounded "'x' + (true)" 64 (Nat.le_refl _)).2 _).1 _ hexpr _ hbool

end FormLogic
