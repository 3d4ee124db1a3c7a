import FormLogic.State

/-!
# FormLogic.Proofs.Path

What a path finds. It finds an answer, an answer inside that one, and so on, or it
finds nothing. So what holds of all answers and is inherited by those inside them holds
of what a path finds (`Inherited.follow`).
-/

namespace FormLogic

/-- What holds of absent answers, and of the entries of an object of which it holds. -/
structure Inherited (p : Value → Prop) : Prop where
  absent : p .absent
  entry : ∀ {es : Entries Value} {e : String × Value}, p (.object es) → e ∈ es → p e.2

namespace Inherited

variable {p : Value → Prop} {es : Entries Value}

theorem getD_get? (hp : Inherited p) (h : ∀ e ∈ es, p e.2) (key : String) :
    p ((Entries.get? es key).getD .absent) := by
  cases hget : Entries.get? es key with
  | none => exact hp.absent
  | some v => exact h _ (Entries.mem_of_get? hget)

theorem step (hp : Inherited p) (h : ∀ e ∈ es, p e.2) (segment : PathSegment) :
    p (State.step es segment) := by
  have hfound := hp.getD_get? h segment.key
  rw [State.step]
  cases hvalue : (Entries.get? es segment.key).getD .absent with
  | object inner =>
      rw [hvalue] at hfound
      cases segment.accessor with
      | none => exact hfound
      | some accessor => exact hp.getD_get? (fun _ => hp.entry hfound) accessor
  | _ =>
      rw [hvalue] at hfound
      cases segment.accessor <;> exact hfound

theorem within (hp : Inherited p) {v : Value} (h : p v) : ∀ e ∈ State.within v, p e.2 := by
  cases v with
  | object inner => exact fun _ => hp.entry h
  | _ => exact fun _ he => absurd he List.not_mem_nil

/-- What all answers have and pass on to those inside them, a path finds. -/
theorem follow (hp : Inherited p) (h : ∀ e ∈ es, p e.2) (segments : List PathSegment) :
    p (State.follow es segments) := by
  fun_induction State.follow es segments with
  | case1 => exact hp.absent
  | case2 => exact hp.absent
  | case3 es segment => exact hp.step h segment
  | case4 es segment hkey next more ih => exact ih (hp.within (hp.step h segment))

end Inherited

end FormLogic
