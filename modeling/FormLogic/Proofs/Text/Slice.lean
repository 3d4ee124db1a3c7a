import FormLogic.Text.Position

/-!
# FormLogic.Proofs.Text.Slice

The text at a span. A span is cut out of a source by its bytes, which fails where
it does not start and end between two characters or does not lie in the source
(`slice?_eq_some`).
-/

namespace FormLogic.Text

/-- The first `n` bytes of a text and the rest, if no character lies across. -/
def splitBytes? : (n : Nat) → List Char → Option (List Char × List Char)
  | 0, s => some ([], s)
  | _ + 1, [] => none
  | n + 1, c :: s =>
    if c.utf8Size ≤ n + 1 then
      (splitBytes? (n + 1 - c.utf8Size) s).map fun (front, back) => (c :: front, back)
    else none

theorem splitBytes?_cons {n : Nat} {c : Char} (s : List Char) (h : c.utf8Size ≤ n) :
    splitBytes? n (c :: s) =
      (splitBytes? (n - c.utf8Size) s).map fun (front, back) => (c :: front, back) := by
  have hpos := c.utf8Size_pos
  obtain ⟨n, rfl⟩ := Nat.exists_eq_add_one_of_ne_zero (by omega : n ≠ 0)
  simp [splitBytes?, h]

theorem splitBytes?_append (front back : List Char) :
    splitBytes? (byteLength front) (front ++ back) = some (front, back) := by
  induction front with
  | nil => cases back <;> rfl
  | cons c front ih =>
      have hrest : c.utf8Size + byteLength front - c.utf8Size = byteLength front := by omega
      rw [List.cons_append, byteLength_cons, splitBytes?_cons _ (Nat.le_add_right _ _), hrest, ih]
      rfl

theorem splitBytes?_eq_some {n : Nat} {s front back : List Char} :
    splitBytes? n s = some (front, back) ↔ s = front ++ back ∧ byteLength front = n := by
  constructor
  · intro h
    fun_induction splitBytes? n s generalizing front with
    | case1 s =>
        obtain ⟨rfl, rfl⟩ := Prod.mk.inj (Option.some.inj h)
        exact ⟨rfl, rfl⟩
    | case2 => contradiction
    | case3 n c s hle ih =>
        obtain ⟨⟨front, back⟩, hsplit, heq⟩ := Option.map_eq_some_iff.mp h
        obtain ⟨rfl, rfl⟩ := Prod.mk.inj heq
        obtain ⟨rfl, hlength⟩ := ih hsplit
        exact ⟨rfl, by rw [byteLength_cons]; omega⟩
    | case4 => contradiction
  · intro h
    obtain ⟨rfl, rfl⟩ := h
    exact splitBytes?_append front back

/-- The text at a span of a source. -/
def Span.slice? (source : String) (a : Span) : Option String := do
  let (_, rest) ← splitBytes? a.offset source.toList
  let (text, _) ← splitBytes? a.length rest
  return String.ofList text

/-- A text stands at a span when it takes up its bytes, behind a text that takes up
the bytes in front of it. -/
theorem slice?_eq_some {source text : String} {a : Span} :
    a.slice? source = some text ↔ ∃ before behind,
      source.toList = before ++ (text.toList ++ behind) ∧
        byteLength before = a.offset ∧ byteLength text.toList = a.length := by
  unfold Span.slice?
  constructor
  · intro h
    obtain ⟨⟨before, rest⟩, hbefore, h⟩ := Option.bind_eq_some_iff.mp h
    obtain ⟨⟨text, behind⟩, htext, heq⟩ := Option.bind_eq_some_iff.mp h
    obtain rfl := Option.some.inj heq
    obtain ⟨hsource, hoffset⟩ := splitBytes?_eq_some.mp hbefore
    obtain ⟨rfl, hlength⟩ := splitBytes?_eq_some.mp htext
    exact ⟨before, behind, by simpa using hsource, hoffset, by simpa using hlength⟩
  · intro h
    obtain ⟨before, behind, hsource, hoffset, hlength⟩ := h
    have hbefore := splitBytes?_eq_some.mpr ⟨hsource, hoffset⟩
    have htext : splitBytes? a.length (text.toList ++ behind) = some (text.toList, behind) :=
      splitBytes?_eq_some.mpr ⟨rfl, hlength⟩
    simp [hbefore, htext]

end FormLogic.Text
