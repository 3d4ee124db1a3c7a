import FormLogic.Json.Parser
import FormLogic.Json.Printer
import Mathlib.Data.List.Basic

/-!
# FormLogic.Proofs.Json.Literal

Strings and integers as they are printed, read back. An escape is read as the
character it was made of (`readUnits_escapeChar`), so a string is read back from its
literal (`readString_escaped`). The digits of a number are read up to what cannot
continue them, and an integer of 64 bits is gathered without loss
(`readNumber_integer`).
-/

namespace FormLogic.Json

open Decimal

/-! ## Strings -/

section Strings

variable {rest tail : List Char} {us : List Unit16}

theorem hexDigit?_hexChar {d : Nat} (h : d < 16) : hexDigit? (hexChar d) = some d := by
  have hall : ∀ d : Fin 16, hexDigit? (hexChar d.val) = some d.val := by decide
  exact hall ⟨d, h⟩

/-- A letter behind a backslash is one character in front of the others. -/
theorem readUnits_escape {e c : Char} (he : escape? e = some c)
    (h : readUnits rest = some (us, tail)) :
    readUnits ('\\' :: e :: rest) = some (.char c :: us, tail) := by
  have hu : e ≠ 'u' := by
    intro heq
    rw [heq] at he
    exact absurd he nofun
  rw [readUnits]
  · rw [he, h]
    rfl
  · intro a b c d more heq
    exact absurd heq hu

theorem readUnits_control {c : Char} (hc : c.toNat < 0x20) (h : readUnits rest = some (us, tail)) :
    readUnits ('\\' :: 'u' :: '0' :: '0' ::
      hexChar (c.toNat / 16) :: hexChar (c.toNat % 16) :: rest) =
        some (.char c :: us, tail) := by
  have hzero : hexDigit? '0' = some 0 := by decide
  have hvalue : 0 * 4096 + 0 * 256 + c.toNat / 16 * 16 + c.toNat % 16 = c.toNat := by omega
  have hunit : Unit16.ofNat c.toNat = .char c := by
    rw [Unit16.ofNat, if_neg (by omega), Char.ofNat_toNat]
  rw [readUnits, hzero, hexDigit?_hexChar (by omega), hexDigit?_hexChar (by omega), h]
  simp only [Option.bind_eq_bind, Option.bind_some, hvalue, hunit]
  rfl

theorem readUnits_plain {c : Char} (hc : 0x20 ≤ c.toNat) (hquote : c ≠ '"') (hback : c ≠ '\\')
    (h : readUnits rest = some (us, tail)) :
    readUnits (c :: rest) = some (.char c :: us, tail) := by
  have hallowed : ¬ (c.toNat < 0x20 ∨ c = '\\') := fun hor => hor.elim (by omega) hback
  rw [readUnits]
  · rw [if_neg hallowed, h]
    rfl
  · exact hquote
  · intro a b d e more heq _
    exact hback heq
  · intro e more heq _
    exact hback heq

/-- A character is escaped by a letter or by its number, or it stands for itself. -/
theorem escapeChar_cases (c : Char) :
    (∃ e, escape? e = some c ∧ escapeChar c = ['\\', e]) ∨
    (c.toNat < 0x20 ∧ escapeChar c =
      ['\\', 'u', '0', '0', hexChar (c.toNat / 16), hexChar (c.toNat % 16)]) ∨
    (0x20 ≤ c.toNat ∧ c ≠ '"' ∧ c ≠ '\\' ∧ escapeChar c = [c]) := by
  by_cases hletter : ∃ e, escape? e = some c ∧ escapeChar c = ['\\', e]
  · exact .inl hletter
  · have hquote : c ≠ '"' := fun heq => hletter ⟨'"', by rw [heq]; decide⟩
    have hback : c ≠ '\\' := fun heq => hletter ⟨'\\', by rw [heq]; decide⟩
    have hb : c ≠ '\x08' := fun heq => hletter ⟨'b', by rw [heq]; decide⟩
    have hf : c ≠ '\x0c' := fun heq => hletter ⟨'f', by rw [heq]; decide⟩
    have hn : c ≠ '\n' := fun heq => hletter ⟨'n', by rw [heq]; decide⟩
    have hr : c ≠ '\r' := fun heq => hletter ⟨'r', by rw [heq]; decide⟩
    have ht : c ≠ '\t' := fun heq => hletter ⟨'t', by rw [heq]; decide⟩
    refine .inr ?_
    rw [escapeChar, if_neg hquote, if_neg hback, if_neg hb, if_neg hf, if_neg hn, if_neg hr,
      if_neg ht]
    by_cases hcontrol : c.toNat < 0x20
    · exact .inl ⟨hcontrol, if_pos hcontrol⟩
    · exact .inr ⟨by omega, hquote, hback, if_neg hcontrol⟩

/-- An escape is read as the character it was made of. -/
theorem readUnits_escapeChar (c : Char) (h : readUnits rest = some (us, tail)) :
    readUnits (escapeChar c ++ rest) = some (.char c :: us, tail) := by
  rcases escapeChar_cases c with ⟨e, he, heq⟩ | ⟨hcontrol, heq⟩ | ⟨hplain, hquote, hback, heq⟩
  · rw [heq]
    exact readUnits_escape he h
  · rw [heq]
    exact readUnits_control hcontrol h
  · rw [heq]
    exact readUnits_plain hplain hquote hback h

theorem joinUnits_char (cs : List Char) : joinUnits (cs.map .char) = some cs := by
  induction cs with
  | nil => rfl
  | cons c cs ih => rw [List.map_cons, joinUnits, ih, Option.map_some]

theorem readUnits_escaped (cs rest : List Char) :
    readUnits (cs.flatMap escapeChar ++ '"' :: rest) = some (cs.map .char, rest) := by
  induction cs with
  | nil => rw [List.flatMap_nil, List.nil_append, readUnits, List.map_nil]
  | cons c cs ih =>
      rw [List.flatMap_cons, List.append_assoc, List.map_cons]
      exact readUnits_escapeChar c ih

/-- The inside of a string literal is read back as the string. -/
theorem readString_escaped (s : String) (rest : List Char) :
    readString (s.toList.flatMap escapeChar ++ '"' :: rest) = some (some s, rest) := by
  have hjoin : (joinUnits (s.toList.map .char)).map String.ofList = some s := by
    rw [joinUnits_char, Option.map_some, String.ofList_toList]
  rw [readString, readUnits_escaped, Option.map_some]
  exact congrArg (fun t => some (t, rest)) hjoin

theorem renderString_append (s : String) (rest : List Char) :
    renderString s ++ rest = '"' :: (s.toList.flatMap escapeChar ++ '"' :: rest) := by
  simp [renderString]

end Strings

/-! ## Integers -/

/-- Nothing follows, or what follows a value inside an array or an object. -/
def EndsValue (rest : List Char) : Prop :=
  ∀ c ∈ rest.head?, c = ',' ∨ c = ']' ∨ c = '}'

section Integers

variable {rest : List Char}

theorem EndsValue.not_isDigit (h : EndsValue rest) : ∀ c ∈ rest.head?, c.isDigit = false := by
  intro c hc
  rcases h c hc with rfl | rfl | rfl <;> decide

theorem isDigit_of_mem_digitsOf {n : Nat} : ∀ c ∈ digitsOf n, c.isDigit = true :=
  fun _ => Nat.isDigit_of_mem_toDigits (by omega) (by omega)

theorem exists_digitsOf_eq_cons (n : Nat) : ∃ c cs, digitsOf n = c :: cs ∧ c.isDigit = true := by
  obtain ⟨c, cs, heq⟩ := List.exists_cons_of_ne_nil (Nat.toDigits_ne_nil : digitsOf n ≠ [])
  exact ⟨c, cs, heq, isDigit_of_mem_digitsOf c (heq ▸ List.mem_cons_self ..)⟩

/-- Only zero is written with a zero in front. -/
theorem eq_zero_of_head?_digitsOf {n : Nat} (h : (digitsOf n).head? = some '0') : n = 0 := by
  induction n using Nat.strongRecOn with
  | ind n ih =>
      rw [digitsOf, Nat.toDigits_eq_if (by omega)] at h
      by_cases hn : n < 10
      · rw [if_pos hn] at h
        exact Nat.digitChar_eq_zero.mp (Option.some.inj h)
      · rw [if_neg hn, List.head?_append_of_ne_nil _ Nat.toDigits_ne_nil] at h
        have hdiv : n / 10 = 0 := ih (n / 10) (by omega) h
        omega

/-- The values of the digits of a number. -/
def digitValues (n : Nat) : List Nat :=
  (digitsOf n).map fun c => c.toNat - '0'.toNat

theorem digitsValue_digitValues (n : Nat) : digitsValue (digitValues n) = n := by
  have h : Nat.ofDigitChars 10 (Nat.toDigits 10 n) 0 = n := Nat.ofDigitChars_ten_toDigits
  rw [Nat.ofDigitChars_eq_foldl] at h
  rw [digitsValue, digitValues, List.foldl_map, digitsOf]
  simpa only [Nat.mul_comm] using h

theorem readDigits_digitsOf (n : Nat) (h : EndsValue rest) :
    readDigits (digitsOf n ++ rest) = (digitValues n, rest) := by
  have hrest : rest.takeWhile Char.isDigit = [] ∧ rest.dropWhile Char.isDigit = rest := by
    cases rest with
    | nil => exact ⟨rfl, rfl⟩
    | cons c more =>
        have hc : ¬ c.isDigit = true := by
          rw [h.not_isDigit c rfl]
          exact Bool.false_ne_true
        exact ⟨List.takeWhile_cons_of_neg hc, List.dropWhile_cons_of_neg hc⟩
  rw [readDigits, List.takeWhile_append_of_pos isDigit_of_mem_digitsOf,
    List.dropWhile_append_of_pos isDigit_of_mem_digitsOf, hrest.1, hrest.2, List.append_nil]
  rfl

theorem readWhole_digitsOf (n : Nat) (h : EndsValue rest) :
    readWhole (digitsOf n ++ rest) = some (digitValues n, rest) := by
  have hdigits : readDigits1 (digitsOf n ++ rest) = some (digitValues n, rest) := by
    have hne : (digitValues n).isEmpty = false := by
      obtain ⟨c, cs, heq, -⟩ := exists_digitsOf_eq_cons n
      rw [digitValues, heq]
      rfl
    rw [readDigits1, readDigits_digitsOf n h]
    simp only [hne]
    rfl
  by_cases hzero : n = 0
  · have hnext : (rest.head?.map Char.isDigit).getD false = false := by
      cases hhead : rest.head? with
      | none => rfl
      | some c => exact h.not_isDigit c hhead
    have hwritten : digitsOf n ++ rest = '0' :: rest := by rw [hzero]; rfl
    rw [hwritten, readWhole, hnext, hzero]
    rfl
  · rw [readWhole]
    · exact hdigits
    · intro more heq
      have hhead : (digitsOf n).head? = some '0' := by
        have hne : digitsOf n ≠ [] := Nat.toDigits_ne_nil
        rw [← List.head?_append_of_ne_nil _ hne, heq]
        rfl
      exact hzero (eq_zero_of_head?_digitsOf hhead)

theorem readFraction_of_ends (h : EndsValue rest) : readFraction rest = some (none, rest) := by
  cases rest with
  | nil => rfl
  | cons c more => rcases h c rfl with rfl | rfl | rfl <;> rfl

theorem readExponent_of_ends (h : EndsValue rest) : readExponent rest = some (none, rest) := by
  cases rest with
  | nil => rfl
  | cons c more => rcases h c rfl with rfl | rfl | rfl <;> rfl

/-- Digits whose value fits are gathered without loss. -/
theorem gatherWhole_of_le {n : Nat} {ds : List Nat}
    (h : ds.foldl (fun n d => n * 10 + d) n ≤ maxGathered) :
    gatherWhole n ds = ⟨ds.foldl (fun n d => n * 10 + d) n, 0⟩ := by
  have hgrows : ∀ (ds : List Nat) (n : Nat), n ≤ ds.foldl (fun n d => n * 10 + d) n := by
    intro ds
    induction ds with
    | nil => exact fun n => Nat.le_refl n
    | cons d ds ih => exact fun n => Nat.le_trans (by omega) (ih (n * 10 + d))
  induction ds generalizing n with
  | nil => rfl
  | cons d ds ih =>
      have hfits : ¬ maxGathered < n * 10 + d := by
        have hle := hgrows ds (n * 10 + d)
        rw [List.foldl_cons] at h
        omega
      rw [gatherWhole, if_neg hfits, List.foldl_cons]
      exact ih h

theorem gatherWhole_digitValues {n : Nat} (h : n ≤ maxGathered) :
    gatherWhole 0 (digitValues n) = ⟨n, 0⟩ := by
  have hvalue := digitsValue_digitValues n
  rw [digitsValue] at hvalue
  rw [gatherWhole_of_le (by rwa [hvalue]), hvalue]

/-- Whether an integer has 64 bits, with a sign or without one. -/
def Fits (i : Int) : Prop :=
  -0x8000000000000000 ≤ i ∧ i ≤ 0xFFFFFFFFFFFFFFFF

theorem value?_digitValues {n : Nat} (h : n ≤ maxGathered) :
    NumberLiteral.value? ⟨false, digitValues n, none, none⟩ = some (.integer n) := by
  unfold NumberLiteral.value?
  rw [gatherWhole_digitValues h]
  rfl

theorem value?_neg_digitValues {n : Nat} (hpos : 0 < n) (h : n ≤ 0x8000000000000000) :
    NumberLiteral.value? ⟨true, digitValues n, none, none⟩ = some (.integer (-n)) := by
  have hrange : ¬ (n = 0 ∨ 0x8000000000000000 < n) := by omega
  unfold NumberLiteral.value?
  rw [gatherWhole_digitValues (Nat.le_trans h (by decide))]
  exact if_neg hrange

/-- An integer is read back from its digits. -/
theorem readNumber_integer {i : Int} (hi : Fits i) (h : EndsValue rest) :
    readNumber (JsonNumber.text (.integer i) ++ rest) = some (.number (.integer i), rest) := by
  obtain ⟨hlow, hhigh⟩ := hi
  by_cases hneg : i < 0
  · have hnegated : -(i.natAbs : Int) = i := by omega
    have hvalue := value?_neg_digitValues (by omega : 0 < i.natAbs) (by omega)
    rw [hnegated] at hvalue
    rw [JsonNumber.text, if_pos hneg, List.cons_append, readNumber]
    simp only [readWhole_digitsOf _ h, readFraction_of_ends h, readExponent_of_ends h, hvalue,
      Option.bind_eq_bind, Option.bind_some]
    rfl
  · have hsame : (i.natAbs : Int) = i := by omega
    have hfits : i.natAbs ≤ maxGathered := by
      rw [maxGathered]
      omega
    have hvalue := value?_digitValues hfits
    have hsign : ∀ more, digitsOf i.natAbs ++ rest ≠ '-' :: more := by
      obtain ⟨c, cs, hcs, hdigit⟩ := exists_digitsOf_eq_cons i.natAbs
      intro more heq
      rw [hcs] at heq
      rw [(List.cons.inj heq).1] at hdigit
      exact absurd hdigit (by decide)
    rw [hsame] at hvalue
    rw [JsonNumber.text, if_neg hneg, readNumber]
    · simp only [readWhole_digitsOf _ h, readFraction_of_ends h, readExponent_of_ends h, hvalue,
        Option.bind_eq_bind, Option.bind_some]
      rfl
    · exact hsign

end Integers

end FormLogic.Json
