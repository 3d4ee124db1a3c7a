import FormLogic.Expr.Eval
import Mathlib.Data.List.Infix
import Mathlib.Order.Bounds.Basic

/-!
# FormLogic.Proofs.Expr.Replacement

Replacing a text in another one. A text is cut in one way only at the places where a
scan from the left finds the text that is searched (`LeftmostCut.unique`), and replacing
puts another text between the same pieces (`LeftmostCut.replaceAll_eq`). The main
statement says so of the texts that three expressions stand for
(`Expr.eval_replaceAll`).
-/

namespace FormLogic

namespace Text

variable {x r s p last : List Char} {fronts : List (List Char)}

/-! ## Where a text stands first -/

/-- In `s` the text `x` stands first behind `k` characters. -/
def StandsFirst (x s : List Char) (k : Nat) : Prop :=
  IsLeast {j | x <+: s.drop j} k

theorem standsFirst_zero : StandsFirst x s 0 ↔ x <+: s :=
  ⟨fun h => h.1, fun h => ⟨h, fun _ _ => Nat.zero_le _⟩⟩

theorem standsFirst_succ {c : Char} {k : Nat} :
    StandsFirst x (c :: s) (k + 1) ↔ ¬ x <+: c :: s ∧ StandsFirst x s k := by
  constructor
  · intro h
    have hleast : ∀ j, x <+: (c :: s).drop j → k + 1 ≤ j := fun j hj => h.2 hj
    refine ⟨fun hfront => Nat.not_succ_le_zero k (hleast 0 hfront), h.1, fun j hj => ?_⟩
    exact Nat.le_of_succ_le_succ (hleast (j + 1) hj)
  · refine fun ⟨hfront, h⟩ => ⟨h.1, fun j hj => ?_⟩
    cases j with
    | zero => exact absurd hj hfront
    | succ j => exact Nat.succ_le_succ (h.2 hj)

/-- What stands behind `x` does not matter for where `x` stands first. -/
theorem standsFirst_append_iff (rest : List Char) :
    StandsFirst x (p ++ x ++ rest) p.length ↔ StandsFirst x (p ++ x) p.length := by
  induction p with
  | nil =>
      rw [List.length_nil, standsFirst_zero, standsFirst_zero, List.nil_append]
      exact iff_of_true (List.prefix_append ..) List.prefix_rfl
  | cons c p ih =>
      -- `c :: (p ++ x)` is long enough to decide whether `x` stands in front
      have hfront : x <+: c :: (p ++ x ++ rest) ↔ x <+: c :: (p ++ x) := by
        refine ⟨fun h => ?_, fun h => h.trans (List.prefix_append (c :: (p ++ x)) rest)⟩
        refine List.prefix_of_prefix_length_le h (List.prefix_append (c :: (p ++ x)) rest) ?_
        simp only [List.length_cons, List.length_append]
        omega
      rw [List.length_cons, List.cons_append, List.cons_append, standsFirst_succ, standsFirst_succ,
        hfront, ih]

/-- A text that is held stands somewhere first. -/
theorem exists_standsFirst (h : x <:+: s) :
    ∃ p rest, s = p ++ x ++ rest ∧ StandsFirst x (p ++ x) p.length := by
  induction s with
  | nil =>
      obtain rfl := List.eq_nil_of_infix_nil h
      exact ⟨[], [], rfl, standsFirst_zero.mpr List.prefix_rfl⟩
  | cons c s ih =>
      by_cases hfront : x <+: c :: s
      · obtain ⟨rest, hrest⟩ := hfront
        exact ⟨[], rest, hrest.symm, standsFirst_zero.mpr List.prefix_rfl⟩
      · have hs : x <:+: s := (List.infix_cons_iff.mp h).resolve_left hfront
        obtain ⟨p, rest, rfl, hp⟩ := ih hs
        refine ⟨c :: p, rest, rfl, standsFirst_succ.mpr ⟨fun hx => hfront ?_, hp⟩⟩
        exact hx.trans (List.prefix_append (c :: (p ++ x)) rest)

/-! ## Pieces -/

/-- Some pieces with `x` between them: each of `fronts` is followed by `x`, and `last`
stands at the end. -/
def joinPieces (x : List Char) (fronts : List (List Char)) (last : List Char) : List Char :=
  fronts.flatMap (· ++ x) ++ last

theorem joinPieces_cons (x p last : List Char) (fronts : List (List Char)) :
    joinPieces x (p :: fronts) last = p ++ x ++ joinPieces x fronts last := by
  rw [joinPieces, List.flatMap_cons, List.append_assoc, ← joinPieces]

/-- The pieces of `s` between the places where a scan from the left finds `x`: behind
each piece but the last `x` stands for the first time, and the last one does not hold it. -/
structure LeftmostCut (x s : List Char) (fronts : List (List Char)) (last : List Char) :
    Prop where
  joined : s = joinPieces x fronts last
  first : ∀ p ∈ fronts, StandsFirst x (p ++ x) p.length
  not_infix : ¬ x <:+: last

theorem leftmostCut_nil : LeftmostCut x s [] last ↔ s = last ∧ ¬ x <:+: last :=
  ⟨fun h => ⟨h.joined, h.not_infix⟩, fun h => ⟨h.1, by simp, h.2⟩⟩

theorem leftmostCut_cons : LeftmostCut x s (p :: fronts) last ↔
    ∃ rest, s = p ++ x ++ rest ∧ StandsFirst x (p ++ x) p.length ∧
      LeftmostCut x rest fronts last := by
  constructor
  · intro h
    obtain ⟨hp, hfronts⟩ := List.forall_mem_cons.mp h.first
    exact ⟨_, h.joined.trans (joinPieces_cons ..), hp, rfl, hfronts, h.not_infix⟩
  · rintro ⟨rest, rfl, hp, hrest⟩
    refine ⟨?_, List.forall_mem_cons.mpr ⟨hp, hrest.first⟩, hrest.not_infix⟩
    rw [joinPieces_cons, ← hrest.joined]

/-- Every text has such pieces, unless the empty text is searched. -/
theorem exists_leftmostCut (hx : x ≠ []) (s : List Char) :
    ∃ fronts last, LeftmostCut x s fronts last := by
  by_cases h : x <:+: s
  · obtain ⟨p, rest, hs, hp⟩ := exists_standsFirst h
    have hshorter : rest.length < s.length := by
      have hlength := List.length_pos_of_ne_nil hx
      simp only [hs, List.length_append]
      omega
    obtain ⟨fronts, last, hrest⟩ := exists_leftmostCut hx rest
    exact ⟨p :: fronts, last, leftmostCut_cons.mpr ⟨rest, hs, hp, hrest⟩⟩
  · exact ⟨[], s, leftmostCut_nil.mpr ⟨rfl, h⟩⟩
termination_by s.length

/-- The pieces are determined by the text. -/
theorem LeftmostCut.unique {fronts' : List (List Char)} {last' : List Char}
    (h : LeftmostCut x s fronts last) (h' : LeftmostCut x s fronts' last') :
    fronts' = fronts ∧ last' = last := by
  induction fronts generalizing s fronts' with
  | nil =>
      obtain ⟨rfl, hnot⟩ := leftmostCut_nil.mp h
      cases fronts' with
      | nil => exact ⟨rfl, (leftmostCut_nil.mp h').1.symm⟩
      | cons p' fronts' =>
          obtain ⟨rest, rfl, -, -⟩ := leftmostCut_cons.mp h'
          exact absurd ⟨p', rest, rfl⟩ hnot
  | cons p fronts ih =>
      obtain ⟨rest, rfl, hp, hrest⟩ := leftmostCut_cons.mp h
      cases fronts' with
      | nil =>
          obtain ⟨rfl, hnot⟩ := leftmostCut_nil.mp h'
          exact absurd ⟨p, rest, rfl⟩ hnot
      | cons p' fronts' =>
          obtain ⟨rest', hsame, hp', hrest'⟩ := leftmostCut_cons.mp h'
          -- both pieces end where `x` stands first in the same text
          have hlength : p.length = p'.length := by
            have hfirst := (standsFirst_append_iff rest).mpr hp
            rw [hsame] at hfirst
            exact hfirst.unique ((standsFirst_append_iff rest').mpr hp')
          rw [List.append_assoc, List.append_assoc] at hsame
          obtain ⟨rfl, hbehind⟩ := List.append_inj hsame hlength
          obtain rfl := List.append_cancel_left hbehind
          obtain ⟨rfl, rfl⟩ := ih hrest hrest'
          exact ⟨rfl, rfl⟩

/-! ## Replacing -/

/-- The characters of an occurrence that has been replaced are passed over. -/
theorem replaceAfter_eq_drop (x r : List Char) (skip : Nat) (s : List Char) :
    replaceAfter x r skip s = replaceAfter x r 0 (s.drop skip) := by
  induction s generalizing skip with
  | nil => cases skip <;> rfl
  | cons c s ih =>
      cases skip with
      | zero => rfl
      | succ skip => rw [replaceAfter, List.drop_succ_cons, ih]

theorem replaceAfter_of_not_infix (h : ¬ x <:+: s) : replaceAfter x r 0 s = s := by
  induction s with
  | nil => rfl
  | cons c s ih =>
      rw [List.infix_cons_iff, not_or] at h
      have hfront : ¬ x.isPrefixOf (c :: s) = true := fun hx => h.1 (List.isPrefixOf_iff_prefix.mp hx)
      rw [replaceAfter, if_neg hfront, ih h.2]

/-- A piece and the occurrence behind it: the piece stays, and the scan goes on behind
the occurrence. -/
theorem replaceAfter_piece (hx : x ≠ []) (rest : List Char)
    (h : StandsFirst x (p ++ x ++ rest) p.length) :
    replaceAfter x r 0 (p ++ x ++ rest) = p ++ r ++ replaceAfter x r 0 rest := by
  induction p with
  | nil =>
      obtain ⟨c, t, rfl⟩ := List.exists_cons_of_ne_nil hx
      have hfront : (c :: t).isPrefixOf (c :: (t ++ rest)) = true :=
        List.isPrefixOf_iff_prefix.mpr (List.prefix_append (c :: t) rest)
      have hskip : (t ++ rest).drop ((c :: t).length - 1) = rest := by simp
      rw [List.nil_append, List.nil_append, List.cons_append, replaceAfter, if_pos hfront,
        replaceAfter_eq_drop, hskip]
  | cons c p ih =>
      obtain ⟨hnot, htail⟩ := standsFirst_succ.mp h
      have hfront : ¬ x.isPrefixOf (c :: (p ++ x ++ rest)) = true := fun hx =>
        hnot (List.isPrefixOf_iff_prefix.mp hx)
      rw [List.cons_append, List.cons_append, replaceAfter, if_neg hfront, ih htail]
      rfl

/-- Replacing puts `r` between the pieces where `x` stood. -/
theorem LeftmostCut.replaceAll_eq (hx : x ≠ []) (h : LeftmostCut x s fronts last) :
    replaceAll x r s = joinPieces r fronts last := by
  rw [replaceAll, if_neg (by simpa using hx)]
  induction fronts generalizing s with
  | nil =>
      obtain ⟨rfl, hnot⟩ := leftmostCut_nil.mp h
      exact replaceAfter_of_not_infix hnot
  | cons p fronts ih =>
      obtain ⟨rest, rfl, hp, hrest⟩ := leftmostCut_cons.mp h
      rw [replaceAfter_piece hx rest ((standsFirst_append_iff rest).mpr hp), ih hrest,
        joinPieces_cons]

example : replaceAll "aa".toList "a".toList "aaaaa".toList = "aaa".toList := by decide +kernel

end Text

/-! ## Expressions -/

open Text

/-- `w` is what comes of `v` when `r` replaces the text `x` in it. -/
structure ReplacesLeftmost (v x r w : String) : Prop where
  /-- The empty text is not replaced. -/
  of_empty : x = "" → w = v
  /-- Else `r` stands between the pieces of `v` where `x` stood, and there is one way only
  to cut `v` into such pieces. -/
  pieces : x ≠ "" → ∃ fronts last, LeftmostCut x.toList v.toList fronts last ∧
    w.toList = joinPieces r.toList fronts last ∧
    ∀ fronts' last', LeftmostCut x.toList v.toList fronts' last' →
      fronts' = fronts ∧ last' = last
  of_not_infix : ¬ x.toList <:+: v.toList → w = v
  of_eq : r = x → w = v

theorem replacesLeftmost_replaceText (v x r : String) :
    ReplacesLeftmost v x r (replaceText v x r) := by
  have hempty : x = "" → replaceText v x r = v := by
    rintro rfl
    rw [replaceText, replaceAll, if_pos (by simp), String.ofList_toList]
  have hpieces : x ≠ "" → ∃ fronts last, LeftmostCut x.toList v.toList fronts last ∧
      (replaceText v x r).toList = joinPieces r.toList fronts last := by
    intro hne
    have hx : x.toList ≠ [] := by simpa using hne
    obtain ⟨fronts, last, hcut⟩ := exists_leftmostCut hx v.toList
    exact ⟨fronts, last, hcut, by rw [replaceText, String.toList_ofList, hcut.replaceAll_eq hx]⟩
  refine ⟨hempty, fun hne => ?_, fun hnot => ?_, fun hsame => ?_⟩
  · obtain ⟨fronts, last, hcut, hjoined⟩ := hpieces hne
    exact ⟨fronts, last, hcut, hjoined, fun _ _ => hcut.unique⟩
  · by_cases hne : x = ""
    · exact hempty hne
    · obtain ⟨fronts, last, hcut, hjoined⟩ := hpieces hne
      have hwhole : LeftmostCut x.toList v.toList [] v.toList := leftmostCut_nil.mpr ⟨rfl, hnot⟩
      obtain ⟨rfl, rfl⟩ := hwhole.unique hcut
      exact String.toList_inj.mp hjoined
  · subst hsame
    by_cases hne : r = ""
    · exact hempty hne
    · obtain ⟨fronts, last, hcut, hjoined⟩ := hpieces hne
      exact String.toList_inj.mp (hjoined.trans hcut.joined.symm)

/-- Replacing works on the texts of three expressions. It puts the third one wherever a
scan of the first one from the left finds the second one, and changes nothing when
the second one is empty, is not found or is the third one. -/
theorem Expr.eval_replaceAll (s : State) (value search replacement : Expr) :
    ∃ w, Expr.eval s (.replaceAll value search replacement) = .text w ∧
      ReplacesLeftmost (Expr.eval s value).displayText (Expr.eval s search).displayText
        (Expr.eval s replacement).displayText w :=
  ⟨_, by rw [Expr.eval], replacesLeftmost_replaceText _ _ _⟩

end FormLogic
