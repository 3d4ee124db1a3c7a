import FormLogic.Proofs.Stream
import Mathlib.Data.List.Infix

/-!
# FormLogic.Proofs.Nesting

How many parentheses are open at a time. `Shallow opening closing limit ks`
says that no prefix of `ks` has more than `limit` parentheses open. For
sequences that close what they open it splits at joints (`shallow_append`), and
a pair of parentheses around a sequence costs one level (`shallow_group`).
-/

namespace FormLogic

section
variable {κ : Type} [DecidableEq κ] (opening closing : κ)

/-- As many parentheses open as close. -/
def Balanced (ks : List κ) : Prop := ks.count opening = ks.count closing

/-- At no point more than `limit` parentheses are open. -/
def Shallow (limit : Nat) (ks : List κ) : Prop :=
  ∀ p, p <+: ks → p.count opening ≤ p.count closing + limit

end

section
variable {κ : Type} [DecidableEq κ] {opening closing : κ} {limit : Nat} {ks ls : List κ}

instance : Decidable (Balanced opening closing ks) :=
  inferInstanceAs (Decidable (ks.count opening = ks.count closing))

instance : Decidable (Shallow opening closing limit ks) :=
  decidable_of_iff (∀ p ∈ ks.inits, p.count opening ≤ p.count closing + limit) <|
    forall_congr' fun p => by rw [List.mem_inits]

omit [DecidableEq κ] in
/-- A prefix of two sequences ends in the first or in the second. -/
theorem prefix_of_append {p : List κ} (h : p <+: ks ++ ls) :
    p <+: ks ∨ ∃ q, p = ks ++ q ∧ q <+: ls := by
  rcases List.prefix_or_prefix_of_prefix h (List.prefix_append ks ls) with hp | ⟨q, rfl⟩
  · exact .inl hp
  · exact .inr ⟨q, rfl, (List.prefix_append_right_inj ks).mp h⟩

/-! ## Balanced sequences -/

theorem Balanced.append (hks : Balanced opening closing ks) (hls : Balanced opening closing ls) :
    Balanced opening closing (ks ++ ls) := by
  unfold Balanced at *
  rw [List.count_append, List.count_append, hks, hls]

/-- A kind that is no parenthesis keeps the balance. -/
theorem balanced_cons {k : κ} (ho : k ≠ opening) (hc : k ≠ closing) :
    Balanced opening closing (k :: ks) ↔ Balanced opening closing ks := by
  unfold Balanced
  rw [List.count_cons_of_ne ho, List.count_cons_of_ne hc]

theorem Balanced.group (hne : opening ≠ closing) (h : Balanced opening closing ks) :
    Balanced opening closing (opening :: ks ++ [closing]) := by
  unfold Balanced at *
  simp [List.count_append, hne, hne.symm, h]

/-! ## Shallow sequences -/

theorem shallow_nil : Shallow opening closing limit ([] : List κ) := by
  intro p hp
  rw [List.prefix_nil.mp hp]
  simp

theorem Shallow.of_append (h : Shallow opening closing limit (ks ++ ls)) :
    Shallow opening closing limit ks := fun p hp => h p (hp.trans (List.prefix_append ks ls))

/-- Behind a balanced sequence, counting starts anew. -/
theorem shallow_append (hks : Balanced opening closing ks) :
    Shallow opening closing limit (ks ++ ls) ↔
      Shallow opening closing limit ks ∧ Shallow opening closing limit ls := by
  constructor
  · intro h
    refine ⟨h.of_append, fun p hp => ?_⟩
    have hkp := h (ks ++ p) ((List.prefix_append_right_inj ks).mpr hp)
    rw [List.count_append, List.count_append, hks] at hkp
    omega
  · rintro ⟨hk, hl⟩ p hp
    rcases prefix_of_append hp with hp | ⟨q, rfl, hq⟩
    · exact hk p hp
    · have hq := hl q hq
      rw [List.count_append, List.count_append, hks]
      omega

/-- A kind that is no parenthesis opens nothing. -/
theorem shallow_cons {k : κ} (ho : k ≠ opening) (hc : k ≠ closing) :
    Shallow opening closing limit (k :: ks) ↔ Shallow opening closing limit ks := by
  constructor
  · intro h p hp
    have hkp := h (k :: p) (List.cons_prefix_cons.mpr ⟨rfl, hp⟩)
    rwa [List.count_cons_of_ne ho, List.count_cons_of_ne hc] at hkp
  · intro h p hp
    rcases List.prefix_cons_iff.mp hp with rfl | ⟨q, rfl, hq⟩
    · simp
    · rw [List.count_cons_of_ne ho, List.count_cons_of_ne hc]
      exact h q hq

theorem shallow_singleton {k : κ} (ho : k ≠ opening) (hc : k ≠ closing) :
    Shallow opening closing limit [k] := (shallow_cons ho hc).mpr shallow_nil

/-- Parentheses around a sequence are one level more. -/
theorem shallow_group (hne : opening ≠ closing) (hks : Balanced opening closing ks) :
    Shallow opening closing limit (opening :: ks ++ [closing]) ↔
      ∃ inner, limit = inner + 1 ∧ Shallow opening closing inner ks := by
  constructor
  · intro h
    have hopen := h [opening] (by simp)
    cases limit with
    | zero => simp [hne] at hopen
    | succ inner =>
        refine ⟨inner, rfl, fun p hp => ?_⟩
        have hp := h (opening :: p)
          ((List.cons_prefix_cons.mpr ⟨rfl, hp.trans (List.prefix_append ks [closing])⟩))
        simp [hne] at hp
        omega
  · rintro ⟨inner, rfl, h⟩ p hp
    rcases List.prefix_cons_iff.mp hp with rfl | ⟨q, rfl, hq⟩
    · simp
    · have hcount : q.count opening ≤ q.count closing + inner := by
        rcases List.prefix_concat_iff.mp hq with rfl | hq
        · rw [List.count_append, List.count_append, hks]
          simp [hne.symm]
          omega
        · exact h q hq
      simp [hne]
      omega

/-- Parentheses around a sequence of some depth make it one deeper. -/
theorem shallow_group_le (hne : opening ≠ closing) (hks : Balanced opening closing ks)
    {depth : Nat} (h : ∀ limit, Shallow opening closing limit ks ↔ depth ≤ limit) :
    Shallow opening closing limit (opening :: ks ++ [closing]) ↔ depth + 1 ≤ limit := by
  rw [shallow_group hne hks]
  constructor
  · intro hlevel
    obtain ⟨inner, rfl, hinner⟩ := hlevel
    exact Nat.succ_le_succ ((h inner).mp hinner)
  · intro hdepth
    exact ⟨limit - 1, by omega, (h _).mpr (by omega)⟩

/-- Closing parentheses at the end open nothing. -/
theorem shallow_append_replicate (hne : opening ≠ closing) (n : Nat) :
    Shallow opening closing limit (ks ++ List.replicate n closing) ↔
      Shallow opening closing limit ks := by
  refine ⟨Shallow.of_append, fun h p hp => ?_⟩
  rcases prefix_of_append hp with hp | ⟨q, rfl, hq⟩
  · exact h p hp
  · have hks := h ks (List.prefix_refl ks)
    have hq : q.count opening = 0 := by
      rw [List.count_eq_zero]
      intro hmem
      exact hne (List.eq_of_mem_replicate (hq.subset hmem))
    rw [List.count_append, List.count_append, hq]
    omega

/-- Closing parentheses behind a balanced sequence close nothing. -/
theorem eq_zero_of_balanced (hne : opening ≠ closing) {n : Nat} (hks : Balanced opening closing ks)
    (h : Balanced opening closing (ks ++ List.replicate n closing)) : n = 0 := by
  unfold Balanced at *
  rw [List.count_append, List.count_append, List.count_replicate_self, List.count_replicate,
    if_neg (by simpa using hne.symm), hks] at h
  omega

/-- No sequence has more parentheses open than it has kinds. -/
theorem shallow_length : Shallow opening closing ks.length ks := by
  intro p hp
  have hcount := List.count_le_length (a := opening) (l := p)
  have hlen := hp.length_le
  omega

/-! ## Runs -/

section
variable {α : Type} {separator : κ} {L : List κ → α → Prop} {as : List α}
  (ho : separator ≠ opening) (hc : separator ≠ closing)
include ho hc

theorem Run.balanced (h : Run separator L ks as)
    (hL : ∀ ls a, L ls a → Balanced opening closing ls) : Balanced opening closing ks := by
  induction h with
  | one ha => exact hL _ _ ha
  | cons ha _ ih => exact (hL _ _ ha).append ((balanced_cons ho hc).mpr ih)

/-- A run is shallow exactly when its phrases are. -/
theorem run_and_shallow_iff (hL : ∀ ls a, L ls a → Balanced opening closing ls) :
    Run separator (fun ls a => L ls a ∧ Shallow opening closing limit ls) ks as ↔
      Run separator L ks as ∧ Shallow opening closing limit ks := by
  constructor
  · intro h
    induction h with
    | one ha => exact ⟨.one ha.1, ha.2⟩
    | cons ha _ ih =>
        exact ⟨.cons ha.1 ih.1, (shallow_append (hL _ _ ha.1)).mpr
          ⟨ha.2, (shallow_cons ho hc).mpr ih.2⟩⟩
  · intro hboth
    obtain ⟨h, hks⟩ := hboth
    induction h with
    | one ha => exact .one ⟨ha, hks⟩
    | cons ha _ ih =>
        obtain ⟨hfst, hrest⟩ := (shallow_append (hL _ _ ha)).mp hks
        exact .cons ⟨ha, hfst⟩ (ih ((shallow_cons ho hc).mp hrest))

end

/-! ## Phrases within a limit -/

/-- The phrases of `L` with at most `limit` parentheses inside one another. -/
def Within {α : Type} (opening closing : κ) (limit : Nat) (L : List κ → α → Prop) (ks : List κ)
    (a : α) : Prop :=
  L ks a ∧ Shallow opening closing limit ks

/-- A run of phrases within a limit is joined to a phrase within that limit. -/
theorem within_joined_iff {α : Type} {separator : κ} {join node : List α → α}
    {L M : List κ → α → Prop} (ho : separator ≠ opening) (hc : separator ≠ closing)
    (hL : ∀ ls a, L ls a → Balanced opening closing ls)
    (hone : ∀ a, join [a] = a) (hmany : ∀ a b as, join (a :: b :: as) = node (a :: b :: as))
    (hM : ∀ ks a, M ks a ↔ L ks a ∨ ∃ as, Run separator L ks as ∧ 2 ≤ as.length ∧ a = node as)
    {a : α} :
    (∃ as, Run separator (Within opening closing limit L) ks as ∧ a = join as) ↔
      Within opening closing limit M ks a := by
  unfold Within
  rw [hM, ← run_joined_iff hone hmany]
  constructor
  · intro h
    obtain ⟨as, hrun, rfl⟩ := h
    obtain ⟨hrun, hshallow⟩ := (run_and_shallow_iff ho hc hL).mp hrun
    exact ⟨⟨as, hrun, rfl⟩, hshallow⟩
  · intro h
    obtain ⟨⟨as, hrun, rfl⟩, hshallow⟩ := h
    exact ⟨as, (run_and_shallow_iff ho hc hL).mpr ⟨hrun, hshallow⟩, rfl⟩

open Reader in
/-- Items within a limit that are joined where they stand in a run: a reader of
items gives a reader of what the items are joined to. -/
theorem recognizes_joined [TokenKind κ] {α : Type} (separator : κ) (join node : List α → α)
    {item : Reader κ α} {L M : List κ → α → Prop} {stop : κ → Prop}
    (hitem : Recognizes closing item (Within opening closing limit L) stop)
    (hstop : stop separator) (heof : TokenKind.isEof separator = false)
    (ho : separator ≠ opening) (hc : separator ≠ closing)
    (hL : ∀ ls a, L ls a → Balanced opening closing ls)
    (hone : ∀ a, join [a] = a) (hmany : ∀ a b as, join (a :: b :: as) = node (a :: b :: as))
    (hM : ∀ ks a, M ks a ↔ L ks a ∨ ∃ as, Run separator L ks as ∧ 2 ≤ as.length ∧ a = node as) :
    Recognizes closing (join <$> separated separator item) (Within opening closing limit M)
      fun k => stop k ∧ k ≠ separator :=
  ((recognizes_separated hitem hstop hc heof).map join).congr
    (fun _ _ => within_joined_iff ho hc hL hone hmany hM) fun _ => Iff.rfl

/-! ## Whole streams -/

section
variable [TokenKind κ] [LawfulTokenKind κ] {α : Type} {L : List κ → α → Prop} {stop : κ → Prop}
  {wanted : Wanted} (hne : opening ≠ closing) (hstop : stop TokenKind.eof)
  (hL : ∀ ks a, L ks a → ∀ k ∈ ks, TokenKind.isEof k = false)
include hne hstop hL

open Reader

/-- The closing parentheses that are missing open nothing, so a whole stream is
within a limit when the kinds in front of its end are. -/
theorem run_whole_within_eq_ok {r : Reader κ α}
    (hr : Recognizes closing r (Within opening closing limit L) stop) {source : String}
    {tokens : List (Token κ)} {a : α} :
    ((whole r wanted).run (Stream.ofTokens source tokens)).map (·.1) = .ok a ↔
      (∃ n, L (kindsAhead tokens ++ List.replicate n closing) a) ∧
        Shallow opening closing limit (kindsAhead tokens) := by
  rw [run_whole_ofTokens_eq_ok hr hstop fun ks a h => hL ks a h.1]
  simp only [Within, shallow_append_replicate hne, exists_and_right]

/-- Phrases that are read at every limit have one tree, however many closing
parentheses are missing behind them. -/
theorem unique_of_recognizes {r : Nat → Reader κ α} (wanted : Wanted)
    (hr : ∀ limit, Recognizes closing (r limit) (Within opening closing limit L) stop)
    {m n : Nat} {a b : α} (ha : L (ks ++ List.replicate m closing) a)
    (hb : L (ks ++ List.replicate n closing) b) : a = b := by
  have hks : ∀ k ∈ ks, TokenKind.isEof k = false := fun k hk =>
    hL _ _ ha k (List.mem_append_left _ hk)
  have hahead : kindsAhead (ks.map (⟨·, Text.endSpan []⟩)) = ks := by
    simpa [kindsAhead, Function.comp_def] using hks
  -- with as many levels as there are kinds, the reader gives both trees
  have hread : ∀ {n c}, L (ks ++ List.replicate n closing) c → _ := fun {n c} hc =>
    (@run_whole_within_eq_ok _ _ _ _ _ _ _ _ _ _ wanted hne hstop hL _ (hr ks.length) "" _ c).mpr
      ⟨⟨n, by rwa [hahead]⟩, by rw [hahead]; exact shallow_length⟩
  simpa using (hread ha).symm.trans (hread hb)

end

end

end FormLogic
