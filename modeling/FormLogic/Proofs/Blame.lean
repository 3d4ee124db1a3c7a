import FormLogic.Proofs.Stream

/-!
# FormLogic.Proofs.Blame

Which token a reader blames. A reader looks at the tokens of its stream one after
another, so what it leaves is a rest of the stream (`Stream.IsRest`), and its fault
has the span of a token on the way. `Blame` lists the causes that go with a kind of
token, and `Reader.Blames` holds of a reader when it is put together from readers
of which it holds.
-/

namespace FormLogic

/-! ## Rests of a stream -/

namespace Stream

variable {κ : Type} {s s' s'' : Stream κ}

/-- The tokens of a stream, with the one that ends it. -/
def tokens (s : Stream κ) : List (Token κ) := s.ahead ++ [s.last]

/-- Taking some tokens off `s` leaves `s'`. -/
def IsRest (s s' : Stream κ) : Prop := s'.ahead <:+ s.ahead ∧ s'.last = s.last

theorem IsRest.refl (s : Stream κ) : s.IsRest s := ⟨List.suffix_rfl, rfl⟩

theorem IsRest.trans (h : s.IsRest s') (h' : s'.IsRest s'') : s.IsRest s'' :=
  ⟨h'.1.trans h.1, h'.2.trans h.2⟩

theorem isRest_next (s : Stream κ) : s.IsRest s.next := ⟨List.tail_suffix s.ahead, rfl⟩

theorem current_mem_tokens (s : Stream κ) : s.current ∈ s.tokens := by
  cases h : s.ahead with
  | nil => simp [current, tokens, h]
  | cons t ts => simp [current, tokens, h]

theorem IsRest.tokens_subset (h : s.IsRest s') : s'.tokens ⊆ s.tokens := by
  intro t ht
  rw [tokens, h.2] at ht
  rcases List.mem_append.mp ht with hahead | hlast
  · exact List.mem_append_left _ (h.1.subset hahead)
  · exact List.mem_append_right _ hlast

/-- The stream of a list of tokens that holds an end of file has no other tokens. -/
theorem tokens_ofTokens_subset [TokenKind κ] {source : String} {tokens : List (Token κ)}
    (h : ∃ t ∈ tokens, TokenKind.isEof t.kind = true) :
    (ofTokens source tokens).tokens ⊆ tokens := by
  intro t ht
  rcases List.mem_append.mp ht with hahead | hlast
  · exact (List.takeWhile_sublist _).subset hahead
  · obtain rfl := List.mem_singleton.mp hlast
    obtain ⟨u, hu, heof⟩ := h
    cases hfind : tokens.find? fun t => TokenKind.isEof t.kind with
    | none => exact absurd heof (List.find?_eq_none.mp hfind u hu)
    | some v =>
        rw [ofTokens, hfind]
        exact List.mem_of_find?_eq_some hfind

end Stream

/-! ## Causes -/

/-- The causes for which a token of a kind is blamed. Groups and calls start with
the kinds in `opens`, and `calls k name` says that `k` is the name of a call. -/
inductive Blame {κ : Type} [TokenKind κ] (opens : κ → Prop) (calls : κ → String → Prop) :
    κ → Cause → Prop
  | unexpected (k : κ) (wanted : Wanted) :
    Blame opens calls k (.unexpectedToken wanted (TokenKind.text k))
  | tooDeep {k : κ} : opens k → Blame opens calls k (.nestingTooDeep maxNesting)
  | unknown {k : κ} {name : String} : calls k name →
    Blame opens calls k (.unknownFunction name Function.names)

/-! ## Readers -/

namespace Reader

variable {κ α β : Type} [TokenKind κ]

/-- What a reader makes of the stream `s`: it leaves a rest of the stream, or it
blames one of its tokens. -/
def Outcome (opens : κ → Prop) (calls : κ → String → Prop) (s : Stream κ) :
    Except Fault (α × Stream κ) → Prop
  | .ok (_, s') => s.IsRest s'
  | .error f => ∃ t ∈ s.tokens, f.span = t.span ∧ Blame opens calls t.kind f.cause

/-- On the stream `s`, a reader blames tokens of `s` only. -/
def Blames (opens : κ → Prop) (calls : κ → String → Prop) (r : Reader κ α) (s : Stream κ) : Prop :=
  Outcome opens calls s (r.run s)

variable {opens : κ → Prop} {calls : κ → String → Prop} {r : Reader κ α} {s m : Stream κ}

/-- The tokens of a rest are tokens of the stream. -/
theorem Outcome.of_rest {x : Except Fault (α × Stream κ)} (hrest : s.IsRest m)
    (h : Outcome opens calls m x) : Outcome opens calls s x := by
  cases x with
  | ok x => exact hrest.trans h
  | error f =>
      obtain ⟨t, ht, hblame⟩ := h
      exact ⟨t, hrest.tokens_subset ht, hblame⟩

theorem blames_pure (a : α) : Blames opens calls (pure a) s := Stream.IsRest.refl s

theorem blames_advance : Blames opens calls (advance : Reader κ Unit) s := Stream.isRest_next s

theorem Blames.bind {f : α → Reader κ β} (hr : Blames opens calls r s)
    (hf : ∀ a s', Blames opens calls (f a) s') : Blames opens calls (r >>= f) s := by
  unfold Blames at hr ⊢
  rw [StateT.run_bind]
  cases hrun : r.run s with
  | error e =>
      rw [hrun] at hr
      exact hr
  | ok x =>
      rw [hrun] at hr
      exact (hf x.1 x.2).of_rest hr

theorem Blames.map (h : Blames opens calls r s) (f : α → β) :
    Blames opens calls (f <$> r) s := by
  rw [map_eq_pure_bind]
  exact h.bind fun _ _ => blames_pure _

/-- Looking at the token in front takes nothing. -/
theorem blames_peek_bind {f : κ → Reader κ α} (h : Blames opens calls (f s.current.kind) s) :
    Blames opens calls (peek >>= f) s := h

theorem blames_advance_bind {f : Unit → Reader κ α} (h : ∀ s', Blames opens calls (f ()) s') :
    Blames opens calls (advance >>= f) s :=
  blames_advance.bind fun _ => h

theorem blames_fail {cause : Cause} (h : Blame opens calls s.current.kind cause) :
    Blames opens calls (fail cause : Reader κ α) s :=
  ⟨s.current, s.current_mem_tokens, rfl, h⟩

theorem blames_unexpected (wanted : Wanted) :
    Blames opens calls (unexpected wanted : Reader κ α) s :=
  blames_peek_bind (blames_fail (.unexpected _ wanted))

/-- One level down, or none is left and the token in front opens too many. -/
theorem blames_nested {below : Option β} {read : β → Reader κ α} (hopens : opens s.current.kind)
    (h : ∀ inner ∈ below, Blames opens calls (read inner) s) :
    Blames opens calls (nested below read) s := by
  cases below with
  | none => exact blames_fail (.tooDeep hopens)
  | some inner => exact h inner rfl

theorem blames_whole {wanted : Wanted} (h : Blames opens calls r s) :
    Blames opens calls (whole r wanted) s := by
  refine h.bind fun a m => blames_peek_bind ?_
  split
  · exact blames_pure a
  · exact blames_unexpected wanted

variable [DecidableEq κ]

theorem blames_expect (k : κ) (wanted : Wanted) : Blames opens calls (expect k wanted) s := by
  refine blames_peek_bind ?_
  split
  · exact blames_advance
  · exact blames_unexpected wanted

theorem blames_close (closing : κ) : Blames opens calls (close closing) s := by
  refine blames_peek_bind ?_
  split
  · exact blames_advance
  · split
    · exact blames_pure ()
    · exact blames_unexpected .closing

theorem blames_itemsAfter {separator : κ} (h : ∀ s, Blames opens calls r s) (fuel : Nat)
    (s : Stream κ) : Blames opens calls (itemsAfter separator r fuel) s := by
  induction fuel generalizing s with
  | zero => exact blames_pure []
  | succ fuel ih =>
      refine blames_peek_bind ?_
      split
      · exact blames_advance_bind fun s' => (h s').bind fun _ s'' =>
          (ih s'').bind fun _ _ => blames_pure _
      · exact blames_pure []

theorem blames_separated {separator : κ} (h : ∀ s, Blames opens calls r s) (s : Stream κ) :
    Blames opens calls (separated separator r) s := by
  refine (h s).bind fun a m => ?_
  have hmore : Blames opens calls (do return a :: (← itemsAfter separator r m.ahead.length)) m :=
    (blames_itemsAfter h m.ahead.length m).bind fun as _ => blames_pure (a :: as)
  exact hmore

end Reader

end FormLogic
