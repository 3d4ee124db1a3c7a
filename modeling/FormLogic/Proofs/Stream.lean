import FormLogic.Stream
import Mathlib.Data.List.TakeWhile

/-!
# FormLogic.Proofs.Stream

What readers take off a stream. `Stream.Takes closing ks s s'` says that the
kinds `ks` lead from `s` to `s'`, where closing parentheses may be missing at
the end of the stream; `Reader.Recognizes` compares a reader with a set of
phrases in both directions, for every stream. Each reader of `FormLogic.Stream`
has its law here:

* `run_expect_eq_ok`, `run_close_eq_ok` — the readers of one token;
* `recognizes_separated` — the reader of a run is the run of its items;
* `run_whole_ofTokens_eq_ok` — a reader of whole streams takes the kinds in
  front of the end of file, and some closing parentheses behind them.
-/

namespace FormLogic

/-- An end of file is the only kind that ends a stream. -/
class LawfulTokenKind (κ : Type) [TokenKind κ] : Prop where
  isEof_iff (k : κ) : TokenKind.isEof k = true ↔ k = TokenKind.eof

export LawfulTokenKind (isEof_iff)

/-! ## Steps of a stream -/

namespace Stream

variable {κ : Type} [TokenKind κ]

/-- One step over the kind `k`: it stands in front, or it is a closing
parenthesis that is missing at the end of the stream. -/
def Step (closing k : κ) (s s' : Stream κ) : Prop :=
  s.current.kind = k ∧ s' = s.next ∨ TokenKind.isEof s.current.kind ∧ k = closing ∧ s' = s

/-- The kinds `ks` lead from `s` to `s'`. -/
def Takes (closing : κ) : List κ → Stream κ → Stream κ → Prop
  | [], s, s' => s' = s
  | k :: ks, s, s' => ∃ m, Step closing k s m ∧ Takes closing ks m s'

variable {closing k : κ} {ks ls : List κ} {s s' : Stream κ}

@[simp] theorem takes_nil : Takes closing [] s s' ↔ s' = s := Iff.rfl

@[simp] theorem takes_cons :
    Takes closing (k :: ks) s s' ↔ ∃ m, Step closing k s m ∧ Takes closing ks m s' := Iff.rfl

/-- Only a closing parenthesis can be missing. -/
theorem step_of_ne (h : k ≠ closing) :
    Step closing k s s' ↔ s.current.kind = k ∧ s' = s.next := by
  simp [Step, h]

theorem takes_cons_of_ne (h : k ≠ closing) :
    Takes closing (k :: ks) s s' ↔ s.current.kind = k ∧ Takes closing ks s.next s' := by
  simp [step_of_ne h, and_assoc]

/-- A single kind in front is the phrase that it is. -/
theorem takes_current (hk : k ≠ closing) (h : s.current.kind = k) :
    Takes closing [k] s s.next :=
  (takes_cons_of_ne hk).mpr ⟨h, rfl⟩

theorem takes_append :
    Takes closing (ks ++ ls) s s' ↔ ∃ m, Takes closing ks s m ∧ Takes closing ls m s' := by
  induction ks generalizing s with
  | nil => simp
  | cons k ks ih =>
      simp only [List.cons_append, takes_cons, ih]
      constructor
      · intro h
        obtain ⟨m, hstep, m', hks, hls⟩ := h
        exact ⟨m', ⟨m, hstep, hks⟩, hls⟩
      · intro h
        obtain ⟨m', ⟨m, hstep, hks⟩, hls⟩ := h
        exact ⟨m, hstep, m', hks, hls⟩

theorem Step.last_eq (h : Step closing k s s') : s'.last = s.last := by
  rcases h with ⟨-, rfl⟩ | ⟨-, -, rfl⟩ <;> rfl

theorem Takes.last_eq (h : Takes closing ks s s') : s'.last = s.last := by
  induction ks generalizing s with
  | nil => rw [takes_nil.mp h]
  | cons k ks ih =>
      obtain ⟨m, hstep, hks⟩ := takes_cons.mp h
      rw [ih hks, hstep.last_eq]

omit [TokenKind κ] in
theorem length_next_le : s.next.ahead.length ≤ s.ahead.length := by
  simp [next]

theorem Step.length_le (h : Step closing k s s') : s'.ahead.length ≤ s.ahead.length := by
  rcases h with ⟨-, rfl⟩ | ⟨-, -, rfl⟩
  · exact length_next_le
  · exact Nat.le_refl _

theorem Takes.length_le (h : Takes closing ks s s') : s'.ahead.length ≤ s.ahead.length := by
  induction ks generalizing s with
  | nil => exact Nat.le_of_eq (by rw [takes_nil.mp h])
  | cons k ks ih =>
      obtain ⟨m, hstep, hks⟩ := takes_cons.mp h
      exact Nat.le_trans (ih hks) hstep.length_le

/-- A stream that ends in an end of file. -/
def Ended (s : Stream κ) : Prop := TokenKind.isEof s.last.kind = true

theorem Takes.ended (h : Takes closing ks s s') (hs : s.Ended) : s'.Ended := by
  unfold Ended at *
  rwa [h.last_eq]

theorem Ended.next (h : s.Ended) : s.next.Ended := h

/-- A kind in front that does not end the stream is the kind of a token
ahead, so the stream behind it is shorter. -/
theorem length_next_lt (hs : s.Ended) (h : TokenKind.isEof s.current.kind = false) :
    s.next.ahead.length < s.ahead.length := by
  cases hahead : s.ahead with
  | nil => simp_all [Ended, current]
  | cons t ts => simp [next, hahead]

end Stream

/-! ## Streams of token lists -/

/-- The kinds of the tokens in front of the first end of file. -/
def kindsAhead {κ : Type} [TokenKind κ] (tokens : List (Token κ)) : List κ :=
  (tokens.map (·.kind)).takeWhile fun k => !TokenKind.isEof k

namespace Stream

variable {κ : Type} [TokenKind κ] (source : String) (tokens : List (Token κ))

theorem map_kind_ahead_ofTokens :
    (ofTokens source tokens).ahead.map (·.kind) = kindsAhead tokens := by
  simp [ofTokens, kindsAhead, List.takeWhile_map, Function.comp_def]

theorem ended_ofTokens [LawfulTokenKind κ] : (ofTokens source tokens).Ended := by
  unfold Ended ofTokens
  cases h : tokens.find? fun t => TokenKind.isEof t.kind with
  | none => simp [isEof_iff]
  | some t => simpa [h] using List.find?_some h

/-- With tokens ahead, a step takes the first of them. -/
theorem step_ahead {closing k : κ} {s m : Stream κ} {t : Token κ} {ts : List (Token κ)}
    (h : s.ahead = t :: ts) (ht : TokenKind.isEof t.kind = false) :
    Step closing k s m ↔ t.kind = k ∧ m = s.next := by
  simp [Step, current, h, ht]

/-- At the end, a step stands for a closing parenthesis that is missing. -/
theorem step_at_end {closing k : κ} {s m : Stream κ} (hs : s.Ended) (h : s.ahead = [])
    (hk : TokenKind.isEof k = false) : Step closing k s m ↔ k = closing ∧ m = s := by
  have hcur : s.current = s.last := by simp [current, h]
  have hlast : TokenKind.isEof s.last.kind = true := hs
  have hne : s.last.kind ≠ k := fun he => by simp [he, hk] at hlast
  simp [Step, hcur, hlast, hne]

/-- Kinds lead to the end of a stream exactly when they are the kinds ahead,
followed by the closing parentheses that are missing. -/
theorem takes_to_end_iff {closing : κ} {ks : List κ} {s : Stream κ} (hs : s.Ended)
    (hahead : ∀ t ∈ s.ahead, TokenKind.isEof t.kind = false)
    (hks : ∀ k ∈ ks, TokenKind.isEof k = false) :
    (∃ s', Takes closing ks s s' ∧ TokenKind.isEof s'.current.kind = true) ↔
      ∃ n, ks = s.ahead.map (·.kind) ++ List.replicate n closing := by
  induction ks generalizing s with
  | nil =>
      cases h : s.ahead with
      | nil =>
          have hlast : TokenKind.isEof s.last.kind = true := hs
          simp [current, h, hlast]
      | cons t ts => simp [current, h, hahead t (by simp [h])]
  | cons k ks ih =>
      have hk : TokenKind.isEof k = false := hks k List.mem_cons_self
      have hks' : ∀ k ∈ ks, TokenKind.isEof k = false := fun k' hk' =>
        hks k' (List.mem_cons_of_mem k hk')
      cases h : s.ahead with
      | nil =>
          have ih := ih hs hahead hks'
          simp only [takes_cons, step_at_end hs h hk, and_assoc, exists_and_left, exists_eq_left]
          rw [ih, h]
          constructor
          · intro hmissing
            obtain ⟨rfl, n, rfl⟩ := hmissing
            exact ⟨n + 1, rfl⟩
          · intro hmissing
            obtain ⟨n, hn⟩ := hmissing
            cases n with
            | zero => simp at hn
            | succ n =>
                obtain ⟨rfl, rfl⟩ := List.cons.inj hn
                exact ⟨rfl, n, rfl⟩
      | cons t ts =>
          have htail : s.next.ahead = ts := by simp [next, h]
          have ih := ih hs.next (fun u hu => hahead u (by rw [h]; simp_all)) hks'
          simp only [takes_cons, step_ahead h (hahead t (by simp [h])), and_assoc,
            exists_and_left, exists_eq_left]
          rw [ih, htail]
          simp [eq_comm]

end Stream

/-! ## Laws of readers -/

namespace Reader

variable {κ α β : Type}

theorem run_bind_eq_ok {r : Reader κ α} {f : α → Reader κ β} {s s' : Stream κ} {b : β} :
    (r >>= f).run s = .ok (b, s') ↔
      ∃ a m, r.run s = .ok (a, m) ∧ (f a).run m = .ok (b, s') := by
  rw [StateT.run_bind]
  cases r.run s with
  | error e => simp [bind, Except.bind]
  | ok x =>
      constructor
      · intro h
        exact ⟨x.1, x.2, rfl, h⟩
      · intro hrun
        obtain ⟨a, m, ⟨⟩, h⟩ := hrun
        exact h

theorem run_map_eq_ok {r : Reader κ α} {f : α → β} {s s' : Stream κ} {b : β} :
    (f <$> r).run s = .ok (b, s') ↔ ∃ a, r.run s = .ok (a, s') ∧ b = f a := by
  rw [StateT.run_map]
  cases r.run s with
  | error e => simp [Functor.map, Except.map]
  | ok x =>
      constructor
      · rintro ⟨⟩
        exact ⟨x.1, rfl, rfl⟩
      · intro h
        obtain ⟨a, ⟨⟩, rfl⟩ := h
        rfl

@[simp] theorem pure_eq_ok {ε : Type} {a b : α} : (pure a : Except ε α) = .ok b ↔ b = a := by
  simp [pure, Except.pure, eq_comm]

theorem map_fst_eq_ok {ε : Type} {x : Except ε (α × β)} {a : α} :
    x.map (·.1) = .ok a ↔ ∃ b, x = .ok (a, b) := by
  cases x with
  | error e => simp [Except.map]
  | ok x =>
      obtain ⟨a', b⟩ := x
      simp [Except.map]

theorem run_pure_eq_ok {a b : α} {s s' : Stream κ} :
    (pure a : Reader κ α).run s = .ok (b, s') ↔ b = a ∧ s' = s := by
  simp

@[simp] theorem run_get_bind {f : Stream κ → Reader κ β} {s : Stream κ} :
    (get >>= f).run s = (f s).run s := rfl

@[simp] theorem run_peek_bind {f : κ → Reader κ β} {s : Stream κ} :
    (peek >>= f).run s = (f s.current.kind).run s := rfl

@[simp] theorem run_advance_bind {f : Unit → Reader κ β} {s : Stream κ} :
    (advance >>= f).run s = (f ()).run s.next := rfl

@[simp] theorem run_advance_eq_ok {s s' : Stream κ} {u : Unit} :
    (advance : Reader κ Unit).run s = .ok (u, s') ↔ s' = s.next := by
  constructor
  · rintro ⟨⟩
    rfl
  · rintro rfl
    rfl

@[simp] theorem run_fail {cause : Cause} {s : Stream κ} :
    (fail cause : Reader κ α).run s = .error ⟨cause, s.current.span⟩ := rfl

@[simp] theorem run_unexpected [TokenKind κ] {wanted : Wanted} {s : Stream κ} :
    (unexpected wanted : Reader κ α).run s =
      .error ⟨.unexpectedToken wanted (TokenKind.text s.current.kind), s.current.span⟩ := rfl

section
variable [TokenKind κ] [DecidableEq κ]

theorem run_expect_eq_ok {k : κ} {wanted : Wanted} {s s' : Stream κ} {u : Unit} :
    (expect k wanted).run s = .ok (u, s') ↔ s.current.kind = k ∧ s' = s.next := by
  unfold expect
  rw [run_peek_bind]
  split
  · next h => simp [h]
  · next h => simp [h]

theorem run_close_eq_ok {closing : κ} (hc : TokenKind.isEof closing = false)
    {s s' : Stream κ} {u : Unit} :
    (close closing).run s = .ok (u, s') ↔ s.Step closing closing s' := by
  unfold close Stream.Step
  rw [run_peek_bind]
  split
  · next h => simp [h, hc]
  · next h =>
      split
      · next he => simp [h, he]
      · next he => simp [h, he]

end

end Reader

/-! ## Readers and phrases -/

/-- One or more phrases of `L` with a separator between neighbours. -/
inductive Run {κ α : Type} (separator : κ) (L : List κ → α → Prop) : List κ → List α → Prop
  | one {ks : List κ} {a : α} : L ks a → Run separator L ks [a]
  | cons {ks ls : List κ} {a : α} {as : List α} :
      L ks a → Run separator L ls as → Run separator L (ks ++ separator :: ls) (a :: as)

theorem Run.length_pos {κ α : Type} {separator : κ} {L : List κ → α → Prop} {ks : List κ}
    {as : List α} (h : Run separator L ks as) : 0 < as.length := by
  cases h <;> simp

/-- Phrases of a run may be weakened one by one. -/
theorem Run.mono {κ α : Type} {separator : κ} {L M : List κ → α → Prop}
    (h : ∀ ks a, L ks a → M ks a) {ks : List κ} {as : List α} (hrun : Run separator L ks as) :
    Run separator M ks as := by
  induction hrun with
  | one ha => exact .one (h _ _ ha)
  | cons ha _ ih => exact .cons (h _ _ ha) ih

/-- What holds of a separator and of the kinds of the phrases holds of the
kinds of a run. -/
theorem Run.forall_mem {κ α : Type} {separator : κ} {L : List κ → α → Prop} {p : κ → Prop}
    (hsep : p separator) (hL : ∀ ls a, L ls a → ∀ k ∈ ls, p k) {ks : List κ} {as : List α}
    (h : Run separator L ks as) : ∀ k ∈ ks, p k := by
  induction h with
  | one ha => exact hL _ _ ha
  | cons ha _ ih =>
      intro k hk
      rcases List.mem_append.mp hk with hk | hk
      · exact hL _ _ ha k hk
      · rcases List.mem_cons.mp hk with rfl | hk
        · exact hsep
        · exact ih k hk

theorem Run.append {κ α : Type} {separator : κ} {L : List κ → α → Prop} {ks ls : List κ}
    {as bs : List α} (hks : Run separator L ks as) (hls : Run separator L ls bs) :
    Run separator L (ks ++ separator :: ls) (as ++ bs) := by
  induction hks with
  | one ha => exact .cons ha hls
  | cons ha _ ih =>
      rw [List.append_assoc, List.cons_append]
      exact .cons ha ih

/-- A phrase in front of runs joins the first of them. -/
theorem Run.cons_head {κ α : Type} {outer inner : κ} {L : List κ → α → Prop} {ks ls : List κ}
    {a : α} {runs : List (List α)} (ha : L ks a) (h : Run outer (Run inner L) ls runs) :
    Run outer (Run inner L) (ks ++ inner :: ls) (runs.modifyHead (a :: ·)) := by
  cases h with
  | one has => exact .one (.cons ha has)
  | cons has hmore =>
      rw [← List.cons_append, ← List.append_assoc]
      exact .cons (.cons ha has) hmore

/-- A run whose items are joined is one phrase, or a node of two or more. -/
theorem run_joined_iff {κ α : Type} {separator : κ} {L : List κ → α → Prop} {join node : List α → α}
    (hone : ∀ a, join [a] = a) (hmany : ∀ a b as, join (a :: b :: as) = node (a :: b :: as))
    {ks : List κ} {a : α} :
    (∃ as, Run separator L ks as ∧ a = join as) ↔
      L ks a ∨ ∃ as, Run separator L ks as ∧ 2 ≤ as.length ∧ a = node as := by
  constructor
  · intro h
    obtain ⟨as, hrun, rfl⟩ := h
    cases hrun with
    | one ha => exact .inl (by rwa [hone])
    | cons ha has =>
        cases has with
        | one hb => exact .inr ⟨_, .cons ha (.one hb), by simp, hmany _ _ []⟩
        | cons hb hbs => exact .inr ⟨_, .cons ha (.cons hb hbs), by simp, hmany _ _ _⟩
  · rintro (ha | ⟨as, hrun, hlen, rfl⟩)
    · exact ⟨[a], .one ha, (hone a).symm⟩
    · match as, hlen with
      | b :: c :: as, _ => exact ⟨_, hrun, (hmany b c as).symm⟩

namespace Reader

variable {κ α : Type} [TokenKind κ]

/-- A reader takes exactly the phrases of `L` that a token with `stop` stands
behind. -/
def Recognizes (closing : κ) (r : Reader κ α) (L : List κ → α → Prop) (stop : κ → Prop) : Prop :=
  ∀ s : Stream κ, s.Ended → ∀ a s', r.run s = .ok (a, s') ↔
    ∃ ks, L ks a ∧ s.Takes closing ks s' ∧ stop s'.current.kind

theorem Recognizes.congr {closing : κ} {r : Reader κ α} {L M : List κ → α → Prop}
    {stop stop' : κ → Prop} (h : Recognizes closing r L stop) (hL : ∀ ks a, L ks a ↔ M ks a)
    (hstop : ∀ k, stop k ↔ stop' k) : Recognizes closing r M stop' := by
  intro s hs a s'
  simp only [h s hs a s', hL, hstop]

theorem Recognizes.map {β : Type} {closing : κ} {r : Reader κ α} {L : List κ → α → Prop}
    {stop : κ → Prop} (h : Recognizes closing r L stop) (f : α → β) :
    Recognizes closing (f <$> r) (fun ks b => ∃ a, L ks a ∧ b = f a) stop := by
  intro s hs b s'
  rw [run_map_eq_ok]
  constructor
  · intro hread
    obtain ⟨a, hrun, rfl⟩ := hread
    obtain ⟨ks, hks, hrest⟩ := (h s hs a s').mp hrun
    exact ⟨ks, ⟨a, hks, rfl⟩, hrest⟩
  · intro hphrase
    obtain ⟨ks, ⟨a, hks, rfl⟩, hrest⟩ := hphrase
    exact ⟨a, (h s hs a s').mpr ⟨ks, hks, hrest⟩, rfl⟩

section
variable [DecidableEq κ] {closing separator : κ} {item : Reader κ α} {L : List κ → α → Prop}
  {stop : κ → Prop}

/-- What stands behind the first item of a run: nothing of it, or a separator
with a run behind. -/
def MoreItems (closing separator : κ) (L : List κ → α → Prop) (stop : κ → Prop) (s : Stream κ)
    (as : List α) (s' : Stream κ) : Prop :=
  as = [] ∧ s' = s ∧ s.current.kind ≠ separator ∨
    ∃ ks, Run separator L ks as ∧ s.Takes closing (separator :: ks) s' ∧
      stop s'.current.kind ∧ s'.current.kind ≠ separator

omit [DecidableEq κ] in
/-- An item with more items behind it is a run, when `rest m` reads the items
behind one that ends at `m`. -/
theorem item_rest_iff (hitem : Recognizes closing item L stop) (hstop : stop separator)
    (hsep : separator ≠ closing) {s : Stream κ} (hs : s.Ended) {as : List α} {s' : Stream κ}
    (rest : Stream κ → Reader κ (List α))
    (hrest : ∀ m : Stream κ, m.Ended → m.ahead.length ≤ s.ahead.length → ∀ bs,
      (rest m).run m = .ok (bs, s') ↔ MoreItems closing separator L stop m bs s') :
    (∃ a m, item.run s = .ok (a, m) ∧ ∃ bs, (rest m).run m = .ok (bs, s') ∧ as = a :: bs) ↔
      ∃ ks, Run separator L ks as ∧ s.Takes closing ks s' ∧ stop s'.current.kind ∧
        s'.current.kind ≠ separator := by
  constructor
  · intro h
    obtain ⟨a, m, hrun, bs, hbs, rfl⟩ := h
    obtain ⟨ks, hks, htakes, hm⟩ := (hitem s hs a m).mp hrun
    rcases (hrest m (htakes.ended hs) htakes.length_le bs).mp hbs with
      ⟨rfl, rfl, hne⟩ | ⟨ls, hls, htakes', hend⟩
    · exact ⟨ks, .one hks, htakes, hm, hne⟩
    · exact ⟨ks ++ separator :: ls, .cons hks hls, Stream.takes_append.mpr ⟨m, htakes, htakes'⟩,
        hend⟩
  · intro h
    obtain ⟨ks, hrun, htakes, hm, hne⟩ := h
    cases hrun with
    | one ha =>
        exact ⟨_, s', (hitem s hs _ s').mpr ⟨_, ha, htakes, hm⟩, [],
          (hrest s' (htakes.ended hs) htakes.length_le []).mpr (.inl ⟨rfl, rfl, hne⟩), rfl⟩
    | cons ha has =>
        obtain ⟨m, hfst, hlast⟩ := Stream.takes_append.mp htakes
        -- the separator in front of the rest lets the first item stop
        have hstop' : stop m.current.kind := by
          obtain ⟨_, hstep, -⟩ := Stream.takes_cons.mp hlast
          rwa [((Stream.step_of_ne hsep).mp hstep).1]
        exact ⟨_, m, (hitem s hs _ m).mpr ⟨_, ha, hfst, hstop'⟩, _,
          (hrest m (hfst.ended hs) hfst.length_le _).mpr (.inr ⟨_, has, hlast, hm, hne⟩), rfl⟩

/-- With as much fuel as there are tokens ahead, the items behind the first
one are read as long as a separator stands in front. -/
theorem run_itemsAfter_eq_ok (hitem : Recognizes closing item L stop) (hstop : stop separator)
    (hsep : separator ≠ closing) (heof : TokenKind.isEof separator = false) (fuel : Nat)
    {s : Stream κ} (hs : s.Ended) (hfuel : s.ahead.length ≤ fuel) {as : List α}
    {s' : Stream κ} :
    (itemsAfter separator item fuel).run s = .ok (as, s') ↔
      MoreItems closing separator L stop s as s' := by
  induction fuel generalizing s as with
  | zero =>
      have hnil : s.ahead = [] := List.length_eq_zero_iff.mp (Nat.le_zero.mp hfuel)
      have hne : s.current.kind ≠ separator := by
        intro h
        have hlast : TokenKind.isEof s.last.kind = true := hs
        simp [Stream.current, hnil] at h
        simp [h, heof] at hlast
      simp [itemsAfter, MoreItems, hne, Stream.step_of_ne hsep]
  | succ fuel ih =>
      unfold itemsAfter
      rw [run_peek_bind]
      by_cases h : s.current.kind = separator
      · have hlt := Stream.length_next_lt hs (by rw [h]; exact heof)
        have hmore : MoreItems closing separator L stop s as s' ↔
            ∃ ks, Run separator L ks as ∧ s.next.Takes closing ks s' ∧ stop s'.current.kind ∧
              s'.current.kind ≠ separator := by
          simp [MoreItems, h, Stream.step_of_ne hsep]
        rw [if_pos h, run_advance_bind, hmore, ← item_rest_iff hitem hstop hsep hs.next
          (fun _ => itemsAfter separator item fuel) fun m hm hle bs => ih hm (by omega)]
        simp only [run_bind_eq_ok, run_pure_eq_ok, exists_eq_right_right']
      · simp [MoreItems, h, Stream.step_of_ne hsep]

/-- Items with a separator between neighbours are a run of their phrases. -/
theorem recognizes_separated (hitem : Recognizes closing item L stop) (hstop : stop separator)
    (hsep : separator ≠ closing) (heof : TokenKind.isEof separator = false) :
    Recognizes closing (separated separator item) (Run separator L)
      fun k => stop k ∧ k ≠ separator := by
  intro s hs as s'
  rw [← item_rest_iff hitem hstop hsep hs
    (fun m => itemsAfter separator item m.ahead.length)
    fun m hm _ bs => run_itemsAfter_eq_ok hitem hstop hsep heof _ hm (Nat.le_refl _)]
  simp only [separated, run_bind_eq_ok, run_get_bind, run_pure_eq_ok, exists_eq_right_right']

end

theorem run_whole_eq_ok {r : Reader κ α} {wanted : Wanted} {s s' : Stream κ} {a : α} :
    (whole r wanted).run s = .ok (a, s') ↔
      r.run s = .ok (a, s') ∧ TokenKind.isEof s'.current.kind = true := by
  simp only [whole, run_bind_eq_ok, run_peek_bind]
  constructor
  · intro hread
    obtain ⟨b, m, hrun, hend⟩ := hread
    split at hend
    · next h =>
        obtain ⟨rfl, rfl⟩ := run_pure_eq_ok.mp hend
        exact ⟨hrun, h⟩
    · simp at hend
  · intro hread
    obtain ⟨hrun, h⟩ := hread
    exact ⟨a, s', hrun, by simp [h]⟩

/-- A reader of whole streams takes the kinds in front of the end of file, and
the closing parentheses that are missing behind them. -/
theorem run_whole_ofTokens_eq_ok [LawfulTokenKind κ] {closing : κ} {r : Reader κ α}
    {L : List κ → α → Prop} {stop : κ → Prop} (hr : Recognizes closing r L stop)
    (hstop : stop TokenKind.eof) (hL : ∀ ks a, L ks a → ∀ k ∈ ks, TokenKind.isEof k = false)
    {wanted : Wanted} {source : String} {tokens : List (Token κ)} {a : α} :
    ((whole r wanted).run (Stream.ofTokens source tokens)).map (·.1) = .ok a ↔
      ∃ n, L (kindsAhead tokens ++ List.replicate n closing) a := by
  have hs := Stream.ended_ofTokens source tokens
  have hahead : ∀ t ∈ (Stream.ofTokens source tokens).ahead, TokenKind.isEof t.kind = false := by
    intro t ht
    simpa using List.mem_takeWhile_imp ht
  simp only [map_fst_eq_ok, run_whole_eq_ok, hr _ hs]
  constructor
  · intro h
    obtain ⟨s', ⟨ks, hks, htakes, -⟩, hend⟩ := h
    obtain ⟨n, rfl⟩ := (Stream.takes_to_end_iff hs hahead (hL ks a hks)).mp ⟨s', htakes, hend⟩
    rw [Stream.map_kind_ahead_ofTokens] at hks
    exact ⟨n, hks⟩
  · intro h
    obtain ⟨n, hks⟩ := h
    obtain ⟨s', htakes, hend⟩ := (Stream.takes_to_end_iff hs hahead (hL _ a hks)).mpr
      ⟨n, by rw [Stream.map_kind_ahead_ofTokens]⟩
    have hkind : s'.current.kind = TokenKind.eof := (isEof_iff _).mp hend
    exact ⟨s', ⟨_, hks, htakes, by rwa [hkind]⟩, hend⟩

end Reader

end FormLogic
