import SearchDsl.Proofs.Text.Keyword
import SearchDsl.Proofs.Token.Passing

/-!
# Literals as rows of tokens

* `Token.Writes`: a single token that writes a scalar or null;
* `Separated P ts as`: the tokens `ts` are those of the elements `as`, with commas between them;
* `Value.Derives levels ts v`: the tokens `ts` write the value `v`, with lists nested at most
  `levels` deep.

`commaList_iff` and `valueWithin_iff` say that the readers read just these rows of tokens.
-/

namespace SearchDsl

/-- The token writes the value: strings and numbers do so for themselves, and there are words for
the truth values and null, in whichever case. -/
inductive Token.Writes : Token → Value → Prop
  | string (s : String) : Writes (.string s) (.string s)
  | number (n : Numeral) : Writes (.number n) (.number n)
  | yes {w : String} : (Token.word w).isKeyword "true" = true → Writes (.word w) (.bool true)
  | no {w : String} : (Token.word w).isKeyword "false" = true → Writes (.word w) (.bool false)
  | null {w : String} : (Token.word w).isKeyword "null" = true → Writes (.word w) .null

theorem Reading.scalarOf?_word (w : String) :
    scalarOf? (.word w) =
      if (Token.word w).isKeyword "true" then some (.bool true)
      else if (Token.word w).isKeyword "false" then some (.bool false)
      else if (Token.word w).isKeyword "null" then some .null
      else none := rfl

/-- The tokens that write a value are those that the reader takes for it. -/
theorem Token.writes_iff {t : Token} {v : Value} : t.Writes v ↔ Reading.scalarOf? t = some v := by
  constructor
  · -- A word is one keyword only, so it does not matter which one is tried first.
    have other : ∀ {w k k' : String}, (word w).isKeyword k = true →
        k.toList.map Char.toLower ≠ k'.toList.map Char.toLower → ¬ (word w).isKeyword k' = true :=
      fun h hne h' => hne (isKeyword_unique h h')
    rintro (s | n | h | h | h)
    · rfl
    · rfl
    · rw [Reading.scalarOf?_word, if_pos h]
    · rw [Reading.scalarOf?_word, if_neg (other h (by decide)), if_pos h]
    · rw [Reading.scalarOf?_word, if_neg (other h (by decide)), if_neg (other h (by decide)),
        if_pos h]
  · intro h
    cases t with
    | string s =>
      cases h
      exact .string s
    | number n =>
      cases h
      exact .number n
    | word w =>
      rw [Reading.scalarOf?_word] at h
      split at h
      · rename_i hyes
        cases h
        exact .yes hyes
      · split at h
        · rename_i hno
          cases h
          exact .no hno
        · split at h
          · rename_i hnull
            cases h
            exact .null hnull
          · cases h
    | _ => cases h

/-- A token writes one value. -/
theorem Token.Writes.unique {t : Token} {v v' : Value} (h : t.Writes v) (h' : t.Writes v') :
    v = v' := by
  rw [writes_iff] at h h'
  exact Option.some.inj (h.symm.trans h')

/-- The tokens of at least one element, with a comma between any two. -/
inductive Separated {α : Type} (P : List Token → α → Prop) : List Token → List α → Prop
  | one {ts : List Token} {a : α} : P ts a → Separated P ts [a]
  | more {ts us : List Token} {a : α} {as : List α} :
      P ts a → Separated P us as → Separated P (ts ++ .comma :: us) (a :: as)

/-- The tokens write the value. -/
def Value.Derives : (levels : Nat) → List Token → Value → Prop
  | 0, ts, v => ∃ t, ts = [t] ∧ t.Writes v
  | levels + 1, ts, v =>
    (∃ t, ts = [t] ∧ t.Writes v) ∨
      ∃ us items, ts = .leftBracket :: (us ++ [.rightBracket]) ∧ v = .list items ∧
        Separated (Value.Derives levels) us items

theorem Separated.head {α : Type} {P : List Token → α → Prop} {Q : Token → Prop}
    (hP : ∀ {ts : List Token} {a : α}, P ts a → ∃ t us, ts = t :: us ∧ Q t) {ts : List Token}
    {as : List α} (h : Separated P ts as) : ∃ t us, ts = t :: us ∧ Q t := by
  cases h with
  | one h => exact hP h
  | more h _ =>
    obtain ⟨t, us, rfl, hq⟩ := hP h
    exact ⟨t, _, List.cons_append, hq⟩

theorem Separated.map {α β : Type} {P : List Token → α → Prop} {Q : List Token → β → Prop}
    {f : α → β} {ts : List Token} {as : List α} (h : Separated P ts as)
    (hf : ∀ us a, P us a → Q us (f a)) : Separated Q ts (as.map f) := by
  induction h with
  | one h => exact .one (hf _ _ h)
  | more h _ ih => exact .more (hf _ _ h) ih

theorem Separated.exists_of_mem {α : Type} {P : List Token → α → Prop} {ts : List Token}
    {as : List α} (h : Separated P ts as) : ∀ a ∈ as, ∃ us, P us a := by
  induction h with
  | one h => exact List.forall_mem_singleton.2 ⟨_, h⟩
  | more h _ ih => exact List.forall_mem_cons.2 ⟨⟨_, h⟩, ih⟩

theorem Separated.exists_map {α β : Type} {P : List Token → α → Prop}
    {Q : List Token → β → Prop} {f : α → β} {ts : List Token} {bs : List β}
    (h : Separated Q ts bs)
    (hf : ∀ b ∈ bs, ∀ us, Q us b → ∃ a, f a = b ∧ P us a) :
    ∃ as, as.map f = bs ∧ Separated P ts as := by
  induction h with
  | one h =>
    obtain ⟨a, rfl, ha⟩ := hf _ (List.mem_singleton_self _) _ h
    exact ⟨[a], rfl, .one ha⟩
  | more h _ ih =>
    obtain ⟨a, rfl, ha⟩ := hf _ List.mem_cons_self _ h
    obtain ⟨as, rfl, has⟩ := ih fun b hb => hf b (List.mem_cons_of_mem _ hb)
    exact ⟨a :: as, rfl, .more ha has⟩

/-- A token that is no comma stands in one of the elements, which starts the list or comes after a
comma; other tokens for that element may stand in its place. -/
theorem Separated.around {α : Type} {P : List Token → α → Prop} {us vs : List Token} {t : Token}
    {as : List α} (h : Separated P (us ++ t :: vs) as) (ht : t ≠ .comma) :
    ∃ front us' vs' back a, us = front ++ us' ∧ vs = vs' ++ back ∧
      (∀ c ∈ front.getLast?, c = .comma) ∧ P (us' ++ t :: vs') a ∧
      ∀ {ts : List Token}, P ts a → Separated P (front ++ (ts ++ back)) as := by
  generalize hts : us ++ t :: vs = ts at h
  induction h generalizing us with
  | one h =>
    subst hts
    exact ⟨[], us, vs, [], _, rfl, (List.append_nil _).symm, by simp, h, fun h => by
      simpa using .one h⟩
  | @more ts₁ ts₂ a as h₁ h₂ ih =>
    obtain ⟨after, rfl, hrest⟩ | ⟨before, rfl, hrest⟩ := List.append_eq_append_iff.1 hts
    · -- The token stands in the first element.
      cases after with
      | nil => exact absurd (List.cons.inj hrest).1 ht
      | cons _ after =>
        obtain ⟨rfl, rfl⟩ := List.cons.inj hrest
        exact ⟨[], us, after, .comma :: ts₂, a, rfl, rfl, by simp, h₁, fun h => .more h h₂⟩
    · cases before with
      | nil => exact absurd (List.cons.inj hrest).1.symm ht
      | cons _ before =>
        obtain ⟨rfl, rfl⟩ := List.cons.inj hrest
        obtain ⟨front, us', vs', back, b, rfl, rfl, hfront, hb, hplace⟩ := ih rfl
        refine ⟨ts₁ ++ .comma :: front, us', vs', back, b, by simp, rfl, ?_, hb, fun h => ?_⟩
        · cases front with
          | nil => simp
          | cons c front => simpa using hfront
        · simpa using Separated.more h₁ (hplace h)

namespace Value

variable {levels : Nat} {ts : List Token} {v : Value}

theorem Derives.of_writes {t : Token} (h : t.Writes v) :
    Derives levels [t] v := by
  cases levels with
  | zero => exact ⟨t, rfl, h⟩
  | succ levels => exact .inl ⟨t, rfl, h⟩

/-- No literal starts with a closing bracket. -/
theorem Derives.head (h : Derives levels ts v) : ∃ t us, ts = t :: us ∧ t ≠ .rightBracket := by
  have scalar : (∃ t, ts = [t] ∧ t.Writes v) →
      ∃ t us, ts = t :: us ∧ t ≠ .rightBracket := by
    rintro ⟨t, rfl, ht⟩
    refine ⟨t, [], rfl, ?_⟩
    rintro rfl
    cases ht
  cases levels with
  | zero => exact scalar h
  | succ levels =>
    rcases h with h | ⟨us, items, rfl, -, -⟩
    · exact scalar h
    · exact ⟨_, _, rfl, by simp⟩

end Value

namespace Reading

variable {r r' : Reading}

/-- **A list with commas is read where its elements are**, and it ends where no comma follows. -/
theorem commaList_iff {α : Type} {P : List Token → α → Prop}
    {element : Reading → Except Error (α × Reading)}
    (helement : ∀ {r r' : Reading} {a : α}, r.Ready →
      (element r = .ok (a, r') ↔ ∃ ts, P ts a ∧ r.Passes ts 0 r'))
    {fuel : Nat} {as : List α} (hr : r.Ready) (hf : r.ahead.length ≤ fuel) :
    commaList element fuel r = .ok (as, r') ↔
      (∃ ts, Separated P ts as ∧ r.Passes ts 0 r') ∧ r'.token ≠ .comma := by
  induction fuel generalizing r as with
  | zero =>
    -- A token is looked at, so without fuel there is nothing ahead that could be read.
    have hnil : r.ahead = [] := List.eq_nil_of_length_eq_zero (by omega)
    have hlooks := hr.looks
    rw [contents, hnil] at hlooks
    cases hlooks
  | succ fuel ih =>
    simp only [commaList, bind_eq_ok, Prod.exists, helement hr]
    constructor
    · rintro ⟨a, r₁, ⟨ts, ha, h₁⟩, h⟩
      split at h
      · rename_i hcomma
        simp only [bind_eq_ok, pure_eq_ok, Prod.exists, Prod.mk.injEq,
          advance_iff h₁.after hcomma (by simp)] at h
        obtain ⟨r₂, h₂, bs, r₃, h₃, rfl, rfl⟩ := h
        have hlen₁ := h₁.length_ahead
        have hlen₂ := h₂.length_ahead
        simp only [List.length_singleton] at hlen₂
        obtain ⟨⟨us, hus, h₃⟩, hne⟩ := (ih h₂.after (by omega)).1 h₃
        exact ⟨⟨ts ++ .comma :: us, .more ha hus, h₁.trans (h₂.trans h₃)⟩, hne⟩
      · rename_i hcomma
        simp only [pure_eq_ok, Prod.mk.injEq] at h
        obtain ⟨rfl, rfl⟩ := h
        exact ⟨⟨ts, .one ha, h₁⟩, hcomma⟩
    · rintro ⟨⟨ts, hs, h⟩, hne⟩
      cases hs with
      | one ha =>
        refine ⟨_, r', ⟨_, ha, h⟩, ?_⟩
        rw [if_neg hne]
        rfl
      | @more ts us a as ha hus =>
        obtain ⟨r₁, h₁, h⟩ := h.split_later
        obtain ⟨r₂, h₂, h₃⟩ := h.uncons
        have hlen₁ := h₁.length_ahead
        have hlen₂ := h₂.length_ahead
        simp only [List.length_singleton] at hlen₂
        refine ⟨a, r₁, ⟨ts, ha, h₁⟩, ?_⟩
        have hcomma := h₂.token_eq
        rw [if_pos hcomma]
        simp only [bind_eq_ok, pure_eq_ok, Prod.exists, Prod.mk.injEq,
          advance_iff h₁.after hcomma (by simp)]
        exact ⟨r₂, h₂, as, r', (ih h₂.after (by omega)).2 ⟨⟨us, hus, h₃⟩, hne⟩, rfl, rfl⟩

/-- A single token that is a literal. -/
theorem scalar_iff {v w : Value} (hr : r.Ready) (hs : r.token.Writes w) :
    (do let r ← r.advance; pure (w, r)) = (.ok (v, r') : Except Error (Value × Reading)) ↔
      ∃ ts, (∃ t, ts = [t] ∧ t.Writes v) ∧ r.Passes ts 0 r' := by
  have he : r.token ≠ .eof := by
    intro he
    rw [he] at hs
    cases hs
  simp only [bind_eq_ok, pure_eq_ok, Prod.mk.injEq, advance_iff hr rfl he]
  constructor
  · rintro ⟨r₁, h, rfl, rfl⟩
    exact ⟨_, ⟨_, rfl, hs⟩, h⟩
  · rintro ⟨ts, ⟨t, rfl, ht⟩, h⟩
    obtain rfl : r.token = t := h.token_eq
    exact ⟨r', h, hs.unique ht, rfl⟩

theorem not_scalar {v : Value} (hs : scalarOf? r.token = none) :
    ¬ ∃ ts, (∃ t, ts = [t] ∧ t.Writes v) ∧ r.Passes ts 0 r' := by
  rintro ⟨ts, ⟨t, rfl, ht⟩, h⟩
  rw [h.token_eq, Token.writes_iff.1 ht] at hs
  cases hs

/-- A list in brackets, if its items are read where their tokens are. -/
theorem bracketed_iff {levels : Nat} {v : Value}
    (element : ∀ {r r' : Reading} {a : Value}, r.Ready →
      (valueWithin levels r = .ok (a, r') ↔
        ∃ ts, Value.Derives levels ts a ∧ r.Passes ts 0 r'))
    (hr : r.Ready) (hopen : r.token = .leftBracket) :
    (do
      let r ← r.advance
      if r.token = .rightBracket then .error (r.fault .emptyList)
      else
        let (items, r) ← commaList (valueWithin levels) r.fuel r
        let r ← r.expect .rightBracket
        pure (.list items, r)) = (.ok (v, r') : Except Error (Value × Reading)) ↔
      ∃ us items, v = .list items ∧ Separated (Value.Derives levels) us items ∧
        r.Passes (.leftBracket :: (us ++ [.rightBracket])) 0 r' := by
  have enough : ∀ r : Reading, r.ahead.length ≤ r.fuel := by
    intro r
    simp only [fuel]
    omega
  simp only [bind_eq_ok, advance_iff hr hopen (by simp)]
  constructor
  · rintro ⟨r₁, h₁, h⟩
    split at h
    · cases h
    · simp only [bind_eq_ok, pure_eq_ok, Prod.exists, Prod.mk.injEq] at h
      obtain ⟨items, r₂, h₂, r₃, h₃, rfl, rfl⟩ := h
      obtain ⟨⟨us, hus, h₂⟩, -⟩ := (commaList_iff element h₁.after (enough r₁)).1 h₂
      rw [expect_iff h₂.after (by simp)] at h₃
      exact ⟨us, items, rfl, hus, h₁.trans (h₂.trans h₃)⟩
  · rintro ⟨us, items, rfl, hus, h⟩
    obtain ⟨r₁, h₁, h⟩ := h.uncons
    obtain ⟨r₂, h₂, h₃⟩ := h.split_later
    refine ⟨r₁, h₁, ?_⟩
    obtain ⟨t, ts, rfl, ht⟩ := hus.head Value.Derives.head
    have hfirst : r₁.token = t := h₂.token_eq
    rw [if_neg (hfirst ▸ ht)]
    simp only [bind_eq_ok, pure_eq_ok, Prod.exists, Prod.mk.injEq]
    refine ⟨items, r₂, ?_, r', (expect_iff h₂.after (by simp)).2 h₃, rfl, rfl⟩
    -- No comma follows the items, since the bracket does.
    refine (commaList_iff element h₁.after (enough r₁)).2 ⟨⟨_, hus, h₂⟩, ?_⟩
    rw [h₃.token_eq]
    simp

/-- What writes a literal is a single token or a list in brackets. -/
theorem derives_succ_iff {levels : Nat} {v : Value} :
    (∃ ts, Value.Derives (levels + 1) ts v ∧ r.Passes ts 0 r') ↔
      (∃ ts, (∃ t, ts = [t] ∧ t.Writes v) ∧ r.Passes ts 0 r') ∨
      ∃ us items, v = .list items ∧ Separated (Value.Derives levels) us items ∧
        r.Passes (.leftBracket :: (us ++ [.rightBracket])) 0 r' := by
  constructor
  · rintro ⟨ts, hd | ⟨us, items, rfl, rfl, hsep⟩, h⟩
    · exact .inl ⟨ts, hd, h⟩
    · exact .inr ⟨us, items, rfl, hsep, h⟩
  · rintro (⟨ts, hd, h⟩ | ⟨us, items, rfl, hsep, h⟩)
    · exact ⟨ts, .inl hd, h⟩
    · exact ⟨_, .inr ⟨us, items, rfl, rfl, hsep⟩, h⟩

/-- **A literal is read where its tokens are.** -/
theorem valueWithin_iff {levels : Nat} {v : Value} (hr : r.Ready) :
    valueWithin levels r = .ok (v, r') ↔ ∃ ts, Value.Derives levels ts v ∧ r.Passes ts 0 r' := by
  induction levels generalizing r r' v with
  | zero =>
    rw [valueWithin]
    cases hs : scalarOf? r.token with
    | some w => exact scalar_iff hr (Token.writes_iff.2 hs)
    | none =>
      refine iff_of_false ?_ (not_scalar hs)
      dsimp only
      split <;> simp
  | succ levels ih =>
    -- The token that is looked at decides which of the two kinds it can be.
    rw [valueWithin, derives_succ_iff]
    cases hs : scalarOf? r.token with
    | some w =>
      dsimp only
      rw [scalar_iff hr (Token.writes_iff.2 hs)]
      refine (or_iff_left ?_).symm
      rintro ⟨us, items, -, -, h⟩
      rw [h.token_eq] at hs
      cases hs
    | none =>
      dsimp only
      rw [or_iff_right (not_scalar hs)]
      split
      · rename_i hopen
        exact bracketed_iff ih hr hopen
      · rename_i hopen
        refine iff_of_false (by simp) ?_
        rintro ⟨us, items, -, -, h⟩
        exact hopen h.token_eq

end Reading
end SearchDsl
