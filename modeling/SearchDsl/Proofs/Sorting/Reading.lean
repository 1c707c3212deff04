import Mathlib.Algebra.GroupWithZero.Nat
import SearchDsl.Proofs.Sorting.Grammar

/-!
# The reader of sorts reads the grammar

An item goes on to the next comma or to the end of the text (`Reading.Stops`). Up to there

* `Reading.sortItem_iff`: an item is read where its tokens are, up to the limit of fragments;
* `Reading.sortItems_iff`: items with commas between them are read where their tokens are, all their
  counts being added;
* `Sorting.read_eq_ok_iff`: so a sort is read from a text just if the tokens of the text write its
  items and no more fragments are counted for all their filters together than one expression may
  have.
-/

namespace SearchDsl

namespace Reading

variable {g : Grammar} {r r' : Reading} {field : Field}

/-! ### The end of an item -/

/-- The reading looks at a comma or at the end. -/
def Stops (r : Reading) : Prop := r.token = .comma ∨ r.token = .eof

/-- The reading looks at something that may stand where a direction has been left out. -/
def Pauses (r : Reading) : Prop := r.Stops ∨ r.token.isKeyword sortFilterWord = true

theorem pauses_iff :
    (decide (r.token = .comma) || r.atEnd || r.token.isKeyword sortFilterWord) = true ↔
      r.Pauses := by
  simp only [Pauses, Stops, atEnd, Bool.or_eq_true, decide_eq_true_eq]

theorem Stops.connectiveOf? (h : r.Stops) : connectiveOf? r.token = none := by
  rcases h with h | h
  · rw [h]
    rfl
  · rw [h]
    rfl

theorem Stops.isKeyword (h : r.Stops) (k : String) : r.token.isKeyword k = false := by
  rcases h with h | h
  · rw [h]
    rfl
  · rw [h]
    rfl

/-! ### The parts of an item -/

/-- A direction is read where its token is. Without one the item has to end or go on to its filter.
-/
theorem direction_iff {d : Option Direction} (hr : r.Ready) :
    r.direction = .ok (d, r') ↔
      ∃ ds, Token.Directs ds d ∧ r.Passes ds 0 r' ∧ (d = none → r'.Pauses) := by
  unfold direction
  split
  · rename_i hp
    rw [pauses_iff] at hp
    simp only [pure_eq_ok, Prod.mk.injEq]
    constructor
    · rintro ⟨rfl, rfl⟩
      exact ⟨[], .absent, .refl hr, fun _ => hp⟩
    · rintro ⟨ds, hd, h, -⟩
      cases hd with
      | absent => exact ⟨rfl, (Passes.refl hr).unique h⟩
      | present hw =>
        -- A direction is neither a comma nor the end nor the word in front of a filter.
        rcases hp with (hc | he) | hk
        · rw [h.token_eq] at hc
          cases hc
        · rw [h.token_eq] at he
          cases he
        · rw [h.token_eq, (Token.Directs.present hw).isKeyword (by decide) _ (by simp)] at hk
          cases hk
  · rename_i hp
    rw [pauses_iff] at hp
    have written : ∀ {ds : List Token}, Token.Directs ds d → r.Passes ds 0 r' →
        (d = none → r'.Pauses) → ∃ w e, r.token = .word w ∧ Direction.ofWord? w = some e ∧
          d = some e ∧ r.Passes [.word w] 0 r' := by
      intro ds hd h hpauses
      cases hd with
      | absent =>
        refine absurd (hpauses rfl) ?_
        rw [Pauses, Stops, h.token_of_nil]
        exact hp
      | present hw => exact ⟨_, _, h.token_eq, hw, rfl, h⟩
    split
    · rename_i w hw
      split
      · rename_i e he
        simp only [bind_eq_ok, pure_eq_ok, Prod.mk.injEq, advance_iff hr hw (by simp)]
        constructor
        · rintro ⟨r₁, h, rfl, rfl⟩
          exact ⟨_, .present he, h, by simp⟩
        · rintro ⟨ds, hd, h, hpauses⟩
          obtain ⟨v, e', hv, he', rfl, h⟩ := written hd h hpauses
          cases hw.symm.trans hv
          exact ⟨r', h, he.symm.trans he', rfl⟩
      · rename_i he
        refine iff_of_false (by simp) ?_
        rintro ⟨ds, hd, h, hpauses⟩
        obtain ⟨v, e', hv, he', -, -⟩ := written hd h hpauses
        cases hw.symm.trans hv
        cases he.symm.trans he'
    · rename_i hw
      refine iff_of_false (by simp) ?_
      rintro ⟨ds, hd, h, hpauses⟩
      obtain ⟨v, -, hv, -⟩ := written hd h hpauses
      exact hw v hv

theorem checkSortable_iff : checkSortable field = .ok () ↔ field.IsSortable := by
  unfold checkSortable Field.IsSortable
  cases htype : field.type? with
  | none => simp
  | some t => cases hgeo : t.isGeo <;> cases hsort : t.supportsSorting <;> simp [hgeo, hsort]

theorem hasPlaces_iff_of_type {t : FieldType} (h : field.type? = some t) :
    field.HasPlaces ↔ t.isGeo = true := by
  simp [Field.HasPlaces, h]

theorem hasPlaces_of_untyped (h : field.type? = none) : field.HasPlaces := by
  simp [Field.HasPlaces, h]

/-- Behind `NEAR` stand a point and a direction, if there are places to measure the distance to. -/
theorem distanceItem_eq_ok_iff {i : SortItem} :
    r.distanceItem field = .ok (i, r') ↔
      ∃ v r₁ origin d, r.value = .ok (v, r₁) ∧ v.toPoint = .ok origin ∧ field.HasPlaces ∧
        r₁.direction = .ok (d, r') ∧ i = .byDistance field origin (d.getD .ascending) := by
  simp only [distanceItem, bind_eq_ok, mapError_eq_ok, Prod.exists]
  cases htype : field.type? with
  | none =>
    simp only [bind_eq_ok, pure_eq_ok, Prod.exists, Prod.mk.injEq]
    constructor
    · rintro ⟨v, r₁, hv, origin, ho, d, r₂, hd, rfl, rfl⟩
      exact ⟨v, r₁, origin, d, hv, ho, hasPlaces_of_untyped htype, hd, rfl⟩
    · rintro ⟨v, r₁, origin, d, hv, ho, -, hd, rfl⟩
      exact ⟨v, r₁, hv, origin, ho, d, r', hd, rfl, rfl⟩
  | some t =>
    rw [hasPlaces_iff_of_type htype]
    dsimp only
    cases t.isGeo with
    | false =>
      refine iff_of_false ?_ (by simp)
      rintro ⟨v, r₁, -, origin, -, h⟩
      cases h
    | true =>
      simp only [bind_eq_ok, pure_eq_ok, Prod.exists, Prod.mk.injEq, Bool.not_true,
        Bool.false_eq_true, if_false, true_and]
      constructor
      · rintro ⟨v, r₁, hv, origin, ho, d, r₂, hd, rfl, rfl⟩
        exact ⟨v, r₁, origin, d, hv, ho, hd, rfl⟩
      · rintro ⟨v, r₁, origin, d, hv, ho, hd, rfl⟩
        exact ⟨v, r₁, hv, origin, ho, d, r', hd, rfl, rfl⟩

/-- Behind its word a filter is read where its tokens are. -/
theorem sortFilter_iff {e : Expr} (hr : r.Ready) :
    r.sortFilter g field = .ok (e, r') ↔
      (∃ es n, Expr.Derives (resolve g) es e.items n ∧ r.Passes (.colon :: es) n r') ∧
        field.IsScoped ∧ connectiveOf? r'.token = none ∧ r'.fragments ≤ g.limit := by
  simp only [sortFilter, bind_eq_ok, Prod.exists, expect_iff hr (t := .colon) (by simp)]
  have hscoped : (field.isTyped && field.nestedPaths.isEmpty) = true ↔ ¬ field.IsScoped := by
    simp [Field.IsScoped]
  constructor
  · rintro ⟨r₁, h₁, e', r₂, he, h⟩
    split at h
    · cases h
    · rename_i hno
      rw [hscoped, not_not] at hno
      simp only [pure_eq_ok, Prod.mk.injEq] at h
      obtain ⟨rfl, rfl⟩ := h
      obtain ⟨-, -, spec⟩ := specs g r₁.fuel
      obtain ⟨⟨es, n, hd, h₂⟩, hend, hle⟩ := (spec h₁.after (Nat.le_refl _)).1 he
      refine ⟨⟨es, n, hd, ?_⟩, hno, hend, hle⟩
      simpa using h₁.trans h₂
  · rintro ⟨⟨es, n, hd, h⟩, hno, hend, hle⟩
    obtain ⟨r₁, h₁, h₂⟩ := h.uncons
    obtain ⟨-, -, spec⟩ := specs g r₁.fuel
    refine ⟨r₁, h₁, e, r', (spec h₁.after (Nat.le_refl _)).2 ⟨⟨es, n, hd, h₂⟩, hend, hle⟩, ?_⟩
    rw [if_neg (by rw [hscoped, not_not]; exact hno)]
    rfl

/-! ### Items -/

/-- What is read as an item is one. -/
theorem derives_of_sortItem {i : SortItem} (hr : r.Ready) (hlimit : r.fragments ≤ g.limit)
    (h : r.sortItem g = .ok (i, r')) :
    (∃ ts n, SortItem.Derives (resolve g) ts i n ∧ r.Passes ts n r') ∧ r'.fragments ≤ g.limit := by
  simp only [sortItem, bind_eq_ok, Prod.exists, field_iff hr] at h
  obtain ⟨field, r₁, ⟨name, hname, hfield, h₁⟩, h⟩ := h
  -- Without a filter nothing is counted.
  have unfiltered : ∀ {ts : List Token}, SortItem.Follows (resolve g) field ts i 0 →
      r₁.Passes ts 0 r' → (∃ ts n, SortItem.Derives (resolve g) ts i n ∧ r.Passes ts n r') ∧
        r'.fragments ≤ g.limit := by
    intro ts hi h₂
    have h := h₁.trans h₂
    exact ⟨⟨_, 0, .intro hname hfield hi, h⟩, by rw [h.fragments]; omega⟩
  split at h
  · rename_i hscore
    simp only [bind_eq_ok, pure_eq_ok, Prod.exists, Prod.mk.injEq, direction_iff h₁.after] at h
    obtain ⟨d, r₂, ⟨ds, hd, h₂, -⟩, rfl, rfl⟩ := h
    exact unfiltered (.score hscore hd) h₂
  · rename_i hscore
    rw [Bool.not_eq_true] at hscore
    split at h
    · rename_i hnear
      simp only [bind_eq_ok, advance_iff h₁.after rfl (isKeyword_ne_eof hnear),
        distanceItem_eq_ok_iff] at h
      obtain ⟨r₂, h₂, v, r₃, origin, d, hv, ho, hplaces, hdir, rfl⟩ := h
      obtain ⟨vs, hvs, h₃⟩ := (valueWithin_iff h₂.after).1 hv
      obtain ⟨ds, hd, h₄, -⟩ := (direction_iff h₃.after).1 hdir
      exact unfiltered (.distance hscore hnear hvs ho hplaces hd) (h₂.trans (h₃.trans h₄))
    · simp only [bind_eq_ok, Prod.exists, direction_iff h₁.after] at h
      obtain ⟨_, hsortable, d, r₂, ⟨ds, hd, h₂, -⟩, h⟩ := h
      rw [checkSortable_iff] at hsortable
      split at h
      · rename_i hword
        simp only [bind_eq_ok, pure_eq_ok, Prod.exists, Prod.mk.injEq,
          advance_iff h₂.after rfl (isKeyword_ne_eof hword)] at h
        obtain ⟨r₃, h₃, e, r₄, hfilter, rfl, rfl⟩ := h
        obtain ⟨⟨es, n, he, h₄⟩, hscoped, -, hle⟩ := (sortFilter_iff h₃.after).1 hfilter
        refine ⟨⟨_, n, .intro hname hfield (.filtered hscore hsortable hd hword he hscoped), ?_⟩,
          hle⟩
        simpa using h₁.trans (h₂.trans (h₃.trans h₄))
      · simp only [pure_eq_ok, Prod.mk.injEq] at h
        obtain ⟨rfl, rfl⟩ := h
        exact unfiltered (.value hscore hsortable hd) h₂

/-- A direction is no keyword, and neither is what follows the item. -/
theorem isKeyword_of_directs {ds : List Token} {d : Option Direction} {k : String}
    (hd : Token.Directs ds d) (h : r.Passes ds 0 r') (hk : k ∈ ["NEAR", "sortFilter"])
    (hend : r'.token.isKeyword k = false) : r.token.isKeyword k = false := by
  cases hd with
  | absent =>
    rw [← h.token_of_nil]
    exact hend
  | present hw =>
    rw [h.token_eq]
    exact (Token.Directs.present hw).isKeyword hk _ (by simp)

/-- An item is read as such, if it ends where it should. -/
theorem sortItem_of_derives {i : SortItem} {ts : List Token} {n : Nat} (hr : r.Ready)
    (hd : SortItem.Derives (resolve g) ts i n) (h : r.Passes ts n r') (hstop : r'.Stops)
    (hle : r'.fragments ≤ g.limit) : r.sortItem g = .ok (i, r') := by
  simp only [sortItem, bind_eq_ok, Prod.exists, field_iff hr]
  obtain ⟨hname, hfield, hi⟩ := hd
  obtain ⟨r₁, h₁, h⟩ := h.uncons
  refine ⟨_, r₁, ⟨_, hname, hfield, h₁⟩, ?_⟩
  cases hi with
  | score hscore hd =>
    rw [if_pos hscore]
    simp only [bind_eq_ok, pure_eq_ok, Prod.exists, Prod.mk.injEq, direction_iff h₁.after]
    exact ⟨_, r', ⟨_, hd, h, fun _ => .inl hstop⟩, trivial, rfl⟩
  | distance hscore hnear hvs ho hplaces hd =>
    obtain ⟨r₂, h₂, h⟩ := h.uncons
    obtain ⟨r₃, h₃, h₄⟩ := h.split_later
    have hword : r₁.token.isKeyword "NEAR" = true := h₂.token_eq ▸ hnear
    rw [if_neg (by simp [hscore]), if_pos hword]
    simp only [bind_eq_ok, advance_iff h₁.after h₂.token_eq (isKeyword_ne_eof hnear),
      distanceItem_eq_ok_iff]
    exact ⟨r₂, h₂, _, r₃, _, _, (valueWithin_iff h₂.after).2 ⟨_, hvs, h₃⟩, ho, hplaces,
      (direction_iff h₃.after).2 ⟨_, hd, h₄, fun _ => .inl hstop⟩, rfl⟩
  | value hscore hsortable hd =>
    have hnear := isKeyword_of_directs hd h (by simp) (hstop.isKeyword "NEAR")
    rw [if_neg (by simp [hscore]), if_neg (by simp [hnear])]
    simp only [bind_eq_ok, Prod.exists, direction_iff h₁.after]
    refine ⟨(), checkSortable_iff.2 hsortable, _, r', ⟨_, hd, h, fun _ => .inl hstop⟩, ?_⟩
    rw [if_neg (by simp [hstop.isKeyword])]
    rfl
  | filtered hscore hsortable hd hword he hscoped =>
    obtain ⟨r₂, h₂, h⟩ := h.split_later
    obtain ⟨r₃, h₃, h₄⟩ := h.uncons
    have hfilter : r₂.token.isKeyword sortFilterWord = true := h₃.token_eq ▸ hword
    -- The word in front of the filter is not the other keyword.
    have hnear : r₁.token.isKeyword "NEAR" = false := by
      refine isKeyword_of_directs hd h₂ (by simp) ?_
      cases hother : r₂.token.isKeyword "NEAR" with
      | false => rfl
      | true => exact absurd (Token.isKeyword_unique hfilter hother) (by decide)
    rw [if_neg (by simp [hscore]), if_neg (by simp [hnear])]
    simp only [bind_eq_ok, Prod.exists, direction_iff h₁.after]
    refine ⟨(), checkSortable_iff.2 hsortable, _, r₂, ⟨_, hd, h₂, fun _ => .inr hfilter⟩, ?_⟩
    rw [if_pos hfilter]
    simp only [bind_eq_ok, pure_eq_ok, Prod.exists, Prod.mk.injEq,
      advance_iff h₂.after h₃.token_eq (isKeyword_ne_eof hword)]
    exact ⟨r₃, h₃, _, r', (sortFilter_iff h₃.after).2
      ⟨⟨_, _, he, h₄⟩, hscoped, hstop.connectiveOf?, hle⟩, rfl, rfl⟩

/-- **An item is read where its tokens are**, if it ends where it should. -/
theorem sortItem_iff {i : SortItem} (hr : r.Ready) (hlimit : r.fragments ≤ g.limit)
    (hstop : r'.Stops) :
    r.sortItem g = .ok (i, r') ↔
      (∃ ts n, SortItem.Derives (resolve g) ts i n ∧ r.Passes ts n r') ∧
        r'.fragments ≤ g.limit := by
  constructor
  · exact derives_of_sortItem hr hlimit
  · rintro ⟨⟨ts, n, hd, h⟩, hle⟩
    exact sortItem_of_derives hr hd h hstop hle

/-- **Items are read where their tokens are**, if they go on to the end of the text. -/
theorem sortItems_iff {fuel : Nat} {is : List SortItem} (hr : r.Ready)
    (hfuel : r.ahead.length ≤ fuel) (hlimit : r.fragments ≤ g.limit) (hend : r'.token = .eof) :
    commaList (sortItem g) fuel r = .ok (is, r') ↔
      ∃ ts ps, Sorting.Derives (resolve g) ts ps ∧ is = ps.map Prod.fst ∧
        r.Passes ts (ps.map Prod.snd).sum r' ∧ r'.fragments ≤ g.limit := by
  induction fuel generalizing r is with
  | zero =>
    -- A token is looked at, so without fuel there is nothing ahead that could be read.
    have hnil : r.ahead = [] := List.eq_nil_of_length_eq_zero (by omega)
    have hlooks := hr.looks
    rw [contents, hnil] at hlooks
    cases hlooks
  | succ fuel ih =>
    simp only [commaList, bind_eq_ok, Prod.exists]
    constructor
    · rintro ⟨i, r₁, hi, h⟩
      split at h
      · rename_i hcomma
        obtain ⟨⟨ts, n, hd, h₁⟩, hle₁⟩ := (sortItem_iff hr hlimit (.inl hcomma)).1 hi
        simp only [bind_eq_ok, pure_eq_ok, Prod.exists, Prod.mk.injEq,
          advance_iff h₁.after hcomma (by simp)] at h
        obtain ⟨r₂, h₂, js, r₃, h₃, rfl, rfl⟩ := h
        have hlen₁ := h₁.length_ahead
        have hlen₂ := h₂.length_ahead
        have hcount := h₂.fragments
        simp only [List.length_singleton] at hlen₂
        obtain ⟨us, ps, hps, rfl, h₃, hle⟩ := (ih h₂.after (by omega) (by omega)).1 h₃
        exact ⟨_, (i, n) :: ps, .more hd hps, rfl, by simpa using h₁.trans (h₂.trans h₃), hle⟩
      · simp only [pure_eq_ok, Prod.mk.injEq] at h
        obtain ⟨rfl, rfl⟩ := h
        obtain ⟨⟨ts, n, hd, h₁⟩, hle⟩ := (sortItem_iff hr hlimit (.inr hend)).1 hi
        exact ⟨ts, [(i, n)], .one hd, rfl, by simpa using h₁, hle⟩
    · rintro ⟨ts, ps, hps, rfl, h, hle⟩
      cases hps with
      | @one ts p hd =>
        obtain ⟨i, n⟩ := p
        simp only [List.map_cons, List.map_nil, List.sum_singleton] at h
        refine ⟨i, r', (sortItem_iff hr hlimit (.inr hend)).2 ⟨⟨ts, n, hd, h⟩, hle⟩, ?_⟩
        rw [if_neg (by simp [hend])]
        rfl
      | @more ts us p ps hd hps =>
        obtain ⟨i, n⟩ := p
        rw [List.map_cons, List.sum_cons] at h
        obtain ⟨r₁, h₁, h⟩ := h.split
        obtain ⟨r₂, h₂, h₃⟩ := h.uncons
        have hlen₁ := h₁.length_ahead
        have hlen₂ := h₂.length_ahead
        have hcount₂ := h₂.fragments
        have hcount₃ := h₃.fragments
        simp only [List.length_singleton] at hlen₂
        have hcomma : r₁.token = .comma := h₂.token_eq
        refine ⟨i, r₁, (sortItem_iff hr hlimit (.inl hcomma)).2 ⟨⟨ts, n, hd, h₁⟩, by omega⟩, ?_⟩
        rw [if_pos hcomma]
        simp only [bind_eq_ok, pure_eq_ok, Prod.exists, Prod.mk.injEq,
          advance_iff h₁.after hcomma (by simp)]
        exact ⟨r₂, h₂, ps.map Prod.fst, r',
          (ih h₂.after (by omega) (by omega)).2 ⟨us, ps, hps, rfl, h₃, hle⟩, rfl, rfl⟩

end Reading

namespace Sorting

/-- No sort starts with the end of the text. -/
theorem Derives.head {fields : String → Except Error Field} {ts : List Token}
    {ps : List (SortItem × Nat)} (h : Derives fields ts ps) : ∃ w us, ts = .word w :: us := by
  obtain ⟨t, us, rfl, w, rfl⟩ := Separated.head (Q := fun t => ∃ w, t = .word w)
    (fun h => (SortItem.Derives.head h).elim fun w h => h.elim fun us h =>
      ⟨.word w, us, h.1, w, rfl⟩) h
  exact ⟨w, us, rfl⟩

/-- **A sort is read just where the tokens of the whole text write it**, if no more fragments are
counted for all its filters than one expression may have. -/
theorem read_eq_ok_iff {schema : Option Snapshot} {text : String} {s : Sorting} :
    read schema text = .ok s ↔
      ∃ ts ps, Lexeme.Lexes text.toList ts ∧
        Derives (Reading.resolve ⟨schema, Expr.maxFragments⟩) ts ps ∧
        (ps.map Prod.snd).sum ≤ Expr.maxFragments ∧ s = ofItems (ps.map Prod.fst) := by
  simp only [read, bind_eq_ok, Reading.start_eq_ok_iff]
  have enough : (Reading.opening text).ahead.length ≤ (Reading.opening text).fuel := by
    simp only [Reading.fuel]
    omega
  have hstart : (Reading.opening text).fragments = 0 := rfl
  constructor
  · rintro ⟨r, ⟨rfl, hr⟩, h⟩
    split at h
    · cases h
    · simp only [bind_eq_ok, Prod.exists] at h
      obtain ⟨is, r', his, h⟩ := h
      split at h
      · rename_i hend
        simp only [pure_eq_ok] at h
        have heof : r'.token = .eof := by simpa [Reading.atEnd] using hend
        obtain ⟨ts, ps, hps, rfl, hp, hle⟩ :=
          (Reading.sortItems_iff hr enough (by simp [hstart]) heof).1 his
        refine ⟨ts, ps, ?_, hps, ?_, h.symm⟩
        · rw [Lexeme.Lexes, ← Reading.contents_opening, hp.contents,
            (Reading.atEnd_iff hp.after).1 hend]
        · have := hp.fragments
          simp only at hle
          omega
      · cases h
  · rintro ⟨ts, ps, hl, hps, hle, rfl⟩
    obtain ⟨r', hp, hend⟩ := Reading.passes_of_lexes hl (ps.map Prod.snd).sum
    have hcount := hp.fragments
    obtain ⟨w, us, rfl⟩ := hps.head
    have heof : r'.token = .eof := Reading.token_of_contents hend
    refine ⟨_, ⟨rfl, hp.before⟩, ?_⟩
    rw [if_neg (by simp [Reading.atEnd, hp.token_eq])]
    simp only [bind_eq_ok, Prod.exists]
    refine ⟨ps.map Prod.fst, r', (Reading.sortItems_iff hp.before enough (by simp [hstart]) heof).2
      ⟨_, ps, hps, rfl, hp, by simp only; omega⟩, ?_⟩
    rw [if_pos ((Reading.atEnd_iff hp.after).2 hend)]
    rfl

end Sorting
end SearchDsl
