import SearchDsl.Proofs.Expr.Grammar

/-!
# The readers of expressions read the grammar

`ItemSpec`, `JoinedSpec` and `ExprSpec` describe the three readers by the grammar: what they answer
is what the tokens passed over write, and the fragments counted are those of the grammar, up to the
limit. Each description follows from those with less fuel.

* `Reading.specs`: with two steps for each token ahead all three descriptions hold;
* `Expr.read_eq_ok_iff`: an expression is read from a text just if the tokens of the text write it
  and no more fragments are counted than the limit allows.
-/

namespace SearchDsl
namespace Reading

variable {g : Grammar} {r r' : Reading}

/-! ### Filters -/

theorem fieldName_eq_ok_iff {w : String} :
    r.fieldName = .ok w ↔ r.token = .word w ∧ Token.IsFieldName w := by
  unfold fieldName Token.IsFieldName
  split
  · rename_i v hv
    rw [hv, Token.word.injEq]
    split
    · rename_i hreserved
      refine iff_of_false (by simp) ?_
      rintro ⟨rfl, hno, -⟩
      obtain ⟨k, hk, hword⟩ := List.any_eq_true.1 hreserved
      rw [hno k hk] at hword
      cases hword
    · rename_i hreserved
      have hno : ∀ k ∈ ["AND", "OR", "NOT"], (Token.word v).isKeyword k = false := fun k hk =>
        Bool.eq_false_iff.2 fun h => hreserved (List.any_eq_true.2 ⟨k, hk, h⟩)
      split
      · rename_i hempty
        refine iff_of_false (by simp) ?_
        rintro ⟨rfl, -, hno⟩
        rw [hno] at hempty
        cases hempty
      · rename_i hempty
        constructor
        · rintro ⟨⟩
          exact ⟨rfl, hno, Bool.eq_false_iff.2 hempty⟩
        · rintro ⟨rfl, -, -⟩
          rfl
  · rename_i hno
    refine iff_of_false (by simp) ?_
    rintro ⟨hw, -⟩
    exact hno w hw

theorem field_iff {field : Field} (hr : r.Ready) :
    r.field g = .ok (field, r') ↔
      ∃ name, Token.IsFieldName name ∧ resolve g name = .ok field ∧ r.Passes [.word name] 0 r' := by
  simp only [Reading.field, bind_eq_ok, pure_eq_ok, Prod.mk.injEq, fieldName_eq_ok_iff]
  constructor
  · rintro ⟨name, ⟨hw, hname⟩, r₁, h, f, hf, rfl, rfl⟩
    exact ⟨name, hname, hf, (advance_iff hr hw (by simp)).1 h⟩
  · rintro ⟨name, hname, hf, h⟩
    exact ⟨name, ⟨h.token_eq, hname⟩, r', (advance_iff hr h.token_eq (by simp)).2 h, field, hf, rfl,
      rfl⟩

theorem operatorOf?_ne_eof {t : Token} {op : Operator} (h : operatorOf? t = some op) :
    t ≠ .eof := by
  rintro rfl
  cases h

/-- **A filter is read where its tokens are.** -/
theorem filter_iff {f : Filter} (hr : r.Ready) :
    r.filter g = .ok (f, r') ↔ ∃ ts, Filter.Derives (resolve g) ts f ∧ r.Passes ts 0 r' := by
  simp only [filter, operator, value, bind_eq_ok, pure_eq_ok, Prod.exists, Prod.mk.injEq,
    field_iff hr]
  constructor
  · rintro ⟨field, r₁, ⟨w, hname, hfield, h₁⟩, op, r₂, h₂, v, r₃, h₃, f', hmake, rfl, rfl⟩
    split at h₂
    · rename_i op' hop
      simp only [bind_eq_ok, pure_eq_ok, Prod.mk.injEq,
        advance_iff h₁.after rfl (operatorOf?_ne_eof hop)] at h₂
      obtain ⟨r₂', h₂, rfl, rfl⟩ := h₂
      rw [valueWithin_iff h₂.after] at h₃
      obtain ⟨vs, hv, h₃⟩ := h₃
      exact ⟨_, .intro hname hfield (Token.operates_iff.2 hop) hv hmake, h₁.trans (h₂.trans h₃)⟩
    · cases h₂
  · rintro ⟨ts, hd, h⟩
    cases hd with
    | @intro w t vs field op v _ hname hfield hop hv hmake =>
      rw [Token.operates_iff] at hop
      obtain ⟨r₁, h₁, h⟩ := h.uncons
      obtain ⟨r₂, h₂, h₃⟩ := h.uncons
      refine ⟨field, r₁, ⟨w, hname, hfield, h₁⟩, op, r₂, ?_, v, r', ?_, f, hmake, rfl, rfl⟩
      · rw [h₂.token_eq, hop]
        simp only [bind_eq_ok, pure_eq_ok, Prod.mk.injEq,
          advance_iff h₁.after h₂.token_eq (operatorOf?_ne_eof hop), true_and]
        exact ⟨r₂, h₂, rfl⟩
      · exact (valueWithin_iff h₂.after).2 ⟨vs, hv, h₃⟩

theorem isKeyword_ne_eof {t : Token} {k : String} (h : t.isKeyword k = true) : t ≠ .eof := by
  rintro rfl
  cases h

theorem negation_iff {negated : Bool} (hr : r.Ready) :
    r.negation = .ok (negated, r') ↔
      (∃ ns, Token.Negation ns negated ∧ r.Passes ns 0 r') ∧ r'.token.isKeyword "NOT" = false := by
  unfold negation
  split
  · rename_i hnot
    simp only [bind_eq_ok, advance_iff hr rfl (isKeyword_ne_eof hnot)]
    constructor
    · rintro ⟨r₁, h₁, h⟩
      split at h
      · cases h
      · rename_i hsecond
        simp only [pure_eq_ok, Prod.mk.injEq] at h
        obtain ⟨rfl, rfl⟩ := h
        exact ⟨⟨_, .present hnot, h₁⟩, by simpa using hsecond⟩
    · rintro ⟨⟨ns, hn, h⟩, hsecond⟩
      cases hn with
      | absent =>
        -- Without a NOT nothing would be passed over, yet a NOT is looked at.
        rw [h.unique (Passes.refl hr), hnot] at hsecond
        cases hsecond
      | present ht =>
        rw [← h.token_eq] at h
        refine ⟨r', h, ?_⟩
        rw [if_neg (by simp [hsecond])]
        rfl
  · rename_i hnot
    simp only [pure_eq_ok, Prod.mk.injEq]
    constructor
    · rintro ⟨rfl, rfl⟩
      exact ⟨⟨[], .absent, Passes.refl hr⟩, by simpa using hnot⟩
    · rintro ⟨⟨ns, hn, h⟩, -⟩
      cases hn with
      | absent => exact ⟨rfl, (Passes.refl hr).unique h⟩
      | present ht =>
        rw [h.token_eq] at hnot
        exact absurd ht hnot

end Reading

/-- Items with the connectives of an expression make one just if they are no more than the limit. -/
theorem Expr.ofItems_eq_ok_iff {max : Nat} {i : Item} {is : List Item} {e : Expr}
    (hi : i.join = none) (his : ∀ j ∈ is, j.join.isSome = true) :
    ofItems max (i :: is) = .ok e ↔ (i :: is).length ≤ max ∧ e.items = collapse (i :: is) := by
  have hitems : ∀ items, (.ok ⟨items⟩ : Except Error Expr) = .ok e ↔ e.items = items := by
    intro items
    cases e
    simp [eq_comm]
  simp only [ofItems, hi, unjoined?_eq_none his]
  split
  · rename_i hlt
    refine iff_of_false (by simp) ?_
    rintro ⟨hle, -⟩
    omega
  · rename_i hle
    rw [and_iff_right (by omega)]
    simp only [Option.isSome_none, Bool.false_eq_true, if_false]
    split
    · rename_i join inner heq
      rw [hitems, heq, collapse]
    · rename_i hno
      rw [hitems, collapse]
      exact hno

namespace Reading

/-! ### Items and expressions -/

/-- An item is read where its tokens are. -/
def ItemSpec (g : Grammar) (fuel : Nat) : Prop :=
  ∀ {join : Option Connective} {r r' : Reading} {i : Item}, r.Ready →
    2 * r.ahead.length + 1 ≤ fuel →
    (r.item g fuel join = .ok (i, r') ↔
      (∃ ts n, Item.Derives (resolve g) join ts i n ∧ r.Passes ts n r') ∧ r'.fragments ≤ g.limit)

/-- Further items are read where their tokens are, up to the first token that is no connective. -/
def JoinedSpec (g : Grammar) (fuel : Nat) : Prop :=
  ∀ {r r' : Reading} {is : List Item}, r.Ready → 2 * r.ahead.length + 1 ≤ fuel →
    r.fragments ≤ g.limit →
    (r.joinedItems g fuel = .ok (is, r') ↔
      (∃ ts n, Item.Joined (resolve g) ts is n ∧ r.Passes ts n r') ∧
        connectiveOf? r'.token = none ∧ r'.fragments ≤ g.limit)

/-- An expression is read where its tokens are, up to the first token that is no connective. -/
def ExprSpec (g : Grammar) (fuel : Nat) : Prop :=
  ∀ {r r' : Reading} {e : Expr}, r.Ready → 2 * r.ahead.length + 2 ≤ fuel →
    (r.expr g fuel = .ok (e, r') ↔
      (∃ ts n, Expr.Derives (resolve g) ts e.items n ∧ r.Passes ts n r') ∧
        connectiveOf? r'.token = none ∧ r'.fragments ≤ g.limit)

variable {g : Grammar} {r r' : Reading} {fuel : Nat}

/-- What is read as an item is one. -/
theorem derives_of_item (hexpr : ExprSpec g fuel) {join : Option Connective} {i : Item}
    (hr : r.Ready) (hfuel : 2 * r.ahead.length + 1 ≤ fuel + 1)
    (h : r.item g (fuel + 1) join = .ok (i, r')) :
    (∃ ts n, Item.Derives (resolve g) join ts i n ∧ r.Passes ts n r') ∧ r'.fragments ≤ g.limit := by
  simp only [item, bind_eq_ok, Prod.exists, negation_iff hr] at h
  obtain ⟨negated, r₁, ⟨⟨ns, hns, h₁⟩, -⟩, h⟩ := h
  have hlen₁ := h₁.length_ahead
  split at h
  · rename_i hopen
    simp only [bind_eq_ok, advance_iff h₁.after hopen (by simp)] at h
    obtain ⟨r₂, h₂, h⟩ := h
    -- The parenthesis is passed over, so there is fuel for the expression inside.
    have hlen₂ := h₂.length_ahead
    simp only [List.length_singleton] at hlen₂
    split at h
    · cases h
    · simp only [bind_eq_ok, pure_eq_ok, Prod.exists, Prod.mk.injEq] at h
      obtain ⟨e, r₃, he, r₄, hclose, rfl, rfl⟩ := h
      obtain ⟨⟨ts, n, hd, h₃⟩, -, hle⟩ := (hexpr h₂.after (by omega)).1 he
      rw [expect_iff h₃.after (by simp)] at hclose
      refine ⟨⟨_, _, .group hns hd, ?_⟩, by rw [hclose.fragments]; omega⟩
      simpa using h₁.trans (h₂.trans (h₃.trans hclose))
  · simp only [bind_eq_ok, pure_eq_ok, Prod.exists, Prod.mk.injEq, filter_iff h₁.after] at h
    obtain ⟨f, r₂, ⟨ts, hd, h₂⟩, r₃, hcount, rfl, rfl⟩ := h
    obtain ⟨h₃, hle⟩ := (count_iff h₂.after).1 hcount
    refine ⟨⟨_, _, .leaf hns hd, ?_⟩, hle⟩
    simpa using h₁.trans (h₂.trans h₃)

/-- An item is read as such. -/
theorem item_of_derives (hexpr : ExprSpec g fuel) {join : Option Connective} {i : Item}
    {ts : List Token} {n : Nat} (hr : r.Ready) (hfuel : 2 * r.ahead.length + 1 ≤ fuel + 1)
    (hd : Item.Derives (resolve g) join ts i n) (h : r.Passes ts n r')
    (hle : r'.fragments ≤ g.limit) : r.item g (fuel + 1) join = .ok (i, r') := by
  simp only [item, bind_eq_ok, Prod.exists, negation_iff hr]
  cases hd with
  | @leaf _ ns ts negated f hns hd =>
    obtain ⟨r₁, h₁, h⟩ := h.split_later
    obtain ⟨r₂, h₂, h₃⟩ := Passes.split (n := 0) (m := 1) ((List.append_nil ts).symm ▸ h)
    -- A field name is neither a parenthesis nor a second NOT.
    obtain ⟨w, us, rfl, hname⟩ := hd.head
    have hfirst : r₁.token = .word w := h₂.token_eq
    have hnot : r₁.token.isKeyword "NOT" = false := by
      rw [hfirst]
      exact hname.1 "NOT" (by decide)
    refine ⟨negated, r₁, ⟨⟨ns, hns, h₁⟩, hnot⟩, ?_⟩
    rw [if_neg (by simp [hfirst])]
    simp only [bind_eq_ok, pure_eq_ok, Prod.exists, Prod.mk.injEq, filter_iff h₁.after]
    exact ⟨f, r₂, ⟨_, hd, h₂⟩, r', (count_iff h₂.after).2 ⟨h₃, hle⟩, rfl, rfl⟩
  | @group _ ns ts negated items n hns hd =>
    obtain ⟨r₁, h₁, h⟩ := h.split_later
    obtain ⟨r₂, h₂, h⟩ := h.uncons
    obtain ⟨r₃, h₃, h₄⟩ := Passes.split (n := n) (m := 0) h
    have hlen₁ := h₁.length_ahead
    have hlen₂ := h₂.length_ahead
    simp only [List.length_singleton] at hlen₂
    have hopen : r₁.token = .leftParen := h₂.token_eq
    have hclose : r₃.token = .rightParen := h₄.token_eq
    have hlimit : r₃.fragments ≤ g.limit := by
      have := h₄.fragments
      omega
    obtain ⟨t, us, rfl, hstart⟩ := hd.head
    have hfirst : r₂.token = t := h₃.token_eq
    refine ⟨negated, r₁, ⟨⟨ns, hns, h₁⟩, by rw [hopen]; rfl⟩, ?_⟩
    rw [if_pos hopen]
    simp only [bind_eq_ok, advance_iff h₁.after hopen (by simp)]
    refine ⟨r₂, h₂, ?_⟩
    rw [if_neg (hfirst ▸ hstart.1)]
    simp only [bind_eq_ok, pure_eq_ok, Prod.exists, Prod.mk.injEq]
    refine ⟨⟨items⟩, r₃, ?_, r', (expect_iff h₃.after (by simp)).2 h₄, rfl, rfl⟩
    exact (hexpr h₂.after (by omega)).2 ⟨⟨_, n, hd, h₃⟩, by rw [hclose]; rfl, hlimit⟩

theorem itemSpec_succ (hexpr : ExprSpec g fuel) : ItemSpec g (fuel + 1) := by
  intro join r r' i hr hfuel
  constructor
  · exact derives_of_item hexpr hr hfuel
  · rintro ⟨⟨ts, n, hd, h⟩, hle⟩
    exact item_of_derives hexpr hr hfuel hd h hle

/-- Only words stand for connectives. -/
theorem exists_word_of_connectiveOf? {t : Token} {c : Connective} (h : connectiveOf? t = some c) :
    ∃ w, t = .word w ∧ Connective.ofWord? w = some c := by
  cases t with
  | word w => exact ⟨w, rfl, h⟩
  | _ => cases h

theorem joinedSpec_succ (hitem : ItemSpec g fuel) (hjoined : JoinedSpec g fuel) :
    JoinedSpec g (fuel + 1) := by
  intro r r' is hr hfuel hlimit
  rw [joinedItems]
  cases hc : connectiveOf? r.token with
  | none =>
    simp only [pure_eq_ok, Prod.mk.injEq]
    constructor
    · rintro ⟨rfl, rfl⟩
      exact ⟨⟨[], 0, .nil, Passes.refl hr⟩, hc, hlimit⟩
    · rintro ⟨⟨ts, n, hd, h⟩, -, -⟩
      cases hd with
      | nil => exact ⟨rfl, (Passes.refl hr).unique h⟩
      | cons hc' _ _ =>
        rw [h.token_eq] at hc
        cases hc.symm.trans hc'
  | some c =>
    obtain ⟨w, hw, hc⟩ := exists_word_of_connectiveOf? hc
    simp only [bind_eq_ok, pure_eq_ok, Prod.exists, Prod.mk.injEq, advance_iff hr hw (by simp)]
    constructor
    · rintro ⟨r₁, h₁, i, r₂, h₂, js, r₃, h₃, rfl, rfl⟩
      have hlen₁ := h₁.length_ahead
      simp only [List.length_singleton] at hlen₁
      obtain ⟨⟨ts, n, hi, h₂⟩, hle⟩ := (hitem h₁.after (by omega)).1 h₂
      have hlen₂ := h₂.length_ahead
      obtain ⟨⟨us, m, his, h₃⟩, hend, hle⟩ := (hjoined h₂.after (by omega) hle).1 h₃
      refine ⟨⟨_, _, .cons hc hi his, ?_⟩, hend, hle⟩
      simpa using h₁.trans (h₂.trans h₃)
    · rintro ⟨⟨ts, n, hd, h⟩, hend, hle⟩
      cases hd with
      | nil =>
        rw [h.unique (Passes.refl hr), hw] at hend
        cases hend.symm.trans hc
      | @cons w' c' ts us i is n m hc' hi his =>
        obtain ⟨r₁, h₁, h⟩ := h.uncons
        obtain ⟨r₂, h₂, h₃⟩ := Passes.split h
        obtain rfl : w = w' := Token.word.inj (hw.symm.trans h₁.token_eq)
        obtain rfl : c = c' := Option.some.inj (hc.symm.trans hc')
        have hlen₁ := h₁.length_ahead
        have hlen₂ := h₂.length_ahead
        simp only [List.length_singleton] at hlen₁
        -- Fragments only grow, so the limit that the end keeps to is kept to in between.
        have hlimit₂ : r₂.fragments ≤ g.limit := by
          have := h₃.fragments
          omega
        exact ⟨r₁, h₁, i, r₂, (hitem h₁.after (by omega)).2 ⟨⟨ts, n, hi, h₂⟩, hlimit₂⟩, is, r',
          (hjoined h₂.after (by omega) hlimit₂).2 ⟨⟨us, m, his, h₃⟩, hend, hle⟩, rfl, rfl⟩

/-- What is read as an expression is one. -/
theorem derives_of_expr (hitem : ItemSpec g fuel) (hjoined : JoinedSpec g fuel) {e : Expr}
    (hr : r.Ready) (hfuel : 2 * r.ahead.length + 2 ≤ fuel + 1)
    (h : r.expr g (fuel + 1) = .ok (e, r')) :
    (∃ ts n, Expr.Derives (resolve g) ts e.items n ∧ r.Passes ts n r') ∧
      connectiveOf? r'.token = none ∧ r'.fragments ≤ g.limit := by
  rw [expr] at h
  split at h
  · cases h
  · simp only [bind_eq_ok, pure_eq_ok, Prod.exists, Prod.mk.injEq] at h
    obtain ⟨i, r₁, hi, is, r₂, his, e', hof, r₃, hcount, rfl, rfl⟩ := h
    obtain ⟨⟨ts, n, hi, h₁⟩, hle⟩ := (hitem hr (by omega)).1 hi
    have hlen₁ := h₁.length_ahead
    obtain ⟨⟨us, m, his, h₂⟩, hend, -⟩ := (hjoined h₁.after (by omega) hle).1 his
    obtain ⟨-, hitems⟩ := (Expr.ofItems_eq_ok_iff hi.join_eq his.join_isSome).1 hof
    obtain ⟨h₃, hle⟩ := (count_iff h₂.after).1 hcount
    rw [hitems] at h₃ ⊢
    refine ⟨⟨_, _, .intro hi his, ?_⟩, by rw [h₃.token_of_nil]; exact hend, hle⟩
    simpa [Nat.add_assoc] using h₁.trans (h₂.trans h₃)

/-- An expression is read as such. -/
theorem expr_of_derives (hitem : ItemSpec g fuel) (hjoined : JoinedSpec g fuel) {e : Expr}
    {ts : List Token} {n : Nat} (hr : r.Ready) (hfuel : 2 * r.ahead.length + 2 ≤ fuel + 1)
    (hd : Expr.Derives (resolve g) ts e.items n) (h : r.Passes ts n r')
    (hend : connectiveOf? r'.token = none) (hle : r'.fragments ≤ g.limit) :
    r.expr g (fuel + 1) = .ok (e, r') := by
  rw [expr]
  generalize hitems : e.items = items at hd
  cases hd with
  | @intro ts us i is n m hi his =>
    rw [Nat.add_assoc] at h
    obtain ⟨r₁, h₁, h⟩ := Passes.split h
    obtain ⟨r₂, h₂, h₃⟩ := Passes.split ((List.append_nil us).symm ▸ h)
    have hlen₁ := h₁.length_ahead
    have hlimit₂ : r₂.fragments ≤ g.limit := by
      have := h₃.fragments
      omega
    have hlimit₁ : r₁.fragments ≤ g.limit := by
      have := h₂.fragments
      omega
    -- Each item counts for a fragment, so they are no more than the limit.
    have hmany : (i :: is).length ≤ g.limit := by
      have := hi.one_le
      have := his.length_le
      have := h₁.fragments
      have := h₂.fragments
      simp only [List.length_cons]
      omega
    obtain ⟨t, vs, rfl, hstart⟩ := hi.head
    have hfirst : r.token = t := h₁.token_eq
    have hend₂ : connectiveOf? r₂.token = none := by
      rw [← h₃.token_of_nil]
      exact hend
    rw [if_neg (by simp [hfirst, hstart.2.2])]
    simp only [bind_eq_ok, pure_eq_ok, Prod.exists, Prod.mk.injEq]
    refine ⟨i, r₁, (hitem hr (by omega)).2 ⟨⟨_, n, hi, h₁⟩, hlimit₁⟩, is, r₂,
      (hjoined h₁.after (by omega) hlimit₁).2 ⟨⟨us, m, his, h₂⟩, hend₂, hlimit₂⟩, e,
      (Expr.ofItems_eq_ok_iff hi.join_eq his.join_isSome).2 ⟨hmany, hitems⟩, r', ?_, rfl, rfl⟩
    rw [hitems]
    exact (count_iff h₂.after).2 ⟨h₃, hle⟩

theorem exprSpec_succ (hitem : ItemSpec g fuel) (hjoined : JoinedSpec g fuel) :
    ExprSpec g (fuel + 1) := by
  intro r r' e hr hfuel
  constructor
  · exact derives_of_expr hitem hjoined hr hfuel
  · rintro ⟨⟨ts, n, hd, h⟩, hend, hle⟩
    exact expr_of_derives hitem hjoined hr hfuel hd h hend hle

/-- **With enough fuel the readers read the grammar.** -/
theorem specs (g : Grammar) (fuel : Nat) :
    ItemSpec g fuel ∧ JoinedSpec g fuel ∧ ExprSpec g fuel := by
  induction fuel with
  | zero =>
    refine ⟨?_, ?_, ?_⟩
    · intro join r r' i _ hfuel
      omega
    · intro r r' is _ hfuel
      omega
    · intro r r' e _ hfuel
      omega
  | succ fuel ih =>
    obtain ⟨hitem, hjoined, hexpr⟩ := ih
    exact ⟨itemSpec_succ hexpr, joinedSpec_succ hitem hjoined, exprSpec_succ hitem hjoined⟩

/-! ### Whole texts -/

/-- The reading at the beginning of a text. -/
def opening (text : String) : Reading := ⟨text.toList, Lexeme.read text.toList, 0⟩

theorem contents_opening (text : String) :
    (opening text).contents = Lexeme.contents text.toList := rfl

theorem start_eq_ok_iff {text : String} :
    start text = .ok r ↔ r = opening text ∧ (opening text).Ready :=
  settle_iff (Lexeme.closed_contents text.toList)

/-- The tokens of a whole text are passed over up to its end. -/
theorem passes_of_lexes {text : String} {ts : List Token} (h : Lexeme.Lexes text.toList ts)
    (n : Nat) : ∃ r', (opening text).Passes ts n r' ∧ r'.contents = [.ok .eof] := by
  have hc : (opening text).contents = ts.map .ok ++ [.ok .eof] := h
  obtain ⟨ls, ms, hahead, hls, hms⟩ := List.map_eq_append_iff.1 hc
  have hclosed : Lexeme.Closed (opening text).contents := Lexeme.closed_contents text.toList
  have hbefore : (opening text).Ready := by
    cases ts with
    | nil => exact .of_contents hclosed hc
    | cons t ts => exact .of_contents hclosed hc
  let r' : Reading := ⟨text.toList, ms, n⟩
  have hafter : r'.Ready := .of_contents (by rw [contents, hms]; exact .eof) hms
  exact ⟨r', ⟨hbefore, hafter, rfl, (Nat.zero_add n).symm, ls, hahead, hls⟩, hms⟩

theorem atEnd_iff {r : Reading} (hr : r.Ready) : r.atEnd = true ↔ r.contents = [.ok .eof] := by
  simp only [atEnd, decide_eq_true_eq]
  constructor
  · intro h
    obtain ⟨cs, hcs⟩ := List.head?_eq_some_iff.1 hr.looks
    have hclosed := hr.closed
    rw [hcs, h] at hclosed ⊢
    cases hclosed with
    | eof => rfl
    | cons he _ => exact absurd rfl he
  · exact token_of_contents

end Reading

/-- **An expression is read just where the tokens of the whole text write it**, if no more fragments
are counted than the limit allows. -/
theorem Expr.read_eq_ok_iff {g : Grammar} {text : String} {e : Expr} :
    read g text = .ok e ↔
      ∃ ts n, Lexeme.Lexes text.toList ts ∧ Expr.Derives (Reading.resolve g) ts e.items n ∧
        n ≤ g.limit := by
  simp only [read, bind_eq_ok, Reading.start_eq_ok_iff]
  -- The reader starts with as much fuel as its description asks for.
  have enough : 2 * (Reading.opening text).ahead.length + 2 ≤ (Reading.opening text).fuel :=
    Nat.le_refl _
  obtain ⟨-, -, spec⟩ := Reading.specs g (Reading.opening text).fuel
  constructor
  · rintro ⟨r, ⟨rfl, hr⟩, h⟩
    split at h
    · cases h
    · simp only [bind_eq_ok, Prod.exists] at h
      obtain ⟨e', r', he, h⟩ := h
      split at h
      · rename_i hend
        simp only [pure_eq_ok] at h
        subst h
        obtain ⟨⟨ts, n, hd, hp⟩, -, hle⟩ := (spec hr enough).1 he
        refine ⟨ts, n, ?_, hd, ?_⟩
        · rw [Lexeme.Lexes, ← Reading.contents_opening, hp.contents,
            (Reading.atEnd_iff hp.after).1 hend]
        · have := hp.fragments
          simp only [Reading.opening] at this
          omega
      · cases h
  · rintro ⟨ts, n, hl, hd, hle⟩
    obtain ⟨r', hp, hend⟩ := Reading.passes_of_lexes hl n
    have hlimit : r'.fragments ≤ g.limit := by
      have := hp.fragments
      simp only [Reading.opening] at this
      omega
    have htoken : r'.token = .eof := Reading.token_of_contents hend
    obtain ⟨t, us, rfl, hstart⟩ := hd.head
    have hfirst : (Reading.opening text).token = t := hp.token_eq
    refine ⟨_, ⟨rfl, hp.before⟩, ?_⟩
    rw [if_neg (by simp [Reading.atEnd, hfirst, hstart.2.1])]
    simp only [bind_eq_ok, Prod.exists]
    refine ⟨e, r', (spec hp.before enough).2 ⟨⟨_, n, hd, hp⟩, by rw [htoken]; rfl, hlimit⟩, ?_⟩
    rw [if_pos ((Reading.atEnd_iff hp.after).2 hend)]
    rfl

end SearchDsl
