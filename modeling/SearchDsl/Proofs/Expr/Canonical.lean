import SearchDsl.Proofs.Expr.Parentheses
import SearchDsl.Proofs.Field.Name
import SearchDsl.Proofs.Value.Written

/-!
# The canonical text of an expression

* `Expr.IsCanonical` is what holds of every expression that was read: its filters are written as
  they are read, connectives stand where they should, and no parentheses are left to take away;
* `Expr.Derives.isCanonical`: what the tokens of a text write is canonical;
* `Expr.IsCanonical.exists_written`: a canonical expression is written by the tokens of its text,
  each filter and each group being counted once;
* `Expr.read_text`: so the canonical text of an expression reads back.
-/

namespace SearchDsl

open Lexeme (Lexes)

variable {fields : String → Except Error Field}

/-! ### Filters -/

theorem next_operator (op : Operator) :
    Token.next op.name.toList = (.ok (.word op.name), []) := by
  cases op <;> rfl

theorem Token.operates_name (op : Operator) : (word op.name).Operates op :=
  operates_iff.2 (by cases op <;> rfl)

/-- Fields have the names that they are known by. -/
def Field.KeepNames (fields : String → Except Error Field) : Prop :=
  ∀ name field, fields name = .ok field → field.name = name

theorem Field.keepNames_resolve (g : Grammar) : Field.KeepNames (Reading.resolve g) :=
  fun _ _ h => Reading.name_of_resolve h

/-- **A filter that was read is written as it is read.** -/
theorem Filter.Derives.exists_written (hfields : Field.KeepNames fields) {ts : List Token}
    {f : Filter} (h : Filter.Derives fields ts f) (hts : ∀ t ∈ ts, t.IsPlain) :
    ∃ us, Lexes f.text.toList us ∧ Filter.Derives fields us f := by
  cases h with
  | @intro name t vs field op v _ hname hfield hop hv hmake =>
    obtain ⟨rfl, rfl, hshape, hcheck⟩ := Filter.make_eq_ok_iff.1 hmake
    have hliteral := hv.isLiteral fun s hs => hts s (by simp [hs])
    obtain ⟨us, w, hus, hw, hagain⟩ := Filter.isWritten_of_shape hliteral hshape
    have hword : Lexes name.toList [.word name] :=
      Lexeme.lexes_singleton (hts (.word name) (by simp)) (by simp)
    have hop : Lexes f.operator.name.toList [.word f.operator.name] :=
      Lexeme.lexes_singleton (next_operator f.operator) (by simp)
    refine ⟨_, ?_, .intro hname hfield (Token.operates_name f.operator) hw
      (Filter.make_eq_ok_iff.2 ⟨rfl, rfl, hagain, hcheck⟩)⟩
    simpa [Filter.text, hfields _ _ hfield] using hword.blank (hop.blank hus)

/-! ### Canonical expressions -/

mutual

/-- The item is a filter that is written as it is read, or a canonical group. -/
inductive Item.IsCanonical (fields : String → Except Error Field) : Item → Prop
  | leaf {join : Option Connective} {negated : Bool} {f : Filter} {ts : List Token} :
      Lexes f.text.toList ts → Filter.Derives fields ts f →
      Item.IsCanonical fields (.leaf join negated f)
  | group {join : Option Connective} {negated : Bool} {items : List Item} :
      Expr.IsCanonical fields items → Item.IsCanonical fields (.group join negated items)

/-- The items are canonical, all but the first have connectives, and they are not a single group. -/
inductive Expr.IsCanonical (fields : String → Except Error Field) : List Item → Prop
  | intro {i : Item} {is : List Item} :
      i.join = none → Item.IsCanonical fields i →
      (∀ j ∈ is, j.join.isSome = true) → (∀ j ∈ is, Item.IsCanonical fields j) →
      Expr.collapse (i :: is) = i :: is → Expr.IsCanonical fields (i :: is)

end

mutual

theorem Item.Derives.isCanonical (hfields : Field.KeepNames fields) {join : Option Connective}
    {ts : List Token} {i : Item} {n : Nat} :
    Item.Derives fields join ts i n → (∀ t ∈ ts, t.IsPlain) → Item.IsCanonical fields i
  | .leaf _ hf, hts => by
    obtain ⟨us, hus, hd⟩ := hf.exists_written hfields fun t ht => hts t (by simp [ht])
    exact .leaf hus hd
  | .group _ he, hts => .group (he.isCanonical hfields fun t ht => hts t (by simp [ht]))

theorem Item.Joined.isCanonical (hfields : Field.KeepNames fields) {ts : List Token}
    {is : List Item} {n : Nat} :
    Item.Joined fields ts is n → (∀ t ∈ ts, t.IsPlain) → ∀ j ∈ is, Item.IsCanonical fields j
  | .nil, _ => by simp
  | .cons _ hi his, hts => by
    have hi' := hi.isCanonical hfields fun t ht => hts t (by simp [ht])
    have his' := his.isCanonical hfields fun t ht => hts t (by simp [ht])
    simpa using ⟨hi', his'⟩

/-- **What the tokens of a text write is canonical.** -/
theorem Expr.Derives.isCanonical (hfields : Field.KeepNames fields) {ts : List Token}
    {items : List Item} {n : Nat} :
    Expr.Derives fields ts items n → (∀ t ∈ ts, t.IsPlain) → Expr.IsCanonical fields items
  | @Expr.Derives.intro _ _ _ i is _ _ hi his, hts => by
    have hi' := hi.isCanonical hfields fun t ht => hts t (by simp [ht])
    have his' := his.isCanonical hfields fun t ht => hts t (by simp [ht])
    have hcollapse : Expr.collapse (i :: is) = i :: is ∨
        ∃ join inner, i = .group join false inner ∧ Expr.collapse (i :: is) = inner := by
      unfold Expr.collapse
      split
      · rename_i join inner heq
        cases heq
        exact .inr ⟨join, inner, rfl, rfl⟩
      · exact .inl rfl
    rcases hcollapse with heq | ⟨join, inner, rfl, heq⟩
    · rw [heq]
      exact .intro hi.join_eq hi' his.join_isSome his' heq
    · rw [heq]
      cases hi' with
      | group he => exact he

end

/-! ### Canonical texts -/

namespace Item

theorem countP_isGroup_le_sizes (items : List Item) : items.countP isGroup ≤ sizes items := by
  induction items with
  | nil => simp [sizes]
  | cons i is ih =>
    have := one_le_size i
    rw [List.countP_cons, sizes]
    split <;> omega

/-- The canonical text without the connective. -/
def body : Item → String
  | leaf _ negated f => withMarks none negated f.text
  | group _ negated items => withMarks none negated (parenthesized (texts items))

theorem text_eq_body (i : Item) :
    i.text = match i.join with
      | some c => c.name ++ " " ++ i.body
      | none => i.body := by
  cases i with
  | leaf join negated f =>
    cases join <;> simp [text, body, Item.join, withMarks, String.append_assoc]
  | group join negated items =>
    cases join <;> simp [text, body, Item.join, withMarks, String.append_assoc]

/-- The text of the item, behind its connective, is written as the item, each part being counted
once and the item itself, if it is a group, not at all. -/
def IsWritten (fields : String → Except Error Field) (i : Item) : Prop :=
  ∃ ts n, Lexes i.body.toList ts ∧ Item.Derives fields i.join ts i n ∧
    n + [i].countP isGroup = i.size

theorem exists_negation {text : String} {ts : List Token} (h : Lexes text.toList ts)
    (negated : Bool) : ∃ ns, Token.Negation ns negated ∧
      Lexes (withMarks none negated text).toList (ns ++ ts) := by
  cases negated with
  | false => exact ⟨[], .absent, by simpa [withMarks] using h⟩
  | true =>
    have hnot : Lexes "NOT".toList [.word "NOT"] := Lexeme.lexes_singleton rfl (by simp)
    refine ⟨[.word "NOT"], .present rfl, ?_⟩
    have := hnot.blank h
    simpa [withMarks] using this

theorem isWritten_leaf {join : Option Connective} {negated : Bool} {f : Filter} {ts : List Token}
    (hl : Lexes f.text.toList ts) (hd : Filter.Derives fields ts f) :
    IsWritten fields (.leaf join negated f) := by
  obtain ⟨ns, hns, hall⟩ := exists_negation hl negated
  exact ⟨_, 1, hall, .leaf hns hd, by simp [isGroup, size]⟩

theorem isWritten_group {join : Option Connective} {negated : Bool} {items : List Item}
    {ts : List Token} (hl : Lexes (" ".intercalate (texts items)).toList ts)
    (hd : Expr.Derives fields ts items (sizes items)) :
    IsWritten fields (.group join negated items) := by
  have hparen : Lexes (parenthesized (texts items)).toList
      (.leftParen :: (ts ++ [.rightParen])) := by
    simpa [parenthesized] using hl.parentheses
  obtain ⟨ns, hns, hall⟩ := exists_negation hparen negated
  exact ⟨_, _, hall, .group hns hd, by simp [isGroup, size, Nat.add_comm]⟩

/-- Further items, each written behind its connective. -/
theorem exists_written_joined {is : List Item} (hne : is ≠ [])
    (hjoin : ∀ j ∈ is, j.join.isSome = true) (his : ∀ j ∈ is, j.IsWritten fields) :
    ∃ ts n, Lexes (" ".intercalate (texts is)).toList ts ∧ Item.Joined fields ts is n ∧
      n + is.countP isGroup = sizes is := by
  induction is with
  | nil => exact absurd rfl hne
  | cons i is ih =>
    obtain ⟨ts, n, hl, hd, hn⟩ := his i (by simp)
    -- Behind its connective and a blank the item is written as it stands.
    obtain ⟨c, hc⟩ := Option.isSome_iff_exists.1 (hjoin i (by simp))
    have hword : Lexes c.name.toList [.word c.name] := by
      cases c <;> exact Lexeme.lexes_singleton rfl (by simp)
    have hconnective : Connective.ofWord? c.name = some c := by
      cases c <;> rfl
    have htext : i.text = c.name ++ " " ++ i.body := by
      rw [text_eq_body, hc]
    have hitem : Lexes i.text.toList (.word c.name :: ts) := by
      rw [htext]
      simpa using hword.blank hl
    rw [hc] at hd
    have hcount := countP_isGroup_cons i is
    have hsizes := sizes_cons i is
    cases is with
    | nil =>
      refine ⟨_, _, ?_, .cons hconnective hd .nil, ?_⟩
      · simpa [texts] using hitem
      · rw [hcount, hsizes]
        simp only [List.countP_nil, sizes]
        omega
    | cons j js =>
      obtain ⟨us, m, hus, hjs, hm⟩ := ih (by simp) (fun k hk => hjoin k (by simp [hk]))
        (fun k hk => his k (by simp [hk]))
      refine ⟨_, _, ?_, .cons hconnective hd hjs, ?_⟩
      · have := hitem.blank hus
        simpa [texts, String.intercalate_cons_cons] using this
      · omega

end Item

/-- The items of an expression, the first one without a connective. -/
theorem Expr.exists_written_items {i : Item} {is : List Item} (hi : i.join = none)
    (hi' : i.IsWritten fields) (hjoin : ∀ j ∈ is, j.join.isSome = true)
    (his : ∀ j ∈ is, j.IsWritten fields) (hc : Expr.collapse (i :: is) = i :: is) :
    ∃ ts, Lexes (" ".intercalate (Item.texts (i :: is))).toList ts ∧
      Expr.Derives fields ts (i :: is) (Item.sizes (i :: is)) := by
  obtain ⟨ts, n, hl, hd, hn⟩ := hi'
  have htext : i.text = i.body := by
    rw [Item.text_eq_body, hi]
  rw [hi] at hd
  have hcount := Item.countP_isGroup_cons i is
  have hsizes := Item.sizes_cons i is
  cases is with
  | nil =>
    have hall := Expr.Derives.intro hd .nil
    rw [hc, List.append_nil] at hall
    refine ⟨ts, by simpa [Item.texts, htext] using hl, ?_⟩
    have hsum : Item.sizes [i] = n + 0 + [i].countP Item.isGroup := by
      simp only [Item.sizes]
      omega
    rw [hsum]
    exact hall
  | cons j js =>
    obtain ⟨us, m, hus, hjs, hm⟩ := Item.exists_written_joined (by simp) hjoin his
    have hall := Expr.Derives.intro hd hjs
    rw [hc] at hall
    refine ⟨ts ++ us, ?_, ?_⟩
    · have := hl.blank hus
      simpa [Item.texts, htext, String.intercalate_cons_cons] using this
    · have hsum : Item.sizes (i :: j :: js) = n + m + (i :: j :: js).countP Item.isGroup := by
        omega
      rw [hsum]
      exact hall

mutual

theorem Item.IsCanonical.isWritten {i : Item} : Item.IsCanonical fields i → i.IsWritten fields
  | .leaf hl hd => Item.isWritten_leaf hl hd
  | .group he => by
    obtain ⟨ts, hl, hd⟩ := he.exists_written
    exact Item.isWritten_group hl hd

/-- **A canonical expression is written by its text**, each filter and each group in it being
counted once. -/
theorem Expr.IsCanonical.exists_written {items : List Item} : Expr.IsCanonical fields items →
    ∃ ts, Lexes (" ".intercalate (Item.texts items)).toList ts ∧
      Expr.Derives fields ts items (Item.sizes items)
  | .intro hi hi' hjoin his hc =>
    Expr.exists_written_items hi hi'.isWritten hjoin (fun j hj => (his j hj).isWritten) hc

end

namespace Expr

/-- **The canonical text of an expression reads back.** Whatever was read from a text, with or
without a mapping, is read again from its canonical text, under every limit that is at least twice
its size. -/
theorem read_text {g : Grammar} {text : String} {e : Expr} {limit : Nat}
    (h : read g text = .ok e) (hlimit : 2 * e.size ≤ limit) :
    read ⟨g.schema, limit⟩ e.text = .ok e := by
  obtain ⟨ts, n, hl, hd, -⟩ := read_eq_ok_iff.1 h
  have hcanonical := hd.isCanonical (Field.keepNames_resolve g) hl.isPlain
  obtain ⟨us, hus, hd'⟩ := hcanonical.exists_written
  refine read_eq_ok_iff.2 ⟨_, _, ?_, hd'.enclose, ?_⟩
  · simpa [Expr.text, Item.parenthesized] using hus.parentheses
  · have := Item.countP_isGroup_le_sizes e.items
    simp only [size] at hlimit ⊢
    omega

/-- A negated group, a group in redundant parentheses, and the least limit that is promised. -/
theorem read_text_groups :
    ∃ e, read ⟨none, 8⟩ "NOT (a EQ 1.50 OR b = 'x') AND ((c NEAR [1, -2e-7]))" = .ok e ∧
      2 * e.size ≤ 10 ∧ read ⟨none, 10⟩ e.text = .ok e := by
  have hok : ((read ⟨none, 8⟩ "NOT (a EQ 1.50 OR b = 'x') AND ((c NEAR [1, -2e-7]))").map
      fun e => decide (2 * e.size ≤ 10)).toOption = some true := by
    decide +kernel
  cases h : read ⟨none, 8⟩ "NOT (a EQ 1.50 OR b = 'x') AND ((c NEAR [1, -2e-7]))" with
  | error err =>
    rw [h] at hok
    cases hok
  | ok e =>
    rw [h] at hok
    have hsize : 2 * e.size ≤ 10 := by simpa [Except.map, Except.toOption] using hok
    have hagain := read_text h hsize
    exact ⟨e, rfl, hsize, hagain⟩

end Expr
end SearchDsl
