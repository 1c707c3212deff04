import SearchDsl.Proofs.Expr.Built
import SearchDsl.Proofs.Expr.Size
import SearchDsl.Proofs.Sorting.InUse

/-!
# Expressions are well-formed at every depth

The items of a list are *joined* if there are some, the first one has no connective in front, and
each later one has. A list is *well-formed* if besides it is not a single group that is not negated.

* `Expr.exists_ofItems_iff`: the items that make an expression are the joined ones, if there are not
  too many of them;
* `Expr.Built.wellFormed`: every list of items in a built expression is well-formed, whatever limits
  it was built under;
* `Expr.wellFormed_of_made`: so are the expressions that are read, in sorts as well.
-/

namespace SearchDsl

namespace Item

/-- There are items, the first one is joined to nothing, and each other one to the one before it. -/
structure AreJoined (items : List Item) : Prop where
  ne_nil : items ≠ []
  first : ∀ i ∈ items.head?, i.join = none
  later : ∀ i ∈ items.tail, i.join.isSome = true

/-- The items are joined, and there is more to them than one group that is not negated. -/
structure WellFormed (items : List Item) : Prop extends AreJoined items where
  notBare : ∀ join inner, items ≠ [.group join false inner]

theorem mem_listsOf {is : List Item} {items : List Item} :
    items ∈ listsOf is ↔ ∃ i ∈ is, items ∈ i.lists := by
  induction is with
  | nil => simp [listsOf]
  | cons i is ih => simp [listsOf, ih]

end Item

namespace Expr

open Item (AreJoined)

/-- Every list of items in the expression is well-formed. -/
def WellFormed (e : Expr) : Prop := ∀ items ∈ e.lists, Item.WellFormed items

/-! ### Lists that make an expression -/

variable {max : Nat} {items : List Item} {e : Expr}

theorem unjoined?_eq_none_iff :
    unjoined? items = none ↔ ∀ i ∈ items.tail, i.join.isSome = true := by
  simp [unjoined?, List.findIdx?_eq_none_iff]

/-- What is looked at when an expression is made: first the number of items and then their
connectives. -/
theorem areJoined_of_ofItems (h : ofItems max items = .ok e) :
    AreJoined items ∧ items.length ≤ max := by
  unfold ofItems at h
  split at h
  · cases h
  · rename_i first more
    split at h
    · cases h
    · rename_i hle
      split at h
      · cases h
      · rename_i hfirst
        split at h
        · cases h
        · rename_i hlater
          refine ⟨⟨by simp, ?_, unjoined?_eq_none_iff.1 hlater⟩, by omega⟩
          simpa using hfirst

/-- **Making an expression** takes joined items, and takes the only group among them apart. -/
theorem ofItems_eq_ok_iff_joined :
    ofItems max items = .ok e ↔
      AreJoined items ∧ items.length ≤ max ∧ e.items = collapse items := by
  constructor
  · intro h
    obtain ⟨hjoined, hle⟩ := areJoined_of_ofItems h
    obtain ⟨first, more, rfl⟩ := List.exists_cons_of_ne_nil hjoined.ne_nil
    exact ⟨hjoined, (ofItems_eq_ok_iff (hjoined.first first rfl) hjoined.later).1 h⟩
  · rintro ⟨hjoined, hmade⟩
    obtain ⟨first, more, rfl⟩ := List.exists_cons_of_ne_nil hjoined.ne_nil
    exact (ofItems_eq_ok_iff (hjoined.first first rfl) hjoined.later).2 hmade

theorem exists_ofItems_iff :
    (∃ e, ofItems max items = .ok e) ↔ AreJoined items ∧ items.length ≤ max := by
  constructor
  · rintro ⟨e, h⟩
    exact areJoined_of_ofItems h
  · rintro ⟨hjoined, hle⟩
    exact ⟨⟨collapse items⟩, ofItems_eq_ok_iff_joined.2 ⟨hjoined, hle, rfl⟩⟩

/-- Joined items are well-formed, or they are the single group that they collapse to. -/
theorem wellFormed_or_collapse (h : AreJoined items) :
    (Item.WellFormed items ∧ collapse items = items) ∨
      ∃ join, items = [.group join false (collapse items)] := by
  unfold collapse
  split
  · exact .inr ⟨_, rfl⟩
  · rename_i hno
    exact .inl ⟨⟨h, fun join inner heq => hno join inner heq⟩, rfl⟩

end Expr

/-! ### Every list -/

mutual

theorem Item.Built.wellFormed {i : Item} : i.Built → ∀ items ∈ i.lists, Item.WellFormed items
  | .leaf .., items, h => by cases h
  | .group _ _ he, items, h => he.wellFormed items h

/-- **Every list of items in a built expression is well-formed.** What a single group is taken apart
to was an expression before, made under a limit of its own. -/
theorem Expr.Built.wellFormed {e : Expr} : e.Built → e.WellFormed
  | @Expr.Built.ofItems _ given e hgiven he, items, h => by
    obtain ⟨hjoined, -, hitems⟩ := Expr.ofItems_eq_ok_iff_joined.1 he
    have below : ∀ i ∈ given, ∀ items ∈ i.lists, Item.WellFormed items :=
      fun i hi => (hgiven i hi).wellFormed
    rcases Expr.wellFormed_or_collapse hjoined with ⟨hgood, hsame⟩ | ⟨join, hbare⟩
    · rw [hsame] at hitems
      rcases List.mem_cons.1 h with rfl | h
      · exact hitems ▸ hgood
      · obtain ⟨i, hi, h⟩ := Item.mem_listsOf.1 h
        exact below i (hitems ▸ hi) items h
    · -- The lists of the expression are those of the only group.
      rw [← hitems] at hbare
      exact below (.group join false e.items) (by simp [hbare]) items h

end

/-! ### Every way to obtain an expression -/

/-- **Expressions are well-formed at every depth**, however they are obtained: whether they are put
together by `Expr.ofItems`, level by level under any limits, or read from a text, or as a filter in
the text of a sort. And the items that make an expression are those that are joined, as long as the
limit leaves room for them. -/
theorem Expr.wellFormed_of_made :
    (∀ e : Expr, e.Built → e.WellFormed) ∧
    (∀ (g : Grammar) (text : String) (e : Expr), read g text = .ok e → e.WellFormed) ∧
    (∀ (schema : Option Snapshot) (text : String) (s : Sorting), Sorting.read schema text = .ok s →
      ∀ i ∈ s.items, ∀ e ∈ i.filter, e.WellFormed) ∧
    ∀ (max : Nat) (items : List Item),
      (∃ e, ofItems max items = .ok e) ↔ Item.AreJoined items ∧ items.length ≤ max := by
  refine ⟨fun e he => he.wellFormed, fun g text e he => ?_, fun schema text s hs i hi e he => ?_,
    fun max items => exists_ofItems_iff⟩
  · exact (built_of_read he).wellFormed
  · exact (Sorting.built_of_read hs i hi e he).wellFormed

/-- Two items that were made an expression under a limit of two, which a limit of one then gives
back; a text and a sort with groups around a single group. -/
theorem Expr.wellFormed_of_made_groups :
    let filter (name : String) : Filter := ⟨Field.ofName name, .equal, .null⟩
    let pair : List Item :=
      [.leaf none true (filter "a"), .leaf (some .or) false (filter "b")]
    (∃ e : Expr, ofItems 2 pair = .ok ⟨pair⟩ ∧ ofItems 1 [.group none false pair] = .ok e ∧
      e.Built ∧ e.WellFormed) ∧
    (∃ e, read ⟨none, 8⟩ "((NOT (a EQ 1 OR b EQ 2))) AND c EQ 3" = .ok e ∧ e.WellFormed) ∧
    ∃ s, Sorting.read none "a.b ASC sortFilter: ((a EQ 1 OR b EQ 2))" = .ok s ∧
      ∀ i ∈ s.items, ∀ e ∈ i.filter, e.WellFormed := by
  intro filter pair
  obtain ⟨hbuilt, hread, hsort, -⟩ := wellFormed_of_made
  refine ⟨⟨⟨pair⟩, rfl, rfl, ?_⟩, ?_, ?_⟩
  · have hleaf : ∀ join negated name, Item.Built (.leaf join negated (filter name)) :=
      fun join negated name => .leaf join negated ⟨Field.ofName name, .equal, .null, rfl⟩
    have hpair : Expr.Built ⟨pair⟩ := by
      refine @Built.ofItems 2 pair _ ?_ rfl
      simp [pair, hleaf]
    have he : Expr.Built ⟨pair⟩ := by
      refine @Built.ofItems 1 [.group none false pair] _ ?_ rfl
      simpa using .group none false hpair
    exact ⟨he, hbuilt _ he⟩
  · have hok : (read ⟨none, 8⟩ "((NOT (a EQ 1 OR b EQ 2))) AND c EQ 3").isOk = true := by
      decide +kernel
    obtain ⟨e, he⟩ := exists_eq_ok hok
    exact ⟨e, he, hread _ _ e he⟩
  · have hok : (Sorting.read none "a.b ASC sortFilter: ((a EQ 1 OR b EQ 2))").isOk = true := by
      decide +kernel
    obtain ⟨s, hs⟩ := exists_eq_ok hok
    exact ⟨s, hs, hsort _ _ s hs⟩

end SearchDsl
