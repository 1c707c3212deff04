import Mathlib.Data.List.Forall2
import SearchDsl.Proofs.Query.Faithful
import SearchDsl.Proofs.Query.Leaves

/-!
# Where the query of an expression has its leaves

`Item.Lays s items clauses` describes the bool query of a list of items, given without the compiler:
each item makes an entry under its connective (`Item.Makes`), the entries are arranged into clauses
(`Arranged`), and the clauses go to their roles (`Placed.roles`), each in order. A filter makes an
entry in what is left of its nested paths below the paths that are already looked at
(`Surroundings.Rest`); a group makes one with the bool query of its own items.

* `leaves_of_lays`: such a bool query has one leaf for each filter, under these paths;
* `layout_ofExpr`: every expression of made filters has such a bool query, and the fields of its
  leaves are the fields of the expression.
-/

namespace SearchDsl

mutual

/-- The entry that an item makes under a connective. -/
inductive Item.Makes (s : Query.Surroundings) : Connective → Item → Query.Entry → Prop
  | leaf {c : Connective} {join : Option Connective} {negated : Bool} {f : Filter} {p : Primitive}
      {paths : List String} :
      Query.ofFilter s f = .ok (p, f.denies) → s.Rest f.field.nestedPaths paths →
      Item.Makes s c (.leaf join negated f) ⟨c, negated != f.denies, paths, .primitive p⟩
  | group {c : Connective} {join : Option Connective} {negated : Bool} {items : List Item}
      {clauses : Clauses Query} :
      Item.Lays s items clauses →
      Item.Makes s c (.group join negated items) ⟨c, negated, [], .bool clauses⟩

/-- The entries that items make under their connectives. -/
inductive Item.AllMake (s : Query.Surroundings) :
    List Connective → List Item → List Query.Entry → Prop
  | nil : Item.AllMake s [] [] []
  | cons {c : Connective} {cs : List Connective} {i : Item} {is : List Item} {e : Query.Entry}
      {es : List Query.Entry} :
      Item.Makes s c i e → Item.AllMake s cs is es → Item.AllMake s (c :: cs) (i :: is) (e :: es)

/-- The bool query that a list of items lays out. -/
inductive Item.Lays (s : Query.Surroundings) : List Item → Clauses Query → Prop
  | intro {items : List Item} {es : List Query.Entry} {ps : List Query.Placed} :
      Item.AllMake s (Item.connectives items) items es → Query.Arranged es ps →
      Item.Lays s items (Query.Placed.roles ps)

end

namespace Query

/-! ### The compiler lays out its items -/

section Compiler

variable (s : Surroundings)

mutual

/-- An item of made filters makes the entry that it is compiled to. -/
theorem exists_makes_ofItem (c : Connective) :
    (i : Item) → (∀ f ∈ i.leaves, f.IsMade) → ∃ e, ofItem s c i = .ok e ∧ i.Makes s c e
  | .leaf join negated f, h => by
    obtain ⟨p, hp⟩ := ofFilter_of_isMade (h f (by simp [Item.leaves])) s
    refine ⟨_, ?_, .leaf hp (rest_remaining s _)⟩
    rw [ofItem, hp]
    rfl
  | .group join negated items, h => by
    obtain ⟨es, hes, hmake⟩ := exists_allMake_ofItems (firstConnective items) items
      (by simpa [Item.leaves] using h)
    rw [connectivesFrom_firstConnective] at hmake
    refine ⟨_, ?_, .group (.intro hmake (arranged_gather _ es fun e he => length_le_depthOf he))⟩
    rw [ofItem, hes, ← placeAll_eq_roles]
    rfl

/-- Items of made filters make the entries that they are compiled to. -/
theorem exists_allMake_ofItems (c : Connective) :
    (items : List Item) → (∀ f ∈ Item.leavesOf items, f.IsMade) →
      ∃ es, ofItems s c items = .ok es ∧ Item.AllMake s (connectivesFrom c items) items es
  | [], _ => ⟨[], rfl, .nil⟩
  | i :: is, h => by
    simp only [Item.leavesOf, List.mem_append] at h
    obtain ⟨e, he, hmakes⟩ := exists_makes_ofItem c i fun f hf => h f (.inl hf)
    obtain ⟨es, hes, hmake⟩ := exists_allMake_ofItems ((is.head?.bind Item.join).getD .and) is
      fun f hf => h f (.inr hf)
    rw [connectivesFrom_head] at hmake
    refine ⟨e :: es, ?_, .cons hmakes hmake⟩
    rw [ofItems, he, ok_bind, hes]
    rfl

end

/-- An expression of made filters has a bool query, which its items lay out. -/
theorem exists_lays_ofExpr {e : Expr} (h : ∀ f ∈ e.leaves, f.IsMade) :
    ∃ c, ofExpr s e = .ok c ∧ Item.Lays s e.items c := by
  obtain ⟨es, hes, hmake⟩ := exists_allMake_ofItems s (firstConnective e.items) e.items h
  rw [connectivesFrom_firstConnective] at hmake
  refine ⟨_, ?_, .intro hmake (arranged_gather _ es fun e he => length_le_depthOf he)⟩
  rw [ofExpr, hes, ← placeAll_eq_roles]
  rfl

end Compiler

/-! ### Leaves -/

/-- The leaf is the primitive query of the filter, in what is left of the paths of its field. -/
structure Leaf.IsOf (s : Surroundings) (f : Filter) (l : Leaf) : Prop where
  query : ofFilter s f = .ok (l.primitive, f.denies)
  paths : s.Rest f.field.nestedPaths l.paths

/-- The leaves are those of the filters, in any order. -/
def Leaf.AreOf (s : Surroundings) (fs : List Filter) (ls : List Leaf) : Prop :=
  ∃ inOrder, List.Forall₂ (Leaf.IsOf s) fs inOrder ∧ ls.Perm inOrder

variable {s : Surroundings}

namespace Leaf.AreOf

variable {fs gs : List Filter} {ls ms : List Leaf}

theorem append (hl : AreOf s fs ls) (hm : AreOf s gs ms) : AreOf s (fs ++ gs) (ls ++ ms) := by
  obtain ⟨xs, hxs, hl⟩ := hl
  obtain ⟨ys, hys, hm⟩ := hm
  exact ⟨xs ++ ys, List.rel_append hxs hys, hl.append hm⟩

theorem perm (h : AreOf s fs ls) (hp : ms.Perm ls) : AreOf s fs ms := by
  obtain ⟨xs, hxs, hl⟩ := h
  exact ⟨xs, hxs, hp.trans hl⟩

theorem exists_filter (h : AreOf s fs ls) {l : Leaf} (hl : l ∈ ls) : ∃ f ∈ fs, l.IsOf s f := by
  obtain ⟨xs, hxs, hp⟩ := h
  exact exists_mem_of_forall₂ hxs l (hp.mem_iff.1 hl)

theorem exists_leaf (h : AreOf s fs ls) {f : Filter} (hf : f ∈ fs) : ∃ l ∈ ls, l.IsOf s f := by
  obtain ⟨xs, hxs, hp⟩ := h
  obtain ⟨l, hl, hlf⟩ := exists_mem_of_forall₂ hxs.flip f hf
  exact ⟨l, hp.mem_iff.2 hl, hlf⟩

end Leaf.AreOf

mutual

theorem leaves_of_makes {c : Connective} {i : Item} {e : Entry} :
    Item.Makes s c i e → Leaf.AreOf s i.leaves e.leaves
  | @Item.Makes.leaf _ _ _ _ f p paths hp hpaths => by
    refine ⟨[⟨paths, p⟩], .cons ⟨hp, hpaths⟩ .nil, ?_⟩
    simp [Entry.leaves, leaves, Leaf.within]
  | .group h => by
    rw [Entry.leaves, List.map_congr_left fun l _ => Leaf.within_nil l, List.map_id', Item.leaves]
    exact leaves_of_lays h

theorem leaves_of_allMake {cs : List Connective} {is : List Item} {es : List Entry} :
    Item.AllMake s cs is es → Leaf.AreOf s (Item.leavesOf is) (es.flatMap Entry.leaves)
  | .nil => ⟨[], .nil, .nil⟩
  | .cons h hs => by
    rw [Item.leavesOf, List.flatMap_cons]
    exact (leaves_of_makes h).append (leaves_of_allMake hs)

/-- **A bool query that items lay out has one leaf for each filter.** -/
theorem leaves_of_lays {items : List Item} {c : Clauses Query} :
    Item.Lays s items c → Leaf.AreOf s (Item.leavesOf items) (bool c).leaves
  | .intro hmake hps => (leaves_of_allMake hmake).perm ((leaves_roles _).trans hps.leaves)

end

/-! ### Fields -/

/-- The primitive query of a filter looks at the field of the filter. -/
theorem field?_of_ofFilter {f : Filter} {p : Primitive} {denied : Bool}
    (h : ofFilter s f = .ok (p, denied)) : p.field? = some f.field.name := by
  unfold ofFilter at h
  split at h
  -- Only ranges and comparisons look at their values once more.
  case h_5 =>
    split at h
    · cases h
      rfl
    · cases h
  case h_11 =>
    split at h
    · split at h
      · cases h
        rfl
      · cases h
    · cases h
  all_goals
    cases h
    rfl

/-- The fields of an expression are those that the leaves of its query look at. -/
theorem mem_fieldNames_iff_leaves {e : Expr} {ls : List Leaf} (h : Leaf.AreOf s e.leaves ls)
    (name : String) : name ∈ e.fieldNames ↔ ∃ l ∈ ls, l.primitive.field? = some name := by
  rw [Expr.mem_fieldNames]
  constructor
  · rintro ⟨f, hf, rfl⟩
    obtain ⟨l, hl, hlf⟩ := h.exists_leaf hf
    exact ⟨l, hl, field?_of_ofFilter hlf.query⟩
  · rintro ⟨l, hl, hname⟩
    obtain ⟨f, hf, hlf⟩ := h.exists_filter hl
    have hfield := field?_of_ofFilter hlf.query
    rw [hname] at hfield
    exact ⟨f, hf, (Option.some.inj hfield).symm⟩

/-- **Every filter is placed once, in order and under its own nested paths.** -/
theorem layout_ofExpr {e : Expr} (h : ∀ f ∈ e.leaves, f.IsMade) (s : Surroundings) :
    ∃ c, ofExpr s e = .ok c ∧ Leaf.AreOf s e.leaves (bool c).leaves ∧
      (∀ name, name ∈ e.fieldNames ↔ ∃ l ∈ (bool c).leaves, l.primitive.field? = some name) ∧
      Item.Lays s e.items c := by
  obtain ⟨c, hc, hlays⟩ := exists_lays_ofExpr s h
  have hleaves : Leaf.AreOf s e.leaves (bool c).leaves := leaves_of_lays hlays
  exact ⟨c, hc, hleaves, mem_fieldNames_iff_leaves hleaves, hlays⟩

/-- Below `units`, two filters on rooms around a filter on the unit and the denial of a group. -/
theorem layout_ofExpr_rooms :
    let area : Filter :=
      ⟨⟨["units", "rooms", "area"], some [.nested, .nested, .long], false⟩, .greaterThan,
        .number (.whole 20)⟩
    let kind : Filter := ⟨⟨["units", "kind"], some [.nested, .keyword], false⟩, .equal, .string "A"⟩
    let e : Expr := ⟨[.leaf none false area, .leaf (some .or) true kind,
      .group (some .and) true [.leaf none false kind, .leaf (some .or) false area],
      .leaf (some .and) false area]⟩
    (∀ f ∈ e.leaves, f.IsMade) ∧
      ∃ c, ofExpr ⟨"10km", ["units"]⟩ e = .ok c ∧
        Leaf.AreOf ⟨"10km", ["units"]⟩ e.leaves (bool c).leaves ∧
        (∀ name, name ∈ e.fieldNames ↔ ∃ l ∈ (bool c).leaves, l.primitive.field? = some name) ∧
        Item.Lays ⟨"10km", ["units"]⟩ e.items c := by
  intro area kind e
  have ha : area.IsMade := ⟨area.field, .greaterThan, area.value, rfl⟩
  have hk : kind.IsMade := ⟨kind.field, .equal, .string "A", rfl⟩
  have he : ∀ f ∈ e.leaves, f.IsMade := by
    have hleaves : e.leaves = [area, kind, kind, area, area] := rfl
    rw [hleaves]
    simp only [List.forall_mem_cons, List.not_mem_nil, false_implies, implies_true, and_true]
    exact ⟨ha, hk, hk, ha, ha⟩
  exact ⟨he, layout_ofExpr he _⟩

end Query
end SearchDsl
