import SearchDsl.Proofs.Expr.WellFormed

/-!
# Expressions with other filters

`Expr.map g` replaces every filter of an expression and leaves the rest as it is. What was built of
made filters is built again, if the new filters are made too (`Expr.Built.map`).
-/

namespace SearchDsl

namespace Item

mutual

/-- The item with a function applied to its filters. -/
def map (g : Filter → Filter) : Item → Item
  | leaf join negated f => leaf join negated (g f)
  | group join negated items => group join negated (mapAll g items)

/-- The items with a function applied to their filters. -/
def mapAll (g : Filter → Filter) : List Item → List Item
  | [] => []
  | i :: is => i.map g :: mapAll g is

end

theorem mapAll_eq_map (g : Filter → Filter) (items : List Item) :
    mapAll g items = items.map (Item.map g) := by
  induction items with
  | nil => rfl
  | cons i is ih => rw [mapAll, ih, List.map_cons]

mutual

theorem map_id (i : Item) : i.map id = i := by
  match i with
  | leaf join negated f => rfl
  | group join negated items => rw [map, mapAll_id items]

theorem mapAll_id (items : List Item) : mapAll id items = items := by
  match items with
  | [] => rfl
  | i :: is => rw [mapAll, map_id i, mapAll_id is]

end

theorem join_map (g : Filter → Filter) (i : Item) : (i.map g).join = i.join := by cases i <;> rfl

/-- Other filters do not change how the items are joined. -/
theorem AreJoined.map {items : List Item} (h : AreJoined items) (g : Filter → Filter) :
    AreJoined (items.map (Item.map g)) where
  ne_nil := mt List.map_eq_nil_iff.1 h.ne_nil
  first := by
    rw [List.head?_map]
    intro i hi
    obtain ⟨j, hj, rfl⟩ := Option.map_eq_some_iff.1 hi
    rw [join_map]
    exact h.first j hj
  later := by
    rw [← List.map_tail, List.forall_mem_map]
    intro j hj
    rw [join_map]
    exact h.later j hj

end Item

namespace Expr

/-- The expression with a function applied to its filters. -/
def map (g : Filter → Filter) (e : Expr) : Expr := ⟨Item.mapAll g e.items⟩

theorem map_id (e : Expr) : e.map id = e := by rw [map, Item.mapAll_id]

/-- Parentheses are taken away whatever the filters are. -/
theorem mapAll_collapse (g : Filter → Filter) (items : List Item) :
    Item.mapAll g (collapse items) = collapse (Item.mapAll g items) := by
  match items with
  | [] | [.leaf ..] | [.group _ true _] | [.group _ false _] => rfl
  | .leaf .. :: _ :: _ | .group _ true _ :: _ :: _ | .group _ false _ :: _ :: _ => rfl

theorem ofItems_map (g : Filter → Filter) {max : Nat} {items : List Item} {e : Expr}
    (h : ofItems max items = .ok e) : ofItems max (items.map (Item.map g)) = .ok (e.map g) := by
  obtain ⟨hjoined, hle, he⟩ := ofItems_eq_ok_iff_joined.1 h
  refine ofItems_eq_ok_iff_joined.2 ⟨hjoined.map g, by simpa using hle, ?_⟩
  rw [map, he, mapAll_collapse, Item.mapAll_eq_map]

end Expr

mutual

theorem Item.Built.map {g : Filter → Filter} (hg : ∀ f, f.IsMade → (g f).IsMade) {i : Item} :
    i.Built → (i.map g).Built
  | .leaf join negated hf => .leaf join negated (hg _ hf)
  | .group join negated he => .group join negated (he.map hg)

/-- **What is built stays built** if made filters are replaced by made filters. -/
theorem Expr.Built.map {g : Filter → Filter} (hg : ∀ f, f.IsMade → (g f).IsMade) {e : Expr} :
    e.Built → (e.map g).Built
  | .ofItems hi he => by
    refine .ofItems ?_ (Expr.ofItems_map g he)
    rw [List.forall_mem_map]
    exact fun i hmem => (hi i hmem).map hg

end

end SearchDsl
