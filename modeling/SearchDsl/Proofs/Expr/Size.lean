import SearchDsl.Proofs.Expr.Limit
import SearchDsl.Proofs.Expr.Parentheses

/-!
# What a limit of fragments bounds

The limit bounds the size of an expression that is read, and the size bounds everything else about
its shape:

* `Expr.length_le_size`: every list of items in it is no longer than its size (`Expr.lists`);
* `Expr.depth_le_size`: and it nests no deeper than its size (`Expr.depth`);
* `Expr.read_of_le`: so an expression that is read under a limit keeps to it in all three ways, and
  apart from that the limit has no effect.
-/

namespace SearchDsl

namespace Item

mutual

/-- The lists of items in the item. -/
def lists : Item → List (List Item)
  | leaf .. => []
  | group _ _ items => items :: listsOf items

/-- The lists of items in the items of a list. -/
def listsOf : List Item → List (List Item)
  | [] => []
  | i :: is => i.lists ++ listsOf is

end

mutual

/-- How many items lie one inside the other: a filter, and the groups around it. -/
def depth : Item → Nat
  | leaf .. => 1
  | group _ _ items => depths items + 1

/-- The depth of the deepest item of a list. -/
def depths : List Item → Nat
  | [] => 0
  | i :: is => max i.depth (depths is)

end

theorem length_le_sizes (items : List Item) : items.length ≤ sizes items := by
  induction items with
  | nil => exact Nat.le_refl 0
  | cons i is ih =>
    have := one_le_size i
    rw [List.length_cons, sizes]
    omega

mutual

/-- An item counts for more than the lists in it are long. -/
theorem length_le_size : (i : Item) → ∀ items ∈ i.lists, items.length ≤ i.size
  | leaf .., items, h => by cases h
  | group _ _ inner, items, h => by
    rw [size]
    rcases List.mem_cons.1 h with rfl | h
    · have := length_le_sizes items
      omega
    · have := length_le_sizes_of_mem inner items h
      omega

theorem length_le_sizes_of_mem :
    (is : List Item) → ∀ items ∈ listsOf is, items.length ≤ sizes is
  | [], items, h => by cases h
  | i :: is, items, h => by
    rw [sizes]
    rcases List.mem_append.1 h with h | h
    · have := length_le_size i items h
      omega
    · have := length_le_sizes_of_mem is items h
      omega

end

mutual

theorem depth_le_size : (i : Item) → i.depth ≤ i.size
  | leaf .. => Nat.le_refl 1
  | group _ _ items => by
    have := depths_le_sizes items
    rw [depth, size]
    omega

theorem depths_le_sizes : (is : List Item) → depths is ≤ sizes is
  | [] => Nat.le_refl 0
  | i :: is => by
    have := depth_le_size i
    have := depths_le_sizes is
    rw [depths, sizes]
    omega

end

end Item

namespace Expr

/-- The lists of items in the expression, its own one first. -/
def lists (e : Expr) : List (List Item) := e.items :: Item.listsOf e.items

/-- How deep the expression nests: 1 if it has no groups. -/
def depth (e : Expr) : Nat := Item.depths e.items

theorem length_le_size (e : Expr) : ∀ items ∈ e.lists, items.length ≤ e.size := by
  intro items h
  rcases List.mem_cons.1 h with rfl | h
  · exact Item.length_le_sizes e.items
  · exact Item.length_le_sizes_of_mem e.items items h

theorem depth_le_size (e : Expr) : e.depth ≤ e.size := Item.depths_le_sizes e.items

/-- **An expression that is read is no larger than the limit.** -/
theorem size_le_of_read {g : Grammar} {text : String} {e : Expr} (h : read g text = .ok e) :
    e.size ≤ g.limit := by
  obtain ⟨ts, n, -, hd, hle⟩ := read_eq_ok_iff.1 h
  exact Nat.le_trans hd.size_le hle

/-- **What a limit does.** Under a smaller limit a text is read the same, with the same outcome, or
it is refused for a number of fragments beyond that limit. What is read under a limit keeps to it,
in its size, in the length of each of its lists and in its depth. -/
theorem read_of_le {schema : Option Snapshot} {limit limit' : Nat} (h : limit ≤ limit')
    (text : String) :
    (read ⟨schema, limit⟩ text = read ⟨schema, limit'⟩ text ∨
      ∃ count, limit < count ∧
        read ⟨schema, limit⟩ text = .error (.tooManyFragments count limit)) ∧
    ∀ e, read ⟨schema, limit⟩ text = .ok e →
      e.size ≤ limit ∧ (∀ items ∈ e.lists, items.length ≤ limit) ∧ e.depth ≤ limit := by
  refine ⟨@read_curbed ⟨schema, limit⟩ ⟨schema, limit'⟩ rfl h text, fun e he => ?_⟩
  have hsize : e.size ≤ limit := size_le_of_read he
  exact ⟨hsize, fun items hi => Nat.le_trans (e.length_le_size items hi) hsize,
    Nat.le_trans e.depth_le_size hsize⟩

/-- Three filters and a group: the group is counted once its expression is complete. -/
theorem read_of_le_group :
    let text := "(a EQ 1 OR b EQ 2) AND c EQ 3"
    3 ≤ 4 ∧
      (read ⟨none, 3⟩ text = read ⟨none, 4⟩ text ∨
        ∃ count, 3 < count ∧ read ⟨none, 3⟩ text = .error (.tooManyFragments count 3)) ∧
      ∃ e, read ⟨none, 4⟩ text = .ok e ∧
        e.size ≤ 4 ∧ (∀ items ∈ e.lists, items.length ≤ 4) ∧ e.depth ≤ 4 := by
  intro text
  have hok : (read ⟨none, 4⟩ text).isOk = true := by decide +kernel
  obtain ⟨e, he⟩ := exists_eq_ok hok
  have hle : 3 ≤ 4 := by decide
  exact ⟨hle, (read_of_le hle text).1, e, he, (read_of_le (Nat.le_refl 4) text).2 e he⟩

end Expr
end SearchDsl
