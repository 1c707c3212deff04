import SearchDsl.Proofs.Expr.Reading
import SearchDsl.Proofs.Filter.Shape

/-!
# The filters of expressions that were read

* `Expr.Derives.exists_filter`: every filter of a derived expression is derived from a run of the
  tokens;
* `Expr.exists_name_of_read`: so the fields in an expression that was read were looked up by name.
-/

namespace SearchDsl

variable {fields : String → Except Error Field}

/-- The field of a filter is one that its name stands for. -/
theorem Filter.Derives.exists_name {ts : List Token} {f : Filter} (h : Filter.Derives fields ts f) :
    ∃ name, fields name = .ok f.field := by
  cases h with
  | @intro name _ _ _ _ _ _ _ hfield _ _ hmake =>
    obtain ⟨rfl, -, -, -⟩ := Filter.make_eq_ok_iff.1 hmake
    exact ⟨name, hfield⟩

theorem Expr.leavesOf_collapse (items : List Item) :
    Item.leavesOf (collapse items) = Item.leavesOf items := by
  unfold collapse
  split
  · simp [Item.leavesOf, Item.leaves]
  · rfl

mutual

theorem Item.Derives.exists_filter {join : Option Connective} {ts : List Token} {i : Item}
    {n : Nat} : Item.Derives fields join ts i n →
      ∀ f ∈ i.leaves, ∃ us, us <:+: ts ∧ Filter.Derives fields us f
  | .leaf _ hf, f, h => by
    rw [Item.leaves, List.mem_singleton] at h
    exact ⟨_, (List.suffix_append _ _).isInfix, h ▸ hf⟩
  | .group _ he, f, h => by
    rw [Item.leaves] at h
    obtain ⟨us, hus, hf⟩ := he.exists_filter f h
    have hinner := hus.trans (List.prefix_append _ [.rightParen]).isInfix
    exact ⟨us, hinner.trans ((List.suffix_cons _ _).trans (List.suffix_append _ _)).isInfix, hf⟩

theorem Item.Joined.exists_filter {ts : List Token} {is : List Item} {n : Nat} :
    Item.Joined fields ts is n →
      ∀ f ∈ Item.leavesOf is, ∃ us, us <:+: ts ∧ Filter.Derives fields us f
  | .nil, f, h => by cases h
  | .cons _ hi his, f, h => by
    rw [Item.leavesOf, List.mem_append] at h
    rcases h with h | h
    · obtain ⟨us, hus, hf⟩ := hi.exists_filter f h
      refine ⟨us, List.IsInfix.trans ?_ (List.suffix_cons _ _).isInfix, hf⟩
      exact hus.trans (List.prefix_append _ _).isInfix
    · obtain ⟨us, hus, hf⟩ := his.exists_filter f h
      exact ⟨us, hus.trans ((List.suffix_append _ _).trans (List.suffix_cons _ _)).isInfix, hf⟩

/-- Every filter of an expression is written by a run of the tokens. -/
theorem Expr.Derives.exists_filter {ts : List Token} {items : List Item} {n : Nat} :
    Expr.Derives fields ts items n →
      ∀ f ∈ Item.leavesOf items, ∃ us, us <:+: ts ∧ Filter.Derives fields us f
  | .intro hi his, f, h => by
    rw [Expr.leavesOf_collapse, Item.leavesOf, List.mem_append] at h
    rcases h with h | h
    · obtain ⟨us, hus, hf⟩ := hi.exists_filter f h
      exact ⟨us, hus.trans (List.prefix_append _ _).isInfix, hf⟩
    · obtain ⟨us, hus, hf⟩ := his.exists_filter f h
      exact ⟨us, hus.trans (List.suffix_append _ _).isInfix, hf⟩

end

/-- **The field of every filter that was read is what some name stands for.** -/
theorem Expr.exists_name_of_read {g : Grammar} {text : String} {e : Expr}
    (h : read g text = .ok e) :
    ∀ f ∈ e.leaves, ∃ name, Reading.resolve g name = .ok f.field := by
  intro f hf
  obtain ⟨ts, n, -, hd, -⟩ := read_eq_ok_iff.1 h
  obtain ⟨us, -, hus⟩ := hd.exists_filter f hf
  exact hus.exists_name

end SearchDsl
