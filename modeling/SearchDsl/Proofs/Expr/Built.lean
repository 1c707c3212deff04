import SearchDsl.Proofs.Expr.Reading
import SearchDsl.Proofs.Filter.Shape

/-!
# Expressions that can be built

`Expr.Built` tells the expressions that come out of `Filter.make` and `Expr.ofItems`, level by
level, from those that were put together by hand.

* `Expr.Built.isMade`: every filter of such an expression has been let through by `Filter.make`;
* `Expr.Derives.built`: whatever tokens write an expression, it is built in this way;
* `Expr.built_of_read`: so is whatever is read from a text.
-/

namespace SearchDsl

mutual

/-- The item is a made filter or a group that is a built expression. -/
inductive Item.Built : Item → Prop
  | leaf (join : Option Connective) (negated : Bool) {f : Filter} :
      f.IsMade → Item.Built (.leaf join negated f)
  | group (join : Option Connective) (negated : Bool) {items : List Item} :
      Expr.Built ⟨items⟩ → Item.Built (.group join negated items)

/-- The expression is what `Expr.ofItems` makes of built items, under some limit. -/
inductive Expr.Built : Expr → Prop
  | ofItems {max : Nat} {items : List Item} {e : Expr} :
      (∀ i ∈ items, Item.Built i) → Expr.ofItems max items = .ok e → Expr.Built e

end

namespace Item

theorem mem_leavesOf {items : List Item} {f : Filter} :
    f ∈ leavesOf items ↔ ∃ i ∈ items, f ∈ i.leaves := by
  induction items with
  | nil => simp [leavesOf]
  | cons i is ih => simp [leavesOf, ih]

end Item

namespace Expr

/-- An expression keeps its items, or is the single group among them. -/
theorem ofItems_eq_ok {max : Nat} {items : List Item} {e : Expr} (h : ofItems max items = .ok e) :
    e.items = items ∨ ∃ join, items = [.group join false e.items] := by
  unfold ofItems at h
  split at h
  · cases h
  · split at h
    · cases h
    · split at h
      · cases h
      · split at h
        · cases h
        · split at h
          · rename_i hg
            cases h
            exact .inr ⟨_, hg⟩
          · cases h
            exact .inl rfl

/-- The filters are those of the items. -/
theorem leaves_of_ofItems {max : Nat} {items : List Item} {e : Expr}
    (h : ofItems max items = .ok e) : e.leaves = Item.leavesOf items := by
  rcases ofItems_eq_ok h with hi | ⟨join, hi⟩
  · rw [leaves, hi]
  · rw [hi]
    simp [leaves, Item.leavesOf, Item.leaves]

end Expr

mutual

theorem Item.Built.isMade {i : Item} : i.Built → ∀ f ∈ i.leaves, f.IsMade
  | .leaf _ _ hf, f, h => by
    rw [Item.leaves, List.mem_singleton] at h
    exact h ▸ hf
  | .group _ _ he, f, h => he.isMade f (by simpa [Item.leaves, Expr.leaves] using h)

/-- **Every filter of a built expression has been let through.** -/
theorem Expr.Built.isMade {e : Expr} : e.Built → ∀ f ∈ e.leaves, f.IsMade
  | .ofItems hi he, f, h => by
    rw [Expr.leaves_of_ofItems he, Item.mem_leavesOf] at h
    obtain ⟨i, hmem, hf⟩ := h
    exact (hi i hmem).isMade f hf

end

/-! ### What is written -/

section Written

variable {fields : String → Except Error Field}

theorem Filter.Derives.isMade {ts : List Token} {f : Filter} (h : Filter.Derives fields ts f) :
    f.IsMade := by
  cases h with
  | intro _ _ _ _ hmake => exact ⟨_, _, _, hmake⟩

mutual

theorem Item.Derives.built {join : Option Connective} {ts : List Token} {i : Item} {n : Nat} :
    Item.Derives fields join ts i n → i.Built
  | .leaf _ hf => .leaf join _ hf.isMade
  | .group _ he => .group join _ he.built

theorem Item.Joined.built {ts : List Token} {is : List Item} {n : Nat} :
    Item.Joined fields ts is n → ∀ i ∈ is, i.Built
  | .nil => List.forall_mem_nil _
  | .cons _ hi his => List.forall_mem_cons.2 ⟨hi.built, his.built⟩

/-- **What some tokens write is built**, under a limit that leaves room for each of its lists. -/
theorem Expr.Derives.built {ts : List Token} {items : List Item} {n : Nat} :
    Expr.Derives fields ts items n → Expr.Built ⟨items⟩
  | .intro hi his => by
    have hof := (Expr.ofItems_eq_ok_iff hi.join_eq his.join_isSome).2 ⟨Nat.le_refl _, rfl⟩
    exact .ofItems (List.forall_mem_cons.2 ⟨hi.built, his.built⟩) hof

end

end Written

/-- **What is read from a text is built.** -/
theorem Expr.built_of_read {g : Grammar} {text : String} {e : Expr} (h : read g text = .ok e) :
    e.Built := by
  obtain ⟨ts, n, -, hd, -⟩ := read_eq_ok_iff.1 h
  exact hd.built

end SearchDsl
