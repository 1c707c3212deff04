import SearchDsl.Proofs.Expr.Built
import SearchDsl.Proofs.Filter.Query
import SearchDsl.Proofs.Query.Gathering

/-!
# The query of an expression says what the expression says

* `allSay_ofItems`: each item of made filters has an entry, and the entry makes the condition that
  the item makes;
* `holds_ofExpr`: an expression that was built from made filters, or read from a text, has a query,
  and the query holds of the documents that the expression holds of.
-/

namespace SearchDsl
namespace Query

/-- The connectives that the items of a list count under, the first one under the given one. -/
def connectivesFrom (c : Connective) : List Item → List Connective
  | [] => []
  | _ :: is => c :: is.map fun i => i.join.getD .and

theorem connectivesFrom_firstConnective (items : List Item) :
    connectivesFrom (firstConnective items) items = Item.connectives items := by
  cases items with
  | nil => rfl
  | cons i is =>
    cases is with
    | nil => cases h : i.join <;> simp [connectivesFrom, Item.connectives, firstConnective, h]
    | cons j js => simp [connectivesFrom, Item.connectives, firstConnective]

/-- Items after the first one count under their own connectives. -/
theorem connectivesFrom_head (is : List Item) :
    connectivesFrom ((is.head?.bind Item.join).getD .and) is =
      is.map fun i => i.join.getD .and := by
  cases is with
  | nil => rfl
  | cons i is => simp [connectivesFrom]

theorem says_ofFilter {s : Surroundings} {f : Filter} (h : f.IsMade) (c : Connective)
    (join : Option Connective) (negated : Bool) :
    ∃ entry, ofItem s c (.leaf join negated f) = .ok entry ∧
      Item.Says s c (.leaf join negated f) entry.condition := by
  obtain ⟨p, hp⟩ := ofFilter_of_isMade h s
  refine ⟨⟨c, negated != f.denies, s.remaining f.field.nestedPaths, primitive p⟩, ?_, ?_⟩
  · rw [ofItem, hp]
    rfl
  · have hasks : f.AsksOf s = fun d => (primitive p).holds d = true := by
      funext d
      simp [Filter.AsksOf, hp, holds]
    rw [Entry.condition, ← hasks]
    exact .leaf (rest_remaining s _)

mutual

/-- An item of made filters has an entry that makes what the item says. -/
theorem says_ofItem (s : Surroundings) (c : Connective) :
    (i : Item) → (∀ f ∈ i.leaves, f.IsMade) →
      ∃ entry, ofItem s c i = .ok entry ∧ i.Says s c entry.condition
  | .leaf join negated f, h => says_ofFilter (h f (by simp [Item.leaves])) c join negated
  | .group join negated items, h => by
    simp only [Item.leaves] at h
    obtain ⟨es, hes, hsay⟩ := allSay_ofItems s (firstConnective items) items h
    rw [connectivesFrom_firstConnective] at hsay
    refine ⟨⟨c, negated, [], bool (ofEntries es)⟩, ?_, ?_⟩
    · rw [ofItem, hes]
      rfl
    · have hasks : (fun d => (bool (ofEntries es)).holds d = true) =
          Condition.AllHold (es.map Entry.condition) := by
        funext d
        exact propext holds_ofEntries
      rw [Entry.condition, hasks]
      exact .group hsay

/-- Items of made filters have entries that make what the items say. -/
theorem allSay_ofItems (s : Surroundings) (c : Connective) :
    (items : List Item) → (∀ f ∈ Item.leavesOf items, f.IsMade) →
      ∃ es, ofItems s c items = .ok es ∧
        Item.AllSay s (connectivesFrom c items) items (es.map Entry.condition)
  | [], _ => ⟨[], rfl, .nil⟩
  | i :: is, h => by
    simp only [Item.leavesOf, List.mem_append] at h
    obtain ⟨entry, he, hsays⟩ := says_ofItem s c i fun f hf => h f (.inl hf)
    obtain ⟨es, hes, hsay⟩ := allSay_ofItems s ((is.head?.bind Item.join).getD .and) is
      fun f hf => h f (.inr hf)
    rw [connectivesFrom_head] at hsay
    refine ⟨entry :: es, ?_, .cons hsays hsay⟩
    rw [ofItems, he, ok_bind, hes]
    rfl

end

/-- **Compiling an expression keeps its meaning.** -/
theorem holds_ofExpr {e : Expr} (h : e.Built ∨ ∃ g text, Expr.read g text = .ok e)
    (s : Surroundings) :
    ∃ c, ofExpr s e = .ok c ∧ ∀ d, (bool c).holds d = true ↔ e.Holds s d := by
  have hb : e.Built := by
    rcases h with h | ⟨g, text, h⟩
    · exact h
    · exact Expr.built_of_read h
  obtain ⟨es, hes, hsay⟩ := allSay_ofItems s (firstConnective e.items) e.items hb.isMade
  rw [connectivesFrom_firstConnective] at hsay
  refine ⟨ofEntries es, ?_, fun d => ?_⟩
  · rw [ofExpr, hes]
    rfl
  · rw [holds_ofEntries, hsay.holds_iff]

/-- A filter on a nested field, and under OR the denial of a group with a filter that denies by
itself and the first filter again. -/
theorem holds_ofExpr_units :
    let kind : Filter := ⟨⟨["units", "kind"], some [.nested, .keyword], false⟩, .equal, .string "A"⟩
    let shut : Filter := ⟨⟨["open"], some [.boolean], false⟩, .notEqual, .bool true⟩
    let e : Expr := ⟨[.leaf none false kind, .group (some .or) true [.leaf none false shut,
      .leaf (some .or) true kind]]⟩
    (e.Built ∨ ∃ g text, Expr.read g text = .ok e) ∧
      ∃ c, ofExpr ⟨"10km", []⟩ e = .ok c ∧
        ∀ d, (bool c).holds d = true ↔ e.Holds ⟨"10km", []⟩ d := by
  intro kind shut e
  have hk : kind.IsMade := ⟨kind.field, .equal, .string "A", rfl⟩
  have hs : shut.IsMade := ⟨shut.field, .notEqual, .bool true, rfl⟩
  have hg : Expr.Built ⟨[.leaf none false shut, .leaf (some .or) true kind]⟩ := by
    refine @Expr.Built.ofItems 2 [.leaf none false shut, .leaf (some .or) true kind] _ ?_ rfl
    simp only [List.forall_mem_cons, List.not_mem_nil, false_implies, implies_true, and_true]
    exact ⟨.leaf _ _ hs, .leaf _ _ hk⟩
  have he : e.Built := by
    refine @Expr.Built.ofItems 2 e.items _ ?_ rfl
    simp only [e, List.forall_mem_cons, List.not_mem_nil, false_implies, implies_true, and_true]
    exact ⟨.leaf _ _ hk, .group _ _ hg⟩
  exact ⟨.inl he, holds_ofExpr (.inl he) _⟩

end Query
end SearchDsl
