import SearchDsl.Proofs.Expr.Built
import SearchDsl.Proofs.Expr.Parentheses
import SearchDsl.Proofs.Expr.Resolved
import SearchDsl.Sorting.Reader

/-!
# The grammar of sorts

Which rows of tokens write a sort, given without any reader. `fields` stands for what is known about
fields, and a field has to be fit for its item as far as its type is known (`Field.HasPlaces`,
`Field.IsSortable`, `Field.IsScoped`).

* `Token.Directs`: a direction or nothing;
* `SortItem.Follows`: what may stand behind the name of a field, and the item that it makes;
* `SortItem.Derives` and `Sorting.Derives`: an item, and items with commas between them, each with
  the number of fragments that are counted for its filter.

`SortItem.Derives.filtered` says what an item with a filter is like: it sorts by the value of a
field inside nested documents, and the tokens of its filter write an expression.
-/

namespace SearchDsl

namespace Field

/-- There are places to measure distances to, as far as the type of the field is known. -/
def HasPlaces (f : Field) : Prop := ∀ t, f.type? = some t → t.isGeo = true

/-- There are values to sort by, as far as the type of the field is known. -/
def IsSortable (f : Field) : Prop :=
  ∀ t, f.type? = some t → t.isGeo = false ∧ t.supportsSorting = true

/-- The field lies inside nested documents, as far as its types are known. -/
def IsScoped (f : Field) : Prop := f.isTyped = true → f.nestedPaths ≠ []

end Field

/-- The tokens are a direction or nothing. -/
inductive Token.Directs : List Token → Option Direction → Prop
  | absent : Directs [] none
  | present {w : String} {d : Direction} : Direction.ofWord? w = some d → Directs [.word w] (some d)

/-- The tokens behind the name of a field make an item of it. -/
inductive SortItem.Follows (fields : String → Except Error Field) (field : Field) :
    List Token → SortItem → Nat → Prop
  | score {ds : List Token} {d : Option Direction} :
      field.isScore = true → Token.Directs ds d →
      SortItem.Follows fields field ds (.byScore field) 0
  | distance {t : Token} {vs ds : List Token} {v : Value} {origin : GeoPoint}
      {d : Option Direction} :
      field.isScore = false → t.isKeyword "NEAR" = true → Value.Derives 2 vs v →
      v.toPoint = .ok origin → field.HasPlaces → Token.Directs ds d →
      SortItem.Follows fields field (t :: (vs ++ ds))
        (.byDistance field origin (d.getD .ascending)) 0
  | value {ds : List Token} {d : Option Direction} :
      field.isScore = false → field.IsSortable → Token.Directs ds d →
      SortItem.Follows fields field ds (.byValue field (d.getD .ascending)) 0
  | filtered {t : Token} {ds es : List Token} {d : Option Direction} {e : Expr} {n : Nat} :
      field.isScore = false → field.IsSortable → Token.Directs ds d →
      t.isKeyword "sortFilter" = true → Expr.Derives fields es e.items n →
      field.IsScoped →
      SortItem.Follows fields field (ds ++ t :: .colon :: es)
        { SortItem.byValue field (d.getD .ascending) with filter := some e } n

/-- The tokens write the item. -/
inductive SortItem.Derives (fields : String → Except Error Field) :
    List Token → SortItem → Nat → Prop
  | intro {name : String} {field : Field} {ts : List Token} {i : SortItem} {n : Nat} :
      Token.IsFieldName name → fields name = .ok field → SortItem.Follows fields field ts i n →
      SortItem.Derives fields (.word name :: ts) i n

/-- The tokens write the items, each with its count, with commas between them. -/
def Sorting.Derives (fields : String → Except Error Field) :
    List Token → List (SortItem × Nat) → Prop :=
  Separated fun ts p => SortItem.Derives fields ts p.1 p.2

/-! ### Keywords and directions -/

/-- A direction is no keyword of sorts. -/
theorem Token.Directs.isKeyword {ds : List Token} {d : Option Direction} (h : Directs ds d)
    {k : String} (hk : k ∈ ["NEAR", "sortFilter"]) : ∀ t ∈ ds, t.isKeyword k = false := by
  intro t ht
  cases h with
  | absent => cases ht
  | @present w d hw =>
    obtain rfl := List.mem_singleton.1 ht
    cases hword : (Token.word w).isKeyword k with
    | false => rfl
    | true =>
      have hletters : k.toList.all Char.isAlpha = true ∧ Direction.ofWord? k = none := by
        simp only [List.mem_cons, List.not_mem_nil, or_false] at hk
        rcases hk with rfl | rfl <;> decide
      rw [direction_of_isKeyword hword hletters.1, hletters.2] at hw
      cases hw

/-! ### What is known about an item -/

namespace SortItem

variable {fields : String → Except Error Field} {ts : List Token} {i : SortItem} {n : Nat}

theorem Follows.field_eq {field : Field} (h : Follows fields field ts i n) : i.field = field := by
  cases h <;> rfl

theorem Derives.head (h : Derives fields ts i n) :
    ∃ w us, ts = .word w :: us ∧ Token.IsFieldName w := by
  cases h with
  | intro hname _ _ => exact ⟨_, _, rfl, hname⟩

/-- The field of an item is one that its name stands for. -/
theorem Derives.exists_name (h : Derives fields ts i n) : ∃ name, fields name = .ok i.field := by
  cases h with
  | intro _ hfield hi => exact ⟨_, hi.field_eq.symm ▸ hfield⟩

/-- What sorts by relevance has its name. -/
theorem Derives.isScore (h : Derives fields ts i n) (hkey : i.key = .score) :
    i.field.isScore = true := by
  cases h with
  | intro _ _ hi =>
    cases hi with
    | score hscore _ => exact hscore
    | _ => cases hkey

/-- **An item with a filter** sorts by the value of a field inside nested documents, as far as is
known, and some of its tokens write the filter. -/
theorem Derives.filtered (h : Derives fields ts i n) {e : Expr} (he : i.filter = some e) :
    i.key = .value ∧ i.field.IsScoped ∧ ∃ us, Expr.Derives fields us e.items n := by
  cases h with
  | intro _ _ hi =>
    cases hi with
    | filtered _ _ _ _ hd hscoped =>
      cases he
      exact ⟨rfl, hscoped, _, hd⟩
    | _ => cases he

/-- The filter of an item is built. -/
theorem Derives.built (h : Derives fields ts i n) {e : Expr} (he : i.filter = some e) :
    e.Built := by
  obtain ⟨-, -, us, hd⟩ := h.filtered he
  exact hd.built

/-- Every part of the filter of an item has been counted. -/
theorem Derives.size_le (h : Derives fields ts i n) {e : Expr} (he : i.filter = some e) :
    e.size ≤ n := by
  obtain ⟨-, -, us, hd⟩ := h.filtered he
  exact hd.size_le

end SortItem
end SearchDsl
