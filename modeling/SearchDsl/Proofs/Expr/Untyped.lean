import SearchDsl.Proofs.Expr.Resolved
import SearchDsl.Proofs.Field.Name

/-!
# Reading with a mapping and without one

A mapping gives fields their types, and refuses fields and values; the rest of an expression does
not depend on it. So the tokens that write an expression under a mapping write the one without types
otherwise (`Expr.Derives.untyped`), and the other way round where the mapping lets every filter
through (`Expr.Derives.exists_typed`).

* `Expr.exists_read_typed`: what is read without a mapping is read under it;
* `Expr.untyped_of_read`: what is read under a mapping is read without it.
-/

namespace SearchDsl

/-- Every name stands for the field that it spells, and no type is known. -/
def Reading.anyField (name : String) : Except Error Field := .ok (Field.ofName name)

/-- The names that stand for fields stand for those that they spell. -/
def Reading.SpellsFields (fields : String → Except Error Field) : Prop :=
  ∀ ⦃name field⦄, fields name = .ok field → field.untyped = Field.ofName name

/-- The filter is let through for what its name stands for. -/
def Filter.IsAccepted (fields : String → Except Error Field) (f : Filter) : Prop :=
  ∃ field, fields f.field.name = .ok field ∧ ∃ f', make field f.operator f.value = .ok f'

theorem Reading.spellsFields_resolve (g : Grammar) : SpellsFields (resolve g) := by
  intro name field h
  rw [Field.untyped, names_of_resolve h]
  rfl

variable {fields : String → Except Error Field}

/-! ### Filters -/

/-- A field without types takes every value in the shape of the operator. -/
theorem Filter.make_untyped {field : Field} {op : Operator} {v : Value} {f : Filter}
    (h : make field op v = .ok f) : make field.untyped op v = .ok f.untyped := by
  obtain ⟨rfl, rfl, hshape, -⟩ := make_eq_ok_iff.1 h
  exact make_eq_ok_iff.2 ⟨rfl, rfl, hshape, rfl⟩

theorem Filter.Derives.untyped (hfields : Reading.SpellsFields fields) {ts : List Token}
    {f : Filter} (h : Filter.Derives fields ts f) :
    Filter.Derives Reading.anyField ts f.untyped := by
  cases h with
  | intro hname hfield hop hv hmake =>
    have hmake := make_untyped hmake
    rw [hfields hfield] at hmake
    exact .intro hname rfl hop hv hmake

theorem Filter.Derives.exists_typed (hfields : Reading.SpellsFields fields) {ts : List Token}
    {f : Filter} (h : Filter.Derives Reading.anyField ts f) (haccepted : f.IsAccepted fields) :
    ∃ f', f'.untyped = f ∧ Filter.Derives fields ts f' := by
  cases h with
  | @intro name _ _ field op v _ hname hfield hop hv hmake =>
    cases hfield
    obtain ⟨hf, rfl, hshape, -⟩ := make_eq_ok_iff.1 hmake
    obtain ⟨field, hfield, f', hmake'⟩ := haccepted
    rw [hf, Field.name_ofName] at hfield
    obtain ⟨rfl, hop', hshape', hcheck⟩ := make_eq_ok_iff.1 hmake'
    -- The value already has the shape of the operator, so it is the same for the typed field.
    have hvalue : f'.value = f.value := Except.ok.inj (hshape'.symm.trans (shape_of_shape hshape))
    refine ⟨f', ?_, .intro hname hfield hop hv (make_eq_ok_iff.2 ⟨rfl, hop', ?_, hcheck⟩)⟩
    · show (⟨f'.field.untyped, f'.operator, f'.value⟩ : Filter) = f
      rw [hfields hfield, hop', hvalue, ← hf]
    · rw [hvalue]
      exact hshape

/-- The filter that has been let through is let through again without its types. -/
theorem Filter.Derives.isAccepted_untyped (hfields : Reading.SpellsFields fields)
    {ts : List Token} {f : Filter} (h : Filter.Derives fields ts f) :
    f.untyped.IsAccepted fields := by
  cases h with
  | @intro name _ _ field op v _ hname hfield hop hv hmake =>
    obtain ⟨rfl, rfl, hshape, hcheck⟩ := make_eq_ok_iff.1 hmake
    refine ⟨f.field, ?_, f, make_eq_ok_iff.2 ⟨rfl, rfl, shape_of_shape hshape, hcheck⟩⟩
    have hspelt : f.untyped.field.name = name := by
      show f.field.untyped.name = name
      rw [hfields hfield, Field.name_ofName]
    rw [hspelt]
    exact hfield

/-! ### Items -/

theorem Item.isGroup_untyped (i : Item) : i.untyped.isGroup = i.isGroup := by
  cases i <;> rfl

theorem Item.countP_isGroup_untypedOf (items : List Item) :
    (untypedOf items).countP isGroup = items.countP isGroup := by
  induction items with
  | nil => rfl
  | cons i is ih => rw [untypedOf, List.countP_cons, List.countP_cons, ih, isGroup_untyped]

mutual

theorem Item.leaves_untyped : ∀ i : Item, i.untyped.leaves = i.leaves.map Filter.untyped
  | .leaf .. => rfl
  | .group _ _ items => leavesOf_untypedOf items

/-- Without types there are the same filters without types. -/
theorem Item.leavesOf_untypedOf :
    ∀ items : List Item, leavesOf (untypedOf items) = (leavesOf items).map Filter.untyped
  | [] => rfl
  | i :: is => by
    rw [untypedOf, leavesOf, leaves_untyped i, leavesOf_untypedOf is, leavesOf, List.map_append]

end

/-- Parentheses are taken away whatever the types are. -/
theorem Expr.untypedOf_collapse (items : List Item) :
    Item.untypedOf (collapse items) = collapse (Item.untypedOf items) := by
  match items with
  | [] | [.leaf ..] | [.group _ true _] | [.group _ false _] => rfl
  | .leaf .. :: _ :: _ | .group _ true _ :: _ :: _ | .group _ false _ :: _ :: _ => rfl

mutual

theorem Item.Derives.untyped (hfields : Reading.SpellsFields fields) {join : Option Connective}
    {ts : List Token} {i : Item} {n : Nat} :
    Item.Derives fields join ts i n → Item.Derives Reading.anyField join ts i.untyped n
  | .leaf hn hf => .leaf hn (hf.untyped hfields)
  | .group hn he => .group hn (he.untyped hfields)

theorem Item.Joined.untyped (hfields : Reading.SpellsFields fields) {ts : List Token}
    {is : List Item} {n : Nat} :
    Item.Joined fields ts is n → Item.Joined Reading.anyField ts (Item.untypedOf is) n
  | .nil => .nil
  | .cons hc hi his => .cons hc (hi.untyped hfields) (his.untyped hfields)

/-- **Without a mapping the same tokens write the expression without types.** -/
theorem Expr.Derives.untyped (hfields : Reading.SpellsFields fields) {ts : List Token}
    {items : List Item} {n : Nat} :
    Expr.Derives fields ts items n → Expr.Derives Reading.anyField ts (Item.untypedOf items) n
  | .intro hi his => by
    have h := Expr.Derives.intro (hi.untyped hfields) (his.untyped hfields)
    rw [← Item.untypedOf, ← Expr.untypedOf_collapse, Item.countP_isGroup_untypedOf] at h
    exact h

end

mutual

theorem Item.Derives.exists_typed (hfields : Reading.SpellsFields fields)
    {join : Option Connective} {ts : List Token} {i : Item} {n : Nat} :
    Item.Derives Reading.anyField join ts i n →
      (∀ f ∈ i.leaves, f.IsAccepted fields) →
        ∃ i', i'.untyped = i ∧ Item.Derives fields join ts i' n
  | .leaf hn hf, haccepted => by
    obtain ⟨f', rfl, hf'⟩ := hf.exists_typed hfields (haccepted _ (List.mem_singleton_self _))
    exact ⟨.leaf join _ f', rfl, .leaf hn hf'⟩
  | .group hn he, haccepted => by
    obtain ⟨items', rfl, he'⟩ := he.exists_typed hfields haccepted
    exact ⟨.group join _ items', rfl, .group hn he'⟩

theorem Item.Joined.exists_typed (hfields : Reading.SpellsFields fields) {ts : List Token}
    {is : List Item} {n : Nat} :
    Item.Joined Reading.anyField ts is n → (∀ f ∈ Item.leavesOf is, f.IsAccepted fields) →
      ∃ is', Item.untypedOf is' = is ∧ Item.Joined fields ts is' n
  | .nil, _ => ⟨[], rfl, .nil⟩
  | .cons hc hi his, haccepted => by
    rw [Item.leavesOf, List.forall_mem_append] at haccepted
    obtain ⟨i', rfl, hi'⟩ := hi.exists_typed hfields haccepted.1
    obtain ⟨is', rfl, his'⟩ := his.exists_typed hfields haccepted.2
    exact ⟨i' :: is', rfl, .cons hc hi' his'⟩

/-- **The tokens of an expression without types write it under a mapping too**, if the mapping lets
every filter through. -/
theorem Expr.Derives.exists_typed (hfields : Reading.SpellsFields fields) {ts : List Token}
    {items : List Item} {n : Nat} :
    Expr.Derives Reading.anyField ts items n →
      (∀ f ∈ Item.leavesOf items, f.IsAccepted fields) →
        ∃ items', Item.untypedOf items' = items ∧ Expr.Derives fields ts items' n
  | .intro hi his, haccepted => by
    rw [Expr.leavesOf_collapse, Item.leavesOf, List.forall_mem_append] at haccepted
    obtain ⟨i', rfl, hi'⟩ := hi.exists_typed hfields haccepted.1
    obtain ⟨is', rfl, his'⟩ := his.exists_typed hfields haccepted.2
    rw [← Item.untypedOf, ← Expr.untypedOf_collapse, Item.countP_isGroup_untypedOf]
    exact ⟨_, rfl, .intro hi' his'⟩

end

/-! ### Texts -/

namespace Expr

variable {schema : Snapshot} {limit : Nat} {text : String} {e : Expr}

/-- **What is read under a mapping** is read without it too, but without types, and every filter has
the field that the mapping has for its name. -/
theorem untyped_of_read (h : read ⟨some schema, limit⟩ text = .ok e) :
    read ⟨none, limit⟩ text = .ok e.untyped ∧
      ∀ f ∈ e.leaves, schema.resolve f.field.name false = .ok f.field ∧
        f.untyped.IsAccepted (Reading.resolve ⟨some schema, limit⟩) := by
  obtain ⟨ts, n, hl, hd, hle⟩ := read_eq_ok_iff.1 h
  have hfields := Reading.spellsFields_resolve ⟨some schema, limit⟩
  refine ⟨read_eq_ok_iff.2 ⟨ts, n, hl, hd.untyped hfields, hle⟩, fun f hf => ⟨?_, ?_⟩⟩
  · obtain ⟨name, hname⟩ := exists_name_of_read h f hf
    have hresolve : schema.resolve name false = .ok f.field := hname
    rw [Snapshot.name_of_resolve hresolve]
    exact hresolve
  · obtain ⟨us, -, hus⟩ := hd.exists_filter f hf
    exact hus.isAccepted_untyped hfields

/-- **What is read without a mapping** is read under it if it lets every filter through. -/
theorem exists_read_typed (h : read ⟨none, limit⟩ text = .ok e)
    (haccepted : ∀ f ∈ e.leaves, f.IsAccepted (Reading.resolve ⟨some schema, limit⟩)) :
    ∃ e', read ⟨some schema, limit⟩ text = .ok e' ∧ e'.untyped = e := by
  obtain ⟨ts, n, hl, hd, hle⟩ := read_eq_ok_iff.1 h
  obtain ⟨items', hitems, hd'⟩ :=
    hd.exists_typed (Reading.spellsFields_resolve ⟨some schema, limit⟩) haccepted
  refine ⟨⟨items'⟩, read_eq_ok_iff.2 ⟨ts, n, hl, hd', hle⟩, ?_⟩
  rw [untyped, hitems]

end Expr
end SearchDsl
