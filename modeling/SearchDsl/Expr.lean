import SearchDsl.Distinct
import SearchDsl.Filter

/-!
# Expressions

An expression is a list of items, each a filter or a group of items, negated or not. Every item but
the first is joined to the one before it by a connective; there is no precedence among them. A group
in parentheses around nothing but one group is that group: `Expr.ofItems` takes such parentheses
away.

An expression has one canonical text, in which every list of items, the outermost one too, stands in
parentheses.
-/

namespace SearchDsl

/-- An item of an expression: a filter or a group. -/
inductive Item
  | leaf (join : Option Connective) (negated : Bool) (filter : Filter)
  | group (join : Option Connective) (negated : Bool) (items : List Item)
  deriving BEq, Repr

namespace Item

/-- How the item is joined to the one before it. -/
def join : Item → Option Connective
  | leaf j _ _ | group j _ _ => j

/-- The item is negated. -/
def negated : Item → Bool
  | leaf _ n _ | group _ n _ => n

/-- The item is a group. -/
def isGroup : Item → Bool
  | leaf .. => false
  | group .. => true

/-- A connective and a NOT in front of a text. -/
def withMarks (join : Option Connective) (negated : Bool) (text : String) : String :=
  (match join with
    | some c => c.name ++ " "
    | none => "") ++
  (if negated then "NOT " else "") ++ text

/-- The texts of items in parentheses. -/
def parenthesized (texts : List String) : String := "(" ++ " ".intercalate texts ++ ")"

mutual

/-- The number of filters and groups that the item is made of. -/
def size : Item → Nat
  | leaf .. => 1
  | group _ _ items => 1 + sizes items

/-- The number of filters and groups in a list of items. -/
def sizes : List Item → Nat
  | [] => 0
  | i :: is => i.size + sizes is

end

mutual

/-- The canonical text of the item. -/
def text : Item → String
  | leaf join negated filter => withMarks join negated filter.text
  | group join negated items => withMarks join negated (parenthesized (texts items))

/-- The canonical texts of a list of items. -/
def texts : List Item → List String
  | [] => []
  | i :: is => i.text :: texts is

end

mutual

/-- The filters of the item, from left to right. -/
def leaves : Item → List Filter
  | leaf _ _ filter => [filter]
  | group _ _ items => leavesOf items

/-- The filters of a list of items, from left to right. -/
def leavesOf : List Item → List Filter
  | [] => []
  | i :: is => i.leaves ++ leavesOf is

end

mutual

/-- The item without the types of its fields. -/
def untyped : Item → Item
  | leaf join negated filter => leaf join negated filter.untyped
  | group join negated items => group join negated (untypedOf items)

/-- A list of items without the types of their fields. -/
def untypedOf : List Item → List Item
  | [] => []
  | i :: is => i.untyped :: untypedOf is

end

end Item

/-- An expression. -/
structure Expr where
  items : List Item
  deriving BEq, Repr

namespace Expr

/-- How many filters and groups an expression may have if nothing else is set. -/
def maxFragments : Nat := 1024

/-- The place of the first item after the first one that has no connective. -/
def unjoined? (items : List Item) : Option Nat :=
  (items.tail.findIdx? fun i => i.join.isNone).map (· + 1)

theorem unjoined?_eq_none {first : Item} {more : List Item}
    (h : ∀ i ∈ more, i.join.isSome = true) : unjoined? (first :: more) = none := by
  simp only [unjoined?, List.tail_cons, Option.map_eq_none_iff, List.findIdx?_eq_none_iff]
  exact fun i hi => by simpa using h i hi

/-- The expression of at most `max` items, the first without and all others with a connective. A
single group that is not negated is itself the expression. -/
def ofItems (max : Nat) (items : List Item) : Except Error Expr :=
  match items with
  | [] => .error (.badRequest .emptyItems)
  | first :: _ =>
    if max < items.length then .error (.tooManyFragments items.length max)
    else if first.join.isSome then .error (.badRequest .leadingConnective)
    else match unjoined? items with
      | some i => .error (.badRequest (.missingConnective i))
      | none =>
        match items with
        | [.group _ false inner] => .ok ⟨inner⟩
        | _ => .ok ⟨items⟩

/-- The number of filters and groups below the expression. -/
def size (e : Expr) : Nat := Item.sizes e.items

/-- The canonical text. -/
def text (e : Expr) : String := Item.parenthesized (Item.texts e.items)

/-- The filters, from left to right. -/
def leaves (e : Expr) : List Filter := Item.leavesOf e.items

/-- A set of names, in order. -/
def nameSet (names : List String) : List String :=
  (distinctOn id names).mergeSort fun a b => decide (a ≤ b)

theorem mem_nameSet {names : List String} {name : String} :
    name ∈ nameSet names ↔ name ∈ names := by
  rw [nameSet, List.mem_mergeSort, mem_distinctOn_id]

/-- The names of the fields of all filters, in order. -/
def fieldNames (e : Expr) : List String := nameSet (e.leaves.map (·.field.name))

theorem mem_fieldNames {e : Expr} {name : String} :
    name ∈ e.fieldNames ↔ ∃ f ∈ e.leaves, f.field.name = name := by
  rw [fieldNames, mem_nameSet, List.mem_map]

/-- The names of the fields of all filters and of the fields that those lie below, in order. -/
def rootFieldNames (e : Expr) : List String := nameSet (e.leaves.flatMap (·.field.prefixes))

/-- The expression without the types of its fields. -/
def untyped (e : Expr) : Expr := ⟨Item.untypedOf e.items⟩

end Expr
end SearchDsl
