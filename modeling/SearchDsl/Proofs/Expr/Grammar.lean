import SearchDsl.Proofs.Value.Literal
import SearchDsl.Expr.Reader

/-!
# The grammar of expressions

Which rows of tokens write an expression, given without any reader. `fields` stands for what is
known about fields: a name it refuses is no field.

* `Token.IsFieldName`, `Token.Negation` and `Token.Operates`: names of fields, a NOT and operators;
* `Filter.Derives`: a field, an operator and a literal that go together;
* `Item.Derives`, `Item.Joined` and `Expr.Derives`: an item, further items behind their connectives,
  and an expression, each with the number of fragments that are counted for it.

A group in parentheses around nothing but one group is that group (`Expr.collapse`). Filters are
counted one by one. Groups are counted where the expression around them is complete, in every
expression that they are the items of.
-/

namespace SearchDsl

/-- The word can be the name of a field: it is none of the words between and in front of items, and
no part of it is empty. -/
def Token.IsFieldName (w : String) : Prop :=
  (∀ k ∈ ["AND", "OR", "NOT"], (Token.word w).isKeyword k = false) ∧
    (splitDots w).any String.isEmpty = false

/-- The tokens in front of an item: a NOT or nothing. -/
inductive Token.Negation : List Token → Bool → Prop
  | absent : Negation [] false
  | present {t : Token} : t.isKeyword "NOT" = true → Negation [t] true

/-- The operator that a symbol stands for. -/
def Symbol.operator : Symbol → Operator
  | equals => .equal
  | angles | bangEquals => .notEqual
  | greater => .greaterThan
  | greaterEquals => .greaterOrEqual
  | less => .lessThan
  | lessEquals => .lessOrEqual

/-- The token stands for the operator: every symbol and the colon do for one, and the words for
operators. -/
inductive Token.Operates : Token → Operator → Prop
  | symbol (s : Symbol) : Operates (.symbol s) s.operator
  | colon : Operates .colon .equal
  | word {w : String} {op : Operator} : Operator.ofWord? w = some op → Operates (.word w) op

theorem Token.operates_iff {t : Token} {op : Operator} :
    t.Operates op ↔ Reading.operatorOf? t = some op := by
  constructor
  · rintro (s | - | h)
    · cases s <;> decide
    · rfl
    · exact h
  · intro h
    cases t with
    | symbol s =>
      have hs : Reading.operatorOf? (.symbol s) = some s.operator := by cases s <;> decide
      obtain rfl := Option.some.inj (hs.symm.trans h)
      exact .symbol s
    | colon =>
      cases h
      exact .colon
    | word w => exact .word h
    | _ => cases h

/-- The tokens write the filter. -/
inductive Filter.Derives (fields : String → Except Error Field) : List Token → Filter → Prop
  | intro {name : String} {t : Token} {vs : List Token} {field : Field} {op : Operator} {v : Value}
      {f : Filter} :
      Token.IsFieldName name → fields name = .ok field → t.Operates op →
      Value.Derives 2 vs v → Filter.make field op v = .ok f →
      Filter.Derives fields (.word name :: t :: vs) f

/-- The items of the expression that a list of items makes. -/
def Expr.collapse : List Item → List Item
  | [.group _ false items] => items
  | items => items

mutual

/-- The tokens write the item, which comes after the given connective. -/
inductive Item.Derives (fields : String → Except Error Field) :
    Option Connective → List Token → Item → Nat → Prop
  | leaf {join : Option Connective} {ns ts : List Token} {negated : Bool} {f : Filter} :
      Token.Negation ns negated → Filter.Derives fields ts f →
      Item.Derives fields join (ns ++ ts) (.leaf join negated f) 1
  | group {join : Option Connective} {ns ts : List Token} {negated : Bool} {items : List Item}
      {n : Nat} :
      Token.Negation ns negated → Expr.Derives fields ts items n →
      Item.Derives fields join (ns ++ .leftParen :: (ts ++ [.rightParen]))
        (.group join negated items) n

/-- The tokens write the items, each after its connective. -/
inductive Item.Joined (fields : String → Except Error Field) :
    List Token → List Item → Nat → Prop
  | nil : Item.Joined fields [] [] 0
  | cons {w : String} {c : Connective} {ts us : List Token} {i : Item} {is : List Item}
      {n m : Nat} :
      Connective.ofWord? w = some c → Item.Derives fields (some c) ts i n →
      Item.Joined fields us is m → Item.Joined fields (.word w :: (ts ++ us)) (i :: is) (n + m)

/-- The tokens write the expression of the items. -/
inductive Expr.Derives (fields : String → Except Error Field) :
    List Token → List Item → Nat → Prop
  | intro {ts us : List Token} {i : Item} {is : List Item} {n m : Nat} :
      Item.Derives fields none ts i n → Item.Joined fields us is m →
      Expr.Derives fields (ts ++ us) (Expr.collapse (i :: is))
        (n + m + (Expr.collapse (i :: is)).countP Item.isGroup)

end

variable {fields : String → Except Error Field}

/-! ### First tokens -/

/-- The token may be the first one of an item. -/
def Token.StartsItem (t : Token) : Prop :=
  t ≠ .rightParen ∧ t ≠ .eof ∧ Reading.connectiveOf? t = none

theorem Token.IsFieldName.startsItem {w : String} (h : IsFieldName w) :
    (Token.word w).StartsItem := by
  refine ⟨by simp, by simp, ?_⟩
  show Connective.ofWord? w = none
  cases hc : Connective.ofWord? w with
  | none => rfl
  | some c =>
    have hk := isKeyword_of_ofWord? hc
    rw [h.1 c.name (by cases c <;> decide)] at hk
    cases hk

theorem Token.startsItem_not {t : Token} (h : t.isKeyword "NOT" = true) : t.StartsItem := by
  cases t with
  | word w => exact ⟨by simp, by simp, connective_of_isKeyword_not h⟩
  | _ => cases h

theorem Filter.Derives.head {ts : List Token} {f : Filter} (h : Filter.Derives fields ts f) :
    ∃ w us, ts = .word w :: us ∧ Token.IsFieldName w := by
  cases h with
  | intro hname _ _ _ _ => exact ⟨_, _, rfl, hname⟩

theorem Item.Derives.head {join : Option Connective} {ts : List Token} {i : Item} {n : Nat}
    (h : Item.Derives fields join ts i n) : ∃ t us, ts = t :: us ∧ t.StartsItem := by
  cases h with
  | leaf hn hf =>
    cases hn with
    | absent =>
      obtain ⟨w, us, rfl, hname⟩ := hf.head
      exact ⟨_, _, rfl, hname.startsItem⟩
    | present ht => exact ⟨_, _, rfl, Token.startsItem_not ht⟩
  | group hn _ =>
    cases hn with
    | absent => exact ⟨_, _, rfl, by simp, by simp, rfl⟩
    | present ht => exact ⟨_, _, rfl, Token.startsItem_not ht⟩

theorem Expr.Derives.head {ts : List Token} {items : List Item} {n : Nat}
    (h : Expr.Derives fields ts items n) : ∃ t us, ts = t :: us ∧ t.StartsItem := by
  cases h with
  | intro hi _ =>
    obtain ⟨t, us, rfl, ht⟩ := hi.head
    exact ⟨t, _, rfl, ht⟩

/-! ### Connectives and counts -/

theorem Item.Derives.join_eq {join : Option Connective} {ts : List Token} {i : Item} {n : Nat}
    (h : Item.Derives fields join ts i n) : i.join = join := by
  cases h <;> rfl

theorem Item.Joined.join_isSome {ts : List Token} {is : List Item} {n : Nat} :
    Item.Joined fields ts is n → ∀ i ∈ is, i.join.isSome = true
  | .nil, _, h => by cases h
  | .cons _ hi his, j, h => by
    rcases List.mem_cons.1 h with rfl | h
    · rw [hi.join_eq]
      rfl
    · exact his.join_isSome j h

mutual

/-- Every item counts. -/
theorem Item.Derives.one_le {join : Option Connective} {ts : List Token} {i : Item} {n : Nat} :
    Item.Derives fields join ts i n → 1 ≤ n
  | .leaf _ _ => Nat.le_refl 1
  | .group _ he => he.one_le

theorem Expr.Derives.one_le {ts : List Token} {items : List Item} {n : Nat} :
    Expr.Derives fields ts items n → 1 ≤ n
  | .intro hi _ => by
    have := hi.one_le
    omega

end

theorem Item.Joined.length_le {ts : List Token} {is : List Item} {n : Nat} :
    Item.Joined fields ts is n → is.length ≤ n
  | .nil => Nat.le_refl 0
  | .cons _ hi his => by
    have := hi.one_le
    have := his.length_le
    simp only [List.length_cons]
    omega

end SearchDsl
