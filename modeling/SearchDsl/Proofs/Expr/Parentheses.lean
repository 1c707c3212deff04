import SearchDsl.Proofs.Expr.Reading
import SearchDsl.Proofs.Token.Breaks

/-!
# Parentheses around an expression

An expression in parentheses is the same expression, but it is not always counted in the same way:
the groups among its items are counted once more for every pair of parentheses around it.

* `Expr.Derives.unique`: the tokens of a text determine the items and the count;
* `Expr.Derives.size_le`: the count is at least the size of the expression;
* `Expr.read_enclose_iff`: how much the limit has to be for a text in parentheses;
* `Expr.limit_of_enclosed_group`: a text that is accepted and, in parentheses, is not.
-/

namespace SearchDsl

variable {fields : String → Except Error Field}

namespace Expr

/-- The number of groups among the items themselves. -/
def groupCount (e : Expr) : Nat := e.items.countP Item.isGroup

/-- The text in some pairs of parentheses. -/
def enclose : Nat → String → String
  | 0, text => text
  | k + 1, text => "(" ++ enclose k text ++ ")"

/-- **An expression in parentheses**: the same items, but its groups are counted again. -/
theorem Derives.enclose {ts : List Token} {items : List Item} {n : Nat}
    (h : Derives fields ts items n) :
    Derives fields (.leftParen :: (ts ++ [.rightParen])) items (n + items.countP Item.isGroup) := by
  simpa [collapse] using Derives.intro (.group .absent h) .nil

/-- The tokens of a text in some pairs of parentheses, and what they write. -/
theorem Derives.exists_enclose {text : String} {ts : List Token} {items : List Item} {n : Nat}
    (hl : Lexeme.Lexes text.toList ts) (h : Derives fields ts items n) (k : Nat) :
    ∃ us, Lexeme.Lexes (Expr.enclose k text).toList us ∧
      Derives fields us items (n + k * items.countP Item.isGroup) := by
  induction k with
  | zero => exact ⟨ts, hl, by simpa using h⟩
  | succ k ih =>
    obtain ⟨us, hus, hd⟩ := ih
    refine ⟨.leftParen :: (us ++ [.rightParen]), ?_, ?_⟩
    · simpa [Expr.enclose] using hus.parentheses
    · simpa [Nat.succ_mul, Nat.add_assoc] using hd.enclose

/-- **The tokens of a text determine the items and how many fragments are counted.** -/
theorem Derives.unique {g : Grammar} {text : String} {ts : List Token} {is js : List Item}
    {n m : Nat} (hl : Lexeme.Lexes text.toList ts) (h : Derives (Reading.resolve g) ts is n)
    (h' : Derives (Reading.resolve g) ts js m) : is = js ∧ n = m := by
  -- Under a limit wide enough for both, each is what the one run of the reader answers.
  let wide : Grammar := ⟨g.schema, max n m⟩
  obtain ⟨-, -, spec⟩ := Reading.specs wide (Reading.opening text).fuel
  have run : ∀ {items : List Item} {k : Nat}, Derives (Reading.resolve g) ts items k → k ≤ max n m →
      ∃ r', (Reading.opening text).expr wide (Reading.opening text).fuel = .ok (⟨items⟩, r') ∧
        r'.fragments = k := by
    intro items k hd hle
    obtain ⟨r', hp, hend⟩ := Reading.passes_of_lexes hl k
    have hk : r'.fragments = k := by rw [hp.fragments]; exact Nat.zero_add k
    have htoken : r'.token = .eof := Reading.token_of_contents hend
    refine ⟨r', (spec hp.before (Nat.le_refl _)).2 ⟨⟨ts, k, hd, hp⟩, ?_, ?_⟩, hk⟩
    · rw [htoken]
      rfl
    · rw [hk]
      exact hle
  obtain ⟨r₁, h₁, rfl⟩ := run h (Nat.le_max_left n m)
  obtain ⟨r₂, h₂, rfl⟩ := run h' (Nat.le_max_right _ m)
  cases h₁.symm.trans h₂
  exact ⟨rfl, rfl⟩

end Expr

/-! ### Size and count -/

/-- Parentheses that are taken away are not part of the size. -/
theorem Item.sizes_collapse (items : List Item) :
    Expr.collapse items = items ∨
      sizes (Expr.collapse items) + items.countP isGroup ≤ sizes items := by
  unfold Expr.collapse
  split
  · rename_i join inner
    right
    have hgroup : [Item.group join false inner].countP isGroup = 1 := rfl
    have hsize : sizes [Item.group join false inner] = 1 + sizes inner := rfl
    omega
  · exact .inl rfl

theorem Item.one_le_size (i : Item) : 1 ≤ i.size := by
  cases i <;> simp [size]

theorem Item.sizes_cons (i : Item) (is : List Item) : sizes (i :: is) = i.size + sizes is := rfl

theorem Item.countP_isGroup_cons (i : Item) (is : List Item) :
    (i :: is).countP isGroup = [i].countP isGroup + is.countP isGroup :=
  @List.countP_append _ isGroup [i] is

mutual

theorem Item.Derives.size_le {join : Option Connective} {ts : List Token} {i : Item} {n : Nat} :
    Item.Derives fields join ts i n → i.size ≤ n + [i].countP Item.isGroup
  | .leaf _ _ => by simp [Item.size]
  | .group _ he => by
    have := he.size_le
    simp [Item.size, Item.isGroup]
    omega

theorem Item.Joined.size_le {ts : List Token} {is : List Item} {n : Nat} :
    Item.Joined fields ts is n → Item.sizes is ≤ n + is.countP Item.isGroup
  | .nil => Nat.le_refl 0
  | @Item.Joined.cons _ _ _ _ _ i is _ _ _ hi his => by
    have h₁ := hi.size_le
    have h₂ := his.size_le
    have h₃ := Item.countP_isGroup_cons i is
    simp only [Item.sizes]
    omega

/-- **Every filter and every group of an expression has been counted at least once.** -/
theorem Expr.Derives.size_le {ts : List Token} {items : List Item} {n : Nat} :
    Expr.Derives fields ts items n → Item.sizes items ≤ n
  | @Expr.Derives.intro _ _ _ i is _ _ hi his => by
    have h₁ := hi.size_le
    have h₂ := his.size_le
    have h₃ := Item.countP_isGroup_cons i is
    have h₄ := Item.sizes_cons i is
    rcases Item.sizes_collapse (i :: is) with heq | hle
    · rw [heq]
      omega
    · omega

end

/-! ### Limits -/

namespace Expr

/-- **What parentheses cost.** A text that holds an expression holds the same expression in any
number of parentheses, under every limit that leaves room for counting the groups among its items
once more for each pair. So parentheses are free, under every limit, just for expressions without
groups among their items. -/
theorem read_enclose_iff {schema : Option Snapshot} {m : Nat} {text : String} {e : Expr}
    (h : read ⟨schema, m⟩ text = .ok e) :
    (∃ n, e.size ≤ n ∧ n ≤ m ∧
      ∀ k limit, read ⟨schema, limit⟩ (enclose k text) = .ok e ↔ n + k * e.groupCount ≤ limit) ∧
    ((∀ limit, read ⟨schema, limit⟩ text = .ok e → read ⟨schema, limit⟩ (enclose 1 text) = .ok e) ↔
      e.groupCount = 0) := by
  -- The tokens fix the count, so the limit decides alone.
  obtain ⟨ts, n, hl, hd, hle⟩ := read_eq_ok_iff.1 h
  have cost : ∀ k limit, read ⟨schema, limit⟩ (enclose k text) = .ok e ↔
      n + k * e.groupCount ≤ limit := by
    intro k limit
    obtain ⟨us, hus, hk⟩ := hd.exists_enclose hl k
    constructor
    · intro hr
      obtain ⟨vs, m, hvs, hm, hlimit⟩ := read_eq_ok_iff.1 hr
      obtain rfl := hus.unique hvs
      obtain ⟨-, rfl⟩ := Derives.unique (g := ⟨schema, limit⟩) hus hk hm
      exact hlimit
    · intro hlimit
      exact read_eq_ok_iff.2 ⟨us, _, hus, hk, hlimit⟩
  refine ⟨⟨n, hd.size_le, hle, cost⟩, ?_⟩
  constructor
  · intro hfree
    have := (cost 1 n).1 (hfree n ((cost 0 n).2 (by omega)))
    omega
  · intro hzero limit hr
    refine (cost 1 limit).2 ?_
    have := (cost 0 limit).1 hr
    omega

/-- An expression with a group, and room for four fragments. -/
theorem read_enclose_iff_group :
    ∃ e, read ⟨none, 4⟩ "(a EQ 1 OR b EQ 2) AND c EQ 3" = .ok e ∧
      (∃ n, e.size ≤ n ∧ n ≤ 4 ∧
        ∀ k limit, read ⟨none, limit⟩ (enclose k "(a EQ 1 OR b EQ 2) AND c EQ 3") = .ok e ↔
          n + k * e.groupCount ≤ limit) ∧
      ((∀ limit, read ⟨none, limit⟩ "(a EQ 1 OR b EQ 2) AND c EQ 3" = .ok e →
        read ⟨none, limit⟩ (enclose 1 "(a EQ 1 OR b EQ 2) AND c EQ 3") = .ok e) ↔
          e.groupCount = 0) := by
  have hok : (read ⟨none, 4⟩ "(a EQ 1 OR b EQ 2) AND c EQ 3").isOk = true := by decide +kernel
  cases h : read ⟨none, 4⟩ "(a EQ 1 OR b EQ 2) AND c EQ 3" with
  | error err =>
    rw [h] at hok
    cases hok
  | ok e => exact ⟨e, rfl, read_enclose_iff h⟩

/-- **A text that is accepted and, in parentheses, is not**: four fragments are counted for it, and
its group once more for the parentheses. -/
theorem limit_of_enclosed_group :
    ¬ ∀ (schema : Option Snapshot) (limit : Nat) (text : String) (e : Expr),
      read ⟨schema, limit⟩ text = .ok e → read ⟨schema, limit⟩ ("(" ++ text ++ ")") = .ok e := by
  intro hall
  have hok : (read ⟨none, 4⟩ "(a EQ 1 OR b EQ 2) AND c EQ 3").isOk = true := by decide +kernel
  have hno : (read ⟨none, 4⟩ ("(" ++ "(a EQ 1 OR b EQ 2) AND c EQ 3" ++ ")")).isOk = false := by
    decide +kernel
  cases h : read ⟨none, 4⟩ "(a EQ 1 OR b EQ 2) AND c EQ 3" with
  | error err =>
    rw [h] at hok
    cases hok
  | ok e =>
    rw [hall _ _ _ _ h] at hno
    cases hno

end Expr
end SearchDsl
