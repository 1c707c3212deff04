import SearchDsl.Expr.Reader
import SearchDsl.Proofs.Schema.Alike

/-!
# What a limit of fragments changes

A smaller limit never changes what is read, or which fault is found first: it can only put the
refusal of too many fragments in its place, with a count beyond it. `Curbed limit x y` says so of
two outcomes, and a step after a curbed one leaves it curbed (`Curbed.bind`), so that it is enough
to look at the two places where fragments are counted.

* `Reading.curbed`: the three readers of expressions under two limits;
* `Expr.read_curbed`: whole texts.
-/

namespace SearchDsl

variable {α β : Type} {limit : Nat}

/-- The first outcome is the second one, or the refusal of more fragments than the limit. -/
def Curbed (limit : Nat) (x y : Except Error α) : Prop :=
  x = y ∨ ∃ count, limit < count ∧ x = .error (.tooManyFragments count limit)

theorem Curbed.refl (x : Except Error α) : Curbed limit x x := .inl rfl

theorem Curbed.bind {x y : Except Error α} {f h : α → Except Error β} (hxy : Curbed limit x y)
    (hfh : ∀ a, Curbed limit (f a) (h a)) : Curbed limit (x >>= f) (y >>= h) := by
  rcases hxy with rfl | ⟨count, hcount, rfl⟩
  · cases x with
    | error e => exact .refl _
    | ok a => exact hfh a
  · exact .inr ⟨count, hcount, rfl⟩

theorem Curbed.ite {p : Prop} [Decidable p] {x x' y y' : Except Error α} (hx : Curbed limit x x')
    (hy : Curbed limit y y') : Curbed limit (if p then x else y) (if p then x' else y') := by
  split
  · exact hx
  · exact hy

theorem Expr.ofItems_curbed {max max' : Nat} (h : max ≤ max') (items : List Item) :
    Curbed max (ofItems max items) (ofItems max' items) := by
  cases items with
  | nil => exact .refl _
  | cons first rest =>
    by_cases hlt : max < (first :: rest).length
    · refine .inr ⟨(first :: rest).length, hlt, ?_⟩
      simp only [ofItems, if_pos hlt]
    · have hlt' : ¬ max' < (first :: rest).length := by omega
      refine .inl ?_
      simp only [ofItems, if_neg hlt, if_neg hlt']

namespace Reading

variable {g g' : Grammar}

theorem count_curbed (h : g.limit ≤ g'.limit) (n : Nat) (r : Reading) :
    Curbed g.limit (r.count g n) (r.count g' n) := by
  by_cases hlt : g.limit < r.fragments + n
  · refine .inr ⟨r.fragments + n, hlt, ?_⟩
    simp only [count, if_pos hlt]
  · have hlt' : ¬ g'.limit < r.fragments + n := by omega
    refine .inl ?_
    simp only [count, if_neg hlt, if_neg hlt']

/-- **A smaller limit can only refuse.** -/
theorem curbed (hresolve : resolve g = resolve g') (hlimit : g.limit ≤ g'.limit) (fuel : Nat) :
    (∀ r : Reading, Curbed g.limit (r.expr g fuel) (r.expr g' fuel)) ∧
      (∀ r : Reading, Curbed g.limit (r.joinedItems g fuel) (r.joinedItems g' fuel)) ∧
      ∀ (join : Option Connective) (r : Reading),
        Curbed g.limit (r.item g fuel join) (r.item g' fuel join) := by
  induction fuel with
  | zero =>
    simp only [expr, joinedItems, item]
    exact ⟨fun _ => .refl _, fun _ => .refl _, fun _ _ => .refl _⟩
  | succ fuel ih =>
    obtain ⟨hexpr, hjoined, hitem⟩ := ih
    refine ⟨fun r => ?_, fun r => ?_, fun join r => ?_⟩
    · rw [expr, expr]
      refine .ite (.refl _) ?_
      refine (hitem none r).bind fun first => (hjoined first.2).bind fun more => ?_
      refine (Expr.ofItems_curbed hlimit _).bind fun e => ?_
      exact (count_curbed hlimit _ _).bind fun _ => .refl _
    · rw [joinedItems, joinedItems]
      cases connectiveOf? r.token with
      | none => exact .refl _
      | some c =>
        refine (Curbed.refl r.advance).bind fun r => ?_
        exact (hitem (some c) r).bind fun i => (hjoined i.2).bind fun _ => .refl _
    · rw [item, item]
      refine (Curbed.refl r.negation).bind fun negated => .ite ?_ ?_
      · refine (Curbed.refl negated.2.advance).bind fun r => .ite (.refl _) ?_
        exact (hexpr r).bind fun _ => .refl _
      · rw [filter_congr hresolve]
        refine (Curbed.refl (negated.2.filter g')).bind fun f => ?_
        exact (count_curbed hlimit _ _).bind fun _ => .refl _

end Reading

/-- **Under a smaller limit a text is read the same, or has too many fragments.** -/
theorem Expr.read_curbed {g g' : Grammar} (hresolve : Reading.resolve g = Reading.resolve g')
    (hlimit : g.limit ≤ g'.limit) (text : String) :
    Curbed g.limit (read g text) (read g' text) := by
  refine (Curbed.refl (Reading.start text)).bind fun r => .ite (.refl _) ?_
  obtain ⟨hexpr, -, -⟩ := Reading.curbed hresolve hlimit r.fuel
  exact (hexpr r).bind fun _ => .refl _

end SearchDsl
