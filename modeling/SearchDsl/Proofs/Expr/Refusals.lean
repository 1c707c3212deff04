import SearchDsl.Expr.Reader
import SearchDsl.Proofs.Outcome

/-!
# What the readers refuse

Each reader refuses a text by errors of a few kinds. `FailsOnly kinds x` says so of an outcome, and
a step after such an outcome keeps it so (`FailsOnly.bind`), so that each reader is looked at once.

* `Reading.failsOnly_filter`: a filter;
* `Expr.failsOnly_ofItems`: items as they are read are refused for their number only;
* `Expr.failsOnly_read`: whole texts.
-/

namespace SearchDsl

variable {α β : Type} {kinds : List String}

/-- The outcome is a result or an error of one of the kinds. -/
def FailsOnly (kinds : List String) (x : Except Error α) : Prop :=
  ∀ e, x = .error e → e.kind ∈ kinds

namespace FailsOnly

theorem ok (a : α) : FailsOnly kinds (.ok a) := nofun

theorem error {e : Error} (h : e.kind ∈ kinds) : FailsOnly kinds (.error e : Except Error α) := by
  rintro _ ⟨⟩
  exact h

theorem mono {kinds' : List String} {x : Except Error α} (hx : FailsOnly kinds x)
    (h : kinds ⊆ kinds') : FailsOnly kinds' x :=
  fun e he => h (hx e he)

theorem bind {x : Except Error α} {f : α → Except Error β} (hx : FailsOnly kinds x)
    (hf : ∀ a, x = .ok a → FailsOnly kinds (f a)) : FailsOnly kinds (x >>= f) := by
  cases x with
  | error e => exact error (hx e rfl)
  | ok a => exact hf a rfl

theorem ite {p : Prop} [Decidable p] {x y : Except Error α} (hx : FailsOnly kinds x)
    (hy : FailsOnly kinds y) : FailsOnly kinds (if p then x else y) := by
  split
  · exact hx
  · exact hy

theorem foldlM {f : β → α → Except Error β} (hf : ∀ b a, FailsOnly kinds (f b a)) (as : List α)
    (b : β) : FailsOnly kinds (as.foldlM f b) := by
  induction as generalizing b with
  | nil => exact ok b
  | cons a as ih =>
    rw [List.foldlM_cons]
    exact (hf b a).bind fun b _ => ih b

theorem forM {f : α → Except Error Unit} (hf : ∀ a, FailsOnly kinds (f a)) (as : List α) :
    FailsOnly kinds (as.forM f) := by
  induction as with
  | nil => exact ok ()
  | cons a as ih =>
    show FailsOnly kinds (f a >>= fun _ => as.forM f)
    exact (hf a).bind fun _ _ => ih

end FailsOnly

theorem Snapshot.failsOnly_resolve (h : "invalid_field" ∈ kinds) (s : Snapshot) (name : String)
    (allowWildcard : Bool) : FailsOnly kinds (s.resolve name allowWildcard) := by
  refine .ite (.ite (.ok _) (.error h)) (.ite (.ok _) ?_)
  split
  · exact .ok _
  · exact .error h

theorem Filter.failsOnly_make (h : "invalid_value" ∈ kinds) (field : Field) (op : Operator)
    (v : Value) : FailsOnly kinds (make field op v) := by
  unfold make
  split
  · exact .error h
  · split
    · exact .error h
    · exact .ok _

namespace Reading

/-! ### Tokens -/

section Tokens

variable (htext : "syntax_error" ∈ kinds)

include htext

/-- The faults of a text are of one kind. -/
theorem failsOnly_fault (r : Reading) (f : TextFault) :
    FailsOnly kinds (.error (r.fault f) : Except Error α) :=
  .error htext

theorem failsOnly_settle (r : Reading) : FailsOnly kinds r.settle := by
  unfold settle
  split
  · exact failsOnly_fault htext _ _
  · exact .ok _

theorem failsOnly_start (text : String) : FailsOnly kinds (start text) :=
  failsOnly_settle htext _

theorem failsOnly_advance (r : Reading) : FailsOnly kinds r.advance := by
  unfold advance
  split
  · exact failsOnly_settle htext _
  · exact .ok _

theorem failsOnly_expect (r : Reading) (t : Token) : FailsOnly kinds (r.expect t) :=
  .ite (failsOnly_advance htext r) (failsOnly_fault htext _ _)

theorem failsOnly_fieldName (r : Reading) : FailsOnly kinds r.fieldName := by
  unfold fieldName
  split
  · exact .ite (failsOnly_fault htext _ _) (.ite (failsOnly_fault htext _ _) (.ok _))
  · exact failsOnly_fault htext _ _

theorem failsOnly_operator (r : Reading) : FailsOnly kinds r.operator := by
  unfold operator
  split
  · exact (failsOnly_advance htext r).bind fun _ _ => .ok _
  · exact failsOnly_fault htext _ _

theorem failsOnly_negation (r : Reading) : FailsOnly kinds r.negation :=
  .ite ((failsOnly_advance htext r).bind fun _ _ => .ite (failsOnly_fault htext _ _) (.ok _))
    (.ok _)

theorem failsOnly_commaList {element : Reading → Except Error (α × Reading)}
    (helement : ∀ r, FailsOnly kinds (element r)) (fuel : Nat) (r : Reading) :
    FailsOnly kinds (commaList element fuel r) := by
  induction fuel generalizing r with
  | zero => exact .ok _
  | succ fuel ih =>
    refine (helement r).bind fun a _ => .ite ?_ (.ok _)
    exact (failsOnly_advance htext a.2).bind fun r _ => (ih r).bind fun _ _ => .ok _

theorem failsOnly_valueWithin (levels : Nat) (r : Reading) :
    FailsOnly kinds (valueWithin levels r) := by
  induction levels generalizing r with
  | zero =>
    unfold valueWithin
    split
    · exact (failsOnly_advance htext r).bind fun _ _ => .ok _
    · exact .ite (failsOnly_fault htext _ _) (failsOnly_fault htext _ _)
  | succ levels ih =>
    unfold valueWithin
    split
    · exact (failsOnly_advance htext r).bind fun _ _ => .ok _
    · refine .ite ?_ (failsOnly_fault htext _ _)
      refine (failsOnly_advance htext r).bind fun r _ => .ite (failsOnly_fault htext _ _) ?_
      refine (failsOnly_commaList htext ih _ _).bind fun items _ => ?_
      exact (failsOnly_expect htext _ _).bind fun _ _ => .ok _

end Tokens

/-! ### Fields and filters -/

variable {g : Grammar}

theorem failsOnly_resolve (h : "invalid_field" ∈ kinds) (name : String) :
    FailsOnly kinds (resolve g name) := by
  unfold resolve
  split
  · exact Snapshot.failsOnly_resolve h _ _ _
  · exact .ok _

theorem failsOnly_field (htext : "syntax_error" ∈ kinds) (hfield : "invalid_field" ∈ kinds)
    (r : Reading) : FailsOnly kinds (r.field g) := by
  refine (failsOnly_fieldName htext r).bind fun name _ => ?_
  refine (failsOnly_advance htext r).bind fun r _ => ?_
  exact (failsOnly_resolve hfield name).bind fun _ _ => .ok _

/-- **A filter** is refused for its text, its field or its value. -/
theorem failsOnly_filter (r : Reading) :
    FailsOnly ["syntax_error", "invalid_field", "invalid_value"] (r.filter g) := by
  refine (failsOnly_field (by simp) (by simp) r).bind fun field _ => ?_
  refine (failsOnly_operator (by simp) field.2).bind fun op _ => ?_
  refine (failsOnly_valueWithin (by simp) _ op.2).bind fun v _ => ?_
  exact (Filter.failsOnly_make (by simp) _ _ _).bind fun _ _ => .ok _

theorem failsOnly_count (h : "fragment_limit_exceeded" ∈ kinds) (n : Nat) (r : Reading) :
    FailsOnly kinds (r.count g n) :=
  .ite (.error h) (.ok _)

end Reading

/-! ### Expressions -/

/-- **Items of which just the first has no connective** are refused for their number only. -/
theorem Expr.failsOnly_ofItems (max : Nat) {first : Item} {more : List Item}
    (hfirst : first.join = none) (hmore : ∀ i ∈ more, i.join.isSome = true) :
    FailsOnly ["fragment_limit_exceeded"] (ofItems max (first :: more)) := by
  simp only [ofItems, hfirst, unjoined?_eq_none hmore, Option.isSome_none, Bool.false_eq_true,
    if_false]
  refine .ite (.error (List.mem_singleton_self _)) ?_
  split <;> exact .ok _

namespace Reading

variable {g : Grammar}

theorem join_of_item {fuel : Nat} {join : Option Connective} {r r' : Reading} {i : Item}
    (h : r.item g fuel join = .ok (i, r')) : i.join = join := by
  cases fuel with
  | zero => simp [item] at h
  | succ fuel =>
    simp only [item, bind_eq_ok, Prod.exists] at h
    obtain ⟨negated, r₁, -, h⟩ := h
    split at h
    · obtain ⟨r₂, -, h⟩ := bind_eq_ok.1 h
      split at h
      · cases h
      · simp only [bind_eq_ok, pure_eq_ok, Prod.exists, Prod.mk.injEq] at h
        obtain ⟨e, r₃, -, -, -, rfl, -⟩ := h
        rfl
    · simp only [bind_eq_ok, pure_eq_ok, Prod.exists, Prod.mk.injEq] at h
      obtain ⟨f, r₃, -, -, -, rfl, -⟩ := h
      rfl

theorem join_of_joinedItems {fuel : Nat} {r r' : Reading} {is : List Item}
    (h : r.joinedItems g fuel = .ok (is, r')) : ∀ i ∈ is, i.join.isSome = true := by
  induction fuel generalizing r is with
  | zero => simp [joinedItems] at h
  | succ fuel ih =>
    rw [joinedItems] at h
    split at h
    · simp only [pure_eq_ok, Prod.mk.injEq] at h
      obtain ⟨rfl, -⟩ := h
      simp
    · simp only [bind_eq_ok, pure_eq_ok, Prod.exists, Prod.mk.injEq] at h
      obtain ⟨r₁, -, i, r₂, hi, js, r₃, hjs, rfl, rfl⟩ := h
      refine List.forall_mem_cons.2 ⟨?_, ih hjs⟩
      rw [join_of_item hi]
      rfl

/-- The kinds of errors by which an expression is refused. -/
def exprKinds : List String :=
  ["syntax_error", "invalid_field", "invalid_value", "fragment_limit_exceeded"]

/-- What the three readers of expressions refuse, by induction on the fuel that they share. -/
theorem failsOnly_expr_items (g : Grammar) (fuel : Nat) :
    (∀ r : Reading, FailsOnly exprKinds (r.expr g fuel)) ∧
      (∀ r : Reading, FailsOnly exprKinds (r.joinedItems g fuel)) ∧
      ∀ (join : Option Connective) (r : Reading), FailsOnly exprKinds (r.item g fuel join) := by
  have htext : "syntax_error" ∈ exprKinds := by simp [exprKinds]
  have hlimit : "fragment_limit_exceeded" ∈ exprKinds := by simp [exprKinds]
  induction fuel with
  | zero =>
    simp only [expr, joinedItems, item]
    exact ⟨fun r => failsOnly_fault htext r _, fun r => failsOnly_fault htext r _,
      fun _ r => failsOnly_fault htext r _⟩
  | succ fuel ih =>
    obtain ⟨hexpr, hjoined, hitem⟩ := ih
    refine ⟨fun r => ?_, fun r => ?_, fun join r => ?_⟩
    · rw [expr]
      refine .ite (failsOnly_fault htext r _) ?_
      refine (hitem none r).bind fun first hfirst => (hjoined first.2).bind fun more hmore => ?_
      have hitems := Expr.failsOnly_ofItems g.limit (join_of_item hfirst)
        (join_of_joinedItems hmore)
      refine (hitems.mono (by simpa using hlimit)).bind fun e _ => ?_
      exact (failsOnly_count hlimit _ _).bind fun _ _ => .ok _
    · rw [joinedItems]
      split
      · exact .ok _
      · refine (failsOnly_advance htext r).bind fun r _ => (hitem _ r).bind fun i _ => ?_
        exact (hjoined i.2).bind fun _ _ => .ok _
    · rw [item]
      refine (failsOnly_negation htext r).bind fun negated _ => .ite ?_ ?_
      · refine (failsOnly_advance htext negated.2).bind fun r _ => ?_
        refine .ite (failsOnly_fault htext r _) ((hexpr r).bind fun e _ => ?_)
        exact (failsOnly_expect htext e.2 _).bind fun _ _ => .ok _
      · refine ((failsOnly_filter negated.2).mono (by simp [exprKinds])).bind fun f _ => ?_
        exact (failsOnly_count hlimit _ _).bind fun _ _ => .ok _

end Reading

/-- **A text is refused as an expression** for its form, a field, a value or its size. -/
theorem Expr.failsOnly_read (g : Grammar) (text : String) :
    FailsOnly Reading.exprKinds (read g text) := by
  have htext : "syntax_error" ∈ Reading.exprKinds := by simp [Reading.exprKinds]
  refine (Reading.failsOnly_start htext text).bind fun r _ => ?_
  refine .ite (Reading.failsOnly_fault htext r _) ?_
  refine ((Reading.failsOnly_expr_items g r.fuel).1 r).bind fun e _ => ?_
  exact .ite (.ok _) (Reading.failsOnly_fault htext e.2 _)

end SearchDsl
