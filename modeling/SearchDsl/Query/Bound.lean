import SearchDsl.Json.Decode
import SearchDsl.Value

/-!
# Bounds of ranges

A range is bounded by up to four values, each a 64-bit whole number, a double or a string. A whole
number beyond 64 bits becomes a double.
-/

namespace SearchDsl

/-- A bound of a range. -/
inductive Bound
  | long (i : Int)
  | double (d : Double)
  | string (s : String)
  deriving DecidableEq, Repr

namespace Bound

/-- The bound as JSON. -/
def toJson : Bound → Json
  | long i => .int i
  | double d => .double d
  | string s => .string s

theorem toJson_injective : Function.Injective toJson := by
  rintro (_ | _ | _) (_ | _ | _) h <;> simp_all [toJson, Json.int, Json.double]

/-- The bound that a number is. -/
def ofNumeral (n : Numeral) : Bound :=
  match n.toSigned64? with
  | some i => long i
  | none => double n.toDouble

/-- The bound that a literal value is. -/
def ofValue? : Value → Option Bound
  | .number n => some (ofNumeral n)
  | .string s => some (string s)
  | _ => none

/-- The bound that a JSON value is. -/
def ofJson? : Json → Option Bound
  | .number n => some (ofNumeral n)
  | .string s => some (string s)
  | _ => none

end Bound

/-- The bounds of a range: inclusive and exclusive from below, inclusive and exclusive from above.
-/
structure Bounds where
  gte : Option Bound
  gt : Option Bound
  lte : Option Bound
  lt : Option Bound
  deriving DecidableEq, Repr, Inhabited

namespace Bounds

/-- No bounds. -/
def none : Bounds := ⟨.none, .none, .none, .none⟩

/-- No bound is set. -/
def isUnbounded (b : Bounds) : Bool := b.gte.isNone && b.gt.isNone && b.lte.isNone && b.lt.isNone

/-- The bounds that are set, by their names in key order. -/
def members (b : Bounds) : List (String × Json) :=
  [("gt", b.gt), ("gte", b.gte), ("lt", b.lt), ("lte", b.lte)].filterMap fun (name, bound) =>
    bound.map fun x => (name, x.toJson)

/-- The bounds as JSON. -/
def toJson (b : Bounds) : Json := .object b.members

theorem lookup_members (b : Bounds) :
    b.members.lookup "gte" = b.gte.map Bound.toJson ∧
      b.members.lookup "gt" = b.gt.map Bound.toJson ∧
      b.members.lookup "lte" = b.lte.map Bound.toJson ∧
      b.members.lookup "lt" = b.lt.map Bound.toJson := by
  obtain ⟨gte, gt, lte, lt⟩ := b
  cases gte <;> cases gt <;> cases lte <;> cases lt <;> exact ⟨rfl, rfl, rfl, rfl⟩

theorem toJson_inj {a b : Bounds} : a.toJson = b.toJson ↔ a = b := by
  refine ⟨fun h => ?_, congrArg toJson⟩
  have hmembers : a.members = b.members := Json.object.inj h
  obtain ⟨ha₁, ha₂, ha₃, ha₄⟩ := a.lookup_members
  obtain ⟨hb₁, hb₂, hb₃, hb₄⟩ := b.lookup_members
  rw [hmembers] at ha₁ ha₂ ha₃ ha₄
  have read {x y : Option Bound} {j : Option Json} (hx : j = x.map Bound.toJson)
      (hy : j = y.map Bound.toJson) : x = y :=
    Option.map_injective Bound.toJson_injective (hx.symm.trans hy)
  cases a
  cases b
  rw [Bounds.mk.injEq]
  exact ⟨read ha₁ hb₁, read ha₂ hb₂, read ha₃ hb₃, read ha₄ hb₄⟩

/-- The names of the bounds. -/
def names : List String := ["gte", "gt", "lte", "lt"]

/-- The bounds out of their JSON values, in the order of the names. -/
def ofFields? : List (Option Json) → Option Bounds
  | [gte, gt, lte, lt] =>
    let bound := Json.orDefault Option.none (Json.nullable? Bound.ofJson?)
    do pure ⟨← bound gte, ← bound gt, ← bound lte, ← bound lt⟩
  | _ => Option.none

/-- The bounds that a JSON value describes. An array has to hold all four. -/
def ofJson? (j : Json) : Option Bounds :=
  match j with
  | .array items => if items.length = 4 then ofFields? (items.map some) else Option.none
  | j => (j.fields? names).bind ofFields?

end Bounds
end SearchDsl
