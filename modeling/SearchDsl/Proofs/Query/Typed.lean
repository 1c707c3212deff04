import SearchDsl.Proofs.Expr.Resolved
import SearchDsl.Proofs.Query.Layout
import SearchDsl.Proofs.Schema.Resolved

/-!
# Queries fit the types of their fields

`FieldType.Takes` says which primitive queries the backend can run on fields of a type, and with
which values. A filter that was read with a mapping has passed the check of its type, and

* `takes_of_checkType`: what passes the check is compiled to a query that the type takes;
* `takes_leaves_ofExpr`: so every primitive query of an expression that was read with a mapping is
  one that the mapped type of its field takes.

Meta fields have no type in a mapping, and nothing is asked of their queries.
-/

namespace SearchDsl

/-! ### What types take -/

/-- The JSON value is a number. -/
def Json.isNumber : Json → Bool
  | number _ => true
  | _ => false

/-- The JSON value is a truth value. -/
def Json.isBool : Json → Bool
  | bool _ => true
  | _ => false

/-- The JSON value is a string. -/
def Json.isString : Json → Bool
  | string _ => true
  | _ => false

namespace Primitive

/-- The values that the query compares a field with. -/
def operands : Primitive → List Json
  | term _ value => [value]
  | terms _ values => values
  | range _ bounds => bounds.members.map Prod.snd
  | _ => []

/-- The kinds of queries that look at points. -/
def geoKinds : List String := ["geo_bounding_box", "geo_polygon", "geo_distance"]

end Primitive

/-- The backend can run the query on fields of the type. -/
structure FieldType.Takes (t : FieldType) (p : Primitive) : Prop where
  numeric : t ∈ [.long, .integer, .short, .byte, .double, .float, .halfFloat, .scaledFloat] →
    p.kind ∈ ["exists", "term", "terms", "range"] ∧ ∀ v ∈ p.operands, v.isNumber = true
  boolean : t = .boolean →
    p.kind ∈ ["exists", "term", "terms"] ∧ ∀ v ∈ p.operands, v.isBool = true
  date : t = .date →
    p.kind ∈ ["exists", "term", "terms", "range"] ∧
      ∀ v ∈ p.operands, v.isNumber = true ∨ v.isString = true
  geoPoint : t = .geoPoint → p.kind ∈ "exists" :: Primitive.geoKinds
  container : t = .object ∨ t = .nested → p.kind = "exists"
  string : t = .text ∨ t = .keyword → p.kind ∉ Primitive.geoKinds
  other : t = .other → p.kind ∉ "wildcard" :: Primitive.geoKinds
  wildcard : p.kind = "wildcard" → t = .text ∨ t = .keyword
  geo : p.kind ∈ Primitive.geoKinds → t = .geoPoint

namespace FieldType

/-- Fields of the type can hold the JSON value. -/
def holds (t : FieldType) (j : Json) : Bool :=
  if t.isNumeric then j.isNumber
  else match t with
    | boolean => j.isBool
    | date => j.isNumber || j.isString
    | _ => true

variable {t : FieldType} {p : Primitive}

/-- Every type takes the question whether there is a value. -/
theorem takes_present (t : FieldType) (field : String) : t.Takes (.present field) := by
  constructor <;> simp [Primitive.kind, Primitive.operands, Primitive.geoKinds]

/-- A type takes comparisons with values that its fields hold, if they hold values at all. -/
theorem takes_compared (hgeo : t.isGeo = false) (hcontainer : t.isContainer = false)
    (hkind : p.kind ∈ ["term", "terms", "range"]) (hrange : t = .boolean → p.kind ≠ "range")
    (hheld : ∀ v ∈ p.operands, t.holds v = true) : t.Takes p := by
  have hno : p.kind ∉ "wildcard" :: Primitive.geoKinds := by
    intro hbad
    simp only [List.mem_cons, List.not_mem_nil, or_false] at hkind
    rcases hkind with h | h | h <;> rw [h] at hbad <;> revert hbad <;> decide
  exact {
    numeric := fun ht =>
      ⟨List.mem_cons_of_mem _ hkind,
        fun v hv => by simpa [holds, isNumeric_iff.2 ht] using hheld v hv⟩
    boolean := by
      rintro rfl
      have hterm : p.kind = "term" ∨ p.kind = "terms" := by
        simpa [hrange rfl] using hkind
      exact ⟨by simpa using .inr hterm, hheld⟩
    date := by
      rintro rfl
      refine ⟨List.mem_cons_of_mem _ hkind, fun v hv => ?_⟩
      simpa [holds, isNumeric] using hheld v hv
    geoPoint := by
      rintro rfl
      cases hgeo
    container := by
      rintro (rfl | rfl) <;> cases hcontainer
    string := fun _ h => hno (List.mem_cons_of_mem _ h)
    other := fun _ => hno
    wildcard := fun h => absurd (List.mem_cons.2 (.inl h)) hno
    geo := fun h => absurd (List.mem_cons_of_mem _ h) hno }

theorem takes_wildcard (h : t.isString = true) (field pattern : String) :
    t.Takes (.wildcard field pattern) := by
  cases t <;> cases h <;>
    constructor <;> simp [Primitive.kind, Primitive.geoKinds]

theorem takes_geo (h : p.kind ∈ Primitive.geoKinds) : geoPoint.Takes p := by
  have hno : p.kind ≠ "wildcard" := by
    intro hw
    rw [hw] at h
    revert h
    decide
  constructor <;> simp [h, hno]

end FieldType

/-! ### Checked filters -/

namespace Filter

/-- Fields of the type hold values, and can hold those that a filter compares them with. Only texts
are compared with patterns. -/
structure Fits (t : FieldType) (op : Operator) (v : Value) : Prop where
  isGeo : t.isGeo = false
  isContainer : t.isContainer = false
  like : op = .like → t.isString = true
  accepts : ∀ x ∈ compared v, accepts t x = true

/-- Only a field of points is searched for points. -/
theorem geoPoint_of_checkType {field : String} {t : FieldType} {op : Operator} {v : Value}
    (hop : op.isGeo = true) (h : checkType field t op v = .ok ()) : t = .geoPoint := by
  rw [checkType, if_pos hop] at h
  split at h
  · rename_i ht
    cases t <;> first | rfl | cases ht
  · cases h

/-- Unless it looks for points or asks whether there is a value, a filter that passes the check of a
type fits it. -/
theorem fits_of_checkType {field : String} {t : FieldType} {op : Operator} {v : Value}
    (hop : op.isGeo = false) (hv : v ≠ .null) (h : checkType field t op v = .ok ()) :
    Fits t op v := by
  rw [checkType, if_neg (by simp [hop]), if_neg (mt isNull_iff.1 hv)] at h
  split at h
  · cases h
  · rename_i hgeo
    split at h
    · cases h
    · rename_i hcontainer
      split at h
      · cases h
      · rename_i hlike
        split at h
        · cases h
        · rename_i hfind
          exact ⟨by simpa using hgeo, by simpa using hcontainer,
            fun hop => by simpa [hop] using hlike, by simpa using hfind⟩

variable {t : FieldType} {v : Value}

theorem compared_of_isScalar (hv : v.isScalar = true) : compared v = [v] := by
  cases v <;> first | rfl | cases hv

/-- What a type accepts its fields can hold. -/
theorem holds_toJson (hv : v.isScalar = true) (h : accepts t v = true) :
    t.holds v.toJson = true := by
  cases v <;> simp [Value.isScalar] at hv <;> cases t <;> first | rfl | cases h

theorem holds_bound {b : Bound} (hb : Bound.ofValue? v = some b) (h : accepts t v = true) :
    t.holds b.toJson = true := by
  cases v with
  | number n =>
    have hn : ∃ m, b.toJson = .number m := by
      cases hb
      unfold Bound.ofNumeral
      split <;> exact ⟨_, rfl⟩
    obtain ⟨m, hm⟩ := hn
    have hm' : accepts t (.number m) = true := by cases t <;> exact h
    rw [hm]
    exact holds_toJson rfl hm'
  | string s =>
    cases hb
    exact holds_toJson rfl h
  | _ => cases hb

/-- Truth values have no order. -/
theorem ne_boolean_of_accepts (hv : v.isOrdered = true) (h : accepts t v = true) :
    t ≠ .boolean := by
  rintro rfl
  cases v <;> simp [accepts, Value.isOrdered, FieldType.isNumeric] at hv h

end Filter

namespace Query

variable {t : FieldType} {op : Operator} {v : Value}

theorem takes_term (h : Filter.Fits t op v) (hv : v.isScalar = true) (field : String) :
    t.Takes (.term field v.toJson) := by
  have haccepts := h.accepts v (by simp [Filter.compared_of_isScalar hv])
  refine FieldType.takes_compared h.isGeo h.isContainer (by simp [Primitive.kind])
    (by simp [Primitive.kind]) fun j hj => ?_
  rw [List.mem_singleton.1 hj]
  exact Filter.holds_toJson hv haccepts

theorem takes_terms {items : List Value} (h : Filter.Fits t op (.list items))
    (hitems : ∀ v ∈ items, v.isScalar = true) (field : String) :
    t.Takes (.terms field (Value.toJsons items)) := by
  refine FieldType.takes_compared h.isGeo h.isContainer (by simp [Primitive.kind])
    (by simp [Primitive.kind]) fun j hj => ?_
  rw [Primitive.operands, Value.toJsons_eq_map] at hj
  obtain ⟨v, hv, rfl⟩ := List.mem_map.1 hj
  exact Filter.holds_toJson (hitems v hv) (h.accepts v hv)

/-- A type takes ranges whose bounds are among the values that a fitting filter compares with. -/
theorem takes_range (h : Filter.Fits t op v) {b : Bounds} (hne : b.members ≠ [])
    (hb : ∀ m ∈ b.members, ∃ x ∈ Filter.compared v, x.isOrdered = true ∧
      ∃ a, Bound.ofValue? x = some a ∧ m.2 = a.toJson) (field : String) :
    t.Takes (.range field b) := by
  obtain ⟨m₀, hm₀⟩ := List.exists_mem_of_ne_nil _ hne
  obtain ⟨x, hx, hordered, -⟩ := hb m₀ hm₀
  have hboolean := Filter.ne_boolean_of_accepts hordered (h.accepts x hx)
  refine FieldType.takes_compared h.isGeo h.isContainer (by simp [Primitive.kind])
    (fun ht => absurd ht hboolean) fun j hj => ?_
  obtain ⟨m, hm, rfl⟩ := List.mem_map.1 hj
  obtain ⟨y, hy, -, a, ha, hma⟩ := hb m hm
  rw [hma]
  exact Filter.holds_bound ha (h.accepts y hy)

theorem takes_comparison (h : Filter.Fits t op v) (hv : v.isOrdered = true) {b : Bound}
    (hb : Bound.ofValue? v = some b) (field : String) : t.Takes (.range field (bounds op b)) := by
  have hbounds : (bounds op b).members ≠ [] ∧ ∀ m ∈ (bounds op b).members, m.2 = b.toJson := by
    cases op <;> simp [bounds, Bounds.members, Bounds.none]
  refine takes_range h hbounds.1 (fun m hm => ⟨v, ?_, hv, b, hb, hbounds.2 m hm⟩) field
  simp [Filter.compared_of_isScalar (Filter.isScalar_of_isOrdered hv)]

section Compiled

variable {s : Surroundings} {f : Filter} {p : Primitive} {denied : Bool}

/-- A comparison is compiled to a range with its value as the only bound. -/
theorem exists_range_of_comparison (hop : f.operator.isComparison = true)
    (hv : f.value.isOrdered = true) (hp : ofFilter s f = .ok (p, denied)) :
    ∃ b, Bound.ofValue? f.value = some b ∧ p = .range f.field.name (bounds f.operator b) := by
  obtain ⟨field, op, v⟩ := f
  obtain ⟨b, hb⟩ := ofValue?_of_isOrdered hv
  refine ⟨b, hb, ?_⟩
  cases op with
  | greaterThan | greaterOrEqual | lessThan | lessOrEqual =>
    simp only [ofFilter, hb, Operator.isComparison, if_true, Except.ok.injEq, Prod.mk.injEq] at hp
    exact hp.1.symm
  | _ => cases hop

/-- A search for points is compiled to a query that looks at points. -/
theorem geo_of_ofFilter (hf : f.IsMade) (hop : f.operator.isGeo = true)
    (hp : ofFilter s f = .ok (p, denied)) : p.kind ∈ Primitive.geoKinds := by
  have hshape := hf.hasShape
  obtain ⟨field, op, v⟩ := f
  cases op with
  | viewport =>
    obtain ⟨ne, sw, rfl⟩ := hshape
    cases hp
    simp [Primitive.kind, Primitive.geoKinds]
  | polygon =>
    obtain ⟨points, rfl⟩ := hshape
    cases hp
    simp [Primitive.kind, Primitive.geoKinds]
  | near =>
    obtain ⟨origin, rfl⟩ := hshape
    cases hp
    simp [Primitive.kind, Primitive.geoKinds]
  | _ => cases hop

/-- The question whether there is a value is compiled to itself. -/
theorem present_of_ofFilter (hf : f.IsMade) (hv : f.value = .null)
    (hp : ofFilter s f = .ok (p, denied)) : p = .present f.field.name := by
  have hshape := hf.hasShape
  obtain ⟨field, op, v⟩ := f
  obtain rfl : v = .null := hv
  cases op with
  | equal | notEqual => exact (Prod.mk.inj (Except.ok.inj hp)).1.symm
  | greaterThan | greaterOrEqual | lessThan | lessOrEqual => cases hshape
  | like | range | isIn | viewport | polygon | near =>
    simp [Filter.HasShape] at hshape

/-- **What fits a type is compiled to a query that the type takes.** -/
theorem takes_of_fits (hf : f.IsMade) (hv : f.value ≠ .null) (h : Filter.Fits t f.operator f.value)
    (hop : f.operator.isGeo = false) (hp : ofFilter s f = .ok (p, denied)) : t.Takes p := by
  have hshape := hf.hasShape
  obtain ⟨field, op, v⟩ := f
  cases op with
  | equal | notEqual =>
    have hscalar : v.isScalar = true := hshape.resolve_right hv
    have hterm := takes_term h hscalar field.name
    cases v with
    | bool _ | number _ | string _ =>
      cases hp
      exact hterm
    | _ => cases hscalar
  | greaterThan | greaterOrEqual | lessThan | lessOrEqual =>
    obtain ⟨b, hb, rfl⟩ := exists_range_of_comparison (by rfl) hshape hp
    exact takes_comparison h hshape hb field.name
  | like =>
    obtain ⟨pattern, rfl⟩ := hshape
    cases hp
    exact FieldType.takes_wildcard (h.like rfl) _ _
  | range =>
    obtain ⟨a, b, rfl, ha, hb⟩ := hshape
    obtain ⟨x, hx⟩ := ofValue?_of_isOrdered ha
    obtain ⟨y, hy⟩ := ofValue?_of_isOrdered hb
    simp only [ofFilter, hx, hy, Except.ok.injEq, Prod.mk.injEq] at hp
    obtain ⟨rfl, -⟩ := hp
    refine takes_range h ?_ ?_ field.name
    · simp [Bounds.members, Bounds.none]
    · simp [Bounds.members, Bounds.none, Filter.compared, ha, hb, hx, hy]
  | isIn =>
    obtain ⟨items, rfl, -, hitems⟩ := hshape
    cases hp
    exact takes_terms h hitems field.name
  | viewport | polygon | near => cases hop

/-- **What passes the check of a type is compiled to a query that the type takes.** -/
theorem takes_of_checkType (hf : f.IsMade)
    (hcheck : Filter.checkType f.field.name t f.operator f.value = .ok ())
    (hp : ofFilter s f = .ok (p, denied)) : t.Takes p := by
  cases hop : f.operator.isGeo with
  | true =>
    rw [Filter.geoPoint_of_checkType hop hcheck]
    exact FieldType.takes_geo (geo_of_ofFilter hf hop hp)
  | false =>
    by_cases hv : f.value = .null
    · rw [present_of_ofFilter hf hv hp]
      exact t.takes_present _
    · exact takes_of_fits hf hv (Filter.fits_of_checkType hop hv hcheck) hop hp

end Compiled

/-! ### Expressions that were read -/

/-- **Every query of an expression that was read with a mapping is one that the mapped type of its
field takes.** -/
theorem takes_leaves_ofExpr {schema : Snapshot} {limit : Nat} {text : String} {e : Expr}
    (h : Expr.read ⟨some schema, limit⟩ text = .ok e) (s : Surroundings) :
    ∃ c, ofExpr s e = .ok c ∧ ∀ l ∈ (bool c).leaves,
      ∃ name, l.primitive.field? = some name ∧ (name ∉ Snapshot.metaFields →
        ∃ t, (schema.mapping.get? name).map (·.type) = some t ∧ t.Takes l.primitive) := by
  have hmade := (Expr.built_of_read h).isMade
  obtain ⟨c, hc, hlays⟩ := exists_lays_ofExpr s hmade
  refine ⟨c, hc, fun l hl => ?_⟩
  -- The leaf comes from a filter, whose field was looked up in the mapping.
  obtain ⟨f, hf, hlf⟩ := (leaves_of_lays hlays).exists_filter hl
  obtain ⟨name, hname⟩ := Expr.exists_name_of_read h f hf
  have hresolve : schema.resolve name false = .ok f.field := hname
  refine ⟨f.field.name, field?_of_ofFilter hlf.query, fun hmeta => ?_⟩
  rw [Snapshot.name_of_resolve hresolve] at hmeta ⊢
  obtain ⟨t, ht, hmapped⟩ := Snapshot.type_of_resolve hresolve hmeta
  refine ⟨t, hmapped, takes_of_checkType (hmade f hf) ?_ hlf.query⟩
  have hcheck := (hmade f hf).checked
  rwa [Filter.check, ht] at hcheck

/-- Three fields of different types, one of them inside nested documents. -/
def threeFields : Mapping :=
  ((Mapping.empty.field "price" (.leaf .long)).field "place" (.leaf .geoPoint)).field "units"
    ((FieldMapping.leaf .nested).property "kind" (.leaf .keyword))

/-- All three of them, and a meta field. -/
theorem takes_leaves_ofExpr_threeFields :
    let schema := Snapshot.ofMapping "listings" threeFields 1
    let text := "units.kind IN ['x'] AND NOT (price >= 3 OR place NEAR [1, 2]) OR _id LIKE 'a%'"
    ∃ e, Expr.read ⟨some schema, 8⟩ text = .ok e ∧
      ∃ c, ofExpr ⟨"10km", []⟩ e = .ok c ∧ ∀ l ∈ (bool c).leaves,
        ∃ name, l.primitive.field? = some name ∧ (name ∉ Snapshot.metaFields →
          ∃ t, (schema.mapping.get? name).map (·.type) = some t ∧ t.Takes l.primitive) := by
  intro schema text
  have hok : (Expr.read ⟨some schema, 8⟩ text).isOk = true := by decide +kernel
  cases h : Expr.read ⟨some schema, 8⟩ text with
  | error err =>
    rw [h] at hok
    cases hok
  | ok e => exact ⟨e, rfl, takes_leaves_ofExpr h _⟩

end Query
end SearchDsl
