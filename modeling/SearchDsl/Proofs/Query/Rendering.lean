import Mathlib.Data.List.Forall2
import SearchDsl.Proofs.Query.Map
import SearchDsl.Proofs.Value.Point

/-!
# What the JSON of a query shows

A distance query names its field beside the member `distance`, so on a field of that name the JSON
does not show the radius. Nor does JSON tell the coordinates apart that are not finite.
`Primitive.visible` leaves out what is not shown, and the JSON shows everything else:

* `Primitive.toJson_eq_iff`: two primitive queries have the same JSON if and only if they agree in
  what is visible;
* `Query.toJson_eq_iff`: two queries have the same JSON if and only if their primitive queries, in
  the same places, agree in what is visible.
-/

namespace SearchDsl

/-- The value of a member that is left out if it has no items. -/
def Json.items? (items : List Json) : Option Json :=
  if items.isEmpty then none else some (.array items)

theorem Json.items?_injective : Function.Injective items? := by
  rintro (_ | _) (_ | _) h <;> simp_all [items?]

/-- Each of the points is shown by its JSON. -/
theorem GeoPoint.map_visible_of_toJson {ps qs : List GeoPoint}
    (h : ps.map toJson = qs.map toJson) : ps.map visible = qs.map visible := by
  rw [← List.forall₂_eq_eq_eq, List.forall₂_map_left_iff, List.forall₂_map_right_iff] at h ⊢
  exact h.imp fun _ _ => toJson_eq_iff.1

namespace Primitive

/-- The member of a distance query that holds the radius. -/
def radiusMember : String := "distance"

/-- The primitive query without what its JSON does not show. -/
def visible : Primitive → Primitive
  | geoBoundingBox field topRight bottomLeft =>
    geoBoundingBox field topRight.visible bottomLeft.visible
  | geoPolygon field points => geoPolygon field (points.map GeoPoint.visible)
  | geoDistance field origin distance =>
    geoDistance field origin.visible (if field = radiusMember then "" else distance)
  | p => p

theorem kind_visible (p : Primitive) : p.visible.kind = p.kind := by cases p <;> rfl

theorem member?_geoDistance (field : String) (origin : GeoPoint) (distance key : String) :
    (geoDistance field origin distance).body.member? key =
      if key = field then some origin.toJson
      else if key = radiusMember then some (.string distance) else none := by
  rw [body, Json.member?_record]
  exact (Table.lookup_cons ..).trans (congrArg _ (Table.lookup_cons ..))

theorem body_visible (p : Primitive) : p.visible.body = p.body := by
  cases p with
  | geoBoundingBox field topRight bottomLeft => simp only [visible, body, GeoPoint.toJson_visible]
  | geoPolygon field points =>
    rw [visible, body, body, List.map_map]
    exact congrArg (fun f => Json.record [(field, Json.record [("points", .array (points.map f))])])
      (funext GeoPoint.toJson_visible)
  | geoDistance field origin distance =>
    rw [visible, body, body, GeoPoint.toJson_visible]
    split
    · rename_i h
      subst h
      simp [radiusMember, Json.record, Table.ofList, Table.set]
    · rfl
  | _ => rfl

theorem toJson_visible (p : Primitive) : p.visible.toJson = p.toJson := by
  rw [toJson, toJson, kind_visible, body_visible]

/-- The body of a distance query shows the field, the origin and, unless the field has its name, the
radius. -/
theorem visible_geoDistance {f f' : String} {o o' : GeoPoint} {d d' : String}
    (h : (geoDistance f o d).body = (geoDistance f' o' d').body) :
    (geoDistance f o d).visible = (geoDistance f' o' d').visible := by
  have hfield := congrArg (Json.member? f) h
  have hradius := congrArg (Json.member? radiusMember) h
  simp only [member?_geoDistance, if_true] at hfield hradius
  split at hfield
  · subst f'
    have horigin := GeoPoint.toJson_eq_iff.1 (Option.some.inj hfield)
    simp only [visible, horigin]
    split
    · rfl
    · rename_i hne
      rw [if_neg (Ne.symm hne), if_neg (Ne.symm hne)] at hradius
      rw [Json.string.inj (Option.some.inj hradius)]
  · -- An origin is an object, and the radius a text.
    split at hfield <;> cases hfield

theorem member?_multiMatch (text : String) (fields : List String) (op : MatchOperator)
    (minimum : Option String) :
    let body := (multiMatch text fields op minimum).body
    body.member? "query" = some (.string text) ∧ body.member? "operator" = some (.string op.name) ∧
      body.member? "fields" = Json.items? (fields.map .string) ∧
      body.member? "minimum_should_match" = minimum.map .string := by
  intro body
  simp only [body, Primitive.body, Json.member?_record]
  cases fields <;> cases minimum <;> exact ⟨rfl, rfl, rfl, rfl⟩

theorem multiMatch_inj {t t' : String} {fs fs' : List String} {op op' : MatchOperator}
    {m m' : Option String} (h : (multiMatch t fs op m).body = (multiMatch t' fs' op' m').body) :
    multiMatch t fs op m = multiMatch t' fs' op' m' := by
  obtain ⟨htext, hop, hfields, hminimum⟩ := member?_multiMatch t fs op m
  obtain ⟨htext', hop', hfields', hminimum'⟩ := member?_multiMatch t' fs' op' m'
  rw [h] at htext hop hfields hminimum
  obtain rfl := Json.string_unique htext htext'
  obtain rfl := MatchOperator.name_injective (Json.string_unique hop hop')
  obtain rfl := (List.map_inj_right Json.string_injective).1
    (Json.items?_injective (hfields.symm.trans hfields'))
  obtain rfl := Option.map_injective Json.string_injective (hminimum.symm.trans hminimum')
  rfl

theorem visible_eq_of_body {p p' : Primitive} (hkind : p.kind = p'.kind) (h : p.body = p'.body) :
    p.visible = p'.visible := by
  cases p <;> cases p' <;> try simp [kind] at hkind
  case matchAll.matchAll => rfl
  case present.present =>
    cases (Json.record_single_inj.1 h).2
    rfl
  case term.term =>
    obtain ⟨rfl, hvalue⟩ := Json.record_single_inj.1 h
    obtain ⟨-, rfl⟩ := Json.record_single_inj.1 hvalue
    rfl
  case terms.terms =>
    obtain ⟨rfl, hvalues⟩ := Json.record_single_inj.1 h
    cases hvalues
    rfl
  case range.range =>
    obtain ⟨rfl, hbounds⟩ := Json.record_single_inj.1 h
    obtain rfl := Bounds.toJson_inj.1 hbounds
    rfl
  case wildcard.wildcard =>
    obtain ⟨rfl, hpattern⟩ := Json.record_single_inj.1 h
    cases (Json.record_single_inj.1 hpattern).2
    rfl
  case geoBoundingBox.geoBoundingBox =>
    obtain ⟨rfl, hcorners⟩ := Json.record_single_inj.1 h
    have hright := congrArg (Json.member? "top_right") hcorners
    have hleft := congrArg (Json.member? "bottom_left") hcorners
    simp only [Json.member?_record] at hright hleft
    rw [visible, visible, GeoPoint.toJson_eq_iff.1 (Option.some.inj hright),
      GeoPoint.toJson_eq_iff.1 (Option.some.inj hleft)]
  case geoPolygon.geoPolygon =>
    obtain ⟨rfl, hpoints⟩ := Json.record_single_inj.1 h
    have hitems := Json.array.inj (Json.record_single_inj.1 hpoints).2
    rw [visible, visible, GeoPoint.map_visible_of_toJson hitems]
  case geoDistance.geoDistance => exact visible_geoDistance h
  case multiMatch.multiMatch => exact congrArg visible (multiMatch_inj h)

/-- **The JSON of a primitive query shows what is visible of it.** -/
theorem toJson_eq_iff {p p' : Primitive} : p.toJson = p'.toJson ↔ p.visible = p'.visible := by
  constructor
  · intro h
    obtain ⟨hkind, hbody⟩ := Json.record_single_inj.1 h
    exact visible_eq_of_body hkind hbody
  · intro h
    rw [← p.toJson_visible, ← p'.toJson_visible, h]

end Primitive

namespace Query

/-! ### Primitive queries with the same JSON -/

section Map

variable {f : Primitive → Primitive}

mutual

/-- A function that keeps the JSON of the primitive queries keeps that of a query. -/
theorem toJson_map (h : ∀ p, (f p).toJson = p.toJson) (q : Query) :
    (q.map f).toJson = q.toJson := by
  match q with
  | primitive p => exact h p
  | nested path q => rw [map, toJson, toJson, toJson_map h q]
  | bool ⟨must, should, mustNot, filter, minimum⟩ =>
    rw [map, toJson, toJson, toJsons_mapAll h must, toJsons_mapAll h should,
      toJsons_mapAll h mustNot, toJsons_mapAll h filter]

theorem toJsons_mapAll (h : ∀ p, (f p).toJson = p.toJson) (qs : List Query) :
    toJsons (mapAll f qs) = toJsons qs := by
  match qs with
  | [] => rfl
  | q :: qs => rw [mapAll, toJsons, toJsons, toJson_map h q, toJsons_mapAll h qs]

end

end Map

/-! ### Roles in JSON -/

theorem lookup_role (name key : String) (clauses : List Json) :
    (role name clauses).lookup key = if key = name then Json.items? clauses else none := by
  cases clauses with
  | nil => simp [role, Json.items?]
  | cons j js => exact Table.lookup_cons key name _ []

/-- The members of the object of a bool query. -/
def members (c : Clauses Query) : List (String × Json) :=
  role "must" (toJsons c.must) ++ role "should" (toJsons c.should) ++
    role "must_not" (toJsons c.mustNot) ++ role "filter" (toJsons c.filter) ++
    (c.minimumShouldMatch.map fun m => ("minimum_should_match", Json.string m)).toList

theorem reverse_role (name : String) (clauses : List Json) :
    (role name clauses).reverse = role name clauses := by
  cases clauses <;> rfl

theorem member?_bool (c : Clauses Query) :
    let body := Json.record (members c)
    body.member? "must" = Json.items? (toJsons c.must) ∧
      body.member? "should" = Json.items? (toJsons c.should) ∧
      body.member? "must_not" = Json.items? (toJsons c.mustNot) ∧
      body.member? "filter" = Json.items? (toJsons c.filter) ∧
      body.member? "minimum_should_match" = c.minimumShouldMatch.map .string := by
  intro body
  simp only [body, members, Json.member?_record, List.reverse_append, reverse_role,
    List.lookup_append, lookup_role]
  cases c.minimumShouldMatch <;> simp [List.lookup_cons]

theorem toJson_bool (c : Clauses Query) :
    (bool c).toJson = Json.record [("bool", Json.record (members c))] := by
  rw [toJson, members]

/-- No primitive query is of the kind of a nested or of a bool query. -/
theorem kind_primitive_ne (p : Primitive) : p.kind ≠ "nested" ∧ p.kind ≠ "bool" := by
  cases p <;> simp [Primitive.kind]

theorem exists_toJson_eq (q : Query) : ∃ body, q.toJson = Json.record [(q.kind, body)] := by
  cases q <;> rw [toJson] <;> exact ⟨_, rfl⟩

theorem kind_eq_of_toJson {q q' : Query} (h : q.toJson = q'.toJson) : q.kind = q'.kind := by
  obtain ⟨body, hq⟩ := q.exists_toJson_eq
  obtain ⟨body', hq'⟩ := q'.exists_toJson_eq
  rw [hq, hq'] at h
  exact (Json.record_single_inj.1 h).1

mutual

theorem map_visible_of_toJson (q q' : Query) (h : q.toJson = q'.toJson) :
    q.map Primitive.visible = q'.map Primitive.visible := by
  match q, q' with
  | primitive p, primitive p' => rw [map, map, Primitive.toJson_eq_iff.1 h]
  | nested path q, nested path' q' =>
    rw [toJson, toJson, Json.record_single_inj] at h
    have hpath := congrArg (Json.member? "path") h.2
    have hquery := congrArg (Json.member? "query") h.2
    simp only [Json.member?_record] at hpath hquery
    obtain rfl := Json.string.inj (Option.some.inj hpath)
    rw [map, map, map_visible_of_toJson q q' (Option.some.inj hquery)]
  | bool ⟨must, should, mustNot, filter, minimum⟩, bool c' =>
    rw [toJson_bool, toJson_bool, Json.record_single_inj] at h
    obtain ⟨hmust, hshould, hmustNot, hfilter, hminimum⟩ :=
      member?_bool ⟨must, should, mustNot, filter, minimum⟩
    obtain ⟨hmust', hshould', hmustNot', hfilter', hminimum'⟩ := member?_bool c'
    rw [h.2] at hmust hshould hmustNot hfilter hminimum
    obtain rfl := Option.map_injective Json.string_injective (hminimum.symm.trans hminimum')
    rw [map, map,
      mapAll_visible_of_toJsons must _ (Json.items?_injective (hmust.symm.trans hmust')),
      mapAll_visible_of_toJsons should _ (Json.items?_injective (hshould.symm.trans hshould')),
      mapAll_visible_of_toJsons mustNot _ (Json.items?_injective (hmustNot.symm.trans hmustNot')),
      mapAll_visible_of_toJsons filter _ (Json.items?_injective (hfilter.symm.trans hfilter'))]
  -- Queries of different kinds have different members.
  | primitive p, nested .. => exact absurd (kind_eq_of_toJson h) (kind_primitive_ne p).1
  | nested .., primitive p => exact absurd (kind_eq_of_toJson h.symm) (kind_primitive_ne p).1
  | primitive p, bool _ => exact absurd (kind_eq_of_toJson h) (kind_primitive_ne p).2
  | bool _, primitive p => exact absurd (kind_eq_of_toJson h.symm) (kind_primitive_ne p).2
  | nested .., bool _ => exact absurd (kind_eq_of_toJson h) (by simp [kind])
  | bool _, nested .. => exact absurd (kind_eq_of_toJson h) (by simp [kind])

theorem mapAll_visible_of_toJsons (qs qs' : List Query) (h : toJsons qs = toJsons qs') :
    mapAll Primitive.visible qs = mapAll Primitive.visible qs' := by
  match qs, qs' with
  | [], [] => rfl
  | [], _ :: _ | _ :: _, [] => simp [toJsons] at h
  | q :: qs, q' :: qs' =>
    rw [toJsons, toJsons, List.cons.injEq] at h
    rw [mapAll, mapAll, map_visible_of_toJson q q' h.1, mapAll_visible_of_toJsons qs qs' h.2]

end

/-- **The JSON of a query shows what is visible of its primitive queries, and where they are.** -/
theorem toJson_eq_iff {q q' : Query} :
    q.toJson = q'.toJson ↔ q.map Primitive.visible = q'.map Primitive.visible := by
  constructor
  · exact map_visible_of_toJson q q'
  · intro h
    rw [← toJson_map Primitive.toJson_visible q, h, toJson_map Primitive.toJson_visible q']

end Query
end SearchDsl
