import SearchDsl.Proofs.Schema.Json
import SearchDsl.Query.Parts
import SearchDsl.Request
import SearchDsl.Settings.Json

/-!
# What is written is read back

Settings, configurations, requests and the bounds of ranges are what their JSON values are read as,
as mappings are. The numbers in them have to be those of their machine types: unsigned 64-bit
numbers for sizes and limits, signed ones for the pages of a request and for the whole numbers
among bounds. Every double is finite, so none of them is lost.

The bounds of a range stand beside its field, and a bound is told apart by the form of its JSON
value: a whole number of the signed 64-bit range, any other number as a double, or a text.
-/

namespace SearchDsl

open Json (bind_of_read strings?_strings)

/-! ### Settings and configurations -/

/-- The numbers are those of their machine types. -/
structure Settings.IsSized (s : Settings) : Prop where
  defaultSize : Numeral.isUnsigned64 s.defaultSize = true
  maxSize : Numeral.isUnsigned64 s.maxSize = true
  defaultFacetSize : Numeral.isUnsigned64 s.defaultFacetSize = true

/-- **Settings are what their JSON value is read as.** -/
theorem Settings.ofJson?_toJson {s : Settings} (h : s.IsSized) : ofJson? s.toJson = some s := by
  -- The numbers are variables here: to open the test for 64 bits would be to count up to its limit.
  have hread (size max facetSize : Json) (hsize : size.unsigned? = some s.defaultSize)
      (hmax : max.unsigned? = some s.maxSize)
      (hfacet : facetSize.unsigned? = some s.defaultFacetSize)
      (hfields : s.toJson.fields? names = some [
        some (.string s.defaultSort), some (.bool s.sortDisabled), some size, some max,
        some facetSize, some (Json.strings s.sourceIncludes), some (Json.strings s.sourceExcludes),
        some (Json.strings s.queryDefaultFields), some (.string s.defaultMinimumShouldMatch),
        some (.string s.nearDistance)]) : ofJson? s.toJson = some s := by
    unfold ofJson?
    exact bind_of_read hfields <| bind_of_read rfl <| bind_of_read rfl <| bind_of_read hsize <|
      bind_of_read hmax <| bind_of_read hfacet <| bind_of_read (strings?_strings _) <|
      bind_of_read (strings?_strings _) <| bind_of_read (strings?_strings _) <|
      bind_of_read rfl <| bind_of_read rfl rfl
  exact hread _ _ _ (Json.unsigned?_nat h.defaultSize) (Json.unsigned?_nat h.maxSize)
    (Json.unsigned?_nat h.defaultFacetSize) (Json.fields?_record _ _)

/-- The numbers are those of their machine types, and the indices stand in a table. -/
structure Config.IsSized (c : Config) : Prop where
  maxFragments : Numeral.isUnsigned64 c.maxFragments = true
  table : Table.IsOrdered c.indices
  settings : ∀ e ∈ c.indices, e.2.IsSized

/-- **A configuration is what its JSON value is read as.** -/
theorem Config.ofJson?_toJson {c : Config} (h : c.IsSized) : ofJson? c.toJson = some c := by
  have hread (limit indices : Json) (hlimit : limit.unsigned? = some c.maxFragments)
      (hindices : indices.table? Settings.ofJson? = some c.indices)
      (hfields : c.toJson.fields? ["max_fragments", "indices"] = some [some limit, some indices]) :
      ofJson? c.toJson = some c := by
    unfold ofJson?
    exact bind_of_read hfields <| bind_of_read hlimit <| bind_of_read hindices rfl
  exact hread _ _ (Json.unsigned?_nat h.maxFragments)
    (Json.table?_record h.table fun e he => Settings.ofJson?_toJson (h.settings e he))
    (Json.fields?_record _ _)

/-! ### Requests -/

namespace Request

/-- The numbers are those of their machine types. -/
structure IsSized (r : Request) : Prop where
  facetSize : ∀ n ∈ r.facetSize, Numeral.isUnsigned64 n = true
  offset : ∀ i ∈ r.offset, Numeral.isSigned64 i = true
  size : ∀ i ∈ r.size, Numeral.isSigned64 i = true

/-- A value that may be missing is read back, if it is when it is there. -/
theorem optional?_optional {α : Type} {value? : Json → Option α} {write : α → Json} {o : Option α}
    (hnull : value? .null = none) (hread : ∀ a ∈ o, value? (write a) = some a) :
    optional? value? (some (optional write o)) = some o := by
  cases o with
  | none => rfl
  | some a => exact Json.nullable?_of_read hnull (hread a rfl)

/-- **A request is what its JSON value is read as.** -/
theorem ofJson?_toJson {r : Request} (h : r.IsSized) : ofJson? r.toJson = some r := by
  have hfields : r.toJson.fields? names = some [
      some (.string r.index), some (optional .string r.filter), some (optional .string r.sort),
      some (.bool r.disableSort), some (optional .string r.facets),
      some (optional .nat r.facetSize), some (Json.strings r.includeFields),
      some (Json.strings r.excludeFields), some (optional .string r.text),
      some (Json.strings r.fields), some (optional (fun o => .string o.name) r.operator),
      some (optional .string r.minimumShouldMatch), some (optional .int r.offset),
      some (optional .int r.size)] :=
    Json.fields?_record _ _
  have htext (o : Option String) : optional? Json.string? (some (optional .string o)) = some o :=
    optional?_optional rfl fun _ _ => rfl
  have hfacetSize :
      optional? Json.unsigned? (some (optional .nat r.facetSize)) = some r.facetSize :=
    optional?_optional rfl fun n hn => Json.unsigned?_nat (h.facetSize n hn)
  have hoperator : optional? (Json.named? MatchOperator.ofName?)
      (some (optional (fun o => .string o.name) r.operator)) = some r.operator :=
    optional?_optional rfl fun o _ => by cases o <;> rfl
  have hoffset : optional? Json.signed? (some (optional .int r.offset)) = some r.offset :=
    optional?_optional rfl fun i hi => Json.signed?_int (h.offset i hi)
  have hsize : optional? Json.signed? (some (optional .int r.size)) = some r.size :=
    optional?_optional rfl fun i hi => Json.signed?_int (h.size i hi)
  unfold ofJson?
  exact bind_of_read hfields <| bind_of_read rfl <| bind_of_read (htext _) <|
    bind_of_read (htext _) <| bind_of_read rfl <| bind_of_read (htext _) <|
    bind_of_read hfacetSize <| bind_of_read (strings?_strings _) <|
    bind_of_read (strings?_strings _) <| bind_of_read (htext _) <|
    bind_of_read (strings?_strings _) <| bind_of_read hoperator <| bind_of_read (htext _) <|
    bind_of_read hoffset <| bind_of_read hsize rfl

end Request

/-! ### Bounds of ranges -/

/-- A whole number is one of the signed 64-bit range. -/
def Bound.IsSized (b : Bound) : Prop := ∀ i, b = .long i → Numeral.isSigned64 i = true

theorem Bound.ofJson?_toJson {b : Bound} (h : b.IsSized) : ofJson? b.toJson = some b := by
  cases b with
  | long i =>
    show some (ofNumeral (.whole i)) = _
    rw [ofNumeral, Numeral.toSigned64?, if_pos (h i rfl)]
  | double d => rfl
  | string s => rfl

namespace Bounds

/-- The whole numbers among the bounds are those of the signed 64-bit range. -/
structure IsSized (b : Bounds) : Prop where
  gte : ∀ x ∈ b.gte, x.IsSized
  gt : ∀ x ∈ b.gt, x.IsSized
  lte : ∀ x ∈ b.lte, x.IsSized
  lt : ∀ x ∈ b.lt, x.IsSized

theorem isOrdered_members (b : Bounds) : Table.IsOrdered b.members := by
  have hkeys : ["gt", "gte", "lt", "lte"].Pairwise (· < ·) := by decide
  have hbounds : [("gt", b.gt), ("gte", b.gte), ("lt", b.lt), ("lte", b.lte)].Pairwise
      fun d e => d.1 < e.1 :=
    List.pairwise_map (f := Prod.fst).1 hkeys
  refine hbounds.filterMap _ fun d e hlt d' hd e' he => ?_
  obtain ⟨_, -, rfl⟩ := Option.map_eq_some_iff.1 hd
  obtain ⟨_, -, rfl⟩ := Option.map_eq_some_iff.1 he
  exact hlt

/-- The field of a range stands in front of its bounds. -/
theorem field_lt_of_mem_members {b : Bounds} {e : String × Json} (h : e ∈ b.members) :
    "field" < e.1 := by
  have hkeys : ∀ key ∈ ["gt", "gte", "lt", "lte"], "field" < key := by decide
  obtain ⟨d, hd, he⟩ := List.mem_filterMap.1 h
  obtain ⟨_, -, rfl⟩ := Option.map_eq_some_iff.1 he
  exact hkeys d.1 (List.mem_map_of_mem hd)

/-- A bound that is not set is missing, one that is set is read back. -/
theorem orDefault_map {o : Option Bound} (h : ∀ x ∈ o, x.IsSized) :
    Json.orDefault .none (Json.nullable? Bound.ofJson?) (o.map Bound.toJson) = some o := by
  cases o with
  | none => rfl
  | some x => exact Json.nullable?_of_read rfl (Bound.ofJson?_toJson (h x rfl))

theorem ofFields?_members {b : Bounds} (h : b.IsSized) :
    ofFields? (names.map fun name => b.members.lookup name) = some b := by
  obtain ⟨hgte, hgt, hlte, hlt⟩ := b.lookup_members
  simp only [names, List.map_cons, List.map_nil, hgte, hgt, hlte, hlt, ofFields?,
    orDefault_map h.gte, orDefault_map h.gt, orDefault_map h.lte, orDefault_map h.lt]
  rfl

/-- **Bounds are what their JSON value is read as.** -/
theorem ofJson?_toJson {b : Bounds} (h : b.IsSized) : ofJson? b.toJson = some b := by
  show (b.toJson.fields? names).bind ofFields? = some b
  rw [toJson, Json.fields?_object b.isOrdered_members]
  exact ofFields?_members h

end Bounds

/-- **A range is what its parts are read as**, its bounds beside its field. -/
theorem Primitive.rangeOfJson?_parts? {field : String} {b : Bounds} (h : b.IsSized) :
    (range field b).parts?.bind rangeOfJson? = some (range field b) := by
  have hordered : Table.IsOrdered (("field", Json.string field) :: b.members) :=
    Table.isOrdered_cons.2 ⟨fun _ he => Bounds.field_lt_of_mem_members he, b.isOrdered_members⟩
  have hbeside : Bounds.names.map (fun name =>
      (("field", Json.string field) :: b.members).lookup name) =
        Bounds.names.map fun name => b.members.lookup name := by
    have hnames : ∀ name ∈ Bounds.names, name ≠ "field" := by decide
    refine List.map_congr_left fun name hname => ?_
    rw [Table.lookup_cons, if_neg (hnames name hname)]
  rw [parts?, Option.bind_some, Json.record_eq_object hordered, rangeOfJson?,
    Json.fields?_object hordered, List.map_cons, hbeside, Table.lookup_cons, if_pos rfl]
  show (Bounds.ofFields? _).bind (fun bounds => some (range field bounds)) = _
  rw [Bounds.ofFields?_members h]
  rfl

/-! ### All of them -/

/-- **What is written is read back**, for mappings, settings, configurations, requests, bounds and
ranges. A mapping that was read from anything at all is read from its own JSON value again. -/
theorem decode_encode :
    (∀ m : Mapping, m.IsOrdered → Mapping.ofJson? m.toJson = some m) ∧
      (∀ s : Settings, s.IsSized → Settings.ofJson? s.toJson = some s) ∧
      (∀ c : Config, c.IsSized → Config.ofJson? c.toJson = some c) ∧
      (∀ r : Request, r.IsSized → Request.ofJson? r.toJson = some r) ∧
      (∀ b : Bounds, b.IsSized → Bounds.ofJson? b.toJson = some b) ∧
      (∀ (field : String) (b : Bounds), b.IsSized →
        (Primitive.range field b).parts?.bind Primitive.rangeOfJson? = some (.range field b)) ∧
      ∀ (j : Json) (m : Mapping), Mapping.ofJson? j = some m → Mapping.ofJson? m.toJson = some m :=
  ⟨fun _ => Mapping.ofJson?_toJson, fun _ => Settings.ofJson?_toJson,
    fun _ => Config.ofJson?_toJson, fun _ => Request.ofJson?_toJson,
    fun _ => Bounds.ofJson?_toJson, fun _ _ => Primitive.rangeOfJson?_parts?,
    fun _ _ => Mapping.ofJson?_toJson_of_ofJson?⟩

/-- A field below another one and one of unknown type, with everything else that is read. -/
theorem decode_encode_listings :
    let units := (FieldMapping.leaf .nested).property "size" (.leaf .long)
    let mapping := (Mapping.empty.field "units" units).field "address" (.leaf .other)
    let config : Config := ⟨64, [("listings", .standard)]⟩
    let request := { Request.forIndex "listings" with facetSize := some 5, offset := some (-1) }
    let bounds : Bounds := ⟨some (.long 3), none, some (.double .zero), some (.string "z")⟩
    let found := Json.object [("properties", .object
      [("address", .object [("index", .bool false), ("type", .string "ip")])])]
    Mapping.ofJson? mapping.toJson = some mapping ∧
      Settings.ofJson? Settings.standard.toJson = some .standard ∧
      Config.ofJson? config.toJson = some config ∧ Request.ofJson? request.toJson = some request ∧
      Bounds.ofJson? bounds.toJson = some bounds ∧
      (Primitive.range "price" bounds).parts?.bind Primitive.rangeOfJson? =
        some (.range "price" bounds) ∧
      ∃ m, Mapping.ofJson? found = some m ∧ Mapping.ofJson? m.toJson = some m := by
  intro units mapping config request bounds found
  have hunits : units.IsOrdered := (FieldMapping.IsOrdered.leaf _).property _ (.leaf _)
  have hmapping : mapping.IsOrdered := (Mapping.isOrdered_empty.field _ hunits).field _ (.leaf _)
  have hsettings : Settings.standard.IsSized := ⟨by decide, by decide, by decide⟩
  have hconfig : config.IsSized := ⟨by decide, List.pairwise_singleton .., by simpa [config]⟩
  have hrequest : request.IsSized :=
    { facetSize := by rintro _ ⟨⟩; decide
      offset := by rintro _ ⟨⟩; decide
      size := by rintro _ ⟨⟩ }
  have hbounds : bounds.IsSized :=
    { gte := by rintro _ ⟨⟩ _ ⟨⟩; decide
      gt := by rintro _ ⟨⟩
      lte := by rintro _ ⟨⟩ _ ⟨⟩
      lt := by rintro _ ⟨⟩ _ ⟨⟩ }
  have hfound : Mapping.ofJson? found = some ⟨[("address", .leaf .other)]⟩ := rfl
  obtain ⟨h₁, h₂, h₃, h₄, h₅, h₆, h₇⟩ := decode_encode
  exact ⟨h₁ mapping hmapping, h₂ _ hsettings, h₃ config hconfig, h₄ request hrequest,
    h₅ bounds hbounds, h₆ "price" bounds hbounds, _, hfound, h₇ _ _ hfound⟩

end SearchDsl
