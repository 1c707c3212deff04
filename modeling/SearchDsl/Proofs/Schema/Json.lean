import SearchDsl.Proofs.Json.Decode
import SearchDsl.Schema.Mapping.Json

/-!
# Mappings that are written and read

A mapping whose fields stand in tables at every depth (`Mapping.IsOrdered`) is what its JSON value
is read as (`Mapping.ofJson?_toJson`). Every mapping that is read is of this kind
(`Mapping.isOrdered_of_ofJson?`), whatever the value it was read from holds besides, and so are
those that are built up field by field.
-/

namespace SearchDsl

theorem FieldType.ofJson?_name (type : FieldType) : ofJson? (.string type.name) = some type := by
  rw [ofJson?, Json.named?_string, ofName_name]

namespace FieldMapping

/-- At every depth the fields stand in a table. -/
inductive IsOrdered : FieldMapping → Prop
  | leaf (type : FieldType) : IsOrdered ⟨type, none⟩
  | node (type : FieldType) (fields : List (String × FieldMapping)) :
    Table.IsOrdered fields → (∀ e ∈ fields, IsOrdered e.2) → IsOrdered ⟨type, some fields⟩

/-- The fields stand in a table, and so do those below each of them. -/
structure AreOrdered (fields : List (String × FieldMapping)) : Prop where
  table : Table.IsOrdered fields
  each : ∀ e ∈ fields, e.2.IsOrdered

theorem tableToJson_eq_map (fields : List (String × FieldMapping)) :
    tableToJson fields = fields.map fun e => (e.1, e.2.toJson) := by
  induction fields with
  | nil => rfl
  | cons e fields ih => rw [tableToJson, ih, List.map_cons]

/-- A table of fields is an object of its members as they stand. -/
theorem record_tableToJson {fields : List (String × FieldMapping)} (h : Table.IsOrdered fields) :
    Json.record (tableToJson fields) = .object (tableToJson fields) := by
  rw [tableToJson_eq_map, Json.record_eq_object (h.map toJson)]

/-- A table of fields is read back, if its fields are. -/
theorem readTable_tableToJson {fields : List (String × FieldMapping)} (h : Table.IsOrdered fields)
    (hread : ∀ e ∈ fields, ofJson? e.2.toJson = some e.2) :
    readTable (tableToJson fields) = some fields := by
  induction fields with
  | nil => rw [tableToJson, readTable]
  | cons e rest ih =>
    obtain ⟨name, field⟩ := e
    obtain ⟨hbehind, hrest⟩ := Table.isOrdered_cons.1 h
    obtain ⟨hfield, hread⟩ := List.forall_mem_cons.1 hread
    have hnew : (rest.lookup name).isSome = false := by rw [Table.lookup_of_lt hbehind]; rfl
    rw [tableToJson, readTable, hfield, ih hrest hread]
    show some (if (rest.lookup name).isSome = true then rest else Table.set name field rest) = _
    rw [hnew, if_neg Bool.false_ne_true, Table.set_of_lt hbehind]

/-- **A field is what its JSON value is read as.** -/
theorem ofJson?_toJson {m : FieldMapping} (h : m.IsOrdered) : ofJson? m.toJson = some m := by
  induction h with
  | leaf type =>
    have hwritten : toJson ⟨type, none⟩ = .object [("type", .string type.name)] := by
      rw [toJson]
      rfl
    simp [hwritten, ofJson?, readMembers, FieldType.ofJson?_name]
  | node type fields htable _ ih =>
    have hkeys : "properties" < "type" := by decide
    have hwritten : toJson ⟨type, some fields⟩ = .object
        [("properties", Json.record (tableToJson fields)), ("type", .string type.name)] := by
      rw [toJson, Json.record_eq_object (List.pairwise_pair.2 hkeys)]
    have hfields : readProperties (Json.record (tableToJson fields)) = some (some fields) := by
      rw [record_tableToJson htable, readProperties, readTable_tableToJson htable ih]
      rfl
    simp [hwritten, ofJson?, readMembers, FieldType.ofJson?_name, hfields]

/-! ### What is read -/

theorem areOrdered_nil : AreOrdered [] := ⟨List.Pairwise.nil, by simp⟩

theorem AreOrdered.set {fields : List (String × FieldMapping)} (h : AreOrdered fields)
    (name : String) {field : FieldMapping} (hfield : field.IsOrdered) :
    AreOrdered (Table.set name field fields) := by
  refine ⟨Table.isOrdered_set h.table, fun e he => ?_⟩
  rcases Table.mem_set he with rfl | he
  · exact hfield
  · exact h.each e he

theorem isOrdered_of_areOrdered {type : FieldType} {fields : Option (List (String × FieldMapping))}
    (h : ∀ fs ∈ fields, AreOrdered fs) : IsOrdered ⟨type, fields⟩ := by
  cases fields with
  | none => exact .leaf type
  | some fields => exact .node type fields (h fields rfl).table (h fields rfl).each

mutual

/-- Whatever a field is read from, the fields below it stand in tables. -/
theorem isOrdered_of_ofJson? (j : Json) {m : FieldMapping} (h : ofJson? j = some m) :
    m.IsOrdered := by
  cases j with
  | object members =>
    simp only [ofJson?, Option.bind_eq_bind, Option.bind_eq_some_iff] at h
    obtain ⟨⟨type, fields⟩, hread, h⟩ := h
    cases h
    refine isOrdered_of_areOrdered fun fs hfs => areOrdered_of_readMembers members hread ?_
    cases fields with
    | none => cases hfs
    | some fields => exact congrArg some hfs
  | array items =>
    -- Nothing at all, the type, or the type and the properties; more is refused.
    rcases items with _ | ⟨type, _ | ⟨fields, _ | ⟨_, _⟩⟩⟩
    · cases h
      exact .leaf .object
    · simp only [ofJson?, Option.map_eq_some_iff] at h
      obtain ⟨type, -, rfl⟩ := h
      exact .leaf type
    · simp only [ofJson?, Option.bind_eq_bind, Option.bind_eq_some_iff] at h
      obtain ⟨type, -, fields', hread, h⟩ := h
      cases h
      refine isOrdered_of_areOrdered fun fs hfs => areOrdered_of_readProperties fields ?_
      rw [hread, hfs]
    · simp [ofJson?] at h
  | _ => simp [ofJson?] at h

theorem areOrdered_of_readMembers (members : List (String × Json))
    {r : Option FieldType × Option (Option (List (String × FieldMapping)))}
    {fields : List (String × FieldMapping)} (h : readMembers members = some r)
    (hr : r.2 = some (some fields)) : AreOrdered fields := by
  cases members with
  | nil =>
    cases h
    cases hr
  | cons member rest =>
    obtain ⟨name, j⟩ := member
    simp only [readMembers, Option.bind_eq_bind, Option.bind_eq_some_iff] at h
    obtain ⟨⟨type, fields'⟩, hrest, h⟩ := h
    split at h
    · -- A type leaves the properties as they are.
      split at h
      · cases h
      · obtain ⟨_, -, h⟩ := Option.bind_eq_some_iff.1 h
        cases h
        exact areOrdered_of_readMembers rest hrest hr
    · split at h
      · split at h
        · cases h
        · obtain ⟨properties, hread, h⟩ := Option.bind_eq_some_iff.1 h
          cases h
          rw [Option.some.inj hr] at hread
          exact areOrdered_of_readProperties j hread
      · cases h
        exact areOrdered_of_readMembers rest hrest hr

theorem areOrdered_of_readProperties (j : Json) {fields : List (String × FieldMapping)}
    (h : readProperties j = some (some fields)) : AreOrdered fields := by
  cases j with
  | object members =>
    simp only [readProperties, Option.map_eq_some_iff, Option.some.injEq] at h
    obtain ⟨_, hread, rfl⟩ := h
    exact areOrdered_of_readTable members hread
  | _ => simp [readProperties] at h

/-- A table grows by one member at a time, from the last to the first. -/
theorem areOrdered_of_readTable (members : List (String × Json))
    {fields : List (String × FieldMapping)} (h : readTable members = some fields) :
    AreOrdered fields := by
  cases members with
  | nil =>
    cases h
    exact areOrdered_nil
  | cons member rest =>
    obtain ⟨name, j⟩ := member
    simp only [readTable, Option.bind_eq_bind, Option.bind_eq_some_iff] at h
    obtain ⟨field, hfield, table, htable, h⟩ := h
    cases h
    have hordered := areOrdered_of_readTable rest htable
    split
    · exact hordered
    · exact hordered.set name (isOrdered_of_ofJson? j hfield)

end

/-- Fields below a field can be added one by one. -/
theorem IsOrdered.property {m child : FieldMapping} (h : m.IsOrdered) (name : String)
    (hchild : child.IsOrdered) : (m.property name child).IsOrdered := by
  have hbelow : AreOrdered (m.properties.getD []) := by
    cases h with
    | leaf type => exact areOrdered_nil
    | node type fields htable heach => exact ⟨htable, heach⟩
  refine isOrdered_of_areOrdered fun fs hfs => ?_
  cases hfs
  exact hbelow.set name hchild

end FieldMapping

namespace Mapping

/-- At every depth the fields stand in a table. -/
def IsOrdered (m : Mapping) : Prop := FieldMapping.AreOrdered m.properties

theorem isOrdered_empty : empty.IsOrdered := FieldMapping.areOrdered_nil

/-- Fields can be added one by one. -/
theorem IsOrdered.field {m : Mapping} (h : m.IsOrdered) (name : String) {f : FieldMapping}
    (hf : f.IsOrdered) : (m.field name f).IsOrdered :=
  FieldMapping.AreOrdered.set h name hf

/-- **A mapping is what its JSON value is read as.** -/
theorem ofJson?_toJson {m : Mapping} (h : m.IsOrdered) : ofJson? m.toJson = some m := by
  have hread : FieldMapping.readTable (FieldMapping.tableToJson m.properties) = some m.properties :=
    FieldMapping.readTable_tableToJson h.table fun e he => FieldMapping.ofJson?_toJson (h.each e he)
  have hfields : m.toJson.fields? ["properties"] =
      some [some (Json.record (FieldMapping.tableToJson m.properties))] :=
    Json.fields?_record _ _
  rw [ofJson?, hfields, FieldMapping.record_tableToJson h.table]
  show (FieldMapping.readTable (FieldMapping.tableToJson m.properties)).map Mapping.mk = some m
  rw [hread]
  rfl

/-- **Whatever a mapping is read from, its fields stand in tables.** -/
theorem isOrdered_of_ofJson? {j : Json} {m : Mapping} (h : ofJson? j = some m) : m.IsOrdered := by
  simp only [ofJson?, Option.bind_eq_bind, Option.bind_eq_some_iff] at h
  obtain ⟨fields, -, h⟩ := h
  split at h
  · rename_i properties
    cases properties with
    | none =>
      cases h
      exact isOrdered_empty
    | some j =>
      cases j with
      | object members =>
        obtain ⟨properties, hread, rfl⟩ := Option.map_eq_some_iff.1 h
        exact FieldMapping.areOrdered_of_readTable members hread
      | _ => cases h
  · cases h

/-- **Writing what was read and reading it again changes nothing.** -/
theorem ofJson?_toJson_of_ofJson? {j : Json} {m : Mapping} (h : ofJson? j = some m) :
    ofJson? m.toJson = some m :=
  ofJson?_toJson (isOrdered_of_ofJson? h)

end Mapping
end SearchDsl
