import Mathlib.Data.Finset.Card
import Mathlib.Data.Finset.Dedup
import SearchDsl.Proofs.Schema.Resolved

/-!
# The table of fields agrees with the mapping

The table of a snapshot is made by listing the fields of the mapping under their dotted names, and a
name is then looked up whole. The mapping is asked by the parts of the name instead.

* `FieldMapping.exists_mem_flattenFields`: along a path without empty parts every field is listed
  under the dots of its path;
* `Mapping.map_fst_fields`: so the table has just the listed names that a path leads to;
* `Mapping.IsAt`: what a field in the table knows of its path, its own nested documents among them;
* `Snapshot.resolve_agrees`: names resolve, and fields are counted, as the mapping has them.
-/

namespace SearchDsl

/-! ### Names of fields below fields -/

/-- Names joined by dots are not empty if they are some names that are not empty. -/
theorem joinDots_ne_empty {names : List String} (hne : names ≠ []) (h : ∀ n ∈ names, n ≠ "") :
    joinDots names ≠ "" := by
  cases names with
  | nil => exact absurd rfl hne
  | cons n ns =>
    have hn := h n List.mem_cons_self
    cases ns with
    | nil => simpa [joinDots] using hn
    | cons m ms => simp [joinDots, String.intercalate_cons_cons, hn]

theorem joinDots_append {names more : List String} (hne : names ≠ []) (hmore : more ≠ []) :
    joinDots (names ++ more) = joinDots names ++ "." ++ joinDots more :=
  String.intercalate_append_of_ne_nil hne hmore

theorem joinDots_singleton (name : String) : joinDots [name] = name := String.intercalate_singleton

/-! ### Fields -/

namespace Field

/-- A field lies in the nested documents at the segments in front of its last one. -/
theorem nestedPaths_eq {f : Field} {types : List FieldType} (h : f.types = some types) :
    f.nestedPaths = ((List.range (types.length - 1)).filter fun i => types[i]? = some .nested).map
      fun i => joinDots (f.names.take (i + 1)) := by
  have hzip : (List.range types.length).zip types.dropLast =
      (List.range (types.length - 1)).map fun i => (i, (types[i]?).getD .other) := by
    refine List.ext_getElem (by simp) fun i hi _ => ?_
    have hlt : i < types.length := by
      simp at hi
      omega
    simp [hlt]
  simp only [nestedPaths, h]
  rw [hzip, List.filterMap_map, ← List.filterMap_eq_filter, List.map_filterMap]
  refine List.filterMap_congr fun i hi => ?_
  have hlt : i < types.length := by
    have := List.mem_range.1 hi
    omega
  by_cases ht : types[i] = .nested
  · simp [hlt, ht, FieldType.isNested, Option.guard]
  · simp [hlt, ht, FieldType.isNested_iff, Option.guard]

/-- The names in front of the full one. -/
theorem dropLast_prefixes (f : Field) : f.prefixes.dropLast =
    (List.range (f.names.length - 1)).map fun i => joinDots (f.names.take (i + 1)) := by
  refine List.ext_getElem (by simp [prefixes]) fun i _ _ => ?_
  simp [prefixes]

end Field

/-! ### Paths through fields -/

namespace FieldMapping

theorem fullName_joinDots {above : List String} (h : ∀ n ∈ above, n ≠ "") (name : String) :
    fullName (joinDots above) name = joinDots (above ++ [name]) := by
  cases above with
  | nil => simp [fullName, joinDots]
  | cons n ns =>
    have hne := joinDots_ne_empty (by simp) h
    rw [fullName, if_neg (by simpa [String.isEmpty_iff] using hne),
      joinDots_append (by simp) (by simp), joinDots_singleton]

/-- A field is listed under its full name, in front of the fields below it. -/
theorem mem_flattenFields_of_lookup {above name : String} {fields : List (String × FieldMapping)}
    {field : FieldMapping} (h : fields.lookup name = some field) :
    (fullName above name, field.type) ∈ flattenFields above fields ∧
      flattenField (fullName above name) field ⊆ flattenFields above fields := by
  induction fields with
  | nil => cases h
  | cons e rest ih =>
    obtain ⟨k, v⟩ := e
    rw [Table.lookup_cons] at h
    rw [flattenFields]
    split at h
    · rename_i hk
      cases h
      subst hk
      exact ⟨List.mem_cons_self, fun x hx =>
        List.mem_cons_of_mem _ (List.mem_append_left _ hx)⟩
    · obtain ⟨hmem, hbelow⟩ := ih h
      exact ⟨List.mem_cons_of_mem _ (List.mem_append_right _ hmem), fun x hx =>
        List.mem_cons_of_mem _ (List.mem_append_right _ (hbelow hx))⟩

/-- **Every field along a path is listed under the names of the path**, if none of them is empty. -/
theorem exists_mem_flattenFields {above names : List String}
    {fields : List (String × FieldMapping)} {ms : List FieldMapping}
    (habove : ∀ n ∈ above, n ≠ "") (hnames : ∀ n ∈ names, n ≠ "") (hne : names ≠ [])
    (h : along (some fields) names = some ms) :
    ∃ t, (joinDots (above ++ names), t) ∈ flattenFields (joinDots above) fields := by
  induction names generalizing above fields ms with
  | nil => exact absurd rfl hne
  | cons name names ih =>
    simp only [along, Option.bind_eq_bind, Option.bind_eq_some_iff, Option.pure_def,
      Option.some.injEq] at h
    obtain ⟨field, hfield, below, hbelow, rfl⟩ := h
    obtain ⟨hlisted, hsub⟩ := @mem_flattenFields_of_lookup (joinDots above) _ _ _ hfield
    rw [fullName_joinDots habove] at hlisted hsub
    cases names with
    | nil => exact ⟨_, hlisted⟩
    | cons next names =>
      obtain ⟨type, properties⟩ := field
      cases properties with
      | none => cases hbelow
      | some inner =>
        obtain ⟨hname, hrest⟩ := List.forall_mem_cons.1 hnames
        have hextended : ∀ n ∈ above ++ [name], n ≠ "" := by
          intro n hn
          rcases List.mem_append.1 hn with hn | hn
          · exact habove n hn
          · rwa [List.mem_singleton.1 hn]
        obtain ⟨t, ht⟩ := ih hextended hrest (by simp) hbelow
        rw [List.append_assoc] at ht
        exact ⟨t, hsub ht⟩

/-- Along the beginning of a path are the first of its fields. -/
theorem along_take {fields : Option (List (String × FieldMapping))} {names : List String}
    {ms : List FieldMapping} (h : along fields names = some ms) (k : Nat) :
    along fields (names.take k) = some (ms.take k) := by
  induction names generalizing fields ms k with
  | nil =>
    have hms : ms = [] := List.length_eq_zero_iff.1 (length_along h)
    rw [hms, List.take_nil, List.take_nil]
    cases fields <;> rfl
  | cons name names ih =>
    cases fields with
    | none => cases h
    | some fields =>
      simp only [along, Option.bind_eq_bind, Option.bind_eq_some_iff, Option.pure_def,
        Option.some.injEq] at h
      obtain ⟨field, hfield, below, hbelow, rfl⟩ := h
      cases k with
      | zero => rfl
      | succ k => simp [along, hfield, ih hbelow k]

end FieldMapping

namespace Mapping

variable {m : Mapping} {path : String}

/-! ### The names of the table -/

theorem isSome_types?_iff : (m.types? path).isSome = true ↔ (m.get? path).isSome = true := by
  unfold types? get?
  cases h : m.along path with
  | none => simp
  | some ms =>
    obtain ⟨-, last, hlast⟩ := exists_last_of_along h
    simp [hlast]

/-- **The table has the listed names that a path leads to**, each once. -/
theorem map_fst_fields (m : Mapping) :
    m.fields.map Prod.fst =
      distinctOn id ((m.flatten.map Prod.fst).filter fun name => (m.get? name).isSome) := by
  rw [fields, map_distinctOn]
  congr 1
  rw [List.map_filterMap, List.filter_map, ← List.filterMap_eq_filter, List.map_filterMap]
  refine List.filterMap_congr fun e _ => ?_
  have hiff := @isSome_types?_iff m e.1
  cases htypes : m.types? e.1 with
  | none => simp_all
  | some types => simp_all

theorem mem_map_fst_fields {name : String} :
    name ∈ m.fields.map Prod.fst ↔
      name ∈ m.flatten.map Prod.fst ∧ (m.get? name).isSome = true := by
  rw [map_fst_fields, mem_distinctOn_id, List.mem_filter]

theorem exists_mem_flatten (hpath : ∀ part ∈ splitDots path, part ≠ "")
    (h : (m.get? path).isSome = true) : path ∈ m.flatten.map Prod.fst := by
  obtain ⟨field, hfield⟩ := Option.isSome_iff_exists.1 h
  obtain ⟨ms, hms, -⟩ := Option.bind_eq_some_iff.1 hfield
  have habove : ∀ n ∈ ([] : List String), n ≠ "" := by simp
  obtain ⟨t, ht⟩ := FieldMapping.exists_mem_flattenFields habove hpath (splitDots_ne_nil path) hms
  rw [List.nil_append, joinDots_splitDots] at ht
  exact List.mem_map.2 ⟨_, ht, rfl⟩

/-! ### Nested documents around a field -/

/-- The beginning of a path leads to one of the fields along the path. -/
theorem get?_take {ms : List FieldMapping} (h : m.along path = some ms) {i : Nat}
    (hi : i < ms.length) : m.get? (joinDots ((splitDots path).take (i + 1))) = some ms[i] := by
  have hne : (splitDots path).take (i + 1) ≠ [] := by
    simp [splitDots_ne_nil]
  have hdots : ∀ n ∈ (splitDots path).take (i + 1), '.' ∉ n.toList :=
    fun n hn => dot_not_mem_splitDots (List.mem_of_mem_take hn)
  rw [get?, along, splitDots_joinDots hne hdots, FieldMapping.along_take h (i + 1)]
  simp [List.getLast?_take, hi]

/-- The nested documents that a field lies in are at the beginnings of its path. -/
theorem nestedPaths_typed {ms : List FieldMapping} (h : m.along path = some ms) :
    (Field.typed path (ms.map (·.type))).nestedPaths =
      (Field.ofName path).prefixes.dropLast.filter
        fun q => (m.get? q).map (·.type) = some .nested := by
  obtain ⟨hlen, -⟩ := exists_last_of_along h
  have htypes : (Field.typed path (ms.map (·.type))).types = some (ms.map (·.type)) := by
    simp [Field.typed, hlen]
  rw [Field.nestedPaths_eq htypes, Field.dropLast_prefixes, List.filter_map, List.length_map, hlen]
  refine congrArg _ (List.filter_congr fun i hi => ?_)
  have hlt : i < ms.length := by
    have := List.mem_range.1 hi
    omega
  simp [Field.ofName, get?_take h hlt, hlt]

/-- What a field knows of the mapping that it was looked up in: its path, the types of the segments
and the nested documents that it lies in, the outermost first. -/
structure IsAt (m : Mapping) (path : String) (field : Field) : Prop where
  name : field.name = path
  types : field.types = m.types? path
  nestedPaths : field.nestedPaths =
    (Field.ofName path).prefixes.dropLast.filter fun q => (m.get? q).map (·.type) = some .nested

theorem isAt_of_mem_fields {field : Field} (h : (path, field) ∈ m.fields) :
    m.IsAt path field := by
  obtain ⟨types, htypes, rfl⟩ := exists_types_of_mem_fields h
  obtain ⟨ms, hms, rfl⟩ := Option.map_eq_some_iff.1 htypes
  obtain ⟨hlen, -⟩ := exists_last_of_along hms
  exact {
    name := Field.name_typed ..
    types := by simp [Field.typed, hlen, htypes]
    nestedPaths := nestedPaths_typed hms }

end Mapping

/-! ### Snapshots -/

namespace Snapshot

variable {s : Snapshot} {path : String} {wild : Bool}

/-- A name that is known only from the mapping resolves if the table has it. -/
theorem resolve_eq_lookup (hwild : path ≠ wildcard) (hmeta : path ∉ metaFields) {field : Field} :
    s.resolve path wild = .ok field ↔ s.mapping.fields.lookup path = some field := by
  rw [resolve, if_neg hwild, if_neg (by simpa using hmeta), s.fields_eq]
  cases s.mapping.fields.lookup path <;> simp

/-- A path without empty parts is in the table if it leads to a field. -/
theorem isSome_lookup_iff (hpath : ∀ part ∈ splitDots path, part ≠ "") :
    (s.mapping.fields.lookup path).isSome = true ↔ (s.mapping.get? path).isSome = true := by
  have hmem : (s.mapping.fields.lookup path).isSome = true ↔
      path ∈ s.mapping.fields.map Prod.fst := by
    simp [List.lookup_isSome_iff]
  rw [hmem, Mapping.mem_map_fst_fields]
  exact ⟨fun h => h.2, fun h => ⟨Mapping.exists_mem_flatten hpath h, h⟩⟩

/-- The type in the table is that of the field that the path leads to. -/
theorem type?_eq (hpath : ∀ part ∈ splitDots path, part ≠ "") :
    s.type? path = (s.mapping.get? path).map (·.type) := by
  rw [type?, s.fields_eq]
  cases hl : s.mapping.fields.lookup path with
  | none =>
    have hno : s.mapping.get? path = none := by
      rw [← Option.not_isSome_iff_eq_none, ← isSome_lookup_iff hpath, hl]
      simp
    rw [hno]
    rfl
  | some field =>
    obtain ⟨t, ht, hget⟩ := Mapping.type_of_mem_fields (Table.mem_of_lookup hl)
    rw [hget]
    exact ht

/-- The table has a field for each listed name that a path leads to. -/
theorem fieldCount_eq (s : Snapshot) :
    s.fieldCount = ((s.mapping.flatten.map Prod.fst).toFinset.filter
      fun name => (s.mapping.get? name).isSome).card := by
  have hset : (s.mapping.flatten.map Prod.fst).toFinset.filter
      (fun name => (s.mapping.get? name).isSome) = (s.mapping.fields.map Prod.fst).toFinset := by
    ext name
    rw [Finset.mem_filter, List.mem_toFinset, List.mem_toFinset, Mapping.mem_map_fst_fields]
  have hnodup : (s.mapping.fields.map Prod.fst).Nodup := nodup_map_distinctOn _
  rw [hset, List.toFinset_card_of_nodup hnodup, List.length_map, fieldCount, s.fields_eq]

/-- **The table of a snapshot agrees with the mapping.** A path without empty parts that is known
only from the mapping resolves just if it leads to a field, and has the type of that field; what it
resolves to knows of the mapping what there is to know at the path. The table has as many fields as
there are listed names that a path leads to. -/
theorem resolve_agrees (s : Snapshot) :
    (∀ (path : String) (wild : Bool), (∀ part ∈ splitDots path, part ≠ "") →
      path ≠ wildcard → path ∉ metaFields →
        ((∃ field, s.resolve path wild = .ok field) ↔ (s.mapping.get? path).isSome = true) ∧
        (∀ field, s.resolve path wild = .ok field → s.mapping.IsAt path field) ∧
        s.type? path = (s.mapping.get? path).map (·.type)) ∧
    s.fieldCount = ((s.mapping.flatten.map Prod.fst).toFinset.filter
      fun name => (s.mapping.get? name).isSome).card := by
  refine ⟨fun path wild hpath hwild hmeta => ⟨?_, fun field h => ?_, type?_eq hpath⟩,
    s.fieldCount_eq⟩
  · rw [← isSome_lookup_iff hpath, Option.isSome_iff_exists]
    simp only [resolve_eq_lookup hwild hmeta]
  · exact Mapping.isAt_of_mem_fields (Table.mem_of_lookup ((resolve_eq_lookup hwild hmeta).1 h))

/-- Rooms inside units, next to a key with a dot that takes the name of the rooms, and a nameless
field whose inner field is listed as if it were not inside. -/
theorem resolve_agrees_units :
    let rooms := (FieldMapping.leaf .nested).property "area" (.leaf .float)
    let mapping := ((Mapping.empty.field "units"
      ((FieldMapping.leaf .nested).property "rooms" rooms)).field
        "units.rooms" (.leaf .keyword)).field
        "" ((FieldMapping.leaf .object).property "size" (.leaf .integer))
    let s := Snapshot.ofMapping "listings" mapping 1
    let path := "units.rooms.area"
    (∀ part ∈ splitDots path, part ≠ "") ∧ path ≠ wildcard ∧ path ∉ metaFields ∧
      (∃ field, s.resolve path false = .ok field ∧ s.mapping.IsAt path field ∧
        field.nestedPaths = ["units", "units.rooms"]) ∧
      s.type? path = some .float ∧ s.fieldCount = 4 := by
  intro rooms mapping s path
  have hpath : ∀ part ∈ splitDots path, part ≠ "" := by decide +kernel
  have hwild : path ≠ wildcard := by decide
  have hmeta : path ∉ metaFields := by decide
  obtain ⟨hfields, hcount⟩ := resolve_agrees s
  obtain ⟨hresolve, hat, htype⟩ := hfields path false hpath hwild hmeta
  obtain ⟨field, hfield⟩ := hresolve.2 (by decide +kernel)
  refine ⟨hpath, hwild, hmeta, ⟨field, hfield, hat field hfield, ?_⟩, ?_, ?_⟩
  · rw [(hat field hfield).nestedPaths]
    decide +kernel
  · rw [htype]
    decide +kernel
  · rw [hcount]
    decide +kernel

end Snapshot
end SearchDsl
