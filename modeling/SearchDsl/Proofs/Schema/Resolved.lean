import SearchDsl.Proofs.Field.Name

/-!
# Fields have the types that the mapping gives them

The table of a mapping gives a field one type for each segment of its path. So

* `Mapping.type_of_mem_fields`: the type of a listed field is that of the mapping at its path;
* `Snapshot.type_of_resolve`: and a name that is no meta field resolves to a field with this type;
* `Snapshot.resolve_meta`: of a meta field nothing is known but the name.
-/

namespace SearchDsl

/-- A path of some length leads through as many fields. -/
theorem FieldMapping.length_along {fields : Option (List (String × FieldMapping))}
    {names : List String} {ms : List FieldMapping} (h : along fields names = some ms) :
    ms.length = names.length := by
  induction names generalizing fields ms with
  | nil =>
    cases fields <;> cases h <;> rfl
  | cons name names ih =>
    cases fields with
    | none => cases h
    | some fields =>
      simp only [along, Option.bind_eq_bind, Option.bind_eq_some_iff, Option.pure_def,
        Option.some.injEq] at h
      obtain ⟨field, -, below, hbelow, rfl⟩ := h
      rw [List.length_cons, ih hbelow, List.length_cons]

theorem splitDots_ne_nil (name : String) : splitDots name ≠ [] := by
  rw [splitDots, ne_eq, List.map_eq_nil_iff]
  exact dotParts_ne_nil _

namespace Mapping

variable {m : Mapping} {name : String}

/-- The fields along a path are as many as the segments of the path, and there is one. -/
theorem exists_last_of_along {ms : List FieldMapping} (h : m.along name = some ms) :
    ms.length = (splitDots name).length ∧ ∃ last, ms.getLast? = some last := by
  have hlen := FieldMapping.length_along h
  refine ⟨hlen, ms.getLast ?_, List.getLast?_eq_some_getLast _⟩
  rintro rfl
  exact splitDots_ne_nil name (List.eq_nil_of_length_eq_zero hlen.symm)

/-- **A listed field has the type of the mapping at its path.** -/
theorem type_of_mem_fields {field : Field} (h : (name, field) ∈ m.fields) :
    ∃ t, field.type? = some t ∧ (m.get? name).map (·.type) = some t := by
  obtain ⟨types, htypes, rfl⟩ := exists_types_of_mem_fields h
  obtain ⟨ms, hms, rfl⟩ := Option.map_eq_some_iff.1 htypes
  obtain ⟨hlen, last, hlast⟩ := exists_last_of_along hms
  refine ⟨last.type, ?_, ?_⟩
  · simp [Field.type?, Field.typed, hlen, List.getLast?_map, hlast]
  · simp [get?, hms, hlast]

end Mapping

/-- A name that is no meta field resolves to a field with the type of the mapping. -/
theorem Snapshot.type_of_resolve {s : Snapshot} {name : String} {field : Field}
    (h : s.resolve name false = .ok field) (hmeta : name ∉ metaFields) :
    ∃ t, field.type? = some t ∧ (s.mapping.get? name).map (·.type) = some t := by
  rcases resolve_eq_ok h with ⟨⟨-, hwild⟩ | hmem, -⟩ | hmem
  · cases hwild
  · exact absurd hmem hmeta
  · exact Mapping.type_of_mem_fields hmem

/-- A meta field resolves to its name alone. -/
theorem Snapshot.resolve_meta {s : Snapshot} {name : String} {field : Field}
    (h : s.resolve name false = .ok field) (hmeta : name ∈ metaFields) :
    field = Field.ofName name := by
  unfold resolve at h
  split at h
  · cases h
  · rw [if_pos (by simpa using hmeta)] at h
    exact (Except.ok.inj h).symm

theorem Field.isTyped_of_type {f : Field} {t : FieldType} (h : f.type? = some t) :
    f.isTyped = true := by
  unfold Field.type? at h
  unfold Field.isTyped
  cases htypes : f.types with
  | none => simp [htypes] at h
  | some types => rfl

end SearchDsl
