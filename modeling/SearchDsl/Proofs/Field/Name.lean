import SearchDsl.Proofs.Outcome
import SearchDsl.Token.Reading

/-!
# Fields keep the names they were looked up by

* `joinDots_splitDots`: the parts of a name, joined by dots, are the name;
* `splitDots_joinDots`: and parts without dots are those of the name that they make up;
* `Reading.name_of_resolve`: hence a field that a name resolves to has that name, with or without a
  mapping.
-/

namespace SearchDsl

theorem dotParts_ne_nil (cs : List Char) : dotParts cs ≠ [] := by
  cases cs with
  | nil => simp [dotParts]
  | cons c cs =>
    rw [dotParts]
    split
    · simp
    · split <;> simp

/-- The parts between the dots of a text, joined by dots, are the text. -/
theorem intercalate_dotParts (cs : List Char) :
    (".".intercalate ((dotParts cs).map String.ofList)).toList = cs := by
  induction cs with
  | nil => rfl
  | cons c cs ih =>
    rw [dotParts]
    cases hp : dotParts cs with
    | nil => exact absurd hp (dotParts_ne_nil cs)
    | cons part parts =>
      rw [hp] at ih
      by_cases hc : c = '.'
      · simp only [hc, if_true, List.map_cons, String.intercalate_cons_cons] at ih ⊢
        simp [ih]
      · simp only [hc, if_false]
        cases parts with
        | nil =>
          simp only [List.map_cons, List.map_nil, String.intercalate_singleton,
            String.toList_ofList] at ih ⊢
          rw [ih]
        | cons next rest =>
          simp only [List.map_cons, String.intercalate_cons_cons, String.toList_append,
            String.toList_ofList, List.cons_append] at ih ⊢
          rw [ih]

/-- **The parts of a name make up the name.** -/
theorem joinDots_splitDots (name : String) : joinDots (splitDots name) = name := by
  rw [← String.toList_inj, joinDots, splitDots, intercalate_dotParts]

/-- A dot ends a part. -/
theorem dotParts_append {part : List Char} (h : '.' ∉ part) (cs : List Char) :
    dotParts (part ++ '.' :: cs) = part :: dotParts cs := by
  induction part with
  | nil =>
    rw [List.nil_append, dotParts]
    cases hp : dotParts cs with
    | nil => exact absurd hp (dotParts_ne_nil cs)
    | cons p ps => simp
  | cons c part ih =>
    obtain ⟨hc, hpart⟩ : '.' ≠ c ∧ '.' ∉ part := by simpa using h
    rw [List.cons_append, dotParts, ih hpart]
    simp [Ne.symm hc]

/-- A text without dots is one part. -/
theorem dotParts_singleton {part : List Char} (h : '.' ∉ part) : dotParts part = [part] := by
  induction part with
  | nil => rfl
  | cons c part ih =>
    obtain ⟨hc, hpart⟩ : '.' ≠ c ∧ '.' ∉ part := by simpa using h
    rw [dotParts, ih hpart]
    simp [Ne.symm hc]

theorem dot_not_mem_dotParts {cs part : List Char} (h : part ∈ dotParts cs) : '.' ∉ part := by
  induction cs generalizing part with
  | nil =>
    rw [List.mem_singleton.1 h]
    simp
  | cons c cs ih =>
    rw [dotParts] at h
    cases hp : dotParts cs with
    | nil => exact absurd hp (dotParts_ne_nil cs)
    | cons first parts =>
      rw [hp] at ih h
      dsimp only at h
      split at h
      · rcases List.mem_cons.1 h with rfl | h
        · simp
        · exact ih h
      · rename_i hc
        rcases List.mem_cons.1 h with rfl | h
        · have := ih List.mem_cons_self
          simp [Ne.symm hc, this]
        · exact ih (List.mem_cons_of_mem _ h)

theorem dot_not_mem_splitDots {name part : String} (h : part ∈ splitDots name) :
    '.' ∉ part.toList := by
  obtain ⟨cs, hcs, rfl⟩ := List.mem_map.1 h
  rw [String.toList_ofList]
  exact dot_not_mem_dotParts hcs

/-- **Parts without dots are those of the name that they make up.** -/
theorem splitDots_joinDots {names : List String} (hne : names ≠ [])
    (h : ∀ n ∈ names, '.' ∉ n.toList) : splitDots (joinDots names) = names := by
  induction names with
  | nil => exact absurd rfl hne
  | cons n ns ih =>
    obtain ⟨hn, hns⟩ := List.forall_mem_cons.1 h
    cases ns with
    | nil => simp [splitDots, joinDots, dotParts_singleton hn]
    | cons m ms =>
      have ih := ih (by simp) hns
      have hjoin : (joinDots (n :: m :: ms)).toList =
          n.toList ++ '.' :: (joinDots (m :: ms)).toList := by
        simp [joinDots, String.intercalate_cons_cons]
      rw [splitDots, hjoin, dotParts_append hn, List.map_cons, String.ofList_toList]
      exact congrArg _ ih

namespace Field

theorem name_ofName (name : String) : (ofName name).name = name := joinDots_splitDots name

theorem name_typed (name : String) (types : List FieldType) : (typed name types).name = name :=
  joinDots_splitDots name

end Field

/-- The table of a mapping lists every field by its name, with the types along its path. -/
theorem Mapping.exists_types_of_mem_fields {m : Mapping} {name : String} {field : Field}
    (h : (name, field) ∈ m.fields) :
    ∃ types, m.types? name = some types ∧ field = Field.typed name types := by
  obtain ⟨entry, -, hentry⟩ := List.mem_filterMap.1 (mem_of_mem_distinctOn h)
  simp only [Option.map_eq_some_iff, Prod.mk.injEq] at hentry
  obtain ⟨types, htypes, rfl, rfl⟩ := hentry
  exact ⟨types, htypes, rfl⟩

/-- A name resolves to itself if it is known without a mapping, and else to a listed field. -/
theorem Snapshot.resolve_eq_ok {s : Snapshot} {name : String} {wild : Bool} {field : Field}
    (h : s.resolve name wild = .ok field) :
    ((name = wildcard ∧ wild = true ∨ name ∈ metaFields) ∧ field = Field.ofName name) ∨
      (name, field) ∈ s.mapping.fields := by
  unfold resolve at h
  split at h
  · rename_i hname
    split at h
    · rename_i hwild
      exact .inl ⟨.inl ⟨hname, hwild⟩, (Except.ok.inj h).symm⟩
    · cases h
  · split at h
    · rename_i hmeta
      exact .inl ⟨.inr (by simpa using hmeta), (Except.ok.inj h).symm⟩
    · split at h
      · rename_i f hf
        cases h
        exact .inr (s.fields_eq ▸ Table.mem_of_lookup hf)
      · cases h

theorem Snapshot.name_of_resolve {s : Snapshot} {name : String} {wild : Bool} {field : Field}
    (h : s.resolve name wild = .ok field) : field.name = name := by
  rcases resolve_eq_ok h with ⟨-, rfl⟩ | hmem
  · exact Field.name_ofName name
  · obtain ⟨types, -, rfl⟩ := Mapping.exists_types_of_mem_fields hmem
    exact Field.name_typed name types

/-- The segments of a field are those of the name that it was looked up by. -/
theorem Snapshot.names_of_resolve {s : Snapshot} {name : String} {wild : Bool} {field : Field}
    (h : s.resolve name wild = .ok field) : field.names = splitDots name := by
  rcases resolve_eq_ok h with ⟨-, rfl⟩ | hmem
  · rfl
  · obtain ⟨types, -, rfl⟩ := Mapping.exists_types_of_mem_fields hmem
    rfl

theorem Snapshot.negated_of_resolve {s : Snapshot} {name : String} {wild : Bool} {field : Field}
    (h : s.resolve name wild = .ok field) : { field with negated := false } = field := by
  rcases resolve_eq_ok h with ⟨-, rfl⟩ | hmem
  · rfl
  · obtain ⟨types, -, rfl⟩ := Mapping.exists_types_of_mem_fields hmem
    rfl

/-- A field whose name has one segment lies inside nothing. -/
theorem Snapshot.nestedPaths_of_resolve {s : Snapshot} {name : String} {wild : Bool} {field : Field}
    (h : s.resolve name wild = .ok field) (hname : (splitDots name).length = 1) :
    field.nestedPaths = [] := by
  rcases resolve_eq_ok h with ⟨-, rfl⟩ | hmem
  · rfl
  · obtain ⟨types, -, rfl⟩ := Mapping.exists_types_of_mem_fields hmem
    unfold Field.nestedPaths Field.typed
    dsimp only
    rw [hname]
    split
    · rfl
    · rename_i ts hts
      split at hts
      · rename_i hlength
        obtain rfl := Option.some.inj hts
        obtain ⟨t, rfl⟩ := List.length_eq_one_iff.1 hlength
        rfl
      · cases hts

/-- **A name resolves to a field of that name.** -/
theorem Reading.name_of_resolve {g : Grammar} {name : String} {field : Field}
    (h : resolve g name = .ok field) : field.name = name := by
  unfold resolve at h
  split at h
  · exact Snapshot.name_of_resolve h
  · cases h
    exact Field.name_ofName name

theorem Reading.names_of_resolve {g : Grammar} {name : String} {field : Field}
    (h : resolve g name = .ok field) : field.names = splitDots name := by
  unfold resolve at h
  split at h
  · exact Snapshot.names_of_resolve h
  · cases h
    rfl

/-- Fields that were looked up have the same segments if they have the same name. -/
theorem Reading.names_eq_iff_of_resolve {g : Grammar} {name name' : String} {field field' : Field}
    (h : resolve g name = .ok field) (h' : resolve g name' = .ok field') :
    field.names = field'.names ↔ field.name = field'.name := by
  refine ⟨congrArg joinDots, fun hname => ?_⟩
  rw [name_of_resolve h, name_of_resolve h'] at hname
  rw [names_of_resolve h, names_of_resolve h', hname]

end SearchDsl
