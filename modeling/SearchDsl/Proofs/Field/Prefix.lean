import SearchDsl.Proofs.Schema.Lookup

/-!
# The beginnings of a path

A *dotted prefix* of a path is the dotted name of some of its first segments, of at least one. As a
text it is the path itself or what stands in front of one of its dots.

* `isDottedPrefix_iff`: the two descriptions agree;
* `Field.mem_prefixes_iff`: the prefixes of a field are the dotted prefixes of its name;
* `Snapshot.exists_resolve_of_isDottedPrefix`: if a path resolves, so do its dotted prefixes, as
  every field around a mapped one is in the table too.
-/

namespace SearchDsl

/-- The name is made up of the first segments of the path, of at least one of them. -/
def IsDottedPrefix (p path : String) : Prop :=
  ∃ segments, segments ≠ [] ∧ segments <+: splitDots path ∧ p = joinDots segments

/-! ### Prefixes of a text -/

theorem splitDots_append (p rest : String) :
    splitDots (p ++ "." ++ rest) = splitDots p ++ splitDots rest := by
  have hdots : ∀ n ∈ splitDots p ++ splitDots rest, '.' ∉ n.toList := by
    intro n hn
    rcases List.mem_append.1 hn with hn | hn
    · exact dot_not_mem_splitDots hn
    · exact dot_not_mem_splitDots hn
  have hne : splitDots p ++ splitDots rest ≠ [] := by simp [splitDots_ne_nil]
  rw [← splitDots_joinDots hne hdots, joinDots_append (splitDots_ne_nil p) (splitDots_ne_nil rest),
    joinDots_splitDots, joinDots_splitDots]

/-- **A dotted prefix is the path, or what stands in front of one of its dots.** -/
theorem isDottedPrefix_iff {p path : String} :
    IsDottedPrefix p path ↔ p = path ∨ ∃ rest, path = p ++ "." ++ rest := by
  constructor
  · rintro ⟨segments, hne, ⟨more, hmore⟩, rfl⟩
    have hpath : path = joinDots (segments ++ more) := by rw [hmore, joinDots_splitDots]
    cases more with
    | nil =>
      rw [List.append_nil] at hpath
      exact .inl hpath.symm
    | cons next more => exact .inr ⟨_, hpath.trans (joinDots_append hne (by simp))⟩
  · rintro (rfl | ⟨rest, rfl⟩)
    · exact ⟨splitDots p, splitDots_ne_nil p, List.prefix_rfl, (joinDots_splitDots p).symm⟩
    · refine ⟨splitDots p, splitDots_ne_nil p, ?_, (joinDots_splitDots p).symm⟩
      rw [splitDots_append]
      exact List.prefix_append _ _

/-- The segments of a dotted prefix are some of those of the path. -/
theorem splitDots_of_isDottedPrefix {p path : String} (h : IsDottedPrefix p path) :
    splitDots p <+: splitDots path := by
  obtain ⟨segments, hne, hbegins, rfl⟩ := h
  rwa [splitDots_joinDots hne fun n hn => dot_not_mem_splitDots (hbegins.mem hn)]

/-! ### Prefixes of a field -/

namespace Field

/-- The segments of the field are those of a dotted name. -/
def IsNamed (f : Field) : Prop := ∃ name, f.names = splitDots name

theorem names_of_isNamed {f : Field} (h : f.IsNamed) : f.names = splitDots f.name := by
  obtain ⟨name, hname⟩ := h
  rw [Field.name, hname, joinDots_splitDots]

/-- **The prefixes of a field are the dotted prefixes of its name.** -/
theorem mem_prefixes_iff {f : Field} (h : f.IsNamed) {p : String} :
    p ∈ f.prefixes ↔ IsDottedPrefix p f.name := by
  rw [prefixes, IsDottedPrefix, ← names_of_isNamed h, List.mem_map]
  constructor
  · rintro ⟨i, hi, rfl⟩
    refine ⟨_, ?_, List.take_prefix (i + 1) f.names, rfl⟩
    have hlt := List.mem_range.1 hi
    rw [ne_eq, List.take_eq_nil_iff, not_or]
    exact ⟨by omega, List.ne_nil_of_length_pos (by omega)⟩
  · rintro ⟨segments, hne, hbegins, rfl⟩
    have hpos := List.length_pos_iff.2 hne
    have hle := hbegins.length_le
    refine ⟨segments.length - 1, List.mem_range.2 (by omega), ?_⟩
    rw [Nat.sub_add_cancel hpos, ← List.prefix_iff_eq_take.1 hbegins]

end Field

/-! ### Prefixes in a mapping -/

/-- The fields along a path are those that its dotted prefixes lead to. -/
theorem Mapping.isSome_get?_of_isDottedPrefix {m : Mapping} {p path : String}
    (h : (m.types? path).isSome = true) (hp : IsDottedPrefix p path) :
    (m.get? p).isSome = true := by
  obtain ⟨segments, hne, hbegins, rfl⟩ := hp
  rw [types?, Option.isSome_map] at h
  obtain ⟨ms, hms⟩ := Option.isSome_iff_exists.1 h
  have hpos := List.length_pos_iff.2 hne
  have hlt : segments.length - 1 < ms.length := by
    have := hbegins.length_le
    rw [(exists_last_of_along hms).1]
    omega
  have hget := get?_take hms hlt
  rw [Nat.sub_add_cancel hpos, ← List.prefix_iff_eq_take.1 hbegins] at hget
  rw [hget]
  rfl

namespace Snapshot

variable {s : Snapshot} {p path : String} {field : Field}

theorem exists_resolve_of_get? (hwild : p ≠ wildcard) (hparts : ∀ part ∈ splitDots p, part ≠ "")
    (h : (s.mapping.get? p).isSome = true) : ∃ field, s.resolve p false = .ok field := by
  by_cases hmeta : p ∈ metaFields
  · refine ⟨Field.ofName p, ?_⟩
    rw [resolve, if_neg hwild, if_pos (by simpa using hmeta)]
  · obtain ⟨field, hfield⟩ := Option.isSome_iff_exists.1 ((isSome_lookup_iff hparts).2 h)
    exact ⟨field, (resolve_eq_lookup hwild hmeta).2 hfield⟩

/-- A meta field lies below nothing. -/
theorem eq_of_isDottedPrefix_meta (hmeta : path ∈ metaFields) (hp : IsDottedPrefix p path) :
    p = path := by
  rcases isDottedPrefix_iff.1 hp with h | ⟨rest, hrest⟩
  · exact h
  · have hdot : '.' ∈ path.toList := by simp [hrest]
    have hnone : ∀ name ∈ metaFields, '.' ∉ name.toList := by decide
    exact absurd hdot (hnone path hmeta)

/-- **The dotted prefixes of a path resolve where the path does**, apart from the name that stands
for all fields. -/
theorem exists_resolve_of_isDottedPrefix (h : s.resolve path false = .ok field)
    (hparts : ∀ part ∈ splitDots path, part ≠ "") (hp : IsDottedPrefix p path)
    (hwild : p ≠ wildcard) : ∃ field', s.resolve p false = .ok field' := by
  rcases resolve_eq_ok h with ⟨⟨-, hfalse⟩ | hmeta, -⟩ | hmem
  · cases hfalse
  · exact eq_of_isDottedPrefix_meta hmeta hp ▸ ⟨field, h⟩
  · obtain ⟨types, htypes, -⟩ := Mapping.exists_types_of_mem_fields hmem
    have hpartsOf : ∀ part ∈ splitDots p, part ≠ "" :=
      fun part hpart => hparts part ((splitDots_of_isDottedPrefix hp).mem hpart)
    exact exists_resolve_of_get? hwild hpartsOf
      (Mapping.isSome_get?_of_isDottedPrefix (by simp [htypes]) hp)

end Snapshot
end SearchDsl
