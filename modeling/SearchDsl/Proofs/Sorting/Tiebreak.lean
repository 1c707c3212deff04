import Mathlib.Data.List.Nodup
import SearchDsl.Proofs.Sorting.Scope

/-!
# The last resort of a sort

The `_id` tells documents apart, so a sort leaves no two of them in an accidental order if one of
its clauses orders them by the value of the `_id`. The tiebreak is such a clause, but it is left out
where another clause has its name, and a clause that sorts by the distance from a point has the name
of its field too.

* `SortClause.clause_of_id`: what an item on the `_id` is compiled to;
* `SortClause.exists_id_clause_iff`: when the clauses for a request order documents by the `_id`.
-/

namespace SearchDsl

namespace SortClause

variable {schema : Snapshot} {settings : Settings} {i : SortItem} {c : SortClause}

/-- The item is on the `_id` as every document has it. -/
theorem field_of_id {limit : Nat} {ts : List Token} {n : Nat}
    (h : SortItem.Derives (Reading.resolve ⟨some schema, limit⟩) ts i n)
    (hid : i.field.name = Field.idName) : i.field = Field.ofName Field.idName := by
  obtain ⟨name, hname⟩ := h.exists_name
  have hresolve : schema.resolve name false = .ok i.field := hname
  obtain rfl : name = Field.idName := (Snapshot.name_of_resolve hresolve).symm.trans hid
  exact Snapshot.resolve_meta hresolve (by decide)

/-- **An item on the `_id`** is compiled to a clause by its value or by distance. -/
theorem clause_of_id {limit : Nat} {ts : List Token} {n : Nat}
    (h : SortItem.Derives (Reading.resolve ⟨some schema, limit⟩) ts i n)
    (hid : i.field.name = Field.idName) (hc : ofItem settings i = .ok c) :
    (i.key = .value ∧ c = .field Field.idName i.direction none) ∨
      ∃ origin, i.key = .distance origin ∧
        c = .distance Field.idName origin i.direction none := by
  have hfield := field_of_id h hid
  obtain ⟨q, rfl⟩ := exists_eq_clause hc
  have hscope : SortScope.ofPaths q i.field.nestedPaths = none := by
    rw [hfield]
    rfl
  cases hkey : i.key with
  | score =>
    have hscore := h.isScore hkey
    rw [hfield] at hscore
    cases hscore
  | value =>
    refine .inl ⟨rfl, ?_⟩
    simp only [SortItem.clause, hkey, hscope, hid]
  | distance origin =>
    refine .inr ⟨origin, rfl, ?_⟩
    simp only [SortItem.clause, hkey, hscope, hid]

theorem withTiebreak_of_mem {cs : List SortClause} (hc : c ∈ cs)
    (hid : c.fieldName = Field.idName) : withTiebreak cs = cs := by
  unfold withTiebreak
  rw [if_pos]
  exact List.any_eq_true.2 ⟨c, hc, by simpa using hid⟩

theorem withTiebreak_of_forall {cs : List SortClause} (h : ∀ c ∈ cs, c.fieldName ≠ Field.idName) :
    withTiebreak cs = cs ++ [tiebreak] := by
  unfold withTiebreak
  rw [if_neg]
  rw [Bool.not_eq_true, List.any_eq_false]
  exact fun c hc => by simpa using h c hc

section Clauses

variable {limit : Nat} {s : Sorting} {cs : List SortClause}
  (hderives : ∀ i ∈ s.items, ∃ ts n,
    SortItem.Derives (Reading.resolve ⟨some schema, limit⟩) ts i n)
  (hcs : List.Forall₂ (fun i c => ofItem settings i = .ok c) s.items cs)

include hderives

/-- Items on the `_id` of one sort are the same. -/
theorem eq_of_id {j : SortItem} (hdistinct : (s.items.map fun i => i.field.names).Nodup)
    (hi : i ∈ s.items) (hj : j ∈ s.items) (hid : i.field.name = Field.idName)
    (hid' : j.field.name = Field.idName) : i = j := by
  obtain ⟨ts, n, hd⟩ := hderives i hi
  obtain ⟨us, m, hd'⟩ := hderives j hj
  refine List.inj_on_of_nodup_map hdistinct hi hj ?_
  rw [field_of_id hd hid, field_of_id hd' hid']

include hcs

/-- An item on the `_id` has its clause. -/
theorem exists_clause_of_id (hi : i ∈ s.items) (hid : i.field.name = Field.idName) :
    ∃ c ∈ cs, c.fieldName = Field.idName ∧
      (i.key = .value → c = .field Field.idName i.direction none) := by
  obtain ⟨c, hc, hic⟩ := exists_mem_of_forall₂ hcs.flip i hi
  obtain ⟨ts, n, hd⟩ := hderives i hi
  refine ⟨c, hc, (fieldName_ofItem hd hic).trans hid, fun hkey => ?_⟩
  rcases clause_of_id hd hid hic with ⟨-, heq⟩ | ⟨origin, hkey', -⟩
  · exact heq
  · rw [hkey] at hkey'
    cases hkey'

/-- Only an item on the `_id` has a clause of its name, and only by its value one that orders by it.
-/
theorem exists_item_of_id (hc : c ∈ cs) (hid : c.fieldName = Field.idName) :
    ∃ i ∈ s.items, i.field.name = Field.idName ∧
      ((∃ d, c = .field Field.idName d none) → i.key = .value) := by
  obtain ⟨i, hi, hic⟩ := exists_mem_of_forall₂ hcs c hc
  obtain ⟨ts, n, hd⟩ := hderives i hi
  have hid' : i.field.name = Field.idName := (fieldName_ofItem hd hic).symm.trans hid
  refine ⟨i, hi, hid', ?_⟩
  rintro ⟨d, rfl⟩
  rcases clause_of_id hd hid' hic with ⟨hkey, -⟩ | ⟨origin, -, heq⟩
  · exact hkey
  · cases heq

/-- The tiebreak is left out just where an item is on the `_id`. -/
theorem withTiebreak_clauses :
    ((∃ i ∈ s.items, i.field.name = Field.idName) ∧ withTiebreak cs = cs) ∨
      (∀ i ∈ s.items, i.field.name ≠ Field.idName) ∧ withTiebreak cs = cs ++ [tiebreak] ∧
        ∀ c ∈ cs, c.fieldName ≠ Field.idName := by
  by_cases h : ∃ i ∈ s.items, i.field.name = Field.idName
  · obtain ⟨i, hi, hid⟩ := h
    obtain ⟨c, hc, hname, -⟩ := exists_clause_of_id hderives hcs hi hid
    exact .inl ⟨⟨i, hi, hid⟩, withTiebreak_of_mem hc hname⟩
  · push Not at h
    have hother : ∀ c ∈ cs, c.fieldName ≠ Field.idName := by
      intro c hc hid
      obtain ⟨i, hi, hid, -⟩ := exists_item_of_id hderives hcs hc hid
      exact h i hi hid
    exact .inr ⟨h, withTiebreak_of_forall hother, hother⟩

end Clauses

/-- **When documents are ordered by the `_id`.** The clauses for a request order them by its value
unless an item of the sort in use is on the `_id` by distance. An item by its value keeps its
direction; if no item is on the `_id`, the tiebreak comes last. -/
theorem exists_id_clause_iff (h : settings.sortDisabled = false) (requested : Option String) :
    ((∃ d, field Field.idName d none ∈ (ofRequest schema settings requested false).1) ↔
      ∀ i ∈ (Sorting.inUse schema settings requested false).items,
        i.field.name = Field.idName → i.key = .value) ∧
    (∀ i ∈ (Sorting.inUse schema settings requested false).items,
      i.field.name = Field.idName → i.key = .value →
        field Field.idName i.direction none ∈ (ofRequest schema settings requested false).1) ∧
    ((∀ i ∈ (Sorting.inUse schema settings requested false).items,
      i.field.name ≠ Field.idName) →
        ∃ before, (ofRequest schema settings requested false).1 = before ++ [tiebreak] ∧
          ∀ c ∈ before, c.fieldName ≠ Field.idName) := by
  have hderives : ∀ i ∈ (Sorting.inUse schema settings requested false).items, ∃ ts n,
      SortItem.Derives (Reading.resolve ⟨some schema, Expr.maxFragments⟩) ts i n :=
    Sorting.inUse_induction (by simp) fun _ _ => Sorting.exists_derives_of_read
  have hdistinct :
      ((Sorting.inUse schema settings requested false).items.map fun i => i.field.names).Nodup :=
    Sorting.inUse_induction .nil fun _ _ => Sorting.nodup_names_of_read
  obtain ⟨cs, hcs, hclauses⟩ := exists_ofRequest schema settings requested false
  rw [if_neg (by simp [h])] at hclauses
  rw [hclauses]
  generalize Sorting.inUse schema settings requested false = s at hderives hdistinct hcs
  rcases withTiebreak_clauses hderives hcs with ⟨⟨i, hi, hid⟩, heq⟩ | ⟨hno, heq, hother⟩
  · -- The clause of the item is the only one that could order by the `_id`.
    rw [heq]
    have hvalue : ∀ j ∈ s.items, j.field.name = Field.idName → j.key = .value →
        field Field.idName j.direction none ∈ cs := by
      intro j hj hjid hkey
      obtain ⟨c, hc, -, hfield⟩ := exists_clause_of_id hderives hcs hj hjid
      exact hfield hkey ▸ hc
    refine ⟨⟨?_, fun hall => ⟨_, hvalue i hi hid (hall i hi hid)⟩⟩, hvalue,
      fun hno => absurd hid (hno i hi)⟩
    rintro ⟨d, hd⟩ k hk hkid
    obtain ⟨j, hj, hjid, hkey⟩ := exists_item_of_id hderives hcs hd rfl
    rw [eq_of_id hderives hdistinct hk hj hkid hjid]
    exact hkey ⟨d, rfl⟩
  · rw [heq]
    refine ⟨iff_of_true ⟨.descending, ?_⟩ ?_, ?_, fun _ => ⟨cs, rfl, hother⟩⟩
    · exact List.mem_append_right _ (List.mem_singleton_self _)
    · exact fun i hi hid => absurd hid (hno i hi)
    · exact fun i hi hid => absurd hid (hno i hi)

/-- A requested sort that cannot be read, and a default one. -/
theorem exists_id_clause_iff_default :
    let schema := Snapshot.ofMapping "listings" (Mapping.empty.field "id" (.leaf .keyword)) 1
    let settings := { Settings.standard with defaultSort := "id, _score" }
    let s := Sorting.inUse schema settings (some "id SIDEWAYS") false
    let clauses := (ofRequest schema settings (some "id SIDEWAYS") false).1
    settings.sortDisabled = false ∧
      ((∃ d, field Field.idName d none ∈ clauses) ↔
        ∀ i ∈ s.items, i.field.name = Field.idName → i.key = .value) ∧
      (∀ i ∈ s.items, i.field.name = Field.idName → i.key = .value →
        field Field.idName i.direction none ∈ clauses) ∧
      ((∀ i ∈ s.items, i.field.name ≠ Field.idName) →
        ∃ before, clauses = before ++ [tiebreak] ∧ ∀ c ∈ before, c.fieldName ≠ Field.idName) :=
  ⟨rfl, exists_id_clause_iff rfl _⟩

/-- **A sort that leaves documents in an accidental order**: its only clause measures the distance
of the `_id`, which is no place, and the tiebreak is left out. -/
theorem no_id_clause :
    ¬ ∀ (schema : Snapshot) (settings : Settings) (requested : Option String),
      settings.sortDisabled = false →
        ∃ d scope, field Field.idName d scope ∈ (ofRequest schema settings requested false).1 := by
  intro hall
  let schema := Snapshot.ofMapping "listings" (Mapping.empty.field "id" (.leaf .keyword)) 1
  obtain ⟨d, scope, hmem⟩ := hall schema .standard (some "_id NEAR [1, 2]") rfl
  have hdistance : ((ofRequest schema .standard (some "_id NEAR [1, 2]") false).1.all fun c =>
      (c.toJson.member? Field.idName).isNone) = true := by decide +kernel
  -- A clause by the value of a field shows its name in front.
  exact Bool.false_ne_true (List.all_eq_true.1 hdistance _ hmem)

end SortClause
end SearchDsl
