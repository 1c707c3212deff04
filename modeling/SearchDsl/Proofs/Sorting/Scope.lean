import SearchDsl.Proofs.Schema.Resolved
import SearchDsl.Proofs.Sorting.InUse

/-!
# Filters inside the scopes of a sort

A clause on a field inside nested documents looks into them one by one, and the query of its filter
holds of the innermost.

* `SortClause.filter_ofText`: the query of a filter is in the clause unless the clause sorts by a
  meta field, which lies inside nothing;
* `SortClause.leaves_ofText`: which nested paths are around the leaves of the query. They are those
  of the field that the leaf looks at just if the documents of the sort field enclose that field.
-/

namespace SearchDsl

/-! ### Scopes -/

namespace SortScope

/-- The paths of the documents, outermost first. -/
def paths : SortScope → List String
  | innermost path _ => [path]
  | outer path inner => path :: inner.paths

/-- What holds of the innermost documents. -/
def filter? : SortScope → Option (Clauses Query)
  | innermost _ filter => filter
  | outer _ inner => inner.filter?

/-- The primitive queries in the scope, each with all nested paths around it. -/
def leaves : SortScope → List Query.Leaf
  | innermost path (some c) => (Query.bool c).leaves.map (Query.Leaf.within [path])
  | innermost _ none => []
  | outer path inner => inner.leaves.map (Query.Leaf.within [path])

/-- A chain of paths makes a scope with these paths and the filter inside. -/
theorem exists_ofPaths (filter : Option (Clauses Query)) {paths : List String} (h : paths ≠ []) :
    ∃ scope, ofPaths filter paths = some scope ∧ scope.paths = paths ∧
      scope.filter? = filter := by
  induction paths with
  | nil => exact absurd rfl h
  | cons path rest ih =>
    cases rest with
    | nil => exact ⟨_, rfl, rfl, rfl⟩
    | cons next rest =>
      obtain ⟨inner, hinner, hpaths, hfilter⟩ := ih (by simp)
      refine ⟨.outer path inner, ?_, congrArg (path :: ·) hpaths, hfilter⟩
      rw [ofPaths, hinner]

/-- The leaves of the filter lie below the paths of the scope. -/
theorem leaves_eq {scope : SortScope} {c : Clauses Query} (h : scope.filter? = some c) :
    scope.leaves = (Query.bool c).leaves.map (Query.Leaf.within scope.paths) := by
  induction scope with
  | innermost path filter =>
    obtain rfl : filter = some c := h
    rfl
  | outer path inner ih =>
    rw [leaves, ih h, List.map_map]
    rfl

end SortScope

namespace SortClause

/-- What holds of the innermost documents that the clause looks into. -/
def filter? (c : SortClause) : Option (Clauses Query) := c.scope?.bind SortScope.filter?

/-- The primitive queries in the clause, each with all nested paths around it. -/
def leaves (c : SortClause) : List Query.Leaf := (c.scope?.map SortScope.leaves).getD []

end SortClause

theorem SortItem.scope?_clause {i : SortItem} (h : i.key = .value)
    (filter : Option (Clauses Query)) :
    (i.clause filter).scope? = SortScope.ofPaths filter i.field.nestedPaths := by
  rw [SortItem.clause, h]
  rfl

/-- Without a filter nothing has to hold anywhere. -/
theorem SortItem.filter?_clause_none (i : SortItem) : (i.clause none).filter? = none := by
  have hscope : ∀ paths, (SortScope.ofPaths none paths).bind SortScope.filter? = none := by
    intro paths
    by_cases h : paths = []
    · rw [h]
      rfl
    · obtain ⟨scope, hsome, -, hfilter⟩ := SortScope.exists_ofPaths none h
      rw [hsome]
      exact hfilter
  unfold SortItem.clause SortClause.filter?
  cases i.key with
  | score => rfl
  | value => exact hscope _
  | distance origin => exact hscope _

/-! ### Meta fields -/

/-- The field of an item with a filter lies inside nothing just if it is a meta field. -/
theorem SortItem.Derives.nestedPaths_eq_nil_iff {schema : Snapshot} {limit : Nat} {ts : List Token}
    {i : SortItem} {n : Nat} (h : Derives (Reading.resolve ⟨some schema, limit⟩) ts i n) {e : Expr}
    (he : i.filter = some e) : i.field.nestedPaths = [] ↔ i.field.name ∈ Snapshot.metaFields := by
  obtain ⟨name, hname⟩ := h.exists_name
  have hresolve : schema.resolve name false = .ok i.field := hname
  obtain ⟨-, hscoped, -⟩ := h.filtered he
  rw [Snapshot.name_of_resolve hresolve]
  constructor
  · intro hnil
    by_contra hmeta
    -- The types of other fields are known, so the reader has looked for nested documents.
    obtain ⟨t, ht, -⟩ := Snapshot.type_of_resolve hresolve hmeta
    exact hscoped (Field.isTyped_of_type ht) hnil
  · intro hmeta
    rw [Snapshot.resolve_meta hresolve hmeta]
    rfl

namespace SortClause

variable {schema : Snapshot} {settings : Settings} {text : String} {cs : List SortClause}

/-- The clause of an item with a filter, and the query of the filter. -/
theorem exists_query_ofItem {fields : String → Except Error Field} {ts : List Token} {i : SortItem}
    {n : Nat} {c : SortClause} {e : Expr} (h : SortItem.Derives fields ts i n)
    (he : i.filter = some e) (hc : ofItem settings i = .ok c) :
    ∃ q, Query.ofExpr ⟨settings.nearDistance, i.field.nestedPaths⟩ e = .ok q ∧
      Query.Leaf.AreOf ⟨settings.nearDistance, i.field.nestedPaths⟩ e.leaves
        (Query.bool q).leaves ∧
      c.scope? = SortScope.ofPaths (some q) i.field.nestedPaths := by
  obtain ⟨hkey, -, -⟩ := h.filtered he
  rcases ofItem_eq_ok_iff.1 hc with ⟨hnone, -⟩ | ⟨e', q, he', hq, rfl⟩
  · rw [he] at hnone
    cases hnone
  · cases he.symm.trans he'
    obtain ⟨q', hq', hleaves, -⟩ := Query.layout_ofExpr (h.built he).isMade
      ⟨settings.nearDistance, i.field.nestedPaths⟩
    cases hq.symm.trans hq'
    exact ⟨q, hq, hleaves, SortItem.scope?_clause hkey _⟩

/-- **Which filters are dropped.** In the clauses of an accepted text the query of every filter of a
kept item holds of the innermost documents, unless the item is on a meta field: its clause looks
into no documents at all. -/
theorem filter_ofText (h : ofText schema settings text = .ok cs) :
    ∃ s, Sorting.read (some schema) text = .ok s ∧
      List.Forall₂ (fun i c => ∀ e, i.filter = some e →
        ∃ q, Query.ofExpr ⟨settings.nearDistance, i.field.nestedPaths⟩ e = .ok q ∧
          (c.filter? = some q ↔ i.field.name ∉ Snapshot.metaFields) ∧
          (c.scope? = none ↔ i.field.name ∈ Snapshot.metaFields)) s.items cs := by
  obtain ⟨s, hread, hall⟩ := exists_read_of_ofText h
  refine ⟨s, hread, hall.imp ?_⟩
  rintro i c ⟨⟨ts, n, hd⟩, hc⟩ e he
  obtain ⟨q, hq, -, hscope⟩ := exists_query_ofItem hd he hc
  refine ⟨q, hq, ?_⟩
  rw [← hd.nestedPaths_eq_nil_iff he, filter?, hscope]
  by_cases hnil : i.field.nestedPaths = []
  · simp [hnil, SortScope.ofPaths]
  · obtain ⟨scope, hsome, -, hfilter⟩ := SortScope.exists_ofPaths (some q) hnil
    simp [hnil, hsome, hfilter]

/-- A nested field with a keyword below it, and the meta fields. -/
theorem filter_ofText_units :
    let schema := Snapshot.ofMapping "listings" (Mapping.empty.field "units"
      ((FieldMapping.leaf .nested).property "kind" (.leaf .keyword))) 1
    let text := "units.kind DESC sortFilter: units.kind IN ['A', 'B'], _index, _score, _id"
    ∃ cs, ofText schema .standard text = .ok cs ∧
      ∃ s, Sorting.read (some schema) text = .ok s ∧
        List.Forall₂ (fun i c => ∀ e, i.filter = some e →
          ∃ q, Query.ofExpr ⟨Settings.standard.nearDistance, i.field.nestedPaths⟩ e = .ok q ∧
            (c.filter? = some q ↔ i.field.name ∉ Snapshot.metaFields) ∧
            (c.scope? = none ↔ i.field.name ∈ Snapshot.metaFields)) s.items cs := by
  intro schema text
  have hok : (ofText schema .standard text).isOk = true := by decide +kernel
  cases h : ofText schema .standard text with
  | error err =>
    rw [h] at hok
    cases hok
  | ok cs => exact ⟨cs, rfl, filter_ofText h⟩

/-- **A filter that is dropped**: the meta field `_id` lies inside nothing, and the text is accepted
all the same. -/
theorem filter_dropped :
    ¬ ∀ (schema : Snapshot) (settings : Settings) (text : String) (s : Sorting)
        (cs : List SortClause),
      Sorting.read (some schema) text = .ok s → ofText schema settings text = .ok cs →
        List.Forall₂ (fun i c => i.filter.isSome = true → ∃ scope q, c.scope? = some scope ∧
          scope.filter? = some q) s.items cs := by
  intro hall
  let schema := Snapshot.ofMapping "listings" (Mapping.empty.field "id" (.leaf .keyword)) 1
  let text := "_id ASC sortFilter: id EQ 'a'"
  have hread : (Sorting.read (some schema) text).toOption.map
      (·.items.map fun i => i.filter.isSome) = some [true] := by decide +kernel
  have hclauses : (ofText schema .standard text).toOption.map
      (·.map fun c => c.scope?.isSome) = some [false] := by decide +kernel
  cases hs : Sorting.read (some schema) text with
  | error err =>
    rw [hs] at hread
    cases hread
  | ok s =>
    cases hcs : ofText schema .standard text with
    | error err =>
      rw [hcs] at hclauses
      cases hclauses
    | ok cs =>
      rw [hs] at hread
      rw [hcs] at hclauses
      obtain ⟨i, is, hi, hfilter, -⟩ := List.map_eq_cons_iff.1 (Option.some.inj hread)
      obtain ⟨c, cs', hc, hscope, -⟩ := List.map_eq_cons_iff.1 (Option.some.inj hclauses)
      have hkept := hall schema .standard text s cs hs hcs
      rw [hi, hc] at hkept
      obtain ⟨scope, q, hsome, -⟩ := (List.forall₂_cons.1 hkept).1 hfilter
      rw [hsome] at hscope
      cases hscope

end SortClause

/-! ### Paths around the leaves of a filter -/

/-- The leaf is the query of the filter, below all paths that are looked at and what is left of
those of its field. -/
structure Query.Leaf.IsBelow (s : Surroundings) (f : Filter) (l : Leaf) : Prop where
  query : ofFilter s f = .ok (l.primitive, f.denies)
  paths : ∃ rest, s.Rest f.field.nestedPaths rest ∧ l.paths = s.scope ++ rest

namespace Query

variable {s : Surroundings} {f : Filter} {l : Leaf}

theorem Leaf.IsOf.within (h : l.IsOf s f) : (l.within s.scope).IsBelow s f :=
  ⟨h.query, l.paths, h.paths, rfl⟩

/-- **A leaf is below its own paths just if those that are looked at enclose its field.** -/
theorem Leaf.IsBelow.paths_eq_iff (h : l.IsBelow s f) :
    l.paths = f.field.nestedPaths ↔ s.scope <+: f.field.nestedPaths := by
  obtain ⟨rest, ⟨shared, hpaths, hshared, hlongest⟩, hl⟩ := h.paths
  rw [hl]
  constructor
  · intro heq
    exact ⟨rest, heq⟩
  · intro hscope
    -- All that is looked at is shared.
    have heq : s.scope = shared :=
      (hlongest s.scope hscope (List.prefix_refl _)).eq_of_length_le hshared.length_le
    rw [hpaths, heq]

end Query

namespace SortClause

variable {schema : Snapshot} {settings : Settings} {text : String} {cs : List SortClause}

section Item

variable {limit : Nat} {ts : List Token} {i : SortItem} {n : Nat} {c : SortClause} {e : Expr}

/-- A clause with a filter belongs to an item with one, on a field inside nested documents. -/
theorem exists_filter_of_ofItem {fields : String → Except Error Field}
    (h : SortItem.Derives fields ts i n) (hc : ofItem settings i = .ok c) {q : Clauses Query}
    (hq : c.filter? = some q) : (∃ e, i.filter = some e) ∧ i.field.nestedPaths ≠ [] := by
  cases he : i.filter with
  | none =>
    rcases ofItem_eq_ok_iff.1 hc with ⟨-, rfl⟩ | ⟨e, -, he', -⟩
    · rw [SortItem.filter?_clause_none] at hq
      cases hq
    · rw [he] at he'
      cases he'
  | some e =>
    refine ⟨⟨e, rfl⟩, fun hnil => ?_⟩
    obtain ⟨q', -, -, hscope⟩ := exists_query_ofItem h he hc
    rw [filter?, hscope, hnil] at hq
    cases hq

/-- The fields in the filter of an item are known by their names. -/
theorem resolve_of_mem_leaves
    (h : SortItem.Derives (Reading.resolve ⟨some schema, limit⟩) ts i n)
    (he : i.filter = some e) : ∀ f ∈ e.leaves, schema.resolve f.field.name false = .ok f.field := by
  intro f hf
  obtain ⟨-, -, us, hus⟩ := h.filtered he
  obtain ⟨vs, -, hvs⟩ := hus.exists_filter f hf
  obtain ⟨name, hname⟩ := hvs.exists_name
  rwa [Reading.name_of_resolve hname]

/-- The leaves of a clause are below the paths of its field. -/
theorem leaves_ofItem {fields : String → Except Error Field} (h : SortItem.Derives fields ts i n)
    (he : i.filter = some e) (hc : ofItem settings i = .ok c) (hne : i.field.nestedPaths ≠ []) :
    ∃ leaves, c.leaves.Perm leaves ∧
      List.Forall₂ (fun f l => l.IsBelow ⟨settings.nearDistance, i.field.nestedPaths⟩ f) e.leaves
        leaves := by
  obtain ⟨q, -, ⟨inOrder, hinOrder, hperm⟩, hscope⟩ := exists_query_ofItem h he hc
  obtain ⟨scope, hsome, hpaths, hfilter⟩ := SortScope.exists_ofPaths (some q) hne
  have hleaves : c.leaves = (Query.bool q).leaves.map (.within i.field.nestedPaths) := by
    rw [leaves, hscope, hsome, ← hpaths]
    exact SortScope.leaves_eq hfilter
  refine ⟨inOrder.map (.within i.field.nestedPaths), hleaves ▸ hperm.map _, ?_⟩
  rw [List.forall₂_map_right_iff]
  exact hinOrder.imp fun f l hl => hl.within

end Item

/-- **Where the leaves of a sort filter are evaluated.** In the clauses of an accepted text a clause
with a filter has one leaf for each filter of the expression, below all the paths of the sort field
and what is left of those of the leaf's own field. So a leaf is evaluated inside the documents of
its own field just if those of the sort field are the first of them. -/
theorem leaves_ofText (h : ofText schema settings text = .ok cs) :
    ∃ s, Sorting.read (some schema) text = .ok s ∧
      List.Forall₂ (fun i c => ∀ q, c.filter? = some q →
        ∃ e leaves, i.filter = some e ∧ c.leaves.Perm leaves ∧
          List.Forall₂ (fun f l =>
            schema.resolve f.field.name false = .ok f.field ∧
            l.primitive.field? = some f.field.name ∧
            l.IsBelow ⟨settings.nearDistance, i.field.nestedPaths⟩ f ∧
            (l.paths = f.field.nestedPaths ↔ i.field.nestedPaths <+: f.field.nestedPaths))
            e.leaves leaves) s.items cs := by
  obtain ⟨s, hread, hall⟩ := exists_read_of_ofText h
  refine ⟨s, hread, hall.imp ?_⟩
  rintro i c ⟨⟨ts, n, hd⟩, hc⟩ q hq
  obtain ⟨⟨e, he⟩, hne⟩ := exists_filter_of_ofItem hd hc hq
  obtain ⟨leaves, hperm, hbelow⟩ := leaves_ofItem hd he hc hne
  refine ⟨e, leaves, he, hperm, ?_⟩
  refine ((List.forall₂_and_left _ _).2 ⟨resolve_of_mem_leaves hd he, hbelow⟩).imp ?_
  rintro f l ⟨hfield, hl⟩
  exact ⟨hfield, Query.field?_of_ofFilter hl.query, hl, hl.paths_eq_iff⟩

/-- Units, and rooms inside them. -/
def unitsWithRooms : Mapping :=
  Mapping.empty.field "units" (((FieldMapping.leaf .nested).property "kind"
    (.leaf .keyword)).property "rooms" ((FieldMapping.leaf .nested).property "area" (.leaf .long)))

/-- A filter on rooms for a sort by units. -/
theorem leaves_ofText_rooms :
    let schema := Snapshot.ofMapping "listings" unitsWithRooms 1
    let text := "units.kind DESC sortFilter: units.kind EQ 'A' OR NOT units.rooms.area > 20, _id"
    ∃ cs, ofText schema .standard text = .ok cs ∧
      ∃ s, Sorting.read (some schema) text = .ok s ∧
        List.Forall₂ (fun i c => ∀ q, c.filter? = some q →
          ∃ e leaves, i.filter = some e ∧ c.leaves.Perm leaves ∧
            List.Forall₂ (fun f l =>
              schema.resolve f.field.name false = .ok f.field ∧
              l.primitive.field? = some f.field.name ∧
              l.IsBelow ⟨Settings.standard.nearDistance, i.field.nestedPaths⟩ f ∧
              (l.paths = f.field.nestedPaths ↔ i.field.nestedPaths <+: f.field.nestedPaths))
              e.leaves leaves) s.items cs := by
  intro schema text
  have hok : (ofText schema .standard text).isOk = true := by decide +kernel
  cases h : ofText schema .standard text with
  | error err =>
    rw [h] at hok
    cases hok
  | ok cs => exact ⟨cs, rfl, leaves_ofText h⟩

/-- **A leaf inside documents that do not enclose its field**: the rooms of a unit have no kind. -/
theorem leaf_in_rooms :
    ¬ ∀ (schema : Snapshot) (settings : Settings) (text : String) (cs : List SortClause),
      ofText schema settings text = .ok cs → ∀ c ∈ cs, ∀ l ∈ c.leaves, ∀ name field,
        l.primitive.field? = some name → schema.resolve name false = .ok field →
          l.paths = field.nestedPaths := by
  intro hall
  let schema := Snapshot.ofMapping "listings" unitsWithRooms 1
  let text := "units.rooms.area ASC sortFilter: units.kind EQ 'A'"
  have hclauses : (ofText schema .standard text).toOption.map
      (·.map fun c => c.leaves.map fun l => (l.paths, l.primitive.field?)) =
        some [[(["units", "units.rooms"], some "units.kind")]] := by decide +kernel
  have hfield : (schema.resolve "units.kind" false).toOption.map Field.nestedPaths =
      some ["units"] := by decide +kernel
  cases hcs : ofText schema .standard text with
  | error err =>
    rw [hcs] at hclauses
    cases hclauses
  | ok cs =>
    cases hresolve : schema.resolve "units.kind" false with
    | error err =>
      rw [hresolve] at hfield
      cases hfield
    | ok field =>
      rw [hcs] at hclauses
      rw [hresolve] at hfield
      obtain ⟨c, cs', rfl, hc, -⟩ := List.map_eq_cons_iff.1 (Option.some.inj hclauses)
      obtain ⟨l, ls, hls, hl, -⟩ := List.map_eq_cons_iff.1 hc
      obtain ⟨hpaths, hname⟩ := Prod.mk.inj hl
      have heq := hall schema .standard text _ hcs c List.mem_cons_self l
        (hls ▸ List.mem_cons_self) _ field hname hresolve
      have hown : field.nestedPaths = ["units"] := Option.some.inj hfield
      rw [hpaths, hown] at heq
      exact absurd heq (by decide)

end SortClause
end SearchDsl
