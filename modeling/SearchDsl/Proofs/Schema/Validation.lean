import SearchDsl.Proofs.Expr.Untyped
import SearchDsl.Proofs.Facet.Grammar

/-!
# What a mapping changes in a text

A mapping only refuses, it never changes what is read. A text is read under a mapping just if it is
read without one and the mapping lets all that is read through; and then the two differ by the types
of the fields alone.

* `Facets.untyped_of_read` and `Facets.exists_read_typed`: the two directions for facet lists;
* `Snapshot.read_iff_validates`: the equivalence for expressions and for facet lists.
-/

namespace SearchDsl

namespace Facets

/-- The facet list without the types of its fields. -/
def untyped (f : Facets) : Facets := ⟨f.fields.map fun field => { field with types := none }⟩

theorem untyped_ofFields (fields : List Field) :
    (ofFields fields).untyped = ofFields (fields.map fun f => { f with types := none }) := by
  rw [ofFields, ofFields, distinctOn_map]
  rfl

variable {fields : String → Except Error Field}

theorem Names.untyped (hfields : Reading.SpellsFields fields) {ts : List Token} {f : Field}
    (h : Names fields ts f) : Names Reading.anyField ts { f with types := none } := by
  cases h with
  | @intro ns negated name field hn hname hfield _ =>
    have hspelt : ({ field with types := none, negated := negated } : Field) =
        { Field.ofName name with negated := negated } := by
      rw [← hfields hfield]
      rfl
    show Names Reading.anyField _ { field with types := none, negated := negated }
    rw [hspelt]
    exact .intro hn hname rfl nofun

theorem Names.exists_typed (hfields : Reading.SpellsFields fields) {ts : List Token} {f : Field}
    (h : Names Reading.anyField ts f)
    (haccepted : ∃ field, fields f.name = .ok field ∧ field.IsCountable) :
    ∃ f' : Field, ({ f' with types := none } : Field) = f ∧ Names fields ts f' := by
  cases h with
  | @intro ns negated name field hn hname hfield _ =>
    cases hfield
    obtain ⟨field, hfield, hcountable⟩ := haccepted
    have hspelt : fields name = .ok field := by
      rw [← hfield]
      exact congrArg fields (Field.name_ofName name).symm
    refine ⟨{ field with negated := negated }, ?_, .intro hn hname hspelt hcountable⟩
    rw [← hfields hspelt]
    rfl

variable {schema : Snapshot} {text : String} {l : Facets}

/-- **A facet list that is read under a mapping** is read without it too, but without types, and its
fields are those that the mapping has for their names. -/
theorem untyped_of_read (h : read (some schema) text = .ok l) :
    read none text = .ok l.untyped ∧
      ∀ f ∈ l.fields, schema.resolve f.name false = .ok { f with negated := false } ∧
        f.IsCountable := by
  obtain ⟨ts, fs, hl, hd, rfl⟩ := read_eq_ok_iff.1 h
  have hfields := Reading.spellsFields_resolve ⟨some schema, Expr.maxFragments⟩
  refine ⟨read_eq_ok_iff.2 ⟨ts, _, hl, hd.map fun _ _ h => h.untyped hfields, untyped_ofFields fs⟩,
    fun f hf => ?_⟩
  obtain ⟨us, hus⟩ := hd.exists_of_mem f (mem_of_mem_distinctOn hf)
  cases hus with
  | @intro _ negated name field _ _ hfield hcountable =>
    have hresolve : schema.resolve name false = .ok field := hfield
    refine ⟨?_, hcountable⟩
    show schema.resolve field.name false = .ok { field with negated := false }
    rw [Snapshot.name_of_resolve hresolve, hresolve, Snapshot.negated_of_resolve hresolve]

/-- **A facet list that is read without a mapping** is read under it if it has fields to count for
all the names. -/
theorem exists_read_typed (h : read none text = .ok l)
    (haccepted : ∀ f ∈ l.fields, ∃ field, schema.resolve f.name false = .ok field ∧
      field.IsCountable) :
    ∃ l', read (some schema) text = .ok l' ∧ l'.untyped = l := by
  obtain ⟨ts, fs, hl, hd, rfl⟩ := read_eq_ok_iff.1 h
  have hfields := Reading.spellsFields_resolve ⟨some schema, Expr.maxFragments⟩
  obtain ⟨fs', rfl, hd'⟩ := hd.exists_map fun f hf us hus => by
    -- A field that has been dropped has the name of one that is left.
    obtain ⟨f', hf', hnames⟩ := @exists_mem_distinctOn _ _ _ _ Field.names fs f hf
    refine Names.exists_typed hfields hus ?_
    have hname : f'.name = f.name := congrArg joinDots hnames
    exact hname ▸ haccepted f' hf'
  exact ⟨_, read_eq_ok_iff.2 ⟨ts, fs', hl, hd', rfl⟩, untyped_ofFields fs'⟩

end Facets

/-- **A mapping only refuses.** An expression is read under a mapping just if it is read without one
and each of its filters is let through for the field of its name; a facet list just if it is read
without one and the mapping has a field to count for each of its names. What is read then differs by
the types of the fields alone, which are those of the mapping. -/
theorem Snapshot.read_iff_validates (schema : Snapshot) (limit : Nat) (text : String) :
    ((∃ e, Expr.read ⟨some schema, limit⟩ text = .ok e) ↔
      ∃ e', Expr.read ⟨none, limit⟩ text = .ok e' ∧
        ∀ f ∈ e'.leaves, ∃ field, schema.resolve f.field.name false = .ok field ∧
          ∃ f', Filter.make field f.operator f.value = .ok f') ∧
    (∀ e, Expr.read ⟨some schema, limit⟩ text = .ok e →
      Expr.read ⟨none, limit⟩ text = .ok e.untyped ∧
        ∀ f ∈ e.leaves, schema.resolve f.field.name false = .ok f.field) ∧
    ((∃ l, Facets.read (some schema) text = .ok l) ↔
      ∃ l', Facets.read none text = .ok l' ∧
        ∀ f ∈ l'.fields, ∃ field, schema.resolve f.name false = .ok field ∧ field.IsCountable) ∧
    ∀ l, Facets.read (some schema) text = .ok l →
      Facets.read none text = .ok l.untyped ∧
        ∀ f ∈ l.fields, schema.resolve f.name false = .ok { f with negated := false } := by
  refine ⟨⟨?_, ?_⟩, ?_, ⟨?_, ?_⟩, ?_⟩
  · rintro ⟨e, he⟩
    obtain ⟨hbare, hleaves⟩ := Expr.untyped_of_read he
    refine ⟨e.untyped, hbare, fun f hf => ?_⟩
    rw [Expr.leaves, Expr.untyped, Item.leavesOf_untypedOf] at hf
    obtain ⟨f', hf', rfl⟩ := List.mem_map.1 hf
    exact (hleaves f' hf').2
  · rintro ⟨e', he', haccepted⟩
    obtain ⟨e, he, -⟩ := Expr.exists_read_typed he' haccepted
    exact ⟨e, he⟩
  · intro e he
    obtain ⟨hbare, hleaves⟩ := Expr.untyped_of_read he
    exact ⟨hbare, fun f hf => (hleaves f hf).1⟩
  · rintro ⟨l, hl⟩
    obtain ⟨hbare, hfields⟩ := Facets.untyped_of_read hl
    refine ⟨l.untyped, hbare, fun f hf => ?_⟩
    obtain ⟨f', hf', rfl⟩ := List.mem_map.1 hf
    obtain ⟨hresolve, hcountable⟩ := hfields f' hf'
    exact ⟨_, hresolve, hcountable⟩
  · rintro ⟨l', hl', haccepted⟩
    obtain ⟨l, hl, -⟩ := Facets.exists_read_typed hl' haccepted
    exact ⟨l, hl⟩
  · intro l hl
    obtain ⟨hbare, hfields⟩ := Facets.untyped_of_read hl
    exact ⟨hbare, fun f hf => (hfields f hf).1⟩

/-- An expression with a group and a field without types, and a facet list with a field named twice.
-/
theorem Snapshot.read_iff_validates_listings :
    let schema := Snapshot.ofMapping "listings" (Mapping.empty.field "id" (.leaf .keyword)) 1
    let text := "_index EQ 'x' AND NOT (id EQ 'a' OR id LIKE 'b*')"
    (∃ e, Expr.read ⟨some schema, 4⟩ text = .ok e ∧
      Expr.read ⟨none, 4⟩ text = .ok e.untyped ∧
      ∀ f ∈ e.leaves, schema.resolve f.field.name false = .ok f.field) ∧
    ∃ l, Facets.read (some schema) "NOT id, id" = .ok l ∧
      Facets.read none "NOT id, id" = .ok l.untyped ∧
      ∀ f ∈ l.fields, schema.resolve f.name false = .ok { f with negated := false } := by
  intro schema text
  constructor
  · have hok : (Expr.read ⟨some schema, 4⟩ text).isOk = true := by decide +kernel
    obtain ⟨e, he⟩ := exists_eq_ok hok
    exact ⟨e, he, (read_iff_validates schema 4 text).2.1 e he⟩
  · have hok : (Facets.read (some schema) "NOT id, id").isOk = true := by decide +kernel
    obtain ⟨l, hl⟩ := exists_eq_ok hok
    exact ⟨l, hl, (read_iff_validates schema 4 "NOT id, id").2.2.2 l hl⟩

end SearchDsl
