import Mathlib.Logic.Relation
import SearchDsl.Proofs.Expr.Built
import SearchDsl.Proofs.Expr.Resolved
import SearchDsl.Proofs.Field.Prefix
import SearchDsl.Proofs.Token.Plain

/-!
# The names of the fields in an expression

* `Expr.mem_fieldNames_iff`: the field names are those of the filters at any depth
  (`Filter.StandsIn`);
* `Expr.mem_rootFieldNames_iff`: the root field names are the dotted prefixes of the field names;
* `Item.Reshapes.leavesOf_eq`: neither depends on NOTs and groups;
* `Expr.exists_resolve_of_read`: of what is read under a mapping, all root field names resolve.
-/

namespace SearchDsl

/-! ### Filters at any depth -/

/-- The filter is an item of the list, or it stands in a group of the list, at any depth. -/
inductive Filter.StandsIn (f : Filter) : List Item → Prop
  | leaf {join : Option Connective} {negated : Bool} {items : List Item} :
      .leaf join negated f ∈ items → Filter.StandsIn f items
  | group {join : Option Connective} {negated : Bool} {inner items : List Item} :
      .group join negated inner ∈ items → Filter.StandsIn f inner → Filter.StandsIn f items

namespace Item

mutual

theorem standsIn_of_mem_leaves {f : Filter} {items : List Item} :
    (i : Item) → f ∈ i.leaves → i ∈ items → f.StandsIn items
  | .leaf .., h, hi => by
    rw [leaves, List.mem_singleton] at h
    exact .leaf (h ▸ hi)
  | .group _ _ inner, h, hi => .group hi (standsIn_of_mem_leavesOf inner h fun _ hj => hj)

theorem standsIn_of_mem_leavesOf {f : Filter} {items : List Item} :
    (is : List Item) → f ∈ leavesOf is → (∀ i ∈ is, i ∈ items) → f.StandsIn items
  | [], h, _ => by cases h
  | i :: is, h, his => by
    obtain ⟨hi, his⟩ := List.forall_mem_cons.1 his
    rcases List.mem_append.1 h with h | h
    · exact standsIn_of_mem_leaves i h hi
    · exact standsIn_of_mem_leavesOf is h his

end

theorem mem_leavesOf_of_standsIn {f : Filter} {items : List Item} (h : f.StandsIn items) :
    f ∈ leavesOf items := by
  induction h with
  | leaf hi => exact mem_leavesOf.2 ⟨_, hi, List.mem_singleton_self f⟩
  | group hi _ ih => exact mem_leavesOf.2 ⟨_, hi, ih⟩

/-- The leaves of a list are the filters in it. -/
theorem mem_leavesOf_iff_standsIn {f : Filter} {items : List Item} :
    f ∈ leavesOf items ↔ f.StandsIn items :=
  ⟨fun h => standsIn_of_mem_leavesOf items h fun _ hi => hi, mem_leavesOf_of_standsIn⟩

/-! ### NOTs and groups -/

theorem leavesOf_append (is js : List Item) : leavesOf (is ++ js) = leavesOf is ++ leavesOf js := by
  induction is with
  | nil => rfl
  | cons i is ih => rw [List.cons_append, leavesOf, ih, leavesOf, List.append_assoc]

/-- The item behind another connective. -/
def setJoin (join : Option Connective) : Item → Item
  | leaf _ negated filter => leaf join negated filter
  | group _ negated items => group join negated items

/-- The item with a NOT or without. -/
def setNegated (negated : Bool) : Item → Item
  | leaf join _ filter => leaf join negated filter
  | group join _ items => group join negated items

theorem leaves_setJoin (join : Option Connective) (i : Item) :
    (i.setJoin join).leaves = i.leaves := by
  cases i <;> rfl

theorem leaves_setNegated (negated : Bool) (i : Item) :
    (i.setNegated negated).leaves = i.leaves := by
  cases i <;> rfl

/-- One change of the shape of a list, or of a list at some depth in it: a NOT is set or taken away,
or neighbouring items are put into a group, which takes over the connective of the first one. -/
inductive Reshapes : List Item → List Item → Prop
  | not (front back : List Item) (i : Item) (negated : Bool) :
      Reshapes (front ++ i :: back) (front ++ i.setNegated negated :: back)
  | wrap (front more back : List Item) (first : Item) (negated : Bool) :
      Reshapes (front ++ (first :: more ++ back))
        (front ++ .group first.join negated (first.setJoin none :: more) :: back)
  | inside (front back : List Item) (join : Option Connective) (negated : Bool)
      {items items' : List Item} :
      Reshapes items items' → Reshapes (front ++ .group join negated items :: back)
        (front ++ .group join negated items' :: back)

/-- A change of shape leaves the filters where they are. -/
theorem Reshapes.leavesOf_eq {items items' : List Item} (h : Reshapes items items') :
    leavesOf items = leavesOf items' := by
  induction h with
  | not front back i negated => simp only [leavesOf_append, leavesOf, leaves_setNegated]
  | wrap front more back first negated =>
    simp only [leavesOf_append, leavesOf, leaves, leaves_setJoin]
  | inside front back join negated _ ih => simp only [leavesOf_append, leavesOf, leaves, ih]

/-- So do any number of changes, forth or back. -/
theorem leavesOf_eq_of_reshaped {items items' : List Item}
    (h : Relation.EqvGen Reshapes items items') : leavesOf items = leavesOf items' := by
  induction h with
  | rel _ _ h => exact h.leavesOf_eq
  | refl _ => rfl
  | symm _ _ _ ih => exact ih.symm
  | trans _ _ _ _ _ ih ih' => exact ih.trans ih'

end Item

/-! ### Both lists of names -/

namespace Expr

variable {e : Expr}

/-- **The field names are those of the filters at any depth.** -/
theorem mem_fieldNames_iff {name : String} :
    name ∈ e.fieldNames ↔ ∃ f : Filter, f.StandsIn e.items ∧ f.field.name = name := by
  rw [mem_fieldNames]
  exact exists_congr fun f => and_congr_left fun _ => Item.mem_leavesOf_iff_standsIn

/-- **The root field names are the dotted prefixes of the field names.** -/
theorem mem_rootFieldNames_iff (h : ∀ f : Filter, f.StandsIn e.items → f.field.IsNamed)
    {p : String} : p ∈ e.rootFieldNames ↔ ∃ name ∈ e.fieldNames, IsDottedPrefix p name := by
  rw [rootFieldNames, mem_nameSet, List.mem_flatMap]
  constructor
  · rintro ⟨f, hf, hp⟩
    have hstands := Item.mem_leavesOf_iff_standsIn.1 hf
    exact ⟨f.field.name, mem_fieldNames_iff.2 ⟨f, hstands, rfl⟩,
      (Field.mem_prefixes_iff (h f hstands)).1 hp⟩
  · rintro ⟨name, hname, hp⟩
    obtain ⟨f, hstands, rfl⟩ := mem_fieldNames_iff.1 hname
    exact ⟨f, Item.mem_leavesOf_iff_standsIn.2 hstands,
      (Field.mem_prefixes_iff (h f hstands)).2 hp⟩

end Expr

/-! ### Names that were read -/

/-- A word that is a field name has no empty part. -/
theorem Token.IsFieldName.ne_empty {w : String} (h : IsFieldName w) :
    ∀ part ∈ splitDots w, part ≠ "" := by
  intro part hpart
  have := List.any_eq_false.1 h.2 part hpart
  simpa using this

/-- No word starts with an asterisk. -/
theorem Token.not_isPlain_of_asterisk {w : String} (h : w.toList.head? = some '*') :
    ¬ (Token.word w).IsPlain := by
  have hnext : ∀ cs, next ('*' :: cs) = (.error (.strayCharacter '*'), '*' :: cs) := fun _ => rfl
  obtain ⟨cs, hcs⟩ := List.head?_eq_some_iff.1 h
  rw [IsPlain, hcs, hnext]
  simp

namespace Expr

variable {g : Grammar} {text : String} {e : Expr}

/-- The field of every filter that was read is what some word of the text stands for. -/
theorem exists_word_of_read (h : read g text = .ok e) :
    ∀ f ∈ e.leaves, ∃ w, (Token.word w).IsPlain ∧ Token.IsFieldName w ∧
      Reading.resolve g w = .ok f.field := by
  intro f hf
  obtain ⟨ts, n, hl, hd, -⟩ := read_eq_ok_iff.1 h
  obtain ⟨us, hus, hfilter⟩ := hd.exists_filter f hf
  cases hfilter with
  | @intro w _ _ _ _ _ _ hname hfield _ _ hmake =>
    obtain ⟨rfl, -, -, -⟩ := Filter.make_eq_ok_iff.1 hmake
    exact ⟨w, hl.isPlain _ (hus.mem List.mem_cons_self), hname, hfield⟩

theorem isNamed_of_read (h : read g text = .ok e) :
    ∀ f : Filter, f.StandsIn e.items → f.field.IsNamed := by
  intro f hf
  obtain ⟨w, -, -, hfield⟩ := exists_word_of_read h f (Item.mem_leavesOf_iff_standsIn.2 hf)
  exact ⟨w, Reading.names_of_resolve hfield⟩

/-- **All root field names of what is read under a mapping resolve.** -/
theorem exists_resolve_of_read {s : Snapshot} {limit : Nat}
    (h : read ⟨some s, limit⟩ text = .ok e) :
    ∀ p ∈ e.rootFieldNames, ∃ field, s.resolve p false = .ok field := by
  intro p hp
  obtain ⟨name, hname, hbegins⟩ := (mem_rootFieldNames_iff (isNamed_of_read h)).1 hp
  obtain ⟨f, hf, rfl⟩ := mem_fieldNames_iff.1 hname
  obtain ⟨w, hplain, hword, hfield⟩ :=
    exists_word_of_read h f (Item.mem_leavesOf_iff_standsIn.2 hf)
  rw [Reading.name_of_resolve hfield] at hbegins
  refine Snapshot.exists_resolve_of_isDottedPrefix hfield hword.ne_empty hbegins ?_
  rintro rfl
  refine Token.not_isPlain_of_asterisk ?_ hplain
  rcases isDottedPrefix_iff.1 hbegins with rfl | ⟨rest, rfl⟩
  · rfl
  · simp [Snapshot.wildcard]

/-- **The field names of an expression and their dotted prefixes.** The field names are the names in
the filters at any depth, and the root field names are all their dotted prefixes; the empty text is
one of those only if some name has an empty segment. Groups and NOTs have no influence on either.
Where an expression was read under a mapping, all of them resolve. -/
theorem fieldNames_closed (e : Expr) :
    (∀ name, name ∈ e.fieldNames ↔ ∃ f : Filter, f.StandsIn e.items ∧ f.field.name = name) ∧
    ((∀ f : Filter, f.StandsIn e.items → f.field.IsNamed) →
      (∀ p, p ∈ e.rootFieldNames ↔ ∃ name ∈ e.fieldNames, IsDottedPrefix p name) ∧
      ("" ∈ e.rootFieldNames → ∃ name ∈ e.fieldNames, "" ∈ splitDots name)) ∧
    (∀ e' : Expr, Relation.EqvGen Item.Reshapes e.items e'.items →
      e'.fieldNames = e.fieldNames ∧ e'.rootFieldNames = e.rootFieldNames) ∧
    ∀ (s : Snapshot) (limit : Nat) (text : String), read ⟨some s, limit⟩ text = .ok e →
      ∀ p ∈ e.rootFieldNames, ∃ field, s.resolve p false = .ok field := by
  refine ⟨fun name => mem_fieldNames_iff, fun h => ⟨fun p => mem_rootFieldNames_iff h, ?_⟩,
    fun e' h => ?_, fun s limit text h => exists_resolve_of_read h⟩
  · intro hempty
    obtain ⟨name, hname, hbegins⟩ := (mem_rootFieldNames_iff h).1 hempty
    exact ⟨name, hname, (splitDots_of_isDottedPrefix hbegins).mem (by decide)⟩
  · have hleaves : e'.leaves = e.leaves := (Item.leavesOf_eq_of_reshaped h).symm
    exact ⟨by rw [fieldNames, hleaves, fieldNames],
      by rw [rootFieldNames, hleaves, rootFieldNames]⟩

/-- Rooms inside units, an id and the units themselves, before and after both items are put into a
negated group. -/
theorem fieldNames_closed_rooms :
    let rooms := (FieldMapping.leaf .nested).property "area" (.leaf .float)
    let mapping := Mapping.empty.field "units" ((FieldMapping.leaf .nested).property "rooms" rooms)
    let s := Snapshot.ofMapping "listings" mapping 1
    let text := "units.rooms.area GT 1 AND NOT (_id EQ 'x' OR units EQ null)"
    ∃ (e : Expr) (first second : Item), read ⟨some s, 8⟩ text = .ok e ∧
      e.items = [first, second] ∧ "units.rooms.area" ∈ e.fieldNames ∧
      "units.rooms" ∈
        (⟨[.group first.join true [first.setJoin none, second]]⟩ : Expr).rootFieldNames ∧
      ∃ field, s.resolve "units.rooms" false = .ok field := by
  intro rooms mapping s text
  have hread : (read ⟨some s, 8⟩ text).toOption.map
      (fun e => (e.items.map Item.negated, e.leaves.map fun f => f.field.name)) =
      some ([false, true], ["units.rooms.area", "_id", "units"]) := by decide +kernel
  obtain ⟨e, he, hshape⟩ := toOption_map_eq_some.1 hread
  obtain ⟨hnegated, hleaves⟩ := Prod.mk.inj hshape
  obtain ⟨first, second, hitems⟩ := List.length_eq_two.1
    (by simpa using congrArg List.length hnegated)
  obtain ⟨-, hprefixes, hshapes, hresolve⟩ := fieldNames_closed e
  have hname : "units.rooms.area" ∈ e.fieldNames := by
    rw [fieldNames, mem_nameSet, hleaves]
    exact List.mem_cons_self
  have hroot : "units.rooms" ∈ e.rootFieldNames :=
    ((hprefixes (isNamed_of_read he)).1 _).2
      ⟨_, hname, isDottedPrefix_iff.2 (.inr ⟨"area", rfl⟩)⟩
  have hstep : Relation.EqvGen Item.Reshapes e.items
      [.group first.join true [first.setJoin none, second]] :=
    .rel _ _ (hitems ▸ .wrap [] [second] [] first true)
  exact ⟨e, first, second, he, hitems, hname, (hshapes ⟨_⟩ hstep).2 ▸ hroot,
    hresolve s 8 text he _ hroot⟩

end Expr
end SearchDsl
