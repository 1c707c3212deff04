import SearchDsl.Proofs.Query.Arrangement

/-!
# The leaves of a query

`Query.leaves` lists the primitive queries of a query, each with the nested paths around it.
Arranging the clauses of a list of entries moves them about, but

* `leaves_roles`: the roles of a bool query hold the leaves of its clauses;
* `leaves_shared_stayingOut`: sharing a path splits the leaves into those below it and the others;
* `Arranged.leaves`: so the clauses of a list of entries have the leaves of the entries, each as
  often as they have it and under the same paths.
-/

namespace SearchDsl

/-- The field that a primitive query looks at. -/
def Primitive.field? : Primitive → Option String
  | matchAll | multiMatch .. => none
  | present field | term field _ | terms field _ | range field _ | wildcard field _
  | geoBoundingBox field _ _ | geoPolygon field _ | geoDistance field _ _ => some field

namespace Query

/-- A primitive query and the nested paths around it, outermost first. -/
structure Leaf where
  paths : List String
  primitive : Primitive

/-- The leaf with more paths around it. -/
def Leaf.within (paths : List String) (l : Leaf) : Leaf := { l with paths := paths ++ l.paths }

theorem Leaf.within_nil (l : Leaf) : l.within [] = l := rfl

mutual

/-- The leaves of the query, role by role. -/
def leaves : Query → List Leaf
  | primitive p => [⟨[], p⟩]
  | nested path q => q.leaves.map (Leaf.within [path])
  | bool ⟨must, should, mustNot, filter, _⟩ =>
    leavesOf must ++ (leavesOf should ++ (leavesOf mustNot ++ leavesOf filter))

/-- The leaves of a list of queries. -/
def leavesOf : List Query → List Leaf
  | [] => []
  | q :: qs => q.leaves ++ leavesOf qs

end

theorem leavesOf_eq_flatMap (qs : List Query) : leavesOf qs = qs.flatMap leaves := by
  induction qs with
  | nil => rfl
  | cons q qs ih => rw [leavesOf, ih, List.flatMap_cons]

theorem leaves_within (paths : List String) (q : Query) :
    (Query.within paths q).leaves = q.leaves.map (Leaf.within paths) := by
  induction paths with
  | nil => exact (List.map_id _).symm
  | cons path paths ih =>
    change (nested path (Query.within paths q)).leaves = _
    rw [leaves, ih, List.map_map]
    rfl

/-- The leaves of a list of placed queries. -/
def Placed.leaves (ps : List Placed) : List Leaf := ps.flatMap fun p => p.query.leaves

/-- The leaves of an entry, inside the paths that it still has to be put in. -/
def Entry.leaves (e : Entry) : List Leaf := e.query.leaves.map (Leaf.within e.paths)

theorem Entry.leaves_alone (e : Entry) : e.alone.query.leaves = e.leaves := leaves_within _ _

/-! ### Roles -/

/-- A placed query has one role. -/
theorem Placed.role (p : Placed) :
    p.isRequired = true ∧ p.isOptional = false ∧ p.isExcluded = false ∨
      p.isRequired = false ∧ p.isOptional = true ∧ p.isExcluded = false ∨
      p.isRequired = false ∧ p.isOptional = false ∧ p.isExcluded = true := by
  obtain ⟨connective, negated, q⟩ := p
  cases connective <;> cases negated <;>
    simp [Placed.isRequired, Placed.isOptional, Placed.isExcluded]

theorem leaves_optionalClause (p : Placed) : p.optionalClause.leaves = p.query.leaves := by
  obtain ⟨connective, negated, q⟩ := p
  cases negated <;> simp [Placed.optionalClause, Clauses.empty, leaves, leavesOf]

theorem leaves_bool_roles (ps : List Placed) :
    (bool (Placed.roles ps)).leaves =
      Placed.leaves (ps.filter Placed.isRequired) ++
        (Placed.leaves (ps.filter Placed.isOptional) ++
          Placed.leaves (ps.filter Placed.isExcluded)) := by
  simp only [Placed.roles, leaves, leavesOf_eq_flatMap, List.flatMap_map, leaves_optionalClause,
    List.flatMap_nil, List.append_nil, Placed.leaves]

theorem Placed.leaves_cons (p : Placed) (ps : List Placed) :
    Placed.leaves (p :: ps) = p.query.leaves ++ Placed.leaves ps := List.flatMap_cons

/-- The roles of a bool query hold the leaves of its clauses. -/
theorem leaves_roles (ps : List Placed) :
    (bool (Placed.roles ps)).leaves.Perm (Placed.leaves ps) := by
  rw [leaves_bool_roles]
  induction ps with
  | nil => exact .nil
  | cons p ps ih =>
    rw [Placed.leaves_cons]
    refine .trans ?_ (ih.append_left p.query.leaves)
    -- In its role the query stands behind the roles in front of it.
    rcases p.role with ⟨hr, ho, hx⟩ | ⟨hr, ho, hx⟩ | ⟨hr, ho, hx⟩
    · simp only [List.filter_cons, hr, ho, hx, if_true, Bool.false_eq_true, if_false,
        Placed.leaves_cons, List.append_assoc]
      exact .refl _
    · simp only [List.filter_cons, hr, ho, hx, if_true, Bool.false_eq_true, if_false,
        Placed.leaves_cons, List.append_assoc]
      exact List.perm_append_comm_assoc _ _ _
    · simp only [List.filter_cons, hr, ho, hx, if_true, Bool.false_eq_true, if_false,
        Placed.leaves_cons]
      exact ((List.perm_append_comm_assoc _ _ _).append_left _).trans
        (List.perm_append_comm_assoc _ _ _)

theorem leaves_joined (ps : List Placed) : (Placed.joined ps).leaves.Perm (Placed.leaves ps) := by
  unfold Placed.joined
  split
  · simp [Placed.leaves]
  · exact leaves_roles _

/-! ### Shared paths -/

section Shared

variable (c : Connective) (path : String)

/-- An entry that goes to a shared slot has its leaves below the path of the slot. -/
theorem leaves_sharedIn {e m : Entry} (h : e.sharedIn c path = some m) :
    m.leaves.map (Leaf.within [path]) = e.leaves := by
  obtain ⟨-, -, paths, hp, rfl⟩ := Entry.sharedIn_eq_some.1 h
  rw [Entry.leaves, Entry.leaves, hp, List.map_map]
  rfl

/-- Sharing a path splits the leaves into those below it and the others. -/
theorem leaves_shared_stayingOut (es : List Entry) :
    (((es.filterMap (Entry.sharedIn c path)).flatMap Entry.leaves).map (Leaf.within [path]) ++
      (es.filter (Entry.staysOut c path)).flatMap Entry.leaves).Perm (es.flatMap Entry.leaves) := by
  induction es with
  | nil => exact .nil
  | cons e es ih =>
    rw [List.flatMap_cons]
    refine .trans ?_ (ih.append_left e.leaves)
    cases h : e.sharedIn c path with
    | some m =>
      have hout : e.staysOut c path = false := by simp [Entry.staysOut, h]
      rw [List.filterMap_cons_some h, List.filter_cons_of_neg (by simp [hout]), List.flatMap_cons,
        List.map_append, leaves_sharedIn c path h, List.append_assoc]
    | none =>
      have hout : e.staysOut c path = true := by simp [Entry.staysOut, h]
      rw [List.filterMap_cons_none h, List.filter_cons_of_pos hout, List.flatMap_cons]
      exact List.perm_append_comm_assoc _ _ _

end Shared

/-! ### Arrangements -/

/-- The clauses of a list of entries have the leaves of the entries. -/
theorem Arranged.leaves {es : List Entry} {ps : List Placed} (h : Arranged es ps) :
    (Placed.leaves ps).Perm (es.flatMap Entry.leaves) := by
  induction h with
  | nil => exact .nil
  | @alone e es ps _ _ ih =>
    rw [Placed.leaves_cons, List.flatMap_cons, e.leaves_alone]
    exact ih.append_left _
  | @shared c path paths q es below ps _ _ ihbelow ih =>
    rw [Placed.leaves_cons, List.flatMap_cons]
    have hfirst : Entry.leaves ⟨c, false, path :: paths, q⟩ =
        (Entry.leaves ⟨c, false, paths, q⟩).map (Leaf.within [path]) :=
      (leaves_sharedIn c path (by simp [Entry.sharedIn])).symm
    -- Below the path are the first entry and those that share its slot.
    have hbelow : (nested path (Placed.joined below)).leaves.Perm
        (Entry.leaves ⟨c, false, path :: paths, q⟩ ++
          ((es.filterMap (Entry.sharedIn c path)).flatMap Entry.leaves).map
            (Leaf.within [path])) := by
      rw [Query.leaves, hfirst, ← List.map_append]
      exact ((leaves_joined below).trans ihbelow).map _
    refine (hbelow.append ih).trans ?_
    rw [List.append_assoc]
    exact (leaves_shared_stayingOut c path es).append_left _

end Query
end SearchDsl
