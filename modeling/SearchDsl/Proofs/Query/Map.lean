import SearchDsl.Proofs.Expr.Map
import SearchDsl.Proofs.Query.Leaves

/-!
# Queries with other primitive queries

`Query.map f` replaces every primitive query of a query and leaves the rest as it is.

* `Query.map_congr` and `Query.map_eq_self_iff`: what is done to a query is done to its leaves;
* `Query.map_ofEntries`: entries are arranged in the same way whatever their primitive queries are;
* `Query.ofExpr_map`: so an expression with other filters has the same query with others in their
  places.
-/

namespace SearchDsl

/-- The clauses with a function applied to each. -/
def Clauses.map (f : α → β) (c : Clauses α) : Clauses β where
  must := c.must.map f
  should := c.should.map f
  mustNot := c.mustNot.map f
  filter := c.filter.map f
  minimumShouldMatch := c.minimumShouldMatch

namespace Query

/-! ### Queries with other primitive queries -/

mutual

/-- The query with a function applied to its primitive queries. -/
def map (f : Primitive → Primitive) : Query → Query
  | primitive p => primitive (f p)
  | nested path q => nested path (q.map f)
  | bool ⟨must, should, mustNot, filter, minimum⟩ =>
    bool ⟨mapAll f must, mapAll f should, mapAll f mustNot, mapAll f filter, minimum⟩

/-- The queries with a function applied to their primitive queries. -/
def mapAll (f : Primitive → Primitive) : List Query → List Query
  | [] => []
  | q :: qs => q.map f :: mapAll f qs

end

theorem mapAll_eq_map (f : Primitive → Primitive) (qs : List Query) :
    mapAll f qs = qs.map (Query.map f) := by
  induction qs with
  | nil => rfl
  | cons q qs ih => rw [mapAll, ih, List.map_cons]

theorem map_bool (f : Primitive → Primitive) (c : Clauses Query) :
    (bool c).map f = bool (c.map (Query.map f)) := by
  simp only [map, mapAll_eq_map, Clauses.map]

section Map

variable {f g : Primitive → Primitive}

mutual

theorem map_id (q : Query) : q.map id = q := by
  match q with
  | primitive p => rfl
  | nested path q => rw [map, map_id q]
  | bool ⟨must, should, mustNot, filter, minimum⟩ =>
    rw [map, mapAll_id must, mapAll_id should, mapAll_id mustNot, mapAll_id filter]

theorem mapAll_id (qs : List Query) : mapAll id qs = qs := by
  match qs with
  | [] => rfl
  | q :: qs => rw [mapAll, map_id q, mapAll_id qs]

end

mutual

theorem map_map (q : Query) : (q.map f).map g = q.map (g ∘ f) := by
  match q with
  | primitive p => rfl
  | nested path q => simp only [map, map_map q]
  | bool ⟨must, should, mustNot, filter, minimum⟩ =>
    simp only [map, mapAll_mapAll must, mapAll_mapAll should, mapAll_mapAll mustNot,
      mapAll_mapAll filter]

theorem mapAll_mapAll (qs : List Query) : mapAll g (mapAll f qs) = mapAll (g ∘ f) qs := by
  match qs with
  | [] => rfl
  | q :: qs => simp only [mapAll, map_map q, mapAll_mapAll qs]

end

mutual

/-- Functions do the same to a query if they do to its leaves. -/
theorem map_congr (q : Query) (h : ∀ l ∈ q.leaves, f l.primitive = g l.primitive) :
    q.map f = q.map g := by
  match q with
  | primitive p => rw [map, map, h ⟨[], p⟩ (List.mem_singleton_self _)]
  | nested path q =>
    rw [map, map, map_congr q fun l hl => h (l.within [path]) (List.mem_map_of_mem hl)]
  | bool ⟨must, should, mustNot, filter, minimum⟩ =>
    simp only [leaves, List.mem_append] at h
    rw [map, map, mapAll_congr must fun l hl => h l (.inl hl),
      mapAll_congr should fun l hl => h l (.inr (.inl hl)),
      mapAll_congr mustNot fun l hl => h l (.inr (.inr (.inl hl))),
      mapAll_congr filter fun l hl => h l (.inr (.inr (.inr hl)))]

theorem mapAll_congr (qs : List Query) (h : ∀ l ∈ leavesOf qs, f l.primitive = g l.primitive) :
    mapAll f qs = mapAll g qs := by
  match qs with
  | [] => rfl
  | q :: qs =>
    simp only [leavesOf, List.mem_append] at h
    rw [mapAll, mapAll, map_congr q fun l hl => h l (.inl hl),
      mapAll_congr qs fun l hl => h l (.inr hl)]

end

/-- The leaf with a function applied to its primitive query. -/
def Leaf.map (f : Primitive → Primitive) (l : Leaf) : Leaf := { l with primitive := f l.primitive }

mutual

theorem leaves_map (q : Query) : (q.map f).leaves = q.leaves.map (Leaf.map f) := by
  match q with
  | primitive p => rfl
  | nested path q =>
    simp only [map, leaves, leaves_map q, List.map_map]
    rfl
  | bool ⟨must, should, mustNot, filter, minimum⟩ =>
    simp only [map, leaves, leavesOf_mapAll must, leavesOf_mapAll should, leavesOf_mapAll mustNot,
      leavesOf_mapAll filter, List.map_append]

theorem leavesOf_mapAll (qs : List Query) :
    leavesOf (mapAll f qs) = (leavesOf qs).map (Leaf.map f) := by
  match qs with
  | [] => rfl
  | q :: qs => simp only [mapAll, leavesOf, leaves_map q, leavesOf_mapAll qs, List.map_append]

end

/-- A query stays as it is just if its leaves do. -/
theorem map_eq_self_iff {q : Query} :
    q.map f = q ↔ ∀ l ∈ q.leaves, f l.primitive = l.primitive := by
  constructor
  · intro h l hl
    have hleaves : q.leaves.map (Leaf.map f) = q.leaves.map id := by
      rw [List.map_id, ← leaves_map, h]
    exact congrArg Leaf.primitive (List.map_inj_left.1 hleaves l hl)
  · intro h
    have hid : q.map f = q.map id := map_congr q h
    rw [hid, map_id]

end Map

/-! ### Arranging queries with other primitive queries -/

section Map

variable (f : Primitive → Primitive)

/-- The entry with a function applied to the primitive queries. -/
def Entry.map (e : Entry) : Entry := { e with query := e.query.map f }

/-- The placed query with a function applied to the primitive queries. -/
def Placed.map (p : Placed) : Placed := { p with query := p.query.map f }

/-- The slot with a function applied to the primitive queries. -/
def Slot.map : Slot → Slot
  | single p => single (p.map f)
  | shared c path members => shared c path (members.map (Entry.map f))

theorem map_within (paths : List String) (q : Query) :
    (within paths q).map f = within paths (q.map f) := by
  induction paths with
  | nil => rfl
  | cons path paths ih => exact congrArg (nested path) ih

theorem Slot.map_share (c : Connective) (path : String) (e : Entry) (slots : List Slot) :
    (share c path e slots).map (Slot.map f) =
      share c path (e.map f) (slots.map (Slot.map f)) := by
  induction slots with
  | nil => rfl
  | cons slot rest ih =>
    cases slot with
    | single p => simp only [share, List.map_cons, Slot.map, ih]
    | shared c' path' members =>
      simp only [share, List.map_cons, Slot.map]
      split <;> simp only [List.map_cons, Slot.map, List.map_append, List.map_nil, ih]

theorem Slot.map_add (slots : List Slot) (e : Entry) :
    (add slots e).map (Slot.map f) = add (slots.map (Slot.map f)) (e.map f) := by
  obtain ⟨connective, negated, paths, q⟩ := e
  cases negated <;> cases paths <;>
    simp [add, Slot.map_share, Slot.map, Placed.map, Entry.map, map_within]

theorem Slot.map_foldl_add (es : List Entry) (slots : List Slot) :
    (es.foldl add slots).map (Slot.map f) =
      (es.map (Entry.map f)).foldl add (slots.map (Slot.map f)) := by
  rw [List.foldl_map]
  exact (List.foldl_hom (List.map (Slot.map f)) fun slots e => (map_add f slots e).symm).symm

theorem map_place (c : Clauses Query) (p : Placed) :
    (place c p).map (Query.map f) = place (c.map (Query.map f)) (p.map f) := by
  obtain ⟨connective, negated, q⟩ := p
  cases connective <;> cases negated <;>
    simp [place, Clauses.map, Placed.map, map_bool, Clauses.empty]

theorem map_placeAll (ps : List Placed) :
    (placeAll ps).map (Query.map f) = placeAll (ps.map (Placed.map f)) := by
  rw [placeAll, placeAll, List.foldl_map]
  exact (List.foldl_hom (Clauses.map (Query.map f)) fun c p => (map_place f c p).symm).symm

theorem map_together (ps : List Placed) :
    (together ps).map f = together (ps.map (Placed.map f)) := by
  match ps with
  | [] => rfl
  | [p] => rfl
  | p :: p' :: ps =>
    simp only [together, List.map_cons, map_bool]
    rw [map_placeAll]
    rfl

theorem map_gather (depth : Nat) (es : List Entry) :
    (gather depth es).map (Placed.map f) = gather depth (es.map (Entry.map f)) := by
  induction depth generalizing es with
  | zero =>
    simp only [gather, List.map_map]
    refine List.map_congr_left fun e _ => ?_
    simp [Placed.map, Entry.map, map_within]
  | succ depth ih =>
    have hslots := Slot.map_foldl_add f es []
    rw [List.map_nil] at hslots
    rw [gather, gather, ← hslots, List.map_map, List.map_map]
    refine List.map_congr_left fun slot _ => ?_
    cases slot with
    | single p => rfl
    | shared c path members =>
      simp [Placed.map, Slot.map, Query.map, map_together, ih]

theorem map_ofEntries (es : List Entry) :
    (ofEntries es).map (Query.map f) = ofEntries (es.map (Entry.map f)) := by
  have hdepth : depthOf (es.map (Entry.map f)) = depthOf es := by
    rw [depthOf, depthOf, List.map_map]
    rfl
  rw [ofEntries, ofEntries, map_placeAll, map_gather, hdepth]

end Map

/-! ### Expressions with other filters -/

theorem firstConnective_mapAll (g : Filter → Filter) (items : List Item) :
    firstConnective (Item.mapAll g items) = firstConnective items := by
  match items with
  | [] => rfl
  | [i] => simp only [Item.mapAll, firstConnective, Item.join_map]
  | i :: j :: is => simp only [Item.mapAll, firstConnective, Item.join_map]

theorem head?_bind_join_mapAll (g : Filter → Filter) (items : List Item) :
    (Item.mapAll g items).head?.bind Item.join = items.head?.bind Item.join := by
  cases items with
  | nil => rfl
  | cons i is => exact Item.join_map g i

/-- What `g` does to filters, `f` does to their primitive queries, and the paths that remain are the
same. -/
structure Carries (s s' : Surroundings) (g : Filter → Filter) (f : Primitive → Primitive) :
    Prop where
  ofFilter : ∀ i, ofFilter s' (g i) = (ofFilter s i).map fun r => (f r.1, r.2)
  remaining : ∀ i : Filter,
    s'.remaining (g i).field.nestedPaths = s.remaining i.field.nestedPaths

section Compiler

variable {s s' : Surroundings} {g : Filter → Filter} {f : Primitive → Primitive}

mutual

theorem ofItem_map (h : Carries s s' g f) (c : Connective) (i : Item) :
    ofItem s' c (i.map g) = (ofItem s c i).map (Entry.map f) := by
  match i with
  | .leaf _ negated i =>
    rw [Item.map, ofItem, ofItem, h.ofFilter, h.remaining]
    cases ofFilter s i <;> rfl
  | .group _ negated items =>
    rw [Item.map, ofItem, ofItem, firstConnective_mapAll, ofItems_map h]
    cases ofItems s (firstConnective items) items with
    | error e => rfl
    | ok es =>
      refine congrArg Except.ok ?_
      simp [Entry.map, map_bool, map_ofEntries]

theorem ofItems_map (h : Carries s s' g f) (c : Connective) (is : List Item) :
    ofItems s' c (Item.mapAll g is) = (ofItems s c is).map (List.map (Entry.map f)) := by
  match is with
  | [] => rfl
  | i :: is =>
    rw [Item.mapAll, ofItems, ofItems, ofItem_map h, head?_bind_join_mapAll, ofItems_map h]
    cases ofItem s c i with
    | error e => rfl
    | ok e => cases ofItems s ((is.head?.bind Item.join).getD .and) is <;> rfl

end

/-- **An expression with other filters has the same query with other primitive queries.** -/
theorem ofExpr_map (h : Carries s s' g f) (e : Expr) :
    ofExpr s' (e.map g) = (ofExpr s e).map (Clauses.map (Query.map f)) := by
  have hitems := ofItems_map h (firstConnective e.items) e.items
  rw [ofExpr, ofExpr]
  dsimp only [Expr.map]
  rw [firstConnective_mapAll, hitems]
  cases ofItems s (firstConnective e.items) e.items with
  | error err => rfl
  | ok es => exact congrArg Except.ok (map_ofEntries f es).symm

end Compiler

end Query
end SearchDsl
