import SearchDsl.Proofs.Query.Gathering

/-!
# How the entries of a list are arranged

`Arranged es ps` describes the clauses of a list of entries without slots. Going through the
entries in order,

* an entry that is denied or has no paths makes a clause of its own;
* any other entry makes one nested clause together with all later ones that have the same connective
  and the same outermost path, and below that path these are arranged in the same way.

`arranged_gather` says that gathering arranges the entries so, and `placeAll_eq_roles` which clauses
go to which role, each in order.
-/

namespace SearchDsl.Query

/-- The clauses of a bool query, by role and in order. -/
def Placed.roles (ps : List Placed) : Clauses Query where
  must := (ps.filter Placed.isRequired).map Placed.query
  should := (ps.filter Placed.isOptional).map Placed.optionalClause
  mustNot := (ps.filter Placed.isExcluded).map Placed.query
  filter := []
  minimumShouldMatch := none

/-- The query for the clauses below a nested path: a bool query, unless there is only one. -/
def Placed.joined : List Placed → Query
  | [p] => p.query
  | ps => bool (roles ps)

theorem placeAll_eq_roles (ps : List Placed) : placeAll ps = Placed.roles ps := by
  rw [placeAll, foldl_place]
  simp [Clauses.empty, Placed.roles]

theorem together_eq_joined (ps : List Placed) : together ps = Placed.joined ps := by
  unfold together Placed.joined
  split <;> simp [placeAll_eq_roles]

/-- The entry does not go to the slot shared under a connective and a path. -/
def Entry.staysOut (c : Connective) (path : String) (e : Entry) : Bool :=
  (e.sharedIn c path).isNone

/-- The clauses of a list of entries, in order. -/
inductive Arranged : List Entry → List Placed → Prop
  | nil : Arranged [] []
  | alone {e : Entry} {es : List Entry} {ps : List Placed} :
      e.isAlone = true → Arranged es ps → Arranged (e :: es) (e.alone :: ps)
  | shared {c : Connective} {path : String} {paths : List String} {q : Query} {es : List Entry}
      {below ps : List Placed} :
      Arranged (⟨c, false, paths, q⟩ :: es.filterMap (Entry.sharedIn c path)) below →
      Arranged (es.filter (Entry.staysOut c path)) ps →
      Arranged (⟨c, false, path :: paths, q⟩ :: es)
        (⟨c, false, nested path (Placed.joined below)⟩ :: ps)

/-! ### The first slot -/

namespace Slot

variable {slots : List Slot} {e : Entry}

theorem add_single (p : Placed) (slots : List Slot) (e : Entry) :
    add (single p :: slots) e = single p :: add slots e := by
  obtain ⟨connective, negated, paths, q⟩ := e
  cases negated <;> cases paths <;> simp [add, share]

theorem add_shared_of_some {c : Connective} {path : String} {ms : List Entry} {m : Entry}
    (h : e.sharedIn c path = some m) :
    add (shared c path ms :: slots) e = shared c path (ms ++ [m]) :: slots := by
  obtain ⟨hn, rfl, ps, hp, rfl⟩ := Entry.sharedIn_eq_some.1 h
  simp [add, hn, hp, share]

theorem add_shared_of_none {c : Connective} {path : String} {ms : List Entry}
    (h : e.sharedIn c path = none) :
    add (shared c path ms :: slots) e = shared c path ms :: add slots e := by
  obtain ⟨connective, negated, paths, q⟩ := e
  cases negated with
  | true => simp [add]
  | false =>
    cases paths with
    | nil => simp [add]
    | cons p ps =>
      have hne : ¬ (connective = c ∧ p = path) := by simpa [Entry.sharedIn] using h
      have hne' : ¬ (c = connective ∧ path = p) := fun h => hne ⟨h.1.symm, h.2.symm⟩
      simp [add, share, hne']

/-- A slot that is not shared stays as it is. -/
theorem foldl_add_single (p : Placed) (es : List Entry) (slots : List Slot) :
    es.foldl add (single p :: slots) = single p :: es.foldl add slots := by
  induction es generalizing slots with
  | nil => rfl
  | cons e es ih => rw [List.foldl_cons, add_single, ih, List.foldl_cons]

/-- A shared slot takes in all entries that go there, and the others do not see it. -/
theorem foldl_add_shared (c : Connective) (path : String) (ms : List Entry) (es : List Entry)
    (slots : List Slot) : es.foldl add (shared c path ms :: slots) =
      shared c path (ms ++ es.filterMap (Entry.sharedIn c path)) ::
        (es.filter (Entry.staysOut c path)).foldl add slots := by
  induction es generalizing ms slots with
  | nil => simp
  | cons e es ih =>
    cases h : e.sharedIn c path with
    | some m =>
      have hout : e.staysOut c path = false := by simp [Entry.staysOut, h]
      rw [List.foldl_cons, add_shared_of_some h, ih, List.filterMap_cons_some h,
        List.filter_cons_of_neg (by simp [hout]), List.append_assoc, List.singleton_append]
    | none =>
      have hout : e.staysOut c path = true := by simp [Entry.staysOut, h]
      rw [List.foldl_cons, add_shared_of_none h, ih, List.filterMap_cons_none h,
        List.filter_cons_of_pos hout, List.foldl_cons]

/-- The clause of a slot. -/
def placed (depth : Nat) : Slot → Placed
  | single p => p
  | shared c path members => ⟨c, false, nested path (together (gather depth members))⟩

end Slot

theorem gather_succ (depth : Nat) (es : List Entry) :
    gather (depth + 1) es = (es.foldl Slot.add []).map (Slot.placed depth) := rfl

/-! ### Gathering arranges -/

theorem arranged_of_isAlone {es : List Entry} (h : ∀ e ∈ es, e.isAlone = true) :
    Arranged es (es.map Entry.alone) := by
  induction es with
  | nil => exact .nil
  | cons e es ih =>
    exact .alone (h e List.mem_cons_self) (ih fun e he => h e (List.mem_cons_of_mem _ he))

/-- The slots of the next depth are arranged if the entries in them are. -/
theorem arranged_gather_succ {depth : Nat}
    (ih : ∀ es : List Entry, (∀ e ∈ es, e.paths.length ≤ depth) → Arranged es (gather depth es))
    (es : List Entry) (h : ∀ e ∈ es, e.paths.length ≤ depth + 1) :
    Arranged es (gather (depth + 1) es) := by
  -- What stays out of the first slot is fewer entries.
  induction hlen : es.length using Nat.strongRecOn generalizing es with
  | ind n ihn =>
    cases es with
    | nil => exact .nil
    | cons e es =>
      have hes : ∀ d ∈ es, d.paths.length ≤ depth + 1 := fun d hd =>
        h d (List.mem_cons_of_mem _ hd)
      by_cases ha : e.isAlone = true
      · rw [gather_succ, List.foldl_cons, Slot.add_of_isAlone ha, List.nil_append,
          Slot.foldl_add_single, List.map_cons]
        refine .alone ha ?_
        exact ihn es.length (by simp [← hlen]) es hes rfl
      · obtain ⟨c, negated, paths, q⟩ := e
        cases negated with
        | true => simp [Entry.isAlone] at ha
        | false =>
          cases paths with
          | nil => simp [Entry.isAlone] at ha
          | cons path paths =>
            have hadd : Slot.add [] ⟨c, false, path :: paths, q⟩ =
                [.shared c path [⟨c, false, paths, q⟩]] := rfl
            rw [gather_succ, List.foldl_cons, hadd, Slot.foldl_add_shared, List.map_cons,
              Slot.placed, together_eq_joined]
            refine .shared (ih _ fun m hm => ?_) (ihn _ ?_ _ (fun d hd => ?_) rfl)
            · rcases List.mem_cons.1 hm with rfl | hm
              · have := h _ List.mem_cons_self
                simpa using this
              · exact Nat.le_of_lt_succ (length_lt_of_mem_sharedIn hes hm)
            · have := List.length_filter_le (Entry.staysOut c path) es
              simp only [List.length_cons] at hlen
              omega
            · exact hes d (List.mem_filter.1 hd).1

/-- **The clauses of a list of entries are arranged in the order of their first members.** -/
theorem arranged_gather (depth : Nat) (es : List Entry) (h : ∀ e ∈ es, e.paths.length ≤ depth) :
    Arranged es (gather depth es) := by
  induction depth generalizing es with
  | zero =>
    refine arranged_of_isAlone fun e he => ?_
    have hp : e.paths = [] := List.eq_nil_of_length_eq_zero (Nat.le_zero.1 (h e he))
    simp [Entry.isAlone, hp]
  | succ depth ih => exact arranged_gather_succ ih es h

end SearchDsl.Query
