import SearchDsl.Query.OfExpr

/-!
# The slots of a list of entries

Entries are sorted into slots one after the other: an entry that is denied or has no paths gets a
slot of its own, any other goes to the slot that is shared under its connective and its outermost
path.

`Slot.Filled` is the invariant: a slot for each entry that stands alone, and for each connective and
path at most one shared slot, which holds the rest of exactly the entries that go there.
`filled_foldl` says that it holds when all entries have been sorted in.
-/

namespace SearchDsl.Query

/-- The entry stands in a slot of its own. -/
def Entry.isAlone (e : Entry) : Bool := e.negated || e.paths.isEmpty

/-- The entry put into its own paths. -/
def Entry.alone (e : Entry) : Placed := ⟨e.connective, e.negated, within e.paths e.query⟩

/-- What is left of an entry in the slot shared under a connective and a path, if it goes there. -/
def Entry.sharedIn (c : Connective) (path : String) (e : Entry) : Option Entry :=
  match e.negated, e.paths with
  | false, p :: ps => if e.connective = c ∧ p = path then some { e with paths := ps } else none
  | _, _ => none

theorem Entry.sharedIn_eq_some {c : Connective} {path : String} {e m : Entry} :
    e.sharedIn c path = some m ↔ e.negated = false ∧ e.connective = c ∧
      ∃ ps, e.paths = path :: ps ∧ m = { e with paths := ps } := by
  obtain ⟨connective, negated, paths, q⟩ := e
  cases negated with
  | true => simp [Entry.sharedIn]
  | false =>
    cases paths with
    | nil => simp [Entry.sharedIn]
    | cons p ps =>
      simp only [Entry.sharedIn, Option.ite_none_right_eq_some, Option.some.injEq,
        List.cons.injEq, true_and]
      constructor
      · rintro ⟨⟨rfl, rfl⟩, rfl⟩
        exact ⟨rfl, ps, ⟨rfl, rfl⟩, rfl⟩
      · rintro ⟨rfl, qs, ⟨rfl, rfl⟩, rfl⟩
        exact ⟨⟨rfl, rfl⟩, rfl⟩

theorem Entry.sharedIn_of_isAlone {e : Entry} (h : e.isAlone = true) (c : Connective)
    (path : String) : e.sharedIn c path = none := by
  obtain ⟨connective, negated, paths, q⟩ := e
  cases negated <;> cases paths <;> simp_all [Entry.sharedIn, Entry.isAlone]

namespace Slot

/-- The connective and the path that a shared slot is for. -/
def key? : Slot → Option (Connective × String)
  | single _ => none
  | shared c path _ => some (c, path)

/-- The keys of the shared slots, in order. -/
def keys (slots : List Slot) : List (Connective × String) := slots.filterMap key?

@[simp]
theorem keys_nil : keys [] = [] := rfl

@[simp]
theorem keys_single (p : Placed) (rest : List Slot) : keys (single p :: rest) = keys rest := rfl

@[simp]
theorem keys_shared (c : Connective) (path : String) (ms : List Entry) (rest : List Slot) :
    keys (shared c path ms :: rest) = (c, path) :: keys rest := rfl

theorem keys_append_single (slots : List Slot) (p : Placed) :
    keys (slots ++ [single p]) = keys slots := by
  rw [keys, List.filterMap_append]
  exact List.append_nil _

theorem mem_keys {c : Connective} {path : String} {ms : List Entry} {slots : List Slot}
    (h : shared c path ms ∈ slots) : (c, path) ∈ keys slots := List.mem_filterMap.2 ⟨_, h, rfl⟩

/-- The entries in the slot shared under a connective and a path. -/
def membersOf (c : Connective) (path : String) : List Slot → List Entry
  | [] => []
  | single _ :: rest => membersOf c path rest
  | shared c' p members :: rest =>
    if c' = c ∧ p = path then members else membersOf c path rest

theorem membersOf_share (c c' : Connective) (path path' : String) (e : Entry) (slots : List Slot) :
    membersOf c' path' (share c path e slots) =
      if c = c' ∧ path = path' then membersOf c' path' slots ++ [e]
      else membersOf c' path' slots := by
  induction slots with
  | nil => simp [share, membersOf]
  | cons slot rest ih =>
    cases slot with
    | single p => simpa [share, membersOf] using ih
    | shared c₁ p₁ members =>
      by_cases h₁ : c₁ = c ∧ p₁ = path
      · obtain ⟨rfl, rfl⟩ := h₁
        by_cases h₂ : c₁ = c' ∧ p₁ = path' <;> simp [share, membersOf, h₂]
      · by_cases h₂ : c₁ = c' ∧ p₁ = path'
        · obtain ⟨rfl, rfl⟩ := h₂
          have h₃ : ¬ (c = c₁ ∧ path = p₁) := fun h => h₁ ⟨h.1.symm, h.2.symm⟩
          simp [share, membersOf, h₁, h₃]
        · simp only [share, membersOf, Bool.and_eq_true, decide_eq_true_eq, h₁, if_false, h₂, ih]

theorem mem_share_single (c : Connective) (path : String) (e : Entry) (p : Placed)
    (slots : List Slot) : single p ∈ share c path e slots ↔ single p ∈ slots := by
  induction slots with
  | nil => simp [share]
  | cons slot rest ih =>
    cases slot with
    | single p' => simp [share, ih]
    | shared c' path' members =>
      unfold share
      split <;> simp [ih]

theorem keys_share (c : Connective) (path : String) (e : Entry) (slots : List Slot) :
    keys (share c path e slots) =
      if (c, path) ∈ keys slots then keys slots else keys slots ++ [(c, path)] := by
  induction slots with
  | nil => simp [share]
  | cons slot rest ih =>
    cases slot with
    | single p => exact ih
    | shared c' path' members =>
      by_cases h : c' = c ∧ path' = path
      · obtain ⟨rfl, rfl⟩ := h
        simp [share]
      · have hk : (c, path) ≠ (c', path') := fun e =>
          h ⟨(Prod.mk.inj e).1.symm, (Prod.mk.inj e).2.symm⟩
        simp only [share, Bool.and_eq_true, decide_eq_true_eq, h, if_false, keys_shared, ih,
          List.mem_cons, hk, false_or]
        split <;> simp

/-- Shared slots are never empty. -/
theorem ne_nil_of_mem_share {c : Connective} {path : String} {e : Entry} {slots : List Slot}
    (h : ∀ c path ms, shared c path ms ∈ slots → ms ≠ []) :
    ∀ c' path' ms, shared c' path' ms ∈ share c path e slots → ms ≠ [] := by
  induction slots with
  | nil =>
    intro c' path' ms hm
    simp only [share, List.mem_singleton, shared.injEq] at hm
    simp [hm.2.2]
  | cons slot rest ih =>
    have hrest := ih fun c path ms hm => h c path ms (List.mem_cons_of_mem _ hm)
    intro c' path' ms hm
    cases slot with
    | single p =>
      simp only [share, List.mem_cons, reduceCtorEq, false_or] at hm
      exact hrest _ _ _ hm
    | shared c₁ p₁ members =>
      unfold share at hm
      split at hm
      · rcases List.mem_cons.1 hm with hm | hm
        · simp only [shared.injEq] at hm
          simp [hm.2.2]
        · exact h _ _ _ (List.mem_cons_of_mem _ hm)
      · rcases List.mem_cons.1 hm with hm | hm
        · exact h c' path' ms (by simp [hm])
        · exact hrest _ _ _ hm

theorem membersOf_of_mem {c : Connective} {path : String} {ms : List Entry} {slots : List Slot}
    (hn : (keys slots).Nodup) (h : shared c path ms ∈ slots) :
    membersOf c path slots = ms := by
  induction slots with
  | nil => simp at h
  | cons slot rest ih =>
    cases slot with
    | single p => exact ih hn (by simpa using h)
    | shared c' path' members =>
      rw [keys_shared, List.nodup_cons] at hn
      rcases List.mem_cons.1 h with h | h
      · cases h
        simp [membersOf]
      · have hne : ¬ (c' = c ∧ path' = path) := fun e => hn.1 (by rw [e.1, e.2]; exact mem_keys h)
        simp only [membersOf, hne, if_false]
        exact ih hn.2 h

theorem mem_of_membersOf {c : Connective} {path : String} {slots : List Slot}
    (h : membersOf c path slots ≠ []) : shared c path (membersOf c path slots) ∈ slots := by
  induction slots with
  | nil => simp [membersOf] at h
  | cons slot rest ih =>
    cases slot with
    | single p => exact List.mem_cons_of_mem _ (ih h)
    | shared c' path' members =>
      by_cases hk : c' = c ∧ path' = path
      · obtain ⟨rfl, rfl⟩ := hk
        simp [membersOf]
      · simp only [membersOf, hk, if_false] at h ⊢
        exact List.mem_cons_of_mem _ (ih h)

/-- The slots hold the entries: a slot for each entry that stands alone, and for each connective and
path at most one, which holds the rest of the entries that share it. -/
structure Filled (es : List Entry) (slots : List Slot) : Prop where
  single_iff : ∀ p, single p ∈ slots ↔ ∃ e ∈ es, e.isAlone = true ∧ p = e.alone
  membersOf_eq : ∀ c path, membersOf c path slots = es.filterMap (Entry.sharedIn c path)
  nodup : (keys slots).Nodup
  ne_nil : ∀ c path ms, shared c path ms ∈ slots → ms ≠ []

theorem filled_nil : Filled [] [] := ⟨by simp, by simp [membersOf], by simp, by simp⟩

theorem membersOf_append_single (c : Connective) (path : String) (p : Placed)
    (slots : List Slot) : membersOf c path (slots ++ [single p]) = membersOf c path slots := by
  induction slots with
  | nil => simp [membersOf]
  | cons slot rest ih => cases slot <;> simp [membersOf, ih]

/-- An entry that stands alone gets a slot at the end. -/
theorem add_of_isAlone {e : Entry} (h : e.isAlone = true) (slots : List Slot) :
    add slots e = slots ++ [single e.alone] := by
  obtain ⟨connective, negated, paths, q⟩ := e
  cases negated <;> cases paths <;> simp_all [add, Entry.isAlone, Entry.alone]

theorem Filled.add_alone {es : List Entry} {slots : List Slot} (h : Filled es slots) {e : Entry}
    (ha : e.isAlone = true) : Filled (es ++ [e]) (slots ++ [single e.alone]) := by
  refine ⟨fun p => ?_, fun c path => ?_, ?_, fun c path ms hm => ?_⟩
  · simp only [List.mem_append, List.mem_singleton, single.injEq, h.single_iff]
    constructor
    · rintro (⟨e', he', hp⟩ | rfl)
      · exact ⟨e', .inl he', hp⟩
      · exact ⟨e, .inr rfl, ha, rfl⟩
    · rintro ⟨e', he' | rfl, hp⟩
      · exact .inl ⟨e', he', hp⟩
      · exact .inr hp.2
  · rw [membersOf_append_single, h.membersOf_eq, List.filterMap_append]
    simp [Entry.sharedIn_of_isAlone ha]
  · rw [keys_append_single]
    exact h.nodup
  · exact h.ne_nil c path ms (by simpa using hm)

/-- A positive entry with paths goes to the slot of its connective and its outermost path. -/
theorem Filled.add_shared {es : List Entry} {slots : List Slot} (h : Filled es slots)
    (connective : Connective) (path : String) (paths : List String) (q : Query) :
    Filled (es ++ [⟨connective, false, path :: paths, q⟩])
      (share connective path ⟨connective, false, paths, q⟩ slots) := by
  refine ⟨fun p => ?_, fun c path' => ?_, ?_, ne_nil_of_mem_share h.ne_nil⟩
  · rw [mem_share_single, h.single_iff]
    simp [Entry.isAlone]
  · rw [membersOf_share, h.membersOf_eq, List.filterMap_append]
    by_cases hc : connective = c ∧ path = path' <;> simp [Entry.sharedIn, hc]
  · rw [keys_share]
    split
    · exact h.nodup
    · rename_i hk
      -- A slot is opened only for a key that none of the others has.
      exact List.nodup_append.2 ⟨h.nodup, by simp, fun a ha b hb e =>
        hk (by rw [List.mem_singleton.1 hb] at e; exact e ▸ ha)⟩

theorem Filled.add {es : List Entry} {slots : List Slot} (h : Filled es slots) (e : Entry) :
    Filled (es ++ [e]) (Slot.add slots e) := by
  by_cases ha : e.isAlone = true
  · rw [add_of_isAlone ha]
    exact h.add_alone ha
  · obtain ⟨connective, negated, paths, q⟩ := e
    simp only [Entry.isAlone, Bool.or_eq_true, not_or, Bool.not_eq_true] at ha
    obtain ⟨rfl, hp⟩ := ha
    cases paths with
    | nil => simp at hp
    | cons path paths => exact h.add_shared connective path paths q

theorem filled_foldl (es : List Entry) : Filled es (es.foldl Slot.add []) := by
  -- The slots so far are filled with the entries so far.
  have run : ∀ (rest done : List Entry) (slots : List Slot), Filled done slots →
      Filled (done ++ rest) (rest.foldl Slot.add slots) := by
    intro rest
    induction rest with
    | nil =>
      intro done slots h
      simpa using h
    | cons e rest ih =>
      intro done slots h
      have := ih (done ++ [e]) (Slot.add slots e) (h.add e)
      simpa using this
  exact run es [] [] filled_nil

theorem Filled.shared_iff {es : List Entry} {slots : List Slot} (h : Filled es slots)
    {c : Connective} {path : String} {ms : List Entry} :
    shared c path ms ∈ slots ↔ ms ≠ [] ∧ ms = es.filterMap (Entry.sharedIn c path) := by
  constructor
  · intro hm
    refine ⟨h.ne_nil c path ms hm, ?_⟩
    rw [← h.membersOf_eq, membersOf_of_mem h.nodup hm]
  · rintro ⟨hne, rfl⟩
    rw [← h.membersOf_eq] at hne ⊢
    exact mem_of_membersOf hne

end Slot

end SearchDsl.Query
