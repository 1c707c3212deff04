import SearchDsl.Proofs.Expr.Meaning
import SearchDsl.Proofs.Query.Slots

/-!
# Gathering queries keeps what they say

The entries of a list of items are gathered into the clauses of one bool query. Here it is shown
that the query says what the entries say as conditions:

* `holds_placeAll` reads the bool query of placed queries by the connective and sign of each;
* `mem_gather` lists what is gathered, and `gather_required_iff` and `gather_optional_iff`
  read it by induction on the depth;
* `holds_ofEntries` puts these together.
-/

namespace SearchDsl.Query

/-- What an entry says, as a condition on documents. -/
def Entry.condition (e : Entry) : Condition :=
  ⟨e.connective, e.negated, e.paths, fun t => e.query.holds t = true⟩

/-! ### The roles of a list of placed queries -/

/-- The placed query by itself. -/
def Placed.Holds (p : Placed) (d : Document) : Prop :=
  if p.negated then p.query.holds d = false else p.query.holds d = true

/-- The clause of `should` for a query under OR. -/
def Placed.optionalClause (p : Placed) : Query :=
  if p.negated then bool { Clauses.empty with mustNot := [p.query] } else p.query

/-- The queries under AND that have to hold. -/
def Placed.isRequired (p : Placed) : Bool := p.connective == .and && !p.negated

/-- The queries under AND that may not hold. -/
def Placed.isExcluded (p : Placed) : Bool := p.connective == .and && p.negated

/-- The queries under OR. -/
def Placed.isOptional (p : Placed) : Bool := p.connective == .or

theorem foldl_place (ps : List Placed) (c : Clauses Query) :
    ps.foldl place c =
      { c with
        must := c.must ++ (ps.filter Placed.isRequired).map Placed.query
        should := c.should ++ (ps.filter Placed.isOptional).map Placed.optionalClause
        mustNot := c.mustNot ++ (ps.filter Placed.isExcluded).map Placed.query } := by
  induction ps generalizing c with
  | nil => simp
  | cons p ps ih =>
    rw [List.foldl_cons, ih]
    obtain ⟨connective, negated, q⟩ := p
    cases connective <;> cases negated <;>
      simp [place, Placed.isRequired, Placed.isOptional, Placed.isExcluded, Placed.optionalClause]

theorem holds_optionalClause {p : Placed} {d : Document} :
    p.optionalClause.holds d = true ↔ p.Holds d := by
  obtain ⟨connective, negated, q⟩ := p
  cases negated
  · simp [Placed.optionalClause, Placed.Holds]
  · simp [Placed.optionalClause, Placed.Holds, holds_bool, Clauses.empty]

/-- The bool query of a list of placed queries. -/
theorem holds_placeAll {ps : List Placed} {d : Document} :
    (bool (placeAll ps)).holds d = true ↔
      (∀ p ∈ ps, p.isRequired = true → p.query.holds d = true) ∧
      (∀ p ∈ ps, p.isExcluded = true → p.query.holds d = false) ∧
      ((∃ p ∈ ps, p.isOptional = true) → (∀ p ∈ ps, p.isRequired = false) →
        ∃ p ∈ ps, p.isOptional = true ∧ p.Holds d) := by
  have hopt : (∃ q ∈ (ps.filter Placed.isOptional).map Placed.optionalClause, q.holds d = true) ↔
      ∃ p ∈ ps, p.isOptional = true ∧ p.Holds d := by
    simp only [List.mem_map, List.mem_filter]
    constructor
    · rintro ⟨q, ⟨p, ⟨hp, ho⟩, rfl⟩, hq⟩
      exact ⟨p, hp, ho, holds_optionalClause.1 hq⟩
    · rintro ⟨p, hp, ho, hh⟩
      exact ⟨_, ⟨p, ⟨hp, ho⟩, rfl⟩, holds_optionalClause.2 hh⟩
  have hsome : (ps.filter Placed.isOptional).map Placed.optionalClause ≠ [] ↔
      ∃ p ∈ ps, p.isOptional = true := by
    rw [ne_eq, List.map_eq_nil_iff, List.filter_eq_nil_iff]
    simp
  have hnone : (ps.filter Placed.isRequired).map Placed.query = [] ↔
      ∀ p ∈ ps, p.isRequired = false := by
    rw [List.map_eq_nil_iff, List.filter_eq_nil_iff]
    simp
  rw [placeAll, foldl_place, holds_bool]
  simp only [Clauses.empty, List.nil_append, hopt, hsome, hnone, List.forall_mem_map,
    List.forall_mem_filter, List.not_mem_nil, false_implies, implies_true, true_and, forall_const]

/-- All of the queries hold, or some of them does, as the connective says. -/
def Placed.Joined (ps : List Placed) (d : Document) : Connective → Prop
  | .and => ∀ p ∈ ps, p.query.holds d = true
  | .or => ∃ p ∈ ps, p.query.holds d = true

/-- Positive queries under one connective, as one query. -/
theorem holds_together {c : Connective} {ps : List Placed} {d : Document} (hne : ps ≠ [])
    (hc : ∀ p ∈ ps, p.connective = c ∧ p.negated = false) :
    (together ps).holds d = true ↔ Placed.Joined ps d c := by
  unfold together
  split
  · cases c <;> simp [Placed.Joined]
  · rw [holds_placeAll]
    -- Under AND every query is required, so that the optional ones do not matter; under OR none is.
    obtain ⟨p₀, hp₀⟩ := List.exists_mem_of_ne_nil ps hne
    have hx : ∀ p ∈ ps, p.isExcluded = false := fun p hp => by
      simp [Placed.isExcluded, (hc p hp).2]
    cases c with
    | and =>
      have hr : ∀ p ∈ ps, p.isRequired = true := fun p hp => by
        simp [Placed.isRequired, (hc p hp).1, (hc p hp).2]
      constructor
      · rintro ⟨h, -, -⟩ p hp
        exact h p hp (hr p hp)
      · intro h
        refine ⟨fun p hp _ => h p hp, fun p hp he => ?_, fun _ hn => ?_⟩
        · rw [hx p hp] at he
          cases he
        · have := hn p₀ hp₀
          rw [hr p₀ hp₀] at this
          cases this
    | or =>
      have hr : ∀ p ∈ ps, p.isRequired = false := fun p hp => by
        simp [Placed.isRequired, (hc p hp).1]
      have ho : ∀ p ∈ ps, p.isOptional = true := fun p hp => by
        simp [Placed.isOptional, (hc p hp).1]
      have hh : ∀ p ∈ ps, p.Holds d ↔ p.query.holds d = true := fun p hp => by
        simp [Placed.Holds, (hc p hp).2]
      constructor
      · rintro ⟨-, -, h⟩
        obtain ⟨p, hp, -, hq⟩ := h ⟨p₀, hp₀, ho p₀ hp₀⟩ hr
        exact ⟨p, hp, (hh p hp).1 hq⟩
      · rintro ⟨p, hp, hq⟩
        refine ⟨fun p hp he => ?_, fun p hp he => ?_, fun _ _ =>
          ⟨p, hp, ho p hp, (hh p hp).2 hq⟩⟩
        · rw [hr p hp] at he
          cases he
        · rw [hx p hp] at he
          cases he

/-! ### Gathering -/

/-- The rest of an entry in a shared slot is one path shorter. -/
theorem length_lt_of_mem_sharedIn {n : Nat} {es : List Entry} (h : ∀ e ∈ es, e.paths.length ≤ n)
    {c : Connective} {path : String} {m : Entry}
    (hm : m ∈ es.filterMap (Entry.sharedIn c path)) : m.paths.length < n := by
  obtain ⟨e, he, hem⟩ := List.mem_filterMap.1 hm
  obtain ⟨-, -, ps, hp, rfl⟩ := Entry.sharedIn_eq_some.1 hem
  have := h e he
  rw [hp, List.length_cons] at this
  exact this

/-- What is gathered: the entries that stand alone, and one nested query for each connective and
path that some entries share. -/
theorem mem_gather {n : Nat} {es : List Entry} (h : ∀ e ∈ es, e.paths.length ≤ n) {p : Placed} :
    p ∈ gather n es ↔ (∃ e ∈ es, e.isAlone = true ∧ p = e.alone) ∨
      ∃ c path, es.filterMap (Entry.sharedIn c path) ≠ [] ∧
        p = ⟨c, false, nested path
          (together (gather (n - 1) (es.filterMap (Entry.sharedIn c path))))⟩ := by
  cases n with
  | zero =>
    simp only [gather, List.mem_map]
    constructor
    · rintro ⟨e, he, rfl⟩
      have hp : e.paths = [] := List.eq_nil_of_length_eq_zero (Nat.le_zero.1 (h e he))
      exact .inl ⟨e, he, by simp [Entry.isAlone, hp], rfl⟩
    · rintro (⟨e, he, -, rfl⟩ | ⟨c, path, hne, -⟩)
      · exact ⟨e, he, rfl⟩
      · obtain ⟨m, hm⟩ := List.exists_mem_of_ne_nil _ hne
        exact absurd (length_lt_of_mem_sharedIn h hm) (Nat.not_lt_zero _)
  | succ n =>
    have hf := Slot.filled_foldl es
    simp only [gather, List.mem_map]
    constructor
    · rintro ⟨slot, hs, rfl⟩
      cases slot with
      | single p => exact .inl ((hf.single_iff p).1 hs)
      | shared c path ms =>
        obtain ⟨hne, rfl⟩ := hf.shared_iff.1 hs
        exact .inr ⟨c, path, hne, rfl⟩
    · rintro (he | ⟨c, path, hne, rfl⟩)
      · exact ⟨.single p, (hf.single_iff p).2 he, rfl⟩
      · exact ⟨.shared c path _, hf.shared_iff.2 ⟨hne, rfl⟩, rfl⟩

/-- An entry stands alone, or it goes to a shared slot. -/
theorem Entry.isAlone_or_sharedIn (e : Entry) : e.isAlone = true ∨
    ∃ path ps, e.paths = path :: ps ∧
      e.sharedIn e.connective path = some { e with paths := ps } := by
  obtain ⟨connective, negated, paths, q⟩ := e
  cases negated <;> cases paths <;> simp [Entry.isAlone, Entry.sharedIn]

/-- The same connectives and signs occur among the gathered queries as among the entries. -/
theorem exists_gather_iff {n : Nat} {es : List Entry} (h : ∀ e ∈ es, e.paths.length ≤ n)
    (c : Connective) (b : Bool) : (∃ p ∈ gather n es, p.connective = c ∧ p.negated = b) ↔
      ∃ e ∈ es, e.connective = c ∧ e.negated = b := by
  constructor
  · rintro ⟨p, hp, hc, hb⟩
    rcases (mem_gather h).1 hp with ⟨e, he, -, rfl⟩ | ⟨c', path, hne, rfl⟩
    · exact ⟨e, he, hc, hb⟩
    · obtain ⟨m, hm⟩ := List.exists_mem_of_ne_nil _ hne
      obtain ⟨e, he, hem⟩ := List.mem_filterMap.1 hm
      obtain ⟨hn, hc', -⟩ := Entry.sharedIn_eq_some.1 hem
      exact ⟨e, he, hc'.trans hc, hn.trans hb⟩
  · rintro ⟨e, he, hc, hb⟩
    rcases e.isAlone_or_sharedIn with ha | ⟨path, ps, -, hs⟩
    · exact ⟨e.alone, (mem_gather h).2 (.inl ⟨e, he, ha, rfl⟩), hc, hb⟩
    · have hm := List.mem_filterMap.2 ⟨e, he, hs⟩
      refine ⟨_, (mem_gather h).2 (.inr ⟨_, path, List.ne_nil_of_mem hm, rfl⟩), hc, ?_⟩
      rw [← hb, (Entry.sharedIn_eq_some.1 hs).1]

theorem gather_ne_nil {n : Nat} {es : List Entry} (h : ∀ e ∈ es, e.paths.length ≤ n)
    (hne : es ≠ []) : gather n es ≠ [] := by
  obtain ⟨e, he⟩ := List.exists_mem_of_ne_nil es hne
  obtain ⟨p, hp, -⟩ := (exists_gather_iff h e.connective e.negated).2 ⟨e, he, rfl, rfl⟩
  exact List.ne_nil_of_mem hp

section Shared

variable {n : Nat} {es : List Entry} (h : ∀ e ∈ es, e.paths.length ≤ n)
variable {c : Connective} {path : String}

include h

theorem length_le_of_mem_sharedIn {m : Entry} (hm : m ∈ es.filterMap (Entry.sharedIn c path)) :
    m.paths.length ≤ n - 1 := Nat.le_sub_one_of_lt (length_lt_of_mem_sharedIn h hm)

/-- In a shared slot everything has the connective of the slot and is positive. -/
theorem of_mem_gather_sharedIn {p : Placed}
    (hp : p ∈ gather (n - 1) (es.filterMap (Entry.sharedIn c path))) :
    p.connective = c ∧ p.negated = false := by
  obtain ⟨m, hm, hc, hb⟩ := (exists_gather_iff (fun m => length_le_of_mem_sharedIn h)
    p.connective p.negated).1 ⟨p, hp, rfl, rfl⟩
  obtain ⟨e, -, hem⟩ := List.mem_filterMap.1 hm
  obtain ⟨hn, hc', ps, -, rfl⟩ := Entry.sharedIn_eq_some.1 hem
  exact ⟨hc.symm.trans hc', hb.symm.trans hn⟩

/-- In a slot shared under AND the queries are required, so they hold if all of them do. -/
theorem joined_and_iff {d : Document} :
    Placed.Joined (gather (n - 1) (es.filterMap (Entry.sharedIn .and path))) d .and ↔
      ∀ p ∈ gather (n - 1) (es.filterMap (Entry.sharedIn .and path)),
        p.isRequired = true → p.query.holds d = true := by
  refine forall₂_congr fun p hp => ?_
  obtain ⟨hc, hb⟩ := of_mem_gather_sharedIn h hp
  simp [Placed.isRequired, hc, hb]

/-- In a slot shared under OR the queries are optional, so one of them has to hold. -/
theorem joined_or_iff {d : Document} :
    Placed.Joined (gather (n - 1) (es.filterMap (Entry.sharedIn .or path))) d .or ↔
      ∃ p ∈ gather (n - 1) (es.filterMap (Entry.sharedIn .or path)),
        p.isOptional = true ∧ p.Holds d := by
  refine exists_congr fun p => and_congr_right fun hp => ?_
  obtain ⟨hc, hb⟩ := of_mem_gather_sharedIn h hp
  simp [Placed.isOptional, Placed.Holds, hc, hb]

/-- The nested query of a shared slot. -/
theorem holds_shared {d : Document} (hne : es.filterMap (Entry.sharedIn c path) ≠ []) :
    (nested path
      (together (gather (n - 1) (es.filterMap (Entry.sharedIn c path))))).holds d = true ↔
      ∃ t ∈ d.under path,
        Placed.Joined (gather (n - 1) (es.filterMap (Entry.sharedIn c path))) t c := by
  simp only [holds, List.any_eq_true]
  exact exists_congr fun t => and_congr_right fun _ =>
    holds_together (gather_ne_nil (fun m => length_le_of_mem_sharedIn h) hne)
      fun p hp => of_mem_gather_sharedIn h hp

end Shared

/-! ### What is gathered under AND and under OR -/

theorem holds_alone {e : Entry} {d : Document} :
    e.alone.query.holds d = true ↔ e.condition.Found d := holds_within

theorem condition_sharedIn (path : String) (e : Entry) :
    (e.sharedIn .and path).map Entry.condition =
      if e.condition.isRequired then e.condition.below path else none := by
  obtain ⟨connective, negated, paths, q⟩ := e
  cases connective <;> cases negated <;> cases paths <;>
    simp [Entry.sharedIn, Entry.condition, Condition.isRequired, Condition.below]

theorem map_condition_sharedIn (path : String) (es : List Entry) :
    (es.filterMap (Entry.sharedIn .and path)).map Entry.condition =
      ((es.map Entry.condition).filter Condition.isRequired).filterMap (Condition.below path) := by
  rw [List.map_filterMap, List.filterMap_filter, List.filterMap_map]
  exact congrArg (fun f => es.filterMap f) (funext (condition_sharedIn path))

/-- Everything in a slot shared under AND is required. -/
theorem filter_isRequired_sharedIn (path : String) (es : List Entry) :
    ((es.filterMap (Entry.sharedIn .and path)).map Entry.condition).filter Condition.isRequired =
      (es.filterMap (Entry.sharedIn .and path)).map Entry.condition := by
  refine List.filter_eq_self.2 fun c hc => ?_
  obtain ⟨m, hm, rfl⟩ := List.mem_map.1 hc
  obtain ⟨e, -, hem⟩ := List.mem_filterMap.1 hm
  obtain ⟨hn, hc', ps, -, rfl⟩ := Entry.sharedIn_eq_some.1 hem
  simp [Entry.condition, Condition.isRequired, hn, hc']

/-- Without paths there is nowhere to look but in the document itself. -/
theorem found_iff_of_paths_nil {c : Condition} (hp : c.paths = []) {d : Document} :
    c.Found d ↔ c.asks d := by simp [Condition.Found, hp, Document.along]

/-- The queries that have to hold, if those in the shared slots do what the entries in them say. -/
theorem gather_required_step {n : Nat} {es : List Entry} (h : ∀ e ∈ es, e.paths.length ≤ n)
    {d : Document}
    (hshared : ∀ path, es.filterMap (Entry.sharedIn .and path) ≠ [] → ∀ t,
      (Placed.Joined (gather (n - 1) (es.filterMap (Entry.sharedIn .and path))) t .and ↔
        Condition.Jointly (((es.map Entry.condition).filter Condition.isRequired).filterMap
          (Condition.below path)) t)) :
    (∀ p ∈ gather n es, p.isRequired = true → p.query.holds d = true) ↔
      Condition.Jointly ((es.map Entry.condition).filter Condition.isRequired) d := by
  rw [Condition.jointly_iff]
  constructor
  · intro hall
    refine ⟨fun c hc hp => ?_, fun path hne => ?_⟩
    · obtain ⟨hm, hr⟩ := List.mem_filter.1 hc
      obtain ⟨e, he, rfl⟩ := List.mem_map.1 hm
      have ha : e.isAlone = true := by
        simp [Entry.isAlone, show e.paths = [] from hp]
      have hq := hall e.alone ((mem_gather h).2 (.inl ⟨e, he, ha, rfl⟩)) hr
      exact (found_iff_of_paths_nil hp).1 (holds_alone.1 hq)
    · rw [← map_condition_sharedIn, ne_eq, List.map_eq_nil_iff] at hne
      have hq := hall _ ((mem_gather h).2 (.inr ⟨.and, path, hne, rfl⟩)) rfl
      obtain ⟨t, ht, hj⟩ := (holds_shared h hne).1 hq
      exact ⟨t, ht, (hshared path hne t).1 hj⟩
  · rintro ⟨hnil, hcons⟩ p hm hr
    rcases (mem_gather h).1 hm with ⟨e, he, ha, rfl⟩ | ⟨c, path, hne, rfl⟩
    · have hr' : e.condition.isRequired = true := hr
      have hp : e.paths = [] := by
        simp only [Condition.isRequired, Entry.condition, Bool.and_eq_true,
          Bool.not_eq_true'] at hr'
        simpa [Entry.isAlone, hr'.2] using ha
      have := hnil e.condition (List.mem_filter.2 ⟨List.mem_map_of_mem he, hr'⟩) hp
      exact holds_alone.2 ((found_iff_of_paths_nil hp).2 this)
    · -- Only a slot shared under AND is required.
      obtain rfl : c = .and := by simpa [Placed.isRequired] using hr
      obtain ⟨t, ht, hj⟩ := hcons path (by
        rwa [← map_condition_sharedIn, ne_eq, List.map_eq_nil_iff])
      exact (holds_shared h hne).2 ⟨t, ht, (hshared path hne t).2 hj⟩

/-- **Gathering under AND.** The queries that have to hold do so if the required entries hold
jointly. -/
theorem gather_required_iff {n : Nat} {es : List Entry} (h : ∀ e ∈ es, e.paths.length ≤ n)
    {d : Document} :
    (∀ p ∈ gather n es, p.isRequired = true → p.query.holds d = true) ↔
      Condition.Jointly ((es.map Entry.condition).filter Condition.isRequired) d := by
  induction n using Nat.strongRecOn generalizing es d with
  | ind n ih =>
    refine gather_required_step h fun path hne t => ?_
    obtain ⟨m, hm⟩ := List.exists_mem_of_ne_nil _ hne
    have hlt : n - 1 < n := by
      have := length_lt_of_mem_sharedIn h hm
      omega
    -- Below the path the entries are shorter, and the induction speaks of them.
    rw [← map_condition_sharedIn, ← filter_isRequired_sharedIn,
      ← ih (n - 1) hlt fun m => length_le_of_mem_sharedIn h, joined_and_iff h]

/-- The rest of an entry is found below its outermost path. -/
theorem found_of_cons {c : Condition} {path : String} {ps : List String}
    (hp : c.paths = path :: ps) {d : Document} :
    c.Found d ↔ ∃ t ∈ d.under path, ({ c with paths := ps } : Condition).Found t := by
  simp only [Condition.Found, hp, Document.along, List.mem_flatMap]
  constructor
  · rintro ⟨u, ⟨t, ht, hu⟩, ha⟩
    exact ⟨t, ht, u, hu, ha⟩
  · rintro ⟨t, ht, u, hu, ha⟩
    exact ⟨u, ⟨t, ht, hu⟩, ha⟩

theorem holds_alone_iff {e : Entry} {d : Document} :
    e.alone.Holds d ↔ e.condition.Holds d := by
  have h : e.alone.query.holds d = true ↔ e.condition.Found d := holds_alone
  obtain ⟨connective, negated, paths, q⟩ := e
  cases negated with
  | false => simpa [Placed.Holds, Condition.Holds, Entry.condition, Entry.alone] using h
  | true =>
    have h' := not_congr h
    rw [Bool.not_eq_true] at h'
    simpa [Placed.Holds, Condition.Holds, Entry.condition, Entry.alone] using h'

theorem Condition.holds_of_positive {c : Condition} (hn : c.negated = false) {d : Document} :
    c.Holds d ↔ c.Found d := by simp [Condition.Holds, hn]

/-- The rests of the entries in a slot shared under OR are positive. -/
theorem holds_sharedIn_or_iff {path : String} {es : List Entry} {m : Entry} {d : Document}
    (hm : m ∈ es.filterMap (Entry.sharedIn .or path)) :
    m.connective = .or ∧ m.condition.Holds d ↔ m.condition.Found d := by
  obtain ⟨e, -, hem⟩ := List.mem_filterMap.1 hm
  obtain ⟨hn, hc, ps, -, rfl⟩ := Entry.sharedIn_eq_some.1 hem
  rw [Condition.holds_of_positive (by exact hn)]
  exact and_iff_right hc

/-- The optional queries, if those in the shared slots do what the entries in them say. -/
theorem gather_optional_step {n : Nat} {es : List Entry} (h : ∀ e ∈ es, e.paths.length ≤ n)
    {d : Document}
    (hshared : ∀ path, es.filterMap (Entry.sharedIn .or path) ≠ [] → ∀ t,
      (Placed.Joined (gather (n - 1) (es.filterMap (Entry.sharedIn .or path))) t .or ↔
        ∃ m ∈ es.filterMap (Entry.sharedIn .or path), m.condition.Found t)) :
    (∃ p ∈ gather n es, p.isOptional = true ∧ p.Holds d) ↔
      ∃ e ∈ es, e.connective = .or ∧ e.condition.Holds d := by
  constructor
  · rintro ⟨p, hm, ho, hq⟩
    rcases (mem_gather h).1 hm with ⟨e, he, -, rfl⟩ | ⟨c, path, hne, rfl⟩
    · exact ⟨e, he, by simpa [Placed.isOptional, Entry.alone] using ho, holds_alone_iff.1 hq⟩
    · -- Only a slot shared under OR is optional.
      obtain rfl : c = .or := by simpa [Placed.isOptional] using ho
      obtain ⟨t, ht, hj⟩ := (holds_shared h hne).1 (by simpa [Placed.Holds] using hq)
      obtain ⟨m, hmm, hf⟩ := (hshared path hne t).1 hj
      obtain ⟨e, he, hem⟩ := List.mem_filterMap.1 hmm
      obtain ⟨hn, hc, ps, hps, rfl⟩ := Entry.sharedIn_eq_some.1 hem
      refine ⟨e, he, hc, (Condition.holds_of_positive (by exact hn)).2 ?_⟩
      exact (found_of_cons (c := e.condition) hps).2 ⟨t, ht, hf⟩
  · rintro ⟨e, he, hc, hq⟩
    rcases e.isAlone_or_sharedIn with ha | ⟨path, ps, hps, hs⟩
    · exact ⟨e.alone, (mem_gather h).2 (.inl ⟨e, he, ha, rfl⟩),
        by simp [Placed.isOptional, Entry.alone, hc], holds_alone_iff.2 hq⟩
    · rw [hc] at hs
      have hmm := List.mem_filterMap.2 ⟨e, he, hs⟩
      have hne := List.ne_nil_of_mem hmm
      have hn := (Entry.sharedIn_eq_some.1 hs).1
      have hf := (Condition.holds_of_positive (c := e.condition) (by exact hn)).1 hq
      obtain ⟨t, ht, hf⟩ := (found_of_cons (c := e.condition) hps).1 hf
      have hj := (hshared path hne t).2 ⟨_, hmm, hf⟩
      refine ⟨_, (mem_gather h).2 (.inr ⟨.or, path, hne, rfl⟩), rfl, ?_⟩
      simpa [Placed.Holds] using (holds_shared h hne).2 ⟨t, ht, hj⟩

/-- **Gathering under OR.** Some query under OR holds if some entry under OR does. -/
theorem gather_optional_iff {n : Nat} {es : List Entry} (h : ∀ e ∈ es, e.paths.length ≤ n)
    {d : Document} :
    (∃ p ∈ gather n es, p.isOptional = true ∧ p.Holds d) ↔
      ∃ e ∈ es, e.connective = .or ∧ e.condition.Holds d := by
  induction n using Nat.strongRecOn generalizing es d with
  | ind n ih =>
    refine gather_optional_step h fun path hne t => ?_
    obtain ⟨m, hm⟩ := List.exists_mem_of_ne_nil _ hne
    have hlt : n - 1 < n := by
      have := length_lt_of_mem_sharedIn h hm
      omega
    -- Below the path the entries are shorter, and the induction speaks of them.
    rw [joined_or_iff h, ih (n - 1) hlt fun m => length_le_of_mem_sharedIn h]
    exact exists_congr fun m => and_congr_right holds_sharedIn_or_iff

/-- The queries that are excluded are those of the denied entries under AND. -/
theorem gather_excluded_iff {n : Nat} {es : List Entry} (h : ∀ e ∈ es, e.paths.length ≤ n)
    {d : Document} :
    (∀ p ∈ gather n es, p.isExcluded = true → p.query.holds d = false) ↔
      ∀ e ∈ es, e.connective = .and → e.negated = true → ¬ e.condition.Found d := by
  constructor
  · intro hall e he hc hn hf
    have ha : e.isAlone = true := by simp [Entry.isAlone, hn]
    have := hall e.alone ((mem_gather h).2 (.inl ⟨e, he, ha, rfl⟩))
      (by simp [Placed.isExcluded, Entry.alone, hc, hn])
    rw [holds_alone.2 hf] at this
    cases this
  · intro hall p hm hx
    rcases (mem_gather h).1 hm with ⟨e, he, -, rfl⟩ | ⟨c, path, hne, rfl⟩
    · simp only [Placed.isExcluded, Entry.alone, Bool.and_eq_true, beq_iff_eq] at hx
      rw [← Bool.not_eq_true, holds_alone]
      exact hall e he hx.1 hx.2
    · simp [Placed.isExcluded] at hx

/-! ### The query of a list of entries -/

theorem length_le_depthOf {es : List Entry} {e : Entry} (he : e ∈ es) :
    e.paths.length ≤ depthOf es := by
  -- The fold is above its start and above what it has taken in.
  have run : ∀ (ns : List Nat) (m : Nat), m ≤ ns.foldl max m ∧ ∀ n ∈ ns, n ≤ ns.foldl max m := by
    intro ns
    induction ns with
    | nil => intro m; simp
    | cons k ns ih =>
      intro m
      obtain ⟨h₁, h₂⟩ := ih (max m k)
      refine ⟨by rw [List.foldl_cons]; omega, fun n hn => ?_⟩
      rcases List.mem_cons.1 hn with rfl | hn
      · rw [List.foldl_cons]; omega
      · exact h₂ n hn
  exact (run _ 0).2 _ (List.mem_map_of_mem he)

theorem exists_isOptional_gather_iff {n : Nat} {es : List Entry}
    (h : ∀ e ∈ es, e.paths.length ≤ n) : (∃ p ∈ gather n es, p.isOptional = true) ↔
      ∃ c ∈ es.map Entry.condition, c.connective = .or := by
  constructor
  · rintro ⟨p, hp, ho⟩
    obtain ⟨e, he, hc, -⟩ := (exists_gather_iff h .or p.negated).1
      ⟨p, hp, by simpa [Placed.isOptional] using ho, rfl⟩
    exact ⟨e.condition, List.mem_map_of_mem he, hc⟩
  · rintro ⟨c, hc, ho⟩
    obtain ⟨e, he, rfl⟩ := List.mem_map.1 hc
    obtain ⟨p, hp, hpo, -⟩ := (exists_gather_iff h .or e.negated).2 ⟨e, he, ho, rfl⟩
    exact ⟨p, hp, by simp [Placed.isOptional, hpo]⟩

theorem exists_isRequired_gather_iff {n : Nat} {es : List Entry}
    (h : ∀ e ∈ es, e.paths.length ≤ n) : (∃ p ∈ gather n es, p.isRequired = true) ↔
      ∃ c ∈ es.map Entry.condition, c.isRequired = true := by
  simp only [Placed.isRequired, Condition.isRequired, Bool.and_eq_true, beq_iff_eq,
    Bool.not_eq_true']
  rw [exists_gather_iff h]
  constructor
  · rintro ⟨e, he, hc, hn⟩
    exact ⟨e.condition, List.mem_map_of_mem he, hc, hn⟩
  · rintro ⟨c, hm, hc, hn⟩
    obtain ⟨e, he, rfl⟩ := List.mem_map.1 hm
    exact ⟨e, he, hc, hn⟩

/-- **The bool query of a list of entries says what the entries say as conditions.** -/
theorem holds_ofEntries {es : List Entry} {d : Document} :
    (bool (ofEntries es)).holds d = true ↔ Condition.AllHold (es.map Entry.condition) d := by
  have h : ∀ e ∈ es, e.paths.length ≤ depthOf es := fun e => length_le_depthOf
  have hnone : (∀ p ∈ gather (depthOf es) es, p.isRequired = false) ↔
      ∀ c ∈ es.map Entry.condition, c.isRequired = false := by
    simpa using not_congr (exists_isRequired_gather_iff h)
  rw [ofEntries, holds_placeAll, gather_required_iff h, gather_excluded_iff h,
    gather_optional_iff h, exists_isOptional_gather_iff h, hnone]
  constructor
  · rintro ⟨h₁, h₂, h₃⟩
    refine ⟨h₁, List.forall_mem_map.2 h₂, fun ho hr => ?_⟩
    obtain ⟨e, he, hc, hq⟩ := h₃ ho hr
    exact ⟨_, List.mem_map_of_mem he, hc, hq⟩
  · rintro ⟨h₁, h₂, h₃⟩
    refine ⟨h₁, List.forall_mem_map.1 h₂, fun ho hr => ?_⟩
    obtain ⟨c, hc, ho', hq⟩ := h₃ ho hr
    obtain ⟨e, he, rfl⟩ := List.mem_map.1 hc
    exact ⟨e, he, ho', hq⟩

end SearchDsl.Query
