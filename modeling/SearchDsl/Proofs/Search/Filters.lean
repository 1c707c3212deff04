import SearchDsl.Proofs.Search.Direct
import SearchDsl.Proofs.Sorting.InUse

/-!
# The filters in a search

A search is made of the filter of its request and of the sort in use (`Search.MadeOf`), which are
the expressions that were read for it.

* `Search.exists_madeOf`: every search is made of such expressions;
* `Search.MadeOf.size_le`: the filter of the request keeps to the limit that it was read under;
* `Search.MadeOf.sum_sizes_le`: those of the sort keep together to `Expr.maxFragments`, under every
  limit.
-/

namespace SearchDsl.Search

/-- The filter that a request has, and the query for it. -/
inductive FilteredBy (schema : Snapshot) (settings : Settings) (limit : Nat)
    (requested : Option String) : Option Expr → Query → Prop
  | absent : Text.nonBlank requested = none →
      FilteredBy schema settings limit requested none (.primitive .matchAll)
  | present {text : String} {e : Expr} {c : Clauses Query} :
      Text.nonBlank requested = some text → Expr.read ⟨some schema, limit⟩ text = .ok e →
      Query.ofExpr ⟨settings.nearDistance, []⟩ e = .ok c →
      FilteredBy schema settings limit requested (some e) (.bool c)

/-- The search is made of the filter of the request and of the sort in use. -/
structure MadeOf (schema : Snapshot) (settings : Settings) (limit : Nat) (request : Request)
    (filter : Option Expr) (sort : Sorting) (search : Search) : Prop where
  filtered : ∃ text q, FilteredBy schema settings limit request.filter filter q ∧
    search.query = .bool { Clauses.empty with must := text, filter := [q] }
  inUse : sort = Sorting.inUse schema settings request.sort request.disableSort
  sorted : ∃ cs, List.Forall₂ (fun i c => SortClause.ofItem settings i = .ok c) sort.items cs ∧
    search.sort =
      if request.disableSort || settings.sortDisabled then cs else SortClause.withTiebreak cs

variable {schema : Snapshot} {settings : Settings} {limit : Nat}

theorem filterQuery_eq_ok_iff {requested : Option String} {q : Query} :
    filterQuery schema settings limit requested = .ok q ↔
      ∃ filter, FilteredBy schema settings limit requested filter q := by
  unfold filterQuery
  cases htext : Text.nonBlank requested with
  | none =>
    constructor
    · rintro ⟨⟩
      exact ⟨none, .absent htext⟩
    · rintro ⟨filter, h⟩
      cases h with
      | absent => rfl
      | present htext' => cases htext.symm.trans htext'
  | some text =>
    simp only [bind_eq_ok, pure_eq_ok]
    constructor
    · rintro ⟨e, he, c, hc, rfl⟩
      exact ⟨some e, .present htext he hc⟩
    · rintro ⟨filter, h⟩
      cases h with
      | absent htext' => cases htext.symm.trans htext'
      | present htext' he hc =>
        cases htext.symm.trans htext'
        exact ⟨_, he, _, hc, rfl⟩

variable {request : Request} {search : Search}

/-- **Every search is made of the expressions that were read for it.** -/
theorem exists_madeOf (h : direct schema settings limit request = .ok search) :
    ∃ filter, MadeOf schema settings limit request filter
      (Sorting.inUse schema settings request.sort request.disableSort) search := by
  simp only [direct, requestQuery, bind_eq_ok, pure_eq_ok] at h
  obtain ⟨query, ⟨text, -, q, hq, rfl⟩, aggregations, -, projection, -, rfl⟩ := h
  obtain ⟨filter, hfilter⟩ := filterQuery_eq_ok_iff.1 hq
  obtain ⟨cs, hcs, hsort⟩ :=
    SortClause.exists_ofRequest schema settings request.sort request.disableSort
  exact ⟨filter, ⟨_, q, hfilter, rfl⟩, rfl, cs, hcs, hsort⟩

namespace MadeOf

variable {filter : Option Expr} {sort : Sorting}

/-- The filter of the request keeps to the limit. -/
theorem size_le (h : MadeOf schema settings limit request filter sort search) :
    ∀ e, filter = some e → e.size ≤ limit := by
  rintro e rfl
  obtain ⟨text, q, hfilter, -⟩ := h.filtered
  cases hfilter with
  | present _ he _ =>
    obtain ⟨ts, n, -, hd, hle⟩ := Expr.read_eq_ok_iff.1 he
    exact hd.size_le.trans hle

/-- **The filters of the sort keep to the default limit**, whatever the limit is. -/
theorem sum_sizes_le (h : MadeOf schema settings limit request filter sort search) :
    (sort.filters.map Expr.size).sum ≤ Expr.maxFragments := by
  rw [h.inUse]
  exact Sorting.inUse_induction (Nat.zero_le _) fun _ _ => Sorting.sum_sizes_le_of_read

end MadeOf
end SearchDsl.Search
