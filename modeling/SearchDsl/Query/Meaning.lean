import SearchDsl.Query

/-!
# What queries say

A document is looked at from outside: it satisfies a primitive query or not, and it has a list of
sub-documents under each path, which are documents again.

* A nested query holds if some sub-document under its path satisfies the query inside.
* A bool query holds if all clauses of `must` and `filter` hold and none of `mustNot` does; if it
  has clauses of `should` and none of the first two, one of them has to hold too. A number of
  clauses that have to hold is left to the backend and not looked at.

`holds_within` reads a chain of nested queries as a search along a chain of paths, and `holds_bool`
the roles of a bool query.
-/

namespace SearchDsl

/-- What can be asked of a document. -/
inductive Document
  | mk (satisfies : Primitive → Bool) (under : String → List Document)

namespace Document

/-- The document satisfies the primitive query. -/
def satisfies : Document → Primitive → Bool
  | mk s _ => s

/-- The sub-documents under a path. -/
def under : Document → String → List Document
  | mk _ u => u

/-- The documents at the end of a chain of paths, outermost first. -/
def along : Document → List String → List Document
  | d, [] => [d]
  | d, path :: paths => (d.under path).flatMap fun s => s.along paths

end Document

namespace Query

mutual

/-- The query holds of a document. -/
def holds : Query → Document → Bool
  | primitive p, d => d.satisfies p
  | nested path q, d => (d.under path).any (holds q)
  | bool ⟨must, should, mustNot, filter, _⟩, d =>
    allHold must d && allHold filter d && !someHolds mustNot d &&
      (someHolds should d || should.isEmpty || !(must.isEmpty && filter.isEmpty))

/-- All of the queries hold of a document. -/
def allHold : List Query → Document → Bool
  | [], _ => true
  | q :: qs, d => holds q d && allHold qs d

/-- Some of the queries holds of a document. -/
def someHolds : List Query → Document → Bool
  | [], _ => false
  | q :: qs, d => holds q d || someHolds qs d

end

theorem allHold_iff {qs : List Query} {d : Document} :
    allHold qs d = true ↔ ∀ q ∈ qs, q.holds d = true := by
  induction qs with
  | nil => simp [allHold]
  | cons q qs ih => simp [allHold, ih]

theorem someHolds_iff {qs : List Query} {d : Document} :
    someHolds qs d = true ↔ ∃ q ∈ qs, q.holds d = true := by
  induction qs with
  | nil => simp [someHolds]
  | cons q qs ih => simp [someHolds, ih]

/-- A chain of nested queries looks for a document along the chain of their paths. -/
theorem holds_within {paths : List String} {q : Query} {d : Document} :
    (within paths q).holds d = true ↔ ∃ s ∈ d.along paths, q.holds s = true := by
  induction paths generalizing d with
  | nil => simp [within, Document.along]
  | cons path paths ih =>
    have ih' : ∀ s : Document, (List.foldr nested q paths).holds s = true ↔
        ∃ t ∈ s.along paths, q.holds t = true := fun s => ih
    simp only [within, List.foldr_cons, holds, List.any_eq_true, ih', Document.along,
      List.mem_flatMap]
    constructor
    · rintro ⟨s, hs, t, ht, h⟩
      exact ⟨t, ⟨s, hs, ht⟩, h⟩
    · rintro ⟨t, ⟨s, hs, ht⟩, h⟩
      exact ⟨s, hs, t, ht, h⟩

/-- The roles of the clauses of a bool query. -/
theorem holds_bool {c : Clauses Query} {d : Document} :
    (bool c).holds d = true ↔
      (∀ q ∈ c.must, q.holds d = true) ∧ (∀ q ∈ c.filter, q.holds d = true) ∧
      (∀ q ∈ c.mustNot, q.holds d = false) ∧
      (c.should ≠ [] → c.must = [] → c.filter = [] → ∃ q ∈ c.should, q.holds d = true) := by
  obtain ⟨must, should, mustNot, filter, minimum⟩ := c
  have hn : (!someHolds mustNot d) = true ↔ ∀ q ∈ mustNot, q.holds d = false := by
    rw [Bool.not_eq_true', Bool.eq_false_iff, ne_eq, someHolds_iff]
    simp
  simp only [holds, Bool.and_eq_true, Bool.or_eq_true, allHold_iff, someHolds_iff, hn,
    List.isEmpty_iff, Bool.not_eq_true', Bool.eq_false_iff, ne_eq]
  constructor
  · rintro ⟨⟨⟨h₁, h₂⟩, h₃⟩, h₄⟩
    refine ⟨h₁, h₂, h₃, fun hs hm hf => ?_⟩
    rcases h₄ with (h | h) | h
    · exact h
    · exact absurd h hs
    · exact absurd ⟨hm, hf⟩ h
  · rintro ⟨h₁, h₂, h₃, h₄⟩
    refine ⟨⟨⟨h₁, h₂⟩, h₃⟩, ?_⟩
    by_cases hs : should = []
    · exact .inl (.inr hs)
    · by_cases hm : must = [] ∧ filter = []
      · exact .inl (.inl (h₄ hs hm.1 hm.2))
      · exact .inr hm

end Query
end SearchDsl
