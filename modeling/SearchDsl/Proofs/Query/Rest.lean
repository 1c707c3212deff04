import SearchDsl.Query.OfExpr

/-!
# What is left of a chain of nested paths

A query is made within a scope, the nested documents that are already looked at. Of the nested paths
of a field it takes what is left below the paths that the field shares with that scope
(`Surroundings.Rest`).

* `Surroundings.Rest.unique`: that is one chain of paths;
* `rest_remaining`: it is the one that the compiler takes.
-/

namespace SearchDsl.Query

/-- `rest` is what is left of a chain of paths below the longest beginning that it shares with what
is already looked at. -/
def Surroundings.Rest (s : Surroundings) (paths rest : List String) : Prop :=
  ∃ shared, paths = shared ++ rest ∧ shared <+: s.scope ∧
    ∀ longer, longer <+: paths → longer <+: s.scope → longer <+: shared

/-- There is one longest shared beginning. -/
theorem Surroundings.Rest.unique {s : Surroundings} {paths rest rest' : List String}
    (h : s.Rest paths rest) (h' : s.Rest paths rest') : rest = rest' := by
  obtain ⟨shared, hpaths, hscope, hlongest⟩ := h
  obtain ⟨shared', hpaths', hscope', hlongest'⟩ := h'
  have hle : shared <+: shared' := hlongest' shared ⟨rest, hpaths.symm⟩ hscope
  have hge : shared' <+: shared := hlongest shared' ⟨rest', hpaths'.symm⟩ hscope'
  obtain rfl : shared = shared' := hle.eq_of_length_le hge.length_le
  exact List.append_cancel_left (hpaths.symm.trans hpaths')

theorem commonLength_spec [BEq α] [LawfulBEq α] (as bs : List α) :
    bs.take (commonLength as bs) <+: as ∧
      ∀ longer, longer <+: bs → longer <+: as → longer <+: bs.take (commonLength as bs) := by
  induction as generalizing bs with
  | nil =>
    refine ⟨by simp [commonLength], fun longer _ h => ?_⟩
    rw [List.prefix_nil.1 h]
    exact List.nil_prefix
  | cons a as ih =>
    cases bs with
    | nil => simp [commonLength]
    | cons b bs =>
      by_cases hab : a = b
      · subst hab
        obtain ⟨hshared, hlongest⟩ := ih bs
        simp only [commonLength, BEq.rfl, if_true, List.take_succ_cons]
        refine ⟨List.cons_prefix_cons.2 ⟨rfl, hshared⟩, fun longer hb ha => ?_⟩
        cases longer with
        | nil => exact List.nil_prefix
        | cons x xs =>
          obtain ⟨rfl, hxs⟩ := List.cons_prefix_cons.1 hb
          obtain ⟨-, hxs'⟩ := List.cons_prefix_cons.1 ha
          exact List.cons_prefix_cons.2 ⟨rfl, hlongest xs hxs hxs'⟩
      · simp only [commonLength, beq_iff_eq, hab, if_false, List.take_zero]
        refine ⟨List.nil_prefix, fun longer hb ha => ?_⟩
        cases longer with
        | nil => exact List.nil_prefix
        | cons x xs =>
          obtain ⟨rfl, -⟩ := List.cons_prefix_cons.1 hb
          exact absurd (List.cons_prefix_cons.1 ha).1.symm hab

/-- What remains of a chain of paths is below all that it shares with the scope. -/
theorem rest_remaining (s : Surroundings) (paths : List String) :
    s.Rest paths (s.remaining paths) := by
  obtain ⟨hshared, hlongest⟩ := commonLength_spec s.scope paths
  exact ⟨_, (List.take_append_drop _ _).symm, hshared, hlongest⟩

end SearchDsl.Query
