import SearchDsl.Proofs.Outcome
import SearchDsl.Proofs.Text.Trim
import SearchDsl.Projection.Cache

/-!
# The fields that a projection returns

The backend returns the included fields, or all if none is included, without the excluded ones
(`Projection.Returns`). A request asks for the included names without the excluded ones.

* `mem_of_chosen`: the names that are used are those that are asked for;
* `returns_project_iff`: the fields of a request are the ones it asks for, unless it excludes
  everything that it includes. Then no include is left, which stands for all fields;
* `returns_excluded`: such a request is answered with the fields it excludes.
-/

namespace SearchDsl

namespace Projection

/-- The backend returns the field. -/
def Returns (p : Projection) (field : String) : Prop :=
  (p.includes = [] ∨ field ∈ p.includes) ∧ field ∉ p.excludes

/-- The names of a list without the blanks around them, and without blank names. -/
def asked (names : List String) : List String :=
  (names.map Text.trim).filter fun n => !n.isEmpty

/-- The names that a list asks for; if there is none, the default ones. -/
def named (default requested : List String) : List String :=
  if asked requested = [] then default else asked requested

variable {includes excludes names default requested : List String} {field : String}

/-! ### The names of a request -/

theorem isRequested_iff : isRequested names = true ↔ asked names ≠ [] := by
  simp only [isRequested, asked, ne_eq, List.filter_eq_nil_iff, List.forall_mem_map,
    Text.trim_isEmpty, List.any_eq_true]
  simp

theorem mem_cleaned : field ∈ cleaned names ↔ field ∈ asked names := mem_distinctOn_id

/-- Looking the names up in the mapping does not change them. -/
theorem checked_eq_ok {schema : Snapshot} {ns : List String} (h : checked schema names = .ok ns) :
    ns = cleaned names := by
  simp only [checked, bind_eq_ok, pure_eq_ok] at h
  obtain ⟨-, -, rfl⟩ := h
  rfl

/-- **The chosen names are those that are asked for.** -/
theorem mem_of_chosen {schema : Snapshot} {ns : List String}
    (h : chosen schema default requested = .ok ns) :
    field ∈ ns ↔ field ∈ named default requested := by
  unfold chosen at h
  split at h
  · rename_i hr
    rw [checked_eq_ok h, mem_cleaned, named, if_neg (isRequested_iff.1 hr)]
  · rename_i hr
    rw [isRequested_iff, not_not] at hr
    cases h
    rw [named, if_pos hr]

/-! ### Includes without excludes -/

/-- The request includes names, and excludes all of them. -/
def Emptied (includes excludes : List String) : Prop :=
  includes ≠ [] ∧ ∀ n ∈ includes, n ∈ excludes

theorem not_emptied_iff :
    ¬ Emptied includes excludes ↔ includes = [] ∨ ∃ n ∈ includes, n ∉ excludes := by
  simp only [Emptied, not_and_or, not_not, not_forall, exists_prop, ne_eq]

/-- No include left stands for all fields, and only the excludes that were not included remain. -/
theorem returns_subtract_of_emptied (h : Emptied includes excludes) :
    (subtract includes excludes).Returns field ↔ (field ∈ excludes → field ∈ includes) := by
  have hne : includes.isEmpty = false := by simpa using h.1
  have hnil : includes.filter (fun n => !excludes.contains n) = [] := by
    rw [List.filter_eq_nil_iff]
    intro n hn
    simpa using h.2 n hn
  rw [subtract, hne, if_neg Bool.false_ne_true, hnil]
  simp [Returns]

/-- What is asked for is returned, unless no include is left. -/
theorem returns_subtract_of_not_emptied (h : ¬ Emptied includes excludes) :
    (subtract includes excludes).Returns field ↔
      (includes = [] ∨ field ∈ includes) ∧ field ∉ excludes := by
  unfold subtract
  split
  · rename_i hnil
    rw [List.isEmpty_iff] at hnil
    simp [Returns, hnil]
  · rename_i hne
    rw [List.isEmpty_iff] at hne
    obtain ⟨n, hn, hno⟩ := (not_emptied_iff.1 h).resolve_left hne
    have hleft : includes.filter (fun n => !excludes.contains n) ≠ [] :=
      List.ne_nil_of_mem (List.mem_filter.2 ⟨hn, by simpa using hno⟩)
    rw [Returns, or_iff_right hleft, or_iff_right hne]
    simp only [List.mem_filter, Bool.not_eq_true', List.contains_eq_mem, decide_eq_false_iff_not]
    constructor
    · rintro ⟨⟨hin, hout⟩, -⟩
      exact ⟨hin, hout⟩
    · rintro ⟨hin, hout⟩
      exact ⟨⟨hin, hout⟩, fun hex => hout hex.1⟩

theorem ofRequest_eq_ok {schema : Snapshot} {defaults out : Projection}
    (h : ofRequest schema defaults includes excludes = .ok out) :
    ∃ ins exs, (∀ f, f ∈ ins ↔ f ∈ named defaults.includes includes) ∧
      (∀ f, f ∈ exs ↔ f ∈ named defaults.excludes excludes) ∧ out = subtract ins exs := by
  simp only [ofRequest, bind_eq_ok, pure_eq_ok] at h
  obtain ⟨ins, hins, exs, hexs, rfl⟩ := h
  exact ⟨ins, exs, fun _ => mem_of_chosen hins, fun _ => mem_of_chosen hexs, rfl⟩

/-- Lists of the same names are empty or not alike. -/
theorem eq_nil_congr {as bs : List String} (h : ∀ f, f ∈ as ↔ f ∈ bs) : as = [] ↔ bs = [] := by
  simp only [List.eq_nil_iff_forall_not_mem, h]

theorem emptied_congr {ins exs : List String} (hins : ∀ f, f ∈ ins ↔ f ∈ includes)
    (hexs : ∀ f, f ∈ exs ↔ f ∈ excludes) : Emptied ins exs ↔ Emptied includes excludes := by
  simp only [Emptied, ne_eq, eq_nil_congr hins, hins, hexs]

/-- **What a request returns.** The returned fields are those that are asked for, included (or
nothing is) and not excluded, if and only if the request does not exclude everything that it
includes. If it does, every field is returned that it does not exclude, and every one that it
includes. -/
theorem returns_project_iff {c : ProjectionCache} {schema : Snapshot} {settings : Settings}
    {out : Projection} (h : (c.project schema settings includes excludes).1 = .ok out) :
    let defaults := (c.lookup schema settings).1
    let ins := named defaults.includes includes
    let exs := named defaults.excludes excludes
    ((∀ f, out.Returns f ↔ (ins = [] ∨ f ∈ ins) ∧ f ∉ exs) ↔ ¬ Emptied ins exs) ∧
      (Emptied ins exs → ∀ f, out.Returns f ↔ (f ∈ exs → f ∈ ins)) := by
  intro defaults ins exs
  have hof : ofRequest schema defaults includes excludes = .ok out := h
  obtain ⟨is, es, his, hes, rfl⟩ := ofRequest_eq_ok hof
  have hemptied : Emptied is es ↔ Emptied ins exs := emptied_congr his hes
  have hall : Emptied ins exs → ∀ f, (subtract is es).Returns f ↔ (f ∈ exs → f ∈ ins) := by
    intro he f
    rw [returns_subtract_of_emptied (hemptied.2 he), his, hes]
  refine ⟨⟨fun hlaw he => ?_, fun hne f => ?_⟩, hall⟩
  · -- A name that is included and excluded is returned, and should not be.
    obtain ⟨n, hn⟩ := List.exists_mem_of_ne_nil _ he.1
    exact ((hlaw n).1 ((hall he n).2 fun _ => hn)).2 (he.2 n hn)
  · rw [returns_subtract_of_not_emptied (mt hemptied.1 hne), eq_nil_congr his, his, hes]

/-- An index with one field. -/
def oneField : Snapshot := .ofMapping "listings" (Mapping.empty.field "id" (.leaf .keyword)) 1

/-- Two included fields, one of them excluded, and a name with blanks around it. -/
theorem returns_project_iff_oneField :
    (ProjectionCache.empty.project oneField .standard [" id ", "_id"] ["_id"]).1 =
      .ok ⟨["id"], []⟩ ∧
    ((∀ f, (⟨["id"], []⟩ : Projection).Returns f ↔
      (named [] [" id ", "_id"] = [] ∨ f ∈ named [] [" id ", "_id"]) ∧ f ∉ named [] ["_id"]) ↔
        ¬ Emptied (named [] [" id ", "_id"]) (named [] ["_id"])) := by
  have hok : (ProjectionCache.empty.project oneField .standard [" id ", "_id"] ["_id"]).1 =
      .ok ⟨["id"], []⟩ := rfl
  exact ⟨hok, (returns_project_iff hok).1⟩

/-- **A request that includes one field and excludes it is answered with that field.** -/
theorem returns_excluded :
    ¬ ∀ (c : ProjectionCache) (schema : Snapshot) (settings : Settings)
        (includes excludes : List String) (out : Projection),
      (c.project schema settings includes excludes).1 = .ok out →
        ∀ f, out.Returns f ↔
          (named (c.lookup schema settings).1.includes includes = [] ∨
            f ∈ named (c.lookup schema settings).1.includes includes) ∧
          f ∉ named (c.lookup schema settings).1.excludes excludes := by
  intro hall
  have hok : (ProjectionCache.empty.project oneField .standard ["id"] ["id"]).1 = .ok ⟨[], []⟩ :=
    rfl
  have hreturned : (⟨[], []⟩ : Projection).Returns "id" := ⟨.inl rfl, by simp⟩
  have hexcluded : "id" ∈ named (ProjectionCache.empty.lookup oneField .standard).1.excludes
      ["id"] := by decide +kernel
  exact ((hall _ _ _ _ _ _ hok "id").1 hreturned).2 hexcluded

end Projection
end SearchDsl
