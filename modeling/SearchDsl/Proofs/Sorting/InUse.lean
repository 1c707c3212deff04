import Mathlib.Algebra.Order.BigOperators.Group.List
import Mathlib.Algebra.Order.Group.Nat
import SearchDsl.Proofs.Query.Layout
import SearchDsl.Proofs.Sorting.Reading
import SearchDsl.Sorting.Clause

/-!
# The sort in use

A text that holds a sort always has clauses, one for each item, so the sort that decides what a
request gets can be told from the texts alone: the requested one if it can be read, or else the
default one of the index, or else the sort without items (`Sorting.inUse`).

* `Sorting.exists_derives_of_read`, `Sorting.sum_sizes_le_of_read`: the items of a sort that was
  read, and how large their filters are together;
* `SortClause.ofItem_eq_ok_iff`, `SortClause.exists_ofItem`: the clause of an item;
* `SortClause.exists_ofRequest`: a request gets the clauses of the sort in use, with the tiebreak.
-/

namespace SearchDsl

/-! ### Sorts that were read -/

namespace Sorting

variable {schema : Option Snapshot} {text : String} {s : Sorting}

section Derived

variable {fields : String → Except Error Field} {ps : List (SortItem × Nat)}

/-- The filters of the items. -/
def filters (s : Sorting) : List Expr := s.items.filterMap SortItem.filter

/-- Every part of every filter has been counted. -/
theorem sum_sizes_le (h : ∀ p ∈ ps, ∃ us, SortItem.Derives fields us p.1 p.2) :
    (((ps.map Prod.fst).filterMap SortItem.filter).map Expr.size).sum ≤ (ps.map Prod.snd).sum := by
  induction ps with
  | nil => exact Nat.le_refl 0
  | cons p ps ih =>
    obtain ⟨⟨us, hp⟩, hps⟩ := List.forall_mem_cons.1 h
    have hrest := ih hps
    rw [List.map_cons, List.map_cons, List.sum_cons]
    cases hfilter : p.1.filter with
    | none =>
      rw [List.filterMap_cons_none hfilter]
      omega
    | some e =>
      have hsize := hp.size_le hfilter
      rw [List.filterMap_cons_some hfilter, List.map_cons, List.sum_cons]
      omega

end Derived

/-- Every item of a sort that was read is written by some of the tokens. -/
theorem exists_derives_of_read (h : read schema text = .ok s) :
    ∀ i ∈ s.items, ∃ ts n,
      SortItem.Derives (Reading.resolve ⟨schema, Expr.maxFragments⟩) ts i n := by
  obtain ⟨ts, ps, -, hps, -, rfl⟩ := read_eq_ok_iff.1 h
  intro i hi
  obtain ⟨p, hp, rfl⟩ := List.mem_map.1 (mem_of_mem_distinctOn hi)
  obtain ⟨us, hus⟩ := hps.exists_of_mem p hp
  exact ⟨us, p.2, hus⟩

/-- The filters of a sort that was read are built. -/
theorem built_of_read (h : read schema text = .ok s) :
    ∀ i ∈ s.items, ∀ e ∈ i.filter, e.Built := by
  intro i hi e he
  obtain ⟨ts, n, hd⟩ := exists_derives_of_read h i hi
  exact hd.built he

/-- No two items of a sort that was read are on the same field. -/
theorem nodup_names_of_read (h : read schema text = .ok s) :
    (s.items.map fun i => i.field.names).Nodup := by
  obtain ⟨ts, ps, -, -, -, rfl⟩ := read_eq_ok_iff.1 h
  exact nodup_map_distinctOn _

/-- **The filters of a sort that was read are together no larger than one expression may be.** -/
theorem sum_sizes_le_of_read (h : read schema text = .ok s) :
    (s.filters.map Expr.size).sum ≤ Expr.maxFragments := by
  obtain ⟨ts, ps, -, hps, hle, rfl⟩ := read_eq_ok_iff.1 h
  -- Items on one field are only dropped.
  have hkept : (ofItems (ps.map Prod.fst)).filters.Sublist
      ((ps.map Prod.fst).filterMap SortItem.filter) := (distinctOn_sublist _).filterMap _
  have hsum := (hkept.map Expr.size).sum_le_sum fun _ _ => Nat.zero_le _
  exact hsum.trans ((sum_sizes_le hps.exists_of_mem).trans hle)

/-- The sort that a text holds, if it is not blank and can be read. -/
def ofText? (schema : Snapshot) (text : String) : Option Sorting :=
  if Text.isBlankText text then none else (read (some schema) text).toOption

/-- **The sort in use**: the requested one, or else the default one, or else no items at all. -/
def inUse (schema : Snapshot) (settings : Settings) (requested : Option String)
    (disabled : Bool) : Sorting :=
  if disabled || settings.sortDisabled then ⟨[]⟩
  else ((ofText? schema (requested.getD "")).or (ofText? schema settings.defaultSort)).getD ⟨[]⟩

theorem ofText?_eq_some_iff {schema : Snapshot} :
    ofText? schema text = some s ↔
      Text.isBlankText text = false ∧ read (some schema) text = .ok s := by
  unfold ofText?
  cases Text.isBlankText text with
  | true => simp
  | false => cases read (some schema) text <;> simp [Except.toOption]

/-- What holds of every sort that was read and of the one without items holds of the sort in use. -/
theorem inUse_induction {schema : Snapshot} {settings : Settings} {requested : Option String}
    {disabled : Bool} {P : Sorting → Prop} (hnil : P ⟨[]⟩)
    (hread : ∀ text s, read (some schema) text = .ok s → P s) :
    P (inUse schema settings requested disabled) := by
  unfold inUse
  split
  · exact hnil
  · cases h : (ofText? schema (requested.getD "")).or (ofText? schema settings.defaultSort) with
    | none => exact hnil
    | some s =>
      rcases Option.or_eq_some_iff.1 h with h | ⟨-, h⟩
      · exact hread _ s (ofText?_eq_some_iff.1 h).2
      · exact hread _ s (ofText?_eq_some_iff.1 h).2

end Sorting

/-! ### Clauses -/

/-- The clause for the item, with the query of its filter. -/
def SortItem.clause (i : SortItem) (filter : Option (Clauses Query)) : SortClause :=
  let scope := SortScope.ofPaths filter i.field.nestedPaths
  match i.key with
  | .score => .score
  | .value => .field i.field.name i.direction scope
  | .distance origin => .distance i.field.name origin i.direction scope

namespace SortClause

variable {settings : Settings} {i : SortItem} {c : SortClause}

theorem ofItem_eq_ok_iff :
    ofItem settings i = .ok c ↔
      (i.filter = none ∧ c = i.clause none) ∨
        ∃ e q, i.filter = some e ∧
          Query.ofExpr ⟨settings.nearDistance, i.field.nestedPaths⟩ e = .ok q ∧
          c = i.clause (some q) := by
  cases hfilter : i.filter with
  | none =>
    have hclause : ofItem settings i = .ok (i.clause none) := by
      unfold ofItem
      rw [hfilter]
      rfl
    rw [hclause]
    simp [eq_comm]
  | some e =>
    have hclause : ofItem settings i =
        (Query.ofExpr ⟨settings.nearDistance, i.field.nestedPaths⟩ e).map
          fun q => i.clause (some q) := by
      unfold ofItem
      rw [hfilter]
      dsimp only
      cases Query.ofExpr ⟨settings.nearDistance, i.field.nestedPaths⟩ e <;> rfl
    rw [hclause, map_eq_ok]
    simp [eq_comm]

theorem exists_eq_clause (hc : ofItem settings i = .ok c) : ∃ q, c = i.clause q := by
  rcases ofItem_eq_ok_iff.1 hc with ⟨-, hc⟩ | ⟨-, q, -, -, hc⟩
  · exact ⟨none, hc⟩
  · exact ⟨some q, hc⟩

/-- **Every item that was read has a clause.** -/
theorem exists_ofItem {fields : String → Except Error Field} {ts : List Token} {n : Nat}
    (h : SortItem.Derives fields ts i n) (settings : Settings) :
    ∃ c, ofItem settings i = .ok c := by
  cases hfilter : i.filter with
  | none => exact ⟨_, ofItem_eq_ok_iff.2 (.inl ⟨hfilter, rfl⟩)⟩
  | some e =>
    obtain ⟨q, hq, -⟩ := Query.exists_lays_ofExpr ⟨settings.nearDistance, i.field.nestedPaths⟩
      (h.built hfilter).isMade
    exact ⟨_, ofItem_eq_ok_iff.2 (.inr ⟨e, q, hfilter, hq, rfl⟩)⟩

/-- A clause sorts by the field of its item. -/
theorem fieldName_ofItem {fields : String → Except Error Field} {ts : List Token} {n : Nat}
    (h : SortItem.Derives fields ts i n) (hc : ofItem settings i = .ok c) :
    c.fieldName = i.field.name := by
  obtain ⟨q, rfl⟩ := exists_eq_clause hc
  unfold SortItem.clause
  cases hkey : i.key with
  | score =>
    have hnames : i.field.names = [Field.scoreName] := by
      simpa [Field.isScore] using h.isScore hkey
    rw [Field.name, hnames]
    rfl
  | value => rfl
  | distance origin => rfl

theorem ofText_eq_ok_iff {schema : Snapshot} {text : String} {cs : List SortClause} :
    ofText schema settings text = .ok cs ↔
      ∃ s, Sorting.ofText? schema text = some s ∧
        List.Forall₂ (fun i c => ofItem settings i = .ok c) s.items cs := by
  simp only [Sorting.ofText?_eq_some_iff, ofText]
  cases Text.isBlankText text with
  | true => simp
  | false => simp [mapM_eq_ok_iff]

/-- The clauses of a text belong to the items that were read from it, one to each. -/
theorem exists_read_of_ofText {schema : Snapshot} {text : String} {cs : List SortClause}
    (h : ofText schema settings text = .ok cs) :
    ∃ s, Sorting.read (some schema) text = .ok s ∧
      List.Forall₂ (fun i c =>
        (∃ ts n, SortItem.Derives (Reading.resolve ⟨some schema, Expr.maxFragments⟩) ts i n) ∧
          ofItem settings i = .ok c) s.items cs := by
  obtain ⟨s, hs, hcs⟩ := ofText_eq_ok_iff.1 h
  have hread := (Sorting.ofText?_eq_some_iff.1 hs).2
  exact ⟨s, hread,
    (List.forall₂_and_left _ _).2 ⟨Sorting.exists_derives_of_read hread, hcs⟩⟩

/-- A text has clauses just if it holds a sort. -/
theorem ofText_eq_error_iff {schema : Snapshot} {text : String} :
    (∃ e, ofText schema settings text = .error e) ↔ Sorting.ofText? schema text = none := by
  cases hsort : Sorting.ofText? schema text with
  | none =>
    refine iff_of_true ?_ rfl
    cases h : ofText schema settings text with
    | error e => exact ⟨e, rfl⟩
    | ok cs =>
      obtain ⟨s, hs, -⟩ := ofText_eq_ok_iff.1 h
      rw [hsort] at hs
      cases hs
  | some s =>
    refine iff_of_false ?_ (by simp)
    rintro ⟨e, he⟩
    have hread := (Sorting.ofText?_eq_some_iff.1 hsort).2
    obtain ⟨cs, hcs⟩ := exists_mapM_ok (f := ofItem settings) fun i hi =>
      let ⟨_, _, hd⟩ := Sorting.exists_derives_of_read hread i hi
      exists_ofItem hd settings
    rw [ofText_eq_ok_iff.2 ⟨s, hsort, mapM_eq_ok_iff.1 hcs⟩] at he
    cases he

/-- **A request gets the clauses of the sort in use**, with the tiebreak unless sorting is disabled.
-/
theorem exists_ofRequest (schema : Snapshot) (settings : Settings) (requested : Option String)
    (disabled : Bool) :
    ∃ cs, List.Forall₂ (fun i c => ofItem settings i = .ok c)
        (Sorting.inUse schema settings requested disabled).items cs ∧
      (ofRequest schema settings requested disabled).1 =
        if disabled || settings.sortDisabled then cs else withTiebreak cs := by
  unfold ofRequest Sorting.inUse
  split
  · exact ⟨[], .nil, rfl⟩
  · cases h : ofText schema settings (requested.getD "") with
    | ok cs =>
      obtain ⟨s, hs, hcs⟩ := ofText_eq_ok_iff.1 h
      refine ⟨cs, ?_, rfl⟩
      rwa [hs]
    | error e =>
      rw [ofText_eq_error_iff.1 ⟨e, h⟩, Option.none_or]
      -- A blank default sort counts like one that cannot be read.
      have hdefault : ofDefault schema settings =
          ((ofText schema settings settings.defaultSort).toOption).getD [] := by
        unfold ofDefault
        split
        · rename_i hblank
          rw [ofText, if_pos hblank]
          rfl
        · rfl
      refine ⟨ofDefault schema settings, ?_, rfl⟩
      rw [hdefault]
      cases h' : ofText schema settings settings.defaultSort with
      | ok cs =>
        obtain ⟨s, hs, hcs⟩ := ofText_eq_ok_iff.1 h'
        rwa [hs]
      | error e =>
        rw [ofText_eq_error_iff.1 ⟨e, h'⟩]
        exact .nil

end SortClause
end SearchDsl
