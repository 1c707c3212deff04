import SearchDsl.Gateway
import SearchDsl.Proofs.Field.Name
import SearchDsl.Proofs.Sorting.InUse
import SearchDsl.Proofs.Sorting.Tiebreak

/-!
# Which sort a request gets

A requested sort is used as a whole or not at all, and the same goes for the default one.

* `SortClause.Chosen`: the clauses that a request gets before the tiebreak, and of which text they
  are;
* `SortClause.FirstDecide`: of several items on one field the first one written has its clause;
* `SortClause.firstDecide_of_ofText`: so it is in every text that is accepted, and no two clauses
  have one name;
* `SortClause.chosen_of_request`: what a request gets, and when that counts as a fallback.
-/

namespace SearchDsl

namespace SortClause

/-- The clauses for a requested text: its own, or else those of the default sort of the index, or
else none. -/
inductive Chosen (schema : Snapshot) (settings : Settings) (text : String) :
    List SortClause → Prop
  | requested {cs : List SortClause} :
      ofText schema settings text = .ok cs → Chosen schema settings text cs
  | default {e : Error} {cs : List SortClause} :
      ofText schema settings text = .error e → Text.isBlankText settings.defaultSort = false →
      ofText schema settings settings.defaultSort = .ok cs → Chosen schema settings text cs
  | none {e : Error} :
      ofText schema settings text = .error e →
      (Text.isBlankText settings.defaultSort = false →
        ∃ e', ofText schema settings settings.defaultSort = .error e') →
      Chosen schema settings text []

/-- Of the items on one field the first one has its clause, and the clauses are in the order in
which their fields are first mentioned. -/
structure FirstDecide (settings : Settings) (items : List SortItem) (cs : List SortClause) :
    Prop where
  names : cs.map fieldName = distinctOn id (items.map fun i => i.field.name)
  mem_iff : ∀ c, c ∈ cs ↔ ∃ before i after, items = before ++ i :: after ∧
    (∀ j ∈ before, j.field.name ≠ i.field.name) ∧ ofItem settings i = .ok c

theorem FirstDecide.nodup {settings : Settings} {items : List SortItem} {cs : List SortClause}
    (h : FirstDecide settings items cs) : (cs.map fieldName).Nodup := by
  rw [h.names, ← List.map_id (distinctOn id _)]
  exact nodup_map_distinctOn _

variable {schema : Snapshot} {settings : Settings} {text : String} {cs : List SortClause}

section Items

variable {fields : String → Except Error Field} {items : List SortItem}
  (hderives : ∀ i ∈ items, ∃ ts n, SortItem.Derives fields ts i n)
  (hcs : List.Forall₂ (fun i c => ofItem settings i = .ok c)
    (distinctOn (fun i => i.field.name) items) cs)

include hderives hcs

theorem firstDecide_of_distinct : FirstDecide settings items cs where
  names := by
    rw [← map_distinctOn]
    have hnames : List.Forall₂ (fun c i => c.fieldName = i.field.name) cs
        (distinctOn (fun i => i.field.name) items) := by
      have hall := (List.forall₂_and_left _ _).2
        ⟨fun i hi => hderives i (mem_of_mem_distinctOn hi), hcs⟩
      exact (hall.imp fun i c ⟨⟨ts, n, hd⟩, hc⟩ => fieldName_ofItem hd hc).flip
    rw [← List.forall₂_eq_eq_eq, List.forall₂_map_left_iff, List.forall₂_map_right_iff]
    exact hnames
  mem_iff c := by
    constructor
    · intro hc
      obtain ⟨i, hi, hic⟩ := exists_mem_of_forall₂ hcs c hc
      obtain ⟨before, after, heq, hbefore⟩ := mem_distinctOn_iff.1 hi
      exact ⟨before, i, after, heq, hbefore, hic⟩
    · rintro ⟨before, i, after, heq, hbefore, hic⟩
      have hi := mem_distinctOn_iff.2 ⟨before, after, heq, hbefore⟩
      obtain ⟨c', hc', hic'⟩ := exists_mem_of_forall₂ hcs.flip i hi
      cases hic.symm.trans hic'
      exact hc'

end Items

/-- **Of several items on one field the first one written decides**, in every text that is accepted.
-/
theorem firstDecide_of_ofText (h : ofText schema settings text = .ok cs) :
    ∃ ts ps, Lexeme.Lexes text.toList ts ∧
      Sorting.Derives (Reading.resolve ⟨some schema, Expr.maxFragments⟩) ts ps ∧
      FirstDecide settings (ps.map Prod.fst) cs := by
  obtain ⟨s, hs, hcs⟩ := ofText_eq_ok_iff.1 h
  obtain ⟨ts, ps, hl, hps, -, rfl⟩ := Sorting.read_eq_ok_iff.1 (Sorting.ofText?_eq_some_iff.1 hs).2
  refine ⟨ts, ps, hl, hps, ?_⟩
  have hderives : ∀ i ∈ ps.map Prod.fst, ∃ ts n,
      SortItem.Derives (Reading.resolve ⟨some schema, Expr.maxFragments⟩) ts i n := by
    intro i hi
    obtain ⟨p, hp, rfl⟩ := List.mem_map.1 hi
    obtain ⟨us, hus⟩ := hps.exists_of_mem p hp
    exact ⟨us, p.2, hus⟩
  -- Items are told apart by the segments of their fields, which are those of the names.
  have hkeys : (Sorting.ofItems (ps.map Prod.fst)).items =
      distinctOn (fun i => i.field.name) (ps.map Prod.fst) := by
    refine distinctOn_congr fun i hi j hj => ?_
    obtain ⟨_, _, hd⟩ := hderives i hi
    obtain ⟨_, _, hd'⟩ := hderives j hj
    obtain ⟨_, hname⟩ := hd.exists_name
    obtain ⟨_, hname'⟩ := hd'.exists_name
    rw [Bool.eq_iff_iff, beq_iff_eq, beq_iff_eq]
    exact Reading.names_eq_iff_of_resolve hname hname'
  rw [hkeys] at hcs
  exact firstDecide_of_distinct hderives hcs

theorem Chosen.nodup (h : Chosen schema settings text cs) : (cs.map fieldName).Nodup := by
  have htext : ∀ {text : String} {cs : List SortClause}, ofText schema settings text = .ok cs →
      (cs.map fieldName).Nodup := by
    intro text cs h
    obtain ⟨_, _, -, -, hfirst⟩ := firstDecide_of_ofText h
    exact hfirst.nodup
  cases h with
  | requested h => exact htext h
  | default _ _ h => exact htext h
  | none _ _ => exact .nil

/-- The tiebreak does not repeat a name. -/
theorem nodup_withTiebreak (h : (cs.map fieldName).Nodup) :
    ((withTiebreak cs).map fieldName).Nodup := by
  unfold withTiebreak
  split
  · exact h
  · rename_i hno
    rw [List.map_append, List.nodup_append]
    refine ⟨h, List.nodup_singleton _, ?_⟩
    intro name hname _ htie heq
    obtain ⟨c, hc, rfl⟩ := List.mem_map.1 hname
    obtain rfl := List.mem_singleton.1 htie
    exact hno (List.any_eq_true.2 ⟨c, hc, beq_iff_eq.2 heq⟩)

/-- Unless sorting is disabled, a request gets the chosen clauses and the tiebreak. -/
theorem exists_chosen (requested : Option String) {disabled : Bool}
    (h : (disabled || settings.sortDisabled) = false) :
    ∃ cs, Chosen schema settings (requested.getD "") cs ∧
      ofRequest schema settings requested disabled =
        (withTiebreak cs, !(ofText schema settings (requested.getD "")).isOk) := by
  unfold ofRequest
  rw [if_neg (by simp [h])]
  cases htext : ofText schema settings (requested.getD "") with
  | ok cs => exact ⟨cs, .requested htext, rfl⟩
  | error e =>
    refine ⟨ofDefault schema settings, ?_, rfl⟩
    unfold ofDefault
    split
    · rename_i hblank
      exact .none htext fun hno => absurd hblank (by simp [hno])
    · rename_i hblank
      cases hdefault : ofText schema settings settings.defaultSort with
      | ok cs => exact .default htext (by simpa using hblank) hdefault
      | error e' => exact .none htext fun _ => ⟨e', hdefault⟩

/-- A request whose text cannot be used gets what a request without one gets. -/
theorem ofRequest_of_error {requested : Option String} {e : Error}
    (h : ofText schema settings (requested.getD "") = .error e) (disabled : Bool) :
    ofRequest schema settings requested disabled = ofRequest schema settings none disabled := by
  have hnone : ofText schema settings ((none : Option String).getD "") =
      .error (.badRequest .emptySort) := rfl
  unfold ofRequest
  rw [h, hnone]

/-- **What a request gets.** Where sorting is disabled there are no clauses and nothing is counted.
Otherwise there are the chosen clauses and the tiebreak unless one of them has its name; names do
not repeat; a text that cannot be used leaves nothing behind, and just then a fallback is counted.
In a text that is accepted the first item on a field decides. -/
theorem chosen_of_request (schema : Snapshot) (settings : Settings) (requested : Option String)
    (disabled : Bool) (counters : Counters) (result : Except Error Search) :
    let text := requested.getD ""
    let off := disabled = true ∨ settings.sortDisabled = true
    let rejected := ∃ e, ofText schema settings text = .error e
    let clauses := (ofRequest schema settings requested disabled).1
    let fellBack := (ofRequest schema settings requested disabled).2
    let fallbacks := (counters.afterRequest result fellBack).sortFallbacks
    (off → clauses = [] ∧ fallbacks = counters.sortFallbacks) ∧
    (¬ off →
      (∃ cs, Chosen schema settings text cs ∧
        ((∃ c ∈ cs, c.fieldName = Field.idName) ∧ clauses = cs ∨
          (∀ c ∈ cs, c.fieldName ≠ Field.idName) ∧ clauses = cs ++ [tiebreak])) ∧
      (clauses.map fieldName).Nodup ∧
      (rejected → clauses = (ofRequest schema settings none disabled).1 ∧
        fallbacks = counters.sortFallbacks + 1) ∧
      (¬ rejected → fallbacks = counters.sortFallbacks)) ∧
    ∀ text cs, ofText schema settings text = .ok cs →
      ∃ ts ps, Lexeme.Lexes text.toList ts ∧
        Sorting.Derives (Reading.resolve ⟨some schema, Expr.maxFragments⟩) ts ps ∧
        FirstDecide settings (ps.map Prod.fst) cs := by
  intro text off rejected clauses fellBack fallbacks
  have hfallbacks : fallbacks = counters.sortFallbacks + fellBack.toNat :=
    counters.sortFallbacks_afterRequest result fellBack
  refine ⟨fun hoff => ?_, fun hon => ?_, fun text cs h => firstDecide_of_ofText h⟩
  · have hnone : ofRequest schema settings requested disabled = ([], false) :=
      if_pos (by simpa [off] using hoff)
    have hclauses : clauses = [] := congrArg Prod.fst hnone
    have hfellBack : fellBack = false := congrArg Prod.snd hnone
    rw [hclauses, hfallbacks, hfellBack]
    exact ⟨rfl, rfl⟩
  · have hsorted : (disabled || settings.sortDisabled) = false := by simpa [off] using hon
    obtain ⟨cs, hchosen, heq⟩ : ∃ cs, Chosen schema settings text cs ∧
        ofRequest schema settings requested disabled =
          (withTiebreak cs, !(ofText schema settings text).isOk) := exists_chosen requested hsorted
    have hclauses : clauses = withTiebreak cs := congrArg Prod.fst heq
    have hfellBack : fellBack = !(ofText schema settings text).isOk := congrArg Prod.snd heq
    rw [hclauses, hfallbacks, hfellBack]
    refine ⟨⟨cs, hchosen, ?_⟩, nodup_withTiebreak hchosen.nodup, ?_, ?_⟩
    · by_cases hid : ∃ c ∈ cs, c.fieldName = Field.idName
      · obtain ⟨c, hc, hname⟩ := hid
        exact .inl ⟨⟨c, hc, hname⟩, withTiebreak_of_mem hc hname⟩
      · push Not at hid
        exact .inr ⟨hid, withTiebreak_of_forall hid⟩
    · rintro ⟨e, he⟩
      rw [← ofRequest_of_error he, he, heq]
      exact ⟨rfl, rfl⟩
    · intro haccepted
      cases htext : ofText schema settings text with
      | ok _ => rfl
      | error e => exact absurd ⟨e, htext⟩ haccepted

/-- A requested sort on a field that is not mapped, and a default one. -/
theorem chosen_of_request_default :
    let schema := Snapshot.ofMapping "listings" (Mapping.empty.field "id" (.leaf .keyword)) 1
    let settings := { Settings.standard with defaultSort := "id, id DESC" }
    let clauses := (ofRequest schema settings (some "id, missing") false).1
    let fellBack := (ofRequest schema settings (some "id, missing") false).2
    let result : Except Error Search := .error (.unknownIndex "other")
    ¬ (false = true ∨ settings.sortDisabled = true) ∧
      (∃ e, ofText schema settings "id, missing" = .error e) ∧
      (∃ cs, Chosen schema settings "id, missing" cs ∧
        ((∃ c ∈ cs, c.fieldName = Field.idName) ∧ clauses = cs ∨
          (∀ c ∈ cs, c.fieldName ≠ Field.idName) ∧ clauses = cs ++ [tiebreak])) ∧
      (clauses.map fieldName).Nodup ∧
      clauses = (ofRequest schema settings none false).1 ∧
      (Counters.zero.afterRequest result fellBack).sortFallbacks = 1 := by
  intro schema settings clauses fellBack result
  have hon : ¬ (false = true ∨ settings.sortDisabled = true) := by decide
  have hrejected : ∃ e, ofText schema settings "id, missing" = .error e :=
    exists_eq_error (by decide +kernel)
  obtain ⟨hchosen, hnodup, hrest, -⟩ :=
    (chosen_of_request schema settings (some "id, missing") false .zero result).2.1 hon
  exact ⟨hon, hrejected, hchosen, hnodup, hrest hrejected⟩

end SortClause
end SearchDsl
