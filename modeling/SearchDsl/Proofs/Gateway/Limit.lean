import Mathlib.Tactic.FinCases
import SearchDsl.Proofs.Expr.Canonical
import SearchDsl.Proofs.Gateway.Standing
import SearchDsl.Proofs.Search.Filters

/-!
# What the configured limit bounds

The limit of the configuration goes to the reader of the filter of a request. The reader of sorts
has `Expr.maxFragments` instead, so the filters of a sort can be larger than the configured limit
wherever that is less.

* `Run.Serves`: the filter and the sort that a gateway with the limit makes some search of;
* `Units.read_sizeText`: a sort with a filter of any size up to `Expr.maxFragments`;
* `Run.filters_of_reachable`: what the filters in a search keep to.
-/

namespace SearchDsl

/-! ### Wide filters -/

namespace Item

/-- A filter and as many more of it as the number says, joined by OR. -/
def alternatives (f : Filter) (k : Nat) : List Item :=
  .leaf none false f :: List.replicate k (.leaf (some .or) false f)

theorem sizes_alternatives (f : Filter) (k : Nat) : sizes (alternatives f k) = k + 1 := by
  have hmore : ∀ k, sizes (List.replicate k (.leaf (some .or) false f)) = k := by
    intro k
    induction k with
    | zero => rfl
    | succ k ih => rw [List.replicate_succ, sizes, ih, size, Nat.add_comm]
  rw [alternatives, sizes, hmore, size, Nat.add_comm]

/-- Alternatives are canonical if the filter is written as it is read. -/
theorem isCanonical_alternatives {fields : String → Except Error Field} {f : Filter}
    {ts : List Token} (hl : Lexeme.Lexes f.text.toList ts) (hd : Filter.Derives fields ts f)
    (k : Nat) : Expr.IsCanonical fields (alternatives f k) := by
  refine .intro rfl (.leaf hl hd) ?_ ?_ rfl
  · intro j hj
    rw [List.eq_of_mem_replicate hj]
    rfl
  · intro j hj
    rw [List.eq_of_mem_replicate hj]
    exact .leaf hl hd

end Item

namespace Units

/-- Units with a size and a kind. -/
def mapping : Mapping :=
  Mapping.empty.field "units" (((FieldMapping.leaf .nested).property "size" (.leaf .long)).property
    "kind" (.leaf .keyword))

/-- The mapping as it is published first. -/
def schema : Snapshot := .ofMapping "listings" mapping 1

/-- What the reader of sorts knows of the units. -/
abbrev fields : String → Except Error Field := Reading.resolve ⟨some schema, Expr.maxFragments⟩

def sizeField : Field := ⟨["units", "size"], some [.nested, .long], false⟩

def kindField : Field := ⟨["units", "kind"], some [.nested, .keyword], false⟩

theorem resolve_size : schema.resolve "units.size" false = .ok sizeField := rfl

theorem resolve_kind : schema.resolve "units.kind" false = .ok kindField := rfl

/-- The filter for one kind. -/
def kindFilter : Filter := ⟨kindField, .equal, .string "A"⟩

theorem exists_written_kindFilter :
    ∃ ts, Lexeme.Lexes kindFilter.text.toList ts ∧ Filter.Derives fields ts kindFilter := by
  have hd : Filter.Derives fields [.word "units.kind", .word "EQ", .string "A"] kindFilter :=
    .intro ⟨by decide, rfl⟩ resolve_kind (Token.operates_iff.2 rfl) (.of_writes (.string _)) rfl
  refine hd.exists_written (Field.keepNames_resolve _) ?_
  intro t ht
  fin_cases ht
  · rfl
  · rfl
  · trivial

/-- The item that sorts by the size of those units that some alternatives hold of. -/
def sizeItem (k : Nat) : SortItem :=
  ⟨sizeField, .ascending, .value, some ⟨Item.alternatives kindFilter k⟩⟩

/-- A text for the item. -/
def sizeText (k : Nat) : String :=
  "units.size sortFilter: " ++ " ".intercalate (Item.texts (Item.alternatives kindFilter k))

theorem toList_sizeText (k : Nat) : (sizeText k).toList =
    "units.size".toList ++ ' ' :: ("sortFilter".toList ++
      ':' :: ' ' :: (" ".intercalate (Item.texts (Item.alternatives kindFilter k))).toList) := by
  have hfront : "units.size sortFilter: ".toList =
      "units.size".toList ++ ' ' :: ("sortFilter".toList ++ [':', ' ']) := by decide
  unfold sizeText
  rw [String.toList_append, hfront]
  simp only [List.append_assoc, List.cons_append, List.nil_append]

/-- The tokens of the text, given those of the filter. -/
theorem lexes_front {body : List Char} {ts : List Token} (h : Lexeme.Lexes body ts) :
    Lexeme.Lexes ("units.size".toList ++ ' ' :: ("sortFilter".toList ++ ':' :: ' ' :: body))
      (.word "units.size" :: .word "sortFilter" :: .colon :: ts) := by
  have hsize : Lexeme.Lexes "units.size".toList [.word "units.size"] :=
    Lexeme.lexes_singleton rfl (by simp)
  have hword : Lexeme.Lexes "sortFilter".toList [.word "sortFilter"] :=
    Lexeme.lexes_singleton rfl (by simp)
  have hcolon : Lexeme.Lexes (':' :: ' ' :: body) (.colon :: ts) :=
    h.behindBlank.mark rfl (by simp)
  exact hsize.blank (hword.append hcolon (Lexeme.breaks_cons (by decide) _))

/-- **A filter of a sort can be as large as the default limit.** -/
theorem read_sizeText {k : Nat} (hk : k < Expr.maxFragments) :
    Sorting.read (some schema) (sizeText k) = .ok ⟨[sizeItem k]⟩ := by
  obtain ⟨us, hus, hkind⟩ := exists_written_kindFilter
  obtain ⟨ts, hts, hd⟩ := (Item.isCanonical_alternatives hus hkind k).exists_written
  rw [Item.sizes_alternatives] at hd
  have hsortable : sizeField.IsSortable := by
    rintro t ⟨⟩
    decide
  have hscoped : sizeField.IsScoped := fun _ => by decide
  have hitem : SortItem.Derives fields
      (.word "units.size" :: ([] ++ .word "sortFilter" :: .colon :: ts))
      (sizeItem k) (k + 1) :=
    .intro ⟨by decide, rfl⟩ resolve_size (.filtered rfl hsortable .absent rfl hd hscoped)
  have hsort : Sorting.Derives fields _ [(sizeItem k, k + 1)] := .one hitem
  refine Sorting.read_eq_ok_iff.2 ⟨_, _, ?_, hsort, ?_, ?_⟩
  · rw [toList_sizeText]
    exact lexes_front hts
  · simpa using Nat.succ_le_of_lt hk
  · simp [Sorting.ofItems, distinctOn]

theorem ofText?_sizeText {k : Nat} (hk : k < Expr.maxFragments) :
    Sorting.ofText? schema (sizeText k) = some ⟨[sizeItem k]⟩ := by
  refine Sorting.ofText?_eq_some_iff.2 ⟨?_, read_sizeText hk⟩
  rw [Text.isBlankText, toList_sizeText, List.all_append, Bool.and_eq_false_iff]
  exact .inl (by decide)

end Units

/-! ### The filters in searches -/

namespace Run

variable {r : Run}

/-- The search for a request in terms of the current snapshot of its index. -/
theorem Consistent.compile_direct (h : Consistent r) {request : Request} {s : Snapshot}
    (hget : r.gateway.mappings.get? request.index = some s) :
    (r.gateway.compile request).1 =
      Search.direct s (r.gateway.settings.get request.index) r.gateway.limit request := by
  have hlookup := congrArg Prod.fst (@ProjectionCache.lookup_of_cached _ _
    (r.gateway.settings.get request.index) _ (h.cached_current hget))
  rw [← Search.ofRequest_result hlookup]
  unfold Gateway.compile Registry.snapshot
  rw [hget]

/-- After some run of a gateway with the limit a request is compiled to a search that is made of the
filter and the sort. -/
def Serves (limit : Nat) (filter : Option Expr) (sort : Sorting) : Prop :=
  ∃ c r request search schema, c.maxFragments = limit ∧ Reachable c r ∧
    (r.gateway.compile request).1 = .ok search ∧
    r.gateway.mappings.get? request.index = some schema ∧
    Search.MadeOf schema (r.gateway.settings.get request.index) limit request filter sort search

/-- Whatever the limit is, a request for units gets the sort that it asks for. -/
theorem serves_units (limit : Nat) (text : String) :
    Serves limit none (Sorting.inUse Units.schema .standard (some text) false) := by
  let c : Config := { Config.standard with maxFragments := limit }
  let r := (start c).apply (.mappingChanged "listings" Units.mapping)
  let request := { Request.forIndex "listings" with sort := some text }
  have hr : Reachable c r := .step .start (.event _ _)
  have hget : r.gateway.mappings.get? request.index = some Units.schema := rfl
  have hcompile := (consistent_of_reachable hr).compile_direct hget
  obtain ⟨search, hsearch⟩ : ∃ search, Search.direct Units.schema
      (r.gateway.settings.get request.index) r.gateway.limit request = .ok search := ⟨_, rfl⟩
  obtain ⟨filter, hmade⟩ := Search.exists_madeOf hsearch
  have hnone : filter = none := by
    obtain ⟨_, _, hfilter, -⟩ := hmade.filtered
    cases hfilter with
    | absent => rfl
    | present htext => cases htext
  subst hnone
  exact ⟨c, r, request, search, Units.schema, rfl, hr, hcompile.trans hsearch, hget, hmade⟩

/-- **What the filters in a search keep to.** Every search that a gateway answers a request with is
made of one filter, which is no larger than the configured limit, and of one sort, the filters of
which are together no larger than `Expr.maxFragments`. So all of them keep to the configured limit
just if that is no less. -/
theorem filters_of_reachable (limit : Nat) :
    (∀ (c : Config) (r : Run) (request : Request) (search : Search),
      c.maxFragments = limit → Reachable c r → (r.gateway.compile request).1 = .ok search →
        ∃ schema filter sort, r.gateway.mappings.get? request.index = some schema ∧
          Search.MadeOf schema (r.gateway.settings.get request.index) limit request filter sort
            search ∧
          (∀ e, filter = some e → e.size ≤ limit) ∧
          (sort.filters.map Expr.size).sum ≤ Expr.maxFragments) ∧
    ((∀ filter sort, Serves limit filter sort →
      (∀ e, filter = some e → e.size ≤ limit) ∧ ∀ e ∈ sort.filters, e.size ≤ limit) ↔
        Expr.maxFragments ≤ limit) := by
  refine ⟨?_, ?_, ?_⟩
  · rintro c r request search rfl hr hok
    have hconsistent := consistent_of_reachable hr
    cases hget : r.gateway.mappings.get? request.index with
    | none =>
      unfold Gateway.compile Registry.snapshot at hok
      rw [hget] at hok
      cases hok
    | some schema =>
      rw [hconsistent.compile_direct hget, (standing_of_reachable hr).2] at hok
      obtain ⟨filter, hmade⟩ := Search.exists_madeOf hok
      exact ⟨schema, filter, _, rfl, hmade, hmade.size_le, hmade.sum_sizes_le⟩
  · intro hall
    by_contra hlt
    -- One more alternative than the limit still is within the default limit.
    have hwide := serves_units limit (Units.sizeText limit)
    have hsort : Sorting.inUse Units.schema .standard (some (Units.sizeText limit)) false =
        ⟨[Units.sizeItem limit]⟩ := by
      show ((Sorting.ofText? Units.schema (Units.sizeText limit)).or _).getD ⟨[]⟩ = _
      rw [Units.ofText?_sizeText (by omega)]
      rfl
    rw [hsort] at hwide
    have hle := (hall _ _ hwide).2 ⟨Item.alternatives Units.kindFilter limit⟩
      (List.mem_singleton_self _)
    have hsize := Item.sizes_alternatives Units.kindFilter limit
    simp only [Expr.size] at hle
    omega
  · rintro hle filter sort ⟨c, r, request, search, schema, -, -, -, -, hmade⟩
    refine ⟨hmade.size_le, fun e he => ?_⟩
    have hsum := hmade.sum_sizes_le
    have hone := List.le_sum_of_mem (List.mem_map_of_mem (f := Expr.size) he)
    omega

/-- A gateway with room for two fragments, and a request with a filter and a sort. -/
theorem filters_of_reachable_units :
    let c : Config := { Config.standard with maxFragments := 2 }
    let r := (start c).apply (.mappingChanged "listings" Units.mapping)
    let request := { Request.forIndex "listings" with
      filter := some "units.size > 3 OR units.kind EQ 'A'"
      sort := some "units.size sortFilter: units.kind IN ['A', 'B']" }
    Reachable c r ∧ ∃ search, (r.gateway.compile request).1 = .ok search ∧
      ∃ schema filter sort, r.gateway.mappings.get? request.index = some schema ∧
        Search.MadeOf schema (r.gateway.settings.get request.index) 2 request filter sort search ∧
        (∀ e, filter = some e → e.size ≤ 2) ∧
        (sort.filters.map Expr.size).sum ≤ Expr.maxFragments := by
  intro c r request
  have hr : Reachable c r := .step .start (.event _ _)
  have hok : (r.gateway.compile request).1.isOk = true := by decide +kernel
  refine ⟨hr, ?_⟩
  cases h : (r.gateway.compile request).1 with
  | error e =>
    rw [h] at hok
    cases hok
  | ok search => exact ⟨search, rfl, (filters_of_reachable 2).1 c r request search rfl hr h⟩

/-- **A filter beyond the configured limit**: three alternatives in a sort, where an expression may
have two fragments. -/
theorem sort_filter_beyond_limit :
    ¬ ∀ (limit : Nat) (filter : Option Expr) (sort : Sorting), Serves limit filter sort →
      (∀ e, filter = some e → e.size ≤ limit) ∧ ∀ e ∈ sort.filters, e.size ≤ limit := by
  intro hall
  let text :=
    "units.size ASC sortFilter: units.kind EQ 'A' OR units.kind EQ 'B' OR units.kind EQ 'C'"
  have hsizes : (Sorting.inUse Units.schema .standard (some text) false).filters.map Expr.size =
      [3] := by decide +kernel
  obtain ⟨e, es, he, hsize, -⟩ := List.map_eq_cons_iff.1 hsizes
  have hle := (hall 2 none _ (serves_units 2 text)).2 e (he ▸ List.mem_cons_self)
  omega

end Run
end SearchDsl
