import SearchDsl.Proofs.FreeText.Groups
import SearchDsl.Proofs.Gateway.Refusals

/-!
# The searches of a free text

Each group of fields is searched on its own, inside the nested documents that its fields lie in, and
it is enough if one of the searches finds something.

* `FreeText.query_eq_ok_iff`: the query for a text, from the groups of its fields;
* `FreeText.Searches.encloses`: with all fields in the same nested documents there is one search;
* `FreeText.searches_of_query`: what there is in the query of a request, and that a field that
  cannot be searched fails the whole request.
-/

namespace SearchDsl

/-- The query is the given one inside the nested documents of the paths, outermost first. -/
inductive Query.Encloses (inner : Query) : List String → Query → Prop
  | bare : Encloses inner [] inner
  | nested {path : String} {paths : List String} {q : Query} :
      Encloses inner paths q → Encloses inner (path :: paths) (.nested path q)

theorem Query.encloses_within (inner : Query) (paths : List String) :
    Encloses inner paths (within paths inner) := by
  induction paths with
  | nil => exact .bare
  | cons path paths ih => exact .nested ih

namespace FreeText

/-- A query alone stands for itself, several are the alternatives of one query. -/
inductive Combines : List Query → Query → Prop
  | alone (q : Query) : Combines [q] q
  | alternatives {qs : List Query} : 2 ≤ qs.length → Combines qs (.bool ⟨[], qs, [], [], none⟩)

theorem combines_combine {qs : List Query} (h : qs ≠ []) : Combines qs (combine qs) := by
  match qs, h with
  | [q], _ => exact .alone q
  | _ :: _ :: _, _ => exact .alternatives (by simp)

/-- The search for a text in the fields of a group, inside their nested documents. -/
def IsSearch (text : String) (operator : MatchOperator) (minimum : String) (g : Group)
    (q : Query) : Prop :=
  Query.Encloses (.primitive (.multiMatch text g.specs operator (some minimum))) g.paths q

/-- The groups part the fields, if there are any; otherwise one group without fields stands for all
fields of the document itself. -/
inductive Distributes : List (String × List String) → List Group → Prop
  | everywhere : Distributes [] [⟨[], []⟩]
  | groups {located : List (String × List String)} {gs : List Group} :
      located ≠ [] → Partitions located gs → Distributes located gs

theorem Partitions.distributes {located : List (String × List String)} {gs : List Group}
    (h : Partitions located gs) :
    Distributes located (if gs.isEmpty then [⟨[], []⟩] else gs) := by
  cases located with
  | nil =>
    have hgs : gs = [] := List.map_eq_nil_iff.1 h.scopes
    rw [hgs]
    exact .everywhere
  | cons e located =>
    have hmem : e.2 ∈ gs.map Group.paths := h.mem_scopes_iff.2 List.mem_cons_self
    have hgs : gs.isEmpty = false := by
      cases gs with
      | nil => cases hmem
      | cons g gs => rfl
    rw [hgs]
    exact .groups (List.cons_ne_nil _ _) h

/-- The query searches for the text in the fields of the specifications, each group of them inside
its nested documents. -/
def Searches (schema : Snapshot) (text : String) (operator : MatchOperator) (minimum : String)
    (specs : List String) (q : Query) : Prop :=
  ∃ located gs qs, Located schema specs located ∧ Distributes located gs ∧
    List.Forall₂ (IsSearch text operator minimum) gs qs ∧ Combines qs q

variable {schema : Snapshot} {settings : Settings} {request : Request} {text : String}

/-! ### One search -/

section Searches

variable {operator : MatchOperator} {minimum : String} {specs : List String} {q : Query}

/-- The query of one group is its search. -/
theorem isSearch_of_combines {g : Group} {qs : List Query}
    (hqs : List.Forall₂ (IsSearch text operator minimum) [g] qs) (hq : Combines qs q) :
    IsSearch text operator minimum g q := by
  obtain ⟨q', rest, hsearch, hrest, rfl⟩ := List.forall₂_cons_left_iff.1 hqs
  obtain rfl := List.forall₂_nil_left_iff.1 hrest
  cases hq with
  | alone => exact hsearch
  | alternatives hlen => exact absurd hlen (by simp)

/-- Without fields the text is searched in all fields of the document itself. -/
theorem Searches.eq_of_nil (h : Searches schema text operator minimum [] q) :
    q = .primitive (.multiMatch text [] operator (some minimum)) := by
  obtain ⟨located, gs, qs, hlocated, hgs, hqs, hq⟩ := h
  obtain rfl := List.map_eq_nil_iff.1 hlocated.specs
  cases hgs with
  | groups hne => exact absurd rfl hne
  | everywhere =>
    cases isSearch_of_combines hqs hq
    rfl

/-- Fields in the same nested documents are searched together, and nothing is put around that
search but these nested documents. -/
theorem Searches.encloses {paths : List String} (h : Searches schema text operator minimum specs q)
    (hne : specs ≠ []) (hin : ∀ s ∈ specs, LiesIn schema s paths) :
    Query.Encloses (.primitive (.multiMatch text specs operator (some minimum))) paths q := by
  obtain ⟨located, gs, qs, ⟨rfl, hliesIn⟩, hgs, hqs, hq⟩ := h
  have hpaths : ∀ e ∈ located, e.2 = paths := fun e he =>
    (hliesIn e he).unique (hin e.1 (List.mem_map_of_mem he))
  cases hgs with
  | everywhere => exact absurd rfl hne
  | groups hlocated hpart =>
    obtain ⟨e, he⟩ := List.exists_mem_of_ne_nil located hlocated
    have hscope : ∀ g ∈ gs, g.paths = paths := by
      intro g hg
      obtain ⟨e, he, heq⟩ := List.mem_map.1 (hpart.mem_scopes_iff.1 (List.mem_map_of_mem hg))
      rw [← heq, hpaths e he]
    have hgroup : paths ∈ gs.map Group.paths :=
      hpart.mem_scopes_iff.2 (List.mem_map.2 ⟨e, he, hpaths e he⟩)
    -- No two groups have the same nested documents, so there is one group.
    match gs with
    | [] => cases hgroup
    | g :: g' :: gs =>
      have hnodup := hpart.nodup
      simp [hscope g (by simp), hscope g' (by simp)] at hnodup
    | [g] =>
      have hg : g.paths = paths := hscope g (by simp)
      have hspecs : g.specs = located.map Prod.fst := by
        rw [hpart.members g (by simp), List.filter_eq_self.2 fun e he => by simp [hpaths e he, hg]]
      have hsearch := isSearch_of_combines hqs hq
      rwa [IsSearch, hg, hspecs] at hsearch

end Searches

/-! ### The query of a request -/

/-- The query for a text that is not blank. -/
theorem query_eq_ok_iff (h : Text.nonBlank request.text = some text) {q : Option Query} :
    query schema settings request = .ok q ↔
      ∃ gs, groups schema (specs settings request.fields) = .ok gs ∧
        q = some (combine ((if gs.isEmpty then [⟨[], []⟩] else gs).map
          (search (Text.trim text) (request.operator.getD .or)
            (request.minimumShouldMatch.getD settings.defaultMinimumShouldMatch)))) := by
  rw [query, h]
  simp only [bind_eq_ok, pure_eq_ok]
  exact exists_congr fun gs => and_congr_right fun _ => eq_comm

/-- **The fields of a free text are parted by their nested documents, and none is lost.** Searched
are the fields of the request or the default ones of the index. There is a query if each field can
be searched, and then it is made of one search for each group; a field that cannot be searched fails
the whole request. -/
theorem searches_of_query (htext : request.text = some text) (hwords : ¬ Text.Blanks text.toList) :
    ∃ words specs, Text.Trims text words ∧ Searched settings request.fields specs ∧
      ((∃ q, query schema settings request = .ok (some q)) ↔
        ∀ s ∈ specs, ∃ paths, LiesIn schema s paths) ∧
      (∀ q, query schema settings request = .ok (some q) →
        Searches schema words (request.operator.getD .or)
          (request.minimumShouldMatch.getD settings.defaultMinimumShouldMatch) specs q) ∧
      ∀ s ∈ specs, (∀ paths, ¬ LiesIn schema s paths) → ∀ limit cache,
        ∃ e, (Search.ofRequest schema settings limit cache request).result = .error e := by
  have h : Text.nonBlank request.text = some text := Text.nonBlank_eq_some_iff.2 ⟨htext, hwords⟩
  refine ⟨Text.trim text, specs settings request.fields, Text.trims_trim text, searched_iff.2 rfl,
    ?_, fun q hq => ?_, fun s hs hnone limit cache => ?_⟩
  · rw [← exists_groups_iff]
    simp only [query_eq_ok_iff h, Option.some.injEq]
    exact ⟨fun ⟨_, gs, hgs, _⟩ => ⟨gs, hgs⟩, fun ⟨gs, hgs⟩ => ⟨_, gs, hgs, rfl⟩⟩
  · obtain ⟨gs, hgs, heq⟩ := (query_eq_ok_iff h).1 hq
    cases heq
    obtain ⟨located, hlocated, hpart⟩ := partitions_of_groups hgs
    refine ⟨located, _, _, hlocated, hpart.distributes, ?_, combines_combine ?_⟩
    · rw [List.forall₂_map_right_iff, List.forall₂_same]
      exact fun g _ => Query.encloses_within _ _
    · cases gs <;> simp
  · cases hq : query schema settings request with
    | error e => exact ⟨e, Search.result_eq_error_iff.2 ⟨_, .text hq⟩⟩
    | ok q =>
      obtain ⟨gs, hgs, -⟩ := (query_eq_ok_iff h).1 hq
      obtain ⟨paths, hpaths⟩ := exists_groups_iff.1 ⟨gs, hgs⟩ s hs
      exact absurd hpaths (hnone paths)

/-- Boosts, a wildcard, a meta field and two depths of nested documents; the default fields of an
index; one group; no field at all; and a boost that is no positive number. -/
theorem searches_of_query_rooms :
    let rooms := (FieldMapping.leaf .nested).property "area" (.leaf .long)
    let kinds := (FieldMapping.leaf .nested).property "kind" (.leaf .keyword)
    let units := kinds.property "rooms" rooms
    let schema := Snapshot.ofMapping "listings" (Mapping.empty.field "units" units) 1
    let request := { Request.forIndex "listings" with text := some " sea view" }
    (∃ q, query schema .standard { request with
        fields := ["units.kind^2", " *", " ", "units.rooms.area", "_id^1e3"] } = .ok (some q) ∧
      Searches schema "sea view" .or "75%"
        ["units.kind^2", "*", "units.rooms.area", "_id^1e3"] q) ∧
    (∃ q, query schema { Settings.standard with queryDefaultFields := ["units.kind ", "_id"] }
        { request with fields := [" "] } = .ok (some q) ∧
      Searches schema "sea view" .or "75%" ["units.kind", "_id"] q) ∧
    (∃ q, query schema .standard { request with fields := ["units.kind", "units.kind^2"] } =
        .ok (some q) ∧
      Query.Encloses (.primitive (.multiMatch "sea view" ["units.kind", "units.kind^2"] .or
        (some "75%"))) ["units"] q) ∧
    query schema .standard request =
      .ok (some (.primitive (.multiMatch "sea view" [] .or (some "75%")))) ∧
    ∃ e, (Search.ofRequest schema .standard 4 .empty
      { request with fields := ["units.kind^0"] }).result = .error e := by
  intro rooms kinds units schema request
  have hwords : ¬ Text.Blanks " sea view".toList := by
    rw [← Text.isBlankText_iff]
    decide +kernel
  have hsearches : ∀ settings fields ss, specs settings fields = ss →
      (ss.all fun s => (pathsOf schema s).isOk) = true →
      settings.defaultMinimumShouldMatch = "75%" →
      ∃ q, query schema settings { request with fields := fields } = .ok (some q) ∧
        Searches schema "sea view" .or "75%" ss q := by
    intro settings fields ss hspecs hok hminimum
    obtain ⟨words, ss', htrims, hsearched, hiff, hsearches, -⟩ :=
      @searches_of_query schema settings { request with fields := fields } _ rfl hwords
    have htrim : words = "sea view" := (Text.trims_iff.1 htrims).trans (by decide +kernel)
    obtain rfl : ss' = ss := (searched_iff.1 hsearched).trans hspecs
    obtain ⟨q, hq⟩ := hiff.2 fun s hs =>
      (exists_eq_ok (List.all_eq_true.1 hok s hs)).imp fun _ => pathsOf_eq_ok_iff.1
    have h := hsearches q hq
    rw [htrim] at h
    exact ⟨q, hq, hminimum ▸ h⟩
  refine ⟨hsearches _ _ _ (by decide +kernel) (by decide +kernel) rfl,
    hsearches _ _ _ (by decide +kernel) (by decide +kernel) rfl, ?_, ?_, ?_⟩
  · obtain ⟨q, hq, h⟩ := hsearches .standard ["units.kind", "units.kind^2"]
      ["units.kind", "units.kind^2"] (by decide +kernel) (by decide +kernel) rfl
    have hin : ∀ s ∈ ["units.kind", "units.kind^2"],
        (pathsOf schema s).toOption = some ["units"] := by decide +kernel
    exact ⟨q, hq, h.encloses (List.cons_ne_nil _ _) fun s hs =>
      pathsOf_eq_ok_iff.1 (toOption_eq_some.1 (hin s hs))⟩
  · obtain ⟨q, hq, h⟩ := hsearches .standard [] [] (by decide +kernel) (by decide +kernel) rfl
    rw [← h.eq_of_nil]
    exact hq
  · obtain ⟨-, ss, -, hsearched, -, -, hfails⟩ := @searches_of_query schema .standard
      { request with fields := ["units.kind^0"] } _ rfl hwords
    have hzero : (pathsOf schema "units.kind^0").isOk = false := by decide +kernel
    have hspec : "units.kind^0" ∈ specs .standard ["units.kind^0"] := by decide +kernel
    refine hfails _ (searched_iff.1 hsearched ▸ hspec) (fun paths hpaths => ?_) 4 .empty
    rw [pathsOf_eq_ok_iff.2 hpaths] at hzero
    cases hzero

end FreeText
end SearchDsl
