import SearchDsl.Proofs.FreeText.Specs

/-!
# The groups of a free text

Fields are sorted into groups one after the other, each into the group of the nested documents that
it lies in. `FreeText.Partitions` is the invariant: the groups part the fields that have been sorted
in by their nested documents, and lose none of them.

* `Partitions.addTo`: what one more field does;
* `partitions_of_groups`: so the groups part the fields to search;
* `exists_groups_iff`: there are groups if each field can be searched.
-/

namespace SearchDsl.FreeText

/-- The groups part the specifications, each given with the nested documents of its field. Groups
come in order of first mention, and in each are the specifications of its nested documents in the
order of their mention, as often as they are mentioned. -/
structure Partitions (located : List (String × List String)) (gs : List Group) : Prop where
  scopes : gs.map Group.paths = distinctOn id (located.map Prod.snd)
  members : ∀ g ∈ gs, g.specs = (located.filter (·.2 = g.paths)).map Prod.fst
  perm : (gs.flatMap Group.specs).Perm (located.map Prod.fst)

variable {paths : List String} {spec : String} {gs : List Group}

/-! ### One more field -/

theorem map_paths_addTo :
    (addTo paths spec gs).map Group.paths =
      if paths ∈ gs.map Group.paths then gs.map Group.paths else gs.map Group.paths ++ [paths] := by
  induction gs with
  | nil => simp [addTo]
  | cons g gs ih =>
    unfold addTo
    split
    · rename_i h
      simp [h]
    · rename_i h
      rw [List.map_cons, ih, List.map_cons]
      have hne : paths ≠ g.paths := Ne.symm h
      simp only [List.mem_cons, hne, false_or]
      split <;> rfl

theorem perm_flatMap_addTo :
    ((addTo paths spec gs).flatMap Group.specs).Perm (gs.flatMap Group.specs ++ [spec]) := by
  induction gs with
  | nil => simp [addTo]
  | cons g gs ih =>
    unfold addTo
    split
    · simp only [List.flatMap_cons, List.append_assoc]
      exact List.perm_append_comm.append_left g.specs
    · simp only [List.flatMap_cons, List.append_assoc]
      exact ih.append_left g.specs

/-- A group of the new list is an old one of other nested documents, the old one of these with the
new field, or a new one. -/
theorem mem_addTo {g : Group} (hgs : (gs.map Group.paths).Nodup) (h : g ∈ addTo paths spec gs) :
    g ∈ gs ∧ g.paths ≠ paths ∨
      (∃ g₀ ∈ gs, g₀.paths = paths ∧ g = { g₀ with specs := g₀.specs ++ [spec] }) ∨
      paths ∉ gs.map Group.paths ∧ g = ⟨paths, [spec]⟩ := by
  induction gs with
  | nil =>
    rw [addTo, List.mem_singleton] at h
    exact .inr (.inr ⟨List.not_mem_nil, h⟩)
  | cons g₁ gs ih =>
    rw [List.map_cons, List.nodup_cons] at hgs
    obtain ⟨hnew, hgs⟩ := hgs
    unfold addTo at h
    split at h
    · rename_i heq
      rcases List.mem_cons.1 h with rfl | h
      · exact .inr (.inl ⟨g₁, List.mem_cons_self, heq, rfl⟩)
      · refine .inl ⟨List.mem_cons_of_mem _ h, fun hg => hnew ?_⟩
        rw [heq, ← hg]
        exact List.mem_map_of_mem h
    · rename_i hne
      rcases List.mem_cons.1 h with rfl | h
      · exact .inl ⟨List.mem_cons_self, hne⟩
      · rcases ih hgs h with ⟨hg, hpaths⟩ | ⟨g₀, hg₀, hpaths, heq⟩ | ⟨hpaths, heq⟩
        · exact .inl ⟨List.mem_cons_of_mem _ hg, hpaths⟩
        · exact .inr (.inl ⟨g₀, List.mem_cons_of_mem _ hg₀, hpaths, heq⟩)
        · exact .inr (.inr ⟨by simpa [Ne.symm hne] using hpaths, heq⟩)

namespace Partitions

variable {located more : List (String × List String)}

theorem nil : Partitions [] [] := ⟨rfl, nofun, .nil⟩

theorem nodup (h : Partitions located gs) : (gs.map Group.paths).Nodup :=
  h.scopes ▸ nodup_distinctOn_id _

theorem mem_scopes_iff (h : Partitions located gs) :
    paths ∈ gs.map Group.paths ↔ paths ∈ located.map Prod.snd := by
  rw [h.scopes]
  exact mem_distinctOn_id

/-- **One more field keeps the partition.** -/
theorem addTo (h : Partitions located gs) :
    Partitions (located ++ [(spec, paths)]) (addTo paths spec gs) where
  scopes := by
    rw [map_paths_addTo, List.map_append, h.scopes]
    split
    · rename_i hmem
      exact (distinctOn_concat_of_mem (by simpa using mem_distinctOn_id.1 hmem)).symm
    · rename_i hmem
      exact (distinctOn_concat_of_not_mem (by simpa [mem_distinctOn_id] using hmem)).symm
  members := by
    intro g hg
    rw [List.filter_append, List.map_append]
    rcases mem_addTo h.nodup hg with ⟨hg, hne⟩ | ⟨g₀, hg₀, heq, rfl⟩ | ⟨hnew, rfl⟩
    · simpa [Ne.symm hne] using h.members g hg
    · simpa [heq] using h.members g₀ hg₀
    · have hnone : located.filter (·.2 = paths) = [] := by
        rw [List.filter_eq_nil_iff]
        intro e he heq
        refine hnew (h.mem_scopes_iff.2 (List.mem_map.2 ⟨e, he, by simpa using heq⟩))
      simp [hnone]
  perm := by
    rw [List.map_append]
    exact perm_flatMap_addTo.trans (h.perm.append_right [spec])

/-- So do several ones. -/
theorem foldl (h : Partitions located gs) :
    Partitions (located ++ more) (more.foldl (fun gs e => FreeText.addTo e.2 e.1 gs) gs) := by
  induction more generalizing located gs with
  | nil => simpa using h
  | cons e more ih =>
    have hone : Partitions (located ++ [e]) (FreeText.addTo e.2 e.1 gs) := h.addTo
    simpa using ih hone

end Partitions

/-! ### All fields -/

section Located

variable {schema : Snapshot} {specs : List String}

/-- The specifications, each with the nested documents that its field lies in. -/
structure Located (schema : Snapshot) (specs : List String)
    (located : List (String × List String)) : Prop where
  specs : located.map Prod.fst = specs
  liesIn : ∀ e ∈ located, LiesIn schema e.1 e.2

/-- The sorting in of fields succeeds if each of them can be searched. -/
theorem foldlM_eq_ok_iff {gs' : List Group} :
    (specs.foldlM (fun gs spec => do pure (addTo (← pathsOf schema spec) spec gs)) gs :
        Except Error (List Group)) = .ok gs' ↔
      ∃ located, Located schema specs located ∧
        gs' = located.foldl (fun gs e => addTo e.2 e.1 gs) gs := by
  induction specs generalizing gs with
  | nil =>
    rw [List.foldlM_nil, pure_eq_ok]
    constructor
    · rintro rfl
      exact ⟨[], ⟨rfl, nofun⟩, rfl⟩
    · rintro ⟨located, hlocated, rfl⟩
      rw [List.map_eq_nil_iff.1 hlocated.specs]
      rfl
  | cons spec specs ih =>
    simp only [List.foldlM_cons, bind_eq_ok, pure_eq_ok, ih, pathsOf_eq_ok_iff]
    constructor
    · rintro ⟨_, ⟨paths, hpaths, rfl⟩, located, hlocated, rfl⟩
      refine ⟨(spec, paths) :: located, ⟨?_, List.forall_mem_cons.2 ⟨hpaths, hlocated.liesIn⟩⟩, rfl⟩
      rw [List.map_cons, hlocated.specs]
    · rintro ⟨located, ⟨hspecs, hliesIn⟩, rfl⟩
      obtain ⟨e, located, rfl, rfl, rfl⟩ := List.map_eq_cons_iff.1 hspecs
      obtain ⟨hfirst, hrest⟩ := List.forall_mem_cons.1 hliesIn
      exact ⟨_, ⟨e.2, hfirst, rfl⟩, located, ⟨rfl, hrest⟩, rfl⟩

/-- **The groups part the fields to search.** -/
theorem partitions_of_groups (h : groups schema specs = .ok gs) :
    ∃ located, Located schema specs located ∧ Partitions located gs := by
  obtain ⟨located, hlocated, rfl⟩ := foldlM_eq_ok_iff.1 h
  exact ⟨located, hlocated, Partitions.nil.foldl⟩

theorem exists_located (h : ∀ s ∈ specs, ∃ paths, LiesIn schema s paths) :
    ∃ located, Located schema specs located := by
  induction specs with
  | nil => exact ⟨[], rfl, nofun⟩
  | cons spec specs ih =>
    obtain ⟨⟨paths, hpaths⟩, hrest⟩ := List.forall_mem_cons.1 h
    obtain ⟨located, rfl, hliesIn⟩ := ih hrest
    exact ⟨(spec, paths) :: located, rfl, List.forall_mem_cons.2 ⟨hpaths, hliesIn⟩⟩

/-- **There are groups if each field can be searched.** -/
theorem exists_groups_iff :
    (∃ gs, groups schema specs = .ok gs) ↔ ∀ s ∈ specs, ∃ paths, LiesIn schema s paths := by
  constructor
  · rintro ⟨gs, h⟩ s hs
    obtain ⟨located, rfl, hliesIn⟩ := (foldlM_eq_ok_iff.1 h).imp fun _ => And.left
    obtain ⟨e, he, rfl⟩ := List.mem_map.1 hs
    exact ⟨e.2, hliesIn e he⟩
  · intro h
    obtain ⟨located, hlocated⟩ := exists_located h
    exact ⟨_, foldlM_eq_ok_iff.2 ⟨located, hlocated, rfl⟩⟩

end Located
end SearchDsl.FreeText
