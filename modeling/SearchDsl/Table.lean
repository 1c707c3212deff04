/-!
# Tables

Entries in key order, each key once: the members of a JSON object, the fields of a mapping, the
settings and the snapshots of the indices. A table is a list of entries that `Table.set` and
`Table.erase` build up.

A lookup sees the last change of its key and nothing of the others (`lookup_set`, `lookup_erase`);
the order of the keys makes tables with the same lookups equal. In the table of a list of entries a
lookup sees the last entry of its key (`lookup_ofList`), and if no key stands twice, the table has
just these entries (`perm_ofList`).

The keys of a table increase (`isOrdered_set`, `isOrdered_ofList`), and entries of increasing keys
are their own table (`IsOrdered.ofList_eq`).
-/

namespace SearchDsl.Table

/-- The entries with the key's entry put in its place, instead of the one that may be there. -/
def set (key : String) (value : α) : List (String × α) → List (String × α)
  | [] => [(key, value)]
  | (k, v) :: rest =>
    if key < k then (key, value) :: (k, v) :: rest
    else if key = k then (key, value) :: rest
    else (k, v) :: set key value rest

/-- The entries without the key's entry. -/
def erase (key : String) (entries : List (String × α)) : List (String × α) :=
  entries.filter fun e => e.1 != key

/-- The table of the entries; of two with one key the later one counts. -/
def ofList (entries : List (String × α)) : List (String × α) :=
  entries.foldl (fun table e => set e.1 e.2 table) []

theorem lookup_cons (k k' : String) (v : α) (rest : List (String × α)) :
    ((k', v) :: rest).lookup k = if k = k' then some v else rest.lookup k := by
  by_cases h : k = k'
  · simp [h]
  · have hb : (k == k') = false := by simpa using h
    simp only [List.lookup_cons, hb, if_neg h]

theorem mem_of_lookup {key : String} {value : α} {entries : List (String × α)}
    (h : entries.lookup key = some value) : (key, value) ∈ entries := by
  obtain ⟨before, after, rfl, -⟩ := List.lookup_eq_some_iff.1 h
  exact List.mem_append_right _ List.mem_cons_self

theorem lookup_set (key k : String) (value : α) (entries : List (String × α)) :
    (set key value entries).lookup k = if k = key then some value else entries.lookup k := by
  induction entries with
  | nil => exact lookup_cons k key value []
  | cons e rest ih =>
    obtain ⟨k', v⟩ := e
    unfold set
    split
    · rw [lookup_cons]
    · split
      · rename_i h
        rw [lookup_cons, lookup_cons]
        by_cases hk : k = key
        · rw [if_pos hk, if_pos hk]
        · rw [if_neg hk, if_neg hk, if_neg (h ▸ hk)]
      · rename_i h
        rw [lookup_cons, lookup_cons, ih]
        by_cases hk : k = k'
        · rw [if_pos hk, if_neg fun e => h (e.symm.trans hk), if_pos hk]
        · rw [if_neg hk, if_neg hk]

theorem lookup_ofList (entries : List (String × α)) (k : String) :
    (ofList entries).lookup k = entries.reverse.lookup k := by
  rw [ofList, ← List.foldr_reverse]
  induction entries.reverse with
  | nil => rfl
  | cons e rest ih => rw [List.foldr_cons, lookup_set, ih, ← lookup_cons]

theorem lookup_erase (key k : String) (entries : List (String × α)) :
    (erase key entries).lookup k = if k = key then none else entries.lookup k := by
  induction entries with
  | nil => simp [erase]
  | cons e rest ih =>
    obtain ⟨k', v⟩ := e
    unfold erase at ih ⊢
    rw [lookup_cons]
    by_cases hk : k' = key
    · rw [List.filter_cons_of_neg (by simp [hk]), ih, hk]
      by_cases h : k = key
      · rw [if_pos h, if_pos h]
      · rw [if_neg h, if_neg h, if_neg h]
    · rw [List.filter_cons_of_pos (by simpa using hk), lookup_cons, ih]
      by_cases h : k = k'
      · rw [if_pos h, if_neg fun e => hk (h.symm.trans e), if_pos h]
      · rw [if_neg h, if_neg h]

/-! ### Distinct keys -/

/-- An entry with a new key is only added. -/
theorem perm_set {key : String} {value : α} {entries : List (String × α)}
    (h : ∀ e ∈ entries, e.1 ≠ key) : (set key value entries).Perm ((key, value) :: entries) := by
  induction entries with
  | nil => exact .rfl
  | cons d rest ih =>
    obtain ⟨k, v⟩ := d
    obtain ⟨hne, hrest⟩ := List.forall_mem_cons.1 h
    unfold set
    split
    · exact .rfl
    · rw [if_neg fun e => hne e.symm]
      exact ((ih hrest).cons (k, v)).trans (.swap ..)

theorem foldl_set_perm {entries rest : List (String × α)}
    (h : ((entries ++ rest).map Prod.fst).Nodup) :
    (rest.foldl (fun table e => set e.1 e.2 table) entries).Perm (entries ++ rest) := by
  induction rest generalizing entries with
  | nil => rw [List.foldl_nil, List.append_nil]
  | cons e rest ih =>
    have hmiddle : (entries ++ e :: rest).Perm (e :: (entries ++ rest)) := List.perm_middle
    have hfront := (hmiddle.map Prod.fst).nodup h
    have hnew : ∀ d ∈ entries, d.1 ≠ e.1 := by
      intro d hd heq
      rw [List.map_cons, List.nodup_cons] at hfront
      exact hfront.1 (heq ▸ List.mem_map_of_mem (List.mem_append_left _ hd))
    have hset : (set e.1 e.2 entries ++ rest).Perm (e :: (entries ++ rest)) :=
      (perm_set hnew).append_right rest
    exact (ih ((hset.map Prod.fst).nodup_iff.2 hfront)).trans (hset.trans hmiddle.symm)

/-- **The table of entries with distinct keys has just these entries.** -/
theorem perm_ofList {entries : List (String × α)} (h : (entries.map Prod.fst).Nodup) :
    (ofList entries).Perm entries := by
  have hempty : (([] ++ entries).map Prod.fst).Nodup := h
  exact foldl_set_perm hempty

/-! ### Increasing keys -/

/-- The keys increase, so none stands twice. -/
def IsOrdered (entries : List (String × α)) : Prop := entries.Pairwise fun d e => d.1 < e.1

variable {key : String} {value : α} {entries rest : List (String × α)}

theorem isOrdered_cons :
    IsOrdered ((key, value) :: rest) ↔ (∀ e ∈ rest, key < e.1) ∧ IsOrdered rest :=
  List.pairwise_cons

/-- The key of an entry that was put in is the new one or one from before. -/
theorem mem_set {e : String × α} (h : e ∈ set key value entries) :
    e = (key, value) ∨ e ∈ entries := by
  induction entries with
  | nil => exact .inl (List.mem_singleton.1 h)
  | cons d rest ih =>
    obtain ⟨k, v⟩ := d
    unfold set at h
    split at h
    · simpa using h
    · split at h
      · rcases List.mem_cons.1 h with h | h
        · exact .inl h
        · exact .inr (List.mem_cons_of_mem _ h)
      · rcases List.mem_cons.1 h with h | h
        · exact .inr (h ▸ List.mem_cons_self)
        · exact (ih h).imp_right (List.mem_cons_of_mem _)

theorem isOrdered_set (h : IsOrdered entries) : IsOrdered (set key value entries) := by
  induction entries with
  | nil => exact List.pairwise_singleton ..
  | cons d rest ih =>
    obtain ⟨k, v⟩ := d
    obtain ⟨hfirst, hrest⟩ := isOrdered_cons.1 h
    unfold set
    split
    · rename_i hlt
      refine isOrdered_cons.2 ⟨List.forall_mem_cons.2 ⟨hlt, fun e he => ?_⟩, h⟩
      exact String.lt_trans hlt (hfirst e he)
    · rename_i hnot
      split
      · rename_i heq
        exact isOrdered_cons.2 ⟨fun e he => heq ▸ hfirst e he, hrest⟩
      · rename_i hne
        have hlt : k < key := Std.lt_of_le_of_ne (Std.not_lt.1 hnot) (Ne.symm hne)
        refine isOrdered_cons.2 ⟨fun e he => ?_, ih hrest⟩
        rcases mem_set he with rfl | he
        · exact hlt
        · exact hfirst e he

theorem isOrdered_ofList (entries : List (String × α)) : IsOrdered (ofList entries) := by
  rw [ofList, ← List.foldr_reverse]
  induction entries.reverse with
  | nil => exact List.Pairwise.nil
  | cons e rest ih => exact isOrdered_set ih

/-- A key in front of all others is put in front. -/
theorem set_of_lt (h : ∀ e ∈ entries, key < e.1) :
    set key value entries = (key, value) :: entries := by
  cases entries with
  | nil => rfl
  | cons d rest => rw [set, if_pos (h d List.mem_cons_self)]

/-- A key behind all others is put behind. -/
theorem set_of_gt (h : ∀ e ∈ entries, e.1 < key) :
    set key value entries = entries ++ [(key, value)] := by
  induction entries with
  | nil => rfl
  | cons d rest ih =>
    obtain ⟨k, v⟩ := d
    obtain ⟨hlt, hrest⟩ := List.forall_mem_cons.1 h
    have hne : key ≠ k := by
      rintro rfl
      exact String.lt_irrefl _ hlt
    rw [set, if_neg (String.lt_asymm hlt), if_neg hne, ih hrest, List.cons_append]

/-- Entries of increasing keys behind those of a table are added at its end. -/
theorem foldl_set (h : IsOrdered (entries ++ rest)) :
    rest.foldl (fun table e => set e.1 e.2 table) entries = entries ++ rest := by
  induction rest generalizing entries with
  | nil => rw [List.foldl_nil, List.append_nil]
  | cons e rest ih =>
    have hlt : ∀ d ∈ entries, d.1 < e.1 :=
      fun d hd => (List.pairwise_append.1 h).2.2 d hd e List.mem_cons_self
    have hmoved : IsOrdered ((entries ++ [e]) ++ rest) := by
      rwa [List.append_assoc]
    rw [List.foldl_cons, set_of_gt hlt]
    exact (ih hmoved).trans (List.append_assoc ..)

/-- **Entries of increasing keys are their own table.** -/
theorem IsOrdered.ofList_eq (h : IsOrdered entries) : ofList entries = entries := by
  have hempty : IsOrdered ([] ++ entries) := h
  exact foldl_set hempty

/-- A key that all others are behind is not among them. -/
theorem lookup_of_lt (h : ∀ e ∈ entries, key < e.1) : entries.lookup key = none := by
  induction entries with
  | nil => rfl
  | cons d rest ih =>
    obtain ⟨k, v⟩ := d
    obtain ⟨hlt, hrest⟩ := List.forall_mem_cons.1 h
    have hne : key ≠ k := by
      rintro rfl
      exact String.lt_irrefl _ hlt
    rw [lookup_cons, if_neg hne, ih hrest]

/-- No key stands twice. -/
theorem IsOrdered.length_filter_le (h : IsOrdered entries) (key : String) :
    (entries.filter (·.1 == key)).length ≤ 1 := by
  induction entries with
  | nil => exact Nat.zero_le 1
  | cons d rest ih =>
    obtain ⟨k, v⟩ := d
    obtain ⟨hfirst, hrest⟩ := isOrdered_cons.1 h
    rw [List.filter_cons]
    split
    · rename_i hk
      have hno : rest.filter (·.1 == key) = [] := by
        rw [List.filter_eq_nil_iff]
        intro e he heq
        have hsame : k = e.1 := (eq_of_beq hk).trans (eq_of_beq heq).symm
        exact String.lt_irrefl _ (hsame ▸ hfirst e he)
      simp [hno]
    · exact ih hrest

/-- Other values leave the keys as they are. -/
theorem IsOrdered.map {β : Type} (f : α → β) (h : IsOrdered entries) :
    IsOrdered (entries.map fun e => (e.1, f e.2)) :=
  List.pairwise_map.2 h

end SearchDsl.Table
