/-!
# Distinct elements

Lists from which later elements with a key seen before have been dropped.
-/

namespace SearchDsl

/-- The elements with a new key each, in order of first mention. -/
def distinctOn [BEq κ] (key : α → κ) : List α → List α
  | [] => []
  | a :: as => a :: (distinctOn key as).filter fun b => !(key b == key a)

/-- Elements are only dropped. -/
theorem distinctOn_sublist [BEq κ] {key : α → κ} (as : List α) :
    (distinctOn key as).Sublist as := by
  induction as with
  | nil => exact .slnil
  | cons a as ih => exact (List.filter_sublist.trans ih).cons_cons a

theorem mem_of_mem_distinctOn [BEq κ] {key : α → κ} {as : List α} {a : α}
    (h : a ∈ distinctOn key as) : a ∈ as := (distinctOn_sublist as).mem h

/-- No two of the elements have the same key. -/
theorem nodup_map_distinctOn [BEq κ] [LawfulBEq κ] {key : α → κ} (as : List α) :
    ((distinctOn key as).map key).Nodup := by
  induction as with
  | nil => exact .nil
  | cons a as ih =>
    rw [distinctOn, List.map_cons, List.nodup_cons]
    refine ⟨?_, ih.sublist (List.filter_sublist.map key)⟩
    intro hmem
    obtain ⟨b, hb, hkey⟩ := List.mem_map.1 hmem
    simp [hkey] at hb

theorem nodup_distinctOn_id [BEq α] [LawfulBEq α] (as : List α) : (distinctOn id as).Nodup := by
  have h := @nodup_map_distinctOn _ _ _ _ id as
  rwa [List.map_id] at h

/-- Where no two elements have the same key, nothing is dropped. -/
theorem distinctOn_eq_self [BEq κ] [LawfulBEq κ] {key : α → κ} {as : List α}
    (h : (as.map key).Nodup) : distinctOn key as = as := by
  induction as with
  | nil => rfl
  | cons a as ih =>
    rw [List.map_cons, List.nodup_cons] at h
    obtain ⟨ha, has⟩ := h
    rw [distinctOn, ih has, List.filter_eq_self.2]
    intro b hb
    have hne : key b ≠ key a := fun e => ha (e ▸ List.mem_map_of_mem hb)
    simpa using hne

theorem distinctOn_map [BEq κ] {key : β → κ} (f : α → β) (as : List α) :
    distinctOn key (as.map f) = (distinctOn (fun a => key (f a)) as).map f := by
  induction as with
  | nil => rfl
  | cons a as ih =>
    rw [List.map_cons, distinctOn, distinctOn, List.map_cons, ih, List.filter_map]
    rfl

theorem map_distinctOn [BEq κ] {key : α → κ} (as : List α) :
    (distinctOn key as).map key = distinctOn id (as.map key) := by
  rw [distinctOn_map]
  rfl

/-- An element is kept if no earlier one has its key. -/
theorem mem_distinctOn_iff [BEq κ] [LawfulBEq κ] {key : α → κ} {as : List α} {a : α} :
    a ∈ distinctOn key as ↔
      ∃ before after, as = before ++ a :: after ∧ ∀ b ∈ before, key b ≠ key a := by
  induction as with
  | nil => simp [distinctOn]
  | cons b bs ih =>
    rw [distinctOn, List.mem_cons, List.mem_filter, ih]
    constructor
    · rintro (rfl | ⟨⟨before, after, rfl, hbefore⟩, hkey⟩)
      · exact ⟨[], bs, rfl, by simp⟩
      · have hne : key a ≠ key b := by simpa using hkey
        exact ⟨b :: before, after, rfl, List.forall_mem_cons.2 ⟨hne.symm, hbefore⟩⟩
    · rintro ⟨before, after, heq, hbefore⟩
      cases before with
      | nil => exact .inl (List.cons.inj heq).1.symm
      | cons c before =>
        obtain ⟨rfl, rfl⟩ := List.cons.inj heq
        obtain ⟨hne, hbefore⟩ := List.forall_mem_cons.1 hbefore
        exact .inr ⟨⟨before, after, rfl, hbefore⟩, by simpa using hne.symm⟩

/-- Keys that tell the same elements apart keep the same elements. -/
theorem distinctOn_congr [BEq κ] [BEq μ] {key : α → κ} {key' : α → μ} {as : List α}
    (h : ∀ a ∈ as, ∀ b ∈ as, (key a == key b) = (key' a == key' b)) :
    distinctOn key as = distinctOn key' as := by
  induction as with
  | nil => rfl
  | cons a as ih =>
    have hrest : distinctOn key as = distinctOn key' as :=
      ih fun b hb c hc => h b (List.mem_cons_of_mem _ hb) c (List.mem_cons_of_mem _ hc)
    rw [distinctOn, distinctOn, hrest]
    congr 1
    refine List.filter_congr fun b hb => ?_
    rw [h b (List.mem_cons_of_mem _ (mem_of_mem_distinctOn hb)) a List.mem_cons_self]

/-- A list has the elements that it has without repetitions. -/
theorem mem_distinctOn_id [BEq α] [LawfulBEq α] {as : List α} {a : α} :
    a ∈ distinctOn id as ↔ a ∈ as := by
  constructor
  · exact mem_of_mem_distinctOn
  · intro h
    induction as with
    | nil => exact h
    | cons b bs ih =>
      rw [distinctOn, List.mem_cons, List.mem_filter]
      cases hab : a == b with
      | true => exact .inl (eq_of_beq hab)
      | false =>
        have hne : a ≠ b := ne_of_beq_false hab
        exact .inr ⟨ih ((List.mem_cons.1 h).resolve_left hne), by simp [hne]⟩

/-- A further element with a new key comes last. -/
theorem distinctOn_concat_of_not_mem [BEq κ] [LawfulBEq κ] {key : α → κ} {as : List α} {a : α}
    (h : key a ∉ as.map key) : distinctOn key (as ++ [a]) = distinctOn key as ++ [a] := by
  induction as with
  | nil => rfl
  | cons b bs ih =>
    rw [List.map_cons, List.mem_cons, not_or] at h
    rw [List.cons_append, distinctOn, distinctOn, ih h.2, List.filter_append,
      List.filter_cons_of_pos (by simpa using h.1), List.filter_nil, List.cons_append]

/-- A further element is dropped if its key has been seen. -/
theorem distinctOn_concat_of_mem [BEq κ] [LawfulBEq κ] {key : α → κ} {as : List α} {a : α}
    (h : key a ∈ as.map key) : distinctOn key (as ++ [a]) = distinctOn key as := by
  induction as with
  | nil => cases h
  | cons b bs ih =>
    rw [List.cons_append, distinctOn, distinctOn]
    by_cases hmem : key a ∈ bs.map key
    · rw [ih hmem]
    · have hkey : key a = key b := (List.mem_cons.1 h).resolve_right hmem
      rw [distinctOn_concat_of_not_mem hmem, List.filter_append,
        List.filter_cons_of_neg (by simp [hkey]), List.filter_nil, List.append_nil]

/-- The first element with a property is never a repetition. -/
theorem find?_distinctOn_id [BEq α] [LawfulBEq α] {p : α → Bool} (as : List α) :
    (distinctOn id as).find? p = as.find? p := by
  induction as with
  | nil => rfl
  | cons a as ih =>
    rw [distinctOn, List.find?_cons, List.find?_cons]
    cases hp : p a with
    | true => rfl
    | false =>
      have hskip : (fun b => decide ((!(id b == id a)) = true ∧ p b = true)) = p := by
        funext b
        cases hb : b == a with
        | true => simp [eq_of_beq hb, hp]
        | false => simp [ne_of_beq_false hb]
      rw [List.find?_filter, hskip]
      exact ih

/-- The elements stay in the order of their first mention. -/
theorem pairwise_idxOf_distinctOn [BEq α] [LawfulBEq α] (as : List α) :
    (distinctOn id as).Pairwise fun a b => as.idxOf a < as.idxOf b := by
  induction as with
  | nil => exact .nil
  | cons a as ih =>
    have hindex {b : α} (hb : b ∈ (distinctOn id as).filter fun b => !(id b == id a)) :
        (a :: as).idxOf b = as.idxOf b + 1 := by
      have hne : b ≠ a := by simpa using (List.mem_filter.1 hb).2
      rw [List.idxOf_cons, beq_false_of_ne hne.symm]
      rfl
    rw [distinctOn, List.pairwise_cons]
    refine ⟨fun b hb => ?_, ?_⟩
    · rw [hindex hb, List.idxOf_cons_self]
      exact Nat.succ_pos _
    · refine (ih.sublist List.filter_sublist).imp_of_mem fun hb hc hlt => ?_
      rw [hindex hb, hindex hc]
      exact Nat.succ_lt_succ hlt

/-- Every key is kept. -/
theorem exists_mem_distinctOn [BEq κ] [LawfulBEq κ] {key : α → κ} {as : List α} {a : α}
    (h : a ∈ as) : ∃ b ∈ distinctOn key as, key b = key a := by
  have hkey : key a ∈ (distinctOn key as).map key := by
    rw [map_distinctOn]
    exact mem_distinctOn_id.2 (List.mem_map_of_mem h)
  exact List.mem_map.1 hkey

end SearchDsl
