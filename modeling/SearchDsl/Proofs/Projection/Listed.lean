import Mathlib.Data.List.Nodup
import SearchDsl.Proofs.Projection.Returned

/-!
# The lists of a projection

A projection holds names that the mapping knows, each once and in the order of their first mention,
and no name is in both lists.

* `Projection.ofRequest_error`: a request is refused for the first name that it asks for and that is
  not known, includes before excludes;
* `Projection.ofRequest_ok`: otherwise its lists are made from the names that it asks for, or from
  the defaults;
* `Projection.Listed`, `Projection.listed_subtract`: what holds of these lists.
-/

namespace SearchDsl

theorem Snapshot.resolve_error {s : Snapshot} {name : String} {wild : Bool} {e : Error}
    (h : s.resolve name wild = .error e) : e = .unknownField name s.index := by
  unfold resolve at h
  split at h
  · split at h
    · cases h
    · exact (Except.error.inj h).symm
  · split at h
    · cases h
    · split at h
      · cases h
      · exact (Except.error.inj h).symm

namespace Projection

variable {s : Snapshot} {names source default requested includes excludes : List String}
  {defaults : Projection} {n : String}

theorem isKnown_iff : isKnown s n = true ↔ ∃ field, s.resolve n true = .ok field := by
  constructor
  · exact exists_eq_ok
  · rintro ⟨field, h⟩
    rw [isKnown, h]
    rfl

/-! ### Refusals -/

/-- The first of the names that the snapshot does not know. -/
def firstUnknown (s : Snapshot) (names : List String) : Option String :=
  names.find? fun n => !isKnown s n

theorem resolve_of_not_isKnown (h : isKnown s n = false) :
    s.resolve n true = .error (.unknownField n s.index) := by
  obtain ⟨e, he⟩ := exists_eq_error h
  rw [he, Snapshot.resolve_error he]

/-- Looking names up stops at the first one that is not known. -/
theorem forM_resolve (s : Snapshot) (names : List String) :
    (names.forM fun n => do let _ ← s.resolve n true) =
      match firstUnknown s names with
      | some n => .error (.unknownField n s.index)
      | none => .ok () := by
  induction names with
  | nil => rfl
  | cons n ns ih =>
    show ((s.resolve n true >>= fun _ => pure ()) >>= fun _ => ns.forM _) = _
    cases hn : isKnown s n with
    | false =>
      rw [resolve_of_not_isKnown hn, firstUnknown, List.find?_cons_of_pos (by simp [hn])]
      rfl
    | true =>
      obtain ⟨field, hfield⟩ := isKnown_iff.1 hn
      rw [hfield, firstUnknown, List.find?_cons_of_neg (by simp [hn]), ← firstUnknown, ← ih]
      rfl

theorem firstUnknown_cleaned (names : List String) :
    firstUnknown s (cleaned names) = firstUnknown s (asked names) :=
  find?_distinctOn_id _

theorem checked_error (h : firstUnknown s (asked names) = some n) :
    checked s names = .error (.unknownField n s.index) := by
  show ((cleaned names).forM _ >>= fun _ => pure (cleaned names)) = _
  rw [forM_resolve, firstUnknown_cleaned, h]
  rfl

theorem checked_ok (h : firstUnknown s (asked names) = none) :
    checked s names = .ok (cleaned names) := by
  show ((cleaned names).forM _ >>= fun _ => pure (cleaned names)) = _
  rw [forM_resolve, firstUnknown_cleaned, h]
  rfl

/-- Names that are asked for are looked up. -/
theorem chosen_error (h : firstUnknown s (asked requested) = some n) :
    chosen s default requested = .error (.unknownField n s.index) := by
  have hasked : asked requested ≠ [] := by
    intro hnil
    rw [hnil] at h
    cases h
  rw [chosen, if_pos (isRequested_iff.2 hasked), checked_error h]

/-- Whether names are asked for or not, each is chosen once. -/
theorem chosen_ok (h : firstUnknown s (asked requested) = none) (hdefault : default.Nodup) :
    chosen s default requested = .ok (distinctOn id (named default requested)) := by
  unfold chosen named
  by_cases hasked : asked requested = []
  · rw [if_neg (mt isRequested_iff.1 (not_not.2 hasked)), if_pos hasked,
      distinctOn_eq_self (by rwa [List.map_id])]
  · rw [if_pos (isRequested_iff.2 hasked), if_neg hasked, checked_ok h]
    rfl

/-- **A request is refused for the first name that is not known**, includes before excludes. -/
theorem ofRequest_error (hincludes : defaults.includes.Nodup)
    (h : firstUnknown s (asked includes ++ asked excludes) = some n) :
    ofRequest s defaults includes excludes = .error (.unknownField n s.index) := by
  rw [firstUnknown, List.find?_append, ← firstUnknown, ← firstUnknown] at h
  unfold ofRequest
  cases hi : firstUnknown s (asked includes) with
  | some m =>
    rw [hi] at h
    cases h
    rw [chosen_error hi]
    rfl
  | none =>
    rw [hi] at h
    rw [chosen_ok hi hincludes, chosen_error h]
    rfl

/-- **A request all of whose names are known** is answered with the names that it asks for, or with
the default ones. -/
theorem ofRequest_ok (hincludes : defaults.includes.Nodup) (hexcludes : defaults.excludes.Nodup)
    (h : firstUnknown s (asked includes ++ asked excludes) = none) :
    ofRequest s defaults includes excludes =
      .ok (subtract (distinctOn id (named defaults.includes includes))
        (distinctOn id (named defaults.excludes excludes))) := by
  rw [firstUnknown, List.find?_append, Option.or_eq_none_iff, ← firstUnknown, ← firstUnknown] at h
  unfold ofRequest
  rw [chosen_ok h.1 hincludes, chosen_ok h.2 hexcludes]
  rfl

/-! ### What the lists hold -/

/-- The names are taken from a list, each once and in the order of their first mention there, and
the snapshot knows them all. -/
structure Listed (s : Snapshot) (source names : List String) : Prop where
  known : ∀ n ∈ names, ∃ field, s.resolve n true = .ok field
  nodup : names.Nodup
  subset : names ⊆ source
  ordered : names.Pairwise fun m n => source.idxOf m < source.idxOf n

theorem Listed.sublist {less : List String} (h : Listed s source names) (hs : less.Sublist names) :
    Listed s source less where
  known n hn := h.known n (hs.mem hn)
  nodup := h.nodup.sublist hs
  subset _ hn := h.subset (hs.subset hn)
  ordered := h.ordered.sublist hs

theorem listed_distinctOn (h : ∀ n ∈ source, isKnown s n = true) :
    Listed s source (distinctOn id source) where
  known n hn := isKnown_iff.1 (h n (mem_of_mem_distinctOn hn))
  nodup := nodup_distinctOn_id source
  subset _ hn := mem_of_mem_distinctOn hn
  ordered := pairwise_idxOf_distinctOn source

theorem nodup_filter_cleaned (names : List String) :
    ((cleaned names).filter (isKnown s)).Nodup :=
  (nodup_distinctOn_id (asked names)).filter _

/-- The names that are used are known if the default ones are. -/
theorem isKnown_of_mem_named (hdefault : ∀ n ∈ default, isKnown s n = true)
    (h : firstUnknown s (asked requested) = none) : ∀ n ∈ named default requested,
      isKnown s n = true := by
  unfold named
  split
  · exact hdefault
  · intro n hn
    simpa using List.find?_eq_none.1 h n hn

/-- **No name is included and excluded**, and both lists keep what holds of them. -/
theorem listed_subtract {ins exs : List String} (hins : Listed s includes ins)
    (hexs : Listed s excludes exs) :
    Listed s includes (subtract ins exs).includes ∧ Listed s excludes (subtract ins exs).excludes ∧
      (subtract ins exs).includes.Disjoint (subtract ins exs).excludes := by
  unfold subtract
  split
  · exact ⟨hins.sublist (List.nil_sublist _), hexs, List.disjoint_nil_left _⟩
  · refine ⟨hins.sublist List.filter_sublist, hexs.sublist List.filter_sublist, ?_⟩
    intro n hin hex
    obtain ⟨-, hno⟩ := List.mem_filter.1 hin
    obtain ⟨hex, -⟩ := List.mem_filter.1 hex
    simp [hex] at hno

section Defaults

variable {settings : Settings}

/-- **A request is refused just if it asks for a name that is not known.** -/
theorem ofRequest_eq_error_iff {e : Error} :
    ofRequest s (Projection.defaults s settings) includes excludes = .error e ↔
      ∃ n, firstUnknown s (asked includes ++ asked excludes) = some n ∧
        e = .unknownField n s.index := by
  cases hunknown : firstUnknown s (asked includes ++ asked excludes) with
  | some n =>
    rw [ofRequest_error (nodup_filter_cleaned _) hunknown]
    simp [eq_comm]
  | none =>
    rw [ofRequest_ok (nodup_filter_cleaned _) (nodup_filter_cleaned _) hunknown]
    simp

/-- **The lists of a request**, on top of the defaults of an index. -/
theorem listed_ofRequest {out : Projection}
    (h : ofRequest s (Projection.defaults s settings) includes excludes = .ok out) :
    Listed s (named (Projection.defaults s settings).includes includes) out.includes ∧
      Listed s (named (Projection.defaults s settings).excludes excludes) out.excludes ∧
      out.includes.Disjoint out.excludes := by
  have hknown (names : List String) :
      ∀ n ∈ (cleaned names).filter (isKnown s), isKnown s n = true :=
    fun n hn => (List.mem_filter.1 hn).2
  cases hunknown : firstUnknown s (asked includes ++ asked excludes) with
  | some n =>
    rw [ofRequest_error (nodup_filter_cleaned _) hunknown] at h
    cases h
  | none =>
    rw [ofRequest_ok (nodup_filter_cleaned _) (nodup_filter_cleaned _) hunknown] at h
    rw [firstUnknown, List.find?_append, Option.or_eq_none_iff] at hunknown
    obtain ⟨hins, hexs⟩ := hunknown
    cases h
    exact listed_subtract (listed_distinctOn (isKnown_of_mem_named (hknown _) hins))
      (listed_distinctOn (isKnown_of_mem_named (hknown _) hexs))

end Defaults

end Projection
end SearchDsl
