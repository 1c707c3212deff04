import Mathlib.Data.List.TakeWhile
import SearchDsl.FreeText
import SearchDsl.Proofs.Number.Order
import SearchDsl.Proofs.Outcome
import SearchDsl.Proofs.Text.Trim
import SearchDsl.Proofs.Token.Breaks

/-!
# The fields of a free text

A specification is the name of a field, with or without a boost behind the first `^`.

* `Boost.isPositive_iff`: a boost is accepted for its value;
* `FreeText.searched_iff`: the specifications that are searched, those of the request or the default
  ones of the index;
* `FreeText.splitBoost_eq_iff`: how a specification is taken apart;
* `FreeText.pathsOf_eq_ok_iff`: the specifications that can be searched, and the nested documents
  that their fields lie in.
-/

namespace SearchDsl

/-! ### Boosts -/

/-- The number is greater than zero. -/
def Boost.IsPositive : Boost → Prop
  | finite d => 0 < d.value
  | infinite negative => negative = false

theorem Boost.isPositive_iff {b : Boost} : b.isPositive = true ↔ b.IsPositive := by
  cases b with
  | infinite negative => simp [isPositive, IsPositive]
  | finite d =>
    rw [IsPositive, Double.value_eq_magnitude]
    cases hsign : d.negative with
    | false => simp [isPositive, hsign, Double.magnitude_pos_iff, Nat.pos_iff_ne_zero]
    | true => simpa [isPositive, hsign] using Double.magnitude_nonneg d.rank

namespace FreeText

/-! ### The specifications of a request -/

/-- The specifications among the fields of a request are those that are not blank, without the
blanks around them. -/
inductive Specified : List String → List String → Prop
  | nil : Specified [] []
  | blank {field : String} {fields specs : List String} :
      Text.Blanks field.toList → Specified fields specs → Specified (field :: fields) specs
  | field {field spec : String} {fields specs : List String} :
      ¬ Text.Blanks field.toList → Text.Trims field spec → Specified fields specs →
        Specified (field :: fields) (spec :: specs)

/-- The specifications to search are those of the request, and if it has none the default fields of
the index without the blanks around them. -/
inductive Searched (settings : Settings) (fields : List String) : List String → Prop
  | requested {specs : List String} :
      specs ≠ [] → Specified fields specs → Searched settings fields specs
  | byDefault {specs : List String} :
      Specified fields [] → List.Forall₂ Text.Trims settings.queryDefaultFields specs →
        Searched settings fields specs

theorem specified_iff {fields ss : List String} :
    Specified fields ss ↔ ss = (fields.filter fun f => !Text.isBlankText f).map Text.trim := by
  induction fields generalizing ss with
  | nil =>
    constructor
    · rintro ⟨⟩
      rfl
    · rintro rfl
      exact .nil
  | cons f fields ih =>
    by_cases hf : Text.isBlankText f = true
    · have hblank := Text.isBlankText_iff.1 hf
      rw [List.filter_cons_of_neg (by simp [hf]), ← ih]
      constructor
      · rintro (_ | ⟨-, h⟩ | ⟨hne, -, -⟩)
        · exact h
        · exact absurd hblank hne
      · exact .blank hblank
    · have hne : ¬ Text.Blanks f.toList := mt Text.isBlankText_iff.2 hf
      rw [List.filter_cons_of_pos (by simp [hf]), List.map_cons]
      constructor
      · rintro (_ | ⟨hblank, -⟩ | ⟨-, htrims, h⟩)
        · exact absurd hblank hne
        · rw [Text.trims_iff.1 htrims, ih.1 h]
      · rintro rfl
        exact .field hne (Text.trims_trim f) (ih.2 rfl)

/-- **What is searched** is determined by the settings and the fields of the request. -/
theorem searched_iff {settings : Settings} {fields ss : List String} :
    Searched settings fields ss ↔ ss = specs settings fields := by
  unfold specs
  dsimp only
  rcases hrequested : fields.filter (fun f => !Text.isBlankText f) with _ | ⟨f, rest⟩
  · have hnone : Specified fields [] := specified_iff.2 (by rw [hrequested]; rfl)
    rw [List.isEmpty_nil, if_pos rfl, ← Text.forall₂_trims_iff]
    constructor
    · rintro (⟨hne, h⟩ | ⟨-, h⟩)
      · rw [specified_iff, hrequested] at h
        exact absurd h hne
      · exact h
    · exact .byDefault hnone
  · rw [List.isEmpty_cons, if_neg Bool.false_ne_true, ← hrequested, ← specified_iff]
    constructor
    · rintro (⟨-, h⟩ | ⟨hnone, -⟩)
      · exact h
      · rw [specified_iff, hrequested] at hnone
        cases hnone
    · intro h
      refine .requested ?_ h
      rintro rfl
      rw [specified_iff, hrequested] at h
      cases h

/-! ### Specifications -/

/-- The specification is a name alone, or a name, a `^` and a boost. -/
inductive Spells (spec : String) : String → Option String → Prop
  | bare : '^' ∉ spec.toList → Spells spec spec none
  | boosted {name boost : String} :
      '^' ∉ name.toList → spec = name ++ "^" ++ boost → Spells spec name (some boost)

theorem spells_splitBoost (spec : String) :
    Spells spec (splitBoost spec).1 (splitBoost spec).2 := by
  have happend := spec.toList.takeWhile_append_dropWhile (p := (· != '^'))
  have hname : '^' ∉ spec.toList.takeWhile (· != '^') := by
    intro hmem
    simpa using List.mem_takeWhile_imp hmem
  unfold splitBoost
  dsimp only
  split
  · rename_i hrest
    rw [hrest, List.append_nil] at happend
    rw [happend] at hname ⊢
    rw [String.ofList_toList]
    exact .bare hname
  · rename_i c boost hrest
    have hc : c = '^' := by
      have hhead := spec.toList.head?_dropWhile_not (· != '^')
      rw [hrest] at hhead
      simpa using hhead
    rw [hrest, hc] at happend
    refine .boosted (by simpa using hname) (String.toList_injective ?_)
    simpa using happend.symm

theorem splitBoost_of_spells {spec name : String} {boost? : Option String}
    (h : Spells spec name boost?) : splitBoost spec = (name, boost?) := by
  have hwhole : ∀ {cs : List Char}, '^' ∉ cs →
      cs.takeWhile (· != '^') = cs ∧ cs.dropWhile (· != '^') = [] := by
    intro cs hcs
    have hall : ∀ c ∈ cs, (c != '^') = true := by
      rintro c hc
      simpa using fun heq : c = '^' => hcs (heq ▸ hc)
    exact ⟨List.takeWhile_eq_self_iff.2 hall, List.dropWhile_eq_nil_iff.2 hall⟩
  cases h with
  | bare hspec =>
    obtain ⟨htake, hdrop⟩ := hwhole hspec
    simp only [splitBoost, htake, hdrop, String.ofList_toList]
  | @boosted _ boost hname hspec =>
    obtain ⟨htake, hdrop⟩ := hwhole hname
    have hlist : spec.toList = name.toList ++ '^' :: boost.toList := by
      rw [hspec]
      simp
    have hhead : ∀ c ∈ ('^' :: boost.toList).head?, (c != '^') = false := by simp
    simp only [splitBoost, hlist, takeWhile_append_of_head hhead, dropWhile_append_of_head hhead,
      htake, hdrop, List.nil_append, String.ofList_toList]

theorem splitBoost_eq_iff {spec name : String} {boost? : Option String} :
    splitBoost spec = (name, boost?) ↔ Spells spec name boost? := by
  refine ⟨fun h => ?_, splitBoost_of_spells⟩
  have hs := spells_splitBoost spec
  rwa [h] at hs

/-- The specification names a field in the nested documents of the paths, outermost first, and its
boost, if it has one, is a positive number. -/
inductive LiesIn (schema : Snapshot) (spec : String) : List String → Prop
  | intro {name : String} {boost? : Option String} {field : Field} :
      Spells spec name boost? →
      (∀ boost, boost? = some boost → ∃ b, Boost.ofText? boost = some b ∧ b.IsPositive) →
      schema.resolve name true = .ok field → LiesIn schema spec field.nestedPaths

theorem fieldName_eq_ok_iff {spec name : String} :
    fieldName spec = .ok name ↔ ∃ boost?, Spells spec name boost? ∧
      ∀ boost, boost? = some boost → ∃ b, Boost.ofText? boost = some b ∧ b.IsPositive := by
  simp only [← splitBoost_eq_iff, ← Boost.isPositive_iff]
  unfold fieldName
  split
  · rename_i name' hsplit
    simp [hsplit]
  · rename_i name' boost hsplit
    cases hb : Boost.ofText? boost with
    | none => simp [hsplit, hb]
    | some b => cases hpos : b.isPositive <;> simp [hsplit, hb, hpos]

/-- **What can be searched**: the specifications of fields that are known, with boosts that are
positive. -/
theorem pathsOf_eq_ok_iff {schema : Snapshot} {spec : String} {paths : List String} :
    pathsOf schema spec = .ok paths ↔ LiesIn schema spec paths := by
  simp only [pathsOf, bind_eq_ok, pure_eq_ok, fieldName_eq_ok_iff]
  constructor
  · rintro ⟨name, ⟨boost?, hspells, hboost⟩, field, hfield, rfl⟩
    exact .intro hspells hboost hfield
  · rintro ⟨hspells, hboost, hfield⟩
    exact ⟨_, ⟨_, hspells, hboost⟩, _, hfield, rfl⟩

theorem LiesIn.unique {schema : Snapshot} {spec : String} {paths paths' : List String}
    (h : LiesIn schema spec paths) (h' : LiesIn schema spec paths') : paths = paths' := by
  rw [← pathsOf_eq_ok_iff] at h h'
  exact Except.ok.inj (h.symm.trans h')

end FreeText
end SearchDsl
