import Mathlib.Data.List.Infix
import SearchDsl.Query.Pattern

/-!
# Patterns keep their meaning

* `Pattern.matches_any_iff`, `Pattern.fits_iff`: whether a pattern fits a text can be computed;
* `Pattern.isClosed_wildcardOfLike`: a wildcard pattern that was made from a `LIKE` pattern does not
  break off behind a backslash;
* `Pattern.matches_ofLike_iff`: it matches the texts that the `LIKE` pattern matches.
-/

namespace SearchDsl.Pattern

variable {es : List Element} {cs : List Char}

/-! ### Deciding what fits -/

/-- Behind any sequence of characters the other elements fit an end of the text. -/
theorem matches_any_iff : Matches (.any :: es) cs ↔ ∃ ds, ds <:+ cs ∧ Matches es ds := by
  constructor
  · intro h
    generalize hall : Element.any :: es = all at h
    induction h with
    | nil => cases hall
    | literal => cases hall
    | one => cases hall
    | @none es' cs h =>
      cases hall
      exact ⟨cs, List.suffix_refl cs, h⟩
    | @more c es' cs _ ih =>
      obtain ⟨ds, hds, h⟩ := ih hall
      exact ⟨ds, hds.trans (List.suffix_cons c cs), h⟩
  · rintro ⟨ds, ⟨before, rfl⟩, h⟩
    induction before with
    | nil => exact .none h
    | cons c before ih => exact .more ih

/-- The elements fit the characters, tried one after the other. -/
def fits : List Element → List Char → Bool
  | [], cs => cs.isEmpty
  | .any :: es, cs => cs.tails.any fun ds => fits es ds
  | _ :: _, [] => false
  | .literal c :: es, d :: ds => c == d && fits es ds
  | .one :: es, _ :: ds => fits es ds

theorem fits_iff : fits es cs = true ↔ Matches es cs := by
  induction es generalizing cs with
  | nil =>
    cases cs with
    | nil => exact iff_of_true rfl .nil
    | cons c cs => exact iff_of_false (by simp [fits]) (by rintro ⟨⟩)
  | cons e es ih =>
    cases e with
    | any => simp only [fits, List.any_eq_true, List.mem_tails, ih, matches_any_iff]
    | literal c =>
      cases cs with
      | nil => exact iff_of_false (by simp [fits]) (by rintro ⟨⟩)
      | cons d ds =>
        simp only [fits, Bool.and_eq_true, beq_iff_eq, ih]
        constructor
        · rintro ⟨rfl, h⟩
          exact .literal h
        · rintro ⟨⟩
          exact ⟨rfl, by assumption⟩
    | one =>
      cases cs with
      | nil => exact iff_of_false (by simp [fits]) (by rintro ⟨⟩)
      | cons d ds =>
        simp only [fits, ih]
        exact ⟨.one, by rintro ⟨⟩; assumption⟩

instance : Decidable (Matches es cs) := decidable_of_iff _ fits_iff

/-! ### Backslashes -/

/-- Every backslash of the wildcard pattern has a character behind it that it makes literal. -/
def isClosed : List Char → Bool
  | [] => true
  | [c] => c != '\\'
  | c :: d :: cs => if c = '\\' then isClosed cs else isClosed (d :: cs)

theorem isClosed_cons {c : Char} (h : c ≠ '\\') (cs : List Char) :
    isClosed (c :: cs) = isClosed cs := by
  cases cs with
  | nil => simp [isClosed, h]
  | cons d cs => simp [isClosed, h]

theorem isClosed_escaped (c : Char) (cs : List Char) :
    isClosed ('\\' :: c :: cs) = isClosed cs := by
  simp [isClosed]

/-- **A wildcard pattern for a `LIKE` pattern does not break off behind a backslash.** -/
theorem isClosed_wildcardOfLike (like : List Char) : isClosed (wildcardOfLike like) = true := by
  -- Each step writes a character that is no backslash, or a backslash and a character.
  fun_induction wildcardOfLike like with
  | case1 => rfl
  | case2 cs ih | case3 cs ih | case7 cs ih | case8 cs ih => rwa [isClosed_cons (by decide)]
  | case4 cs ih | case5 cs ih | case6 cs _ _ _ _ ih | case9 cs ih | case10 cs ih =>
    rwa [isClosed_escaped]
  | case11 c cs _ _ _ _ hbackslash _ _ _ _ ih =>
    rwa [isClosed_cons]
    simpa using hbackslash

/-- **The wildcard pattern for a `LIKE` pattern matches the same texts**, and it does not break off
behind a backslash. -/
theorem matches_ofLike_iff (like text : String) :
    (Matches (readLike like.toList) text.toList ↔
      Matches (readWildcard (ofLike like).toList) text.toList) ∧
    isClosed (ofLike like).toList = true := by
  rw [ofLike, String.toList_ofList, readWildcard_wildcardOfLike]
  exact ⟨Iff.rfl, isClosed_wildcardOfLike like.toList⟩

/-- A backslash that escapes and one that does not, and characters that are wildcards to the backend
alone. -/
example : Matches (readLike "9\\%_\\\\_*%?".toList) "9%!\\_*...?".toList := by decide

end SearchDsl.Pattern
