import SearchDsl.Operator
import SearchDsl.Token

/-!
# Connectives, directions and keywords

Connectives and directions are recognised after upper-casing, keywords by ASCII case alone. The two
agree:

* `isKeyword_of_ofWord?`: a word that is a connective is that keyword;
* `connective_of_isKeyword_not`: the word NOT is no connective;
* `direction_of_isKeyword`: a keyword is a direction only if it is one in its own spelling.
-/

namespace SearchDsl

namespace Text

/-- Only ASCII letters have two cases, and each of the two is that of the other one. -/
theorem toUpper_toLower_isAlpha (c : Char) :
    c.toUpper.toLower = c.toLower ∧ c.toLower.toUpper = c.toUpper ∧
      c.toLower.isAlpha = c.isAlpha := by
  by_cases hc : c.toNat < 128
  · have hall : ∀ n < 128, (Char.ofNat n).toUpper.toLower = (Char.ofNat n).toLower ∧
        (Char.ofNat n).toLower.toUpper = (Char.ofNat n).toUpper ∧
        (Char.ofNat n).toLower.isAlpha = (Char.ofNat n).isAlpha := by decide +kernel
    simpa only [Char.ofNat_toNat] using hall c.toNat hc
  · -- The letters are below the other characters.
    have hupper : c.toUpper = c := dif_neg fun h => hc <|
      Nat.lt_of_le_of_lt (UInt32.le_iff_toNat_le.1 h.2) (by decide)
    have hlower : c.toLower = c := dif_neg fun h => hc <|
      Nat.lt_of_le_of_lt (UInt32.le_iff_toNat_le.1 h.2) (by decide)
    rw [hupper, hlower]
    exact ⟨rfl, hupper, rfl⟩

/-- Characters with a longer upper-case form, or a foreign one, become S, I or F at the front. -/
theorem upperChar_cases (c : Char) :
    upperChar c = [c.toUpper] ∨ ∃ d ds, upperChar c = d :: ds ∧ d ∈ ['S', 'I', 'F'] := by
  unfold upperChar
  split <;> simp

theorem map_toLower_of_flatMap {cs ks : List Char} (h : cs.flatMap upperChar = ks)
    (hk : ∀ k ∈ ks, k ∉ ['S', 'I', 'F']) : cs.map Char.toLower = ks.map Char.toLower := by
  induction cs generalizing ks with
  | nil =>
    subst h
    rfl
  | cons c cs ih =>
    subst h
    rw [List.flatMap_cons] at hk ⊢
    rcases upperChar_cases c with hc | ⟨d, ds, hc, hd⟩
    · rw [hc] at hk ⊢
      rw [List.cons_append, List.nil_append, List.map_cons, List.map_cons,
        (toUpper_toLower_isAlpha c).1, ih rfl fun k hmem => hk k (by simp [hmem])]
    · exact absurd hd (hk d (by simp [hc]))

/-- A word whose upper-case form has no S, I or F in it is that word up to the case of ASCII
letters. -/
theorem sameIgnoringCase_of_upper {w k : String} (h : upper w = k)
    (hk : (k.toList.all fun c => !(['S', 'I', 'F'].contains c)) = true) :
    sameIgnoringCase w k = true := by
  have hl : w.toList.flatMap upperChar = k.toList := by
    rw [← h, upper, String.toList_ofList]
  have hk : ∀ c ∈ k.toList, c ∉ ['S', 'I', 'F'] := by
    simpa only [List.all_eq_true, Bool.not_eq_true', List.contains_eq_mem,
      decide_eq_false_iff_not] using hk
  simpa [sameIgnoringCase] using map_toLower_of_flatMap hl hk

/-- An ASCII letter has one upper-case form, in whichever case it is written. -/
theorem upperChar_of_toLower {c k : Char} (h : c.toLower = k.toLower) (hk : k.isAlpha = true) :
    upperChar c = upperChar k := by
  have ascii : ∀ d : Char, d.isAlpha = true → upperChar d = [d.toUpper] := by
    intro d hd
    unfold upperChar
    split
    all_goals first
      | rfl
      | exact absurd hd (by decide)
  obtain ⟨-, hupper, halpha⟩ := toUpper_toLower_isAlpha c
  obtain ⟨-, hupper', halpha'⟩ := toUpper_toLower_isAlpha k
  have hc : c.isAlpha = true := by rw [← halpha, h, halpha', hk]
  rw [ascii c hc, ascii k hk, ← hupper, h, hupper']

theorem flatMap_of_map_toLower {cs ks : List Char} (h : cs.map Char.toLower = ks.map Char.toLower)
    (hk : ∀ k ∈ ks, k.isAlpha = true) : cs.flatMap upperChar = ks.flatMap upperChar := by
  induction ks generalizing cs with
  | nil =>
    rw [List.map_nil, List.map_eq_nil_iff] at h
    rw [h]
  | cons k ks ih =>
    obtain ⟨c, cs, rfl, hc, hcs⟩ := List.map_eq_cons_iff.1 h
    rw [List.flatMap_cons, List.flatMap_cons, upperChar_of_toLower hc (hk k (by simp)),
      ih hcs fun d hd => hk d (by simp [hd])]

/-- A word of letters, in whichever case it is written, has one upper-case form. -/
theorem upper_of_sameIgnoringCase {w k : String} (h : sameIgnoringCase w k = true)
    (hk : k.toList.all Char.isAlpha = true) : upper w = upper k := by
  have hmap : w.toList.map Char.toLower = k.toList.map Char.toLower := by
    simpa [sameIgnoringCase] using h
  rw [upper, upper, flatMap_of_map_toLower hmap (by simpa using hk)]

end Text

/-- **A connective is its own keyword.** -/
theorem isKeyword_of_ofWord? {w : String} {c : Connective} (h : Connective.ofWord? w = some c) :
    (Token.word w).isKeyword c.name = true := by
  simp only [Connective.ofWord?] at h
  split at h
  · rename_i hw
    obtain rfl := Option.some.inj h
    exact Text.sameIgnoringCase_of_upper hw (by decide)
  · split at h
    · rename_i hw
      obtain rfl := Option.some.inj h
      exact Text.sameIgnoringCase_of_upper hw (by decide)
    · cases h

/-- A word is one keyword only, up to case. -/
theorem Token.isKeyword_unique {t : Token} {k k' : String} (h : t.isKeyword k = true)
    (h' : t.isKeyword k' = true) : k.toList.map Char.toLower = k'.toList.map Char.toLower := by
  cases t with
  | word w =>
    simp only [isKeyword, Text.sameIgnoringCase, beq_iff_eq] at h h'
    exact h.symm.trans h'
  | _ => cases h

/-- The word NOT is no connective. -/
theorem connective_of_isKeyword_not {w : String} (h : (Token.word w).isKeyword "NOT" = true) :
    Connective.ofWord? w = none := by
  cases hc : Connective.ofWord? w with
  | none => rfl
  | some c =>
    have := Token.isKeyword_unique h (isKeyword_of_ofWord? hc)
    cases c <;> exact absurd this (by decide)

/-- **A keyword is a direction only if it is one in its own spelling.** -/
theorem direction_of_isKeyword {w k : String} (h : (Token.word w).isKeyword k = true)
    (hk : k.toList.all Char.isAlpha = true) : Direction.ofWord? w = Direction.ofWord? k := by
  simp only [Direction.ofWord?, Text.upper_of_sameIgnoringCase h hk]

end SearchDsl
