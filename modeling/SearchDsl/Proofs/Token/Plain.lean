import SearchDsl.Proofs.Token.Breaks

/-!
# The tokens of a text are plain

A word that was read is read again from its own characters, and a whole number that was read fits
into 64 bits. `Token.IsPlain` says so of a token, and `Lexeme.Lexes.isPlain` shows it of every token
of a text.
-/

namespace SearchDsl

namespace Token

/-- The token is one that its own text is read as. -/
def IsPlain : Token → Prop
  | .word w => next w.toList = (.ok (.word w), [])
  | .number (.whole i) => Numeral.isSigned64 i = true
  | _ => True

theorem scanRelation_eq_none {c : Char} {cs : List Char} (h : scanRelation c cs = none)
    (us : List Char) : scanRelation c us = none := by
  unfold scanRelation at h
  split at h <;> try cases h
  unfold scanRelation
  split <;> simp_all

theorem takeWhile_takeWhile {α : Type} (p : α → Bool) (xs : List α) :
    (xs.takeWhile p).takeWhile p = xs.takeWhile p ∧ (xs.takeWhile p).dropWhile p = [] := by
  induction xs with
  | nil => exact ⟨rfl, rfl⟩
  | cons x xs ih =>
    cases hx : p x <;> simp [hx, ih]

theorem next_word {c : Char} {cs : List Char} (hb : Text.isBlank c = false) (hm : mark? c = none)
    (hr : scanRelation c cs = none) (hq : ¬ (c = '"' ∨ c = '\''))
    (hd : ¬ (c.isDigit = true ∨ c = '-' ∧ cs.head?.any Char.isDigit = true))
    (hs : startsWord c = true) :
    next (c :: cs.takeWhile continuesWord) =
      (.ok (.word (String.ofList (c :: cs.takeWhile continuesWord))), []) := by
  have hminus : c ≠ '-' := by
    rintro rfl
    exact absurd hs (by decide)
  have hdigit : c.isDigit = false := by
    cases h : c.isDigit with
    | false => rfl
    | true => exact absurd (.inl h) hd
  obtain ⟨htake, hdrop⟩ := takeWhile_takeWhile continuesWord cs
  unfold next
  rw [List.dropWhile_cons_of_neg (by simp [hb])]
  simp only [scanFrom, hm, scanRelation_eq_none hr, hdigit, hminus, hs, htake, hdrop]
  rw [if_neg (by simpa using hq)]
  simp

theorem isSigned64_of_numeral? {p : NumberParts} {i : Int} (h : p.numeral? = some (.whole i)) :
    Numeral.isSigned64 i = true := by
  obtain ⟨j, hj⟩ : ∃ j : Int, j = if p.negative then -((Decimal.ofDigits p.whole : Nat) : Int)
      else (Decimal.ofDigits p.whole : Nat) := ⟨_, rfl⟩
  simp only [NumberParts.numeral?, ← hj] at h
  split at h
  · rename_i hfits
    cases h
    simp only [Bool.and_eq_true] at hfits
    exact hfits.2
  · simp at h

theorem isPlain_of_scanNumber {cs rest : List Char} {t : Token}
    (h : scanNumber cs = (.ok t, rest)) : t.IsPlain := by
  simp only [scanNumber, Prod.mk.injEq] at h
  obtain ⟨h, -⟩ := h
  split at h
  · cases h
  · split at h
    · rename_i n hn
      cases h
      cases n with
      | double d => trivial
      | whole i => exact isSigned64_of_numeral? hn
    · cases h

theorem isPlain_of_scanFrom {c : Char} {cs rest : List Char} {t : Token}
    (hb : Text.isBlank c = false) (h : scanFrom c cs = (.ok t, rest)) : t.IsPlain := by
  unfold scanFrom at h
  split at h
  · rename_i u _ hm
    cases h
    unfold mark? at hm
    split at hm <;> cases hm <;> trivial
  · rename_i r _ hr
    subst h
    unfold scanRelation at hr
    split at hr <;> cases hr <;> trivial
  · rename_i hm hr
    split at h
    · unfold scanString at h
      split at h
      · cases h
        trivial
      · cases h
    · rename_i hq
      split at h
      · exact isPlain_of_scanNumber h
      · rename_i hd
        split at h
        · rename_i hs
          cases h
          -- What none of the other kinds has taken and starts a word is read as that word again.
          rw [IsPlain, String.toList_ofList]
          exact next_word hb hm hr (by simpa using hq) (by simpa using hd) hs
        · cases h

theorem isPlain_of_next {text rest : List Char} {t : Token} (h : next text = (.ok t, rest)) :
    t.IsPlain := by
  unfold next at h
  cases hd : text.dropWhile Text.isBlank with
  | nil =>
    rw [hd] at h
    cases h
    trivial
  | cons c cs =>
    rw [hd] at h
    have hb : Text.isBlank c = false := not_of_dropWhile_cons hd
    exact isPlain_of_scanFrom hb h

end Token

namespace Lexeme

/-- **Every token of a text is plain.** -/
theorem Lexes.isPlain {u : List Char} {ts : List Token} (h : Lexes u ts) : ∀ t ∈ ts, t.IsPlain := by
  induction ts generalizing u with
  | nil => simp
  | cons t ts ih =>
    obtain ⟨rest, hn, -, hr⟩ := next_of_contents h (by simp)
    intro s hs
    rcases List.mem_cons.1 hs with rfl | hs
    · exact Token.isPlain_of_next hn
    · exact ih hr s hs

end Lexeme
end SearchDsl
