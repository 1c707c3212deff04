import SearchDsl.Proofs.Number.Shortest
import SearchDsl.Proofs.Token.Breaks

/-!
# Numbers read back

* `Token.NumberParts.read_chars`: the written parts of a number are found again in their text;
* `Numeral.next_chars` and `Layout.next_chars`: a number that is written in any layout is read as
  one token, the number itself.
-/

namespace SearchDsl

open Decimal

namespace Token

/-! ### The parts of a number -/

/-- The parts of a number as they can be written: digits before the point, and an exponent that is
either absent or has digits. Nothing follows. -/
structure NumberParts.Complete (p : NumberParts) : Prop where
  whole_ne_nil : p.whole ≠ []
  whole : ∀ c ∈ p.whole, c.isDigit = true
  fraction : ∀ c ∈ p.fraction, c.isDigit = true
  exponent : (p.exponentMark = [] ∧ p.exponent = []) ∨
    ∃ sign, (sign = [] ∨ sign = ['+'] ∨ sign = ['-']) ∧ p.exponentMark = 'e' :: sign ∧
      p.exponent ≠ [] ∧ ∀ c ∈ p.exponent, c.isDigit = true
  rest : p.rest = []

/-- Digits in front of something else are taken as a whole. -/
theorem span_digits {ds tail : List Char} (hd : ∀ c ∈ ds, c.isDigit = true)
    (ht : ∀ c ∈ tail.head?, c.isDigit = false) :
    (ds ++ tail).takeWhile Char.isDigit = ds ∧ (ds ++ tail).dropWhile Char.isDigit = tail := by
  rw [takeWhile_append_of_head ht, dropWhile_append_of_head ht]
  have hall : ds.dropWhile Char.isDigit = [] := List.dropWhile_eq_nil_iff.2 hd
  refine ⟨?_, by rw [hall, List.nil_append]⟩
  have := List.takeWhile_append_dropWhile (p := Char.isDigit) (l := ds)
  rwa [hall, List.append_nil] at this

namespace NumberParts

theorem readFraction_written {ds tail : List Char} (hd : ∀ c ∈ ds, c.isDigit = true)
    (ht : ∀ c ∈ tail.head?, c.isDigit = false ∧ c ≠ '.') :
    readFraction ((if ds.isEmpty then [] else '.' :: ds) ++ tail) = (ds, tail) := by
  cases ds with
  | nil =>
    cases tail with
    | nil => rfl
    | cons c tail =>
      have hc := (ht c rfl).2
      simp [readFraction, hc]
  | cons d ds =>
    obtain ⟨h₁, h₂⟩ := span_digits hd fun c hc => (ht c hc).1
    simp only [List.isEmpty_cons, Bool.false_eq_true, if_false, List.cons_append]
    rw [List.cons_append] at h₁ h₂
    simp [readFraction, h₁, h₂]

theorem readExponent_written {sign ds : List Char} (hs : sign = [] ∨ sign = ['+'] ∨ sign = ['-'])
    (hne : ds ≠ []) (hd : ∀ c ∈ ds, c.isDigit = true) :
    readExponent ('e' :: (sign ++ ds)) = ('e' :: sign, ds, []) := by
  obtain ⟨d, ds, rfl⟩ := List.exists_cons_of_ne_nil hne
  obtain ⟨h₁, h₂⟩ := @span_digits (d :: ds) [] hd (by simp)
  rw [List.append_nil] at h₁ h₂
  have hsign : readSign (sign ++ d :: ds) = (sign, d :: ds) := by
    have hdigit := hd d (by simp)
    have hplus : d ≠ '+' := by
      rintro rfl
      cases hdigit
    have hminus : d ≠ '-' := by
      rintro rfl
      cases hdigit
    rcases hs with rfl | rfl | rfl <;> simp [readSign, hplus, hminus]
  simp [readExponent, hsign, h₁, h₂]

/-- What follows the fraction. -/
theorem Complete.readExponent {p : NumberParts} (h : p.Complete) :
    NumberParts.readExponent (p.exponentMark ++ p.exponent) = (p.exponentMark, p.exponent, []) ∧
      ∀ c ∈ (p.exponentMark ++ p.exponent).head?, c.isDigit = false ∧ c ≠ '.' := by
  rcases h.exponent with ⟨hm, he⟩ | ⟨sign, hs, hm, hne, hd⟩
  · rw [hm, he]
    exact ⟨rfl, by simp⟩
  · rw [hm]
    refine ⟨readExponent_written hs hne hd, ?_⟩
    intro c hc
    cases hc
    decide

theorem Complete.readUnsigned {p : NumberParts} (h : p.Complete) (negative : Bool) :
    NumberParts.readUnsigned negative (p.whole ++ ((if p.fraction.isEmpty then []
      else '.' :: p.fraction) ++ (p.exponentMark ++ p.exponent))) =
      { p with negative := negative } := by
  obtain ⟨hexp, hhead⟩ := h.readExponent
  have hnext : ∀ c ∈ ((if p.fraction.isEmpty then [] else '.' :: p.fraction) ++
      (p.exponentMark ++ p.exponent)).head?, c.isDigit = false := by
    intro c hc
    split at hc
    · exact (hhead c hc).1
    · cases hc
      decide
  obtain ⟨h₁, h₂⟩ := span_digits h.whole hnext
  simp only [NumberParts.readUnsigned, h₁, h₂, readFraction_written h.fraction hhead, hexp, h.rest]

/-- **The parts of a number are found again.** -/
theorem read_chars {p : NumberParts} (h : p.Complete) : read p.chars = p := by
  obtain ⟨c, cs, hcs⟩ := List.exists_cons_of_ne_nil h.whole_ne_nil
  have hdigit : c.isDigit = true := h.whole c (by simp [hcs])
  have hread := h.readUnsigned p.negative
  unfold chars
  cases hn : p.negative with
  | true =>
    rw [hn] at hread
    simp only [if_true, List.append_assoc, List.cons_append, List.nil_append, read, hread]
    rw [← hn]
  | false =>
    rw [hn, hcs] at hread
    have hminus : c ≠ '-' := by
      rintro rfl
      cases hdigit
    simp only [Bool.false_eq_true, if_false, List.nil_append, List.append_assoc, hcs,
      List.cons_append] at hread ⊢
    rw [read]
    · rw [hread, ← hn, ← hcs]
    · rintro us e
      exact hminus (List.cons.inj e).1

end NumberParts

/-! ### Numbers as tokens -/

theorem isBlank_of_isDigit {c : Char} (h : c.isDigit = true) : Text.isBlank c = false := by
  have hc : 48 ≤ c.toNat ∧ c.toNat ≤ 57 := Char.isDigit_iff_toNat.1 h
  rw [Text.isBlank, Bool.eq_false_iff, ne_eq, Text.CharSet.has_iff]
  simp only [Text.whiteSpace, List.mem_cons, List.not_mem_nil, or_false, exists_eq_or_imp,
    exists_eq_left, not_or]
  omega

theorem scanFrom_number {c : Char} {cs : List Char}
    (h : c.isDigit = true ∨ (c = '-' ∧ cs.head?.any Char.isDigit = true)) :
    scanFrom c cs = scanNumber (c :: cs) := by
  have hne : ∀ d : Char, d.isDigit = false → d ≠ '-' → c ≠ d := by
    rintro d hd hm rfl
    rcases h with h | h
    · rw [hd] at h
      cases h
    · exact hm h.1
  have hmark : mark? c = none := by
    unfold mark?
    split <;> first | rfl | exact absurd rfl (hne _ (by decide) (by decide))
  have hrelation : scanRelation c cs = none := by
    unfold scanRelation
    split <;> first | rfl | exact absurd rfl (hne _ (by decide) (by decide))
  have hquote : ¬ (c = '"' ∨ c = '\'') := by
    rintro (e | e)
    · exact hne _ (by decide) (by decide) e
    · exact hne _ (by decide) (by decide) e
  unfold scanFrom
  rw [hmark, hrelation]
  simp only
  rw [if_neg (by simpa using hquote), if_pos (by simpa using h)]

/-- **A number is read from its own text**, as one token. -/
theorem next_number {p : NumberParts} (h : p.Complete) {n : Numeral} (hn : p.numeral? = some n) :
    next p.chars = (.ok (.number n), []) := by
  have hscan : scanNumber p.chars = (.ok (.number n), []) := by
    simp [scanNumber, NumberParts.read_chars h, h.rest, hn]
  obtain ⟨c, cs, hcs⟩ := List.exists_cons_of_ne_nil h.whole_ne_nil
  have hdigit : c.isDigit = true := h.whole c (by simp [hcs])
  unfold next
  cases hneg : p.negative with
  | false =>
    have hchars : ∃ us, p.chars = c :: us := by
      simp [NumberParts.chars, hneg, hcs]
    obtain ⟨us, hus⟩ := hchars
    rw [hus] at hscan ⊢
    rw [List.dropWhile_cons_of_neg (by simp [isBlank_of_isDigit hdigit])]
    simp only
    rw [scanFrom_number (.inl hdigit), hscan]
  | true =>
    have hchars : ∃ us, p.chars = '-' :: c :: us := by
      simp [NumberParts.chars, hneg, hcs]
    obtain ⟨us, hus⟩ := hchars
    rw [hus] at hscan ⊢
    rw [List.dropWhile_cons_of_neg (by decide)]
    simp only
    rw [scanFrom_number (.inr ⟨rfl, by simpa using hdigit⟩), hscan]

end Token

/-! ### Whole numbers -/

namespace Numeral

/-- **A whole number is read from its own text.** -/
theorem next_wholeChars {i : Int} (h : isSigned64 i = true) :
    Token.next (wholeChars i) = (.ok (.number (.whole i)), []) := by
  let p : Token.NumberParts := ⟨decide (i < 0), Nat.toDigits 10 i.natAbs, [], [], [], []⟩
  have hp : p.Complete :=
    ⟨Nat.toDigits_ne_nil, fun c hc => Nat.isDigit_of_mem_toDigits (by decide) (by decide) hc,
      by simp [p], .inl ⟨rfl, rfl⟩, rfl⟩
  have hchars : p.chars = wholeChars i := by
    simp only [p, Token.NumberParts.chars, wholeChars]
    by_cases hi : i < 0 <;> simp [hi]
  have hvalue : p.numeral? = some (.whole i) := by
    have hi : (if p.negative then -((ofDigits p.whole : Nat) : Int) else (ofDigits p.whole : Nat)) =
        i := by
      simp only [p, ofDigits_toDigits, decide_eq_true_eq]
      split <;> omega
    simp only [Token.NumberParts.numeral?, hi, h]
    rfl
  rw [← hchars]
  exact Token.next_number hp hvalue

end Numeral

/-! ### Doubles -/

namespace Layout

/-- The characters, behind the sign of the double, are the parts of a number that is no whole one
and is read as the double. -/
def Writes (body : List Char) (d : Double) : Prop :=
  ∃ p : Token.NumberParts, p.Complete ∧ p.chars = (if d.negative then '-' :: body else body) ∧
    p.isWhole = false ∧ p.decimal.nearest? = some d

theorem writes_of_parts {d : Double} {whole fraction mark exponent : List Char}
    (hp : (⟨d.negative, whole, fraction, mark, exponent, []⟩ : Token.NumberParts).Complete)
    (hf : fraction ≠ [] ∨ exponent ≠ [])
    (hd : nearest? (⟨d.negative, whole, fraction, mark, exponent, []⟩ :
      Token.NumberParts).decimal = some d) :
    Writes (whole ++ (if fraction.isEmpty then [] else '.' :: fraction) ++ mark ++ exponent) d := by
  refine ⟨_, hp, ?_, ?_, hd⟩
  · cases d.negative <;> simp [Token.NumberParts.chars]
  · rcases hf with hf | hf <;> simp [Token.NumberParts.isWhole, hf]

variable {x : DigitForm} {d : Double}

/-- A decimal with the digits of `x` and some zeros behind them. -/
theorem nearest?_of_reads (h : x.Reads d) {n k : Nat} {e : Int}
    (hn : n = ofDigits x.digits * 10 ^ k) (he : e = x.place + 1 - x.digits.length - k) :
    nearest? ⟨d.negative, n, e⟩ = some d := by
  rw [hn, he, nearest?_shift, h.nearest]

theorem mem_replicate_isDigit {k : Nat} {c : Char} (h : c ∈ List.replicate k '0') :
    c.isDigit = true := by
  rw [(List.mem_replicate.1 h).2]
  rfl

/-- Parts without an exponent. -/
theorem writes_point (h : x.Reads d) {whole fraction : List Char} {k : Nat} (hw : whole ≠ [])
    (hf : fraction ≠ []) (hdigit : ∀ c ∈ whole ++ fraction, c.isDigit = true)
    (hval : ofDigits (whole ++ fraction) = ofDigits x.digits * 10 ^ k)
    (hlen : (fraction.length : Int) = x.digits.length + k - x.place - 1) :
    Writes (whole ++ '.' :: fraction) d := by
  have hparts := @writes_of_parts d whole fraction [] []
    ⟨hw, fun c hc => hdigit c (by simp [hc]), fun c hc => hdigit c (by simp [hc]),
      .inl ⟨rfl, rfl⟩, rfl⟩ (.inl hf) ?_
  · simpa [hf] using hparts
  · refine nearest?_of_reads h hval ?_
    simp only [List.contains_nil, Bool.false_eq_true, if_false, hlen]
    simp [ofDigits]
    omega

/-- Digits behind the point only. -/
theorem writes_small (h : x.Reads d) (hx : x.place < 0) :
    Writes (['0', '.'] ++ List.replicate (-x.place - 1).toNat '0' ++ x.digits) d := by
  obtain ⟨k, hk⟩ : ∃ k, (-x.place - 1).toNat = k := ⟨_, rfl⟩
  have hzero : ofDigits ['0'] = 0 := rfl
  rw [hk]
  show Writes (['0'] ++ '.' :: (List.replicate k '0' ++ x.digits)) d
  refine writes_point h (k := 0) (by simp) (by simp [h.ne_nil]) ?_ ?_ ?_
  · intro c hc
    simp only [List.mem_append, List.mem_singleton] at hc
    rcases hc with rfl | hc | hc
    · rfl
    · exact mem_replicate_isDigit hc
    · exact h.isDigit c hc
  · rw [ofDigits_append, ofDigits_append, ofDigits_zeros, hzero]
    simp
  · simp only [List.length_append, List.length_replicate]
    omega

/-- Digits in front of the point that do not reach it, with zeros behind them. -/
theorem writes_padded (h : x.Reads d) {w : Nat} (hlen : x.digits.length ≤ w)
    (hw : (w : Int) = x.place + 1) :
    Writes (x.digits ++ List.replicate (w - x.digits.length) '0' ++ '.' :: ['0']) d := by
  have hzero : ofDigits ['0'] = 0 := rfl
  -- The zero behind the point makes one more zero.
  refine writes_point h (k := w - x.digits.length + 1) (by simp [h.ne_nil]) (by simp) ?_ ?_ ?_
  · intro c hc
    simp only [List.mem_append, List.mem_singleton] at hc
    rcases hc with (hc | hc) | rfl
    · exact h.isDigit c hc
    · exact mem_replicate_isDigit hc
    · rfl
  · simp only [ofDigits_append, ofDigits_zeros, hzero, List.length_replicate,
      List.length_singleton, Nat.add_zero]
    rw [Nat.pow_add, Nat.mul_assoc]
  · rw [List.length_singleton]
    omega

/-- Digits on both sides of the point. -/
theorem writes_divided (h : x.Reads d) {w : Nat} (hlen : w < x.digits.length) (hpos : 0 < w)
    (hw : (w : Int) = x.place + 1) :
    Writes (x.digits.take w ++ '.' :: x.digits.drop w) d := by
  have hdrop : x.digits.drop w ≠ [] := by
    simp only [ne_eq, List.drop_eq_nil_iff]
    omega
  have htake : x.digits.take w ≠ [] := by
    simp only [ne_eq, List.take_eq_nil_iff, h.ne_nil, or_false]
    omega
  refine writes_point h (k := 0) htake hdrop ?_ ?_ ?_
  · rw [List.take_append_drop]
    exact h.isDigit
  · rw [List.take_append_drop, Nat.pow_zero, Nat.mul_one]
  · rw [List.length_drop]
    omega

/-- Digits in front of the point, with zeros behind them if they do not reach it. -/
theorem writes_large (h : x.Reads d) (hx : 0 ≤ x.place) :
    Writes (x.digits.take (x.place.toNat + 1) ++
      List.replicate (x.place.toNat + 1 - x.digits.length) '0' ++ ['.'] ++
        (if (x.digits.drop (x.place.toNat + 1)).isEmpty then ['0']
          else x.digits.drop (x.place.toNat + 1))) d := by
  obtain ⟨w, hw⟩ : ∃ w, x.place.toNat + 1 = w := ⟨_, rfl⟩
  rw [hw, List.append_assoc, List.singleton_append]
  by_cases hlen : x.digits.length ≤ w
  · have hpadded := writes_padded h hlen (by omega)
    rw [List.take_of_length_le hlen, List.drop_eq_nil_of_le hlen]
    simpa using hpadded
  · have hdivided := @writes_divided x d h w (by omega) (by omega) (by omega)
    have hpad : w - x.digits.length = 0 := by omega
    have hdrop : x.digits.drop w ≠ [] := by
      simp only [ne_eq, List.drop_eq_nil_iff]
      exact hlen
    simpa [hpad, List.isEmpty_iff, hdrop] using hdivided

theorem writes_positional (h : x.Reads d) : Writes (positional x) d := by
  unfold positional
  simp only [List.isEmpty_iff, h.ne_nil, if_false]
  split
  · rename_i hx
    exact writes_small h hx
  · rename_i hx
    simpa [List.isEmpty_iff] using writes_large h (by omega)

/-- One digit before the point, and an exponent. -/
theorem writes_scientific (l : Layout) (h : x.Reads d) : Writes (l.scientific x) d := by
  obtain ⟨c, cs, hcs⟩ := List.exists_cons_of_ne_nil h.ne_nil
  obtain ⟨sign, hsign⟩ : ∃ sign, sign =
      if x.place < 0 then ['-'] else if l.signsExponent then ['+'] else [] := ⟨_, rfl⟩
  -- The reader takes the sign of the exponent from the mark in front of its digits.
  have hminus : ('e' :: sign).contains '-' = decide (x.place < 0) := by
    rw [hsign]
    by_cases hx : x.place < 0
    · simp [hx]
    · cases l.signsExponent <;> simp [hx]
  have hbody : l.scientific x = [c] ++ (if cs.isEmpty then [] else '.' :: cs) ++ ('e' :: sign) ++
      Nat.toDigits 10 x.place.natAbs := by
    unfold scientific
    rw [hcs, ← hsign]
    cases cs <;> simp
  rw [hbody]
  refine writes_of_parts ⟨by simp, ?_, ?_, .inr ⟨sign, ?_, rfl, Nat.toDigits_ne_nil, ?_⟩, rfl⟩
    (.inr Nat.toDigits_ne_nil) ?_
  · intro c' hc
    exact h.isDigit c' (by simp_all)
  · intro c' hc
    exact h.isDigit c' (by simp_all)
  · rw [hsign]
    split
    · simp
    · split <;> simp
  · exact fun c' hc => Nat.isDigit_of_mem_toDigits (by decide) (by decide) hc
  · refine nearest?_of_reads h (k := 0) ?_ ?_
    · simp [hcs]
    · simp only [hminus, decide_eq_true_eq, ofDigits_toDigits, hcs, List.length_cons]
      split <;> omega

theorem writes_zero (h : d.rank = 0) : Writes (positional ⟨[], 0⟩) d := by
  refine @writes_of_parts d ['0'] ['0'] [] []
    ⟨by simp, by simp, by simp, .inl ⟨rfl, rfl⟩, rfl⟩ (.inl (by simp)) ?_
  rw [Token.NumberParts.decimal, nearest?_eq, if_pos (.inl rfl)]
  cases d
  simp_all [Double.zero]

/-- **The text of a double writes the double.** -/
theorem exists_parts (l : Layout) (d : Double) :
    ∃ p : Token.NumberParts, p.Complete ∧ p.chars = l.chars d ∧ p.isWhole = false ∧
      p.decimal.nearest? = some d := by
  unfold chars
  by_cases hz : d.rank = 0
  · rw [Double.shortest_of_zero hz]
    exact writes_zero hz
  · have hreads := Double.shortest_reads hz l.tie
    suffices hbody : Writes (if (d.shortest l.tie).digits.isEmpty ||
        (l.leastPlace ≤ (d.shortest l.tie).place && (d.shortest l.tie).place ≤ l.greatestPlace)
        then positional (d.shortest l.tie) else l.scientific (d.shortest l.tie)) d from hbody
    split
    · exact writes_positional hreads
    · exact writes_scientific l hreads

/-- **A double is read from its own text**, in every layout. -/
theorem next_chars (l : Layout) (d : Double) :
    Token.next (l.chars d) = (.ok (.number (.double d)), []) := by
  obtain ⟨p, hp, hchars, hwhole, hread⟩ := exists_parts l d
  rw [← hchars]
  refine Token.next_number hp ?_
  simp only [Token.NumberParts.numeral?, hwhole, hread]
  rfl

end Layout
end SearchDsl
