import SearchDsl.Proofs.Token.Contents

/-!
# Tokens in front of more text

A text *breaks* tokens if it is empty or starts with a character that goes on with no token. In
front of such a text everything is read as if nothing followed:

* `Token.next_append` for one token, by the kinds of tokens;
* `Lexeme.readFrom_append` for a text that is read to its end, with the positions, and
  `Lexeme.contents_append` without them.

So texts can be put together, and their tokens with them: `Lexeme.Lexes.blank`,
`Lexeme.Lexes.comma`, `Lexeme.Lexes.brackets` and `Lexeme.Lexes.parentheses`.
-/

namespace SearchDsl

/-! ### The beginning of a list -/

section Joined

variable {α : Type} {p : α → Bool} {ys : List α}

theorem not_of_dropWhile_cons {x : α} {xs : List α} (h : xs.dropWhile p = x :: ys) :
    p x = false := by
  have hhead := List.head?_dropWhile_not p xs
  rw [h] at hhead
  simpa using hhead

theorem takeWhile_append_of_head (h : ∀ y ∈ ys.head?, p y = false) (xs : List α) :
    (xs ++ ys).takeWhile p = xs.takeWhile p := by
  induction xs with
  | nil =>
    cases ys with
    | nil => rfl
    | cons y ys => simp [h y rfl]
  | cons x xs ih =>
    cases hx : p x <;> simp [hx, ih]

theorem dropWhile_append_of_head (h : ∀ y ∈ ys.head?, p y = false) (xs : List α) :
    (xs ++ ys).dropWhile p = xs.dropWhile p ++ ys := by
  induction xs with
  | nil =>
    cases ys with
    | nil => rfl
    | cons y ys => simp [h y rfl]
  | cons x xs ih =>
    cases hx : p x <;> simp [hx, ih]

end Joined

/-- What a closed literal holds does not depend on what follows it. -/
theorem Text.Quoted.read_append {quote : Char} (hq : quote ≠ '\\') {cs s rest : List Char}
    (h : read quote cs = some (s, rest)) (tail : List Char) :
    read quote (cs ++ tail) = some (s, rest ++ tail) := by
  fun_induction read quote cs generalizing s with
  | case1 => cases h
  | case2 d ds hd ih =>
    obtain ⟨t, ht, rfl⟩ := push_eq_some_iff.1 h
    rw [List.cons_append, List.cons_append, read, if_pos hd, ih ht, push, Option.map_some]
  | case3 d ds hd ih =>
    obtain ⟨t, ht, rfl⟩ := push_eq_some_iff.1 h
    obtain ⟨u, hu, rfl⟩ := push_eq_some_iff.1 ht
    rw [List.cons_append, List.cons_append, read, if_neg hd, ih hu]
    rfl
  | case4 =>
    cases h
    rw [List.cons_append, read.eq_def]
    simp [hq]
  | case5 c cs hno hc ih =>
    obtain ⟨t, ht, rfl⟩ := push_eq_some_iff.1 h
    have hb : c ≠ '\\' := by
      rintro rfl
      cases cs with
      | nil => cases ht
      | cons d ds => exact hno d ds rfl rfl
    rw [List.cons_append, read_cons hb hc, ih ht]
    rfl

namespace Token

/-- The character goes on with no token. -/
def breaks (c : Char) : Bool := !(continuesWord c || c = '=' || c = '>' || c = '+')

/-- The text is empty or starts with a character that goes on with no token. -/
def Breaks (text : List Char) : Prop := ∀ c ∈ text.head?, breaks c = true

theorem continuesWord_of_breaks {c : Char} (h : breaks c = true) : continuesWord c = false := by
  simp only [breaks, Bool.not_eq_true', Bool.or_eq_false_iff] at h
  exact h.1.1.1

theorem ne_of_breaks {c d : Char} (h : breaks c = true) (hd : breaks d = false) : c ≠ d := by
  rintro rfl
  rw [h] at hd
  cases hd

theorem continuesWord_of_isDigit {c : Char} (h : c.isDigit = true) : continuesWord c = true := by
  have hlt : c.toNat < 0x80 := by
    have := (Char.isDigit_iff_toNat.1 h).2
    have : '9'.toNat < 0x80 := by decide
    omega
  simp [continuesWord, Text.isAlphanumeric, Text.isNumeric, hlt, h]

theorem isDigit_of_breaks {c : Char} (h : breaks c = true) : c.isDigit = false := by
  cases hd : c.isDigit with
  | false => rfl
  | true => exact absurd (continuesWord_of_isDigit hd) (by simp [continuesWord_of_breaks h])

/-! ### Each kind of token in front of a text that breaks -/

section Kinds

variable {tail : List Char}

theorem NumberParts.readFraction_append (h : Breaks tail) (cs : List Char) :
    readFraction (cs ++ tail) = ((readFraction cs).1, (readFraction cs).2 ++ tail) := by
  cases cs with
  | nil =>
    cases tail with
    | nil => rfl
    | cons c tail =>
      have : c ≠ '.' := ne_of_breaks (h c rfl) (by decide)
      simp [readFraction, this]
  | cons c cs =>
    by_cases hc : c = '.'
    · subst hc
      have hd : ∀ y ∈ tail.head?, y.isDigit = false := fun y hy => isDigit_of_breaks (h y hy)
      simp only [List.cons_append, readFraction, takeWhile_append_of_head hd,
        dropWhile_append_of_head hd]
      split <;> rfl
    · simp [readFraction, hc]

theorem NumberParts.readSign_append (h : Breaks tail) (cs : List Char) :
    readSign (cs ++ tail) = ((readSign cs).1, (readSign cs).2 ++ tail) := by
  cases cs with
  | nil =>
    cases tail with
    | nil => rfl
    | cons c tail =>
      have hp : c ≠ '+' := ne_of_breaks (h c rfl) (by decide)
      have hm : c ≠ '-' := ne_of_breaks (h c rfl) (by decide)
      simp [readSign, hp, hm]
  | cons c cs =>
    simp only [List.cons_append, readSign]
    split <;> rfl

theorem NumberParts.readExponent_append (h : Breaks tail) (cs : List Char) :
    readExponent (cs ++ tail) =
      ((readExponent cs).1, (readExponent cs).2.1, (readExponent cs).2.2 ++ tail) := by
  cases cs with
  | nil =>
    cases tail with
    | nil => rfl
    | cons c tail =>
      have he : c ≠ 'e' := ne_of_breaks (h c rfl) (by decide)
      have hE : c ≠ 'E' := ne_of_breaks (h c rfl) (by decide)
      simp [readExponent, he, hE]
  | cons c cs =>
    have hd : ∀ y ∈ tail.head?, y.isDigit = false := fun y hy => isDigit_of_breaks (h y hy)
    simp only [List.cons_append, readExponent, readSign_append h, takeWhile_append_of_head hd,
      dropWhile_append_of_head hd]
    split <;> rfl

theorem NumberParts.readUnsigned_append (h : Breaks tail) (negative : Bool) (cs : List Char) :
    readUnsigned negative (cs ++ tail) =
      { readUnsigned negative cs with rest := (readUnsigned negative cs).rest ++ tail } := by
  have hd : ∀ y ∈ tail.head?, y.isDigit = false := fun y hy => isDigit_of_breaks (h y hy)
  simp only [readUnsigned, takeWhile_append_of_head hd, dropWhile_append_of_head hd,
    readFraction_append h, readExponent_append h]

theorem NumberParts.read_append (h : Breaks tail) {cs : List Char} (hne : cs ≠ []) :
    read (cs ++ tail) = { read cs with rest := (read cs).rest ++ tail } := by
  obtain ⟨c, cs, rfl⟩ := List.exists_cons_of_ne_nil hne
  by_cases hc : c = '-'
  · subst hc
    exact readUnsigned_append h true cs
  · have hread : ∀ us, read (c :: us) = readUnsigned false (c :: us) := by
      intro us
      rw [read]
      rintro vs e
      exact hc (List.cons.inj e).1
    rw [List.cons_append, hread, hread]
    exact readUnsigned_append h false (c :: cs)

theorem scanNumber_append (h : Breaks tail) {cs : List Char} (hne : cs ≠ []) :
    scanNumber (cs ++ tail) = ((scanNumber cs).1, (scanNumber cs).2 ++ tail) := by
  have hany : ((NumberParts.read cs).rest ++ tail).head?.any continuesWord =
      (NumberParts.read cs).rest.head?.any continuesWord := by
    cases (NumberParts.read cs).rest with
    | cons c rest => rfl
    | nil =>
      cases tail with
      | nil => rfl
      | cons c tail => simp [continuesWord_of_breaks (h c rfl)]
  simp only [scanNumber, NumberParts.read_append h hne, hany]
  rfl

theorem scanString_append {quote : Char} (hq : quote ≠ '\\') {cs rest : List Char}
    {a : Except TextFault Token} (h : scanString quote cs = (a, rest))
    (ha : a ≠ .error .unclosedString) (tail : List Char) :
    scanString quote (cs ++ tail) = (a, rest ++ tail) := by
  unfold scanString at h ⊢
  cases hr : Text.Quoted.read quote cs with
  | none =>
    rw [hr] at h
    exact absurd (congrArg Prod.fst h).symm ha
  | some r =>
    obtain ⟨s, u⟩ := r
    rw [Text.Quoted.read_append hq hr]
    simp only [hr, Prod.mk.injEq] at h ⊢
    exact ⟨h.1, h.2 ▸ rfl⟩

theorem scanRelation_append (h : Breaks tail) (c : Char) (cs : List Char) :
    scanRelation c (cs ++ tail) = (scanRelation c cs).map fun r => (r.1, r.2 ++ tail) := by
  cases cs with
  | cons d cs =>
    rw [List.cons_append]
    unfold scanRelation
    split <;> simp_all
  | nil =>
    cases tail with
    | nil => cases hr : scanRelation c [] <;> simp [hr]
    | cons d tail =>
      have he : d ≠ '=' := ne_of_breaks (h d rfl) (by decide)
      have hg : d ≠ '>' := ne_of_breaks (h d rfl) (by decide)
      unfold scanRelation
      split <;> simp_all

theorem scanFrom_append (h : Breaks tail) {c : Char} {cs rest : List Char}
    {a : Except TextFault Token} (hs : scanFrom c cs = (a, rest))
    (ha : a ≠ .error .unclosedString) : scanFrom c (cs ++ tail) = (a, rest ++ tail) := by
  have hw : ∀ y ∈ tail.head?, continuesWord y = false :=
    fun y hy => continuesWord_of_breaks (h y hy)
  have hhead : (cs ++ tail).head?.any Char.isDigit = cs.head?.any Char.isDigit := by
    cases cs with
    | cons d cs => rfl
    | nil =>
      cases tail with
      | nil => rfl
      | cons d tail => simp [isDigit_of_breaks (h d rfl)]
  unfold scanFrom at hs ⊢
  -- The kinds of tokens in the order in which they are tried; each stops in front of the tail.
  rw [scanRelation_append h, hhead]
  cases hm : mark? c with
  | some u =>
    simp only [hm, Prod.mk.injEq] at hs ⊢
    exact ⟨hs.1, hs.2 ▸ rfl⟩
  | none =>
    cases hr : scanRelation c cs with
    | some r =>
      simp only [hm, hr] at hs
      simp [hs]
    | none =>
      simp only [hm, hr, Option.map_none] at hs ⊢
      by_cases hq : c = '"' ∨ c = '\''
      · rw [if_pos (by simpa using hq)] at hs ⊢
        have : c ≠ '\\' := by
          rintro rfl
          exact absurd hq (by decide)
        exact scanString_append this hs ha tail
      · rw [if_neg (by simpa using hq)] at hs ⊢
        by_cases hd : (c.isDigit || c = '-' && cs.head?.any Char.isDigit) = true
        · rw [if_pos hd] at hs ⊢
          rw [← List.cons_append, scanNumber_append h (by simp), hs]
        · rw [if_neg hd] at hs ⊢
          by_cases hl : startsWord c = true
          · rw [if_pos hl] at hs ⊢
            rw [takeWhile_append_of_head hw, dropWhile_append_of_head hw]
            simp only [Prod.mk.injEq] at hs ⊢
            exact ⟨hs.1, hs.2 ▸ rfl⟩
          · rw [if_neg hl] at hs ⊢
            cases hs
            rfl

end Kinds

/-- **In front of a text that breaks, a token or a fault is read as if nothing followed**, if it is
not a string that is still open. -/
theorem next_append {text rest tail : List Char} {a : Except TextFault Token} (h : Breaks tail)
    (hn : next text = (a, rest)) (he : a ≠ .ok .eof) (ha : a ≠ .error .unclosedString) :
    next (text ++ tail) = (a, rest ++ tail) := by
  unfold next at hn
  cases hd : text.dropWhile Text.isBlank with
  | nil =>
    rw [hd] at hn
    cases hn
    exact absurd rfl he
  | cons c cs =>
    rw [hd] at hn
    unfold next
    rw [List.dropWhile_append, hd]
    exact scanFrom_append h hn ha

theorem scanFrom_ne_eof (c : Char) (cs : List Char) : (scanFrom c cs).1 ≠ .ok .eof := by
  unfold scanFrom
  split
  · rename_i t _ hm
    unfold mark? at hm
    split at hm <;> cases hm <;> simp
  · rename_i r _ hr
    unfold scanRelation at hr
    split at hr <;> cases hr <;> simp
  · split
    · unfold scanString
      split <;> simp
    · split
      · simp only [scanNumber]
        split
        · simp
        · split <;> simp
      · split <;> simp

/-- Only in front of nothing but blanks the end is seen. -/
theorem next_eq_eof {text : List Char} :
    (next text).1 = .ok .eof ↔ text.dropWhile Text.isBlank = [] := by
  unfold next
  cases text.dropWhile Text.isBlank with
  | nil => simp
  | cons c cs => simpa using scanFrom_ne_eof c cs

/-- Blanks are counted as far as the first token. -/
theorem indent_append {text : List Char} (h : (next text).1 ≠ .ok .eof) (tail : List Char) :
    indent (text ++ tail) = indent text := by
  have hne : text.dropWhile Text.isBlank ≠ [] := fun hd => h (next_eq_eof.2 hd)
  have := indent_add_length (text ++ tail)
  have := indent_add_length text
  simp only [List.dropWhile_append, List.isEmpty_iff, hne, if_false, List.length_append] at *
  omega

end Token

namespace Lexeme

theorem next_of_contents_nil {text : List Char} (h : Lexes text []) :
    (Token.next text).1 = .ok .eof := by
  have hc : contents text = [.ok .eof] := h
  rw [contents_eq] at hc
  cases hn : (Token.next text).1 with
  | error fault =>
    rw [hn] at hc
    cases hc
  | ok u =>
    rw [hn] at hc
    dsimp only at hc
    split at hc
    · rename_i hu
      rw [hu]
    · exact (List.cons.inj hc).1

theorem next_of_contents {text : List Char} {t : Token} {us : List (Except TextFault Token)}
    (h : contents text = .ok t :: us) (hus : us ≠ []) :
    ∃ rest, Token.next text = (.ok t, rest) ∧ t ≠ .eof ∧ contents rest = us := by
  rw [contents_eq] at h
  cases hn : (Token.next text).1 with
  | error fault =>
    rw [hn] at h
    cases h
  | ok u =>
    rw [hn] at h
    dsimp only at h
    split at h
    · cases h
      exact absurd rfl hus
    · rename_i he
      cases h
      exact ⟨(Token.next text).2, Prod.ext hn rfl, he, rfl⟩

/-- Blanks in front of a text only move it. -/
theorem readFrom_blanks {text : List Char} (h : text.dropWhile Text.isBlank = [])
    (position : Nat) (tail : List Char) :
    readFrom position (text ++ tail) = readFrom (position + text.length) tail := by
  have hn : Token.next (text ++ tail) = Token.next tail := by
    unfold Token.next
    rw [List.dropWhile_append, h]
    rfl
  have hi : Token.indent (text ++ tail) = text.length + Token.indent tail := by
    have hlen := Token.indent_add_length text
    rw [h] at hlen
    have := Token.indent_add_length (text ++ tail)
    have := Token.indent_add_length tail
    simp only [List.dropWhile_append, h, List.isEmpty_nil, if_true, List.length_append] at *
    omega
  cases ht : (Token.next tail).1 with
  | error fault =>
    rw [readFrom_eq, readFrom_eq _ tail, hn, ht, hi, Nat.add_assoc]
  | ok t =>
    by_cases he : t = .eof
    · simp [readFrom_eq, hn, ht, hi, he, Nat.add_assoc]
    · have hnext : Token.next tail = (.ok t, (Token.next tail).2) := Prod.ext ht rfl
      have hlt := Token.next_rest_length_lt ht he
      have hpos : position + ((text ++ tail).length - (Token.next tail).2.length) =
          position + text.length + (tail.length - (Token.next tail).2.length) := by
        rw [List.length_append]
        omega
      rw [readFrom_of_next _ (hn.trans hnext) he, readFrom_of_next _ hnext he, hi, hpos,
        ← Nat.add_assoc]

/-- Blanks in front of a text are not seen. -/
theorem contents_blanks {text : List Char} (h : text.dropWhile Text.isBlank = [])
    (tail : List Char) : contents (text ++ tail) = contents tail := by
  rw [contents, read, readFrom_blanks h, contents_of_readFrom]

/-- **A text that is read to its end is read in the same way in front of a text that breaks**, which
is then read behind it. -/
theorem readFrom_append {text tail : List Char} {ts : List Token} (hl : Lexes text ts)
    (h : Token.Breaks tail) (position : Nat) :
    ∃ ls, ls.map content = ts.map .ok ∧
      readFrom position text = ls ++ [⟨position + text.length, .ok .eof⟩] ∧
      readFrom position (text ++ tail) = ls ++ readFrom (position + text.length) tail := by
  induction ts generalizing text position with
  | nil =>
    have hblank := Token.next_eq_eof.1 (next_of_contents_nil hl)
    refine ⟨[], rfl, ?_, readFrom_blanks hblank position tail⟩
    have hnil := readFrom_blanks hblank position []
    rw [List.append_nil] at hnil
    rw [hnil, readFrom_eq]
    rfl
  | cons t ts ih =>
    obtain ⟨rest, hn, he, hr⟩ := next_of_contents hl (by simp)
    have hn' := Token.next_append h hn (by simpa using he) (by simp)
    have hlt : rest.length < text.length := by
      have := Token.next_rest_length_lt (congrArg Prod.fst hn) he
      rwa [hn] at this
    obtain ⟨ls, hls, hread, happend⟩ := ih hr (position + (text.length - rest.length))
    have hend : position + (text.length - rest.length) + rest.length = position + text.length := by
      omega
    have hindent : Token.indent (text ++ tail) = Token.indent text :=
      Token.indent_append (by rw [hn]; simpa using he) tail
    refine ⟨⟨position + Token.indent text, .ok t⟩ :: ls, by simp [hls], ?_, ?_⟩
    · rw [readFrom_of_next _ hn he, hread, hend]
      rfl
    · rw [readFrom_of_next _ hn' he, hindent, List.length_append, List.length_append,
        Nat.add_sub_add_right, happend, hend]
      rfl

theorem contents_append {text tail : List Char} {ts : List Token} (hl : Lexes text ts)
    (h : Token.Breaks tail) : contents (text ++ tail) = ts.map .ok ++ contents tail := by
  obtain ⟨ls, hls, -, happend⟩ := readFrom_append hl h 0
  rw [contents, read, happend, List.map_append, hls, contents_of_readFrom]

/-! ### Texts put together -/

section Together

variable {u v : List Char} {ts us : List Token}

theorem lexes_nil : Lexes [] [] := by
  rw [Lexes, contents_eq]
  rfl

/-- A text that is a single token. -/
theorem lexes_singleton {t : Token} (h : Token.next u = (.ok t, [])) (he : t ≠ .eof) :
    Lexes u [t] := by
  rw [Lexes, contents_of_next h he, lexes_nil]
  rfl

theorem breaks_cons {c : Char} (h : Token.breaks c = true) (cs : List Char) :
    Token.Breaks (c :: cs) := by
  intro d hd
  cases hd
  exact h

theorem Lexes.append (h : Lexes u ts) (h' : Lexes v us) (hv : Token.Breaks v) :
    Lexes (u ++ v) (ts ++ us) := by
  rw [Lexes, contents_append h hv, h', List.map_append, List.append_assoc]

/-- A text behind a mark. -/
theorem Lexes.mark {c : Char} {t : Token} (h : Lexes u ts)
    (hn : Token.next (c :: u) = (.ok t, u)) (he : t ≠ .eof) : Lexes (c :: u) (t :: ts) := by
  rw [Lexes, contents_of_next hn he, h]
  rfl

theorem Lexes.behindBlank (h : Lexes v us) : Lexes (' ' :: v) us :=
  (@contents_blanks [' '] (by decide) v).trans h

/-- Two texts with a blank between them. -/
theorem Lexes.blank (h : Lexes u ts) (h' : Lexes v us) : Lexes (u ++ ' ' :: v) (ts ++ us) := by
  exact h.append h'.behindBlank (breaks_cons (by decide) v)

/-- Two texts with a comma and a blank between them. -/
theorem Lexes.comma (h : Lexes u ts) (h' : Lexes v us) :
    Lexes (u ++ ',' :: ' ' :: v) (ts ++ .comma :: us) := by
  have hcomma : Lexes (',' :: ' ' :: v) (.comma :: us) := h'.behindBlank.mark rfl (by simp)
  exact h.append hcomma (breaks_cons (by decide) _)

/-- A text in brackets. -/
theorem Lexes.brackets (h : Lexes u ts) :
    Lexes ('[' :: (u ++ [']'])) (.leftBracket :: (ts ++ [.rightBracket])) :=
  (h.append (lexes_nil.mark rfl (by simp)) (breaks_cons (by decide) [])).mark rfl (by simp)

/-- A text in parentheses. -/
theorem Lexes.parentheses (h : Lexes u ts) :
    Lexes ('(' :: (u ++ [')'])) (.leftParen :: (ts ++ [.rightParen])) :=
  (h.append (lexes_nil.mark rfl (by simp)) (breaks_cons (by decide) [])).mark rfl (by simp)

end Together

end Lexeme
end SearchDsl
