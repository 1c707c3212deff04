import SearchDsl.Token.Lexer

/-!
# The tokens of a text

What is read from a text does not depend on where it stands, so the positions are left out here:

* `Token.next` is the first token of a text and what follows it; with it, `Lexeme.readFrom_add` says
  that a text is read in the same way everywhere, apart from the positions;
* `Lexeme.contents` lists the tokens, up to the end or the first fault, and `Lexeme.Closed` says
  that such a list goes on to its end or to a fault, and no further;
* `Lexeme.Lexes text ts` says that the whole text is read, as the tokens `ts`.
-/

namespace SearchDsl

namespace Token

/-- The token at the front of a text, and what follows it. -/
def next (text : List Char) : Except TextFault Token × List Char :=
  match text.dropWhile Text.isBlank with
  | [] => (.ok .eof, [])
  | c :: cs => scanFrom c cs

theorem scan_token (position : Nat) (text : List Char) :
    (scan position text).token = (next text).1 := by
  unfold scan next
  cases text.dropWhile Text.isBlank <;> simp

theorem scan_rest (position : Nat) (text : List Char) :
    (scan position text).rest = (next text).2 := by
  unfold scan next
  cases text.dropWhile Text.isBlank <;> simp

/-- How many blanks stand in front of the text. -/
def indent (text : List Char) : Nat := (text.takeWhile Text.isBlank).length

theorem scan_start (position : Nat) (text : List Char) :
    (scan position text).start = position + indent text := by
  unfold scan indent
  cases text.dropWhile Text.isBlank <;> simp

theorem indent_add_length (text : List Char) :
    indent text + (text.dropWhile Text.isBlank).length = text.length := by
  rw [indent, ← List.length_append, List.takeWhile_append_dropWhile]

/-- Behind a token as many characters have been passed over as are no longer left. -/
theorem scan_position {text rest : List Char} {t : Token} (position : Nat)
    (h : next text = (.ok t, rest)) :
    (scan position text).position = position + (text.length - rest.length) := by
  have hlen := indent_add_length text
  unfold next at h
  unfold scan
  rw [← indent]
  cases hd : text.dropWhile Text.isBlank with
  | nil =>
    rw [hd] at h hlen
    cases h
    simpa using hlen
  | cons c cs =>
    rw [hd] at h hlen
    dsimp only at h ⊢
    have hle : rest.length ≤ cs.length := by
      have := length_scanFrom_le (congrArg Prod.fst h)
      rwa [h] at this
    simp only [h, List.length_cons] at hlen ⊢
    omega

theorem next_rest_length_lt {text : List Char} {t : Token} (h : (next text).1 = .ok t)
    (he : t ≠ .eof) : (next text).2.length < text.length := by
  rw [← scan_token 0] at h
  rw [← scan_rest 0]
  exact length_scan_lt h he

end Token

namespace Lexeme

/-- The tokens of a text, up to the end or the first fault. -/
def contents (text : List Char) : List (Except TextFault Token) := (read text).map content

/-- The lexeme, with `n` more characters in front of its text. -/
def shift (n : Nat) (l : Lexeme) : Lexeme := ⟨l.start + n, l.content⟩

theorem readFrom_eq (position : Nat) (text : List Char) :
    readFrom position text = match (Token.next text).1 with
      | .error fault => [⟨position + Token.indent text, .error fault⟩]
      | .ok t =>
        if t = .eof then [⟨position + Token.indent text, .ok .eof⟩]
        else ⟨position + Token.indent text, .ok t⟩ ::
          readFrom (Token.scan position text).position (Token.next text).2 := by
  rw [readFrom, ← Token.scan_token position, ← Token.scan_rest position,
    ← Token.scan_start position]
  dsimp only
  split
  · rename_i h
    simp [h]
  · rename_i t h
    rw [h]
    rfl

/-- A token in front of a text is at the end of the blanks there, and the rest is read behind it. -/
theorem readFrom_of_next {text rest : List Char} {t : Token} (position : Nat)
    (h : Token.next text = (.ok t, rest)) (he : t ≠ .eof) :
    readFrom position text = ⟨position + Token.indent text, .ok t⟩ ::
      readFrom (position + (text.length - rest.length)) rest := by
  rw [readFrom_eq, h, ← Token.scan_position position h]
  simp [he]

/-- **What is read does not depend on where the text stands**, apart from the positions. -/
theorem readFrom_add (n position : Nat) (text : List Char) :
    readFrom (position + n) text = (readFrom position text).map (shift n) := by
  induction h : text.length using Nat.strongRecOn generalizing position text with
  | ind k ih =>
    cases ht : (Token.next text).1 with
    | error fault =>
      rw [readFrom_eq, readFrom_eq position, ht]
      simp [shift, Nat.add_right_comm]
    | ok t =>
      by_cases he : t = .eof
      · rw [readFrom_eq, readFrom_eq position, ht]
        simp [he, shift, Nat.add_right_comm]
      · have hn : Token.next text = (.ok t, (Token.next text).2) := Prod.ext ht rfl
        have hlt := Token.next_rest_length_lt ht he
        rw [readFrom_of_next _ hn he, readFrom_of_next _ hn he, List.map_cons, shift,
          Nat.add_right_comm position n, Nat.add_right_comm position n, ih _ (h ▸ hlt) _ _ rfl]

theorem readFrom_eq_map_read (position : Nat) (text : List Char) :
    readFrom position text = (read text).map (shift position) := by
  rw [read, ← readFrom_add, Nat.zero_add]

/-- The tokens do not depend on where the text stands. -/
theorem contents_of_readFrom (position : Nat) (text : List Char) :
    (readFrom position text).map content = contents text := by
  rw [readFrom_eq_map_read, List.map_map, contents]
  rfl

theorem contents_eq (text : List Char) :
    contents text = match (Token.next text).1 with
      | .error fault => [.error fault]
      | .ok t => if t = .eof then [.ok .eof] else .ok t :: contents (Token.next text).2 := by
  rw [contents, read, readFrom_eq]
  cases (Token.next text).1 with
  | error fault => rfl
  | ok t =>
    dsimp only
    split
    · rfl
    · rw [List.map_cons, contents_of_readFrom]

theorem contents_of_next {text rest : List Char} {t : Token}
    (h : Token.next text = (.ok t, rest)) (he : t ≠ .eof) :
    contents text = .ok t :: contents rest := by
  rw [contents_eq, h]
  simp [he]

/-- The list ends with the end of the text or with a fault, and only there. -/
inductive Closed : List (Except TextFault Token) → Prop
  | eof : Closed [.ok .eof]
  | fault (f : TextFault) : Closed [.error f]
  | cons {t : Token} {rest : List (Except TextFault Token)} :
      t ≠ .eof → Closed rest → Closed (.ok t :: rest)

theorem closed_contents (text : List Char) : Closed (contents text) := by
  induction h : text.length using Nat.strongRecOn generalizing text with
  | ind n ih =>
    rw [contents_eq]
    cases ht : (Token.next text).1 with
    | error fault => exact .fault fault
    | ok t =>
      dsimp only
      split
      · exact .eof
      · rename_i he
        exact .cons he (ih _ (h ▸ Token.next_rest_length_lt ht he) _ rfl)

/-- The whole text is read, as the given tokens. -/
def Lexes (text : List Char) (ts : List Token) : Prop :=
  contents text = ts.map .ok ++ [.ok .eof]

theorem Lexes.unique {text : List Char} {ts us : List Token} (h : Lexes text ts)
    (h' : Lexes text us) : ts = us := by
  have := h.symm.trans h'
  rw [List.append_left_inj] at this
  exact (List.map_inj_right fun _ _ => Except.ok.inj).1 this

/-- A text that is read to its end, with a token found in it. -/
theorem lexes_of_contents {text : List Char} {us : List Token} {t : Token}
    {rest : List (Except TextFault Token)} {ts : List Token} (h : Lexes text ts)
    (hc : contents text = us.map .ok ++ .ok t :: rest) (ht : t ≠ .eof) :
    ∃ vs, ts = us ++ t :: vs ∧ rest = vs.map .ok ++ [.ok .eof] := by
  have heq : ts.map .ok ++ [.ok .eof] = us.map .ok ++ .ok t :: rest := h.symm.trans hc
  clear h hc
  induction us generalizing ts with
  | nil =>
    cases ts with
    | nil =>
      cases heq
      exact absurd rfl ht
    | cons u ts =>
      cases heq
      exact ⟨ts, rfl, rfl⟩
  | cons u us ih =>
    cases ts with
    | nil =>
      cases us <;> cases heq
    | cons v ts =>
      obtain ⟨hv, hrest⟩ := List.cons.inj heq
      cases hv
      obtain ⟨vs, rfl, hvs⟩ := ih hrest
      exact ⟨vs, rfl, hvs⟩

end Lexeme
end SearchDsl
