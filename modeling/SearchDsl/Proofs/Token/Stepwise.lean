import Mathlib.Order.Bounds.Basic
import SearchDsl.Proofs.Outcome
import SearchDsl.Proofs.Token.Alone
import SearchDsl.Token.Stepwise

/-!
# What a lexer reports

A call of `Lexer.next` is described by the text alone, wherever the lexer stands:

* `Lexer.isLeast_start`: a token or a fault starts at the first character that is not a blank;
* `Lexer.exists_span`: a token ends where its characters end, and they are that token alone;
* `Lexer.exists_fault`: an error shows its fault at the place where it starts.

So each token brings the lexer further, but never beyond the text (`Lexer.Reachable.position_le`),
and the calls come to the end or to an error (`Lexer.exists_stop`). What the readers of the grammars
are given at once is what the calls return one after the other (`Lexer.next_of_readFrom`,
`Lexer.length_readFrom`).
-/

namespace SearchDsl

/-- At the position of the text there is a character that is not a blank. -/
def Text.NonBlankAt (text : List Char) (i : Nat) : Prop :=
  ∃ c, text[i]? = some c ∧ isBlank c = false

theorem Text.NonBlankAt.lt_length {text : List Char} {i : Nat} (h : NonBlankAt text i) :
    i < text.length := by
  obtain ⟨c, hc, -⟩ := h
  exact (List.getElem?_eq_some_iff.1 hc).1

/-- Behind the blanks in front of a text there is its first other character. -/
theorem Text.isLeast_nonBlankAt {text : List Char} (h : text.dropWhile isBlank ≠ []) :
    IsLeast {i | NonBlankAt text i} (Token.indent text) := by
  obtain ⟨c, cs, hd⟩ := List.exists_cons_of_ne_nil h
  have htext : text = text.takeWhile isBlank ++ c :: cs := by
    rw [← hd, List.takeWhile_append_dropWhile]
  constructor
  · have hc : text[Token.indent text]? = (text.takeWhile isBlank ++ c :: cs)[Token.indent text]? :=
      congrArg (·[Token.indent text]?) htext
    rw [Token.indent, List.getElem?_append_right (Nat.le_refl _), Nat.sub_self] at hc
    exact ⟨c, hc, not_of_dropWhile_cons hd⟩
  · rintro i ⟨d, hi, hblank⟩
    by_contra hlt
    rw [htext, List.getElem?_append_left (Nat.lt_of_not_le hlt)] at hi
    have hmem := List.mem_takeWhile_imp (List.mem_of_getElem? hi)
    rw [hblank] at hmem
    cases hmem

/-- Nothing is passed over that is not there. -/
theorem Token.scan_position_le (position : Nat) (text : List Char) :
    (scan position text).position ≤ position + text.length := by
  have hlen := indent_add_length text
  unfold scan
  rw [← indent]
  cases hd : text.dropWhile Text.isBlank with
  | nil =>
    dsimp only
    omega
  | cons c cs =>
    rw [hd] at hlen
    dsimp only
    omega

namespace Lexer

variable {l : Lexer} {t : Token} {e : Error}

/-! ### One call -/

theorem next_fst (l : Lexer) :
    l.next.1 = (Token.next l.rest).1.mapError (l.errorAt l.next.2.start) := by
  rw [← Token.scan_token l.position]
  rfl

theorem next_start (l : Lexer) : l.next.2.start = l.position + Token.indent l.rest :=
  Token.scan_start l.position l.rest

theorem next_eq_ok_iff : l.next.1 = .ok t ↔ (Token.next l.rest).1 = .ok t := by
  rw [next_fst, mapError_eq_ok]

/-- An error says which fault was found at the place where the last token starts. -/
theorem exists_fault (h : l.next.1 = .error e) :
    ∃ f, (Token.next l.rest).1 = .error f ∧ e = l.errorAt l.next.2.start f := by
  rw [next_fst] at h
  cases hf : (Token.next l.rest).1 with
  | ok t =>
    rw [hf] at h
    cases h
  | error f =>
    rw [hf] at h
    exact ⟨f, rfl, (Except.error.inj h).symm⟩

/-- **What is returned starts at the first character that is not a blank**, unless it is the end. -/
theorem isLeast_start (h : l.next.1 ≠ .ok .eof) :
    IsLeast {i | l.position ≤ i ∧ Text.NonBlankAt l.source i} l.next.2.start := by
  have hne : l.rest.dropWhile Text.isBlank ≠ [] := fun hd =>
    h (next_eq_ok_iff.2 (Token.next_eq_eof.2 hd))
  obtain ⟨⟨c, hc, hb⟩, hleast⟩ := Text.isLeast_nonBlankAt hne
  rw [next_start]
  refine ⟨⟨Nat.le_add_right _ _, c, ?_, hb⟩, ?_⟩
  · rwa [rest, List.getElem?_drop] at hc
  · rintro i ⟨hi, d, hd, hblank⟩
    -- The positions of what is left are those of the text, less what has been passed over.
    obtain ⟨j, rfl⟩ := Nat.exists_eq_add_of_le hi
    have hj : Text.NonBlankAt l.rest j := ⟨d, by rwa [rest, List.getElem?_drop], hblank⟩
    exact Nat.add_le_add_left (hleast hj) _

theorem drop_start (l : Lexer) :
    l.source.drop l.next.2.start = l.rest.dropWhile Text.isBlank := by
  rw [next_start, ← List.drop_drop]
  show l.rest.drop _ = _
  conv_lhs => rw [← List.takeWhile_append_dropWhile (p := Text.isBlank) (l := l.rest)]
  exact List.drop_left' (by rw [Token.indent, List.takeWhile_append_dropWhile])

/-- **A token ends where its characters end**, and they are that token alone. -/
theorem exists_span (h : l.next.1 = .ok t) (he : t ≠ .eof) :
    ∃ u, l.source.drop l.next.2.start = u ++ (Token.next l.rest).2 ∧ Token.next u = (.ok t, []) ∧
      u ≠ [] ∧ l.next.2.position = l.next.2.start + u.length := by
  have hn : Token.next l.rest = (.ok t, (Token.next l.rest).2) := Prod.ext (next_eq_ok_iff.1 h) rfl
  obtain ⟨u, hu, hcut⟩ := Token.next_cut hn he
  have hne : u ≠ [] := by
    rintro rfl
    exact he (Except.ok.inj (congrArg Prod.fst hcut)).symm
  have hscan : l.next.2.position = _ := Token.scan_position l.position hn
  have hlen := Token.indent_add_length l.rest
  rw [hu, List.length_append] at hlen
  refine ⟨u, l.drop_start.trans hu, hcut, hne, ?_⟩
  rw [hscan, next_start]
  omega

theorem next_rest (h : l.next.1 = .ok t) (he : t ≠ .eof) :
    l.next.2.rest = (Token.next l.rest).2 := by
  obtain ⟨u, hdrop, -, -, hposition⟩ := exists_span h he
  show l.source.drop l.next.2.position = _
  rw [hposition, ← List.drop_drop, hdrop, List.drop_left]

theorem start_lt_position (h : l.next.1 = .ok t) (he : t ≠ .eof) :
    l.next.2.start < l.next.2.position := by
  obtain ⟨u, -, -, hne, hposition⟩ := exists_span h he
  have := List.length_pos_iff.2 hne
  omega

theorem position_lt (h : l.next.1 = .ok t) (he : t ≠ .eof) : l.position < l.next.2.position := by
  have hlt := start_lt_position h he
  have hstart := l.next_start
  omega

/-- Behind the last token there is the end. -/
theorem next_of_rest_nil (h : l.rest = []) : l.next.1 = .ok .eof := by
  rw [next_eq_ok_iff, h]
  rfl

/-- The characters of a text from one position to another. -/
def span (text : String) (i j : Nat) : String := String.ofList (text.toList.extract i j)

theorem next_span {text : String} (hs : l.source = text.toList) (h : l.next.1 = .ok t)
    (he : t ≠ .eof) :
    Token.next (span text l.next.2.start l.next.2.position).toList = (.ok t, []) := by
  obtain ⟨u, hdrop, hcut, -, hposition⟩ := exists_span h he
  rw [span, String.toList_ofList, List.extract_eq_take_drop, ← hs, hdrop, hposition,
    Nat.add_sub_cancel_left, List.take_left, hcut]

/-- A text that is a single token is read as that token and its end. -/
theorem next_ofText {text : String} (h : Token.next text.toList = (.ok t, [])) (he : t ≠ .eof) :
    (ofText text).next.1 = .ok t ∧ (ofText text).next.2.next.1 = .ok .eof := by
  have ht : (ofText text).next.1 = .ok t := next_eq_ok_iff.2 (congrArg Prod.fst h)
  exact ⟨ht, next_of_rest_nil ((next_rest ht he).trans (congrArg Prod.snd h))⟩

/-- Looking at the next token changes nothing. -/
theorem peek_eq (l : Lexer) : l.peek = (l.next.1, l) := rfl

/-! ### Many calls -/

/-- The lexers that a new one can become, by calls of either kind. -/
inductive Reachable (text : String) : Lexer → Prop
  | new : Reachable text (ofText text)
  | next {l : Lexer} : Reachable text l → Reachable text l.next.2
  | peek {l : Lexer} : Reachable text l → Reachable text l.peek.2

variable {text : String}

theorem Reachable.source_eq (h : Reachable text l) : l.source = text.toList := by
  induction h with
  | new => rfl
  | next _ ih => exact ih
  | peek _ ih => exact ih

/-- One call stays within the text. -/
theorem next_position_le (h : l.position ≤ l.source.length) :
    l.next.2.position ≤ l.source.length := by
  have hle : l.next.2.position ≤ l.position + l.rest.length :=
    Token.scan_position_le l.position l.rest
  rw [rest, List.length_drop] at hle
  omega

/-- **All calls stay within the text.** -/
theorem Reachable.position_le (h : Reachable text l) : l.position ≤ text.length := by
  have hlen : l.source.length = text.length := by rw [h.source_eq, String.length_toList]
  rw [← hlen]
  clear hlen
  induction h with
  | new => exact Nat.zero_le _
  | next _ ih => exact next_position_le ih
  | peek _ ih => exact ih

/-- The lexer after `k` calls of `next`. -/
def after (l : Lexer) : Nat → Lexer
  | 0 => l
  | k + 1 => (l.after k).next.2

theorem after_next (l : Lexer) (k : Nat) : l.next.2.after k = l.after (k + 1) := by
  induction k with
  | zero => rfl
  | succ k ih => rw [after, ih, ← after]

theorem reachable_after (text : String) (k : Nat) : Reachable text ((ofText text).after k) := by
  induction k with
  | zero => exact .new
  | succ k ih => exact ih.next

/-- The next call returns a token in front of the end. -/
def Returns (l : Lexer) : Prop := ∃ t, l.next.1 = .ok t ∧ t ≠ .eof

theorem not_returns_iff : ¬ l.Returns ↔ l.next.1 = .ok .eof ∨ ∃ e, l.next.1 = .error e := by
  unfold Returns
  cases h : l.next.1 with
  | error e => simp
  | ok t => simp

/-- As many characters have been passed over as tokens have been returned, at least. -/
theorem le_position_after {k : Nat} (h : ∀ i < k, (l.after i).Returns) :
    k ≤ (l.after k).position := by
  induction k with
  | zero => exact Nat.zero_le _
  | succ k ih =>
    have hk := ih fun i hi => h i (Nat.lt_succ_of_lt hi)
    obtain ⟨t, ht, he⟩ := h k (Nat.lt_succ_self k)
    have hlt : (l.after k).position < (l.after (k + 1)).position := position_lt ht he
    omega

/-- **The calls come to the end or to an error**, after no more tokens than there are characters. -/
theorem exists_stop (text : String) : ∃ k ≤ text.length,
    (∀ i < k, ((ofText text).after i).Returns) ∧ ¬ ((ofText text).after k).Returns := by
  classical
  have hbound : ∀ k, (∀ i < k, ((ofText text).after i).Returns) → k ≤ text.length := fun k hk =>
    (le_position_after hk).trans (reachable_after text k).position_le
  have hstop : ∃ k, ¬ ((ofText text).after k).Returns := by
    -- Otherwise more characters would be passed over than there are.
    by_contra hall
    push Not at hall
    have := hbound (text.length + 1) fun i _ => hall i
    omega
  have hbefore : ∀ i < Nat.find hstop, ((ofText text).after i).Returns := fun i hi =>
    not_not.1 (Nat.find_min hstop hi)
  exact ⟨Nat.find hstop, hbound _ hbefore, hbefore, Nat.find_spec hstop⟩

/-! ### All lexemes at once -/

theorem readFrom_of_token (h : l.next.1 = .ok t) (he : t ≠ .eof) :
    Lexeme.readFrom l.position l.rest =
      ⟨l.next.2.start, .ok t⟩ :: Lexeme.readFrom l.next.2.position l.next.2.rest := by
  have hn : Token.next l.rest = (.ok t, (Token.next l.rest).2) := Prod.ext (next_eq_ok_iff.1 h) rfl
  have hscan : l.next.2.position = _ := Token.scan_position l.position hn
  rw [Lexeme.readFrom_of_next _ hn he, next_start, next_rest h he, hscan]

theorem readFrom_of_not_returns (h : ¬ l.Returns) :
    Lexeme.readFrom l.position l.rest = [⟨l.next.2.start, (Token.next l.rest).1⟩] := by
  rw [Lexeme.readFrom_eq, next_start]
  rcases not_returns_iff.1 h with hend | ⟨e, he⟩
  · rw [next_eq_ok_iff.1 hend]
    rfl
  · obtain ⟨f, hf, -⟩ := exists_fault he
    rw [hf]

/-- There are as many lexemes as calls, with the one that comes to the end or to an error. -/
theorem length_readFrom {k : Nat} (h : ∀ i < k, (l.after i).Returns)
    (hstop : ¬ (l.after k).Returns) : (Lexeme.readFrom l.position l.rest).length = k + 1 := by
  induction k generalizing l with
  | zero =>
    have hread := readFrom_of_not_returns (l := l) hstop
    rw [hread]
    rfl
  | succ k ih =>
    obtain ⟨t, ht, he⟩ := h 0 (Nat.succ_pos k)
    have hlater : ∀ i < k, (l.next.2.after i).Returns := fun i hi =>
      after_next l i ▸ h (i + 1) (Nat.succ_lt_succ hi)
    have hlength := ih hlater (after_next l k ▸ hstop)
    have hread := readFrom_of_token (l := l) ht he
    rw [hread, List.length_cons, hlength]

/-- **The lexemes of a text are what the calls return**, one after the other. -/
theorem next_of_readFrom {i : Nat} {x : Lexeme}
    (h : (Lexeme.readFrom l.position l.rest)[i]? = some x) :
    (l.after i).next.1 = x.content.mapError (l.errorAt x.start) ∧
      (l.after (i + 1)).start = x.start := by
  induction i generalizing l with
  | zero =>
    have hx : x = ⟨l.next.2.start, (Token.next l.rest).1⟩ := by
      by_cases hr : l.Returns
      · obtain ⟨t, ht, he⟩ := hr
        rw [readFrom_of_token ht he] at h
        rw [next_eq_ok_iff.1 ht]
        exact (Option.some.inj h).symm
      · rw [readFrom_of_not_returns hr] at h
        exact (Option.some.inj h).symm
    subst hx
    exact ⟨l.next_fst, rfl⟩
  | succ i ih =>
    by_cases hr : l.Returns
    · obtain ⟨t, ht, he⟩ := hr
      rw [readFrom_of_token ht he, List.getElem?_cons_succ] at h
      rw [← after_next, ← after_next]
      exact ih h
    · rw [readFrom_of_not_returns hr] at h
      cases h

end Lexer

/-- **A lexer moves on, and reports exactly where.** From the beginning of a text of `n` characters
it comes to the end or to an error after at most `n` tokens. Wherever calls have brought it, it is
within the text. A token that it returns has characters, the first of which is the first one from
the lexer's position on that is not a blank; by themselves they are read as that token and the end.
An error is reported at a character found in the same way, and shows at most 24 characters from
there on. Looking at the next token changes nothing. The readers are given what the calls return,
up to the end or the first error. -/
theorem Lexer.reports_exactly (text : String) :
    (∃ k ≤ text.length, (∀ i < k, ∃ t, ((ofText text).after i).next.1 = .ok t ∧ t ≠ .eof) ∧
      (((ofText text).after k).next.1 = .ok .eof ∨
        ∃ e, ((ofText text).after k).next.1 = .error e) ∧
      (Lexeme.read text.toList).length = k + 1) ∧
    (∀ l, Reachable text l → l.position ≤ text.length ∧
      (∀ t l', l.next = (.ok t, l') → t ≠ .eof →
        IsLeast {i | l.position ≤ i ∧ Text.NonBlankAt text.toList i} l'.start ∧
        l'.start < l'.position ∧
        (ofText (span text l'.start l'.position)).next.1 = .ok t ∧
        (ofText (span text l'.start l'.position)).next.2.next.1 = .ok .eof) ∧
      ∀ e l', l.next = (.error e, l') →
        IsLeast {i | l.position ≤ i ∧ Text.NonBlankAt text.toList i} l'.start ∧
        l'.start < text.length ∧
        ∃ f, e = .badText l'.start f (String.ofList ((text.toList.drop l'.start).take 24))) ∧
    (∀ l : Lexer, l.peek = (l.next.1, l)) ∧
    ∀ (i : Nat) (x : Lexeme), (Lexeme.read text.toList)[i]? = some x →
      ((ofText text).after i).next.1 = x.content.mapError ((ofText text).errorAt x.start) ∧
      ((ofText text).after (i + 1)).start = x.start := by
  refine ⟨?_, fun l hl => ⟨hl.position_le, ?_, ?_⟩, peek_eq, fun i x hx => next_of_readFrom hx⟩
  · obtain ⟨k, hk, hbefore, hstop⟩ := exists_stop text
    exact ⟨k, hk, hbefore, not_returns_iff.1 hstop, length_readFrom hbefore hstop⟩
  · rintro t l' h he
    have ht : l.next.1 = .ok t := congrArg Prod.fst h
    obtain rfl : l.next.2 = l' := congrArg Prod.snd h
    rw [← hl.source_eq]
    refine ⟨isLeast_start (by simpa [ht] using he), start_lt_position ht he, ?_⟩
    exact next_ofText (next_span hl.source_eq ht he) he
  · rintro e l' h
    have herror : l.next.1 = .error e := congrArg Prod.fst h
    obtain rfl : l.next.2 = l' := congrArg Prod.snd h
    obtain ⟨f, -, he⟩ := exists_fault herror
    have hleast := isLeast_start (l := l) (by simp [herror])
    have hlt := hleast.1.2.lt_length
    rw [hl.source_eq] at hleast hlt
    refine ⟨hleast, by rwa [String.length_toList] at hlt, f, ?_⟩
    rw [he, errorAt, hl.source_eq]
    rfl

/-- A mark behind a blank, and a string behind the mark that is left open. -/
theorem Lexer.reports_exactly_unclosed :
    (((ofText "a >'b").after 1).next.1 = .ok (.symbol .greater) ∧
      IsLeast {i | 1 ≤ i ∧ Text.NonBlankAt "a >'b".toList i} 2 ∧
      (ofText (span "a >'b" 2 3)).next.1 = .ok (.symbol .greater)) ∧
    (((ofText "a >'b").after 2).next.1 = .error (.badText 3 .unclosedString "'b") ∧
      IsLeast {i | 3 ≤ i ∧ Text.NonBlankAt "a >'b".toList i} 3) ∧
    ∃ x, (Lexeme.read "a >'b".toList)[1]? = some x ∧ x.start = 2 := by
  obtain ⟨-, hcalls, -, hread⟩ := reports_exactly "a >'b"
  have hone : (ofText "a >'b").after 1 = ⟨"a >'b".toList, 1, 0⟩ := by decide +kernel
  have htwo : (ofText "a >'b").after 2 = ⟨"a >'b".toList, 3, 2⟩ := by decide +kernel
  obtain ⟨-, htoken, -⟩ := hcalls _ (hone ▸ reachable_after "a >'b" 1)
  obtain ⟨-, -, herror⟩ := hcalls _ (htwo ▸ reachable_after "a >'b" 2)
  have hmark : (mk "a >'b".toList 1 0).next =
      (.ok (.symbol .greater), ⟨"a >'b".toList, 3, 2⟩) := rfl
  have hfault : (mk "a >'b".toList 3 2).next =
      (.error (.badText 3 .unclosedString "'b"), ⟨"a >'b".toList, 5, 3⟩) := rfl
  obtain ⟨hleast, -, hspan, -⟩ := htoken _ _ hmark (by simp)
  have hlen : 1 < (Lexeme.read "a >'b".toList).length := by decide +kernel
  have hx := List.getElem?_eq_getElem hlen
  have hstart := (hread 1 _ hx).2
  rw [htwo] at hstart
  rw [hone, htwo]
  exact ⟨⟨congrArg Prod.fst hmark, hleast, hspan⟩,
    ⟨congrArg Prod.fst hfault, (herror _ _ hfault).1⟩, _, hx, hstart.symm⟩

end SearchDsl
