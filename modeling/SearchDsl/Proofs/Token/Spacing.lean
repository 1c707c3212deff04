import Mathlib.Data.Prod.Basic
import SearchDsl.Proofs.Expr.Reading
import SearchDsl.Proofs.Facet.Grammar
import SearchDsl.Proofs.Sorting.Reading
import SearchDsl.Proofs.Text.Trim
import SearchDsl.Proofs.Token.Breaks

/-!
# Blanks between tokens

No token goes on with a blank, so a text can be taken apart and put together at its blanks:

* `Lexeme.Complete.spaced`: the tokens of two texts with blanks between them are those of the first
  and, further on, those of the second;
* `Lexeme.contents_append_blanks`: blanks at the end are not seen, not even behind a fault;
* `Lexeme.exists_lexes_of_start`: if a token starts behind blanks, the text in front of them is read
  to its end;
* `ReadAlike`: what follows for the readers of filters, sorts and facets.
-/

namespace SearchDsl

/-! ### Blanks -/

/-- No quotation mark is a blank. -/
theorem Text.Blanks.not_mem {w : List Char} (h : Blanks w) {q : Char} (hq : q = '"' ∨ q = '\'') :
    q ∉ w := by
  intro hmem
  rcases hq with rfl | rfl
  · exact absurd (h _ hmem) (by decide)
  · exact absurd (h _ hmem) (by decide)

theorem Token.breaks_of_isBlank {c : Char} (h : Text.isBlank c = true) : breaks c = true := by
  have hall : ∀ r ∈ Text.whiteSpace, ∀ k < r.2 + 1 - r.1, breaks (Char.ofNat (r.1 + k)) = true := by
    decide +kernel
  obtain ⟨r, hr, hlo, hhi⟩ := Text.CharSet.has_iff.1 h
  have := hall r hr (c.toNat - r.1) (by omega)
  rwa [Nat.add_sub_cancel' hlo, Char.ofNat_toNat] at this

/-- Blanks break tokens, whatever follows them. -/
theorem Token.breaks_blanks {w : List Char} (h : Text.Blanks w) (hne : w ≠ []) (v : List Char) :
    Breaks (w ++ v) := by
  obtain ⟨c, w, rfl⟩ := List.exists_cons_of_ne_nil hne
  exact Lexeme.breaks_cons (breaks_of_isBlank (h c List.mem_cons_self)) (w ++ v)

/-! ### Strings that are left open -/

namespace Text.Quoted

variable {q : Char} {cs s rest : List Char}

theorem push_eq_none_iff {c : Char} {r : Option (List Char × List Char)} :
    push c r = none ↔ r = none := by
  rw [push, Option.map_eq_none_iff]

/-- A backslash takes the next character with it. -/
theorem exists_read_of_backslash {d : Char} {ds : List Char}
    (h : read q ('\\' :: d :: ds) = some (s, rest)) : ∃ t, read q ds = some (t, rest) := by
  rw [read] at h
  split at h
  · obtain ⟨t, ht, -⟩ := push_eq_some_iff.1 h
    exact ⟨t, ht⟩
  · obtain ⟨t, ht, -⟩ := push_eq_some_iff.1 h
    obtain ⟨u, hu, -⟩ := push_eq_some_iff.1 ht
    exact ⟨u, hu⟩

/-- A literal that is closed ends with its mark. -/
theorem exists_quote_of_read (h : read q cs = some (s, rest)) :
    ∃ front, cs = front ++ q :: rest := by
  fun_induction read q cs generalizing s with
  | case1 => cases h
  | case2 d ds _ ih =>
    obtain ⟨t, ht, -⟩ := push_eq_some_iff.1 h
    obtain ⟨front, rfl⟩ := ih ht
    exact ⟨'\\' :: d :: front, rfl⟩
  | case3 d ds _ ih =>
    obtain ⟨t, ht, -⟩ := push_eq_some_iff.1 h
    obtain ⟨u, hu, -⟩ := push_eq_some_iff.1 ht
    obtain ⟨front, rfl⟩ := ih hu
    exact ⟨'\\' :: d :: front, rfl⟩
  | case4 cs =>
    cases h
    exact ⟨[], rfl⟩
  | case5 c cs _ _ ih =>
    obtain ⟨t, ht, -⟩ := push_eq_some_iff.1 h
    obtain ⟨front, rfl⟩ := ih ht
    exact ⟨c :: front, rfl⟩

/-- A literal that is left open is closed only by a mark in what follows. -/
theorem exists_quote_of_read_append {tail : List Char} (h : read q cs = none)
    (h' : read q (cs ++ tail) = some (s, rest)) : ∃ front, tail = front ++ q :: rest := by
  fun_induction read q cs generalizing s with
  | case1 => exact exists_quote_of_read h'
  | case2 d ds _ ih =>
    obtain ⟨t, ht⟩ := exists_read_of_backslash h'
    exact ih (push_eq_none_iff.1 h) ht
  | case3 d ds _ ih =>
    obtain ⟨t, ht⟩ := exists_read_of_backslash h'
    exact ih (push_eq_none_iff.1 (push_eq_none_iff.1 h)) ht
  | case4 => cases h
  | case5 c cs hno hc ih =>
    by_cases hb : c = '\\'
    · -- A backslash at the end takes the first character of what follows with it.
      subst hb
      cases cs with
      | cons d ds => exact absurd rfl (hno d ds rfl)
      | nil =>
        cases tail with
        | nil =>
          rw [List.append_nil, read, if_neg hc] at h'
          · cases h'
          · simp
        | cons d ds =>
          obtain ⟨t, ht⟩ := exists_read_of_backslash h'
          obtain ⟨front, rfl⟩ := exists_quote_of_read ht
          exact ⟨d :: front, rfl⟩
    · rw [List.cons_append, read_cons hb hc] at h'
      obtain ⟨t, ht, -⟩ := push_eq_some_iff.1 h'
      exact ih (push_eq_none_iff.1 h) ht

end Text.Quoted

namespace Token

/-- A string that is left open starts with a quotation mark that is not closed. -/
theorem quote_of_unclosed {c : Char} {cs : List Char}
    (h : (scanFrom c cs).1 = .error .unclosedString) :
    (c = '"' ∨ c = '\'') ∧ Text.Quoted.read c cs = none := by
  unfold scanFrom at h
  split at h
  · cases h
  · rename_i r _ hr
    unfold scanRelation at hr
    split at hr <;> cases hr <;> cases h
  · split at h
    · rename_i hq
      refine ⟨by simpa using hq, ?_⟩
      unfold scanString at h
      split at h
      · cases h
      · assumption
    · split at h
      · simp only [scanNumber] at h
        split at h
        · cases h
        · split at h <;> cases h
      · split at h <;> cases h

theorem scanFrom_quote {c : Char} (hc : c = '"' ∨ c = '\'') (cs : List Char) :
    scanFrom c cs = scanString c cs := by
  rcases hc with rfl | rfl <;> rfl

/-- A text with an open string, and what the string holds so far. -/
theorem next_of_unclosed {text : List Char} (h : (next text).1 = .error .unclosedString) :
    ∃ (q : Char) (cs : List Char), (q = '"' ∨ q = '\'') ∧ Text.Quoted.read q cs = none ∧
      ∀ tail, next (text ++ tail) = scanString q (cs ++ tail) := by
  unfold next at h
  cases hd : text.dropWhile Text.isBlank with
  | nil =>
    rw [hd] at h
    cases h
  | cons c cs =>
    rw [hd] at h
    obtain ⟨hq, hopen⟩ := quote_of_unclosed h
    refine ⟨c, cs, hq, hopen, fun tail => ?_⟩
    rw [← scanFrom_quote hq, next, List.dropWhile_append, hd]
    rfl

/-- Blanks at the end of a text do not change its first token or fault. -/
theorem next_append_blanks {w : List Char} (hw : Text.Blanks w) (text : List Char) :
    (next (text ++ w)).1 = (next text).1 := by
  by_cases hne : w = []
  · rw [hne, List.append_nil]
  by_cases he : (next text).1 = .ok .eof
  · have hnil : (text ++ w).dropWhile Text.isBlank = [] := by
      rw [List.dropWhile_append, next_eq_eof.1 he]
      exact hw.dropWhile_eq_nil
    rw [he, next_eq_eof.2 hnil]
  by_cases ha : (next text).1 = .error .unclosedString
  · obtain ⟨q, cs, hq, hopen, hnext⟩ := next_of_unclosed ha
    rw [ha, hnext]
    cases hr : Text.Quoted.read q (cs ++ w) with
    | none => simp [scanString, hr]
    | some r =>
      obtain ⟨front, rfl⟩ := Text.Quoted.exists_quote_of_read_append hopen hr
      exact absurd (by simp) (hw.not_mem hq)
  · have hbreaks : Breaks w := by simpa using breaks_blanks hw hne []
    rw [next_append hbreaks Prod.mk.eta.symm he ha]

end Token

namespace Lexeme

variable {u v w : List Char} {ls ks : List Lexeme}

/-- Blanks at the end of a text are not seen, whether all of it can be read or not. -/
theorem contents_append_blanks (hw : Text.Blanks w) (u : List Char) :
    contents (u ++ w) = contents u := by
  induction h : u.length using Nat.strongRecOn generalizing u with
  | ind n ih =>
    have hfirst := Token.next_append_blanks hw u
    cases hu : (Token.next u).1 with
    | error fault => rw [contents_eq, contents_eq u, hfirst, hu]
    | ok t =>
      by_cases he : t = .eof
      · rw [contents_eq, contents_eq u, hfirst, hu]
        simp [he]
      by_cases hne : w = []
      · rw [hne, List.append_nil]
      -- Behind a token the rest is shorter.
      have hbreaks : Token.Breaks w := by simpa using Token.breaks_blanks hw hne []
      have hnext : Token.next u = (.ok t, (Token.next u).2) := Prod.ext hu rfl
      have hlt := Token.next_rest_length_lt hu he
      rw [contents_of_next (Token.next_append hbreaks hnext (by simpa using he) (by simp)) he,
        contents_of_next hnext he, ih _ (h ▸ hlt) _ rfl]

/-! ### Texts that are read to their end -/

/-- The whole text is read, as the given lexemes; behind them there is its end. -/
def Complete (text : List Char) (ls : List Lexeme) : Prop :=
  read text = ls ++ [⟨text.length, .ok .eof⟩]

theorem complete_of_lexes {text : List Char} {ts : List Token} (h : Lexes text ts) :
    ∃ ls, ls.map content = ts.map .ok ∧ Complete text ls := by
  have hnil : Token.Breaks [] := by simp [Token.Breaks]
  obtain ⟨ls, hls, hread, -⟩ := readFrom_append h hnil 0
  exact ⟨ls, hls, by rw [Complete, read, hread, Nat.zero_add]⟩

/-- In front of the end there are tokens. -/
theorem Closed.exists_tokens {cs : List (Except TextFault Token)}
    (h : Closed (cs ++ [.ok .eof])) : ∃ ts : List Token, cs = ts.map .ok := by
  induction cs with
  | nil => exact ⟨[], rfl⟩
  | cons c cs ih =>
    rw [List.cons_append] at h
    generalize hds : cs ++ [.ok .eof] = ds at h
    cases h with
    | eof | fault => simp at hds
    | @cons t _ _ hrest =>
      obtain ⟨ts, rfl⟩ := ih (hds ▸ hrest)
      exact ⟨t :: ts, rfl⟩

theorem Complete.lexes (h : Complete u ls) :
    ∃ ts : List Token, ls.map content = ts.map .ok ∧ Lexes u ts := by
  have hcontents : contents u = ls.map content ++ [.ok .eof] := by
    rw [contents, h, List.map_append]
    rfl
  obtain ⟨ts, hts⟩ := (hcontents ▸ closed_contents u).exists_tokens
  exact ⟨ts, hts, by rw [Lexes, hcontents, hts]⟩

/-- **Texts with blanks between them are read one after the other.** -/
theorem Complete.spaced (hu : Complete u ls) (hv : Complete v ks) (hw : Text.Blanks w)
    (hne : w ≠ []) : Complete (u ++ w ++ v) (ls ++ ks.map (shift (u.length + w.length))) := by
  obtain ⟨ts, -, hlexes⟩ := hu.lexes
  obtain ⟨ls', -, hread, happend⟩ := readFrom_append hlexes (Token.breaks_blanks hw hne v) 0
  rw [Nat.zero_add] at hread happend
  obtain rfl : ls' = ls := (List.append_inj' (hread.symm.trans hu) rfl).1
  rw [Complete, read, List.append_assoc, happend, readFrom_blanks hw.dropWhile_eq_nil,
    readFrom_eq_map_read, hv, List.map_append, ← List.append_assoc]
  simp [shift, Nat.add_comm, Nat.add_left_comm]

/-! ### Blanks in a text -/

theorem le_start_of_mem_readFrom {position : Nat} {text : List Char} {l : Lexeme}
    (h : l ∈ readFrom position text) : position ≤ l.start := by
  rw [readFrom_eq_map_read] at h
  obtain ⟨k, -, rfl⟩ := List.mem_map.1 h
  exact Nat.le_add_left _ _

/-- What is read in a text but not first is read behind the first token. -/
theorem exists_next_of_mem_readFrom {position : Nat} {text : List Char} {l : Lexeme}
    (h : l ∈ readFrom position text) (hstart : l.start ≠ position + Token.indent text) :
    ∃ t rest, Token.next text = (.ok t, rest) ∧ t ≠ .eof ∧
      l ∈ readFrom (position + (text.length - rest.length)) rest := by
  have hfirst : ∀ a, l ≠ ⟨position + Token.indent text, a⟩ := by
    rintro a rfl
    exact hstart rfl
  cases ht : (Token.next text).1 with
  | error fault => simp [readFrom_eq, ht, hfirst] at h
  | ok t =>
    by_cases he : t = .eof
    · simp [readFrom_eq, ht, he, hfirst] at h
    · have hn : Token.next text = (.ok t, (Token.next text).2) := Prod.ext ht rfl
      rw [readFrom_of_next _ hn he, List.mem_cons] at h
      exact ⟨t, _, hn, he, h.resolve_left (hfirst _)⟩

/-- A string that is open in front of blanks is closed behind them, or not at all. -/
theorem length_lt_of_unclosed {t : Token} {rest : List Char} (hw : Text.Blanks w)
    (hu : (Token.next u).1 = .error .unclosedString)
    (h : Token.next (u ++ (w ++ v)) = (.ok t, rest)) : rest.length < v.length := by
  obtain ⟨q, cs, hq, hopen, hnext⟩ := Token.next_of_unclosed hu
  have hstill : Text.Quoted.read q (cs ++ w) = none := by
    rw [Option.eq_none_iff_forall_not_mem]
    rintro ⟨s, r⟩ hr
    obtain ⟨front, rfl⟩ := Text.Quoted.exists_quote_of_read_append hopen hr
    exact absurd (by simp) (hw.not_mem hq)
  rw [hnext, ← List.append_assoc] at h
  unfold Token.scanString at h
  split at h
  · rename_i s r hr
    cases h
    obtain ⟨front, rfl⟩ := Text.Quoted.exists_quote_of_read_append hstill hr
    simp only [List.length_append, List.length_cons]
    omega
  · cases h

/-- **If something starts behind blanks, the text in front of them is read to its end**: the blanks
do not belong to a token. -/
theorem exists_lexes_of_start (hw : Text.Blanks w) (hne : w ≠ []) {l : Lexeme} (position : Nat)
    (hl : l ∈ readFrom position (u ++ (w ++ v)))
    (hstart : l.start = position + (u.length + w.length)) : ∃ ts, Lexes u ts := by
  induction h : u.length using Nat.strongRecOn generalizing u position with
  | ind n ih =>
    by_cases he : (Token.next u).1 = .ok .eof
    · exact ⟨[], by rw [Lexes, contents_eq, he]; rfl⟩
    have hpos := List.length_pos_iff.2 hne
    have hindent := Token.indent_add_length u
    obtain ⟨t, rest, hn, ht, hmem⟩ := exists_next_of_mem_readFrom hl (by
      rw [hstart, Token.indent_append he]
      omega)
    by_cases ha : (Token.next u).1 = .error .unclosedString
    · have hlt := length_lt_of_unclosed hw ha hn
      have hle := le_start_of_mem_readFrom hmem
      simp only [List.length_append] at hle
      omega
    · have hbreaks := Token.breaks_blanks hw hne v
      have happend := Token.next_append hbreaks (Prod.mk.eta (p := Token.next u)).symm he ha
      obtain ⟨hfirst, hrest⟩ := Prod.mk.inj (happend.symm.trans hn)
      have hlt := Token.next_rest_length_lt hfirst ht
      subst hrest
      simp only [List.length_append, Nat.add_sub_add_right] at hmem
      obtain ⟨ts, hts⟩ := ih _ (h ▸ hlt) _ hmem (by omega) rfl
      refine ⟨t :: ts, ?_⟩
      rw [Lexes, contents_of_next (Prod.ext hfirst rfl) ht, hts]
      rfl

/-- **Which blanks stand between two tokens is not seen.** -/
theorem contents_respaced {w' : List Char} {ts : List Token} (hu : Lexes u ts) (hw : Text.Blanks w)
    (hne : w ≠ []) (hw' : Text.Blanks w') (hne' : w' ≠ []) :
    contents (u ++ (w ++ v)) = contents (u ++ (w' ++ v)) := by
  rw [contents_append hu (Token.breaks_blanks hw hne v),
    contents_append hu (Token.breaks_blanks hw' hne' v), contents_blanks hw.dropWhile_eq_nil,
    contents_blanks hw'.dropWhile_eq_nil]

end Lexeme

/-! ### The readers -/

/-- Both texts are accepted as filters, as sorts and as facets in the same cases, and with the same
results. -/
structure ReadAlike (text text' : String) : Prop where
  filter : ∀ (g : Grammar) (e : Expr), Expr.read g text = .ok e ↔ Expr.read g text' = .ok e
  sort : ∀ (schema : Option Snapshot) (s : Sorting),
    Sorting.read schema text = .ok s ↔ Sorting.read schema text' = .ok s
  facets : ∀ (schema : Option Snapshot) (f : Facets),
    Facets.read schema text = .ok f ↔ Facets.read schema text' = .ok f

/-- What a text is accepted as is up to its tokens. -/
theorem readAlike_of_contents {text text' : String}
    (h : Lexeme.contents text.toList = Lexeme.contents text'.toList) : ReadAlike text text' where
  filter g e := by simp only [Expr.read_eq_ok_iff, Lexeme.Lexes, h]
  sort schema s := by simp only [Sorting.read_eq_ok_iff, Lexeme.Lexes, h]
  facets schema f := by simp only [Facets.read_eq_ok_iff, Lexeme.Lexes, h]

/-- **Blanks only separate tokens.** Two texts that are read to their ends are read one after the
other if there are blanks between them, the second one with its positions moved. Blanks around a
text are never seen. Where something starts behind blanks, the text in front of them is read to its
end; and behind such a text other blanks never change what the whole text is accepted as: if there
are any, there may be any others. -/
theorem Lexeme.read_spaced :
    (∀ (u v w : List Char) (ls ks : List Lexeme), Complete u ls → Complete v ks →
      Text.Blanks w → w ≠ [] →
      Complete (u ++ w ++ v) (ls ++ ks.map (shift (u.length + w.length)))) ∧
    (∀ u w w' : List Char, Text.Blanks w → Text.Blanks w' →
      contents (w ++ u ++ w') = contents u) ∧
    (∀ u v w : List Char, Text.Blanks w → w ≠ [] →
      (∃ l ∈ read (u ++ w ++ v), l.start = (u ++ w).length) → ∃ ls, Complete u ls) ∧
    ∀ u v w w' : String, (∃ ls, Complete u.toList ls) → Text.Blanks w.toList → w ≠ "" →
      Text.Blanks w'.toList → w' ≠ "" → ReadAlike (u ++ w ++ v) (u ++ w' ++ v) := by
  refine ⟨fun u v w ls ks hu hv hw hne => hu.spaced hv hw hne, fun u w w' hw hw' => ?_,
    fun u v w hw hne ⟨l, hl, hstart⟩ => ?_,
    fun u v w w' ⟨ls, hu⟩ hw hne hw' hne' => readAlike_of_contents ?_⟩
  · rw [contents_append_blanks hw', contents_blanks hw.dropWhile_eq_nil]
  · rw [List.append_assoc] at hl
    obtain ⟨ts, hts⟩ := exists_lexes_of_start hw hne 0 hl (by simpa using hstart)
    obtain ⟨ls, -, hls⟩ := complete_of_lexes hts
    exact ⟨ls, hls⟩
  · obtain ⟨ts, -, hts⟩ := hu.lexes
    simp only [String.toList_append, List.append_assoc]
    exact contents_respaced hts hw (by simpa using hne) hw' (by simpa using hne')

/-- Marks that would be one token without the blanks between them, here a no-break space and a line
break; a string that is left open in front of blanks; and other blanks in front of a literal. -/
theorem Lexeme.read_spaced_marks :
    let blanks := "\u00a0\n"
    (∃ ls ks : List Lexeme, ks.map start = [0, 2] ∧
      Complete ("a >".toList ++ blanks.toList ++ "= 'b c'".toList) (ls ++ ks.map (shift 5))) ∧
    contents (blanks.toList ++ "'open".toList ++ blanks.toList) = [.error .unclosedString] ∧
    (Expr.read ⟨none, 1⟩ ("a >" ++ " " ++ "'b c'")).isOk = true ∧
    ReadAlike ("a >" ++ " " ++ "'b c'") ("a >" ++ blanks ++ "'b c'") := by
  intro blanks
  obtain ⟨hspaced, haround, hstart, hbehind⟩ := read_spaced
  have hblanks : Text.Blanks blanks.toList := by
    rw [Text.Blanks, ← List.all_eq_true]
    decide
  have hblank : Text.Blanks " ".toList := by
    rw [Text.Blanks, ← List.all_eq_true]
    decide
  have hv : Lexes "= 'b c'".toList [.symbol .equals, .string "b c"] :=
    Lexes.blank (u := ['=']) (v := "'b c'".toList) (lexes_singleton rfl (by simp))
      (lexes_singleton rfl (by simp))
  -- The literal behind the first text shows that this text can be read to its end.
  obtain ⟨ls, hls⟩ : ∃ ls, Complete "a >".toList ls := by
    have hany : (read ("a >".toList ++ " ".toList ++ "'b c'".toList)).any
        (fun l => l.start == 4) = true := by decide +kernel
    obtain ⟨l, hl, hfour⟩ := List.any_eq_true.1 hany
    exact hstart _ _ _ hblank (by decide) ⟨l, hl, by simpa using hfour⟩
  obtain ⟨ks, -, hks⟩ := complete_of_lexes hv
  have hstarts : (read "= 'b c'".toList).map start = [0, 2, 7] := by decide +kernel
  rw [hks, List.map_append] at hstarts
  have hfive : "a >".toList.length + blanks.toList.length = 5 := by decide
  refine ⟨⟨ls, ks, (List.append_inj' hstarts rfl).1, hfive ▸
    hspaced _ _ _ ls ks hls hks hblanks (by decide)⟩, ?_, by decide +kernel,
    hbehind _ _ _ _ ⟨ls, hls⟩ hblank (by decide) hblanks (by decide)⟩
  rw [haround _ _ _ hblanks hblanks, contents_eq]
  rfl

end SearchDsl
