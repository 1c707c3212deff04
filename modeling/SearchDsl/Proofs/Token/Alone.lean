import SearchDsl.Proofs.Number.Written
import SearchDsl.Proofs.Token.Plain

/-!
# Tokens by themselves

No kind of token is read differently because of what follows it, unless what follows goes on with
it. So a text can be cut off behind a token, and what is in front of the cut is that token alone:

* `Text.Quoted.read_cut` for strings, `Token.NumberParts.read_cut` for the parts of a number;
* `Token.scanFrom_cut` and `Token.next_cut` for tokens of all kinds.

Unlike in front of a text that breaks tokens, nothing is asked of the text behind the cut: it may
start with any character that the token does not go on with.
-/

namespace SearchDsl

/-! ### Lists that are cut off -/

section Cut

variable {α : Type} {p : α → Bool} {xs ys zs : List α}

theorem head_of_dropWhile (h : xs.dropWhile p = ys ++ zs) : ∀ y ∈ ys.head?, p y = false := by
  intro y hy
  cases ys with
  | nil => cases hy
  | cons x ys =>
    cases hy
    exact not_of_dropWhile_cons h

/-- The list is cut off somewhere behind its longest beginning in the class. -/
theorem span_cut (h : xs.dropWhile p = ys ++ zs) :
    xs = xs.takeWhile p ++ ys ++ zs ∧
      (xs.takeWhile p ++ ys).takeWhile p = xs.takeWhile p ∧
      (xs.takeWhile p ++ ys).dropWhile p = ys := by
  have hhead := head_of_dropWhile h
  obtain ⟨htake, hdrop⟩ := Token.takeWhile_takeWhile p xs
  refine ⟨?_, ?_, ?_⟩
  · rw [List.append_assoc, ← h, List.takeWhile_append_dropWhile]
  · rw [takeWhile_append_of_head hhead, htake]
  · rw [dropWhile_append_of_head hhead, hdrop, List.nil_append]

end Cut

/-- Without what follows it, a closed literal is closed and holds the same. -/
theorem Text.Quoted.read_cut {quote : Char} {cs s rest : List Char}
    (h : read quote cs = some (s, rest)) : ∃ u, cs = u ++ rest ∧ read quote u = some (s, []) := by
  fun_induction read quote cs generalizing s with
  | case1 => cases h
  | case2 d ds hd ih =>
    obtain ⟨t, ht, rfl⟩ := push_eq_some_iff.1 h
    obtain ⟨u, rfl, hu⟩ := ih ht
    refine ⟨'\\' :: d :: u, rfl, ?_⟩
    rw [read, if_pos hd, hu]
    rfl
  | case3 d ds hd ih =>
    obtain ⟨t, ht, rfl⟩ := push_eq_some_iff.1 h
    obtain ⟨v, hv, rfl⟩ := push_eq_some_iff.1 ht
    obtain ⟨u, rfl, hu⟩ := ih hv
    refine ⟨'\\' :: d :: u, rfl, ?_⟩
    rw [read, if_neg hd, hu]
    rfl
  | case4 =>
    cases h
    refine ⟨[quote], rfl, ?_⟩
    rw [read.eq_def]
    simp
  | case5 c cs hno hc ih =>
    obtain ⟨t, ht, rfl⟩ := push_eq_some_iff.1 h
    obtain ⟨u, rfl, hu⟩ := ih ht
    have hb : c ≠ '\\' := by
      rintro rfl
      cases u with
      | nil => cases hu
      | cons d ds => exact hno d (ds ++ rest) rfl rfl
    refine ⟨c :: u, rfl, ?_⟩
    rw [read_cons hb hc, hu]
    rfl

namespace Token

namespace NumberParts

/-- The text may be cut off anywhere behind its fraction. -/
theorem readFraction_cut {cs ds v tail : List Char} (h : readFraction cs = (ds, v ++ tail)) :
    ∃ u, cs = u ++ tail ∧ readFraction u = (ds, v) := by
  unfold readFraction at h
  split at h
  · rename_i cs
    dsimp only at h
    split at h
    · rename_i hempty
      obtain ⟨rfl, hrest⟩ := Prod.mk.inj h
      refine ⟨v, hrest, ?_⟩
      -- Behind the point there is no digit, nor is there one where the text is cut off earlier.
      cases v with
      | nil => rfl
      | cons c v =>
        obtain ⟨rfl, rfl⟩ := List.cons.inj hrest
        cases v with
        | nil => rfl
        | cons d v =>
          have hd : d.isDigit = false := by simpa using hempty
          simp [readFraction, hd]
    · rename_i hdigits
      obtain ⟨rfl, hrest⟩ := Prod.mk.inj h
      obtain ⟨hcs, htake, hdrop⟩ := span_cut hrest
      refine ⟨'.' :: (cs.takeWhile Char.isDigit ++ v), ?_, ?_⟩
      · rw [List.cons_append, ← hcs]
      · simp only [readFraction, htake, hdrop, hdigits]
        rfl
  · rename_i hpoint
    obtain ⟨rfl, rfl⟩ := Prod.mk.inj h
    refine ⟨v, rfl, ?_⟩
    cases v with
    | nil => rfl
    | cons c v =>
      have hc : c ≠ '.' := by
        rintro rfl
        exact hpoint _ rfl
      simp [readFraction, hc]

/-- The text may be cut off anywhere behind its sign. -/
theorem readSign_cut {cs sign v tail : List Char} (h : readSign cs = (sign, v ++ tail)) :
    cs = sign ++ v ++ tail ∧ readSign (sign ++ v) = (sign, v) := by
  unfold readSign at h
  split at h
  · rename_i c cs
    split at h
    · rename_i hsign
      obtain ⟨rfl, rfl⟩ := Prod.mk.inj h
      refine ⟨rfl, ?_⟩
      simp only [List.cons_append, List.nil_append, readSign, if_pos hsign]
    · rename_i hsign
      obtain ⟨rfl, hrest⟩ := Prod.mk.inj h
      refine ⟨hrest, ?_⟩
      cases v with
      | nil => rfl
      | cons d v =>
        obtain ⟨rfl, -⟩ := List.cons.inj hrest
        simp only [List.nil_append, readSign, if_neg hsign]
  · obtain ⟨rfl, hrest⟩ := Prod.mk.inj h
    obtain ⟨rfl, rfl⟩ := List.append_eq_nil_iff.1 hrest.symm
    exact ⟨rfl, rfl⟩

theorem readExponent_cut {cs mark ds tail : List Char} (h : readExponent cs = (mark, ds, tail)) :
    ∃ u, cs = u ++ tail ∧ readExponent u = (mark, ds, []) := by
  unfold readExponent at h
  split at h
  · rename_i c cs
    obtain ⟨sign, after, hsign⟩ : ∃ sign after, readSign cs = (sign, after) := ⟨_, _, rfl⟩
    rw [hsign] at h
    dsimp only at h
    split at h
    · rename_i hmark
      obtain ⟨rfl, rfl, hrest⟩ := by simpa only [Prod.mk.injEq] using h
      obtain ⟨hafter, htake, hdrop⟩ :=
        span_cut (show after.dropWhile Char.isDigit = [] ++ tail from hrest)
      rw [List.append_nil] at hafter htake hdrop
      rw [hafter] at hsign
      obtain ⟨rfl, hread⟩ := readSign_cut hsign
      refine ⟨c :: (sign ++ after.takeWhile Char.isDigit), by simp, ?_⟩
      simp only [readExponent, hread, htake, hdrop, hmark]
      rfl
    · obtain ⟨rfl, rfl, rfl⟩ := by simpa only [Prod.mk.injEq] using h
      exact ⟨[], rfl, rfl⟩
  · obtain ⟨rfl, rfl, rfl⟩ := by simpa only [Prod.mk.injEq] using h
    exact ⟨[], rfl, rfl⟩

theorem readUnsigned_cut (negative : Bool) (cs : List Char) :
    ∃ u, cs = u ++ (readUnsigned negative cs).rest ∧
      readUnsigned negative u = { readUnsigned negative cs with rest := [] } := by
  obtain ⟨ds, after, hfraction⟩ :
      ∃ ds after, readFraction (cs.dropWhile Char.isDigit) = (ds, after) := ⟨_, _, rfl⟩
  obtain ⟨mark, es, tail, hexponent⟩ : ∃ mark es tail, readExponent after = (mark, es, tail) :=
    ⟨_, _, _, rfl⟩
  have hparts : readUnsigned negative cs =
      ⟨negative, cs.takeWhile Char.isDigit, ds, mark, es, tail⟩ := by
    simp only [readUnsigned, hfraction, hexponent]
  -- From the end to the front: the cut is behind the exponent.
  obtain ⟨v, rfl, hv⟩ := readExponent_cut hexponent
  obtain ⟨w, hw, hread⟩ := readFraction_cut hfraction
  obtain ⟨hcs, htake, hdrop⟩ := span_cut hw
  refine ⟨cs.takeWhile Char.isDigit ++ w, by rw [hparts, ← hcs], ?_⟩
  rw [hparts]
  simp only [readUnsigned, htake, hdrop, hread, hv]

/-- **Without what follows it, a number has the same parts.** -/
theorem read_cut (cs : List Char) :
    ∃ u, cs = u ++ (read cs).rest ∧ read u = { read cs with rest := [] } := by
  by_cases hminus : ∃ us, cs = '-' :: us
  · obtain ⟨us, rfl⟩ := hminus
    obtain ⟨u, hu, hread⟩ := readUnsigned_cut true us
    exact ⟨'-' :: u, congrArg ('-' :: ·) hu, hread⟩
  · have hunsigned : ∀ us, (¬ ∃ vs, us = '-' :: vs) → read us = readUnsigned false us := by
      intro us hus
      rw [read]
      exact fun vs e => hus ⟨vs, e⟩
    obtain ⟨u, hu, hread⟩ := readUnsigned_cut false cs
    rw [hunsigned cs hminus]
    refine ⟨u, hu, ?_⟩
    rw [hunsigned u ?_, hread]
    rintro ⟨vs, rfl⟩
    exact hminus ⟨_, hu⟩

end NumberParts

/-! ### Tokens that are cut off -/

variable {c : Char} {cs text rest : List Char} {t : Token}

theorem scanNumber_cut (h : scanNumber cs = (.ok t, rest)) :
    ∃ u, cs = u ++ rest ∧ scanNumber u = (.ok t, []) := by
  obtain ⟨u, hu, hread⟩ := NumberParts.read_cut cs
  simp only [scanNumber, Prod.mk.injEq] at h
  obtain ⟨htoken, rfl⟩ := h
  refine ⟨u, hu, ?_⟩
  split at htoken
  · cases htoken
  · simp only [scanNumber, hread]
    exact congrArg (·, []) htoken

theorem scanString_cut {quote : Char} (h : scanString quote cs = (.ok t, rest)) :
    ∃ u, cs = u ++ rest ∧ scanString quote u = (.ok t, []) := by
  unfold scanString at h
  split at h
  · rename_i s rest' hread
    cases h
    obtain ⟨u, hu, hcut⟩ := Text.Quoted.read_cut hread
    exact ⟨u, hu, by simp [scanString, hcut]⟩
  · cases h

theorem scanRelation_cut (h : scanRelation c cs = some (.ok t, rest)) :
    ∃ u, cs = u ++ rest ∧ scanRelation c u = some (.ok t, []) := by
  unfold scanRelation at h
  split at h <;> cases h
  · exact ⟨['='], rfl, rfl⟩
  · exact ⟨[], rfl, rfl⟩
  · exact ⟨['='], rfl, rfl⟩
  · exact ⟨['>'], rfl, rfl⟩
  · exact ⟨[], rfl, rfl⟩
  · exact ⟨['='], rfl, rfl⟩

/-- A number starts with a digit, perhaps behind a minus sign, also when it is cut off. -/
theorem startsNumber_cut {u : List Char}
    (hc : c.isDigit = true ∨ c = '-' ∧ cs.head?.any Char.isDigit = true)
    (h : c :: cs = u ++ (NumberParts.read (c :: cs)).rest) :
    ∃ us, u = c :: us ∧ (c.isDigit = true ∨ c = '-' ∧ us.head?.any Char.isDigit = true) := by
  have hle : (NumberParts.read (c :: cs)).rest.length ≤ cs.length :=
    NumberParts.length_read_le (hc.imp_right And.left)
  cases u with
  | nil =>
    have hlen := congrArg List.length h
    simp only [List.nil_append, List.length_cons] at hlen
    omega
  | cons d us =>
    obtain ⟨rfl, hus⟩ := List.cons.inj h
    refine ⟨us, rfl, hc.imp_right fun ⟨hminus, hdigit⟩ => ⟨hminus, ?_⟩⟩
    subst hminus
    cases cs with
    | nil => cases hdigit
    | cons d ds =>
      cases us with
      | cons e us =>
        obtain ⟨rfl, -⟩ := List.cons.inj hus
        exact hdigit
      | nil =>
        -- The digit belongs to the number, so the number is not cut off in front of it.
        have hrest := NumberParts.length_readUnsigned_le true (d :: ds)
        rw [List.dropWhile_cons_of_pos (by simpa using hdigit)] at hrest
        have hdrop := length_dropWhile_le Char.isDigit ds
        have hall : d :: ds = (NumberParts.readUnsigned true (d :: ds)).rest := hus
        have hlen := congrArg List.length hall
        rw [List.length_cons] at hlen
        omega

/-- A token of any kind is read from its own characters. -/
theorem scanFrom_cut (hb : Text.isBlank c = false) (h : scanFrom c cs = (.ok t, rest)) :
    ∃ u, cs = u ++ rest ∧ scanFrom c u = (.ok t, []) := by
  unfold scanFrom at h
  split at h
  · rename_i s _ hm
    cases h
    exact ⟨[], rfl, by simp [scanFrom, hm]⟩
  · rename_i r hm hr
    subst h
    obtain ⟨u, hu, hcut⟩ := scanRelation_cut hr
    exact ⟨u, hu, by simp [scanFrom, hm, hcut]⟩
  · rename_i hm hr
    split at h
    · rename_i hq
      obtain ⟨u, hu, hcut⟩ := scanString_cut h
      exact ⟨u, hu, by simp only [scanFrom, hm, scanRelation_eq_none hr, if_pos hq, hcut]⟩
    · rename_i hq
      split at h
      · rename_i hd
        simp only [Bool.or_eq_true, Bool.and_eq_true, decide_eq_true_eq] at hd
        obtain ⟨v, hv, hcut⟩ := scanNumber_cut h
        have hrest : rest = (NumberParts.read (c :: cs)).rest := (congrArg Prod.snd h).symm
        obtain ⟨u, rfl, hu⟩ := startsNumber_cut hd (hrest ▸ hv)
        exact ⟨u, (List.cons.inj hv).2, by rw [scanFrom_number hu, hcut]⟩
      · rename_i hd
        split at h
        · rename_i hs
          cases h
          refine ⟨cs.takeWhile continuesWord, List.takeWhile_append_dropWhile.symm, ?_⟩
          have hword := next_word hb hm hr (by simpa using hq) (by simpa using hd) hs
          rwa [next, List.dropWhile_cons_of_neg (by simp [hb])] at hword
        · cases h

/-- **Behind the blanks stands what the token is read from**, and it is that token alone. -/
theorem next_cut (h : next text = (.ok t, rest)) (he : t ≠ .eof) :
    ∃ u, text.dropWhile Text.isBlank = u ++ rest ∧ next u = (.ok t, []) := by
  unfold next at h
  cases hd : text.dropWhile Text.isBlank with
  | nil =>
    rw [hd] at h
    cases h
    exact absurd rfl he
  | cons c cs =>
    rw [hd] at h
    have hb : Text.isBlank c = false := not_of_dropWhile_cons hd
    obtain ⟨u, rfl, hu⟩ := scanFrom_cut hb h
    refine ⟨c :: u, rfl, ?_⟩
    rw [next, List.dropWhile_cons_of_neg (by simp [hb])]
    exact hu

end Token
end SearchDsl
