import SearchDsl.Proofs.Expr.Grammar

/-!
# Phrases

The grammar of expressions before any filter is made, with one kind of phrase for each of its rules:

* an expression is a phrase and any further phrases, each behind a connective;
* a phrase is a name, an operator and a literal, or an expression in parentheses, with or without a
  NOT in front.

`Phrase.Derives`, `Phrase.Joined` and `Phrase.Expression` say which tokens write which phrases, so
that the phrases are the derivation.

Tokens write the phrases of at most one expression (`Phrase.Expression.unique`): a literal and a
phrase end where their own tokens tell (`Delimited`), a list with commas and an expression end where
no comma and no connective follows.
-/

namespace SearchDsl

/-- A filter as it is written. -/
structure Filter.Draft where
  name : String
  operator : Operator
  literal : Value

/-- An item as it is written. -/
inductive Phrase
  | filter (join : Option Connective) (negated : Bool) (draft : Filter.Draft)
  | group (join : Option Connective) (negated : Bool) (phrases : List Phrase)

namespace Phrase

mutual

/-- The tokens write the phrase, which comes after the given connective. -/
inductive Derives : Option Connective → List Token → Phrase → Prop
  | filter {join : Option Connective} {ns vs : List Token} {negated : Bool} {name : String}
      {t : Token} {op : Operator} {v : Value} :
      Token.Negation ns negated → Token.IsFieldName name → t.Operates op →
      Value.Derives 2 vs v →
      Derives join (ns ++ .word name :: t :: vs) (.filter join negated ⟨name, op, v⟩)
  | group {join : Option Connective} {ns ts : List Token} {negated : Bool} {ps : List Phrase} :
      Token.Negation ns negated → Expression ts ps →
      Derives join (ns ++ .leftParen :: (ts ++ [.rightParen])) (.group join negated ps)

/-- The tokens write the phrases, each after its connective. -/
inductive Joined : List Token → List Phrase → Prop
  | nil : Joined [] []
  | cons {w : String} {c : Connective} {ts us : List Token} {p : Phrase} {ps : List Phrase} :
      Connective.ofWord? w = some c → Derives (some c) ts p → Joined us ps →
      Joined (.word w :: (ts ++ us)) (p :: ps)

/-- The tokens write the phrases of an expression. -/
inductive Expression : List Token → List Phrase → Prop
  | intro {ts us : List Token} {p : Phrase} {ps : List Phrase} :
      Derives none ts p → Joined us ps → Expression (ts ++ us) (p :: ps)

end

end Phrase

/-! ### Where the parts of a row of tokens end -/

/-- The tokens of an element tell where it ends and which one it is, whatever follows. -/
def Delimited {α : Type} (P : List Token → α → Prop) : Prop :=
  ∀ ⦃ts ts' us us' : List Token⦄ ⦃a a' : α⦄, P ts a → P ts' a' → ts ++ us = ts' ++ us' →
    ts = ts' ∧ a = a'

/-- A list with commas ends where no comma follows. -/
theorem Separated.append_inj {α : Type} {P : List Token → α → Prop} (hP : Delimited P)
    {ts ts' us us' : List Token} {as as' : List α} (h : Separated P ts as)
    (h' : Separated P ts' as') (he : ts ++ us = ts' ++ us') (hu : us.head? ≠ some .comma)
    (hu' : us'.head? ≠ some .comma) : ts = ts' ∧ as = as' := by
  induction h generalizing ts' as' with
  | one ha =>
    cases h' with
    | one ha' =>
      obtain ⟨rfl, rfl⟩ := hP ha ha' he
      exact ⟨rfl, rfl⟩
    | more ha' _ =>
      rw [List.append_assoc] at he
      obtain ⟨rfl, -⟩ := hP ha ha' he
      exact absurd (congrArg List.head? (List.append_cancel_left he)) hu
  | more ha has ih =>
    cases h' with
    | one ha' =>
      rw [List.append_assoc] at he
      obtain ⟨rfl, -⟩ := hP ha ha' he
      exact absurd (congrArg List.head? (List.append_cancel_left he)).symm hu'
    | more ha' has' =>
      rw [List.append_assoc, List.append_assoc] at he
      obtain ⟨rfl, rfl⟩ := hP ha ha' he
      have hrest := (List.cons.inj (List.append_cancel_left he)).2
      obtain ⟨rfl, rfl⟩ := ih has' hrest
      exact ⟨rfl, rfl⟩

namespace Value

theorem delimited_scalar : Delimited fun ts v => ∃ t, ts = [t] ∧ t.Writes v := by
  rintro ts ts' us us' v v' ⟨t, rfl, ht⟩ ⟨t', rfl, ht'⟩ he
  obtain rfl := (List.cons.inj he).1
  exact ⟨rfl, ht.unique ht'⟩

/-- A literal is no beginning of another one. -/
theorem delimited (levels : Nat) : Delimited (Derives levels) := by
  induction levels with
  | zero => exact delimited_scalar
  | succ levels ih =>
    intro ts ts' us us' v v' h h' he
    -- The first token tells a scalar from a list.
    rcases h with h | ⟨vs, items, rfl, rfl, hs⟩
    · rcases h' with h' | ⟨vs', items', rfl, rfl, -⟩
      · exact delimited_scalar h h' he
      · obtain ⟨t, rfl, ht⟩ := h
        obtain rfl := (List.cons.inj he).1
        cases ht
    · rcases h' with ⟨t', rfl, ht'⟩ | ⟨vs', items', rfl, rfl, hs'⟩
      · obtain rfl := (List.cons.inj he).1
        cases ht'
      · simp only [List.cons_append, List.append_assoc, List.cons.injEq, true_and] at he
        -- The bracket behind the items is no comma.
        obtain ⟨rfl, rfl⟩ := hs.append_inj ih hs' he (by simp) (by simp)
        exact ⟨rfl, rfl⟩

end Value

/-- A NOT in front of something that is none. -/
theorem Token.Negation.append_inj {ns ns' us us' : List Token} {negated negated' : Bool}
    {t t' : Token} (h : Negation ns negated) (h' : Negation ns' negated')
    (he : ns ++ t :: us = ns' ++ t' :: us') (ht : t.isKeyword "NOT" = false)
    (ht' : t'.isKeyword "NOT" = false) : ns = ns' ∧ negated = negated' ∧ t = t' ∧ us = us' := by
  cases h with
  | absent =>
    cases h' with
    | absent =>
      obtain ⟨rfl, rfl⟩ := List.cons.inj he
      exact ⟨rfl, rfl, rfl, rfl⟩
    | present hn =>
      obtain ⟨rfl, -⟩ := List.cons.inj he
      rw [hn] at ht
      cases ht
  | present hn =>
    cases h' with
    | absent =>
      obtain ⟨rfl, -⟩ := List.cons.inj he
      rw [hn] at ht'
      cases ht'
    | present _ =>
      simp only [List.cons_append, List.nil_append, List.cons.injEq] at he
      obtain ⟨rfl, rfl, rfl⟩ := he
      exact ⟨rfl, rfl, rfl, rfl⟩

namespace Phrase

/-- No connective follows. -/
def Ends (us : List Token) : Prop := ∀ w vs, us = .word w :: vs → Connective.ofWord? w = none

theorem isKeyword_leftParen : Token.leftParen.isKeyword "NOT" = false := rfl

theorem isKeyword_name {w : String} (h : Token.IsFieldName w) :
    (Token.word w).isKeyword "NOT" = false := h.1 "NOT" (by decide)

mutual

theorem Derives.append_inj {join : Option Connective} {ts ts' us us' : List Token}
    {p p' : Phrase} : Derives join ts p → Derives join ts' p' → ts ++ us = ts' ++ us' →
      ts = ts' ∧ p = p'
  | .filter hn hname ht hv, .filter hn' hname' ht' hv', he => by
    simp only [List.append_assoc, List.cons_append] at he
    obtain ⟨rfl, rfl, hw, hrest⟩ :=
      hn.append_inj hn' he (isKeyword_name hname) (isKeyword_name hname')
    obtain rfl := Token.word.inj hw
    obtain ⟨rfl, hliteral⟩ := List.cons.inj hrest
    rw [Token.operates_iff] at ht ht'
    obtain rfl := Option.some.inj (ht.symm.trans ht')
    obtain ⟨rfl, rfl⟩ := Value.delimited _ hv hv' hliteral
    exact ⟨rfl, rfl⟩
  | .filter hn hname _ _, .group hn' _, he => by
    simp only [List.append_assoc, List.cons_append] at he
    obtain ⟨-, -, hw, -⟩ := hn.append_inj hn' he (isKeyword_name hname) isKeyword_leftParen
    cases hw
  | .group hn _, .filter hn' hname' _ _, he => by
    simp only [List.append_assoc, List.cons_append] at he
    obtain ⟨-, -, hw, -⟩ := hn.append_inj hn' he isKeyword_leftParen (isKeyword_name hname')
    cases hw
  | .group hn hps, .group hn' hps', he => by
    simp only [List.append_assoc, List.cons_append] at he
    obtain ⟨rfl, rfl, -, hin⟩ := hn.append_inj hn' he isKeyword_leftParen isKeyword_leftParen
    -- What stands in the parentheses ends at the closing one.
    obtain ⟨rfl, rfl⟩ := hps.append_inj hps' hin (by rintro _ _ ⟨⟩) (by rintro _ _ ⟨⟩)
    exact ⟨rfl, rfl⟩

theorem Joined.append_inj {ts ts' us us' : List Token} {ps ps' : List Phrase} :
    Joined ts ps → Joined ts' ps' → ts ++ us = ts' ++ us' → Ends us → Ends us' →
      ts = ts' ∧ ps = ps'
  | .nil, .nil, _, _, _ => ⟨rfl, rfl⟩
  | .nil, .cons hc _ _, he, hend, _ => by
    have hnone := hend _ _ he
    rw [hnone] at hc
    cases hc
  | .cons hc _ _, .nil, he, _, hend => by
    have hnone := hend _ _ he.symm
    rw [hnone] at hc
    cases hc
  | .cons hc hp hps, .cons hc' hp' hps', he, hend, hend' => by
    simp only [List.cons_append, List.append_assoc, List.cons.injEq, Token.word.injEq] at he
    obtain ⟨rfl, hrest⟩ := he
    obtain rfl := Option.some.inj (hc.symm.trans hc')
    obtain ⟨rfl, rfl⟩ := hp.append_inj hp' hrest
    obtain ⟨rfl, rfl⟩ := hps.append_inj hps' (List.append_cancel_left hrest) hend hend'
    exact ⟨rfl, rfl⟩

theorem Expression.append_inj {ts ts' us us' : List Token} {ps ps' : List Phrase} :
    Expression ts ps → Expression ts' ps' → ts ++ us = ts' ++ us' → Ends us → Ends us' →
      ts = ts' ∧ ps = ps'
  | .intro hp hps, .intro hp' hps', he, hend, hend' => by
    rw [List.append_assoc, List.append_assoc] at he
    obtain ⟨rfl, rfl⟩ := hp.append_inj hp' he
    obtain ⟨rfl, rfl⟩ := hps.append_inj hps' (List.append_cancel_left he) hend hend'
    exact ⟨rfl, rfl⟩

end

/-- **The derivation of an expression is unique.** -/
theorem Expression.unique {ts : List Token} {ps ps' : List Phrase} (h : Expression ts ps)
    (h' : Expression ts ps') : ps = ps' := by
  have hend : Ends [] := by rintro _ _ ⟨⟩
  exact (h.append_inj h' rfl hend hend).2

end Phrase
end SearchDsl
