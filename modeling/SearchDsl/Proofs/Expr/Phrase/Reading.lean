import SearchDsl.Proofs.Expr.Limit
import SearchDsl.Proofs.Expr.Phrase
import SearchDsl.Proofs.Expr.Reading

/-!
# What is read is what the phrases stand for

`Phrase.item` is the item that a phrase stands for: its filters are made, which shapes their
literals by their operators, and a group around nothing but one group is that group
(`Expr.collapse`).

* `Phrase.exists_items_iff`: phrases stand for items if each of their filters can be made;
* `Expr.Derives.exists_phrases` and `Phrase.Expression.derives`: the tokens that write an expression
  are those that write phrases which stand for its items;
* `Expr.read_iff_phrases`: which texts are read, and as what;
* `Expr.isRead_iff_derivable`: the same for texts without a mapping, with the phrases and the making
  of their filters apart.
-/

namespace SearchDsl

/-- The filter that is made of a draft. -/
def Filter.Draft.make (fields : String → Except Error Field) (d : Draft) : Except Error Filter := do
  let field ← fields d.name
  Filter.make field d.operator d.literal

namespace Phrase

mutual

/-- The filters of the phrase, from left to right. -/
def drafts : Phrase → List Filter.Draft
  | filter _ _ draft => [draft]
  | group _ _ ps => draftsOf ps

/-- The filters of a list of phrases, from left to right. -/
def draftsOf : List Phrase → List Filter.Draft
  | [] => []
  | p :: ps => p.drafts ++ draftsOf ps

end

variable (fields : String → Except Error Field)

mutual

/-- The item that the phrase stands for, if its filters can be made. -/
def item : Phrase → Except Error Item
  | filter join negated draft => do
    let f ← draft.make fields
    pure (.leaf join negated f)
  | group join negated ps => do
    let is ← items ps
    pure (.group join negated (Expr.collapse is))

/-- The items that the phrases stand for. -/
def items : List Phrase → Except Error (List Item)
  | [] => .ok []
  | p :: ps => do
    let i ← p.item
    let is ← items ps
    pure (i :: is)

end

mutual

theorem exists_item_iff :
    (p : Phrase) → ((∃ i, p.item fields = .ok i) ↔ ∀ d ∈ p.drafts, ∃ f, d.make fields = .ok f)
  | .filter join negated draft => by
    simp only [item, drafts, bind_eq_ok, pure_eq_ok, List.mem_singleton, forall_eq]
    constructor
    · rintro ⟨_, f, hf, rfl⟩
      exact ⟨f, hf⟩
    · rintro ⟨f, hf⟩
      exact ⟨_, f, hf, rfl⟩
  | .group join negated ps => by
    simp only [item, drafts, bind_eq_ok, pure_eq_ok, ← exists_items_iff ps]
    constructor
    · rintro ⟨_, is, his, rfl⟩
      exact ⟨is, his⟩
    · rintro ⟨is, his⟩
      exact ⟨_, is, his, rfl⟩

/-- **Phrases stand for items if each of their filters can be made.** -/
theorem exists_items_iff : (ps : List Phrase) →
    ((∃ is, items fields ps = .ok is) ↔ ∀ d ∈ draftsOf ps, ∃ f, d.make fields = .ok f)
  | [] => by simp [items, draftsOf]
  | p :: ps => by
    simp only [items, draftsOf, bind_eq_ok, pure_eq_ok, List.mem_append, or_imp, forall_and,
      ← exists_item_iff p, ← exists_items_iff ps]
    constructor
    · rintro ⟨_, i, hi, is, his, rfl⟩
      exact ⟨⟨i, hi⟩, is, his⟩
    · rintro ⟨⟨i, hi⟩, is, his⟩
      exact ⟨_, i, hi, is, his, rfl⟩

end

end Phrase

variable {fields : String → Except Error Field}

/-! ### Phrases for items -/

mutual

theorem Item.Derives.exists_phrase {join : Option Connective} {ts : List Token} {i : Item}
    {n : Nat} : Item.Derives fields join ts i n →
      ∃ p, Phrase.Derives join ts p ∧ p.item fields = .ok i
  | .leaf hn hf => by
    obtain ⟨hname, hfield, hop, hv, hmake⟩ := hf
    refine ⟨_, .filter hn hname hop hv, ?_⟩
    simp only [Phrase.item, Filter.Draft.make, hfield, hmake, ok_bind]
    rfl
  | .group hn he => by
    obtain ⟨ps, is, hps, his, rfl⟩ := he.exists_phrases
    refine ⟨_, .group hn hps, ?_⟩
    simp only [Phrase.item, his, ok_bind]
    rfl

theorem Item.Joined.exists_phrases {ts : List Token} {is : List Item} {n : Nat} :
    Item.Joined fields ts is n → ∃ ps, Phrase.Joined ts ps ∧ Phrase.items fields ps = .ok is
  | .nil => ⟨[], .nil, rfl⟩
  | .cons hc hi his => by
    obtain ⟨p, hp, hpi⟩ := hi.exists_phrase
    obtain ⟨ps, hps, hpsi⟩ := his.exists_phrases
    refine ⟨p :: ps, .cons hc hp hps, ?_⟩
    simp only [Phrase.items, hpi, hpsi, ok_bind]
    rfl

theorem Expr.Derives.exists_phrases {ts : List Token} {items : List Item} {n : Nat} :
    Expr.Derives fields ts items n → ∃ ps is, Phrase.Expression ts ps ∧
      Phrase.items fields ps = .ok is ∧ items = Expr.collapse is
  | .intro hi his => by
    obtain ⟨p, hp, hpi⟩ := hi.exists_phrase
    obtain ⟨ps, hps, hpsi⟩ := his.exists_phrases
    refine ⟨p :: ps, _, .intro hp hps, ?_, rfl⟩
    simp only [Phrase.items, hpi, hpsi, ok_bind]
    rfl

end

/-! ### Items for phrases -/

mutual

theorem Phrase.Derives.derives {join : Option Connective} {ts : List Token} {p : Phrase} :
    Phrase.Derives join ts p → ∀ {i : Item}, p.item fields = .ok i →
      ∃ n, Item.Derives fields join ts i n
  | .filter hn hname ht hv, i, h => by
    simp only [Phrase.item, Filter.Draft.make, bind_eq_ok, pure_eq_ok] at h
    obtain ⟨f, ⟨field, hfield, hmake⟩, rfl⟩ := h
    exact ⟨1, .leaf hn (.intro hname hfield ht hv hmake)⟩
  | .group hn hps, i, h => by
    simp only [Phrase.item, bind_eq_ok, pure_eq_ok] at h
    obtain ⟨is, his, rfl⟩ := h
    obtain ⟨n, hd⟩ := hps.derives his
    exact ⟨n, .group hn hd⟩

theorem Phrase.Joined.derives {ts : List Token} {ps : List Phrase} :
    Phrase.Joined ts ps → ∀ {is : List Item}, Phrase.items fields ps = .ok is →
      ∃ n, Item.Joined fields ts is n
  | .nil, is, h => by
    cases h
    exact ⟨0, .nil⟩
  | .cons hc hp hps, is, h => by
    simp only [Phrase.items, bind_eq_ok, pure_eq_ok] at h
    obtain ⟨i, hi, is, his, rfl⟩ := h
    obtain ⟨n, hd⟩ := hp.derives hi
    obtain ⟨m, hds⟩ := hps.derives his
    exact ⟨n + m, .cons hc hd hds⟩

theorem Phrase.Expression.derives {ts : List Token} {ps : List Phrase} :
    Phrase.Expression ts ps → ∀ {is : List Item}, Phrase.items fields ps = .ok is →
      ∃ n, Expr.Derives fields ts (Expr.collapse is) n
  | .intro hp hps, is, h => by
    simp only [Phrase.items, bind_eq_ok, pure_eq_ok] at h
    obtain ⟨i, hi, is, his, rfl⟩ := h
    obtain ⟨n, hd⟩ := hp.derives hi
    obtain ⟨m, hds⟩ := hps.derives his
    exact ⟨_, .intro hd hds⟩

end

/-! ### Whole texts -/

namespace Expr

/-- **Unless it has too many fragments, a text is read if its tokens write phrases that stand for
items**, and it is read as these items. -/
theorem read_iff_phrases {g : Grammar} {text : String} {e : Expr}
    (h : ∀ count max, read g text ≠ .error (.tooManyFragments count max)) :
    read g text = .ok e ↔ ∃ ts ps is, Lexeme.Lexes text.toList ts ∧ Phrase.Expression ts ps ∧
      Phrase.items (Reading.resolve g) ps = .ok is ∧ e.items = collapse is := by
  constructor
  · intro hr
    obtain ⟨ts, n, hl, hd, -⟩ := read_eq_ok_iff.1 hr
    obtain ⟨ps, is, hps, his, he⟩ := hd.exists_phrases
    exact ⟨ts, ps, is, hl, hps, his, he⟩
  · rintro ⟨ts, ps, is, hl, hps, his, he⟩
    obtain ⟨n, hd⟩ := hps.derives his
    rw [← he] at hd
    -- Under a limit that is wide enough the text is read, so under this one it can only be refused.
    let wide : Grammar := ⟨g.schema, max g.limit n⟩
    have hwide : read wide text = .ok e := read_eq_ok_iff.2 ⟨ts, n, hl, hd, Nat.le_max_right _ _⟩
    rcases @read_curbed g wide rfl (Nat.le_max_left _ _) text with heq | ⟨c, -, hno⟩
    · rw [heq, hwide]
    · exact absurd hno (h c _)

/-- **The language of filters.** Unless it has too many fragments, a text without a mapping is read
if and only if all of it is tokens, these write an expression, and the filters of the expression can
be made. There is one derivation only, and the text is read as the items it stands for. -/
theorem isRead_iff_derivable {limit : Nat} {text : String}
    (h : ∀ count max, read ⟨none, limit⟩ text ≠ .error (.tooManyFragments count max)) :
    ((∃ e, read ⟨none, limit⟩ text = .ok e) ↔
      ∃ ts ps, Lexeme.Lexes text.toList ts ∧ Phrase.Expression ts ps ∧
        ∀ d ∈ Phrase.draftsOf ps,
          ∃ f, Filter.make (Field.ofName d.name) d.operator d.literal = .ok f) ∧
    (∀ ts ps ps', Phrase.Expression ts ps → Phrase.Expression ts ps' → ps = ps') ∧
    ∀ e ts ps, read ⟨none, limit⟩ text = .ok e → Lexeme.Lexes text.toList ts →
      Phrase.Expression ts ps →
        ∃ is, Phrase.items (fun name => .ok (Field.ofName name)) ps = .ok is ∧
          e.items = collapse is := by
  have hread := fun e => read_iff_phrases (e := e) h
  have hmade := fun ps => Phrase.exists_items_iff (fun name => .ok (Field.ofName name)) ps
  refine ⟨?_, fun ts ps ps' hps hps' => hps.unique hps', ?_⟩
  · constructor
    · rintro ⟨e, he⟩
      obtain ⟨ts, ps, is, hl, hps, his, -⟩ := (hread e).1 he
      exact ⟨ts, ps, hl, hps, (hmade ps).1 ⟨is, his⟩⟩
    · rintro ⟨ts, ps, hl, hps, hdrafts⟩
      obtain ⟨is, his⟩ := (hmade ps).2 hdrafts
      exact ⟨⟨collapse is⟩, (hread _).2 ⟨ts, ps, is, hl, hps, his, rfl⟩⟩
  · intro e ts ps he hl hps
    obtain ⟨ts', ps', is, hl', hps', his, hitems⟩ := (hread e).1 he
    obtain rfl := hl.unique hl'
    obtain rfl := hps.unique hps'
    exact ⟨is, his, hitems⟩

/-- A negated group, a list, words in any case, and parentheses that are taken away. -/
theorem isRead_iff_derivable_groups :
    (∀ count max, read ⟨none, 6⟩ "((NOT (a <> 1 or b.c In [1, 2]) AND not d:NULL))" ≠
      .error (.tooManyFragments count max)) ∧
    ∃ e ts ps is, read ⟨none, 6⟩ "((NOT (a <> 1 or b.c In [1, 2]) AND not d:NULL))" = .ok e ∧
      Lexeme.Lexes "((NOT (a <> 1 or b.c In [1, 2]) AND not d:NULL))".toList ts ∧
      Phrase.Expression ts ps ∧
      Phrase.items (fun name => .ok (Field.ofName name)) ps = .ok is ∧ e.items = collapse is := by
  have hok : (read ⟨none, 6⟩ "((NOT (a <> 1 or b.c In [1, 2]) AND not d:NULL))").isOk = true := by
    decide +kernel
  have hlimit : ∀ count max, read ⟨none, 6⟩ "((NOT (a <> 1 or b.c In [1, 2]) AND not d:NULL))" ≠
      .error (.tooManyFragments count max) := by
    intro count max h
    rw [h] at hok
    cases hok
  refine ⟨hlimit, ?_⟩
  obtain ⟨hiff, -, hitems⟩ := isRead_iff_derivable hlimit
  cases h : read ⟨none, 6⟩ "((NOT (a <> 1 or b.c In [1, 2]) AND not d:NULL))" with
  | error err =>
    rw [h] at hok
    cases hok
  | ok e =>
    obtain ⟨ts, ps, hl, hps, -⟩ := hiff.1 ⟨e, h⟩
    obtain ⟨is, his, he⟩ := hitems e ts ps h hl hps
    exact ⟨e, ts, ps, is, rfl, hl, hps, his, he⟩

end Expr
end SearchDsl
