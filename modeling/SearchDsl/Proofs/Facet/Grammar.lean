import SearchDsl.Facet
import SearchDsl.Proofs.Expr.Reading

/-!
# The grammar of facet lists

Which rows of tokens write a facet list, given without any reader, and that the reader reads them.

* `Facets.Names` and `Facets.Derives`: a field that is to be counted, and several with commas
  between them;
* `Facets.read_eq_ok_iff`: a facet list is read from a text just if the tokens of the text write
  fields, of which it has each once.
-/

namespace SearchDsl

/-- There are values to count, as far as the type of the field is known. -/
def Field.IsCountable (f : Field) : Prop := ∀ t, f.type? = some t → t.supportsAggregation = true

namespace Facets

/-- The tokens write a field that is to be counted. -/
inductive Names (fields : String → Except Error Field) : List Token → Field → Prop
  | intro {ns : List Token} {negated : Bool} {name : String} {field : Field} :
      Token.Negation ns negated → Token.IsFieldName name → fields name = .ok field →
      field.IsCountable → Names fields (ns ++ [.word name]) { field with negated := negated }

/-- The tokens write the fields, with commas between them. -/
def Derives (fields : String → Except Error Field) : List Token → List Field → Prop :=
  Separated (Names fields)

end Facets

namespace Reading

variable {g : Grammar} {r r' : Reading} {field : Field}

theorem checkCountable_iff : checkCountable field = .ok () ↔ field.IsCountable := by
  unfold checkCountable Field.IsCountable
  cases field.type? with
  | none => simp
  | some t => cases h : t.supportsAggregation <;> simp [h]

theorem leadingNot_iff {negated : Bool} (hr : r.Ready) :
    r.leadingNot = .ok (negated, r') ↔
      (∃ ns, Token.Negation ns negated ∧ r.Passes ns 0 r') ∧
        (negated = false → r'.token.isKeyword "NOT" = false) := by
  unfold leadingNot
  split
  · rename_i hnot
    simp only [bind_eq_ok, pure_eq_ok, Prod.mk.injEq, advance_iff hr rfl (isKeyword_ne_eof hnot)]
    constructor
    · rintro ⟨r₁, h₁, rfl, rfl⟩
      exact ⟨⟨_, .present hnot, h₁⟩, by simp⟩
    · rintro ⟨⟨ns, hn, h⟩, hfirst⟩
      cases hn with
      | absent =>
        rw [h.unique (Passes.refl hr), hnot] at hfirst
        cases hfirst rfl
      | present ht =>
        rw [← h.token_eq] at h
        exact ⟨r', h, rfl, rfl⟩
  · rename_i hnot
    simp only [pure_eq_ok, Prod.mk.injEq]
    constructor
    · rintro ⟨rfl, rfl⟩
      exact ⟨⟨[], .absent, Passes.refl hr⟩, fun _ => by simpa using hnot⟩
    · rintro ⟨⟨ns, hn, h⟩, -⟩
      cases hn with
      | absent => exact ⟨rfl, (Passes.refl hr).unique h⟩
      | present ht =>
        rw [h.token_eq] at hnot
        exact absurd ht hnot

/-- **A field to count is read where its tokens are.** -/
theorem facet_iff (hr : r.Ready) :
    r.facet g = .ok (field, r') ↔
      ∃ ts, Facets.Names (resolve g) ts field ∧ r.Passes ts 0 r' := by
  simp only [facet, bind_eq_ok, pure_eq_ok, Prod.exists, Prod.mk.injEq, leadingNot_iff hr]
  constructor
  · rintro ⟨negated, r₁, ⟨⟨ns, hn, h₁⟩, -⟩, f, r₂, hf, _, hcheck, rfl, rfl⟩
    obtain ⟨name, hname, hfield, h₂⟩ := (field_iff h₁.after).1 hf
    exact ⟨_, .intro hn hname hfield (checkCountable_iff.1 hcheck), h₁.trans h₂⟩
  · rintro ⟨ts, hd, h⟩
    cases hd with
    | @intro ns negated name f hn hname hfield hcheck =>
      obtain ⟨r₁, h₁, h₂⟩ := h.split_later
      refine ⟨negated, r₁, ⟨⟨ns, hn, h₁⟩, fun _ => ?_⟩, f, r',
        (field_iff h₁.after).2 ⟨name, hname, hfield, h₂⟩, (), checkCountable_iff.2 hcheck, rfl, rfl⟩
      rw [h₂.token_eq]
      exact hname.1 "NOT" (by decide)

end Reading

namespace Facets

variable {fields : String → Except Error Field}

theorem Names.head {ts : List Token} {field : Field} (h : Names fields ts field) :
    ∃ t us, ts = t :: us ∧ t.StartsItem := by
  cases h with
  | intro hn hname _ _ =>
    cases hn with
    | absent => exact ⟨_, _, rfl, hname.startsItem⟩
    | present ht => exact ⟨_, _, rfl, Token.startsItem_not ht⟩

/-- **A facet list is read just where the tokens of the whole text write fields.** -/
theorem read_eq_ok_iff {schema : Option Snapshot} {text : String} {f : Facets} :
    read schema text = .ok f ↔
      ∃ ts fs, Lexeme.Lexes text.toList ts ∧
        Derives (Reading.resolve ⟨schema, Expr.maxFragments⟩) ts fs ∧ f = ofFields fs := by
  simp only [read, bind_eq_ok, Reading.start_eq_ok_iff]
  have enough : (Reading.opening text).ahead.length ≤ (Reading.opening text).fuel := by
    simp only [Reading.fuel]
    omega
  constructor
  · rintro ⟨r, ⟨rfl, hr⟩, h⟩
    split at h
    · cases h
    · simp only [bind_eq_ok, Prod.exists] at h
      obtain ⟨fs, r', hfs, h⟩ := h
      split at h
      · rename_i hend
        simp only [pure_eq_ok] at h
        obtain ⟨⟨ts, hd, hp⟩, -⟩ := (Reading.commaList_iff Reading.facet_iff hr enough).1 hfs
        refine ⟨ts, fs, ?_, hd, h.symm⟩
        rw [Lexeme.Lexes, ← Reading.contents_opening, hp.contents,
          (Reading.atEnd_iff hp.after).1 hend]
      · cases h
  · rintro ⟨ts, fs, hl, hd, rfl⟩
    obtain ⟨r', hp, hend⟩ := Reading.passes_of_lexes hl 0
    obtain ⟨t, us, rfl, hstart⟩ := hd.head Names.head
    have heof : r'.token = .eof := Reading.token_of_contents hend
    refine ⟨_, ⟨rfl, hp.before⟩, ?_⟩
    rw [if_neg (by simp [Reading.atEnd, hp.token_eq, hstart.2.1])]
    simp only [bind_eq_ok, Prod.exists]
    refine ⟨fs, r', (Reading.commaList_iff Reading.facet_iff hp.before enough).2
      ⟨⟨_, hd, hp⟩, by simp [heof]⟩, ?_⟩
    rw [if_pos ((Reading.atEnd_iff hp.after).2 hend)]
    rfl

end Facets
end SearchDsl
