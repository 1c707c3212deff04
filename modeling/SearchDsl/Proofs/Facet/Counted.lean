import SearchDsl.Proofs.Facet.Grammar
import SearchDsl.Proofs.Field.Name
import SearchDsl.Proofs.Token.Breaks

/-!
# The fields that are counted

A facet list mentions fields by their names, some behind a NOT. The names settle whether it is
accepted and what is counted.

* `Aggregation.ofText_eq_ok_iff`: the lists that are accepted, with an aggregation for each name, in
  order of first mention;
* `Aggregation.exists_entries`: the object of the aggregations has an entry for each of them, in
  which the count stands inside all nested documents around the field;
* `Facets.lists_iff_of_addsNot`: a NOT in front of a field changes nothing;
* `Aggregation.ofText_counts`: all of this, of any text.
-/

namespace SearchDsl

open Lexeme (Lexes contents)

/-! ### Lists of names -/

namespace Facets

/-- The tokens mention a field, with or without a NOT. -/
inductive Mentions : List Token → String → Prop
  | intro {ns : List Token} {negated : Bool} {name : String} :
      Token.Negation ns negated → Mentions (ns ++ [.word name]) name

/-- The text mentions the fields of the names, with commas between them. -/
def Lists (text : String) (names : List String) : Prop :=
  ∃ ts, Lexes text.toList ts ∧ Separated Mentions ts names

variable {schema : Snapshot} {ts : List Token} {f : Field} {name : String}

theorem Names.mentions (h : Names (schema.resolve · false) ts f) : Mentions ts f.name := by
  cases h with
  | intro hn _ hfield _ => exact Snapshot.name_of_resolve hfield ▸ .intro hn

theorem Names.names_eq (h : Names (schema.resolve · false) ts f) : f.names = splitDots f.name := by
  cases h with
  | @intro _ _ _ field _ _ hfield _ =>
    show field.names = splitDots field.name
    rw [Snapshot.names_of_resolve hfield, Snapshot.name_of_resolve hfield]

theorem Mentions.exists_names {field : Field} (h : Mentions ts name)
    (hname : Token.IsFieldName name) (hfield : schema.resolve name false = .ok field)
    (hcount : field.IsCountable) : ∃ f, f.name = name ∧ Names (schema.resolve · false) ts f := by
  cases h with
  | @intro _ negated _ hn =>
    have hkeep : field.name = name := Snapshot.name_of_resolve hfield
    exact ⟨{ field with negated := negated }, hkeep, .intro hn hname hfield hcount⟩

/-- Fields are told apart by their names. -/
theorem distinctOn_names {fs : List Field} (h : Derives (schema.resolve · false) ts fs) :
    distinctOn Field.names fs = distinctOn Field.name fs := by
  have hnames : ∀ f ∈ fs, f.names = splitDots f.name := by
    intro f hf
    obtain ⟨us, hus⟩ := h.exists_of_mem f hf
    exact hus.names_eq
  refine distinctOn_congr fun a ha b hb => ?_
  rw [Bool.eq_iff_iff, beq_iff_eq, beq_iff_eq]
  refine ⟨congrArg joinDots, fun heq => ?_⟩
  rw [hnames a ha, hnames b hb, heq]

end Facets

/-! ### Aggregations -/

namespace Aggregation

/-- The size that is asked for, if it is positive, or else the default one. -/
def effectiveSize (settings : Settings) : Option Nat → Nat
  | none | some 0 => settings.defaultFacetSize
  | some n => n

theorem effectiveSize_eq (settings : Settings) (size : Option Nat) :
    (size.filter fun n => 0 < n).getD settings.defaultFacetSize = effectiveSize settings size := by
  match size with
  | none | some 0 | some (n + 1) => rfl

/-- The aggregation counts the field of the name, which the mapping knows and which has values to
count, inside the nested documents that the field lies in. -/
inductive Counts (schema : Snapshot) (size : Nat) (name : String) : Aggregation → Prop
  | intro {field : Field} :
      Token.IsFieldName name → schema.resolve name false = .ok field → field.IsCountable →
      Counts schema size name ⟨name, name, size, field.nestedPaths⟩

variable {schema : Snapshot} {settings : Settings} {size : Option Nat} {text : String}
  {as : List Aggregation}

theorem Counts.rightUnique (schema : Snapshot) (size : Nat) :
    Relator.RightUnique (Counts schema size) := by
  rintro name _ _ ⟨-, ha, -⟩ ⟨-, hb, -⟩
  rw [ha] at hb
  cases hb
  rfl

theorem counts_of_names {ts : List Token} {f : Field}
    (h : Facets.Names (schema.resolve · false) ts f) (size : Nat) :
    Counts schema size f.name ⟨f.name, f.name, size, f.nestedPaths⟩ := by
  cases h with
  | @intro _ _ name field _ hname hfield hcount =>
    have hkeep : field.name = name := Snapshot.name_of_resolve hfield
    show Counts schema size field.name ⟨field.name, field.name, size, field.nestedPaths⟩
    rw [hkeep]
    exact .intro hname hfield hcount

/-- The fields of a list are counted by their names. -/
theorem counts_ofFields {ts : List Token} {fs : List Field}
    (h : Facets.Derives (schema.resolve · false) ts fs) :
    List.Forall₂ (Counts schema (effectiveSize settings size)) (distinctOn id (fs.map Field.name))
      (ofFacets settings size (Facets.ofFields fs)) := by
  rw [← map_distinctOn, ofFacets, Facets.ofFields, Facets.distinctOn_names h, effectiveSize_eq,
    List.forall₂_map_left_iff, List.forall₂_map_right_iff, List.forall₂_same]
  intro f hf
  obtain ⟨us, hus⟩ := h.exists_of_mem f (mem_of_mem_distinctOn hf)
  exact counts_of_names hus _

/-- **A text is accepted if it lists names of fields that can be counted**, and each of them is
counted once, in order of first mention. -/
theorem ofText_eq_ok_iff :
    ofText schema settings size text = .ok as ↔ ∃ names, Facets.Lists text names ∧
      List.Forall₂ (Counts schema (effectiveSize settings size)) (distinctOn id names) as := by
  simp only [ofText, bind_eq_ok, pure_eq_ok, Facets.read_eq_ok_iff]
  constructor
  · rintro ⟨_, ⟨ts, fs, hl, hd, rfl⟩, rfl⟩
    exact ⟨fs.map Field.name, ⟨ts, hl, hd.map fun _ _ => Facets.Names.mentions⟩, counts_ofFields hd⟩
  · rintro ⟨names, ⟨ts, hl, hlist⟩, has⟩
    have hknown : ∀ n ∈ names, ∃ a, Counts schema (effectiveSize settings size) n a := by
      intro n hn
      obtain ⟨a, -, ha⟩ := exists_mem_of_forall₂ has.flip n (mem_distinctOn_id.2 hn)
      exact ⟨a, ha⟩
    have hfields : ∀ n ∈ names, ∀ us, Facets.Mentions us n →
        ∃ f, Field.name f = n ∧ Facets.Names (schema.resolve · false) us f := by
      intro n hn us hus
      obtain ⟨_, hname, hfield, hcount⟩ := hknown n hn
      exact hus.exists_names hname hfield hcount
    obtain ⟨fs, rfl, hd⟩ := hlist.exists_map hfields
    exact ⟨_, ⟨ts, fs, hl, hd, rfl⟩,
      List.right_unique_forall₂' (Counts.rightUnique _ _) (counts_ofFields hd) has⟩

/-! ### The object of the aggregations -/

/-- What an aggregation says: the count of its field, the most frequent values first, inside the
nested documents of the paths, outermost first. -/
inductive Says (a : Aggregation) : List String → Json → Prop
  | terms : Says a [] (.object [("terms", .object [("field", .string a.field),
      ("order", .object [("_count", .string "desc")]), ("size", .nat a.size)])])
  | nested {path : String} {paths : List String} {inner : Json} :
      Says a paths inner → Says a (path :: paths) (.object
        [("aggs", .object [(a.name, inner)]), ("nested", .object [("path", .string path)])])

/-- The entry of an aggregation, under its name. -/
inductive IsEntry (a : Aggregation) : String × Json → Prop
  | intro {j : Json} : Says a a.nestedPaths j → IsEntry a (a.name, j)

theorem says_within {a : Aggregation} {counted : Json} (h : Says a [] counted)
    (paths : List String) : Says a paths (within a.name paths counted) := by
  induction paths with
  | nil => exact h
  | cons path paths ih =>
    have hcons : within a.name (path :: paths) counted =
        .object [("aggs", .object [(a.name, within a.name paths counted)]),
          ("nested", .object [("path", .string path)])] := by
      have hkeys : "aggs" < "nested" := by decide
      simp [within, Json.record, Table.ofList, Table.set, hkeys]
    rw [hcons]
    exact .nested ih

theorem says_body (a : Aggregation) : Says a a.nestedPaths a.body := by
  refine says_within ?_ _
  have hsize : ¬ "size" < "field" := by decide
  have horder : ¬ "order" < "field" ∧ "order" < "size" := by decide
  simpa [Json.record, Table.ofList, Table.set, hsize, horder] using Says.terms

/-- **The object has one entry for each aggregation** if their names are distinct. -/
theorem exists_entries (h : (as.map Aggregation.name).Nodup) :
    ∃ members entries, toJson as = .object members ∧ members.Perm entries ∧
      List.Forall₂ IsEntry as entries := by
  refine ⟨_, as.map fun a => (a.name, a.body), rfl, Table.perm_ofList ?_, ?_⟩
  · rw [List.map_map]
    exact h
  · rw [List.forall₂_map_right_iff, List.forall₂_same]
    exact fun a _ => .intro (says_body a)

theorem map_name_of_counts {size : Nat} {names : List String}
    (h : List.Forall₂ (Counts schema size) names as) : as.map Aggregation.name = names := by
  induction h with
  | nil => rfl
  | cons ha _ ih =>
    cases ha
    rw [List.map_cons, ih]

end Aggregation

/-! ### A NOT in front of a field -/

namespace Facets

variable {us vs : List Token} {not : Token} {w : String} {names : List String}

/-- A word that is no NOT stands for the field that is mentioned, behind a NOT or nothing. -/
theorem Mentions.word {name : String} (h : Mentions (us ++ .word w :: vs) name)
    (hw : (Token.word w).isKeyword "NOT" = false) :
    vs = [] ∧ w = name ∧ ∃ negated, Token.Negation us negated := by
  generalize hts : us ++ .word w :: vs = ts at h
  cases h with
  | intro hn =>
    cases hn with
    | absent =>
      cases us with
      | nil =>
        cases hts
        exact ⟨rfl, rfl, false, .absent⟩
      | cons u us => cases us <;> cases hts
    | @present t ht =>
      match us, hts with
      | [], hts =>
        cases hts
        rw [ht] at hw
        cases hw
      | [u], hts =>
        cases hts
        exact ⟨rfl, rfl, true, .present ht⟩
      | _ :: _ :: us, hts => cases us <;> cases hts

/-- **A NOT in front of a word that has none changes none of the names.** -/
theorem separated_mentions_not (hnot : not.isKeyword "NOT" = true)
    (hw : (Token.word w).isKeyword "NOT" = false)
    (hus : ∀ t ∈ us.getLast?, t.isKeyword "NOT" = false) :
    Separated Mentions (us ++ .word w :: vs) names ↔
      Separated Mentions (us ++ not :: .word w :: vs) names := by
  constructor
  · intro h
    obtain ⟨front, us', vs', back, name, rfl, rfl, -, hname, hplace⟩ := h.around (by simp)
    obtain ⟨rfl, rfl, _, hn⟩ := hname.word hw
    cases hn with
    | absent => simpa using hplace (.intro (.present hnot))
    | present ht =>
      rw [hus _ (by simp)] at ht
      cases ht
  · intro h
    have hassoc : us ++ not :: .word w :: vs = (us ++ [not]) ++ .word w :: vs := by simp
    rw [hassoc] at h
    obtain ⟨front, us', vs', back, name, heq, rfl, hfront, hname, hplace⟩ := h.around (by simp)
    obtain ⟨rfl, rfl, _, hn⟩ := hname.word hw
    cases hn with
    | absent =>
      -- Then the NOT would be a comma.
      rw [List.append_nil] at heq
      rw [hfront not (by simp [← heq])] at hnot
      cases hnot
    | present ht =>
      obtain ⟨rfl, -⟩ := List.append_inj' heq rfl
      simpa using hplace (.intro .absent)

/-- The second text is the first one with one more NOT, in front of a word that had none. -/
inductive AddsNot (text text' : String) : Prop
  | intro {us : List Token} {not : Token} {w : String} {rest : List (Except TextFault Token)} :
      not.isKeyword "NOT" = true → (Token.word w).isKeyword "NOT" = false →
      (∀ t ∈ us.getLast?, t.isKeyword "NOT" = false) →
      contents text.toList = us.map .ok ++ .ok (.word w) :: rest →
      contents text'.toList = us.map .ok ++ .ok not :: .ok (.word w) :: rest →
      AddsNot text text'

/-- **A NOT in front of a field changes nothing of what a text lists.** -/
theorem lists_iff_of_addsNot {text text' : String} (h : AddsNot text text') :
    Lists text names ↔ Lists text' names := by
  obtain ⟨hnot, hw, hus, hc, hc'⟩ := h
  rename_i us not w rest
  constructor
  · rintro ⟨ts, hl, hlist⟩
    obtain ⟨vs, rfl, rfl⟩ := Lexeme.lexes_of_contents hl hc (by simp)
    exact ⟨us ++ not :: .word w :: vs, by simpa [Lexes] using hc',
      (separated_mentions_not hnot hw hus).1 hlist⟩
  · rintro ⟨ts, hl, hlist⟩
    have hassoc : contents text'.toList = (us ++ [not]).map .ok ++ .ok (.word w) :: rest := by
      simpa using hc'
    obtain ⟨vs, rfl, rfl⟩ := Lexeme.lexes_of_contents hl hassoc (by simp)
    rw [List.append_assoc] at hlist
    exact ⟨us ++ .word w :: vs, by simpa [Lexes] using hc,
      (separated_mentions_not hnot hw hus).2 hlist⟩

/-- A NOT that is written into a text, behind what is read to its end. -/
theorem addsNot_insert {front rest : List Char} {us : List Token} {w : String}
    {cs : List (Except TextFault Token)} (hfront : Lexes front us)
    (hus : ∀ t ∈ us.getLast?, t.isKeyword "NOT" = false)
    (hrest : contents rest = .ok (.word w) :: cs)
    (hw : (Token.word w).isKeyword "NOT" = false) :
    AddsNot (String.ofList (front ++ ' ' :: rest))
      (String.ofList (front ++ ' ' :: ("NOT".toList ++ ' ' :: rest))) := by
  have hbreaks : ∀ cs, Token.Breaks (' ' :: cs) := Lexeme.breaks_cons (by decide)
  have hblank : ∀ cs, contents (' ' :: cs) = contents cs :=
    @Lexeme.contents_blanks [' '] (by decide)
  have hnot : Lexes "NOT".toList [.word "NOT"] := Lexeme.lexes_singleton rfl (by simp)
  refine @AddsNot.intro _ _ us (.word "NOT") w cs (by decide) hw hus ?_ ?_
  · rw [String.toList_ofList, Lexeme.contents_append hfront (hbreaks _), hblank, hrest]
  · rw [String.toList_ofList, Lexeme.contents_append hfront (hbreaks _), hblank,
      Lexeme.contents_append hnot (hbreaks _), hblank, hrest]
    rfl

end Facets

namespace Aggregation

/-- **Facets count each field of a list once, and a NOT has no effect.** A text is accepted if it
lists fields that the mapping knows and that have values to count; they are counted in order of
first mention, and the object of the aggregations has one entry for each. -/
theorem ofText_counts (schema : Snapshot) (settings : Settings) (size : Option Nat)
    (text : String) :
    (∀ as, ofText schema settings size text = .ok as ↔ ∃ names, Facets.Lists text names ∧
      List.Forall₂ (Counts schema (effectiveSize settings size)) (distinctOn id names) as) ∧
    (∀ as, ofText schema settings size text = .ok as →
      ∃ members entries, toJson as = .object members ∧ members.Perm entries ∧
        List.Forall₂ IsEntry as entries) ∧
    (∀ text', Facets.AddsNot text text' → ∀ as,
      ofText schema settings size text = .ok as ↔ ofText schema settings size text' = .ok as) := by
  refine ⟨fun as => ofText_eq_ok_iff, fun as h => ?_, fun text' h as => ?_⟩
  · obtain ⟨names, -, has⟩ := ofText_eq_ok_iff.1 h
    refine exists_entries ?_
    rw [map_name_of_counts has]
    exact nodup_distinctOn_id names
  · simp only [ofText_eq_ok_iff, Facets.lists_iff_of_addsNot h]

/-- A list with a nested field that is mentioned twice, and a NOT in front of the other one. -/
theorem ofText_counts_units :
    let schema := Snapshot.ofMapping "listings" ((Mapping.empty.field "id" (.leaf .keyword)).field
      "units" ((FieldMapping.leaf .nested).property "kind" (.leaf .keyword))) 1
    let as : List Aggregation :=
      [⟨"units.kind", "units.kind", 20, ["units"]⟩, ⟨"id", "id", 20, []⟩]
    ofText schema .standard (some 0) "units.kind, id, NOT units.kind" = .ok as ∧
      ofText schema .standard (some 0) "units.kind, NOT id, NOT units.kind" = .ok as ∧
      ∃ members entries, toJson as = .object members ∧ members.Perm entries ∧
        List.Forall₂ IsEntry as entries := by
  intro schema as
  have hok : ofText schema .standard (some 0) "units.kind, id, NOT units.kind" = .ok as :=
    toOption_eq_some.1 (by decide +kernel)
  have hword : Lexes "units.kind".toList [.word "units.kind"] :=
    Lexeme.lexes_singleton rfl (by simp)
  have hcomma : Lexes [','] [.comma] := Lexeme.lexes_singleton rfl (by simp)
  have hrest : Token.next "id, NOT units.kind".toList =
      (.ok (.word "id"), ", NOT units.kind".toList) := rfl
  have hnot := Facets.addsNot_insert (hword.append hcomma (Lexeme.breaks_cons (by decide) []))
    (by decide) (Lexeme.contents_of_next hrest (by simp)) (by decide)
  obtain ⟨-, hentries, hsame⟩ :=
    ofText_counts schema .standard (some 0) "units.kind, id, NOT units.kind"
  exact ⟨hok, (hsame _ hnot as).1 hok, hentries as hok⟩

end Aggregation
end SearchDsl
