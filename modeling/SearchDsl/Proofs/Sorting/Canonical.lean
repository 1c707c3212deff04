import SearchDsl.Proofs.Expr.Canonical
import SearchDsl.Proofs.Sorting.InUse

/-!
# The canonical text of a sort

* `SortItem.IsWritten`: an item is written by the tokens of its text, and for its filter no more is
  counted than twice its size;
* `SortItem.Derives.isWritten`: every item that the tokens of a text write is so;
* `Sorting.exists_written`: such items, with commas between them, are written by the tokens of their
  texts;
* `Sorting.read_text_of_read`: so the canonical text of a sort reads back, if twice the size of all
  its filters is no more than one expression may have.
-/

namespace SearchDsl

open Lexeme (Lexes)

variable {fields : String → Except Error Field}

/-- The direction is written as its word. -/
theorem Direction.directs (d : Direction) : Token.Directs [.word d.word] (some d) := by
  cases d <;> exact .present (by decide)

theorem Direction.lexes (d : Direction) : Lexes d.word.toList [.word d.word] := by
  cases d <;> exact Lexeme.lexes_singleton rfl (by simp)

/-- A text behind the word in front of a filter. -/
theorem Lexeme.Lexes.sortFilter {u : List Char} {ts : List Token} (h : Lexes u ts) :
    Lexes ("sortFilter: ".toList ++ u) (.word "sortFilter" :: .colon :: ts) := by
  have hword : Lexes "sortFilter".toList [.word "sortFilter"] :=
    lexes_singleton rfl (by simp)
  have hcolon : Lexes (':' :: ' ' :: u) (.colon :: ts) := h.behindBlank.mark rfl (by simp)
  exact hword.append hcolon (breaks_cons (by decide) _)

/-! ### Items -/

namespace SortItem

/-- The size of the filter. -/
def filterSize (i : SortItem) : Nat := (i.filter.map Expr.size).getD 0

/-- The item is written by the tokens of its text, and its filter is counted twice at most. -/
def IsWritten (fields : String → Except Error Field) (i : SortItem) : Prop :=
  ∃ ts n, Lexes i.text.toList ts ∧ Derives fields ts i n ∧ n ≤ 2 * i.filterSize

/-- **An item that was read is written as it is read.** -/
theorem Derives.isWritten (hfields : Field.KeepNames fields) {ts : List Token} {i : SortItem}
    {n : Nat} (h : Derives fields ts i n) (hts : ∀ t ∈ ts, t.IsPlain) : IsWritten fields i := by
  cases h with
  | @intro name field us _ _ hname hfield hi =>
    have hword : Lexes field.name.toList [.word name] := by
      rw [hfields _ _ hfield]
      exact Lexeme.lexes_singleton (hts (.word name) (by simp)) (by simp)
    have hus : ∀ t ∈ us, t.IsPlain := fun t ht => hts t (by simp [ht])
    cases hi with
    | score hscore _ =>
      refine ⟨_, 0, ?_, .intro hname hfield (.score hscore (Direction.directs .descending)),
        Nat.zero_le _⟩
      simpa [text, byScore] using hword.blank (Direction.lexes .descending)
    | @distance _ vs ds v origin d hscore _ hv ho hplaces _ =>
      -- The point may have been given by whole numbers; it is written by its coordinates.
      have hliteral := hv.isLiteral fun t ht => hus t (by simp [ht])
      have hvalid := Value.isValid_of_toPoint hliteral ho
      obtain ⟨ws, hws, hw⟩ := Value.exists_written_point (GeoPoint.isFinite_of_isValid hvalid) 1
      have hpoint := Value.toPoint_ofPoint hvalid
      have hnear : Lexes "NEAR".toList [.word "NEAR"] := Lexeme.lexes_singleton rfl (by simp)
      refine ⟨_, 0, ?_, .intro hname hfield (.distance (d := some (d.getD .ascending)) hscore
        (t := .word "NEAR") rfl hw hpoint hplaces (Direction.directs _)), Nat.zero_le _⟩
      simpa [text, byDistance] using
        hword.blank (hnear.blank (hws.blank (Direction.lexes (d.getD .ascending))))
    | @value _ d hscore hsortable _ =>
      refine ⟨_, 0, ?_, .intro hname hfield
        (.value (d := some (d.getD .ascending)) hscore hsortable (Direction.directs _)),
        Nat.zero_le _⟩
      simpa [text, byValue] using hword.blank (Direction.lexes (d.getD .ascending))
    | @filtered _ ds es d e _ hscore hsortable _ _ he hscoped =>
      have hcanonical := he.isCanonical hfields fun t ht => hus t (by simp [ht])
      obtain ⟨ws, hws, hw⟩ := hcanonical.exists_written
      have hfilter : Lexes e.text.toList (.leftParen :: (ws ++ [.rightParen])) := by
        simpa [Expr.text, Item.parenthesized] using hws.parentheses
      refine ⟨_, _, ?_, .intro hname hfield (.filtered (d := some (d.getD .ascending))
        hscore hsortable (Direction.directs _) (t := .word "sortFilter") rfl hw.enclose
        hscoped), ?_⟩
      · simpa [text, byValue] using
          hword.blank ((Direction.lexes (d.getD .ascending)).blank hfilter.sortFilter)
      · have := Item.countP_isGroup_le_sizes e.items
        simp only [filterSize, Expr.size, Option.map_some, Option.getD_some]
        omega

end SortItem

/-! ### Sorts -/

namespace Sorting

/-- Every item that the tokens of a text write is written as it is read. -/
theorem Derives.isWritten (hfields : Field.KeepNames fields) {ts : List Token}
    {ps : List (SortItem × Nat)} (h : Derives fields ts ps) (hts : ∀ t ∈ ts, t.IsPlain) :
    ∀ p ∈ ps, p.1.IsWritten fields := by
  induction h with
  | one hd => simpa using SortItem.Derives.isWritten hfields hd hts
  | more hd _ ih =>
    refine List.forall_mem_cons.2 ⟨?_, ih fun t ht => hts t (by simp [ht])⟩
    exact SortItem.Derives.isWritten hfields hd fun t ht => hts t (by simp [ht])

/-- The size of a sort's filters is that of the filters of its items. -/
theorem sum_filterSize (is : List SortItem) :
    (is.map SortItem.filterSize).sum = ((is.filterMap SortItem.filter).map Expr.size).sum := by
  induction is with
  | nil => rfl
  | cons i is ih =>
    cases hfilter : i.filter with
    | none => simp [ih, hfilter, SortItem.filterSize]
    | some e => simp [ih, hfilter, SortItem.filterSize]

/-- **Items with commas between them are written by the tokens of their texts.** -/
theorem exists_written {is : List SortItem} (hne : is ≠ [])
    (his : ∀ i ∈ is, i.IsWritten fields) :
    ∃ ts ps, Lexes (text ⟨is⟩).toList ts ∧ Derives fields ts ps ∧ ps.map Prod.fst = is ∧
      (ps.map Prod.snd).sum ≤ 2 * (is.map SortItem.filterSize).sum := by
  induction is with
  | nil => exact absurd rfl hne
  | cons i is ih =>
    obtain ⟨ts, n, hl, hd, hn⟩ := his i (by simp)
    cases is with
    | nil => exact ⟨ts, [(i, n)], by simpa [text] using hl, .one hd, rfl, by simpa using hn⟩
    | cons j js =>
      obtain ⟨us, ps, hus, hps, hfst, hle⟩ := ih (by simp) fun k hk => his k (by simp [hk])
      refine ⟨_, (i, n) :: ps, ?_, .more hd hps, by simp [hfst], ?_⟩
      · have := hl.comma hus
        simpa [text, String.intercalate_cons_cons] using this
      · rw [List.map_cons, List.sum_cons, List.map_cons, List.sum_cons]
        omega

section Read

variable {schema : Option Snapshot} {text : String} {s : Sorting}

/-- Every item of a sort that was read is written as it is read, and there is one. -/
theorem isWritten_of_read (h : read schema text = .ok s) :
    s.items ≠ [] ∧
      ∀ i ∈ s.items, i.IsWritten (Reading.resolve ⟨schema, Expr.maxFragments⟩) := by
  obtain ⟨ts, ps, hl, hd, -, rfl⟩ := read_eq_ok_iff.1 h
  have hall := hd.isWritten (Field.keepNames_resolve _) hl.isPlain
  constructor
  · cases hd <;> simp [ofItems, distinctOn]
  · intro i hi
    obtain ⟨p, hp, rfl⟩ := List.mem_map.1 (mem_of_mem_distinctOn hi)
    exact hall p hp

/-- **The canonical text of a sort reads back.** Whatever was read from a text, with or without a
mapping, is read again from its canonical text, if twice the size of all its filters together is no
more than one expression may have. -/
theorem read_text_of_read (h : read schema text = .ok s)
    (hsize : 2 * (s.filters.map Expr.size).sum ≤ Expr.maxFragments) :
    read schema s.text = .ok s := by
  obtain ⟨hne, hall⟩ := isWritten_of_read h
  obtain ⟨ts, ps, hl, hd, hfst, hle⟩ := exists_written hne hall
  rw [sum_filterSize] at hle
  -- No two items are on one field, so none is dropped.
  have hkept : ofItems s.items = s := congrArg mk (distinctOn_eq_self (nodup_names_of_read h))
  exact read_eq_ok_iff.2 ⟨ts, ps, hl, hd, hle.trans hsize, by rw [hfst, hkept]⟩

end Read

/-- A direction without effect, a distance from a point of whole numbers, a filter with commas in
it, and an item that is dropped. -/
theorem read_text_of_read_rooms :
    let rooms := ((FieldMapping.leaf .nested).property "area" (.leaf .long)).property "kind"
      (.leaf .keyword)
    let schema := Snapshot.ofMapping "listings"
      ((Mapping.empty.field "rooms" rooms).field "place" (.leaf .geoPoint)) 1
    let text := "_score ASC, place NEAR [1, -20] desc, " ++
      "rooms.area sortFilter: NOT rooms.kind IN ['a, b', 'c'] OR rooms.area = 1, place NEAR [2, 2]"
    ∃ s, read (some schema) text = .ok s ∧
      2 * (s.filters.map Expr.size).sum ≤ Expr.maxFragments ∧
      read (some schema) s.text = .ok s := by
  intro rooms schema text
  have hok : (read (some schema) text).toOption.map (fun s =>
      decide (2 * (s.filters.map Expr.size).sum ≤ Expr.maxFragments)) = some true := by
    decide +kernel
  obtain ⟨s, hs, hsize⟩ := toOption_map_eq_some.1 hok
  exact ⟨s, hs, of_decide_eq_true hsize, read_text_of_read hs (of_decide_eq_true hsize)⟩

end Sorting
end SearchDsl
