import Mathlib.Data.List.DropRight
import Mathlib.Data.List.Forall2
import SearchDsl.Text.Character

/-!
# Texts without the blanks around them

What is left of a text by trimming it is described by how the text is put together: there are blanks
around it, and none at its own ends (`Text.Trims`).

* `Text.trims_iff`: there is one such text, and trimming finds it;
* `Text.trim_isEmpty`: it is empty if there are only blanks.
-/

namespace SearchDsl.Text

/-- There is nothing but blanks. -/
def Blanks (w : List Char) : Prop := ∀ c ∈ w, isBlank c = true

theorem Blanks.nil : Blanks [] := nofun

theorem Blanks.append {v w : List Char} (hv : Blanks v) (hw : Blanks w) : Blanks (v ++ w) :=
  List.forall_mem_append.2 ⟨hv, hw⟩

theorem Blanks.reverse {w : List Char} (h : Blanks w) : Blanks w.reverse :=
  fun c hc => h c (List.mem_reverse.1 hc)

theorem Blanks.dropWhile_eq_nil {w : List Char} (h : Blanks w) : w.dropWhile isBlank = [] :=
  List.dropWhile_eq_nil_iff.2 h

/-- Blanks are dropped as far as the first character that is none. -/
theorem Blanks.dropWhile_append {w cs : List Char} (h : Blanks w)
    (hcs : ∀ c ∈ cs.head?, isBlank c = false) : (w ++ cs).dropWhile isBlank = cs := by
  rw [List.dropWhile_append_of_pos h]
  cases cs with
  | nil => rfl
  | cons c cs => exact List.dropWhile_cons_of_neg (by simp [hcs c rfl])

theorem isBlankText_iff {s : String} : isBlankText s = true ↔ Blanks s.toList := List.all_eq_true

/-! ### Trimming -/

/-- The second text is the first one without the blanks around it. -/
structure Trims (s t : String) : Prop where
  around : ∃ front back, Blanks front ∧ Blanks back ∧ s.toList = front ++ t.toList ++ back
  starts : ∀ c ∈ t.toList.head?, isBlank c = false
  ends : ∀ c ∈ t.toList.getLast?, isBlank c = false

theorem trimChars_eq_rdropWhile (cs : List Char) :
    trimChars cs = (cs.dropWhile isBlank).rdropWhile isBlank := rfl

theorem trims_trim (s : String) : Trims s (trim s) := by
  have hchars : (trim s).toList = (s.toList.dropWhile isBlank).rdropWhile isBlank := by
    rw [trim, String.toList_ofList, trimChars_eq_rdropWhile]
  refine ⟨⟨s.toList.takeWhile isBlank, (s.toList.dropWhile isBlank).rtakeWhile isBlank,
    fun c hc => List.mem_takeWhile_imp hc, fun c hc => List.mem_rtakeWhile_imp hc, ?_⟩, ?_, ?_⟩
  · rw [hchars, List.append_assoc, List.rdropWhile_append_rtakeWhile,
      List.takeWhile_append_dropWhile]
  · intro c hc
    rw [hchars] at hc
    -- Dropping at the end leaves the first character as it is.
    obtain ⟨back, hback⟩ := List.rdropWhile_prefix isBlank (s.toList.dropWhile isBlank)
    have hhead := s.toList.head?_dropWhile_not isBlank
    rw [← hback, List.head?_append, hc] at hhead
    exact hhead
  · intro c hc
    rw [hchars] at hc
    obtain ⟨hne, rfl⟩ := List.mem_getLast?_eq_getLast hc
    simpa using List.rdropWhile_last_not isBlank _ hne

/-- There is one way to trim a text. -/
theorem trims_iff {s t : String} : Trims s t ↔ t = trim s := by
  constructor
  · rintro ⟨⟨front, back, hfront, hback, hs⟩, hstarts, hends⟩
    apply String.toList_injective
    rw [trim, String.toList_ofList, hs, trimChars]
    rcases ht : t.toList with _ | ⟨c, cs⟩
    · rw [List.append_nil, (hfront.append hback).dropWhile_eq_nil]
      rfl
    · rw [ht] at hstarts hends
      rw [List.append_assoc, hfront.dropWhile_append (by simpa using hstarts), List.reverse_append,
        hback.reverse.dropWhile_append (by rwa [List.head?_reverse]), List.reverse_reverse]
  · rintro rfl
    exact trims_trim s

theorem forall₂_trims_iff {ss ts : List String} :
    List.Forall₂ Trims ss ts ↔ ts = ss.map trim := by
  have htrims : Trims = fun s t => trim s = t := by
    funext s t
    exact propext (trims_iff.trans eq_comm)
  rw [htrims, ← List.forall₂_map_left_iff, List.forall₂_eq_eq_eq, eq_comm]

theorem Trims.of_blanks {s : String} (h : Blanks s.toList) : Trims s "" where
  around := ⟨s.toList, [], h, .nil, by simp⟩
  starts := by simp
  ends := by simp

/-- Nothing is left of a text by trimming it if it holds nothing but blanks. -/
theorem trim_isEmpty (s : String) : (trim s).isEmpty = isBlankText s := by
  rw [Bool.eq_iff_iff, isBlankText_iff, String.isEmpty_iff]
  constructor
  · intro h
    obtain ⟨front, back, hfront, hback, hs⟩ := (trims_trim s).around
    rw [hs, h]
    simpa using hfront.append hback
  · intro h
    exact (trims_iff.1 (.of_blanks h)).symm

/-- A text that is there and does not hold only blanks. -/
theorem nonBlank_eq_some_iff {s : Option String} {t : String} :
    nonBlank s = some t ↔ s = some t ∧ ¬ Blanks t.toList := by
  rw [nonBlank, Option.filter_eq_some_iff, ← isBlankText_iff, Bool.not_eq_true', Bool.not_eq_true]

end SearchDsl.Text
