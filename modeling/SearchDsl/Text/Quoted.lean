/-!
# Quoted strings

A string literal stands between two quotation marks of one kind, either `"` or `'`. Inside it a
backslash before a quotation mark of any kind or before another backslash stands for that character;
before any other character it is an ordinary character. Texts are written with `"`, and only `"` and
the backslash are escaped.

The main statement: a written text reads back, whatever follows it (`read_escape`).
-/

namespace SearchDsl.Text.Quoted

/-- The characters of a text between its quotation marks. -/
def escape : List Char → List Char
  | [] => []
  | c :: cs => if c = '"' || c = '\\' then '\\' :: c :: escape cs else c :: escape cs

/-- The text between double quotation marks. -/
def write (s : String) : String := String.ofList ('"' :: escape s.toList ++ ['"'])

/-- The character stands for itself after a backslash. -/
def isEscapable (c : Char) : Bool := c = '"' || c = '\'' || c = '\\'

/-- A character in front of what was read. -/
def push (c : Char) (r : Option (List Char × List Char)) : Option (List Char × List Char) :=
  r.map fun (s, rest) => (c :: s, rest)

/-- What a literal opened by `quote` holds, and what follows its closing mark; none if it is never
closed. -/
def read (quote : Char) : List Char → Option (List Char × List Char)
  | [] => none
  | '\\' :: d :: ds =>
    if isEscapable d then push d (read quote ds) else push '\\' (push d (read quote ds))
  | c :: cs => if c = quote then some ([], cs) else push c (read quote cs)

theorem push_eq_some_iff {c : Char} {r : Option (List Char × List Char)} {s rest : List Char} :
    push c r = some (s, rest) ↔ ∃ t, r = some (t, rest) ∧ s = c :: t := by
  cases r with
  | none => simp [push]
  | some p =>
    obtain ⟨t, u⟩ := p
    simp only [push, Option.map_some, Option.some.injEq, Prod.mk.injEq]
    exact ⟨fun ⟨h, e⟩ => ⟨t, ⟨rfl, e⟩, h.symm⟩, fun ⟨_, ⟨h, e⟩, h'⟩ => ⟨h ▸ h'.symm, e⟩⟩

/-- What follows a literal is shorter than what it was read from. -/
theorem read_rest_length {quote : Char} {cs s rest : List Char}
    (h : read quote cs = some (s, rest)) : rest.length < cs.length := by
  fun_induction read quote cs generalizing s with
  | case1 => simp at h
  | case2 d ds _ ih =>
    obtain ⟨t, h, -⟩ := push_eq_some_iff.1 h
    have := ih h
    simp only [List.length_cons]
    omega
  | case3 d ds _ ih =>
    obtain ⟨t, h, -⟩ := push_eq_some_iff.1 h
    obtain ⟨t, h, -⟩ := push_eq_some_iff.1 h
    have := ih h
    simp only [List.length_cons]
    omega
  | case4 =>
    simp only [Option.some.injEq, Prod.mk.injEq] at h
    simp [← h.2]
  | case5 c cs _ _ ih =>
    obtain ⟨t, h, -⟩ := push_eq_some_iff.1 h
    have := ih h
    simp only [List.length_cons]
    omega

/-- A character that is neither a backslash nor the closing mark stands for itself. -/
theorem read_cons {quote c : Char} {cs : List Char} (hb : c ≠ '\\') (hq : c ≠ quote) :
    read quote (c :: cs) = push c (read quote cs) := by
  rw [read.eq_def]
  simp [hb, hq]

/-- A written text reads back, whatever follows it. -/
theorem read_escape (s rest : List Char) :
    read '"' (escape s ++ '"' :: rest) = some (s, rest) := by
  induction s with
  | nil => rw [read.eq_def]; simp [escape]
  | cons c cs ih =>
    by_cases h : c = '"' ∨ c = '\\'
    · rcases h with rfl | rfl <;> simp [escape, read, isEscapable, ih, push]
    · simp only [not_or] at h
      simp [escape, h.1, h.2, read_cons h.2 h.1, ih, push]

end SearchDsl.Text.Quoted
