/-!
# Patterns

Clients write patterns in the style of `LIKE`, the backend wants wildcards. In a `LIKE` pattern `%`
stands for any sequence and `_` for any one character; a backslash before one of `% _ * ?` makes
that character literal, and any other backslash is literal itself. In a wildcard pattern `*` stands
for any sequence and `?` for any one character, and a backslash makes the next character literal.

A pattern of either kind is a list of elements: a character that stands for itself, any one
character, or any sequence of characters.

* `readLike` and `readWildcard` give the elements of a written pattern.
* `Matches` says which texts a list of elements fits.

The wildcard pattern for a `LIKE` pattern has the same elements (`readWildcard_wildcardOfLike`).
-/

namespace SearchDsl.Pattern

/-- The wildcard pattern for a `LIKE` pattern. -/
def wildcardOfLike : List Char → List Char
  | [] => []
  | '\\' :: '%' :: cs => '%' :: wildcardOfLike cs
  | '\\' :: '_' :: cs => '_' :: wildcardOfLike cs
  | '\\' :: '*' :: cs => '\\' :: '*' :: wildcardOfLike cs
  | '\\' :: '?' :: cs => '\\' :: '?' :: wildcardOfLike cs
  | '\\' :: cs => '\\' :: '\\' :: wildcardOfLike cs
  | '%' :: cs => '*' :: wildcardOfLike cs
  | '_' :: cs => '?' :: wildcardOfLike cs
  | '*' :: cs => '\\' :: '*' :: wildcardOfLike cs
  | '?' :: cs => '\\' :: '?' :: wildcardOfLike cs
  | c :: cs => c :: wildcardOfLike cs

/-- The wildcard pattern for a `LIKE` pattern. -/
def ofLike (like : String) : String := String.ofList (wildcardOfLike like.toList)

/-! ### What patterns match -/

/-- An element of a pattern. -/
inductive Element
  | literal (c : Char)
  | one
  | any
  deriving DecidableEq, Repr

/-- The character loses its meaning after a backslash in a `LIKE` pattern. -/
def isLikeSpecial (c : Char) : Bool := c = '%' || c = '_' || c = '*' || c = '?'

/-- The element that a character without a backslash is in a `LIKE` pattern. -/
def likeElement (c : Char) : Element :=
  if c = '%' then .any else if c = '_' then .one else .literal c

/-- The elements of a `LIKE` pattern. -/
def readLike : List Char → List Element
  | [] => []
  | [c] => [likeElement c]
  | c :: d :: cs =>
    if c = '\\' && isLikeSpecial d then .literal d :: readLike cs
    else likeElement c :: readLike (d :: cs)

/-- The element that a character without a backslash is in a wildcard pattern. -/
def wildcardElement (c : Char) : Element :=
  if c = '*' then .any else if c = '?' then .one else .literal c

/-- The elements of a wildcard pattern. A backslash at the end stands for itself. -/
def readWildcard : List Char → List Element
  | [] => []
  | [c] => [wildcardElement c]
  | c :: d :: cs =>
    if c = '\\' then .literal d :: readWildcard cs else wildcardElement c :: readWildcard (d :: cs)

/-- The elements fit the characters. -/
inductive Matches : List Element → List Char → Prop
  | nil : Matches [] []
  | literal {c : Char} {es : List Element} {cs : List Char} :
      Matches es cs → Matches (.literal c :: es) (c :: cs)
  | one {c : Char} {es : List Element} {cs : List Char} :
      Matches es cs → Matches (.one :: es) (c :: cs)
  | none {es : List Element} {cs : List Char} : Matches es cs → Matches (.any :: es) cs
  | more {c : Char} {es : List Element} {cs : List Char} :
      Matches (.any :: es) cs → Matches (.any :: es) (c :: cs)

/-- A character that is no backslash is an element of a wildcard pattern on its own. -/
theorem readWildcard_cons {c : Char} (h : c ≠ '\\') (cs : List Char) :
    readWildcard (c :: cs) = wildcardElement c :: readWildcard cs := by
  cases cs with
  | nil => simp [readWildcard]
  | cons d cs => simp [readWildcard, h]

/-- The character after a backslash is an element of a wildcard pattern on its own. -/
theorem readWildcard_escaped (c : Char) (cs : List Char) :
    readWildcard ('\\' :: c :: cs) = .literal c :: readWildcard cs := by
  simp [readWildcard]

/-- A backslash in front of a character that keeps its meaning is an element on its own. -/
theorem readLike_backslash {cs : List Char} (h : ∀ d ds, cs = d :: ds → isLikeSpecial d = false) :
    readLike ('\\' :: cs) = .literal '\\' :: readLike cs := by
  cases cs with
  | nil => rfl
  | cons d ds => simp [readLike, h d ds rfl, likeElement]

/-- A character that is no backslash is an element of a `LIKE` pattern on its own. -/
theorem readLike_cons {c : Char} (h : c ≠ '\\') (cs : List Char) :
    readLike (c :: cs) = likeElement c :: readLike cs := by
  cases cs with
  | nil => rfl
  | cons d ds => simp [readLike, h]

/-- The wildcard pattern has the elements of the `LIKE` pattern. -/
theorem readWildcard_wildcardOfLike (like : List Char) :
    readWildcard (wildcardOfLike like) = readLike like := by
  fun_induction wildcardOfLike like with
  | case1 => rfl
  | case2 cs ih =>
    rw [readWildcard_cons (by decide), ih]
    simp [readLike, wildcardElement, isLikeSpecial]
  | case3 cs ih =>
    rw [readWildcard_cons (by decide), ih]
    simp [readLike, wildcardElement, isLikeSpecial]
  | case4 cs ih =>
    rw [readWildcard_escaped, ih]
    simp [readLike, isLikeSpecial]
  | case5 cs ih =>
    rw [readWildcard_escaped, ih]
    simp [readLike, isLikeSpecial]
  | case6 cs h₁ h₂ h₃ h₄ ih =>
    rw [readWildcard_escaped, ih]
    refine (readLike_backslash ?_).symm
    rintro d ds rfl
    simp_all [isLikeSpecial]
  | case7 cs ih => rw [readWildcard_cons (by decide), ih, readLike_cons (by decide)]; rfl
  | case8 cs ih => rw [readWildcard_cons (by decide), ih, readLike_cons (by decide)]; rfl
  | case9 cs ih => rw [readWildcard_escaped, ih, readLike_cons (by decide)]; rfl
  | case10 cs ih => rw [readWildcard_escaped, ih, readLike_cons (by decide)]; rfl
  | case11 c cs h₁ h₂ h₃ h₄ h₅ h₆ h₇ h₈ h₉ ih =>
    rw [readWildcard_cons, ih, readLike_cons]
    all_goals simp_all [wildcardElement, likeElement]

end SearchDsl.Pattern
