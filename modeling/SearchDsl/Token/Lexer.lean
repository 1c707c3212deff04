import SearchDsl.Error
import SearchDsl.Text.Character

/-!
# Reading tokens

`Token.scan` reads one token from the front of a text and says what is left; `Lexeme.read` reads
them all. Blanks are skipped before each token. A token is as long as it can be:

* a word starts with a letter or one of `_ @ #` and goes on with letters, numbers and `_ . @ # -`;
* a number is an optional minus sign, digits, an optional fraction and an optional exponent, and
  must not run into a word. It is a whole number if it has neither fraction nor exponent and fits
  into 64 bits, otherwise the nearest double;
* a string is quoted by `"` or `'`.

Every fault is reported at the first character of its token.
-/

namespace SearchDsl

namespace Token

/-- The character may start a word. -/
def startsWord (c : Char) : Bool := Text.isLetter c || c = '_' || c = '@' || c = '#'

/-- The character may go on with a word. -/
def continuesWord (c : Char) : Bool :=
  Text.isAlphanumeric c || c = '_' || c = '.' || c = '@' || c = '#' || c = '-'

/-- The written parts of a number and what follows it. An absent part is empty. -/
structure NumberParts where
  negative : Bool
  whole : List Char
  fraction : List Char
  exponentMark : List Char
  exponent : List Char
  rest : List Char
  deriving Repr

namespace NumberParts

/-- The fraction's digits and what follows them. A point without a digit belongs to neither. -/
def readFraction : List Char → List Char × List Char
  | '.' :: cs =>
    let digits := cs.takeWhile Char.isDigit
    if digits.isEmpty then ([], '.' :: cs) else (digits, cs.dropWhile Char.isDigit)
  | cs => ([], cs)

/-- The sign in front of an exponent's digits. -/
def readSign : List Char → List Char × List Char
  | c :: cs => if c = '+' || c = '-' then ([c], cs) else ([], c :: cs)
  | [] => ([], [])

/-- The mark of an exponent with its sign, the exponent's digits, and what follows them. A mark
without digits does not belong to the number. -/
def readExponent : List Char → List Char × List Char × List Char
  | c :: cs =>
    let (sign, after) := readSign cs
    let digits := after.takeWhile Char.isDigit
    if (c = 'e' || c = 'E') && !digits.isEmpty then
      (c :: sign, digits, after.dropWhile Char.isDigit)
    else ([], [], c :: cs)
  | [] => ([], [], [])

/-- The parts of a number after its sign. -/
def readUnsigned (negative : Bool) (cs : List Char) : NumberParts :=
  let whole := cs.takeWhile Char.isDigit
  let (fraction, cs) := readFraction (cs.dropWhile Char.isDigit)
  let (mark, exponent, cs) := readExponent cs
  ⟨negative, whole, fraction, mark, exponent, cs⟩

/-- The parts of a number. -/
def read : List Char → NumberParts
  | '-' :: cs => readUnsigned true cs
  | cs => readUnsigned false cs

/-- The number as it was written. -/
def chars (p : NumberParts) : List Char :=
  (if p.negative then ['-'] else []) ++ p.whole ++
    (if p.fraction.isEmpty then [] else '.' :: p.fraction) ++ p.exponentMark ++ p.exponent

/-- The number has neither fraction nor exponent. -/
def isWhole (p : NumberParts) : Bool := p.fraction.isEmpty && p.exponent.isEmpty

/-- The number that was written. -/
def decimal (p : NumberParts) : Decimal :=
  let e : Int := Decimal.ofDigits p.exponent
  let e := if p.exponentMark.contains '-' then -e else e
  ⟨p.negative, Decimal.ofDigits (p.whole ++ p.fraction), e - p.fraction.length⟩

/-- The value of the number; none beyond the finite doubles. -/
def numeral? (p : NumberParts) : Option Numeral :=
  let n : Int := Decimal.ofDigits p.whole
  let i := if p.negative then -n else n
  if p.isWhole && Numeral.isSigned64 i then some (.whole i)
  else p.decimal.nearest?.map .double

end NumberParts

/-- The number at the front, and what follows it. -/
def scanNumber (cs : List Char) : Except TextFault Token × List Char :=
  let p := NumberParts.read cs
  let fault := Except.error (.badNumber (String.ofList p.chars))
  let token :=
    if p.rest.head?.any continuesWord then fault
    else match p.numeral? with
      | some n => .ok (.number n)
      | none => fault
  (token, p.rest)

/-- The string whose opening mark has been read, and what follows it. -/
def scanString (quote : Char) (cs : List Char) : Except TextFault Token × List Char :=
  match Text.Quoted.read quote cs with
  | some (s, rest) => (.ok (.string (String.ofList s)), rest)
  | none => (.error .unclosedString, [])

/-- The tokens that are a single mark and start no other token. -/
def mark? : Char → Option Token
  | ':' => some .colon
  | ',' => some .comma
  | '(' => some .leftParen
  | ')' => some .rightParen
  | '[' => some .leftBracket
  | ']' => some .rightBracket
  | '=' => some (.symbol .equals)
  | _ => none

/-- The relation that starts with the character, and what follows it. -/
def scanRelation : Char → List Char → Option (Except TextFault Token × List Char)
  | '>', '=' :: cs => some (.ok (.symbol .greaterEquals), cs)
  | '>', cs => some (.ok (.symbol .greater), cs)
  | '<', '=' :: cs => some (.ok (.symbol .lessEquals), cs)
  | '<', '>' :: cs => some (.ok (.symbol .angles), cs)
  | '<', cs => some (.ok (.symbol .less), cs)
  | '!', '=' :: cs => some (.ok (.symbol .bangEquals), cs)
  | '!', cs => some (.error .loneBang, cs)
  | _, _ => none

/-- The token whose first character is `c`, and what follows it. A character that no token starts
with is not passed over. -/
def scanFrom (c : Char) (cs : List Char) : Except TextFault Token × List Char :=
  match mark? c, scanRelation c cs with
  | some t, _ => (.ok t, cs)
  | none, some r => r
  | none, none =>
    if c = '"' || c = '\'' then scanString c cs
    else if c.isDigit || (c = '-' && cs.head?.any Char.isDigit) then scanNumber (c :: cs)
    else if startsWord c then
      (.ok (.word (String.ofList (c :: cs.takeWhile continuesWord))), cs.dropWhile continuesWord)
    else (.error (.strayCharacter c), c :: cs)

/-- One step through a text: where the token starts, the token, and what is left. -/
structure Scan where
  start : Nat
  token : Except TextFault Token
  position : Nat
  rest : List Char

/-- The token at the front of the text that is left at a position. -/
def scan (position : Nat) (text : List Char) : Scan :=
  let start := position + (text.takeWhile Text.isBlank).length
  match text.dropWhile Text.isBlank with
  | [] => ⟨start, .ok .eof, start, []⟩
  | c :: cs =>
    let (token, rest) := scanFrom c cs
    ⟨start, token, start + ((c :: cs).length - rest.length), rest⟩

theorem length_dropWhile_le (p : Char → Bool) (cs : List Char) :
    (cs.dropWhile p).length ≤ cs.length := by
  induction cs with
  | nil => simp
  | cons c cs ih =>
    rw [List.dropWhile_cons]
    split
    · exact Nat.le_succ_of_le ih
    · exact Nat.le_refl _

theorem NumberParts.length_readFraction_le (cs : List Char) :
    (readFraction cs).2.length ≤ cs.length := by
  unfold readFraction
  split
  · rename_i cs
    have := length_dropWhile_le Char.isDigit cs
    dsimp only
    split <;> simp only [List.length_cons] <;> omega
  · exact Nat.le_refl _

theorem NumberParts.length_readSign_le (cs : List Char) : (readSign cs).2.length ≤ cs.length := by
  unfold readSign
  split
  · split <;> simp
  · simp

theorem NumberParts.length_readExponent_le (cs : List Char) :
    (readExponent cs).2.2.length ≤ cs.length := by
  unfold readExponent
  split
  · rename_i c cs
    have h₁ := length_readSign_le cs
    have h₂ := length_dropWhile_le Char.isDigit (readSign cs).2
    dsimp only
    split <;> simp only [List.length_cons] <;> omega
  · simp

theorem NumberParts.length_readUnsigned_le (negative : Bool) (cs : List Char) :
    (readUnsigned negative cs).rest.length ≤ (cs.dropWhile Char.isDigit).length :=
  Nat.le_trans (length_readExponent_le _) (length_readFraction_le _)

/-- A number that starts with a digit or a minus sign uses up that character. -/
theorem NumberParts.length_read_le {c : Char} {cs : List Char} (h : c.isDigit = true ∨ c = '-') :
    (read (c :: cs)).rest.length ≤ cs.length := by
  unfold read
  split
  · rename_i h'
    rw [← (List.cons.inj h').2]
    exact Nat.le_trans (length_readUnsigned_le _ _) (length_dropWhile_le _ _)
  · rename_i h'
    have hd := h.resolve_right fun e => h' cs (e ▸ rfl)
    have := length_readUnsigned_le false (c :: cs)
    rw [List.dropWhile_cons_of_pos hd] at this
    exact Nat.le_trans this (length_dropWhile_le _ _)

theorem length_scanString_le (quote : Char) (cs : List Char) :
    (scanString quote cs).2.length ≤ cs.length := by
  unfold scanString
  split
  · rename_i h
    exact Nat.le_of_lt (Text.Quoted.read_rest_length h)
  · simp

theorem length_scanRelation_le {c : Char} {cs : List Char}
    {r : Except TextFault Token × List Char} (h : scanRelation c cs = some r) :
    r.2.length ≤ cs.length := by
  unfold scanRelation at h
  split at h <;> simp only [Option.some.injEq, reduceCtorEq] at h <;> subst h <;> simp

/-- A token uses up its first character. -/
theorem length_scanFrom_le {c : Char} {cs : List Char} {t : Token} (h : (scanFrom c cs).1 = .ok t) :
    (scanFrom c cs).2.length ≤ cs.length := by
  unfold scanFrom at h ⊢
  split
  · exact Nat.le_refl _
  · rename_i hr
    exact length_scanRelation_le hr
  · split
    · exact length_scanString_le _ _
    · split
      · rename_i hc
        refine NumberParts.length_read_le ?_
        simp only [Bool.or_eq_true, Bool.and_eq_true, decide_eq_true_eq] at hc
        exact hc.imp_right And.left
      · split
        · exact length_dropWhile_le _ _
        · simp_all

/-- A token uses up at least one character of the text. -/
theorem length_scan_lt {position : Nat} {text : List Char} {t : Token}
    (h : (scan position text).token = .ok t) (he : t ≠ .eof) :
    (scan position text).rest.length < text.length := by
  have hd := length_dropWhile_le Text.isBlank text
  unfold scan at h ⊢
  dsimp only at h ⊢
  split
  · rename_i e
    rw [e] at h
    exact absurd (Except.ok.inj h).symm he
  · rename_i c cs e
    rw [e] at h hd
    have := length_scanFrom_le h
    simp only [List.length_cons] at hd
    dsimp only
    omega

end Token

/-- A token with the position it starts at, or the fault found there. -/
structure Lexeme where
  start : Nat
  content : Except TextFault Token
  deriving Repr

namespace Lexeme

/-- The tokens of the text that is left at a position, up to the end or the first fault. -/
def readFrom (position : Nat) (text : List Char) : List Lexeme :=
  let s := Token.scan position text
  match h : s.token with
  | .error fault => [⟨s.start, .error fault⟩]
  | .ok token =>
    if he : token = .eof then [⟨s.start, .ok .eof⟩]
    else
      have : s.rest.length < text.length := Token.length_scan_lt h he
      ⟨s.start, .ok token⟩ :: readFrom s.position s.rest
termination_by text.length

/-- The tokens of a text, up to the end or the first fault. -/
def read (text : List Char) : List Lexeme := readFrom 0 text

end Lexeme
end SearchDsl
