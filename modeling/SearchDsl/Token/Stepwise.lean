import SearchDsl.Token.Lexer

/-!
# Reading token by token

A `Lexer` stands at a position of its text and remembers where the token that it returned last
starts. `Lexer.next` returns the token at the position and moves behind it, and `Lexer.peek` returns
the token and moves back. Both may find a fault there instead, with a position and a piece of the
text to show.
-/

namespace SearchDsl

/-- A text being read token by token: how many characters have been passed over, and where the last
token starts. -/
structure Lexer where
  source : List Char
  position : Nat
  start : Nat
  deriving DecidableEq, Repr

namespace Lexer

/-- A lexer at the beginning of a text. -/
def ofText (text : String) : Lexer := ⟨text.toList, 0, 0⟩

/-- The error of a fault at a position of the text. -/
def errorAt (l : Lexer) (position : Nat) (f : TextFault) : Error :=
  Error.atPosition l.source position f

/-- What has not been passed over. -/
def rest (l : Lexer) : List Char := l.source.drop l.position

/-- The next token, and the lexer behind it. A fault is passed over as far as it was read. -/
def next (l : Lexer) : Except Error Token × Lexer :=
  let s := Token.scan l.position l.rest
  (s.token.mapError (l.errorAt s.start), { l with position := s.position, start := s.start })

/-- The next token, and the lexer moved back to where it was. -/
def peek (l : Lexer) : Except Error Token × Lexer :=
  let (token, l') := l.next
  (token, { l' with position := l.position, start := l.start })

end Lexer
end SearchDsl
