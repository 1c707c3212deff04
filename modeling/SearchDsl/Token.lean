import SearchDsl.Number.Numeral
import SearchDsl.Text.Case

/-!
# Tokens

The words, literals and marks that filters, sorts and facet lists are made of. Which words are
keywords is decided by the grammar that reads them, so one set of tokens serves all three.
-/

namespace SearchDsl

/-- A relation written with marks alone. -/
inductive Symbol
  | equals
  | angles
  | bangEquals
  | greater
  | greaterEquals
  | less
  | lessEquals
  deriving DecidableEq, Repr

/-- The marks of the symbol. -/
def Symbol.text : Symbol → String
  | equals => "="
  | angles => "<>"
  | bangEquals => "!="
  | greater => ">"
  | greaterEquals => ">="
  | less => "<"
  | lessEquals => "<="

/-- A token. The end of the text counts as one. -/
inductive Token
  | word (w : String)
  | string (s : String)
  | number (n : Numeral)
  | symbol (s : Symbol)
  | colon
  | comma
  | leftParen
  | rightParen
  | leftBracket
  | rightBracket
  | eof
  deriving DecidableEq, Repr

namespace Token

/-- The token is the given word, up to the case of ASCII letters. -/
def isKeyword (keyword : String) : Token → Bool
  | word w => Text.sameIgnoringCase w keyword
  | _ => false

/-- The token in an error message. -/
def describe : Token → String
  | word w => "'" ++ w ++ "'"
  | string s => "string \"" ++ s ++ "\""
  | number n => "number " ++ n.text
  | symbol s => "'" ++ s.text ++ "'"
  | colon => "':'"
  | comma => "','"
  | leftParen => "'('"
  | rightParen => "')'"
  | leftBracket => "'['"
  | rightBracket => "']'"
  | eof => "end of input"

end Token
end SearchDsl
