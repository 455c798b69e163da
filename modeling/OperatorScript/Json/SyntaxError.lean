/-!
What can be wrong with a JSON text, and where.
-/

set_option autoImplicit false
set_option relaxedAutoImplicit false

namespace OperatorScript.Json

inductive Problem where
  | valueCutShort
  | listCutShort
  | objectCutShort
  | stringCutShort
  | valueExpected
  | wordExpected
  | colonExpected
  | listSeparatorExpected
  | objectSeparatorExpected
  | nameExpected
  | trailingComma
  | trailingText
  | badNumber
  | numberTooLarge
  | badEscape
  | loneSurrogate
  | surrogateCutShort
  | controlCharacter
  | nestedTooDeeply
deriving DecidableEq

def Problem.message : Problem → String
  | .valueCutShort => "EOF while parsing a value"
  | .listCutShort => "EOF while parsing a list"
  | .objectCutShort => "EOF while parsing an object"
  | .stringCutShort => "EOF while parsing a string"
  | .valueExpected => "expected value"
  | .wordExpected => "expected ident"
  | .colonExpected => "expected `:`"
  | .listSeparatorExpected => "expected `,` or `]`"
  | .objectSeparatorExpected => "expected `,` or `\x7d`"
  | .nameExpected => "key must be a string"
  | .trailingComma => "trailing comma"
  | .trailingText => "trailing characters"
  | .badNumber => "invalid number"
  | .numberTooLarge => "number out of range"
  | .badEscape => "invalid escape"
  | .loneSurrogate => "lone leading surrogate in hex escape"
  | .surrogateCutShort => "unexpected end of hex escape"
  | .controlCharacter => "control character (\\u0000-\\u001F) found while parsing a string"
  | .nestedTooDeeply => "recursion limit exceeded"

/-- A problem at a line, counted from one, and a column, the number of bytes of that line up to the
place where the problem shows. -/
structure SyntaxError where
  problem : Problem
  line : Nat
  column : Nat
deriving DecidableEq

def SyntaxError.message (e : SyntaxError) : String :=
  e.problem.message ++ " at line " ++ toString e.line ++ " column " ++ toString e.column

def advance : Nat → Nat → Nat → List Char → Nat × Nat
  | line, column, _, [] => (line, column)
  | line, column, bytes, c :: cs =>
    if bytes = 0 then (line, column)
    else if c = '\n' then advance (line + 1) 0 (bytes - 1) cs
    else advance line (column + min bytes c.utf8Size) (bytes - c.utf8Size) cs

def SyntaxError.after (problem : Problem) (bytes : Nat) (text : List Char) : SyntaxError :=
  let (line, column) := advance 1 0 bytes text
  { problem, line, column }

end OperatorScript.Json
