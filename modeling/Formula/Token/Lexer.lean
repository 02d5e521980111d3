import Formula.Token
import Formula.Text.Alphabetic
import Formula.Text.Numeric
import Formula.Number.Decimal.Text
import Formula.Number.Integer
import Formula.Calendar.Literal

/-!
# Reading tokens

A `Lexer` holds the characters that are left of a source and the place where they begin. One call of
`Lexer.next` skips blanks and reads one lexeme, the longest that can start there; it returns a token
or an error, and in either case the lexer to go on with. A character that starts no lexeme is left
where it is.

`lexeme` is the part that looks at the characters: from a text that starts with no blank it finds
the kind and the resolved text of the first lexeme and how many characters belong to it.
-/

namespace Formula

/-- What can be wrong with a lexeme, and where it starts. -/
inductive LexError where
  | unterminatedString (position : Nat)
  | unterminatedDate (position : Nat)
  | unterminatedReference (position : Nat)
  | invalidDate (text : String) (position : Nat)
  | invalidNumber (text : String) (position : Nat)
  | unexpectedCharacter (char : Char) (position : Nat)
  deriving DecidableEq

/-- The message for a lexical error. -/
def LexError.message : LexError → String
  | unterminatedString position =>
    "unterminated string literal starting at position " ++ position.repr
  | unterminatedDate position =>
    "unterminated date literal starting at position " ++ position.repr
  | unterminatedReference position =>
    "unterminated variable reference starting at position " ++ position.repr
  | invalidDate text position =>
    "invalid date literal '#" ++ text ++ "#' at position " ++ position.repr
  | invalidNumber text position =>
    "invalid number '" ++ text ++ "' at position " ++ position.repr
  | unexpectedCharacter char position =>
    "unexpected character '" ++ char.toString ++ "' at position " ++ position.repr

/-! ## Lexemes -/

namespace Lexeme

/-- What an escaped character stands for. -/
def escaped : Char → Char
  | 'n' => '\n'
  | 't' => '\t'
  | 'r' => '\r'
  | c => c

/-- The text of a string literal and the number of its characters, read behind the opening quote;
none if there is no closing one. -/
def quoted? : List Char → Option (List Char × Nat)
  | [] => none
  | '\'' :: _ => some ([], 1)
  | '\\' :: c :: rest => (quoted? rest).map fun (text, count) => (escaped c :: text, count + 2)
  | c :: rest => (quoted? rest).map fun (text, count) => (c :: text, count + 1)

/-- What stands before the next `close`, read behind the opening delimiter. -/
def delimited? (close : Char) (rest : List Char) : Option (List Char) :=
  if close ∈ rest then some (rest.takeWhile (· ≠ close)) else none

/-- The longest run of digits, with a point and further digits if such follow, and whether there is
a point. -/
def numeral (text : List Char) : List Char × Bool :=
  let whole := text.takeWhile Text.isDigit
  match text.dropWhile Text.isDigit with
  | '.' :: d :: rest =>
    if Text.isDigit d then (whole ++ '.' :: (d :: rest).takeWhile Text.isDigit, true)
    else (whole, false)
  | _ => (whole, false)

/-- Whether a character can start a name. -/
def startsName (c : Char) : Bool := Text.isAlphabetic c || c == '_'

/-- Whether a character can continue a name. -/
def continuesName (c : Char) : Bool := Text.isAlphabetic c || Text.isNumeric c || c == '_'

/-- The operator signs of two characters. -/
def twoCharSigns : List (Char × Char) :=
  [('=', '='), ('!', '='), ('<', '>'), ('<', '='), ('>', '='), ('<', '<'), ('>', '>'), ('&', '&'),
    ('|', '|')]

/-- The operator signs of one character. -/
def oneCharSigns : List Char := ['+', '-', '*', '/', '%', '<', '>', '=', '!', '&', '|', '^']

/-- The operator sign at the start of a text, the longer one if two fit. -/
def sign? : List Char → Option (List Char)
  | [] => none
  | [a] => if a ∈ oneCharSigns then some [a] else none
  | a :: b :: _ =>
    if (a, b) ∈ twoCharSigns then some [a, b]
    else if a ∈ oneCharSigns then some [a]
    else none

/-- Whether a text is the given ASCII word in some letter case. -/
def isWord (word : String) (text : List Char) : Bool := text.map Char.toLower == word.toList

/-- The kind and text of a bare word: a truth value in small letters, or a name as it is. -/
def ofWord (word : List Char) : TokenKind × List Char :=
  if isWord "true" word then (.boolean, "true".toList)
  else if isWord "false" word then (.boolean, "false".toList)
  else (.identifier, word)

end Lexeme

/-- A kind with a resolved text, or what is wrong, and the number of characters taken. -/
abbrev LexemeResult := Except (Nat → LexError) (TokenKind × List Char) × Nat

namespace Lexeme

/-- A string literal, read behind its opening quote; an unterminated one takes up everything. -/
def readString (rest : List Char) : LexemeResult :=
  match quoted? rest with
  | some (text, count) => (.ok (.string, text), count + 1)
  | none => (.error .unterminatedString, rest.length + 1)

/-- A date, read behind its opening number sign. -/
def readDate (rest : List Char) : LexemeResult :=
  match delimited? '#' rest with
  | some text =>
    (if (Calendar.read? text).isSome then .ok (.date, text)
      else .error (.invalidDate (String.ofList text)),
      text.length + 2)
  | none => (.error .unterminatedDate, rest.length + 1)

/-- A variable reference, read behind its opening bracket. -/
def readReference (rest : List Char) : LexemeResult :=
  match delimited? ']' rest with
  | some name => (.ok (.reference, name), name.length + 2)
  | none => (.error .unterminatedReference, rest.length + 1)

/-- A number; one that starts with the point gets a zero in front. -/
def readNumber (text : List Char) : LexemeResult :=
  let (digits, hasPoint) := numeral text
  let shown := if text.head? = some '.' then '0' :: digits else digits
  let valid := if hasPoint then (Decimal.read? shown).isSome else (Integer.read? shown).isSome
  let kind := if hasPoint then TokenKind.decimalNumber else .number
  (if valid then .ok (kind, shown) else .error (.invalidNumber (String.ofList shown)),
    digits.length)

/-- A name or truth value. -/
def readWord (text : List Char) : LexemeResult :=
  let name := text.takeWhile continuesName
  (.ok (ofWord name), name.length)

/-- An operator sign; any other character is unexpected and stays. -/
def readSign (c : Char) (text : List Char) : LexemeResult :=
  match sign? text with
  | some sign => (.ok (.operator, sign), sign.length)
  | none => (.error (.unexpectedCharacter c), 0)

/-- Whether a number starts here: with a digit, or with a point and a digit. -/
def startsNumber (c : Char) (rest : List Char) : Bool :=
  Text.isDigit c || c == '.' && rest.head?.any Text.isDigit

/-- The first lexeme of a text that starts with `c`, which is no blank. -/
def read (c : Char) (rest : List Char) : LexemeResult :=
  if c = '(' then (.ok (.leftParen, [c]), 1)
  else if c = ')' then (.ok (.rightParen, [c]), 1)
  else if c = ',' then (.ok (.comma, [c]), 1)
  else if c = '\'' then readString rest
  else if c = '#' then readDate rest
  else if c = '[' then readReference rest
  else if startsNumber c rest then readNumber (c :: rest)
  else if startsName c then readWord (c :: rest)
  else readSign c (c :: rest)

end Lexeme

/-! ## The lexer -/

/-- The characters left of a source, and the place of the first of them. -/
structure Lexer where
  rest : List Char
  position : Nat

namespace Lexer

/-- The lexer at the start of a source. -/
def ofString (source : String) : Lexer := ⟨source.toList, 0⟩

/-- The lexer after a number of characters. -/
def skip (lexer : Lexer) (count : Nat) : Lexer := ⟨lexer.rest.drop count, lexer.position + count⟩

/-- The lexer at the next character that is no blank. -/
def skipBlanks (lexer : Lexer) : Lexer := lexer.skip (lexer.rest.takeWhile Text.isBlank).length

/-- The next token or error, and the lexer behind it. At the end of the source the answer is the
token of the end, however often it is asked for. -/
def next (lexer : Lexer) : Except LexError Token × Lexer :=
  let start := lexer.skipBlanks
  match start.rest with
  | [] => (.ok (Token.eof start.position), start)
  | c :: rest =>
    let (result, count) := Lexeme.read c rest
    let token := match result with
      | .ok (kind, text) => .ok ⟨kind, String.ofList text, start.position⟩
      | .error fault => .error (fault start.position)
    (token, start.skip count)

/-- The tokens up to the end of the source, if none of them is wrong; at most `count` tokens. -/
def tokens : (count : Nat) → Lexer → Except LexError (List Token)
  | 0, _ => .ok []
  | count + 1, lexer =>
    match lexer.next with
    | (.error e, _) => .error e
    | (.ok token, lexer) =>
      if token.kind = .eof then .ok [token] else (tokens count lexer).map (token :: ·)

end Lexer

/-- The tokens of a source, ending with the token of the end. No source has more tokens than
characters, apart from that last one. -/
def tokenize (source : String) : Except LexError (List Token) :=
  (Lexer.ofString source).tokens (source.length + 1)

end Formula
