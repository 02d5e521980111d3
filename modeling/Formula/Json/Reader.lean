import Formula.Json.Number

/-!
# Reading JSON

A strict reader: blanks are spaces, tabs and line ends, numbers have neither leading zeros nor bare
points, there are no trailing commas, and nothing but blanks follows the document. Every reader
takes the characters that are left and returns what it read together with what is left then, or
nothing if the text is not JSON.

What a number denotes is said by `Json.number?`, and some numbers are invalid. Arrays and objects
nest at most `maxNesting` deep.
-/

namespace Formula.Json

/-- How deep arrays and objects may nest. -/
def maxNesting : Nat := 127

/-- Reads something at the start of a text and returns the rest. -/
abbrev Reader (α : Type) := List Char → Option (α × List Char)

/-- Whether a character is a blank of JSON. -/
def isBlank (c : Char) : Bool := c == ' ' || c == '\n' || c == '\t' || c == '\r'

/-- A text without the blanks in front. -/
def skipBlanks (text : List Char) : List Char := text.dropWhile isBlank

/-- Reads a given word. -/
def word? (word : List Char) (text : List Char) : Option (List Char) :=
  if word.isPrefixOf text then some (text.drop word.length) else none

/-! ## Numbers -/

/-- Reads one or more digits. -/
def digits? : Reader (List Char) := fun text =>
  let digits := text.takeWhile Text.isDigit
  if digits.isEmpty then none else some (digits, text.dropWhile Text.isDigit)

/-- Reads the digits before the point: a single zero, or digits that do not start with one. -/
def wholePart? : Reader (List Char)
  | '0' :: rest => if rest.head?.any Text.isDigit then none else some (['0'], rest)
  | text => digits? text

/-- Reads the digits behind a point, if there is one. -/
def fraction? : Reader (Option (List Char))
  | '.' :: rest => (digits? rest).map fun (digits, rest) => (some digits, rest)
  | text => some (none, text)

/-- Reads the sign of an exponent. -/
def exponentSign : List Char → Bool × List Char
  | '-' :: rest => (true, rest)
  | '+' :: rest => (false, rest)
  | rest => (false, rest)

/-- Reads an exponent, if there is one. -/
def exponent? : Reader (Option Int)
  | c :: rest =>
    if c = 'e' ∨ c = 'E' then
      let (negative, rest) := exponentSign rest
      (digits? rest).map fun (digits, rest) =>
        let value : Int := Text.natOfDigits digits
        (some (if negative then -value else value), rest)
    else some (none, c :: rest)
  | [] => some (none, [])

/-- Reads a number behind its sign. -/
def unsigned? (negative : Bool) : Reader Scalar := fun text => do
  let (whole, text) ← wholePart? text
  let (fraction, text) ← fraction? text
  let (exponent, text) ← exponent? text
  return (← number? negative whole fraction exponent, text)

/-! ## Strings -/

/-- The value of a digit in base sixteen. -/
def hexValue? (c : Char) : Option Nat :=
  if '0' ≤ c ∧ c ≤ '9' then some (c.toNat - 48)
  else if 'a' ≤ c ∧ c ≤ 'f' then some (c.toNat - 87)
  else if 'A' ≤ c ∧ c ≤ 'F' then some (c.toNat - 55)
  else none

/-- Reads four digits in base sixteen. -/
def fourHex? : Reader Nat
  | a :: b :: c :: d :: rest => do
    return (((← hexValue? a) * 16 + (← hexValue? b)) * 256 +
      ((← hexValue? c) * 16 + (← hexValue? d)), rest)
  | _ => none

/-- Reads a character behind `\u`: one group of digits, or two that form a surrogate pair. -/
def unicode? : Reader Char := fun text => do
  let (high, text) ← fourHex? text
  if 0xD800 ≤ high ∧ high < 0xDC00 then
    let text ← word? ['\\', 'u'] text
    let (low, text) ← fourHex? text
    if 0xDC00 ≤ low ∧ low < 0xE000 then
      return (Char.ofNat (0x10000 + (high - 0xD800) * 0x400 + (low - 0xDC00)), text)
    else none
  else if 0xDC00 ≤ high ∧ high < 0xE000 then none
  else return (Char.ofNat high, text)

/-- What a letter behind a backslash stands for. -/
def escape? : Char → Option Char
  | '"' => some '"'
  | '\\' => some '\\'
  | '/' => some '/'
  | 'b' => some '\x08'
  | 'f' => some '\x0c'
  | 'n' => some '\n'
  | 'r' => some '\r'
  | 't' => some '\t'
  | _ => none

/-- Reads one character of a string, which is not its closing quote. -/
def stringChar? : Reader Char
  | '\\' :: 'u' :: rest => unicode? rest
  | '\\' :: c :: rest => (escape? c).map fun c => (c, rest)
  | c :: rest => if c = '\\' ∨ c.toNat < 32 then none else some (c, rest)
  | [] => none

/-- Reads a string behind its opening quote; it has fewer than `count` characters. -/
def chars? : (count : Nat) → Reader (List Char)
  | 0, _ => none
  | _ + 1, '"' :: rest => some ([], rest)
  | count + 1, text => do
    let (c, text) ← stringChar? text
    let (rest, text) ← chars? count text
    return (c :: rest, text)

/-- Reads a string behind its opening quote. -/
def string? : Reader String := fun text =>
  (chars? (text.length + 1) text).map fun (chars, text) => (String.ofList chars, text)

/-! ## Documents -/

/-- Reads the items of an array behind its opening bracket, or behind a comma, up to the closing
bracket; there are at most `count`. -/
def items? (inner : Reader Document) : (count : Nat) → Reader (List Document)
  | 0, _ => none
  | count + 1, text => do
    let (item, text) ← inner (skipBlanks text)
    match skipBlanks text with
    | ',' :: text =>
      let (rest, text) ← items? inner count text
      return (item :: rest, text)
    | ']' :: text => return ([item], text)
    | _ => none

/-- Reads a member of an object: a name, a colon and a document. -/
def member? (inner : Reader Document) : Reader (String × Document) := fun text => do
  let (name, text) ← string? (← word? ['"'] (skipBlanks text))
  let text ← word? [':'] (skipBlanks text)
  let (value, text) ← inner (skipBlanks text)
  return ((name, value), text)

/-- Reads the members of an object behind its opening brace, or behind a comma, up to the closing
brace; there are at most `count`. -/
def members? (inner : Reader Document) : (count : Nat) → Reader (List (String × Document))
  | 0, _ => none
  | count + 1, text => do
    let (member, text) ← member? inner text
    match skipBlanks text with
    | ',' :: text =>
      let (rest, text) ← members? inner count text
      return (member :: rest, text)
    | '\x7d' :: text => return ([member], text)
    | _ => none

/-- Reads an array behind its opening bracket. -/
def array? (inner : Reader Document) : Reader Document := fun text =>
  match skipBlanks text with
  | ']' :: rest => some (.array [], rest)
  | rest => (items? inner rest.length rest).map fun (items, rest) => (.array items, rest)

/-- Reads an object behind its opening brace. -/
def object? (inner : Reader Document) : Reader Document := fun text =>
  match skipBlanks text with
  | '\x7d' :: rest => some (.object [], rest)
  | rest => (members? inner rest.length rest).map fun (members, rest) => (.object members, rest)

/-- Reads a given word that stands for a scalar. -/
def constant? (word : List Char) (scalar : Scalar) : Reader Document := fun text =>
  (word? word text).map fun rest => (.scalar scalar, rest)

/-- Reads a document in front of which there are no blanks; `inner` reads what is nested in it, and
is missing where nothing may be. -/
def document? (inner : Option (Reader Document)) : Reader Document := fun text =>
  match text with
  | '[' :: rest => inner.bind (array? · rest)
  | '\x7b' :: rest => inner.bind (object? · rest)
  | '"' :: rest => (string? rest).map fun (s, rest) => (.scalar (.string s), rest)
  | '-' :: rest => (unsigned? true rest).map fun (n, rest) => (.scalar n, rest)
  | 'n' :: _ => constant? "null".toList .null text
  | 't' :: _ => constant? "true".toList (.boolean true) text
  | 'f' :: _ => constant? "false".toList (.boolean false) text
  | _ => (unsigned? false text).map fun (n, rest) => (.scalar n, rest)

/-- Reads a document with arrays and objects nested at most `levels` deep. -/
def nested? : (levels : Nat) → Reader Document
  | 0 => document? none
  | levels + 1 => document? (some (nested? levels))

/-- The document that a text is. -/
def read? (text : String) : Option Document := do
  let (document, rest) ← nested? maxNesting (skipBlanks text.toList)
  if skipBlanks rest = [] then return document else none

end Formula.Json
