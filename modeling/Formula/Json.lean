import Formula.Number.Double.Text

/-!
# JSON documents

A document is a scalar, an array or an object. Integers are kept apart from other numbers: an
integer is one that a signed or an unsigned 64-bit word holds. Only scalars are ever written; their
text is `Scalar.text`. Reading is in `Formula.Json.Reader`.
-/

namespace Formula.Json

open NaturalPower

/-- A JSON value without parts. -/
inductive Scalar where
  | null
  | boolean (b : Bool)
  | integer (n : Int)
  | double (x : Double)
  | string (s : String)
  deriving DecidableEq

/-- A JSON document. The members of an object are in the order of the text, with repetitions. -/
inductive Document where
  | scalar (s : Scalar)
  | array (items : List Document)
  | object (members : List (String × Document))

/-- Whether a signed or an unsigned 64-bit word holds an integer. -/
def isWordSized (n : Int) : Bool := -(2 ^ (63 : Nat) : Nat) ≤ n && n < (2 ^ (64 : Nat) : Nat)

/-- A digit of a number in base sixteen. -/
def hexDigit (n : Nat) : Char := if n < 10 then Char.ofNat (48 + n) else Char.ofNat (87 + n)

/-- A character inside quotes. Quotes, backslashes and control characters are escaped, the others
stand for themselves. -/
def quoteChar (c : Char) : List Char :=
  if c = '"' then ['\\', '"']
  else if c = '\\' then ['\\', '\\']
  else if c = '\n' then ['\\', 'n']
  else if c = '\r' then ['\\', 'r']
  else if c = '\t' then ['\\', 't']
  else if c = '\x08' then ['\\', 'b']
  else if c = '\x0c' then ['\\', 'f']
  else if c.toNat < 32 then ['\\', 'u', '0', '0', hexDigit (c.toNat / 16), hexDigit (c.toNat % 16)]
  else [c]

/-- A string in double quotes. -/
def quote (s : String) : String :=
  String.ofList ('"' :: s.toList.flatMap quoteChar ++ ['"'])

/-- The text of a scalar. -/
def Scalar.text : Scalar → String
  | null => "null"
  | boolean b => if b then "true" else "false"
  | integer n => n.repr
  | double x => x.jsonText
  | string s => quote s

end Formula.Json
