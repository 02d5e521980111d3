import Formula.Bindings
import Formula.Json.Reader

/-!
# Values as JSON

Integers, truth values, strings and finite doubles correspond to scalars of JSON. Decimals, times
and expressions have none of their own and are written as numbers and strings; `null`, arrays and
objects are not values.
-/

namespace Formula

/-- What JSON cannot be used for as a value or as variables. -/
inductive UnsupportedJson where
  | null | array | object
  /-- Variables have to be given by an object. -/
  | notAnObject
  deriving DecidableEq

/-- The name of what is not supported. -/
def UnsupportedJson.name : UnsupportedJson → String
  | null => "null"
  | array => "array"
  | object => "object"
  | notAnObject => "variables must be a JSON object"

/-- The digits of a decimal as a number of JSON. -/
def Decimal.toNumeral (d : Decimal) : Json.Numeral :=
  let digits := Text.padLeft (d.scale + 1) (Text.digitsOfNat d.mantissa)
  let point := digits.length - d.scale
  .ofDigits d.negative (digits.take point) (digits.drop point) 0

/-- A decimal as JSON: an integer if it is whole and fits into a word, else the double that its
digits denote. -/
def Decimal.toJson (d : Decimal) : Json.Scalar :=
  let d := d.normalize
  if d.scale = 0 ∧ Json.isWordSized d.signedMantissa then .integer d.signedMantissa
  else .double d.toNumeral.toDouble

namespace Value

/-- A value as JSON. -/
def toJson : Value → Json.Scalar
  | integer n => .integer n.toInt
  | decimal d => d.toJson
  | double x => if x.isFinite then .double x else .null
  | string s => .string s
  | boolean b => .boolean b
  | dateTime t => .string t.isoText
  | expression e => .string e.source

/-- The value of a scalar; an integer that no signed word holds becomes a double. -/
def ofScalar : Json.Scalar → Except UnsupportedJson Value
  | .null => .error .null
  | .boolean b => .ok (boolean b)
  | .integer n =>
    match Integer.ofInt? n with
    | some n => .ok (integer n)
    | none => .ok (double (Double.ofInt n))
  | .double x => .ok (double x)
  | .string s => .ok (string s)

/-- The value of a document. -/
def ofJson : Json.Document → Except UnsupportedJson Value
  | .scalar s => ofScalar s
  | .array _ => .error .array
  | .object _ => .error .object

end Value

namespace Json

/-- The members of an object in the order of their names, the last one of each name. -/
def sortedMembers (members : List (String × Document)) : List (String × Document) :=
  let byName : Std.TreeMap String Document :=
    members.foldl (fun map member => map.insert member.1 member.2) ∅
  byName.toList

end Json

namespace Bindings

/-- The bindings of the members of an object, bound in the order of their names. The first member in
that order that is no value is the error. -/
def ofJson : Json.Document → Except UnsupportedJson Bindings
  | .object members =>
    (Json.sortedMembers members).foldlM
      (fun bindings member => return bindings.insert member.1 (← Value.ofJson member.2)) empty
  | _ => .error .notAnObject

end Bindings

end Formula
