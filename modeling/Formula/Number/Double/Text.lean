import Formula.Number.Double.Shortest
import Formula.Text.Digits

/-!
# The text of a double

Doubles are written in two ways, which show the same shortest decimal. `Double.text` is positional
whatever the magnitude and shows whole numbers without a point. `Double.jsonText` marks a whole
number by `.0` and goes over to an exponent below `10 ^ -5` and from `10 ^ 16` on. Half way between
two shortest decimals the first takes the larger and the second the even one.
-/

namespace Formula.Double

/-- The minus sign of a negative number. -/
def signText (negative : Bool) : String := if negative then "-" else ""

/-- A number in positional notation. -/
def Scientific.positional (a : Scientific) : String :=
  String.ofList (Text.positional (Text.digitsOfNat a.digits) a.exponent)

/-- The text that string concatenation shows. -/
def text : Double → String
  | nan => "NaN"
  | infinity negative => signText negative ++ "inf"
  | finite negative units _ =>
    if units = 0 then signText negative ++ "0"
    else signText negative ++ (shortest .up units).positional

/-- Where the decimal point stands, counted from the first digit. -/
def Scientific.pointPlace (a : Scientific) : Int := digitCount a.digits + a.exponent

/-- The digits behind a leading digit, after a point if there are any. -/
def Scientific.mantissaText (a : Scientific) : String :=
  match Text.digitsOfNat a.digits with
  | [] => ""
  | first :: rest =>
    if rest.isEmpty then first.toString else first.toString ++ "." ++ String.ofList rest

/-- The exponent of the notation with one digit before the point, always with a sign. -/
def Scientific.exponentText (a : Scientific) : String :=
  match a.pointPlace - 1 with
  | .ofNat e => "e+" ++ e.repr
  | .negSucc e => "e-" ++ (e + 1).repr

/-- A positive number as JSON shows it. -/
def Scientific.jsonText (a : Scientific) : String :=
  if -5 < a.pointPlace ∧ a.pointPlace ≤ 16 then
    a.positional ++ if 0 ≤ a.exponent then ".0" else ""
  else a.mantissaText ++ a.exponentText

/-- The JSON text of a finite double, and `null` for the others, which JSON cannot express. -/
def jsonText : Double → String
  | nan | infinity _ => "null"
  | finite negative units _ =>
    if units = 0 then signText negative ++ "0.0"
    else signText negative ++ (shortest .even units).jsonText

end Formula.Double
