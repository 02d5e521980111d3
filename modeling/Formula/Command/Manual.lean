import Formula.Function
import Formula.Operator

/-!
# The manual

The pages of the manual that the command line shows: an overview, and one page for each category.
The pages on operators and functions are made from the tables themselves.
-/

namespace Formula

/-- The pages of the manual. -/
inductive ManualPage where
  | literals | operators | functions | types
  deriving DecidableEq, Repr

namespace ManualPage

/-- The page for a category. Letter case does not matter, and a hyphen is as good as an
underscore. -/
def find? (category : String) : Option ManualPage :=
  let folded := (Text.lowercase category).map fun c => if c = '-' then '_' else c
  if folded ∈ ["literals", "literal", "syntax"] then some literals
  else if folded ∈ ["operators", "ops"] then some operators
  else if folded ∈ ["functions", "function", "fns"] then some functions
  else if folded ∈ ["types", "type", "coercion"] then some types
  else none

/-- A text of whole lines. -/
def lines (all : List String) : String := String.join (all.map (· ++ "\n"))

/-- A text with blanks behind it up to a width. -/
def padRight (width : Nat) (text : String) : String :=
  text ++ String.ofList (List.replicate (width - text.length) ' ')

/-- The line of the manual on one operator. -/
def operatorLine (op : Operator) : String :=
  let fixity := match op.fixity with
    | .before => "prefix"
    | .between => "infix"
  "  " ++ padRight 14 (" ".intercalate op.spellings) ++ " " ++ padRight 8 fixity ++ " " ++
    padRight 16 op.name ++ " " ++ op.precedence.name ++ "\n"

/-- The operators, loosest first; those of one level in the order of the table. -/
def operatorsByPrecedence : List Operator :=
  Operator.all.mergeSort fun a b => a.precedence.rank ≤ b.precedence.rank

/-- The page on operators. -/
def operatorsText : String :=
  "OPERATORS - Loosest binding first\n\n" ++
    String.join (operatorsByPrecedence.map operatorLine) ++
    "\n  && and || stop evaluating as soon as the left operand decides the result.\n"

/-- The line of the manual on one function. -/
def functionLine (f : Function) : String :=
  "  " ++ padRight 12 f.name ++ " " ++ f.arity.text ++ " argument(s)\n"

/-- The page on functions. -/
def functionsText : String :=
  "FUNCTIONS - Names are case-insensitive\n\n" ++
    String.join (Function.all.map functionLine) ++
    "\n  '+' after a count means \"at least\".\n"

/-- The page on literals. -/
def literalsText : String :=
  lines [
    "LITERALS",
    "",
    "INTEGER",
    "  42",
    "    All-digit literals are 64-bit integers.",
    "",
    "DECIMAL",
    "  1.8    .5",
    "    Literals with a decimal point are exact fixed-point decimals.",
    "",
    "STRING",
    "  'hello'",
    "    Single quotes. Escapes:",
    "      \\'    quote",
    "      \\n    newline",
    "      \\t    tab",
    "      \\x    any other character, taken literally",
    "",
    "DATE",
    "  #1/31/2009#    #1/31/2009 13:45#    #2009-01-31#",
    "    Month/day/year or ISO year-month-day, with an optional time of day.",
    "",
    "BOOLEAN",
    "  true    FALSE",
    "    Case-insensitive.",
    "",
    "VARIABLE",
    "  [var1]    [unit price]",
    "    Looked up by name, ignoring case, when the expression is evaluated.",
    "    A variable bound to another expression is evaluated in its place."]

/-- The page on types. -/
def typesText : String :=
  lines [
    "TYPES - Numeric representations and coercion",
    "",
    "  integer    64-bit signed",
    "  decimal    fixed-point, 28 significant digits",
    "  double     64-bit floating point (math functions, integer division)",
    "",
    "ADDITION (+)",
    "  Any two numbers can be added; the result takes the wider kind.",
    "  A double added to a decimal becomes a decimal.",
    "  If either side is a string, both are concatenated as text.",
    "",
    "OTHER ARITHMETIC (- * / %)",
    "  Integers are promoted to the other operand's kind.",
    "  A decimal cannot be combined with a double:",
    "    1.8 - abs([d])    fails when [d] holds a double",
    "",
    "DIVISION",
    "  integer / integer    always a double: 3/6 = 0.5",
    "  decimal / decimal    decimal",
    "",
    "COMPARISON",
    "  Numbers compare across kinds; strings, booleans and dates compare within",
    "  their own kind."]

/-- The text of a page. -/
def text : ManualPage → String
  | literals => literalsText
  | operators => operatorsText
  | functions => functionsText
  | types => typesText

/-- The overview of all pages. -/
def overview : String :=
  lines [
    "EXPRESSIVE DOCUMENTATION",
    "",
    "Expressive evaluates formulas such as `[price] * (1 + [tax rate])` against a",
    "set of named variables.",
    "",
    "DOCUMENTATION CATEGORIES",
    "",
    "  literals          Numbers, decimals, strings, dates, booleans and variables",
    "  operators         Arithmetic, comparison, logical and bitwise operators",
    "  functions         Built-in functions and their argument counts",
    "  types             Numeric representations and coercion rules",
    "",
    "QUICK REFERENCE",
    "",
    "  42    1.8         Integer, decimal",
    "  'text'            String",
    "  #1/1/2009#        Date",
    "  [name]            Variable",
    "  abs(-1)           Function call",
    "",
    "Run 'expressive doc <category>' for detailed documentation."]

end ManualPage

end Formula
