import Formula.Expression
import Formula.Value.Json
import Formula.Command.Manual

/-!
# Evaluating a formula for the command line

The variables of a formula come from a JSON object and from bindings `NAME=VALUE`, which are applied
after the object and from left to right. Whatever is wrong with the formula itself is reported
before anything that is wrong with its variables.
-/

namespace Formula

/-- The ways in which a command fails. -/
inductive CommandError where
  | expression (e : ExpressionError)
  | invalidJson
  | invalidVariable (binding : String)
  | unsupportedValue (what : UnsupportedJson)
  | unknownCategory (category : String)

/-- The message of an error. -/
def CommandError.message : CommandError → String
  | expression e => e.message
  | invalidJson => "Invalid JSON"
  | invalidVariable binding => "Invalid variable binding '" ++ binding ++ "': expected NAME=VALUE"
  | unsupportedValue what => "Unsupported value: " ++ what.name
  | unknownCategory category =>
    "Unknown category: '" ++ category ++ "'\nRun 'expressive docs' to see available categories."

/-- What to evaluate. -/
structure EvaluateOptions where
  /-- The formula. -/
  source : String
  /-- The bindings `NAME=VALUE`. -/
  bindings : List String
  /-- The text of a JSON object of variables. -/
  json : Option String
  /-- Whether the formula is only read and not evaluated. -/
  checkOnly : Bool

/-- What comes of it. -/
inductive EvaluateResult where
  | valid
  | value (v : Value)

/-- A binding split at its first equals sign into a name, which is not blank, and the rest. -/
def splitBinding? (binding : List Char) : Option (List Char × List Char) :=
  match binding.dropWhile (· ≠ '=') with
  | [] => none
  | _ :: rest =>
    let name := Text.trim (binding.takeWhile (· ≠ '='))
    if name = [] then none else some (name, rest)

/-- The value of the right side of a binding: an expression, under the serial number `serial`, if it
starts with a further equals sign, the value of a JSON scalar, or else the text itself. -/
def readBound (raw : List Char) (serial : Nat) : Except CommandError Value :=
  match raw with
  | '=' :: source =>
    match Expression.ofSource (String.ofList source) serial with
    | .ok e => .ok (.expression e)
    | .error e => .error (.expression e)
  | _ =>
    match Json.read? (String.ofList raw) with
    | some document => (Value.ofJson document).mapError .unsupportedValue
    | none => .ok (.string (String.ofList raw))

/-- The name and value of a binding `NAME=VALUE`. -/
def readBinding (binding : String) (serial : Nat) : Except CommandError (String × Value) :=
  match splitBinding? binding.toList with
  | none => .error (.invalidVariable binding)
  | some (name, raw) => (readBound raw serial).map fun value => (String.ofList name, value)

/-- The document that a text is. -/
def readDocument (text : String) : Except CommandError Json.Document :=
  match Json.read? text with
  | some document => .ok document
  | none => .error .invalidJson

/-- The value of a JSON text. -/
def readValue (text : String) : Except CommandError Value := do
  (Value.ofJson (← readDocument text)).mapError .unsupportedValue

/-- The variables of a JSON text. -/
def readVariables (text : String) : Except CommandError Bindings := do
  (Bindings.ofJson (← readDocument text)).mapError .unsupportedValue

/-- The variables that are given beside the bindings; a blank or missing text gives none. -/
def givenVariables : Option String → Except CommandError Bindings
  | none => .ok .empty
  | some text => if Text.dropBlanks text.toList = [] then .ok .empty else readVariables text

/-- Applies bindings from left to right; each expression is numbered by the place of its binding. -/
def applyBindings (given : Bindings) (texts : List String) : Except CommandError Bindings :=
  texts.zipIdx.foldlM
    (fun bound (text, serial) => do
      let (name, value) ← readBinding text serial
      return bound.insert name value)
    given

/-- Reads a formula and, unless it is only checked, evaluates it. -/
def evaluateCommand (options : EvaluateOptions) : Except CommandError EvaluateResult := do
  let expression ←
    (Expression.ofSource options.source options.bindings.length).mapError .expression
  if options.checkOnly then return .valid
  else
    let bindings ← applyBindings (← givenVariables options.json) options.bindings
    let value ← (expression.evaluate bindings).mapError .expression
    return .value value

/-- The page of the manual for a category. -/
def manualCommand (category : String) : Except CommandError ManualPage :=
  match ManualPage.find? category with
  | some page => .ok page
  | none => .error (.unknownCategory category)

end Formula
