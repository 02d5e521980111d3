import Formula.Command.Evaluate

/-!
# The command line

There are three commands: `eval` evaluates a formula, `docs` shows the overview of the manual and
`doc` one of its pages. Options may stand before or behind the formula. Two hyphens end them: what
follows is no option, whatever it looks like. An option with a value takes it from behind an equals
sign or from the next argument, which must not look like an option itself. Only `--var` may be
repeated.

Variables are read from standard input unless `--vars` gives them or the formula is only checked. A
result goes to standard output with exit code 0, an error to standard error with exit code 1, and
arguments that make no command have exit code 2.
-/

namespace Formula

/-- A command with its arguments. -/
inductive Command where
  | evaluate (options : EvaluateOptions) (asJson : Bool)
  | overview
  | page (category : String)

/-- What a command leaves behind. -/
structure Outcome where
  code : UInt8
  output : String
  error : String

namespace Command

/-- The arguments of `eval` read so far. -/
structure Arguments where
  source : Option String
  bindings : List String
  json : Option String
  asJson : Bool
  pretty : Bool
  checkOnly : Bool

/-- The arguments of `eval` before any is read. -/
def Arguments.none : Arguments := ⟨.none, [], .none, false, false, false⟩

/-- The flags, which have no value. -/
inductive Flag where
  | json | pretty | checkOnly

/-- The options with a value. -/
inductive Setting where
  | binding | json

/-- The flag with a long name. -/
def Flag.ofName? (name : List Char) : Option Flag :=
  if name = "json".toList then some json
  else if name = "pretty".toList then some pretty
  else if name = "syntax-only".toList then some checkOnly
  else none

/-- The flag with a short name. -/
def Flag.ofLetter? : Char → Option Flag
  | 'j' => some json
  | 'p' => some pretty
  | _ => none

/-- The option with a long name. -/
def Setting.ofName? (name : List Char) : Option Setting :=
  if name = "var".toList then some binding
  else if name = "vars".toList then some json
  else none

namespace Arguments

/-- Sets a flag, unless it is already set. -/
def setFlag (args : Arguments) : Flag → Option Arguments
  | .json => if args.asJson then .none else some { args with asJson := true }
  | .pretty => if args.pretty then .none else some { args with pretty := true }
  | .checkOnly => if args.checkOnly then .none else some { args with checkOnly := true }

/-- Gives an option its value. -/
def setSetting (args : Arguments) (value : String) : Setting → Option Arguments
  | .binding => some { args with bindings := args.bindings ++ [value] }
  | .json => if args.json.isSome then .none else some { args with json := some value }

/-- Takes an argument as the formula, unless there is one. -/
def setSource (args : Arguments) (source : String) : Option Arguments :=
  if args.source.isSome then .none else some { args with source := some source }

/-- Whether an argument looks like an option. -/
def looksLikeOption : List Char → Bool
  | '-' :: _ :: _ => true
  | _ => false

/-- The arguments of `eval`, of which some may be read already. -/
def read? (args : Arguments) : List String → Option Arguments
  | [] => some args
  | arg :: rest =>
    match arg.toList with
    | ['-', '-'] => rest.foldlM setSource args
    | '-' :: '-' :: long =>
      let name := long.takeWhile (· ≠ '=')
      match Setting.ofName? name, long.dropWhile (· ≠ '='), rest with
      | some setting, _ :: value, rest => do
        read? (← args.setSetting (String.ofList value) setting) rest
      | some setting, [], value :: rest => do
        if looksLikeOption value.toList then .none
        else read? (← args.setSetting value setting) rest
      | some _, [], [] => .none
      | .none, [], rest => do read? (← args.setFlag (← Flag.ofName? name)) rest
      | .none, _ :: _, _ => .none
    | '-' :: letter :: letters => do
      let flags ← (letter :: letters).mapM Flag.ofLetter?
      read? (← flags.foldlM setFlag args) rest
    | _ => do read? (← args.setSource arg) rest

end Arguments

/-- The command that arguments make. -/
def ofArguments? : List String → Option Command
  | "eval" :: rest => do
    let args ← Arguments.none.read? rest
    let options := ⟨← args.source, args.bindings, args.json, args.checkOnly⟩
    return evaluate options (args.asJson || args.pretty)
  | ["docs"] | ["docs", "--"] => some overview
  | ["doc", "--", category] => some (page category)
  | ["doc", category] | ["doc", category, "--"] =>
    if Arguments.looksLikeOption category.toList then none else some (page category)
  | _ => none

/-- Whether the command reads variables from standard input. -/
def readsInput : Command → Bool
  | .evaluate options _ => options.json.isNone && !options.checkOnly
  | .overview | .page _ => false

/-- The outcome of an error. -/
def failure (e : CommandError) : Outcome := ⟨1, "", e.message ++ "\n"⟩

/-- Runs a command; `input` is standard input, if the command reads it. -/
def run (command : Command) (input : String) : Outcome :=
  match command with
  | .overview => ⟨0, ManualPage.overview, ""⟩
  | .page category =>
    match manualCommand category with
    | .ok manual => ⟨0, manual.text, ""⟩
    | .error e => failure e
  | .evaluate options asJson =>
    let options := if command.readsInput then { options with json := some input } else options
    match evaluateCommand options with
    | .ok .valid => ⟨0, "Syntax is valid\n", ""⟩
    | .ok (.value v) => ⟨0, (if asJson then v.toJson.text else v.text) ++ "\n", ""⟩
    | .error e => failure e

/-- The outcome of arguments that make no command. -/
def usageError : Outcome :=
  ⟨2, "", "usage: expressive eval <EXPRESSION> [--var NAME=VALUE] [--vars JSON] [--json] " ++
    "[--pretty] [--syntax-only]\n       expressive docs\n       expressive doc <CATEGORY>\n"⟩

end Command

end Formula
