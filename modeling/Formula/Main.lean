import Formula.Command.Line

/-!
# The program

Reads the command from the arguments, runs it and hands on its outcome.
-/

/-- Runs the command that the arguments make. -/
def main (args : List String) : IO UInt32 := do
  let outcome ← match Formula.Command.ofArguments? args with
    | none => pure Formula.Command.usageError
    | some command => do
      let input ← if command.readsInput then (← IO.getStdin).readToEnd else pure ""
      pure (command.run input)
  IO.print outcome.output
  IO.eprint outcome.error
  return outcome.code.toUInt32
