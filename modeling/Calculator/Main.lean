import Calculator.CommandLine.Run

/-!
# The program

Runs the command line of the program in the environment of the process. The
process has no configuration files and reaches no other service.
-/

open Calculator CommandLine

def environmentOfProcess : IO Settings.Environment := do
  let names := ["INFIXCALC_MAX_DEPTH", "INFIXCALC_HOST", "INFIXCALC_PORT", "INFIXCALC_LOG_LEVEL"]
  let values ← names.mapM fun name => do return (name, ← IO.getEnv name)
  return fun name => (values.lookup name).join

def main (arguments : List String) : IO UInt32 := do
  let outcome := run ⟨.empty, ← environmentOfProcess, none⟩ arguments
  IO.print outcome.output
  return outcome.exitCode.toUInt32
