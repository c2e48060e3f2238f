import WhenClause.Command.Run

/-!
# The program

Reads the arguments, the environment and, where a request needs it, the standard input; prints the
result.
-/

namespace WhenClause

/-- The variable that sets the log level where no argument does. -/
def levelVariable : String := "CTXKEY_LOG_LEVEL"

/-- Runs the program on its arguments and returns its exit code. -/
def execute (arguments : List String) : IO UInt32 := do
  let request := Request.ofArguments? (arguments.map String.toList)
  let stdin ← match request with
    | some request => if request.readsInput then (← IO.getStdin).readBinToEnd else pure .empty
    | none         => pure .empty
  let environment ← IO.getEnv levelVariable
  let result := match request with
    | some request => request.answer (environment.map String.toList) stdin
    | none         => .misuse
  (← IO.getStdout).putStr result.stdout
  (← IO.getStderr).putStr result.stderr
  return result.exit.toUInt32

end WhenClause

def main (arguments : List String) : IO UInt32 := WhenClause.execute arguments
