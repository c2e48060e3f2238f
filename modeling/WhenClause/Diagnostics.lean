import WhenClause.ParseError
import WhenClause.Scan.Basic

/-!
# Diagnostics

All that is wrong with a clause, and the report of it.
-/

namespace WhenClause

/-- The errors of one clause. -/
structure Diagnostics where
  scanning : List ScanError
  parsing : List ParseError
  deriving DecidableEq, Repr

namespace Diagnostics

/-- Nothing is wrong. -/
def none : Diagnostics := ⟨[], []⟩

/-- The number of errors. -/
def size (d : Diagnostics) : Nat := d.scanning.length + d.parsing.length

/-- Whether nothing is wrong. -/
def isEmpty (d : Diagnostics) : Bool := d.scanning.isEmpty && d.parsing.isEmpty

/-- A titled section with a line for each message; nothing when there are none. -/
def writeSection (title : String) (messages : List String) : String :=
  if messages.isEmpty then ""
  else title ++ ":\n\n" ++ String.join (messages.map (· ++ "\n"))

/-- A section for each kind of messages that there are, and a line between the two. -/
def writeReport (scanning parsing : List String) : String :=
  writeSection "Lexing errors" scanning ++
    (if scanning.isEmpty || parsing.isEmpty then "" else "\n --- \n") ++
    writeSection "Parsing errors" parsing

/-- The report on all errors. -/
def report (d : Diagnostics) : String :=
  writeReport (d.scanning.map ScanError.message) (d.parsing.map ParseError.message)

end Diagnostics

end WhenClause
