import WhenClause.Clause.Reading
import WhenClause.Constants
import WhenClause.Diagnostics

/-!
# Parsing

A text is parsed in three steps: its tokens, the clause that they spell, and the canonical form of
that clause under a table of constant keys. Errors in the first step end the parse. A session
parses one text after another: it forgets the diagnostics of the text before and keeps those of
the latest.
-/

namespace WhenClause

/-- The canonical clause of a text. -/
def Clause.parse (constants : Constants) (input : Text) : Except Diagnostics Clause :=
  match scanErrors input with
  | [] =>
    match Clause.ofTokens (spacedTokens input) (.endOf input.length) with
    | .ok c    => .ok (c.normalize constants)
    | .error e => .error ⟨[], [e]⟩
  | errors => .error ⟨errors, []⟩

/-- A table of constant keys, and the diagnostics of the text parsed last. -/
structure Session where
  constants : Constants
  diagnostics : Diagnostics

namespace Session

/-- A session in which nothing has been parsed. -/
def new (constants : Constants) : Session := ⟨constants, .none⟩

/-- Forgets the errors of the text parsed last. -/
def clear (s : Session) : Session := { s with diagnostics := .none }

/-- Keeps the scan errors of a text. -/
def setScanning (s : Session) (errors : List ScanError) : Session :=
  { s with diagnostics := { s.diagnostics with scanning := errors } }

/-- Keeps one more error of the grammar. -/
def addParsing (s : Session) (e : ParseError) : Session :=
  { s with diagnostics := { s.diagnostics with parsing := s.diagnostics.parsing ++ [e] } }

/-- Parses a text and keeps its diagnostics. -/
def parse (s : Session) (input : Text) : Option Clause × Session :=
  let s := s.clear
  let s := s.setScanning (scanErrors input)
  if s.diagnostics.scanning.isEmpty then
    match Clause.ofTokens (spacedTokens input) (.endOf input.length) with
    | .ok c    => (some (c.normalize s.constants), s)
    | .error e => (none, s.addParsing e)
  else (none, s)

/-- Parses a text and returns its diagnostics where there is no clause. -/
def tryParse (s : Session) (input : Text) : Except Diagnostics Clause × Session :=
  let (result, s) := s.parse input
  match result with
  | some c => (.ok c, s)
  | none   => (.error s.diagnostics, s)

end Session

end WhenClause
