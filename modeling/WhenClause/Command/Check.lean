import WhenClause.Session

/-!
# Checking and listing

What becomes of a text: its canonical form, as text or as a tree, or the errors in it; and its
tokens, one line for each.
-/

namespace WhenClause

/-- What became of a text. -/
inductive Outcome where
  | canonical (text : Text)
  | tree (json : Json)
  | failed (diagnostics : Diagnostics)

namespace Outcome

/-- Whether the text has errors. -/
def isFailure : Outcome → Bool
  | failed _ => true
  | _        => false

/-- The lines about an outcome. -/
def report : Outcome → String
  | canonical text     => String.ofList text ++ "\n"
  | tree json          => String.ofList json.pretty ++ "\n"
  | failed diagnostics => diagnostics.report

end Outcome

/-- What becomes of a text in a session; `json` asks for the tree. -/
def Session.check (s : Session) (json : Bool) (input : Text) : Outcome × Session :=
  let (result, s) := s.parse input
  match result with
  | some c => (if json then .tree c.toJson else .canonical c.text, s)
  | none   => (.failed s.diagnostics, s)

/-- Texts with what becomes of them in a session, one after the other. -/
def Session.checkEach (s : Session) (json : Bool) : List Text → List (Text × Outcome)
  | []              => []
  | input :: inputs =>
    let (outcome, s) := s.check json input
    (input, outcome) :: s.checkEach json inputs

/-- A token on a line of its own. -/
def Token.line (t : Token) : Text :=
  (Json.object [("type", .string t.kind.name.toList), ("lexeme", .string t.lexeme),
    ("offset", .integer t.offset)]).compact

end WhenClause
