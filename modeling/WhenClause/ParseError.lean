import WhenClause.Token

/-!
# Errors of the grammar

A clause whose tokens do not fit the grammar has one error: it names the first token that does
not fit and what was expected in its place.
-/

namespace WhenClause

/-- What was expected of a token. -/
inductive Expectation where
  /-- a clause, where there is none at all -/
  | clause
  /-- the start of an operand -/
  | operand
  /-- what may follow a negation -/
  | negatable
  /-- the right side of an equality or an order -/
  | value
  /-- the name of a key -/
  | key
  /-- a regex that is accepted -/
  | regex
  /-- the parenthesis that closes a group -/
  | closing
  /-- the end of the clause -/
  | ending
  deriving DecidableEq, Repr

/-- A token that does not fit. -/
structure ParseError where
  token : Token
  expected : Expectation
  deriving DecidableEq, Repr

/-- The sentence about an error. The wording is fixed, as authors of clauses read it. -/
def ParseError.message (e : ParseError) : String :=
  let butGot (what : String) := "Expected " ++ what ++ " but got " ++ e.token.describe
  match e.expected with
  | .clause    => "Empty context key expression"
  | .operand   =>
    butGot ("'true', 'false', '(', KEY, KEY '=~' regex, " ++
      "KEY [ ('==' | '!=' | '<' | '<=' | '>' | '>=' | 'in' | 'not' 'in') value ]")
  | .negatable => "Expected KEY, 'true', or 'false'"
  | .value     => butGot "KEY or STRING"
  | .key       => butGot "KEY"
  | .regex     => butGot "REGEX"
  | .closing   => butGot "')'"
  | .ending    =>
    "Unexpected token '" ++ String.ofList e.token.lexeme ++ "' at offset " ++
      String.ofList (Text.ofNat e.token.offset)

end WhenClause
