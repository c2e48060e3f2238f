import WhenClause.Clause.Basic
import WhenClause.ParseError
import WhenClause.Regex.Accept

/-!
# Reading a clause from its tokens

From loosest to tightest, `||`, `&&` and `!` combine tests, and parentheses group; a negation
applies to a test or a literal, never to a group. The tokens are read one by one: what has been
read is a stack of open groups, each with its finished alternatives and the operands of the
conjunction being read, and the place inside the innermost operand. The result is the clause as
it was written, in no particular form.
-/

namespace WhenClause

/-- A group of which some operands have been read, the last first. -/
structure Level where
  /-- the finished alternatives -/
  alternatives : List Clause
  /-- the operands of the alternative being read -/
  operands : List Clause

/-- A group of operands that are listed last first; a single operand stands for itself. -/
def Clause.chain (op : Connective) : List Clause → Clause
  | [c]      => c
  | operands => .group op operands.reverse

namespace Level

/-- A group with nothing in it. -/
def start : Level := ⟨[], []⟩

/-- One more operand of the alternative being read. -/
def add (l : Level) (c : Clause) : Level := ⟨l.alternatives, c :: l.operands⟩

/-- The end of the alternative being read. -/
def split (l : Level) : Level := ⟨.chain .and l.operands :: l.alternatives, []⟩

/-- The whole group. -/
def close (l : Level) : Clause := .chain .or l.split.alternatives

end Level

/-- The operator of a test whose right side is still to come. -/
inductive TestPart where
  | equality (negated : Bool)
  | order (op : Comparator)
  | membership (negated : Bool)
  | matching
  deriving DecidableEq, Repr

namespace TestPart

/-- The part that an operator behind a key begins. -/
def ofKind? : Token.Kind → Option TestPart
  | .equality negated   => some (equality negated)
  | .order op           => some (order op)
  | .membership negated => some (membership negated)
  | .matching           => some matching
  | _                   => none

/-- The value that a token is on the right side of an equality. A word takes the blanks along that
separate it from the next token. -/
def equalityValue? (t : Token.Spaced) : Option Text :=
  if t.kind = .string then some t.lexeme
  else if Operand.isWordKind t.kind then some (t.lexeme ++ t.trail)
  else none

/-- The pattern and the flags that a token holds. -/
def regex? (t : Token.Spaced) : Option (Text × Text) :=
  match t.kind with
  | .regex  => some (Regex.splitLiteral t.lexeme)
  | .string => Regex.splitQuoted? t.lexeme
  | _       => none

/-- The test that a token completes. -/
def test? (part : TestPart) (key : Text) (t : Token.Spaced) : Option Test :=
  match part with
  | .equality negated   => (equalityValue? t).map fun value => .equals negated key value false
  | .order op           =>
    if t.kind = .string || Operand.isWordKind t.kind then
      some (.compare op key (.ofLexeme t.lexeme))
    else none
  | .membership negated => if t.kind = .key then some (.member negated key t.lexeme) else none
  | .matching           =>
    match regex? t with
    | some (pattern, flags) =>
      if Regex.accepts pattern flags then some (.regex key pattern flags) else none
    | none => none

/-- What is expected behind an operator. -/
def expectation : TestPart → Expectation
  | .equality _   => .value
  | .order _      => .value
  | .membership _ => .key
  | .matching     => .regex

end TestPart

/-- A place inside an operand. -/
inductive Reading.Place where
  /-- before an operand, behind some negations -/
  | operand (negations : Nat)
  /-- behind a key, which may be a whole test -/
  | key (negations : Nat) (key : Text)
  /-- behind a key and an operator -/
  | test (negations : Nat) (key : Text) (part : TestPart)
  /-- behind an operand -/
  | done

/-- What has been read of a clause. -/
structure Reading where
  place : Reading.Place
  /-- the innermost open group -/
  level : Level
  /-- the groups around it, from inside out -/
  outer : List Level

namespace Reading

/-- Nothing has been read. -/
def start : Reading := ⟨.operand 0, .start, []⟩

/-- An operand has been read behind some negations. -/
def complete (r : Reading) (negations : Nat) (c : Clause) : Reading :=
  { r with place := .done, level := r.level.add (Nat.repeat Clause.not negations c) }

/-- What is expected of the next token where it does not fit. -/
def expectation (r : Reading) : Expectation :=
  match r.place with
  | .operand 0       => .operand
  | .operand _       => .negatable
  | .test _ _ part   => part.expectation
  | .key _ _ | .done => if r.outer.isEmpty then .ending else .closing

/-- A token does not fit. -/
def fail {α : Type} (r : Reading) (t : Token) : Except ParseError α := .error ⟨t, r.expectation⟩

/-- The token behind an operand. -/
def follow (r : Reading) (t : Token.Spaced) : Except ParseError Reading :=
  match t.kind, r.outer with
  | .and, _                 => .ok { r with place := .operand 0 }
  | .or, _                  => .ok { r with place := .operand 0, level := r.level.split }
  | .rparen, level :: outer => .ok ⟨.done, level.add r.level.close, outer⟩
  | _, _                    => r.fail t.toToken

/-- The next token. -/
def step (r : Reading) (t : Token.Spaced) : Except ParseError Reading :=
  match r.place with
  | .operand negations =>
    match t.kind with
    | .literal b => .ok (r.complete negations (.const b))
    | .key       => .ok { r with place := .key negations t.lexeme }
    | .not       => .ok { r with place := .operand (negations + 1) }
    | .lparen    =>
      if negations = 0 then .ok ⟨.operand 0, .start, r.level :: r.outer⟩ else r.fail t.toToken
    | _          => r.fail t.toToken
  | .key negations key =>
    match TestPart.ofKind? t.kind with
    | some part => .ok { r with place := .test negations key part }
    | none      => (r.complete negations (.test (.present key))).follow t
  | .test negations key part =>
    match part.test? key t with
    | some test => .ok (r.complete negations (.test test))
    | none      => r.fail t.toToken
  | .done => r.follow t

/-- The end of the clause, where `last` stands for that end. -/
def finish (r : Reading) (last : Token) : Except ParseError Clause :=
  let r := match r.place with
    | .key negations key => r.complete negations (.test (.present key))
    | _                  => r
  match r.place, r.outer with
  | .done, [] => .ok r.level.close
  | _, _      => r.fail last

end Reading

/-- The clause that some tokens spell, where `last` stands for their end. -/
def Clause.ofTokens (tokens : List Token.Spaced) (last : Token) : Except ParseError Clause :=
  if tokens.isEmpty then .error ⟨last, .clause⟩
  else do (← tokens.foldlM Reading.step .start).finish last

end WhenClause
