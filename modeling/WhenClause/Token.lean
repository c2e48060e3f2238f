import WhenClause.Comparator

/-!
# Tokens

A clause is read as a list of tokens. A token knows its kind, its *lexeme* and the offset of its
first character; the lexeme is the source text of the token, except that a quoted string leaves
its two quotes out.
-/

namespace WhenClause

/-- What a token is. -/
inductive Token.Kind where
  /-- `true` or `false` -/
  | literal (value : Bool)
  | lparen
  | rparen
  | not
  | and
  | or
  /-- `==` or `!=`, with one more `=` or without -/
  | equality (negated : Bool)
  | order (op : Comparator)
  /-- the word `in`, or the two words `not in` -/
  | membership (negated : Bool)
  /-- `=~` -/
  | matching
  /-- the name of a key, or a value without quotes -/
  | key
  /-- a text in single quotes -/
  | string
  /-- a regex between slashes, with its flags -/
  | regex
  /-- the end of the input -/
  | eof
  deriving DecidableEq, Repr

/-- The name by which diagnostics and listings call a kind. -/
def Token.Kind.name : Token.Kind → String
  | .literal true        => "true"
  | .literal false       => "false"
  | .lparen              => "lparen"
  | .rparen              => "rparen"
  | .not                 => "not"
  | .and                 => "and"
  | .or                  => "or"
  | .equality false      => "eq"
  | .equality true       => "neq"
  | .order .less         => "lt"
  | .order .lessEqual    => "lte"
  | .order .greater      => "gt"
  | .order .greaterEqual => "gte"
  | .membership false    => "in"
  | .membership true     => "not_in"
  | .matching            => "regex_op"
  | .key                 => "key"
  | .string              => "string"
  | .regex               => "regex"
  | .eof                 => "eof"

/-- Every kind, once. -/
def Token.Kind.all : List Token.Kind :=
  [.literal true, .literal false, .lparen, .rparen, .not, .and, .or, .equality false,
    .equality true, .order .less, .order .lessEqual, .order .greater, .order .greaterEqual,
    .membership false, .membership true, .matching, .key, .string, .regex, .eof]

/-- The kind of a given name. -/
def Token.Kind.ofName? (name : String) : Option Token.Kind :=
  Token.Kind.all.find? fun kind => kind.name = name

theorem Token.Kind.ofName?_name (kind : Token.Kind) : ofName? kind.name = some kind := by
  cases kind with
  | literal b | equality b | membership b => cases b <;> decide
  | order op => cases op <;> decide
  | _ => decide

/-- A token of a text. -/
structure Token where
  kind : Token.Kind
  lexeme : Text
  offset : Nat
  deriving DecidableEq, Repr

namespace Token

/-- The end of a text of the given length. -/
def endOf (length : Nat) : Token := ⟨.eof, [], length⟩

/-- The number of source characters of a token: a string has its two quotes besides its lexeme. -/
def width (t : Token) : Nat :=
  match t.kind with
  | .string => t.lexeme.length + 2
  | _       => t.lexeme.length

/-- The record by which a diagnostic names a token. -/
def describe (t : Token) : String :=
  "\x7b\"type\":\"" ++ t.kind.name ++ "\",\"offset\":" ++
    String.ofList (Text.ofNat t.offset) ++ "\x7d"

/-- A token with its *trail*: the blanks between it and the next token, or nothing when no token
follows. -/
structure Spaced extends Token where
  trail : Text
  deriving DecidableEq, Repr

end Token

end WhenClause
