import WhenClause.Decimal.Read
import WhenClause.Json.Basic
import WhenClause.Scan.Basic

/-!
# Operands

What an ordered comparison compares with: a decimal number in normal form, or a text. A number
stands for itself however it was spelled; a text stands between quotes unless it reads back
without them.
-/

namespace WhenClause

/-- The right side of an ordered comparison. -/
inductive Operand where
  | number (value : Decimal)
  | text (value : Text)
  deriving DecidableEq, Repr

namespace Operand

/-- A lexeme is a number if it reads as one, else a text. -/
def ofLexeme (lexeme : Text) : Operand :=
  match Decimal.read? lexeme with
  | some d => .number d.normalize
  | none   => .text lexeme

/-- Whether the operand is a number. -/
def isNumber : Operand → Bool
  | number _ => true
  | text _   => false

/-- The operand without quotes. -/
def toText : Operand → Text
  | number d => d.toText
  | text t   => t

/-- Whether a kind of token is a single word that can be a value. -/
def isWordKind : Token.Kind → Bool
  | .literal _ | .membership false | .key => true
  | _                                     => false

/-- Whether a text that is written without quotes is read back as one value with that lexeme. -/
def readsBare (t : Text) : Bool :=
  match tokenize t with
  | ([token, _], []) => token.lexeme = t && isWordKind token.kind
  | _                => false

/-- The operand as it stands in a clause. -/
def write : Operand → Text
  | number d => d.toText
  | text t   => if readsBare t then t else '\'' :: t ++ ['\'']

/-- The operand in a tree: a whole number of 64 bits is an integer and a larger one a string,
other numbers are doubles. -/
def toJson : Operand → Json
  | text t   => .string t
  | number d =>
    if d.scale = 0 then
      if Int64.minValue.toInt ≤ d.toInt && d.toInt ≤ Int64.maxValue.toInt then .integer d.toInt
      else .string d.toText
    else .float d.negative (.ofDecimal d)

end Operand

end WhenClause
