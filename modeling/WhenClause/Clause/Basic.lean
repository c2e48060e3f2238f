import WhenClause.Test

/-!
# Clauses

A clause combines tests by negation, conjunction and disjunction. Both connectives take a list
of clauses; they are duals of each other, so every operation is written once for the two.
-/

namespace WhenClause

/-- Conjunction and disjunction. -/
inductive Connective where
  | and
  | or
  deriving DecidableEq, Repr

namespace Connective

/-- The other connective. -/
def dual : Connective → Connective
  | and => or
  | or  => and

/-- The constant that changes nothing as an operand; its opposite decides the whole. -/
def unit : Connective → Bool
  | and => true
  | or  => false

/-- What stands between two operands. -/
def symbol : Connective → Text
  | and => [' ', '&', '&', ' ']
  | or  => [' ', '|', '|', ' ']

@[simp] theorem dual_dual (op : Connective) : op.dual.dual = op := by cases op <;> rfl

@[simp] theorem unit_dual (op : Connective) : op.dual.unit = !op.unit := by cases op <;> rfl

end Connective

/-- A clause, in any form. -/
inductive Clause where
  | const (value : Bool)
  | test (t : Test)
  | not (operand : Clause)
  | group (op : Connective) (children : List Clause)
  deriving Inhabited

namespace Clause

mutual

/-- Whether two clauses are the same tree. -/
def decEq (a b : Clause) : Decidable (a = b) :=
  match a, b with
  | .const x, .const y           => decidable_of_iff (x = y) (by simp)
  | .test x, .test y             => decidable_of_iff (x = y) (by simp)
  | .not x, .not y               =>
    have := decEq x y
    decidable_of_iff (x = y) (by simp)
  | .group op xs, .group op' ys  =>
    have := decEqAll xs ys
    decidable_of_iff (op = op' ∧ xs = ys) (by simp)
  | .const _, .test _            => isFalse (by simp)
  | .const _, .not _             => isFalse (by simp)
  | .const _, .group _ _         => isFalse (by simp)
  | .test _, .const _            => isFalse (by simp)
  | .test _, .not _              => isFalse (by simp)
  | .test _, .group _ _          => isFalse (by simp)
  | .not _, .const _             => isFalse (by simp)
  | .not _, .test _              => isFalse (by simp)
  | .not _, .group _ _           => isFalse (by simp)
  | .group _ _, .const _         => isFalse (by simp)
  | .group _ _, .test _          => isFalse (by simp)
  | .group _ _, .not _           => isFalse (by simp)

/-- Whether two lists hold the same trees. -/
def decEqAll (as bs : List Clause) : Decidable (as = bs) :=
  match as, bs with
  | [], []           => isTrue rfl
  | a :: as, b :: bs =>
    have := decEq a b
    have := decEqAll as bs
    decidable_of_iff (a = b ∧ as = bs) (by simp)
  | [], _ :: _       => isFalse (by simp)
  | _ :: _, []       => isFalse (by simp)

end

instance : DecidableEq Clause := decEq

/-- The key of a test, also under negations. -/
def key? : Clause → Option Text
  | test t    => some t.key
  | not c     => c.key?
  | const _   => none
  | group _ _ => none

/-- Whether the clause is a constant. -/
def isConst : Clause → Bool
  | const _ => true
  | _       => false

/-! ### Text -/

mutual

/-- The clause as text, followed by `rest`. A group always has its parentheses and nothing else
has any. -/
def write : Clause → Text → Text
  | .const true, rest        => "true".toList ++ rest
  | .const false, rest       => "false".toList ++ rest
  | .test t, rest            => t.write rest
  | .not c, rest             => '!' :: c.write rest
  | .group op children, rest => '(' :: writeAll op false children (')' :: rest)

/-- Operands with the symbol of their connective between them; `more` tells whether others stand
before. -/
def writeAll (op : Connective) (more : Bool) : List Clause → Text → Text
  | [], rest      => rest
  | c :: cs, rest =>
    (if more then op.symbol else []) ++ c.write (writeAll op true cs rest)

end

/-- The text of a clause. -/
def text (c : Clause) : Text := c.write []

/-! ### Tree -/

mutual

/-- The clause as a tree of nodes, with the members of a node in alphabetical order. -/
def toJson : Clause → Json
  | .const b             => .object [("kind", .string "constant".toList), ("value", .bool b)]
  | .test t              => t.toJson
  | .not c               => .object [("kind", .string "not".toList), ("operand", c.toJson)]
  | .group .and children =>
    .object [("children", .array (toJsonAll children)), ("kind", .string "and".toList)]
  | .group .or children  =>
    .object [("children", .array (toJsonAll children)), ("kind", .string "or".toList)]

/-- The trees of some clauses. -/
def toJsonAll : List Clause → List Json
  | []      => []
  | c :: cs => c.toJson :: toJsonAll cs

end

end Clause

end WhenClause
