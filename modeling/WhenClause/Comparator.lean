import WhenClause.Text.Basic

/-!
# Ordered comparisons

The four relations that compare the value of a key with a number or a text.
-/

namespace WhenClause

/-- An ordered comparison. -/
inductive Comparator where
  | greater
  | greaterEqual
  | less
  | lessEqual
  deriving DecidableEq, Repr

/-- How a comparison is written. -/
def Comparator.symbol : Comparator → Text
  | .greater      => ['>']
  | .greaterEqual => ['>', '=']
  | .less         => ['<']
  | .lessEqual    => ['<', '=']

theorem Comparator.symbol_injective {a b : Comparator} (h : a.symbol = b.symbol) : a = b := by
  cases a <;> cases b <;> simp_all [symbol]

end WhenClause
