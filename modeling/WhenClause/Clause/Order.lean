import WhenClause.Clause.Basic

/-!
# The order of operands

The operands of a group stand in a fixed order: by rank, which depends on the shape of the
operand, then by the key it tests, then by its text. Operands of one text are one operand.
-/

namespace WhenClause

/-- What decides the place of an operand. -/
structure SortKey where
  rank : Nat
  key : Option Text
  text : Text
  deriving DecidableEq, Repr

instance : Ord SortKey where
  compare := compareLex (compareOn SortKey.rank)
    (compareLex (compareOn SortKey.key) (compareOn SortKey.text))

/-- The rank of a test. -/
def Test.rank : Test → Nat
  | present _                 => 2
  | equals false _ _ _        => 4
  | equals true _ _ _         => 5
  | matching _ _ _            => 7
  | member false _ _          => 10
  | member true _ _           => 11
  | compare .greater _ _      => 12
  | compare .greaterEqual _ _ => 13
  | compare .less _ _         => 14
  | compare .lessEqual _ _    => 15

namespace Clause

/-- The rank of a clause. A negation stands right behind what it negates, where that is a key or
a regex, and at the end otherwise. -/
def rank : Clause → Nat
  | const false              => 0
  | const true               => 1
  | test t                   => t.rank
  | not (test (.present _))  => 3
  | group .and _             => 6
  | not (test (.matching ..)) => 8
  | group .or _              => 9
  | not _                    => 16

/-- What decides the place of a clause among its siblings. -/
def sortKey (c : Clause) : SortKey := ⟨c.rank, c.key?, c.text⟩

/-- The order of siblings. -/
def compareSiblings (a b : Clause) : Ordering := compare a.sortKey b.sortKey

/-- Puts an operand before the first one that does not precede it. -/
def insertSorted (x : SortKey × Clause) : List (SortKey × Clause) → List (SortKey × Clause)
  | []      => [x]
  | y :: ys => if (compare x.1 y.1).isLE then x :: y :: ys else y :: insertSorted x ys

/-- Operands without those at the front that have the text of the one before. -/
def dropRepeats (last : Text) : List (SortKey × Clause) → List (SortKey × Clause)
  | []      => []
  | y :: ys => if y.1.text = last then dropRepeats last ys else y :: dropRepeats y.1.text ys

/-- The operands of a group in order; of neighbours with one text the first stays. -/
def arrange (operands : List Clause) : List Clause :=
  match (operands.map fun c => (c.sortKey, c)).foldr insertSorted [] with
  | []      => []
  | x :: xs => (x :: dropRepeats x.1.text xs).map (·.2)

end Clause

end WhenClause
