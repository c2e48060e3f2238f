import WhenClause.Clause.Order

/-!
# Building canonical clauses

`join` and `negate` build groups and negations of clauses that are in canonical form, and keep
that form: no constant inside a group, no group directly inside a group of its connective, at
least two operands, in order and without repetition, and a negation only over a test that has no
opposite.
-/

namespace WhenClause.Clause

/-- The operands of a group: those of nested groups of the same connective stand in the place of
the group, and neutral constants are dropped; nothing if a constant decides the whole. -/
def gather? (op : Connective) : List Clause → Option (List Clause)
  | []      => some []
  | c :: cs =>
    match c with
    | const b            => if b = op.unit then gather? op cs else none
    | group op' children =>
      (gather? op cs).map ((if op' = op then children else [c]) ++ ·)
    | _                  => (gather? op cs).map (c :: ·)

/-- Clauses joined by a connective. -/
def join (op : Connective) (operands : List Clause) : Clause :=
  match gather? op operands with
  | none       => const (!op.unit)
  | some found =>
    match arrange found with
    | []       => const op.unit
    | [c]      => c
    | children => group op children

mutual

/-- The negation of a clause: a constant is flipped, a test turns into its opposite where it has
one, a negation is taken away, and a group turns into the dual group of the negations. -/
def negate : Clause → Clause
  | .const b           => .const !b
  | .test t            =>
    match t.opposite? with
    | some u => .test u
    | none   => .not (.test t)
  | .not c             => c
  | .group op children => join op.dual (negateAll children)

/-- The negations of some clauses. -/
def negateAll : List Clause → List Clause
  | []      => []
  | c :: cs => negate c :: negateAll cs

end

@[simp] theorem negateAll_eq_map (cs : List Clause) : negateAll cs = cs.map negate := by
  induction cs with
  | nil => rfl
  | cons c cs ih => simp [negateAll, ih]

end WhenClause.Clause
