import WhenClause.Operand

/-!
# Tests

A test asks one question about the value of one key: whether it is set, equals a text, stands in
an order to an operand, matches a regex, or is contained in the value of another key. Equality
and membership have an opposite that is a test as well.
-/

namespace WhenClause

/-- A question about the value of a key. -/
inductive Test where
  | present (key : Text)
  | equals (negated : Bool) (key value : Text) (foldCase : Bool)
  | compare (op : Comparator) (key : Text) (operand : Operand)
  | matching (key pattern flags : Text)
  | member (negated : Bool) (key target : Text)
  deriving DecidableEq, Repr

namespace Test

/-- The key that a test asks about. -/
def key : Test → Text
  | present key        => key
  | equals _ key _ _   => key
  | compare _ key _    => key
  | matching key _ _   => key
  | member _ key _     => key

/-- The test that holds exactly when this one does not, where there is one. -/
def opposite? : Test → Option Test
  | equals negated key value foldCase => some (equals (!negated) key value foldCase)
  | member negated key target         => some (member (!negated) key target)
  | _                                 => none

/-- A character put in its place among ascending characters, unless it is there. -/
def insertFlag (c : Char) : Text → Text
  | []        => [c]
  | d :: rest =>
    if c < d then c :: d :: rest
    else if c = d then d :: rest
    else d :: insertFlag c rest

/-- Flags in ascending order without repetition. -/
def sortFlags (flags : Text) : Text := flags.foldr insertFlag []

/-- A regex test, whose flags are kept in order. -/
def regex (key pattern flags : Text) : Test := matching key pattern (sortFlags flags)

theorem opposite?_opposite? {t u : Test} (h : t.opposite? = some u) : u.opposite? = some t := by
  cases t <;> simp [opposite?] at h <;> subst h <;> simp [opposite?]

/-- How a test is written, followed by `rest`. -/
def write (t : Test) (rest : Text) : Text :=
  match t with
  | present key => key ++ rest
  | equals negated key value _ =>
    key ++ (if negated then " != '" else " == '").toList ++ value ++ '\'' :: rest
  | compare op key operand => key ++ ' ' :: op.symbol ++ ' ' :: operand.write ++ rest
  | matching key pattern flags => key ++ " =~ /".toList ++ pattern ++ '/' :: flags ++ rest
  | member negated key target =>
    key ++ (if negated then " not in " else " in ").toList ++ target ++ rest

/-- The node of a test in a tree, with its members in alphabetical order. -/
def toJson : Test → Json
  | present key => .object [("key", .string key), ("kind", .string "key_exists".toList)]
  | equals negated key value foldCase =>
    .object [("case_insensitive", .bool foldCase), ("key", .string key),
      ("kind", .string (if negated then "not_equals" else "equals").toList),
      ("value", .string value)]
  | compare op key operand =>
    .object [("key", .string key), ("kind", .string "compare".toList),
      ("op", .string op.symbol), ("value", operand.toJson)]
  | matching key pattern flags =>
    .object [("flags", .string flags), ("key", .string key), ("kind", .string "regex".toList),
      ("pattern", .string pattern)]
  | member negated key target =>
    .object [("key", .string key), ("kind", .string "in".toList), ("negated", .bool negated),
      ("target", .string target)]

end Test

end WhenClause
