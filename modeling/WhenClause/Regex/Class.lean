import WhenClause.Text.Basic

/-!
# Character classes

What stands between brackets: literal characters, ranges of them, escapes that stand for a set,
nested classes, named classes such as `[:alpha:]`, and the operators `&&`, `--` and `~~`. A class
is well formed when every bracket is closed, every range has two literals in ascending order as
its ends, and every set that an escape stands for exists.
-/

namespace WhenClause.Regex

/-- A part of a class as it is read. -/
inductive ClassItem where
  /-- a character that may have a meaning of its own -/
  | raw (c : Char)
  /-- a character that stands for itself because it was escaped -/
  | quoted (c : Char)
  /-- an escape for a set of characters, which exists or not -/
  | set (valid : Bool)
  deriving DecidableEq, Repr

namespace ClassItem

/-- The character that an item stands for. -/
def char? : ClassItem → Option Char
  | raw c    => some c
  | quoted c => some c
  | set _    => none

/-- Whether an item can be part of a class at all. -/
def isValid : ClassItem → Bool
  | set valid => valid
  | _         => true

end ClassItem

/-- Whether two items are the ends of a range. -/
def isRange (first last : ClassItem) : Bool :=
  match first.char?, last.char? with
  | some a, some b => a ≤ b
  | _, _           => false

/-- The names that may stand between `[:` and `:]`. -/
def namedClasses : List Text :=
  ["alnum".toList, "alpha".toList, "ascii".toList, "blank".toList, "cntrl".toList, "digit".toList,
    "graph".toList, "lower".toList, "print".toList, "punct".toList, "space".toList,
    "upper".toList, "word".toList, "xdigit".toList]

/-- The characters before the first colon, if they are raw and `:]` follows. -/
def classNameOf? : List ClassItem → Option Text
  | .raw ':' :: .raw ']' :: _ => some []
  | .raw ':' :: _             => none
  | .raw c :: rest            => (classNameOf? rest).map (c :: ·)
  | _                         => none

/-- The number of items that a named class takes after its first bracket. -/
def namedClassLength? : List ClassItem → Option Nat
  | .raw ':' :: .raw '^' :: rest => do
    let name ← classNameOf? rest
    if name ∈ namedClasses then some (name.length + 4) else none
  | .raw ':' :: rest             => do
    let name ← classNameOf? rest
    if name ∈ namedClasses then some (name.length + 3) else none
  | _                            => none

/-- Where a reader stands in a class: at its first character, behind hyphens at its start, which
are literal, or further on. -/
inductive ClassPlace where
  | first
  | hyphens
  | inside
  deriving DecidableEq, Repr

/-- Whether the items that follow an opening bracket make up a class, of which `depth` enclosing
classes are open; `skip` items belong to something that has been read. -/
def isClass (place : ClassPlace) (depth : Nat) : Nat → List ClassItem → Bool
  | _, []                  => false
  | skip + 1, _ :: rest    => isClass place depth skip rest
  | 0, item :: rest        =>
    if item = .raw '-' && place ≠ .inside then isClass .hyphens depth 0 rest
    else if item = .raw ']' && place = .first then isClass .inside depth 0 rest
    else if item = .raw ']' then
      match depth with
      | 0          => true
      | depth + 1  => isClass .inside depth 0 rest
    else if item = .raw '[' then
      match namedClassLength? rest, rest with
      | some length, _    => isClass .inside depth length rest
      | none, .raw '^' :: _ => isClass .first (depth + 1) 1 rest
      | none, _           => isClass .first (depth + 1) 0 rest
    else
      match item, rest with
      | .raw '&', .raw '&' :: _ => isClass .inside depth 1 rest
      | .raw '-', .raw '-' :: _ => isClass .inside depth 1 rest
      | .raw '~', .raw '~' :: _ => isClass .inside depth 1 rest
      | _, .raw '-' :: last :: _ =>
        if last = .raw ']' || last = .raw '-' then isClass .inside depth 0 rest
        else isRange item last && isClass .inside depth 2 rest
      | _, _ => isClass .inside depth 0 rest

/-- Whether the items after the bracket that opens a class are well formed: every set among them
exists, and they make up a class. -/
def isWellFormedClass (items : List ClassItem) : Bool :=
  items.all ClassItem.isValid &&
    match items with
    | .raw '^' :: rest => isClass .first 0 0 rest
    | _                => isClass .first 0 0 items

end WhenClause.Regex
