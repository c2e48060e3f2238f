import WhenClause.Decimal.Binary64

/-!
# JSON values

The values in which token lists and trees are exchanged, and their text: on one line, or spread
over lines with two blanks of indentation for each level.
-/

namespace WhenClause

/-- A JSON value; the members of an object keep their order. -/
inductive Json where
  | null
  | bool (value : Bool)
  | integer (value : Int)
  | float (negative : Bool) (magnitude : Binary64)
  | string (value : Text)
  | array (items : List Json)
  | object (members : List (String × Json))

namespace Json

/-- A character of a string as it is written: quotes, backslashes and control characters are
escaped. -/
def escape (c : Char) : Text :=
  if c = '"' then ['\\', '"']
  else if c = '\\' then ['\\', '\\']
  else if c = '\x08' then ['\\', 'b']
  else if c = '\t' then ['\\', 't']
  else if c = '\n' then ['\\', 'n']
  else if c = '\x0c' then ['\\', 'f']
  else if c = '\r' then ['\\', 'r']
  else if c < ' ' then
    ['\\', 'u', '0', '0', Nat.digitChar (c.toNat / 16), Nat.digitChar (c.toNat % 16)]
  else [c]

/-- A string in its quotes. -/
def quote (t : Text) : Text := '"' :: t.flatMap escape ++ ['"']

/-- A whole number. -/
def writeInt (n : Int) : Text :=
  if n < 0 then '-' :: Text.ofNat n.natAbs else Text.ofNat n.natAbs

/-- A value that holds no other values. -/
def scalar : Json → Text
  | null                  => "null".toList
  | bool true             => "true".toList
  | bool false            => "false".toList
  | integer n             => writeInt n
  | float negative x      => (if negative then ['-'] else []) ++ x.toText
  | string t              => quote t
  | array _ | object _    => []

mutual

/-- The value on one line, followed by `rest`. -/
def writeCompact : Json → Text → Text
  | .array items, rest    => '[' :: writeItems false items (']' :: rest)
  | .object members, rest => '\x7b' :: writeMembers false members ('\x7d' :: rest)
  | value, rest           => value.scalar ++ rest

/-- Values with commas between them; `more` tells whether others stand before. -/
def writeItems (more : Bool) : List Json → Text → Text
  | [], rest             => rest
  | item :: items, rest  =>
    let text := writeCompact item (writeItems true items rest)
    if more then ',' :: text else text

/-- Members with commas between them; `more` tells whether others stand before. -/
def writeMembers (more : Bool) : List (String × Json) → Text → Text
  | [], rest                       => rest
  | (name, value) :: members, rest =>
    let text := quote name.toList ++ ':' :: writeCompact value (writeMembers true members rest)
    if more then ',' :: text else text

end

/-- A new line with an indentation of `depth` levels, followed by `rest`. -/
def newLine (depth : Nat) (rest : Text) : Text := '\n' :: List.replicate (2 * depth) ' ' ++ rest

mutual

/-- The value spread over lines, followed by `rest`; its own level is `depth`. -/
def writePretty (depth : Nat) : Json → Text → Text
  | .array [], rest       => '[' :: ']' :: rest
  | .object [], rest      => '\x7b' :: '\x7d' :: rest
  | .array items, rest    =>
    '[' :: writePrettyItems (depth + 1) false items (newLine depth (']' :: rest))
  | .object members, rest =>
    '\x7b' :: writePrettyMembers (depth + 1) false members (newLine depth ('\x7d' :: rest))
  | value, rest           => value.scalar ++ rest

/-- Values on lines of their own. -/
def writePrettyItems (depth : Nat) (more : Bool) : List Json → Text → Text
  | [], rest             => rest
  | item :: items, rest  =>
    let text := newLine depth (writePretty depth item (writePrettyItems depth true items rest))
    if more then ',' :: text else text

/-- Members on lines of their own. -/
def writePrettyMembers (depth : Nat) (more : Bool) : List (String × Json) → Text → Text
  | [], rest                       => rest
  | (name, value) :: members, rest =>
    let text := newLine depth (quote name.toList ++ ':' :: ' ' ::
      writePretty depth value (writePrettyMembers depth true members rest))
    if more then ',' :: text else text

end

/-- The text of a value on one line. -/
def compact (j : Json) : Text := j.writeCompact []

/-- The text of a value spread over lines. -/
def pretty (j : Json) : Text := j.writePretty 0 []

end Json

end WhenClause
