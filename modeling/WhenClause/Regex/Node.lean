import WhenClause.Text.Basic

/-!
# Parsed regexes

The tree of a regex, as far as it decides whether the regex is accepted: which characters a node
matches is left out.
-/

namespace WhenClause.Regex

/-- A node of a regex. -/
inductive Node where
  /-- nothing, such as an empty branch or a group of flags -/
  | empty
  /-- one character: a literal or the dot -/
  | char
  /-- one character of a set, which is well formed or not -/
  | set (valid : Bool)
  /-- a condition on the place alone; `onWords` if it looks for the edge of a word -/
  | assertion (onWords : Bool)
  /-- a mark that moves or fixes the start of the match -/
  | mark
  /-- the text of an earlier group again -/
  | backreference (group : Nat)
  /-- whether a group has taken part in the match -/
  | took (group : Nat)
  | concat (parts : List Node)
  | choice (branches : List Node)
  | capture (body : Node)
  /-- from `low` to `high` times the body -/
  | repeated (body : Node) (low high : Nat)
  /-- the body, of which only the first match counts -/
  | atomic (body : Node)
  | look (behind : Bool) (body : Node)
  | conditional (condition yes no : Node)
  deriving Inhabited

namespace Node

/-- The upper limit of a repetition without limit. -/
def noLimit : Nat := UInt64.size - 1

/-- Parts one after another; a single part stands for itself. -/
def ofParts : List Node → Node
  | []     => empty
  | [part] => part
  | parts  => concat parts

/-- Branches one beside another; a single branch stands for itself. -/
def ofBranches : List Node → Node
  | []       => empty
  | [branch] => branch
  | branches => choice branches

/-- Whether there is no node. -/
def isEmpty : Node → Bool
  | empty => true
  | _     => false

/-- Whether a node may be repeated: what takes no characters by its form may not. -/
def isRepeatable : Node → Bool
  | empty | assertion _ | look _ _ => false
  | _                              => true

end Node

end WhenClause.Regex
