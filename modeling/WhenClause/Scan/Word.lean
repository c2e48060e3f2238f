import WhenClause.Text.Alphanumeric
import WhenClause.Text.Blank

/-!
# Words

The name of a key, and a value without quotes, is a word: key characters, of which the first may
be a double quote, with a `<…>` suffix in which `>` counts as a key character too.
-/

namespace WhenClause

/-- Whether a character may stand in a word: a letter, a number, or one of some signs. -/
def isKeyChar (c : Char) : Bool :=
  isAlphanumeric c ||
    c ∈ ['_', '-', '.', '/', '\\', ':', '*', '?', '+', '[', ']', '^', ',', '#', '@', ';', '%', '$']

/-- Whether a word may begin with a character. -/
def isWordStart (c : Char) : Bool := isKeyChar c || c = '"'

/-- The rest of a word of which `depth` brackets `<` are open, and the text after it. -/
def takeWord : Nat → Text → Text × Text
  | _, []            => ([], [])
  | depth, c :: rest =>
    if c = '<' then
      let (word, after) := takeWord (depth + 1) rest
      (c :: word, after)
    else if c = '>' && 0 < depth then
      let (word, after) := takeWord (depth - 1) rest
      (c :: word, after)
    else if isKeyChar c then
      let (word, after) := takeWord depth rest
      (c :: word, after)
    else ([], c :: rest)

theorem takeWord_append (depth : Nat) (t : Text) :
    (takeWord depth t).1 ++ (takeWord depth t).2 = t := by
  fun_induction takeWord depth t <;> simp_all

end WhenClause
