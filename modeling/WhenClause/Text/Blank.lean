import WhenClause.Text.Basic

/-!
# Blanks

Two sets of characters leave a gap in a text: the five *blanks* that may stand between the
tokens of a clause, and Unicode *white space*, which surrounds an entry of a table and makes a
line of input empty.
-/

namespace WhenClause

/-- The characters that may stand between tokens: space, tab, line ends and the no-break space. -/
def isBlank (c : Char) : Bool :=
  c = ' ' || c = '\t' || c = '\r' || c = '\n' || c = '\u00a0'

/-- The characters with the Unicode property White_Space. -/
def isWhiteSpace (c : Char) : Bool :=
  ('\t' ≤ c && c ≤ '\r') || c = ' ' || c = '\u0085' || c = '\u00a0' || c = '\u1680' ||
    ('\u2000' ≤ c && c ≤ '\u200a') || c = '\u2028' || c = '\u2029' || c = '\u202f' ||
    c = '\u205f' || c = '\u3000'

/-- The text without the white space at its two ends. -/
def Text.trim (t : Text) : Text :=
  ((t.dropWhile isWhiteSpace).reverse.dropWhile isWhiteSpace).reverse

/-- Whether a text holds white space only. -/
def Text.isWhite (t : Text) : Bool := t.all isWhiteSpace

end WhenClause
