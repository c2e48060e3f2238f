import WhenClause.Regex.Class
import WhenClause.Regex.Node
import WhenClause.Regex.Property
import WhenClause.Text.Alphanumeric

/-!
# Parsing regexes

A regex is read by recursive descent: branches between bars, pieces in a branch, and an atom with
its quantifier in a piece. Comments `(?#…)` may stand between all of them, and in verbose mode
blanks and line comments too.

Every function that follows the nesting of groups takes some fuel. Each call reads a character or
is one of a few calls that lead to one that does, so the length of the text bounds the fuel; the
number of groups that may be open at once has a limit of its own.
-/

namespace WhenClause.Regex

/-- What a parser has learnt from the text it has read. -/
structure ParserState where
  /-- blanks and line comments are skipped -/
  verbose : Bool
  /-- a group was referred to by its number -/
  numbered : Bool
  /-- the number of capture groups that have been opened -/
  opened : Nat
  /-- the named groups that have been opened, the latest first -/
  names : List (Text × Nat)

/-- The limit on groups that are open at once. -/
def maxDepth : Nat := 64

/-! ### Gaps -/

/-- What a reader of a gap stands in. -/
inductive Gap where
  | outside
  | line
  | comment

/-- Skips a gap; a comment must be closed. -/
def skipFrom (verbose : Bool) : Gap → Text → Option Text
  | .outside, '(' :: '?' :: '#' :: rest => skipFrom verbose .comment rest
  | .outside, c :: rest                 =>
    if verbose && (c = ' ' || c = '\t' || c = '\r' || c = '\n') then skipFrom verbose .outside rest
    else if verbose && c = '#' then skipFrom verbose .line rest
    else some (c :: rest)
  | .outside, []                        => some []
  | .line, '\n' :: rest                 => skipFrom verbose .outside rest
  | .line, _ :: rest                    => skipFrom verbose .line rest
  | .line, []                           => some []
  | .comment, ')' :: rest               => skipFrom verbose .outside rest
  | .comment, '\\' :: _ :: rest         => skipFrom verbose .comment rest
  | .comment, _ :: rest                 => skipFrom verbose .comment rest
  | .comment, []                        => none

/-- Skips blanks and comments where the state allows them. -/
def ParserState.skip (s : ParserState) (text : Text) : Option Text :=
  skipFrom s.verbose .outside text

/-! ### Numbers and names -/

/-- The number that some digits spell in a base. -/
def numberOf (base : Nat) (digits : Text) : Nat :=
  digits.foldl (fun n c =>
    base * n + (if c.isDigit then c.toNat - 48 else c.toLower.toNat - 87)) 0

/-- A number of 64 bits at the head of a text. -/
def number? (text : Text) : Option (Nat × Text) :=
  let digits := text.takeWhile Char.isDigit
  let n := numberOf 10 digits
  if digits = [] || UInt64.size ≤ n then none else some (n, text.dropWhile Char.isDigit)

/-- Whether a character may stand in the name of a group. -/
def isNameChar (c : Char) : Bool := isAlphanumeric c || c = '_'

/-- A name at the head of a text and the text behind `close`. A relative name is a hyphen and
digits. -/
def name? (relative : Bool) (close : Char) (text : Text) : Option (Text × Text) :=
  let (name, rest) := match relative, text with
    | true, '-' :: more =>
      ('-' :: more.takeWhile Char.isDigit, more.dropWhile Char.isDigit)
    | _, _              => (text.takeWhile isNameChar, text.dropWhile isNameChar)
  match rest with
  | c :: rest => if c = close && name ≠ [] && name ≠ ['-'] then some (name, rest) else none
  | []        => none

/-- The group that a name refers to: a named group, or by its number, counted back from the last
opened group when negative. -/
def ParserState.group? (s : ParserState) (name : Text) : Option Nat :=
  match s.names.lookup name with
  | some group => some group
  | none       =>
    let (negative, digits) := match name with
      | '-' :: digits => (true, digits)
      | _             => (false, name)
    let n := numberOf 10 digits
    if !digits.all Char.isDigit || 1 <<< 63 ≤ n then none
    else if !negative || n = 0 then some n
    else if n ≤ s.opened + 1 then some (s.opened + 1 - n)
    else none

/-- A reference by name, after its opening sign. -/
def ParserState.namedReference? (s : ParserState) (close : Char) (text : Text) :
    Option (Node × Text) := do
  let (name, rest) ← name? true close text
  return (.backreference (← s.group? name), rest)

/-- A reference by number. Whether there is such a group is asked of the whole tree. -/
def ParserState.numberedReference? (s : ParserState) (text : Text) :
    Option (Node × ParserState × Text) := do
  let (n, rest) ← number? text
  return (.backreference n, { s with numbered := true }, rest)

/-! ### Escapes -/

/-- What an escape stands for. -/
inductive Escape where
  | char (c : Char)
  /-- a set of characters, which exists or not -/
  | set (valid : Bool)
  /-- the hexadecimal digits, or all other characters -/
  | hexDigit (negated : Bool)
  | node (n : Node)

/-- The node of an escape that stands outside of classes. -/
def Escape.toNode : Escape → Node
  | char _      => .char
  | set valid   => .set valid
  | hexDigit _  => .set true
  | node n      => n

/-- The class items of an escape that stands inside a class. -/
def Escape.toItems? : Escape → Option (List ClassItem)
  | char c           => some [.quoted c]
  | set valid        => some [.set valid]
  | hexDigit negated =>
    some ((if negated then "[^0-9A-Fa-f]" else "[0-9A-Fa-f]").toList.map .raw)
  | node _           => none

/-- Whether a character is a hexadecimal digit. -/
def isHexDigit (c : Char) : Bool :=
  c.isDigit || ('a' ≤ c && c ≤ 'f') || ('A' ≤ c && c ≤ 'F')

/-- The character of a code point. -/
def charOf? (n : Nat) : Option Char := if n.isValidChar then some (Char.ofNat n) else none

/-- A character by its code point: exactly `count` hexadecimal digits, or up to eight in braces. -/
def hexChar? (count : Nat) (text : Text) : Option (Escape × Text) :=
  let digits := text.take count
  if digits.length = count && digits.all isHexDigit then
    (charOf? (numberOf 16 digits)).map fun c => (.char c, text.drop count)
  else
    match text with
    | '\x7b' :: rest =>
      let digits := rest.takeWhile isHexDigit
      match rest.dropWhile isHexDigit with
      | '\x7d' :: after =>
        if digits = [] || 8 < digits.length then none
        else (charOf? (numberOf 16 digits)).map fun c => (.char c, after)
      | _ => none
    | _ => none

/-- A property: one character, or a name in braces. -/
def property? : Text → Option (Escape × Text)
  | '\x7b' :: rest => (Text.splitFirst? '\x7d' rest).map fun (name, after) =>
      (.set (isProperty name), after)
  | c :: rest      => some (.set (isProperty [c]), rest)
  | []             => none

/-- The character that a letter stands for behind a backslash. -/
def controlChar? : Char → Option Char
  | 'a' => some '\x07'
  | 'f' => some '\x0c'
  | 'n' => some '\n'
  | 'r' => some '\r'
  | 't' => some '\t'
  | 'v' => some '\x0b'
  | 'e' => some '\x1b'
  | _   => none

/-- A place or a mark that only exists outside of classes; `next` is the text behind the letter. -/
def placeEscape? (c : Char) (next : Text) : Option Node :=
  match c with
  | 'A' | 'z' => some (.assertion false)
  | 'b' | 'B' => if next.head? = some '\x7b' then none else some (.assertion true)
  | '<' | '>' => some (.assertion true)
  | 'K' | 'G' => some .mark
  | _         => none

/-- An escape, after its backslash. -/
def ParserState.escape? (s : ParserState) (inClass : Bool) (text : Text) :
    Option (Escape × ParserState × Text) :=
  match text with
  | []        => none
  | c :: rest =>
    if c.isDigit then do
      let (node, s, rest) ← s.numberedReference? text
      return (.node node, s, rest)
    else if c = 'k' && !inClass then do
      let (close, rest) ← match rest with
        | '\'' :: rest => some ('\'', rest)
        | '<' :: rest  => some ('>', rest)
        | _            => none
      let (node, rest) ← s.namedReference? close rest
      return (.node node, s, rest)
    else if !inClass && c ∈ ['A', 'z', 'b', 'B', '<', '>', 'K', 'G'] then
      (placeEscape? c rest).map fun node => (.node node, s, rest)
    else if c ∈ ['d', 'D', 's', 'S', 'w', 'W'] then some (.set true, s, rest)
    else if c = 'h' || c = 'H' then some (.hexDigit (c = 'H'), s, rest)
    else if c = 'x' then (hexChar? 2 rest).map fun (e, rest) => (e, s, rest)
    else if c = 'u' then (hexChar? 4 rest).map fun (e, rest) => (e, s, rest)
    else if c = 'U' then (hexChar? 8 rest).map fun (e, rest) => (e, s, rest)
    else if c = 'p' || c = 'P' then (property? rest).map fun (e, rest) => (e, s, rest)
    else
      match controlChar? c with
      | some d => some (.char d, s, rest)
      | none   =>
        if !c.isAlpha || (inClass && c ∈ ['A', 'z', 'B', 'b', 'k', 'K']) then
          some (.char c, s, rest)
        else none

/-! ### Classes -/

/-- The items of a class with `depth` brackets open, up to the bracket that closes the last of
them. -/
def ParserState.classItems? (s : ParserState) (depth : Nat) :
    Nat → Text → Option (List ClassItem × ParserState × Text)
  | 0, _        => none
  | fuel + 1, text =>
    match text with
    | []           => none
    | '\\' :: rest => do
      let (escape, s, rest) ← s.escape? true rest
      let items ← escape.toItems?
      let (more, s, rest) ← s.classItems? depth fuel rest
      return (items ++ more, s, rest)
    | ']' :: rest  =>
      if depth = 1 then some ([.raw ']'], s, rest)
      else do
        let (more, s, rest) ← s.classItems? (depth - 1) fuel rest
        return (.raw ']' :: more, s, rest)
    | c :: rest    => do
      let (more, s, rest) ← s.classItems? (if c = '[' then depth + 1 else depth) fuel rest
      return (.raw c :: more, s, rest)

/-- A class, after its first bracket. -/
def ParserState.class? (s : ParserState) (text : Text) : Option (Node × ParserState × Text) := do
  let (caret, rest) := match text with
    | '^' :: rest => ([ClassItem.raw '^'], rest)
    | _           => ([], text)
  let (bracket, rest) := match rest with
    | ']' :: rest => ([ClassItem.raw ']'], rest)
    | _           => ([], rest)
  let (items, s, rest) ← s.classItems? 1 (rest.length + 1) rest
  return (.set (isWellFormedClass (caret ++ bracket ++ items)), s, rest)

/-! ### Quantifiers and flags -/

/-- The limits of a repetition, after the opening brace. -/
def ParserState.limits? (s : ParserState) (text : Text) : Option (Nat × Nat × Text) := do
  let text ← s.skip text
  let (low, text) ← match text with
    | ',' :: _ => some (0, text)
    | _        => number? text
  match ← s.skip text with
  | '\x7d' :: rest => some (low, low, rest)
  | ',' :: rest    =>
    let text ← s.skip rest
    let (high, text) := (number? text).getD (Node.noLimit, text)
    match ← s.skip text with
    | '\x7d' :: rest => some (low, high, rest)
    | _              => none
  | _              => none

/-- The limits of a quantifier at the head of a text. -/
def ParserState.quantifier? (s : ParserState) : Text → Option (Nat × Nat × Text)
  | '?' :: rest    => some (0, 1, rest)
  | '*' :: rest    => some (0, Node.noLimit, rest)
  | '+' :: rest    => some (1, Node.noLimit, rest)
  | '\x7b' :: rest => s.limits? rest
  | _              => none

/-- A node with the quantifier that may follow it, a lazy or a possessive sign included. -/
def ParserState.quantified? (s : ParserState) (node : Node) (text : Text) :
    Option (Node × Text) := do
  let text ← s.skip text
  match s.quantifier? text with
  | none                   => some (node, text)
  | some (low, high, rest) =>
    if !node.isRepeatable then none
    else do
      let rest ← s.skip rest
      let rest := match rest with
        | '?' :: rest => rest
        | _           => rest
      match rest with
      | '+' :: rest => some (.atomic (.repeated node low high), rest)
      | _           => some (.repeated node low high, rest)

/-- Flags up to the sign that ends them, a parenthesis or a colon: whether it was the colon, and
the state with these flags. -/
def ParserState.flags? (negated : Bool) :
    Nat → ParserState → Text → Option (Bool × ParserState × Text)
  | 0, _, _           => none
  | fuel + 1, s, text => do
    match ← s.skip text with
    | ')' :: rest => some (false, s, rest)
    | ':' :: rest => some (true, s, rest)
    | '-' :: rest => if negated then none else flags? true fuel s rest
    | 'u' :: rest => if negated then none else flags? negated fuel s rest
    | 'x' :: rest => flags? negated fuel { s with verbose := !negated } rest
    | c :: rest   => if c ∈ ['i', 'm', 's', 'U'] then flags? negated fuel s rest else none
    | []          => none

/-- Whether a group of flags, after its question mark, ends before its first flag. -/
def lacksFlags : Text → Bool
  | ')' :: _ | '-' :: ')' :: _ | '-' :: ':' :: _ => true
  | _                                            => false

/-! ### Groups -/

/-- What a group is, by the signs behind its parenthesis. -/
inductive GroupKind where
  | look (behind : Bool)
  | capture (name : Option Text)
  | atomic
  | conditional
  /-- a reference by name in place of a body -/
  | reference
  | flags

/-- The kind of a group and the text behind the signs that tell it. -/
def groupKind? : Text → Option (GroupKind × Text)
  | '?' :: '=' :: rest        => some (.look false, rest)
  | '?' :: '!' :: rest        => some (.look false, rest)
  | '?' :: '<' :: '=' :: rest => some (.look true, rest)
  | '?' :: '<' :: '!' :: rest => some (.look true, rest)
  | '?' :: '<' :: rest        =>
    (name? false '>' rest).map fun (name, rest) => (.capture (some name), rest)
  | '?' :: 'P' :: '<' :: rest =>
    (name? false '>' rest).map fun (name, rest) => (.capture (some name), rest)
  | '?' :: 'P' :: '=' :: rest => some (.reference, rest)
  | '?' :: '>' :: rest        => some (.atomic, rest)
  | '?' :: '(' :: rest        => some (.conditional, rest)
  | '?' :: rest               => some (.flags, rest)
  | text                      => some (.capture none, text)

/-- The state inside a new capture group. -/
def ParserState.openGroup (s : ParserState) (name : Option Text) : ParserState :=
  { s with
    opened := s.opened + 1
    names := match name with
      | some name => (name, s.opened + 1) :: s.names
      | none      => s.names }

/-- Skips a gap and the parenthesis that must follow it. -/
def ParserState.close? (s : ParserState) (text : Text) : Option Text := do
  match ← s.skip text with
  | ')' :: rest => some rest
  | _           => none

/-- A conditional whose condition and branches have been read. A reference as the condition asks
whether its group took part, and a conditional with nothing in either branch is its condition. -/
def conditionalOf (condition body : Node) : Node :=
  let condition := match condition with
    | .backreference group => .took group
    | _                    => condition
  let (yes, no) := match body with
    | .choice (yes :: others) => (yes, Node.ofBranches others)
    | _                       => (body, .empty)
  if yes.isEmpty && no.isEmpty then condition else .conditional condition yes no

mutual

/-- Branches between bars. A reference by number and a named group exclude each other where there
is no bar. -/
def alternation? (depth : Nat) :
    Nat → ParserState → Text → Option (Node × ParserState × Text)
  | 0, _, _           => none
  | fuel + 1, s, text => do
    let (parts, s, text) ← pieces? depth fuel s text
    let (others, s, text) ← branches? depth fuel s (← s.skip text)
    if others.isEmpty then
      if s.numbered && !s.names.isEmpty then none else some (.ofParts parts, s, text)
    else some (.choice (.ofParts parts :: others), s, text)

/-- The branches behind the bars that follow. -/
def branches? (depth : Nat) :
    Nat → ParserState → Text → Option (List Node × ParserState × Text)
  | 0, _, _           => none
  | fuel + 1, s, text =>
    match text with
    | '|' :: rest => do
      let (parts, s, text) ← pieces? depth fuel s rest
      let (others, s, text) ← branches? depth fuel s (← s.skip text)
      some (.ofParts parts :: others, s, text)
    | _ => some ([], s, text)

/-- The pieces of a branch, up to one that takes nothing. -/
def pieces? (depth : Nat) :
    Nat → ParserState → Text → Option (List Node × ParserState × Text)
  | 0, _, _           => none
  | fuel + 1, s, text => do
    let (node, s', rest) ← atom? depth fuel s (← s.skip text)
    let (node, rest) ← s'.quantified? node rest
    if rest.length = text.length then some ([], s', text)
    else
      let (nodes, s, rest) ← pieces? depth fuel s' rest
      some (if node.isEmpty then nodes else node :: nodes, s, rest)

/-- An atom, which takes nothing at the end of a branch and before a quantifier. -/
def atom? (depth : Nat) :
    Nat → ParserState → Text → Option (Node × ParserState × Text)
  | 0, _, _           => none
  | fuel + 1, s, text =>
    match text with
    | []           => some (.empty, s, text)
    | '\\' :: rest => do
      let (escape, s, rest) ← s.escape? false rest
      some (escape.toNode, s, rest)
    | '[' :: rest  => s.class? rest
    | '(' :: rest  => group? (depth + 1) fuel s rest
    | c :: rest    =>
      if c ∈ ['+', '*', '?', '|', ')'] then some (.empty, s, text)
      else if c = '^' || c = '$' then some (.assertion false, s, rest)
      else some (.char, s, rest)

/-- A group, after its opening parenthesis. -/
def group? (depth : Nat) :
    Nat → ParserState → Text → Option (Node × ParserState × Text)
  | 0, _, _           => none
  | fuel + 1, s, text => do
    if maxDepth ≤ depth then none
    let (kind, rest) ← groupKind? (← s.skip text)
    match kind with
    | .look behind  =>
      let (body, s, rest) ← alternation? depth fuel s rest
      some (.look behind body, s, ← s.close? rest)
    | .capture name =>
      let (body, s, rest) ← alternation? depth fuel (s.openGroup name) rest
      some (.capture body, s, ← s.close? rest)
    | .atomic       =>
      let (body, s, rest) ← alternation? depth fuel s rest
      some (.atomic body, s, ← s.close? rest)
    | .reference    =>
      let (node, rest) ← s.namedReference? ')' rest
      some (node, s, rest)
    | .flags        =>
      if lacksFlags rest then none
      let (colon, inner, rest) ← ParserState.flags? false (rest.length + 1) s rest
      if colon then
        let (body, last, rest) ← alternation? depth fuel inner rest
        match rest with
        | ')' :: rest => some (body, { last with verbose := s.verbose }, rest)
        | _           => none
      else some (.empty, inner, rest)
    | .conditional  =>
      let (condition, s, rest) ← condition? depth fuel s rest
      let start ← s.close? rest
      let (body, s, rest) ← alternation? depth fuel s start
      if rest.length = start.length then
        match condition with
        | .backreference group => some (.took group, s, ← s.close? rest)
        | _                    => none
      else some (conditionalOf condition body, s, ← s.close? rest)

/-- The condition of a conditional, after its parenthesis: a reference, or a regex. -/
def condition? (depth : Nat) :
    Nat → ParserState → Text → Option (Node × ParserState × Text)
  | 0, _, _           => none
  | fuel + 1, s, text =>
    match text with
    | '\'' :: rest => (s.namedReference? '\'' rest).map fun (node, rest) => (node, s, rest)
    | '<' :: rest  => (s.namedReference? '>' rest).map fun (node, rest) => (node, s, rest)
    | c :: _       =>
      if c.isDigit then s.numberedReference? text else alternation? depth fuel s text
    | []           => none

end

/-- A parser that has read nothing. -/
def ParserState.start : ParserState := ⟨false, false, 0, []⟩

/-- The tree of a regex, if all of the text is one. -/
def parse? (text : Text) : Option Node :=
  match alternation? 0 (8 * text.length + 8) .start text with
  | some (node, _, []) => some node
  | _                  => none

end WhenClause.Regex
