import WhenClause.Scan.Piece

/-!
# Scanning

A text is a sequence of pieces with blanks between them. Scanning lists all pieces, each at its
offset; those that are tokens make up the clause, the others are errors.
-/

namespace WhenClause

/-- A piece of a text that is no token. The wording is fixed, as authors of clauses read it. -/
inductive ScanError where
  | unterminatedString (lexeme : Text) (offset : Nat)
  | strayEquals (offset : Nat)
  | unexpected (lexeme : Text) (offset : Nat)
  deriving DecidableEq, Repr

namespace ScanError

/-- The error of some characters at fault. -/
def ofFault (span : Text) (offset : Nat) : Fault → ScanError
  | .unterminatedString => .unterminatedString span offset
  | .strayEquals        => .strayEquals offset
  | .unexpected         => .unexpected span offset

/-- The characters at fault. -/
def lexeme : ScanError → Text
  | .unterminatedString lexeme _ => lexeme
  | .strayEquals _               => ['=']
  | .unexpected lexeme _         => lexeme

/-- Where the characters at fault begin. -/
def offset : ScanError → Nat
  | .unterminatedString _ offset => offset
  | .strayEquals offset          => offset
  | .unexpected _ offset         => offset

/-- The sentence about an error. -/
def message (e : ScanError) : String :=
  let found := "Unexpected token '" ++ String.ofList e.lexeme ++ "' at offset " ++
    String.ofList (Text.ofNat e.offset)
  match e with
  | .unterminatedString .. => found ++ ". Did you forget to close the string?"
  | .strayEquals ..        => found ++ ". Did you mean '==' or '=~'?"
  | .unexpected ..         => found

end ScanError

/-- The blanks that separate the head of a text from a piece that follows; none when the text
ends in blanks. -/
def trailOf (text : Text) : Text :=
  if text.all isBlank then [] else text.takeWhile isBlank

/-- A piece at its place in a text, with the blanks between it and the next piece. -/
structure Placed where
  kind : Except Fault Token.Kind
  span : Text
  offset : Nat
  trail : Text

namespace Placed

/-- The lexeme of a token of the given kind and source text. -/
def lexemeOf (kind : Token.Kind) (span : Text) : Text :=
  match kind with
  | .string => span.tail.dropLast
  | _       => span

/-- The token that a piece is. -/
def token? (p : Placed) : Option Token.Spaced :=
  match p.kind with
  | .ok kind => some ⟨⟨kind, lexemeOf kind p.span, p.offset⟩, p.trail⟩
  | .error _ => none

/-- The error that a piece is. -/
def error? (p : Placed) : Option ScanError :=
  match p.kind with
  | .ok _        => none
  | .error fault => some (.ofFault p.span p.offset fault)

end Placed

/-- The pieces of a text whose first character has the given offset, when its first `skip`
characters belong to a piece that has been listed. -/
def piecesFrom : Nat → Nat → Text → List Placed
  | _, _, []                      => []
  | skip + 1, offset, _ :: rest   => piecesFrom skip (offset + 1) rest
  | 0, offset, c :: rest          =>
    if isBlank c then piecesFrom 0 (offset + 1) rest
    else
      let piece := Piece.ofText c rest
      ⟨piece.kind, piece.span, offset, trailOf piece.rest⟩ ::
        piecesFrom (piece.span.length - 1) (offset + 1) rest

/-- The pieces of a text, from left to right. -/
def pieces (text : Text) : List Placed := piecesFrom 0 0 text

/-- The tokens of a text without its end, each with its trail. -/
def spacedTokens (text : Text) : List Token.Spaced := (pieces text).filterMap Placed.token?

/-- The errors of a text. -/
def scanErrors (text : Text) : List ScanError := (pieces text).filterMap Placed.error?

/-- The tokens of a text, of which the last is its end, and its errors. -/
def tokenize (text : Text) : List Token × List ScanError :=
  ((spacedTokens text).map (·.toToken) ++ [.endOf text.length], scanErrors text)

end WhenClause
