import WhenClause.Scan.Basic

/-!
# Scanning on demand

A scanner stands at a place of a text and hands out one token at a time; the errors that it
passes on the way are kept. It can be read in two ways: token by token, where the end comes back
again and again, and as a sequence, which is over once it has returned the end.
-/

namespace WhenClause

/-- A place in a text, with the errors that lie before it. -/
structure Scanner where
  /-- the text from here on -/
  rest : Text
  /-- the number of characters before -/
  offset : Nat
  /-- the errors found so far, in order -/
  errors : List ScanError
  /-- whether the end has been handed out as an element of the sequence -/
  finished : Bool

namespace Scanner

/-- A scanner at the start of a text. -/
def ofText (text : Text) : Scanner := ⟨text, 0, [], false⟩

/-- The first token of a text of which `skip` characters still belong to a piece at fault; with
it, the scanner's text, offset and errors after it. -/
def advance : Nat → Nat → List ScanError → Text → Token × Text × Nat × List ScanError
  | _, offset, errors, []                    => (.endOf offset, [], offset, errors)
  | skip + 1, offset, errors, _ :: rest      => advance skip (offset + 1) errors rest
  | 0, offset, errors, c :: rest             =>
    if isBlank c then advance 0 (offset + 1) errors rest
    else
      let piece := Piece.ofText c rest
      match piece.kind with
      | .ok kind =>
        (⟨kind, Placed.lexemeOf kind piece.span, offset⟩, piece.rest,
          offset + piece.span.length, errors)
      | .error fault =>
        advance (piece.span.length - 1) (offset + 1)
          (errors ++ [.ofFault piece.span offset fault]) rest

/-- The next token; at the end of the text, that end. -/
def nextToken (s : Scanner) : Token × Scanner :=
  let (token, rest, offset, errors) := advance 0 s.offset s.errors s.rest
  (token, ⟨rest, offset, errors, s.finished⟩)

/-- The next element of the sequence of tokens. -/
def next (s : Scanner) : Option Token × Scanner :=
  if s.finished then (none, s)
  else
    let (token, s') := s.nextToken
    (some token, { s' with finished := token.kind = .eof })

/-- All that is left of the sequence, for a scanner with at most `fuel` characters to go. -/
def drainWith : Nat → Scanner → List Token × Scanner
  | 0, s        => ([], s)
  | fuel + 1, s =>
    match s.next with
    | (none, s')       => ([], s')
    | (some token, s') =>
      let (tokens, last) := drainWith fuel s'
      (token :: tokens, last)

/-- All that is left of the sequence of tokens. A token takes at least one character and the end
takes one more step, as does finding the sequence over. -/
def drain (s : Scanner) : List Token × Scanner := drainWith (s.rest.length + 2) s

end Scanner

end WhenClause
