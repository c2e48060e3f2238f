import WhenClause.Regex.Literal
import WhenClause.Scan.Word
import WhenClause.Token

/-!
# Pieces

What stands at the head of a text that does not begin with a blank: a token of some kind, or
characters at fault. Main statement: a piece and the text after it are the text it was read from
(`Piece.span_append_rest`), and it is never empty (`Piece.span_ne_nil`).
-/

namespace WhenClause

/-- Why some characters are no token. -/
inductive Fault where
  /-- a quote without its partner -/
  | unterminatedString
  /-- a single `=` -/
  | strayEquals
  /-- anything else -/
  | unexpected
  deriving DecidableEq, Repr

/-- The head of a text: its kind or its fault, the characters it covers, and the text after it. -/
structure Piece where
  kind : Except Fault Token.Kind
  span : Text
  rest : Text

namespace Piece

/-- A sign, taken as long as possible. -/
def sign? : Text → Option Piece
  | '(' :: rest               => some ⟨.ok .lparen, ['('], rest⟩
  | ')' :: rest               => some ⟨.ok .rparen, [')'], rest⟩
  | '!' :: '=' :: '=' :: rest => some ⟨.ok (.equality true), ['!', '=', '='], rest⟩
  | '!' :: '=' :: rest        => some ⟨.ok (.equality true), ['!', '='], rest⟩
  | '!' :: rest               => some ⟨.ok .not, ['!'], rest⟩
  | '=' :: '=' :: '=' :: rest => some ⟨.ok (.equality false), ['=', '=', '='], rest⟩
  | '=' :: '=' :: rest        => some ⟨.ok (.equality false), ['=', '='], rest⟩
  | '=' :: '~' :: rest        => some ⟨.ok .matching, ['=', '~'], rest⟩
  | '=' :: rest               => some ⟨.error .strayEquals, ['='], rest⟩
  | '<' :: '=' :: rest        => some ⟨.ok (.order .lessEqual), ['<', '='], rest⟩
  | '<' :: rest               => some ⟨.ok (.order .less), ['<'], rest⟩
  | '>' :: '=' :: rest        => some ⟨.ok (.order .greaterEqual), ['>', '='], rest⟩
  | '>' :: rest               => some ⟨.ok (.order .greater), ['>'], rest⟩
  | '&' :: '&' :: rest        => some ⟨.ok .and, ['&', '&'], rest⟩
  | '|' :: '|' :: rest        => some ⟨.ok .or, ['|', '|'], rest⟩
  | _                         => none

/-- A text in quotes, after its first quote. -/
def quoted (text : Text) : Piece :=
  match Text.splitFirst? '\'' text with
  | some (content, rest) => ⟨.ok .string, '\'' :: content ++ ['\''], rest⟩
  | none                 =>
    ⟨.error (if text = [] then .unexpected else .unterminatedString), '\'' :: text, []⟩

/-- A regex and its flags, after its first slash. -/
def regexLiteral (text : Text) : Piece :=
  match Regex.close? .start text with
  | some (body, after) =>
    ⟨.ok .regex, '/' :: body ++ '/' :: after.takeWhile Regex.isFlag,
      after.dropWhile Regex.isFlag⟩
  | none => ⟨.error .unexpected, '/' :: text, []⟩

/-- Blanks and the word `in` at the head of a text, and the text after them. -/
def inWord? (text : Text) : Option (Text × Text) :=
  match text.dropWhile isBlank with
  | 'i' :: more =>
    let (word, after) := takeWord 0 more
    if word = ['n'] then some (text.takeWhile isBlank ++ ['i', 'n'], after) else none
  | _ => none

/-- The kind of a single word: a key unless it is reserved. -/
def kindOfWord (name : Text) : Token.Kind :=
  if name = "true".toList then .literal true
  else if name = "false".toList then .literal false
  else if name = "in".toList then .membership false
  else .key

/-- A word that begins with `c`. The word `not` joins a following word `in`, and is a key without
it. -/
def word (c : Char) (text : Text) : Piece :=
  let (tail, rest) := takeWord 0 text
  let name := c :: tail
  match if name = "not".toList then inWord? rest else none with
  | some (more, rest) => ⟨.ok (.membership true), name ++ more, rest⟩
  | none              => ⟨.ok (kindOfWord name), name, rest⟩

/-- The piece at the head of the text `c :: text`. -/
def ofText (c : Char) (text : Text) : Piece :=
  match sign? (c :: text) with
  | some piece => piece
  | none       =>
    if c = '\'' then quoted text
    else if c = '/' then regexLiteral text
    else if isWordStart c then word c text
    else ⟨.error .unexpected, [c], text⟩

/-! ### A piece covers the head of its text -/

theorem span_append_rest_of_sign? {text : Text} {p : Piece} (h : sign? text = some p) :
    p.span ++ p.rest = text := by
  unfold sign? at h
  split at h <;> simp only [Option.some.injEq, reduceCtorEq] at h <;> subst h <;> rfl

theorem span_append_rest_quoted (text : Text) :
    (quoted text).span ++ (quoted text).rest = '\'' :: text := by
  unfold quoted
  split
  · rename_i content rest h
    simp [Text.eq_of_splitFirst? h]
  · simp

theorem span_append_rest_regexLiteral (text : Text) :
    (regexLiteral text).span ++ (regexLiteral text).rest = '/' :: text := by
  unfold regexLiteral
  split
  · rename_i body after h
    simp [Regex.eq_of_close? h, List.takeWhile_append_dropWhile]
  · simp

theorem eq_of_inWord? {text more rest : Text} (h : inWord? text = some (more, rest)) :
    more ++ rest = text := by
  unfold inWord? at h
  split at h
  · rename_i tail htail
    dsimp only at h
    split at h
    · rename_i hn
      obtain ⟨rfl, rfl⟩ : _ = more ∧ _ = rest := by simpa using h
      have hword : 'n' :: (takeWord 0 tail).2 = tail := by
        simpa [hn] using takeWord_append 0 tail
      calc text.takeWhile isBlank ++ ['i', 'n'] ++ (takeWord 0 tail).2
          = text.takeWhile isBlank ++ 'i' :: tail := by simp [hword]
        _ = text := by rw [← htail, List.takeWhile_append_dropWhile]
    · simp at h
  · simp at h

theorem span_append_rest_word (c : Char) (text : Text) :
    (word c text).span ++ (word c text).rest = c :: text := by
  have htext := takeWord_append 0 text
  unfold word
  dsimp only
  split
  · rename_i more rest h
    have hmore : more ++ rest = (takeWord 0 text).2 := by
      split at h
      · exact eq_of_inWord? h
      · simp at h
    simp [hmore, htext]
  · simp [htext]

/-- Nothing is lost: a piece and the text after it are the text it was read from. -/
theorem span_append_rest (c : Char) (text : Text) :
    (ofText c text).span ++ (ofText c text).rest = c :: text := by
  unfold ofText
  split
  · rename_i p h
    exact span_append_rest_of_sign? h
  · split
    · rename_i hc
      rw [hc, span_append_rest_quoted]
    · split
      · rename_i hc
        rw [hc, span_append_rest_regexLiteral]
      · split
        · exact span_append_rest_word c text
        · rfl

/-- A piece covers at least one character. -/
theorem span_ne_nil (c : Char) (text : Text) : (ofText c text).span ≠ [] := by
  unfold ofText
  split
  · rename_i p h
    unfold sign? at h
    split at h <;> simp only [Option.some.injEq, reduceCtorEq] at h <;> subst h <;> simp
  · split
    · unfold quoted
      split <;> simp
    · split
      · unfold regexLiteral
        split <;> simp
      · split
        · unfold word
          dsimp only
          split <;> simp
        · simp

end Piece

end WhenClause
