import WhenClause.Text.Basic

/-!
# Regexes between slashes

A regex is written `/pattern/flags`. Reading the pattern from left to right, a backslash hides
the next character and brackets open and close a class; a slash outside of both ends the
pattern. The same rule tells which slashes of a free text must be escaped so that the text can
stand between slashes. Main statements: the text that was read is the body, the closing slash and
what follows (`eq_of_close?`), and escaping slashes changes neither escapes nor classes
(`after_escapeSlashes`).
-/

namespace WhenClause.Regex

/-- Where a reader stands inside a pattern. -/
structure Mode where
  /-- the next character is hidden by a backslash -/
  escaped : Bool
  /-- a bracket is open -/
  inClass : Bool
  deriving DecidableEq, Repr

namespace Mode

/-- The mode at the start of a pattern: outside of escapes and classes. -/
def start : Mode := ⟨false, false⟩

/-- The mode after one more character. -/
def next (m : Mode) (c : Char) : Mode :=
  if m.escaped then ⟨false, m.inClass⟩
  else if c = '\\' then ⟨true, m.inClass⟩
  else if c = '[' then ⟨false, true⟩
  else if c = ']' then ⟨false, false⟩
  else m

/-- Whether `c` ends a pattern in this mode. -/
def endsAt (m : Mode) (c : Char) : Bool := c = '/' && !m.escaped && !m.inClass

/-- The mode after a whole text. -/
def after (m : Mode) (t : Text) : Mode := t.foldl next m

end Mode

/-- The characters before the slash that ends the pattern, and the text after that slash. -/
def close? (m : Mode) : Text → Option (Text × Text)
  | []        => none
  | c :: rest =>
    if m.endsAt c then some ([], rest)
    else (close? (m.next c) rest).map fun (body, after) => (c :: body, after)

/-- The letters that may follow the closing slash. -/
def isFlag (c : Char) : Bool := c ∈ ['i', 'g', 's', 'm', 'y', 'u']

/-- The text with a backslash before each slash that would end a pattern. -/
def escapeSlashes (m : Mode) : Text → Text
  | []        => []
  | c :: rest =>
    if m.endsAt c then '\\' :: c :: escapeSlashes (m.next c) rest
    else c :: escapeSlashes (m.next c) rest

/-- The pattern and the flags of a literal: its last slash stands between them. -/
def splitLiteral (lexeme : Text) : Text × Text :=
  let body := match lexeme with
    | '/' :: rest => rest
    | _           => lexeme
  match Text.splitLast? '/' body with
  | some (pattern, flags) => (pattern, flags)
  | none                  => (body, [])

/-- The pattern and the flags that a quoted text holds between its first and its last slash. Of
what follows the last slash only an `i` right behind it counts. -/
def splitQuoted? (content : Text) : Option (Text × Text) := do
  let (_, afterFirst) ← Text.splitFirst? '/' content
  let (pattern, afterLast) ← Text.splitLast? '/' afterFirst
  return (escapeSlashes .start pattern, if afterLast.head? = some 'i' then ['i'] else [])

theorem eq_of_close? {m : Mode} {t body after : Text} (h : close? m t = some (body, after)) :
    t = body ++ '/' :: after := by
  induction t generalizing m body with
  | nil => simp [close?] at h
  | cons c rest ih =>
    by_cases hc : m.endsAt c = true
    · obtain ⟨rfl, rfl⟩ : [] = body ∧ rest = after := by simpa [close?, hc] using h
      simp [Mode.endsAt] at hc
      simp [hc]
    · simp only [close?, hc, Bool.false_eq_true, ↓reduceIte, Option.map_eq_some_iff,
        Prod.mk.injEq] at h
      obtain ⟨⟨body', after'⟩, hs, rfl, rfl⟩ := h
      simp [ih hs]

theorem Mode.eq_start_of_endsAt {m : Mode} {c : Char} (h : m.endsAt c = true) :
    m = .start ∧ c = '/' := by
  obtain ⟨escaped, inClass⟩ := m
  simp [endsAt] at h
  simp [start, h]

/-- A text leaves a reader where it leaves him with its slashes escaped. -/
theorem after_escapeSlashes (m : Mode) (t : Text) : m.after (escapeSlashes m t) = m.after t := by
  induction t generalizing m with
  | nil => rfl
  | cons c rest ih =>
    unfold escapeSlashes
    split
    · rename_i h
      obtain ⟨rfl, rfl⟩ := Mode.eq_start_of_endsAt h
      exact ih .start
    · exact ih (m.next c)

end WhenClause.Regex
