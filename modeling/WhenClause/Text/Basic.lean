/-!
# Texts

A text is the list of its characters: positions and lengths count characters, and texts are
ordered by code point. Splitting a text at a character loses only that character.
-/

namespace WhenClause

/-- A piece of source or output, as the list of its characters. -/
abbrev Text := List Char

namespace Text

/-- The decimal digits of a natural number. -/
def ofNat (n : Nat) : Text := Nat.toDigits 10 n

/-- What stands before and after the first `c`. -/
def splitFirst? (c : Char) : Text → Option (Text × Text)
  | []        => none
  | x :: rest =>
    if x = c then some ([], rest)
    else (splitFirst? c rest).map fun (before, after) => (x :: before, after)

/-- What stands before and after the last `c`. -/
def splitLast? (c : Char) : Text → Option (Text × Text)
  | []        => none
  | x :: rest =>
    match splitLast? c rest with
    | some (before, after) => some (x :: before, after)
    | none                 => if x = c then some ([], rest) else none

/-- The text in lower case, for comparison with names that are written in ASCII letters. -/
def lower (t : Text) : Text := t.map Char.toLower

theorem eq_of_splitFirst? {c : Char} {t before after : Text}
    (h : splitFirst? c t = some (before, after)) : t = before ++ c :: after := by
  induction t generalizing before with
  | nil => simp [splitFirst?] at h
  | cons x rest ih =>
    by_cases hx : x = c
    · simp [splitFirst?, hx] at h
      obtain ⟨rfl, rfl⟩ := h
      simp [hx]
    · simp only [splitFirst?, hx, ↓reduceIte, Option.map_eq_some_iff, Prod.mk.injEq] at h
      obtain ⟨⟨before', after'⟩, hs, rfl, rfl⟩ := h
      simp [ih hs]

theorem eq_of_splitLast? {c : Char} {t before after : Text}
    (h : splitLast? c t = some (before, after)) : t = before ++ c :: after := by
  induction t generalizing before with
  | nil => simp [splitLast?] at h
  | cons x rest ih =>
    rw [splitLast?] at h
    split at h
    · rename_i before' after' hs
      obtain ⟨rfl, rfl⟩ : x :: before' = before ∧ after' = after := by simpa using h
      simp [ih hs]
    · by_cases hx : x = c
      · obtain ⟨rfl, rfl⟩ : [] = before ∧ rest = after := by simpa [hx] using h
        simp [hx]
      · simp [hx] at h

end Text

end WhenClause
