import WhenClause.Proofs.Text
import WhenClause.Regex.Literal

/-!
# Patterns that can stand between slashes

A pattern is closed when no slash of it ends it early and no escape or class stays open at its
end. These are exactly the patterns that a reader finds between two slashes, and escaping the
slashes of a text gives one unless the text itself leaves an escape or a class open.
-/

namespace WhenClause

namespace Regex

/-- Whether no slash of a pattern ends it and it leaves no escape or class open. -/
def Mode.closes (m : Mode) : Text → Bool
  | []        => m = .start
  | c :: rest => !m.endsAt c && (m.next c).closes rest

/-- A pattern that can stand between slashes. -/
def IsClosed (pattern : Text) : Prop := Mode.start.closes pattern = true

instance (pattern : Text) : Decidable (IsClosed pattern) :=
  inferInstanceAs (Decidable (_ = true))

variable {m : Mode} {pattern body after flags : Text}

lemma close?_append (h : m.closes pattern = true) (after : Text) :
    close? m (pattern ++ '/' :: after) = some (pattern, after) := by
  induction pattern generalizing m with
  | nil =>
    obtain rfl : m = .start := by simpa [Mode.closes] using h
    rfl
  | cons c pattern ih =>
    simp only [Mode.closes, Bool.and_eq_true, Bool.not_eq_true'] at h
    simp [close?, h.1, ih h.2]

lemma closes_of_close? (h : close? m body = some (pattern, after)) : m.closes pattern = true := by
  induction body generalizing m pattern with
  | nil => cases h
  | cons c body ih =>
    rw [close?] at h
    split_ifs at h with hc
    · obtain ⟨rfl, -⟩ : [] = pattern ∧ body = after := by simpa using h
      simp [Mode.closes, (Mode.eq_start_of_endsAt hc).1]
    · obtain ⟨⟨pattern', after'⟩, hs, heq⟩ := Option.map_eq_some_iff.mp h
      simp only [Prod.mk.injEq] at heq
      obtain ⟨rfl, rfl⟩ := heq
      simp [Mode.closes, hc, ih hs]

/-- A pattern is closed if and only if no slash of it stands outside of escapes and classes and none
of them is left open at its end. -/
lemma Mode.closes_iff (m : Mode) (pattern : Text) :
    m.closes pattern = true ↔
      (∀ before c after, pattern = before ++ c :: after → (m.after before).endsAt c = false) ∧
        m.after pattern = .start := by
  induction pattern generalizing m with
  | nil => simp [closes, after]
  | cons c pattern ih =>
    rw [closes, Bool.and_eq_true, Bool.not_eq_true', ih, ← and_assoc, Text.forall_split_cons_iff]
    rfl

lemma after_of_closes (h : m.closes pattern = true) : m.after pattern = .start :=
  ((m.closes_iff pattern).mp h).2

/-- No slash is left to escape in a text with its slashes escaped. -/
lemma escapeSlashes_escapeSlashes (m : Mode) (t : Text) :
    escapeSlashes m (escapeSlashes m t) = escapeSlashes m t := by
  induction t generalizing m with
  | nil => rfl
  | cons c t ih =>
    rw [escapeSlashes]
    split_ifs with hc
    · obtain ⟨rfl, rfl⟩ := Mode.eq_start_of_endsAt hc
      -- the backslash hides the slash behind it, which leaves the reader where it was
      exact congrArg (fun rest => '\\' :: '/' :: rest) (ih .start)
    · rw [escapeSlashes, if_neg hc, ih]

/-- A text with its slashes escaped is closed unless it leaves an escape or a class open. -/
lemma closes_escapeSlashes (m : Mode) (t : Text) :
    m.closes (escapeSlashes m t) = decide (m.after t = .start) := by
  induction t generalizing m with
  | nil => rfl
  | cons c t ih =>
    rw [escapeSlashes]
    split_ifs with hc
    · obtain ⟨rfl, rfl⟩ := Mode.eq_start_of_endsAt hc
      exact ih .start
    · simp only [Mode.closes, hc, ih]
      rfl

lemma not_isFlag_slash (h : ∀ c ∈ flags, isFlag c = true) : '/' ∉ flags := by
  intro hmem
  exact absurd (h _ hmem) (by decide)

lemma splitLiteral_append (pattern : Text) (h : ∀ c ∈ flags, isFlag c = true) :
    splitLiteral ('/' :: pattern ++ '/' :: flags) = (pattern, flags) := by
  simp [splitLiteral, Text.splitLast?_append pattern (not_isFlag_slash h)]

/-- A quoted text holds a regex between two slashes of it, with an `i` behind the second one or
not. -/
lemma exists_parts_of_splitQuoted? {content : Text}
    (h : splitQuoted? content = some (pattern, flags)) :
    ∃ before inner behind, content = before ++ '/' :: (inner ++ '/' :: behind) ∧
      pattern = escapeSlashes .start inner ∧ (flags = [] ∨ flags = ['i']) := by
  rw [splitQuoted?] at h
  obtain ⟨⟨before, rest⟩, hfirst, h⟩ := Option.bind_eq_some_iff.mp h
  obtain ⟨⟨inner, behind⟩, hlast, h⟩ := Option.bind_eq_some_iff.mp h
  obtain ⟨rfl, rfl⟩ := Prod.mk.inj (Option.some.inj h)
  refine ⟨before, inner, behind, ?_, rfl, ?_⟩
  · rw [Text.eq_of_splitFirst? hfirst, Text.eq_of_splitLast? hlast]
  · split_ifs
    · exact .inr rfl
    · exact .inl rfl

lemma two_le_count_of_splitQuoted? {content : Text}
    (h : splitQuoted? content = some (pattern, flags)) : 2 ≤ content.count '/' := by
  obtain ⟨before, inner, behind, rfl, -, -⟩ := exists_parts_of_splitQuoted? h
  simp only [List.count_append, List.count_cons_self]
  omega

/-- The pattern of a quoted text is closed when it leaves no escape and no class open. -/
lemma isClosed_of_splitQuoted? {content : Text}
    (h : splitQuoted? content = some (pattern, flags))
    (hafter : Mode.start.after pattern = .start) :
    IsClosed pattern ∧ ∀ c ∈ flags, isFlag c = true := by
  obtain ⟨before, inner, behind, -, rfl, hflags⟩ := exists_parts_of_splitQuoted? h
  rw [after_escapeSlashes] at hafter
  refine ⟨by rw [IsClosed, closes_escapeSlashes, decide_eq_true hafter], ?_⟩
  rcases hflags with rfl | rfl
  · simp
  · simp [isFlag]

end Regex

end WhenClause
