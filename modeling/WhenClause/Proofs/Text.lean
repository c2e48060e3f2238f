import Mathlib.Tactic.Common
import WhenClause.Text.Basic

/-!
# Splitting at a character

Where a text is split at a character is told by which of its parts do not hold that character.
-/

namespace WhenClause

namespace Text

lemma splitLast?_eq_none {c : Char} {t : Text} (h : c ∉ t) : splitLast? c t = none := by
  induction t with
  | nil => rfl
  | cons d t ih =>
    rw [List.mem_cons, not_or] at h
    simp [splitLast?, ih h.2, Ne.symm h.1]

lemma splitLast?_append {c : Char} {after : Text} (before : Text) (h : c ∉ after) :
    splitLast? c (before ++ c :: after) = some (before, after) := by
  induction before with
  | nil => simp [splitLast?, splitLast?_eq_none h]
  | cons d before ih => simp [splitLast?, ih]

lemma splitFirst?_append {c : Char} {before : Text} (h : c ∉ before) (after : Text) :
    splitFirst? c (before ++ c :: after) = some (before, after) := by
  induction before with
  | nil => simp [splitFirst?]
  | cons d before ih =>
    rw [List.mem_cons, not_or] at h
    simp [splitFirst?, ih h.2, Ne.symm h.1]

lemma not_mem_of_splitFirst? {c : Char} {t before after : Text}
    (h : splitFirst? c t = some (before, after)) : c ∉ before := by
  induction t generalizing before with
  | nil => cases h
  | cons d t ih =>
    rw [splitFirst?] at h
    split_ifs at h with hd
    · simp_all
    · obtain ⟨⟨before', after'⟩, hs, heq⟩ := Option.map_eq_some_iff.mp h
      simp only [Prod.mk.injEq] at heq
      obtain ⟨rfl, rfl⟩ := heq
      rw [List.mem_cons, not_or]
      exact ⟨Ne.symm hd, ih hs⟩

/-- What stands around the first `c` of a text can be told from the text. -/
lemma append_cons_inj {c : Char} {before before' after after' : Text} (h : c ∉ before)
    (h' : c ∉ before') (heq : before ++ c :: after = before' ++ c :: after') :
    before = before' ∧ after = after' := by
  have hsplit := splitFirst?_append h after
  rw [heq, splitFirst?_append h'] at hsplit
  obtain ⟨hbefore, hafter⟩ := Prod.mk.inj (Option.some.inj hsplit)
  exact ⟨hbefore.symm, hafter.symm⟩

/-- What holds of each character of a text and those before it holds of the first one, and of each
later one with the first in front. -/
lemma forall_split_cons_iff {c : Char} {t : Text} {P : Text → Char → Prop} :
    (∀ before d after, c :: t = before ++ d :: after → P before d) ↔
      P [] c ∧ ∀ before d after, t = before ++ d :: after → P (c :: before) d := by
  constructor
  · intro h
    constructor
    · exact h [] c t rfl
    · intro before d after heq
      exact h (c :: before) d after (by rw [heq]; rfl)
  · rintro ⟨hhead, htail⟩ before d after heq
    cases before with
    | nil =>
      obtain ⟨rfl, -⟩ := List.cons.inj heq
      exact hhead
    | cons e before =>
      obtain ⟨rfl, htext⟩ := List.cons.inj heq
      exact htail before d after htext

end Text

end WhenClause
