import WhenClause.Proofs.Clause.Canonical
import WhenClause.Proofs.Grammar.Completeness
import WhenClause.Proofs.Grammar.Soundness
import WhenClause.Proofs.Grammar.Unambiguity
import WhenClause.Session

/-!
# Parsing recognizes the grammar

A text without scan errors is parsed exactly when its tokens have a derivation. There is one such
derivation, and the result is its value when each chain is joined, each negation negated and each
test settled (`Clause.parse_eq_ok_iff_derivation`).
-/

namespace WhenClause

open Grammar

variable {K : Constants} {input : Text} {e c : Clause}

/-- The tokens of a text with its end behind them. -/
def endedTokens (input : Text) : List Token.Spaced :=
  spacedTokens input ++ [⟨.endOf input.length, []⟩]

lemma map_toToken_endedTokens (input : Text) :
    (endedTokens input).map (·.toToken) = (tokenize input).1 := by
  simp [endedTokens, tokenize]

lemma Grammar.Sentence.tokens_eq_endedTokens {s : Sentence} :
    s.tokens = endedTokens input ↔
      s.clause.tokens = spacedTokens input ∧ s.ending.1 = ⟨.endOf input.length, []⟩ := by
  rw [Sentence.tokens, endedTokens]
  constructor
  · intro h
    obtain ⟨hclause, hending⟩ := List.append_inj' h rfl
    exact ⟨hclause, by simpa using hending⟩
  · rintro ⟨hclause, hending⟩
    rw [hclause, hending]

/-- The sentence of a derivation whose tokens are those of a text. -/
lemma Grammar.exists_sentence {d : Disjunction} (h : d.tokens = spacedTokens input) :
    ∃ s : Sentence, s.tokens = endedTokens input ∧ s.clause = d :=
  ⟨⟨d, ⟨.endOf input.length, []⟩, rfl⟩, Sentence.tokens_eq_endedTokens.mpr ⟨h, rfl⟩, rfl⟩

namespace Clause

/-- Normalizing translates what is written into what is built in canonical form. -/
lemma isTranslation_normalize (K : Constants) :
    Interpretation.written.IsTranslation (.canonical K) (normalize K) where
  const _ := rfl
  test _ := rfl
  not _ := rfl
  group op cs := by
    rw [Interpretation.written, normalize, normalizeAll_eq_map]
    rfl

/-- Parsing is scanning, reading and normalizing what is read. -/
lemma parse_eq_ok_iff_ofTokens : Clause.parse K input = .ok e ↔
    scanErrors input = [] ∧
      ∃ c, Clause.ofTokens (spacedTokens input) (.endOf input.length) = .ok c ∧
        c.normalize K = e := by
  rw [Clause.parse]
  cases scanErrors input with
  | cons error errors => simp
  | nil => cases Clause.ofTokens (spacedTokens input) (.endOf input.length) <;> simp

/-- Parsing is scanning, reading a derivation and normalizing what it writes. -/
lemma parse_eq_ok_iff : Clause.parse K input = .ok e ↔
    scanErrors input = [] ∧ ∃ d : Disjunction, d.tokens = spacedTokens input ∧
      (d.value .written).normalize K = e := by
  rw [parse_eq_ok_iff_ofTokens]
  refine and_congr_right fun _ => ⟨?_, ?_⟩
  · rintro ⟨c, hread, hc⟩
    obtain ⟨d, hd, rfl⟩ := exists_disjunction_of_ofTokens hread
    exact ⟨d, hd, hc⟩
  · rintro ⟨d, hd, hvalue⟩
    exact ⟨d.value .written, by rw [← hd, d.ofTokens_tokens], hvalue⟩

/-- A text without scan errors is parsed exactly when its tokens have a derivation; the derivation
is unique and the result is its value in canonical form. -/
theorem parse_eq_ok_iff_derivation (K : Constants) (hscan : scanErrors input = []) :
    (∀ e, Clause.parse K input = .ok e ↔
      ∃ s : Sentence, s.tokens = endedTokens input ∧ s.value (.canonical K) = e) ∧
    ∀ s s' : Sentence, s.tokens = endedTokens input → s'.tokens = endedTokens input → s = s' := by
  refine ⟨fun e => ?_, fun s s' hs hs' => Sentence.eq_of_tokens_eq (hs.trans hs'.symm)⟩
  rw [parse_eq_ok_iff]
  constructor
  · rintro ⟨-, d, hd, rfl⟩
    obtain ⟨s, hs, rfl⟩ := exists_sentence hd
    exact ⟨s, hs, (s.clause.value_translate (isTranslation_normalize K)).symm⟩
  · rintro ⟨s, hs, rfl⟩
    exact ⟨hscan, s.clause, (Sentence.tokens_eq_endedTokens.mp hs).1,
      s.clause.value_translate (isTranslation_normalize K)⟩

/-- A disjunction of a key and a conjunction with a negated key and a constant one. -/
theorem parse_derivation_of_chain :
    scanErrors "b||!a&&isMac".toList = [] ∧
    ∃ s : Sentence, s.tokens = endedTokens "b||!a&&isMac".toList ∧
      s.value (.canonical .host) = .test (.present ['b']) := by
  have hscan : scanErrors "b||!a&&isMac".toList = [] := by decide +kernel
  exact ⟨hscan, ((parse_eq_ok_iff_derivation .host hscan).1 _).mp (by decide +kernel)⟩

end Clause

end WhenClause
