import WhenClause.Proofs.Clause.Meaning
import WhenClause.Proofs.Grammar.Recognition
import WhenClause.Proofs.Grammar.Tests

/-!
# What is parsed means what is written

The canonical clause of a text has the value that the grammar gives to the tokens of the text, in
every valuation that agrees with the constant keys.
-/

namespace WhenClause

open Grammar

/-- The patterns that quoted regexes hold leave no escape and no class open. -/
def QuotedPatternsClose (tokens : List Token.Spaced) : Prop :=
  ∀ op t, [op, t] <:+: tokens → op.kind = .matching → t.kind = .string →
    ∀ pattern flags, Regex.splitQuoted? t.lexeme = some (pattern, flags) →
      Regex.Mode.start.after pattern = .start

/-- It is enough to look at each string by itself. -/
lemma quotedPatternsClose_of_strings {tokens : List Token.Spaced}
    (h : ∀ t ∈ tokens, t.kind = .string →
      ∀ parts ∈ Regex.splitQuoted? t.lexeme, Regex.Mode.start.after parts.1 = .start) :
    QuotedPatternsClose tokens := by
  intro op t hpair _ hkind pattern flags hsplit
  exact h t (hpair.subset (by simp)) hkind (pattern, flags) hsplit

namespace Token.Spaced

variable {t : Token.Spaced} {pattern flags : Text}

/-- A regex between slashes holds a closed pattern and flags; so does a string whose pattern leaves
nothing open. -/
lemma WellFormed.regex (h : t.WellFormed) (hholds : t.Holds pattern flags)
    (hquoted : t.kind = .string → Regex.Mode.start.after pattern = .start) :
    Regex.IsClosed pattern ∧ ∀ c ∈ flags, Regex.isFlag c = true := by
  rcases hholds with ⟨hkind, hsplit⟩ | ⟨hkind, -, hsplit⟩
  · have hfits := h.fits
    rw [hkind] at hfits
    obtain ⟨pattern', flags', hlexeme, hclosed, hflags⟩ := hfits
    rw [hlexeme, Regex.splitLiteral_append pattern' hflags] at hsplit
    obtain ⟨rfl, rfl⟩ := Prod.mk.inj hsplit
    exact ⟨hclosed, hflags⟩
  · exact Regex.isClosed_of_splitQuoted? hsplit (hquoted hkind)

end Token.Spaced

/-- A test that stands in scanned tokens can be told from its text. -/
lemma Grammar.testsHave_isReadable {input : Text}
    (hquoted : QuotedPatternsClose (spacedTokens input)) :
    TestsHave Test.IsReadable (spacedTokens input) := by
  intro key tail htail
  have hwell : ∀ t ∈ key.1 :: tail.tokens, t.WellFormed := fun t ht =>
    wellFormed_of_mem_spacedTokens (htail.subset ht)
  have hkey : key.1.lexeme.IsWord :=
    (hwell key.1 (by simp)).isWord (by rw [key.2]; rfl)
  cases tail with
  | nothing => exact ⟨hkey, trivial⟩
  | equality op value =>
    have hvalue := hwell value.1 (by simp [Tail.tokens])
    refine ⟨hkey, ?_, rfl⟩
    rw [equalityText]
    split_ifs with hstring
    · exact hvalue.quote_not_mem value.2
    · rw [List.mem_append, not_or]
      exact ⟨hvalue.quote_not_mem value.2, hvalue.quote_not_mem_trail⟩
  | order op value =>
    have hvalue := hwell value.1 (by simp [Tail.tokens])
    exact ⟨hkey, _, hvalue.quote_not_mem value.2, rfl⟩
  | membership op target =>
    have htarget := hwell target.1 (by simp [Tail.tokens])
    exact ⟨hkey, htarget.isWord (by rw [target.2]; rfl)⟩
  | matching op rx =>
    have hrx := hwell rx.token (by simp [Tail.tokens])
    have hpair : [op.1, rx.token] <:+: spacedTokens input :=
      (List.suffix_cons _ _).isInfix.trans htail
    obtain ⟨hclosed, hflags⟩ := hrx.regex rx.holds fun hkind => by
      rcases rx.holds with ⟨hregex, -⟩ | ⟨-, -, hsplit⟩
      · simp [hregex] at hkind
      · exact hquoted op.1 rx.token hpair op.2 hkind _ _ hsplit
    exact ⟨hkey, hclosed, fun c hc => hflags c (Test.mem_sortFlags.mp hc)⟩

namespace Clause

/-- Parsing keeps the meaning: the clause that is parsed has the value of the tokens as the grammar
reads them, in every valuation that agrees with the constant keys. -/
theorem holds_parse {K : Constants} {input : Text} {e : Clause}
    (h : Clause.parse K input = .ok e) (hquoted : QuotedPatternsClose (spacedTokens input)) :
    ∃ s : Sentence, s.tokens = endedTokens input ∧
      ∀ v : Valuation, v.Agrees K → e.holds v = s.value (.truth v) := by
  obtain ⟨-, d, hd, rfl⟩ := parse_eq_ok_iff.mp h
  obtain ⟨s, hs, rfl⟩ := exists_sentence hd
  refine ⟨s, hs, fun v hv => ?_⟩
  have hreadable : (s.clause.value .written).All Test.IsReadable :=
    s.clause.all_value (hd ▸ testsHave_isReadable hquoted)
  rw [holds_normalize hreadable hv]
  exact s.clause.value_translate (isTranslation_holds v)

/-- One regex in two spellings, and a constant key: what is left is true where the regex matches,
and so is what was written. -/
theorem holds_parse_of_two_spellings :
    QuotedPatternsClose (spacedTokens "isMac||a=~'/x/i'||a=~/x/i".toList) ∧
    ∃ (s : Sentence) (v : Valuation), s.tokens = endedTokens "isMac||a=~'/x/i'||a=~/x/i".toList ∧
      v.Agrees .host ∧ (test (.matching ['a'] ['x'] ['i'])).holds v = s.value (.truth v) := by
  have h : Clause.parse .host "isMac||a=~'/x/i'||a=~/x/i".toList =
    .ok (test (.matching ['a'] ['x'] ['i'])) := by decide +kernel
  have hquoted : QuotedPatternsClose (spacedTokens "isMac||a=~'/x/i'||a=~/x/i".toList) := by
    intro op t hpair _ hkind pattern flags hsplit
    have hstrings : ∀ t ∈ spacedTokens "isMac||a=~'/x/i'||a=~/x/i".toList, t.kind = .string →
        Regex.splitQuoted? t.lexeme = some (['x'], ['i']) := by decide +kernel
    rw [hstrings t (hpair.subset (by simp)) hkind] at hsplit
    obtain ⟨rfl, rfl⟩ := Prod.mk.inj (Option.some.inj hsplit)
    rfl
  obtain ⟨s, hs, hmeaning⟩ := holds_parse h hquoted
  obtain ⟨v, hv⟩ := Valuation.exists_agrees .host
  exact ⟨hquoted, s, v, hs, hv, hmeaning v hv⟩

end Clause

end WhenClause
