import WhenClause.Proofs.Grammar.Misreading
import WhenClause.Proofs.Parse.Meaning
import WhenClause.Proofs.Regex.Flags

/-!
# Parsing what was parsed and written

A clause that was parsed is parsed again from its text, and is written as the same text again,
exactly when no test of membership in it asks about a key `not`
(`Clause.parse_text_parse_iff`). The text must not hold a quoted regex that leaves an escape or a
class open.
-/

namespace WhenClause

open Grammar

variable {K : Constants} {input : Text} {e : Clause}

/-! ### Tests of a parsed clause -/

lemma Test.WellFormed.of_opposite? {t u : Test} (ht : t.WellFormed) (h : t.opposite? = some u) :
    u.WellFormed := by
  refine ⟨Test.key_eq_of_opposite? h ▸ ht.key, ?_⟩
  have hright := ht.right
  cases t <;> cases h <;> exact hright

/-- A key that was scanned is scanned from its lexeme alone. -/
lemma Token.Spaced.WellFormed.isKeyName {t : Token.Spaced} (h : t.WellFormed)
    (hkind : t.kind = .key) : t.lexeme.IsKeyName := by
  have hfits := h.fits
  rw [hkind] at hfits
  exact Text.isKeyName_of_isWord hfits.1 hfits.2

/-- A test that stands in scanned tokens can stand in a clause. -/
lemma Grammar.testsHave_wellFormed (hquoted : QuotedPatternsClose (spacedTokens input)) :
    TestsHave Test.WellFormed (spacedTokens input) := by
  intro key tail htail
  have hwell : ∀ t ∈ key.1 :: tail.tokens, t.WellFormed := fun t ht =>
    wellFormed_of_mem_spacedTokens (htail.subset ht)
  have hkey : key.1.lexeme.IsKeyName := (hwell key.1 (by simp)).isKeyName key.2
  have hreadable := testsHave_isReadable hquoted key tail htail
  cases tail with
  | nothing => exact ⟨hkey, trivial⟩
  | equality op value => exact ⟨hkey, hreadable.right⟩
  | order op value => exact ⟨hkey, hreadable.right⟩
  | membership op target =>
    exact ⟨hkey, (hwell target.1 (by simp [Tail.tokens])).isKeyName target.2⟩
  | matching op rx =>
    obtain ⟨hclosed, hisFlag⟩ := hreadable.right
    have haccepts := Regex.accepts_sortFlags rx.pattern rx.flags
    exact ⟨hkey, hclosed, Test.pairwise_sortFlags _, hisFlag, haccepts.trans rx.accepted⟩

namespace Clause

/-- A clause that is passed in front of every text is parsed from its own. -/
lemma IsPassed.parse_eq_ok (h : e.IsPassed) (hnormal : e.normalize K = e) :
    Clause.parse K e.text = .ok e := by
  obtain ⟨u, offset, hpass, hvalue⟩ := h [] 0 .nil
  obtain ⟨htokens, herrors⟩ := hpass.to_end
  refine parse_eq_ok_iff.mpr ⟨herrors, .last (.last u), htokens.symm, ?_⟩
  have hwritten : (Disjunction.last (.last u)).value .written = e := hvalue
  rw [hwritten, hnormal]

/-- A clause that was parsed is parsed from its text and written as that text again if and only if
no test of membership in it asks about a key `not`. -/
theorem parse_text_parse_iff (h : Clause.parse K input = .ok e)
    (hquoted : QuotedPatternsClose (spacedTokens input)) :
    (∃ e', Clause.parse K e.text = .ok e' ∧ e'.text = e.text) ↔ e.All (¬·.JoinsNot) := by
  obtain ⟨-, d, hd, rfl⟩ := parse_eq_ok_iff.mp h
  have htests := d.all_value (hd ▸ testsHave_wellFormed hquoted)
  have hall := all_normalize_of_all (K := K) (fun _ _ h ht => ht.of_opposite? h) htests
  have hwell : ((d.value .written).normalize K).All Test.WellFormed := hall.imp fun _ ht => ht.1
  have hopen : ((d.value .written).normalize K).All (·.IsOpen K) := hall.imp fun _ ht => ht.2
  rcases canonical_normalize K (d.value .written) with ⟨b, hconst⟩ | hreduced
  · rw [hconst]
    constructor
    · intro _
      exact all_const
    · intro _
      exact ⟨const b, (isPassed_const b).parse_eq_ok rfl, rfl⟩
  · constructor
    · rintro ⟨e', hparse, -⟩
      by_contra hnot
      have hmisread := hreduced.isMisread hwell hnot [] 0 .nil
      exact not_parsed_of_misreads hmisread e' hparse
    · intro hnot
      have hnormal := hreduced.normalize_eq_self (hwell.imp fun _ ht => ht.key.isWord) hopen
      exact ⟨_, (hreduced.isPassed hwell hnot).parse_eq_ok hnormal, rfl⟩

/-- A key `not` that is compared, a regex in quotes and one that repeats a flag. -/
theorem parse_text_parse_of_compared_not :
    let e := Clause.group .or [.test (.equals true "not".toList ['x'] false),
      .test (.matching ['a'] ['x'] ['i']), .test (.matching ['a'] ['y'] ['i', 's'])]
    Clause.parse .host "not!='x'||a=~'/x/i'||a=~/y/sis".toList = .ok e ∧
    QuotedPatternsClose (spacedTokens "not!='x'||a=~'/x/i'||a=~/y/sis".toList) ∧
    ∃ e', Clause.parse .host e.text = .ok e' ∧ e'.text = e.text := by
  intro e
  have h : Clause.parse .host "not!='x'||a=~'/x/i'||a=~/y/sis".toList = .ok e := by
    decide +kernel
  have hquoted : QuotedPatternsClose (spacedTokens "not!='x'||a=~'/x/i'||a=~/y/sis".toList) :=
    quotedPatternsClose_of_strings (by decide +kernel)
  have hnot : e.All (¬·.JoinsNot) := by simp [e, Test.JoinsNot]
  exact ⟨h, hquoted, (parse_text_parse_iff h hquoted).mpr hnot⟩

-- the comment of this quoted regex hides a bracket from the regex parser, but not from the scanner
-- when it stands between slashes
example : Clause.parse .host "k=~'/(?x)#[/'".toList =
      .ok (test (.matching ['k'] "(?x)#[".toList [])) ∧
    scanErrors (test (.matching ['k'] "(?x)#[".toList [])).text ≠ [] := by
  decide +kernel

/-- A negated membership of a key `not` is parsed, and its text is not. -/
theorem not_parse_text_of_negated_not :
    ∃ e, Clause.parse .host "!not not in a".toList = .ok e ∧
      ¬∃ e', Clause.parse .host e.text = .ok e' ∧ e'.text = e.text := by
  refine ⟨.test (.member false "not".toList ['a']), by decide +kernel, ?_⟩
  rintro ⟨e', hparse, -⟩
  have herror : Clause.parse .host (test (.member false "not".toList ['a'])).text =
      .error ⟨[], [⟨⟨.membership true, "not in".toList, 0⟩, .operand⟩]⟩ := by decide +kernel
  rw [herror] at hparse
  cases hparse

end Clause

end WhenClause
