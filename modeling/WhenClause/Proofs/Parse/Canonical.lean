import WhenClause.Proofs.Clause.Siblings
import WhenClause.Proofs.Grammar.Recognition
import WhenClause.Proofs.Grammar.Tests
import WhenClause.Proofs.Scan.Tokens

/-!
# What is parsed is canonical

Whatever the text and the constant keys, a clause that is parsed is canonical, operands of one
group never have one text, flags ascend, and no constant key is tested that the table answers.
-/

namespace WhenClause

open Grammar

/-- A test that stands in scanned tokens asks about a word, and its flags ascend. -/
lemma Grammar.testsHave_spacedTokens (input : Text) :
    TestsHave (fun t => t.key.IsWord ∧ t.FlagsAscend) (spacedTokens input) := by
  intro key tail htail
  have hkey : key.1.WellFormed :=
    wellFormed_of_mem_spacedTokens (htail.subset (List.mem_cons_self ..))
  have hword : key.1.lexeme.IsWord := by
    have hfits := hkey.fits
    rw [key.2] at hfits
    exact hfits.1
  cases tail with
  | matching op rx => exact ⟨hword, Test.pairwise_sortFlags _⟩
  | nothing | equality op value | order op value | membership op target => exact ⟨hword, trivial⟩

namespace Clause

/-- What is parsed is canonical: a constant, or a tree without constants in which every group has
two operands or more, none of them a group of the same connective, in strictly ascending order,
and every negation stands over a test of presence, of an order, or of a regex. Moreover the
operands of each group have pairwise different texts, the flags of each regex ascend, and no test
of presence or equality has a constant key. -/
theorem parse_canonical {K : Constants} {input : Text} {e : Clause}
    (h : Clause.parse K input = .ok e) :
    e.Canonical ∧
    (∀ op cs, IsPart (.group op cs) e → (cs.map text).Nodup) ∧
    e.All (fun t => t.FlagsAscend ∧ t.IsOpen K) := by
  obtain ⟨-, d, hd, rfl⟩ := parse_eq_ok_iff.mp h
  have hcanonical := canonical_normalize K (d.value .written)
  have hall := all_normalize_of_all (K := K)
    (fun t u htu ht => ⟨Test.key_eq_of_opposite? htu ▸ ht.1, Test.flagsAscend_of_opposite? htu⟩)
    (d.all_value (hd ▸ testsHave_spacedTokens input))
  refine ⟨hcanonical, fun op cs hpart => ?_, hall.imp fun t ht => ⟨ht.1.2, ht.2⟩⟩
  have hreduced : (Clause.group op cs).Reduced := by
    rcases hcanonical with ⟨b, hconst⟩ | hreduced
    · rw [hconst] at hpart
      cases hpart
    · exact hpart.reduced hreduced
  have hdiffer := hreduced.pairwise_textsDiffer ((hpart.all hall).imp fun t ht => ht.1.1)
  exact List.pairwise_map.mpr hdiffer

/-- A conjunction inside a disjunction, with a repeated operand, a constant and two flags. -/
theorem parse_canonical_of_matching :
    let e := Clause.group .or [.group .and [.test (.present ['a']), .test (.present ['b'])],
      .test (.matching ['a'] ['x'] ['i', 's'])]
    Clause.parse .host "a=~/x/si||b&&a&&b||isMac".toList = .ok e ∧ e.Canonical ∧
      (∀ op cs, IsPart (.group op cs) e → (cs.map text).Nodup) ∧
      e.All (fun t => t.FlagsAscend ∧ t.IsOpen .host) := by
  intro e
  have h : Clause.parse .host "a=~/x/si||b&&a&&b||isMac".toList = .ok e := by decide +kernel
  exact ⟨h, parse_canonical h⟩

end Clause

end WhenClause
