import WhenClause.Proofs.Grammar.Printing
import WhenClause.Proofs.Grammar.Recognition

/-!
# Parsing a written clause

A canonical clause is parsed back from its text, under every table of constant keys that leaves
its tests open.
-/

namespace WhenClause.Clause

open Grammar

variable {K : Constants} {c : Clause}

/-- Writing a canonical clause and parsing it gives the clause back. Its tests must be well-formed
and not be settled by the table, and no test of membership in it asks about a key `not`, which
would be scanned as the beginning of `not in`. -/
theorem parse_text (hc : c.Canonical) (hwell : c.All Test.WellFormed)
    (hnot : c.All (¬·.JoinsNot)) (hopen : c.All (·.IsOpen K)) :
    Clause.parse K c.text = .ok c := by
  have hpassed : c.IsPassed ∧ c.normalize K = c := by
    rcases hc with ⟨b, rfl⟩ | hc
    · exact ⟨isPassed_const b, rfl⟩
    · exact ⟨hc.isPassed hwell hnot,
        hc.normalize_eq_self (hwell.imp fun t ht => ht.key.isWord) hopen⟩
  obtain ⟨u, offset, hpass, hvalue⟩ := hpassed.1 [] 0 .nil
  obtain ⟨htokens, herrors⟩ := hpass.to_end
  refine parse_eq_ok_iff.mpr ⟨herrors, .last (.last u), htokens.symm, ?_⟩
  have hwritten : (Disjunction.last (.last u)).value .written = c := hvalue
  rw [hwritten, hpassed.2]

/-- A negated key, an equality, and a nested group with a regex and a number. -/
theorem parse_text_of_nested :
    let inner := Clause.group .or [.test (.matching ['a'] ['[', '/', ']'] ['i', 's']),
      .test (.compare .less ['a'] (.ofLexeme ['-', '1', '.', '5', '0']))]
    let c := Clause.group .and [.not (.test (.present ['a'])),
      .test (.equals false ['a'] ['x', ' ', '/'] false), inner]
    c.Canonical ∧ c.All Test.WellFormed ∧ c.All (¬·.JoinsNot) ∧ c.All (·.IsOpen .host) ∧
      Clause.parse .host c.text = .ok c := by
  intro inner c
  have hkey : Text.IsKeyName ['a'] := by decide +kernel
  have hnegated : (Clause.not (.test (.present ['a']))).Reduced := .not trivial
  have hinner : inner.Reduced :=
    .group (by decide) (by simp [Reduced.test]) (by simp [connective?]) (by decide +kernel)
  have hcanonical : c.Canonical :=
    .inr (.group (by decide) (by simp [Reduced.test, hnegated, hinner])
      (by simp [inner, connective?]) (by decide +kernel))
  have hwell : c.All Test.WellFormed := by
    simp only [c, inner, all_group, all_not, all_test, List.forall_mem_cons]
    refine ⟨⟨hkey, trivial⟩, ⟨hkey, by decide, rfl⟩, ⟨⟨hkey, ?_⟩, ⟨hkey, _, ?_, rfl⟩, by simp⟩,
      by simp⟩
    · exact ⟨by decide, by decide, List.all_eq_true.mp (by decide), by decide +kernel⟩
    · decide
  have hnot : c.All (¬·.JoinsNot) := by simp [c, inner, Test.JoinsNot]
  have hopen : c.All (·.IsOpen .host) := by
    have hnone : Constants.host.get? ['a'] = none := by decide
    simp [c, inner, Test.IsOpen, hnone]
  exact ⟨hcanonical, hwell, hnot, hopen, parse_text hcanonical hwell hnot hopen⟩

end WhenClause.Clause
