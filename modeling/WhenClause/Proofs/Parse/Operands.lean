import Mathlib.Tactic.NormNum
import WhenClause.Proofs.Decimal.Value
import WhenClause.Proofs.Grammar.Printing

/-!
# Scanning a written operand

An operand is scanned back from its own text as one value, and numbers are written in the same way
exactly when they have the same value (`Operand.tokenize_write`).
-/

namespace WhenClause.Operand

variable {x y : Text} {d e : Decimal}

/-- A number that a text is read as is in normal form and within bounds. -/
lemma exists_read?_of_ofLexeme (h : ofLexeme x = number d) :
    ∃ d', Decimal.read? x = some d' ∧ d = d'.normalize := by
  rw [ofLexeme] at h
  split at h
  · next d' hread =>
    cases h
    exact ⟨d', hread, rfl⟩
  · cases h

/-- What is written of numbers that were read tells their values and nothing else. -/
lemma toText_eq_toText_iff (hd : ofLexeme x = number d) (he : ofLexeme y = number e) :
    d.toText = e.toText ↔ d.toRat = e.toRat := by
  obtain ⟨d', hread, rfl⟩ := exists_read?_of_ofLexeme hd
  obtain ⟨e', hread', rfl⟩ := exists_read?_of_ofLexeme he
  rw [Decimal.toText_eq_toText_iff (Decimal.read?_inBounds hread).normalize
      (Decimal.read?_inBounds hread').normalize,
    Decimal.normalize_eq_normalize_iff, Decimal.toRat_normalize, Decimal.toRat_normalize]

/-- An operand that was read from a text without quotes is scanned back: what is written of it is
one value, a word or a string, whose lexeme is read as the same operand. Numbers are written in the
same way if and only if they are the same rational. -/
theorem tokenize_write :
    (∀ x : Text, '\'' ∉ x → ∃ value : Token,
      tokenize (ofLexeme x).write = ([value, .endOf (ofLexeme x).write.length], []) ∧
        (value.kind = .string ∨ isWordKind value.kind = true) ∧
        ofLexeme value.lexeme = ofLexeme x) ∧
    ∀ (x y : Text) (d e : Decimal), ofLexeme x = number d → ofLexeme y = number e →
      ((ofLexeme x).write = (ofLexeme y).write ↔ d.toRat = e.toRat) := by
  constructor
  · intro x hx
    obtain ⟨value, offset, hpass, hlexeme⟩ := passes_operand hx .nil 0
    rw [List.append_nil] at hpass
    obtain ⟨htokens, herrors⟩ := hpass.to_end
    refine ⟨value.1.toToken, ?_, value.2, hlexeme⟩
    rw [tokenize, spacedTokens, scanErrors, pieces, htokens, herrors]
    rfl
  · intro x y d e hd he
    rw [hd, he]
    exact toText_eq_toText_iff hd he

/-- Two spellings of one number, of which one ends in an exponent, another number, and a text that
would be two tokens without quotes. -/
theorem tokenize_write_of_spellings :
    let x := "0_15.00e1".toList
    let y := "+150.".toList
    let z := "150.5".toList
    let t := "x in".toList
    '\'' ∉ t ∧ (ofLexeme t).write = "'x in'".toList ∧
    (∃ value : Token,
      tokenize (ofLexeme t).write = ([value, .endOf (ofLexeme t).write.length], []) ∧
        (value.kind = .string ∨ isWordKind value.kind = true) ∧
        ofLexeme value.lexeme = ofLexeme t) ∧
    ofLexeme x = number ⟨false, 150, 0⟩ ∧ ofLexeme y = number ⟨false, 150, 0⟩ ∧
    ofLexeme z = number ⟨false, 1505, 1⟩ ∧
    (ofLexeme x).write = (ofLexeme y).write ∧ (ofLexeme x).write ≠ (ofLexeme z).write := by
  intro x y z t
  have ht : '\'' ∉ t := by decide
  have hx : ofLexeme x = number ⟨false, 150, 0⟩ := by decide +kernel
  have hy : ofLexeme y = number ⟨false, 150, 0⟩ := by decide +kernel
  have hz : ofLexeme z = number ⟨false, 1505, 1⟩ := by decide +kernel
  refine ⟨ht, by decide +kernel, tokenize_write.1 t ht, hx, hy, hz, ?_, ?_⟩
  · exact (tokenize_write.2 x y _ _ hx hy).mpr rfl
  · intro h
    have hvalue := (tokenize_write.2 x z _ _ hx hz).mp h
    norm_num [Decimal.toRat, Decimal.toInt] at hvalue

end WhenClause.Operand
