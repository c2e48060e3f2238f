import WhenClause.Proofs.Clause.Laws
import WhenClause.Proofs.Grammar.Printing

/-!
# Telling clauses apart

Siblings are totally preordered, whatever their texts, and clauses of one place in the order have
one text. Legible clauses whose keys are no reserved words are told apart by their texts, constants
included, so that for them the order is total (`compareSiblings_trans_and_text_injective`).
-/

namespace WhenClause

namespace Clause

variable {a b c d : Clause}

/-! ### The order of all clauses -/

lemma compareSiblings_swap (a b : Clause) : compareSiblings b a = (compareSiblings a b).swap :=
  Std.OrientedCmp.eq_swap

/-- Whatever the result of two comparisons, the third one has it if they agree. -/
lemma compareSiblings_trans {o : Ordering} (hab : compareSiblings a b = o)
    (hbc : compareSiblings b c = o) : compareSiblings a c = o := by
  cases o with
  | lt => exact Std.TransCmp.lt_trans hab hbc
  | eq => exact Std.TransCmp.eq_trans hab hbc
  | gt => exact Std.TransCmp.gt_trans hab hbc

lemma text_eq_of_compareSiblings_eq (h : compareSiblings a b = .eq) : a.text = b.text :=
  congrArg SortKey.text (SortKey.eq_of_compare_eq h)

/-! ### Constants and other clauses -/

/-- A legible clause whose keys are scanned as the names of keys, so that none of them is one of
the words for truth values. -/
structure Named (c : Clause) : Prop extends c.Legible where
  keys : c.All (·.key.IsKeyName)

lemma text_const (b : Bool) : (const b).text = Constants.word b := by
  rw [text, write_const, List.append_nil]

/-- A constant is written as a reserved word, and no other clause is. -/
lemma Reduced.text_ne_const (hc : c.Reduced) (hkeys : c.All (·.key.IsKeyName)) (b : Bool) :
    c.text ≠ (const b).text := by
  rw [text_const]
  intro h
  cases hc with
  | test t =>
    have hkey : t.key.IsKeyName := all_test.mp hkeys
    have hword : t.key ++ t.afterKey [] = Constants.word b ++ [] := by
      rw [← t.write_eq, List.append_nil]
      exact h
    have heq : t.key = Constants.word b :=
      (hkey.isWord.append_inj (isWord_word b) (t.endsWord_afterKey .nil) Text.endsWord_nil hword).1
    have hkind := hkey.kindOfWord
    rw [heq, kindOfWord_word] at hkind
    cases hkind
  | not _ => cases b <;> exact absurd (List.cons.inj h).1 (by decide)
  | group _ _ _ _ => cases b <;> exact absurd (List.cons.inj h).1 (by decide)

/-- Named clauses of one text are one clause. -/
lemma Named.eq_of_text_eq (hc : c.Named) (hd : d.Named) (h : c.text = d.text) :
    c = d := by
  rcases hc.canonical with ⟨b, rfl⟩ | hcr
  · rcases hd.canonical with ⟨b', rfl⟩ | hdr
    · rw [text_const, text_const] at h
      have hb : b = b' := by
        cases b <;> cases b' <;> simp [Constants.word] at h ⊢
      rw [hb]
    · exact absurd h.symm (hdr.text_ne_const hd.keys b)
  · rcases hd.canonical with ⟨b, rfl⟩ | hdr
    · exact absurd h (hcr.text_ne_const hc.keys b)
    · exact IsReadable.eq_of_text_eq ⟨hcr, hc.tests⟩ ⟨hdr, hd.tests⟩ h

lemma Named.compareSiblings_eq_iff (hc : c.Named) (hd : d.Named) :
    compareSiblings c d = .eq ↔ c = d := by
  constructor
  · intro h
    exact hc.eq_of_text_eq hd (text_eq_of_compareSiblings_eq h)
  · rintro rfl
    exact Std.ReflCmp.compare_self

/-- The order of siblings is oriented and transitive on all clauses, and clauses that it does not
order have one text. Named clauses are told apart by their texts, so the order leaves two of
them unordered only where they are equal. -/
theorem compareSiblings_trans_and_text_injective :
    (∀ a b c : Clause,
      compareSiblings b a = (compareSiblings a b).swap ∧
      ((compareSiblings a b).isLE = true → (compareSiblings b c).isLE = true →
        (compareSiblings a c).isLE = true) ∧
      (∀ o, compareSiblings a b = o → compareSiblings b c = o → compareSiblings a c = o) ∧
      (compareSiblings a b = .eq → a.text = b.text)) ∧
    (∀ a b : Clause, a.Named → b.Named →
      (a.text = b.text → a = b) ∧ (compareSiblings a b = .eq ↔ a = b)) := by
  constructor
  · intro a b c
    refine ⟨compareSiblings_swap a b, Std.TransCmp.isLE_trans, ?_, text_eq_of_compareSiblings_eq⟩
    intro o hab hbc
    exact compareSiblings_trans hab hbc
  · intro a b ha hb
    exact ⟨ha.eq_of_text_eq hb, ha.compareSiblings_eq_iff hb⟩

/-- A value that is the text of a group, and a group with an operand of that key. -/
theorem compareSiblings_trans_and_text_injective_of_value :
    let a := Clause.test (.equals true ['a'] "(b && c)".toList false)
    let b := Clause.group .and [.test (.present ['b']), .test (.equals true ['a'] ['c'] false)]
    a.Named ∧ b.Named ∧ a.text ≠ b.text ∧ compareSiblings a b ≠ .eq := by
  intro a b
  have hkeya : Text.IsKeyName ['a'] := by decide +kernel
  have hkeyb : Text.IsKeyName ['b'] := by decide +kernel
  have ha : a.Named :=
    ⟨⟨.inr (.test _), all_test.mpr ⟨hkeya.isWord, by decide, rfl⟩⟩, all_test.mpr hkeya⟩
  have hb : b.Named := by
    refine ⟨⟨.inr (.group (by decide) ?_ (by simp [connective?]) (by decide +kernel)), ?_⟩, ?_⟩
    · simp [Reduced.test]
    · simp only [b, all_group, List.forall_mem_cons, all_test]
      exact ⟨⟨hkeyb.isWord, trivial⟩, ⟨hkeya.isWord, by decide, rfl⟩, by simp⟩
    · simp only [b, all_group, List.forall_mem_cons, all_test]
      exact ⟨hkeyb, hkeya, by simp⟩
  have hne : a ≠ b := by simp [a, b]
  have hlaws := compareSiblings_trans_and_text_injective.2 a b ha hb
  exact ⟨ha, hb, mt hlaws.1 hne, mt hlaws.2.mp hne⟩

-- a key that is a reserved word cannot be told from a constant
example : (Clause.test (.present "true".toList)).text = (Clause.const true).text := rfl

end Clause

end WhenClause
