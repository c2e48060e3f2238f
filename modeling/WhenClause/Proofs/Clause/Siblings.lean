import WhenClause.Proofs.Clause.Neighbors
import WhenClause.Proofs.Clause.Sign

/-!
# Siblings have different texts

The operands of a canonical group are in strictly ascending order, which alone does not exclude
that two operands far apart have one text. But operands of one text have one rank and one key, as
long as their keys are words, so a strict order makes their texts pairwise different.
-/

namespace WhenClause

namespace Clause

variable {op : Connective} {t u : Test} {a b c d : Clause} {cs : List Clause} {rest rest' : Text}
  {P : Test → Prop}

/-! ### Parts of reduced clauses -/

lemma IsPart.all (h : IsPart c d) (hd : d.All P) : c.All P := by
  induction h with
  | refl => exact hd
  | not _ ih => exact ih (all_not.mp hd)
  | group hmem _ ih => exact ih (all_group.mp hd _ hmem)

lemma IsPart.reduced (h : IsPart c d) (hd : d.Reduced) : c.Reduced := by
  induction h with
  | refl => exact hd
  | not _ ih =>
    cases hd with
    | not _ => exact ih (.test _)
  | group hmem _ ih =>
    cases hd with
    | group _ reduced _ _ => exact ih (reduced _ hmem)

/-! ### Texts of siblings -/

lemma rank_not_test (t : Test) : (not (test t)).rank =
    match t.sign? with
    | none           => 3
    | some .matching => 8
    | _              => 16 := by
  cases t <;> rfl

lemma write_test_ne_cons (ht : t.key.IsWord) {c : Char} (hc : isWordStart c = false) :
    t.write rest ≠ c :: rest' := by
  rw [Test.write_eq]
  exact ht.append_ne_cons hc

/-- Siblings of one text have one place in the order. -/
lemma sortKey_eq_of_text_eq (ha : a.Reduced) (hb : b.Reduced) (hwa : a.All (·.key.IsWord))
    (hwb : b.All (·.key.IsWord)) (hca : a.connective? ≠ some op) (hcb : b.connective? ≠ some op)
    (h : a.text = b.text) : a.sortKey = b.sortKey := by
  have hbang : isWordStart '!' = false := by decide
  have hparen : isWordStart '(' = false := by decide
  suffices hplace : a.rank = b.rank ∧ a.key? = b.key? by
    rw [sortKey, sortKey, hplace.1, hplace.2, h]
  cases ha with
  | test t =>
    have ht := all_test.mp hwa
    cases hb with
    | test u =>
      obtain ⟨hkey, hsign, -⟩ := Test.write_inj ht (all_test.mp hwb) .nil .nil h
      exact ⟨(t.rank_eq.trans (by rw [hsign])).trans u.rank_eq.symm, congrArg some hkey⟩
    | not _ => exact absurd h (write_test_ne_cons ht hbang)
    | group _ _ _ _ => exact absurd h (write_test_ne_cons ht hparen)
  | @not t _ =>
    cases hb with
    | test u => exact absurd h.symm (write_test_ne_cons (all_test.mp hwb) hbang)
    | @not u _ =>
      obtain ⟨hkey, hsign, -⟩ := Test.write_inj (all_test.mp (all_not.mp hwa))
        (all_test.mp (all_not.mp hwb)) .nil .nil (List.cons.inj h).2
      exact ⟨by rw [rank_not_test, rank_not_test, hsign], congrArg some hkey⟩
    | group _ _ _ _ => exact absurd (List.cons.inj h).1 (by decide)
  | @group op₁ cs _ _ _ _ =>
    cases hb with
    | test u => exact absurd h.symm (write_test_ne_cons (all_test.mp hwb) hparen)
    | not _ => exact absurd (List.cons.inj h).1 (by decide)
    | @group op₂ ds _ _ _ _ =>
      have hop : op₁ = op₂ := by
        cases op <;> cases op₁ <;> cases op₂ <;> simp [connective?] at hca hcb ⊢
      subst hop
      exact ⟨by cases op₁ <;> rfl, rfl⟩

/-- The operands of a reduced group have pairwise different texts. -/
lemma Reduced.pairwise_textsDiffer (h : (Clause.group op cs).Reduced)
    (hw : (Clause.group op cs).All (·.key.IsWord)) : cs.Pairwise TextsDiffer := by
  have hw := all_group.mp hw
  cases h with
  | group size reduced flat ordered =>
    refine ordered.imp_of_mem fun ha hb hab htext => hab.sortKey_ne ?_
    exact sortKey_eq_of_text_eq (reduced _ ha) (reduced _ hb) (hw _ ha) (hw _ hb) (flat _ ha)
      (flat _ hb) htext

/-! ### Canonical clauses stay as they are -/

/-- Joining the operands of a canonical group gives the group again. -/
lemma Reduced.join_eq_self (h : (Clause.group op cs).Reduced)
    (hw : (Clause.group op cs).All (·.key.IsWord)) : join op cs = Clause.group op cs :=
  h.join_of_isChain (h.pairwise_textsDiffer hw).isChain

/-- A canonical clause whose tests are open is its own canonical form. -/
lemma Reduced.normalize_eq_self {K : Constants} (hc : c.Reduced) (hw : c.All (·.key.IsWord))
    (hopen : c.All (·.IsOpen K)) : c.normalize K = c := by
  refine hc.normalize_of_neighborsDiffer (fun op cs hpart => ?_) hopen
  exact ((hpart.reduced hc).pairwise_textsDiffer (hpart.all hw)).isChain

end Clause

end WhenClause
