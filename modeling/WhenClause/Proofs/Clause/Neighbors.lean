import WhenClause.Proofs.Clause.Canonical

/-!
# Neighbours of different texts

Whatever the texts of keys and values are, `join`, `negate` and `normalize` leave no neighbours of one
text in a group. A canonical clause without such neighbours is its own canonical form
(`Reduced.normalize_of_neighborsDiffer`).
-/

namespace WhenClause.Clause

variable {op : Connective} {b : Bool} {t : Test} {c d : Clause} {cs : List Clause} {K : Constants}

/-- In no group of a clause neighbours have one text. -/
def NeighborsDiffer (c : Clause) : Prop :=
  ∀ op cs, IsPart (.group op cs) c → cs.IsChain TextsDiffer

@[simp] lemma neighborsDiffer_const : (const b).NeighborsDiffer := by
  intro op cs h
  cases h

@[simp] lemma neighborsDiffer_test : (test t).NeighborsDiffer := by
  intro op cs h
  cases h

@[simp] lemma neighborsDiffer_not : (not c).NeighborsDiffer ↔ c.NeighborsDiffer := by
  constructor
  · intro h op cs hpart
    exact h op cs hpart.not
  · rintro h op cs (_ | hpart)
    exact h op cs hpart

@[simp] lemma neighborsDiffer_group : (group op cs).NeighborsDiffer ↔
    cs.IsChain TextsDiffer ∧ ∀ c ∈ cs, c.NeighborsDiffer := by
  constructor
  · intro h
    refine ⟨h op cs (.refl _), ?_⟩
    intro c hc op' ds hpart
    exact h op' ds (hpart.group hc)
  · rintro ⟨hchain, hcs⟩ op' ds (_ | _ | ⟨hc, hpart⟩)
    · exact hchain
    · exact hcs _ hc op' ds hpart

/-! ### What is built has no such neighbours -/

lemma NeighborsDiffer.of_mem_splice (hc : c.NeighborsDiffer) (hd : d ∈ splice op c) :
    d.NeighborsDiffer := by
  cases c with
  | const b => simp [splice] at hd
  | test t | not c =>
    obtain rfl := List.mem_singleton.mp hd
    exact hc
  | group op' cs =>
    by_cases hop : op' = op
    · have hd : d ∈ cs := by simpa [splice, hop] using hd
      exact (neighborsDiffer_group.mp hc).2 d hd
    · have hd : d = group op' cs := by simpa [splice, hop] using hd
      exact hd ▸ hc

lemma neighborsDiffer_bundle (hcs : ∀ c ∈ cs, c.NeighborsDiffer)
    (hchain : cs.IsChain TextsDiffer) : (bundle op cs).NeighborsDiffer := by
  match cs, hcs, hchain with
  | [], _, _                => exact neighborsDiffer_const
  | [c], hcs, _             => exact hcs c (by simp)
  | c :: d :: cs, hcs, hchain => exact neighborsDiffer_group.mpr ⟨hchain, hcs⟩

lemma neighborsDiffer_join (hcs : ∀ c ∈ cs, c.NeighborsDiffer) :
    (join op cs).NeighborsDiffer := by
  rw [join_eq]
  split_ifs
  · exact neighborsDiffer_const
  · apply neighborsDiffer_bundle
    · intro d hd
      obtain ⟨c, hc, hd⟩ := List.mem_flatMap.mp (mem_of_mem_arrange hd)
      exact (hcs c hc).of_mem_splice hd
    · exact isChain_arrange _

lemma NeighborsDiffer.negate (hc : c.NeighborsDiffer) : c.negate.NeighborsDiffer := by
  induction c with
  | const b => exact neighborsDiffer_const
  | test t =>
    rw [Clause.negate]
    split
    · exact neighborsDiffer_test
    · exact neighborsDiffer_not.mpr hc
  | not c _ => exact neighborsDiffer_not.mp hc
  | group op cs ih =>
    rw [Clause.negate, negateAll_eq_map]
    apply neighborsDiffer_join
    rw [List.forall_mem_map]
    intro c hmem
    exact ih c hmem ((neighborsDiffer_group.mp hc).2 c hmem)

lemma neighborsDiffer_normalize (K : Constants) (c : Clause) :
    (c.normalize K).NeighborsDiffer := by
  induction c with
  | const b => exact neighborsDiffer_const
  | test t =>
    rcases t.settle_eq_const_or K with ⟨b, hconst⟩ | ⟨htest, -⟩
    · rw [normalize, hconst]
      exact neighborsDiffer_const
    · rw [normalize, htest]
      exact neighborsDiffer_test
  | not c ih => exact ih.negate
  | group op cs ih =>
    rw [normalize, normalizeAll_eq_map]
    apply neighborsDiffer_join
    rw [List.forall_mem_map]
    exact ih

/-! ### What has no such neighbours stays as it is -/

lemma splice_eq_self (hc : c.Reduced) (hop : c.connective? ≠ some op) : splice op c = [c] := by
  cases hc with
  | test t => rfl
  | not _ => rfl
  | @group op' cs _ _ _ _ =>
    have hop : op' ≠ op := fun h => hop (congrArg some h)
    simp [splice, hop]

/-- Joining the operands of a canonical group gives the group again. -/
lemma Reduced.join_of_isChain (h : (Clause.group op cs).Reduced)
    (hdiffer : cs.IsChain TextsDiffer) : join op cs = Clause.group op cs := by
  cases h with
  | group size reduced flat ordered =>
    have hconst : Clause.const (!op.unit) ∉ cs := fun hmem => (reduced _ hmem).ne_const _ rfl
    have hsplice : cs.flatMap (splice op) = cs := by
      rw [List.flatMap_congr fun c hc => splice_eq_self (reduced c hc) (flat c hc)]
      exact List.flatMap_singleton' cs
    rw [join_eq, if_neg hconst, hsplice, arrange_eq_self ordered hdiffer]
    match cs, size with
    | c :: d :: cs, _ => rfl

/-- A canonical clause whose tests are open, and whose groups have no neighbours of one text, is its
own canonical form. -/
lemma Reduced.normalize_of_neighborsDiffer (hc : c.Reduced) (hdiffer : c.NeighborsDiffer)
    (hopen : c.All (·.IsOpen K)) : c.normalize K = c := by
  induction c with
  | const b => rfl
  | test t => exact Test.settle_of_isOpen (all_test.mp hopen)
  | not c _ =>
    cases hc with
    | @not t ht =>
      have hsettle := Test.settle_of_isOpen (all_test.mp (all_not.mp hopen))
      rw [normalize, normalize, hsettle, negate, Test.opposite?_eq_none.mpr ht]
  | group op cs ih =>
    obtain ⟨hchain, hcs⟩ := neighborsDiffer_group.mp hdiffer
    have hmap : cs.map (normalize K) = cs := by
      cases hc with
      | group _ reduced _ _ =>
        conv_rhs => rw [← List.map_id cs]
        exact List.map_congr_left fun c hmem =>
          ih c hmem (reduced c hmem) (hcs c hmem) (all_group.mp hopen c hmem)
    rw [normalize, normalizeAll_eq_map, hmap, hc.join_of_isChain hchain]

end WhenClause.Clause
