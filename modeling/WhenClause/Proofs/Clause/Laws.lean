import WhenClause.Proofs.Clause.Readability

/-!
# Laws of joining

A clause is *legible* when it is canonical and its tests can be told from their texts. Among
legible clauses, joining depends on nothing but the set of what the operands contribute
(`join_congr`), a join of joins is one join (`join_flatMap`), and a map of clauses that goes
through groups goes through joins as well (`Distributes.join`). Negation is such a map, which is
De Morgan's law, and so is normalizing under another table of constant keys.
-/

namespace WhenClause

namespace Clause

variable {op op' : Connective} {b : Bool} {c d : Clause} {as bs cs ds : List Clause} {K K₀ : Constants}

/-! ### The set of operands -/

instance : Std.Irrefl Precedes := ⟨fun _ h => h.sortKey_ne rfl⟩

instance : Std.Antisymm Precedes where
  antisymm _ _ hab hba := absurd (IsTrans.trans _ _ _ hab hba) (irrefl _)

/-- Arranging readable operands leaves none of them out. -/
lemma mem_arrange (hcs : ∀ c ∈ cs, c.IsReadable) : c ∈ arrange cs ↔ c ∈ cs := by
  constructor
  · exact mem_of_mem_arrange
  · intro hc
    obtain ⟨d, hd, htext⟩ := exists_text_arrange hc
    obtain rfl := (hcs d (mem_of_mem_arrange hd)).eq_of_text_eq (hcs c hc) htext
    exact hd

/-- Operands are arranged alike when they are the same, in any order and however often. -/
lemma arrange_congr (has : ∀ c ∈ as, c.IsReadable) (hbs : ∀ c ∈ bs, c.IsReadable)
    (h : ∀ c, c ∈ as ↔ c ∈ bs) : arrange as = arrange bs := by
  apply (pairwise_arrange as).eq_of_mem_iff (pairwise_arrange bs)
  intro c
  rw [mem_arrange has, mem_arrange hbs, h]

/-! ### Legible clauses -/

/-- A canonical clause, constants included, whose tests can be told from their texts. -/
structure Legible (c : Clause) : Prop where
  canonical : c.Canonical
  tests : c.All Test.IsReadable

lemma IsReadable.legible (hc : c.IsReadable) : c.Legible := ⟨hc.reduced.canonical, hc.tests⟩

lemma Legible.isReadable_of_mem_splice (hc : c.Legible) (hd : d ∈ splice op c) : d.IsReadable :=
  ⟨(hc.canonical.of_mem_splice hd).1, hc.tests.of_mem_splice hd⟩

lemma Legible.isReadable_of_mem (hc : (group op cs).Legible) (hd : d ∈ cs) : d.IsReadable := by
  have hsplice : d ∈ splice op (group op cs) := by simpa [splice] using hd
  exact hc.isReadable_of_mem_splice hsplice

lemma isReadable_of_mem_flatMap_splice (hcs : ∀ c ∈ cs, c.Legible)
    (hd : d ∈ cs.flatMap (splice op)) : d.IsReadable := by
  obtain ⟨c, hc, hd⟩ := List.mem_flatMap.mp hd
  exact (hcs c hc).isReadable_of_mem_splice hd

lemma legible_join (hcs : ∀ c ∈ cs, c.Legible) : (join op cs).Legible :=
  ⟨canonical_join fun c hc => (hcs c hc).canonical, all_join fun c hc => (hcs c hc).tests⟩

lemma Legible.negate (hc : c.Legible) : c.negate.Legible :=
  ⟨hc.canonical.negate, hc.tests.negate fun _ _ => Test.IsReadable.of_opposite?⟩

lemma legible_normalize (K : Constants) (hc : c.All Test.IsReadable) : (c.normalize K).Legible := by
  refine ⟨canonical_normalize K c, ?_⟩
  exact (all_normalize_of_all (fun _ _ => Test.IsReadable.of_opposite?) hc).imp fun _ ht => ht.1

/-! ### Joins and what they contribute -/

lemma eq_const_unit (hne : const b ≠ const (!op.unit)) : const b = const op.unit := by
  have hb : b ≠ !op.unit := fun h => hne (congrArg const h)
  rw [(Bool.eq_not_of_ne hb).trans (Bool.not_not _)]

/-- What decides a join decides it whatever else is joined, and nothing else gives that value. -/
lemma join_eq_const_iff (hcs : ∀ c ∈ cs, c.Canonical) :
    join op cs = const (!op.unit) ↔ const (!op.unit) ∈ cs := by
  rw [join_eq]
  split_ifs with hdecided
  · simp [hdecided]
  · simp only [hdecided, iff_false]
    have hreduced : ∀ d ∈ arrange (cs.flatMap (splice op)), d.Reduced := by
      intro d hd
      obtain ⟨c, hc, hd⟩ := List.mem_flatMap.mp (mem_of_mem_arrange hd)
      exact ((hcs c hc).of_mem_splice hd).1
    match hfound : arrange (cs.flatMap (splice op)), hreduced with
    | [], _            => simp [bundle]
    | [d], hreduced    => exact (hreduced d (List.mem_singleton_self d)).ne_const _
    | d :: e :: ds, _  => simp [bundle]

lemma splice_bundle (hcs : ∀ c ∈ cs, c.Reduced ∧ c.connective? ≠ some op) :
    splice op (bundle op cs) = cs := by
  match cs, hcs with
  | [], _           => rfl
  | [c], hcs        => exact splice_eq_self (hcs c (by simp)).1 (hcs c (by simp)).2
  | c :: d :: cs, _ => simp [bundle, splice]

/-- A join contributes what its operands contribute, unless it is decided. -/
lemma mem_splice_join (hcs : ∀ c ∈ cs, c.Legible) (hdecided : const (!op.unit) ∉ cs) :
    d ∈ splice op (join op cs) ↔ d ∈ cs.flatMap (splice op) := by
  rw [join_eq, if_neg hdecided, splice_bundle]
  · exact mem_arrange fun d hd => isReadable_of_mem_flatMap_splice hcs hd
  · intro d hd
    obtain ⟨c, hc, hd⟩ := List.mem_flatMap.mp (mem_of_mem_arrange hd)
    exact (hcs c hc).canonical.of_mem_splice hd

/-- Joins are equal when they are decided alike, and, where they are not, the same clauses are
contributed to both. -/
lemma join_congr (has : ∀ c ∈ as, c.Legible) (hbs : ∀ c ∈ bs, c.Legible)
    (hdecided : const (!op.unit) ∈ as ↔ const (!op.unit) ∈ bs)
    (hfound : const (!op.unit) ∉ as →
      ∀ d, d ∈ as.flatMap (splice op) ↔ d ∈ bs.flatMap (splice op)) :
    join op as = join op bs := by
  rw [join_eq, join_eq]
  by_cases h : const (!op.unit) ∈ as
  · rw [if_pos h, if_pos (hdecided.mp h)]
  · rw [if_neg h, if_neg (mt hdecided.mpr h)]
    apply congrArg (bundle op)
    exact arrange_congr (fun d hd => isReadable_of_mem_flatMap_splice has hd)
      (fun d hd => isReadable_of_mem_flatMap_splice hbs hd) (hfound h)

/-- The order of operands and their repetition do not matter. -/
lemma join_congr_mem (has : ∀ c ∈ as, c.Legible) (hbs : ∀ c ∈ bs, c.Legible)
    (h : ∀ c, c ∈ as ↔ c ∈ bs) : join op as = join op bs := by
  apply join_congr has hbs (h _)
  intro _ d
  simp only [List.mem_flatMap, h]

lemma join_nil (op : Connective) : join op [] = const op.unit := by
  simp [join_eq, arrange, bundle]

/-- What a clause contributes is in order already. -/
lemma arrange_splice (hc : c.Legible) (op : Connective) : arrange (splice op c) = splice op c := by
  cases c with
  | const b => rfl
  | test t | not c => rfl
  | group op' cs =>
    by_cases hop : op' = op
    · have hreduced := hc.canonical.reduced rfl
      have hdiffer := hreduced.pairwise_textsDiffer (hc.tests.imp fun _ ht => ht.key)
      cases hreduced with
      | group _ _ _ ordered => simpa [splice, hop] using arrange_eq_self ordered hdiffer.isChain
    · rw [splice, if_neg hop]
      rfl

/-- A clause is made of what it contributes, unless it decides the whole. -/
lemma bundle_splice (hc : c.Canonical) (hne : c ≠ const (!op.unit)) :
    bundle op (splice op c) = c := by
  rcases hc with ⟨b, rfl⟩ | hreduced
  · rw [eq_const_unit hne]
    rfl
  · cases hreduced with
    | test t => rfl
    | not _ => rfl
    | @group op' cs size _ _ _ =>
      by_cases hop : op' = op
      · subst hop
        match cs, size with
        | c :: d :: cs, _ => simp [splice, bundle]
      · simp [splice, hop, bundle]

lemma join_singleton (hc : c.Legible) (op : Connective) : join op [c] = c := by
  rw [join_eq, List.flatMap_singleton, arrange_splice hc]
  split_ifs with h
  · exact List.mem_singleton.mp h
  · exact bundle_splice hc.canonical fun hdecided => h (List.mem_singleton.mpr hdecided.symm)

/-- Joining joins is joining once. -/
lemma join_flatMap {α : Type} {f : α → List Clause} {l : List α}
    (hf : ∀ a ∈ l, ∀ c ∈ f a, c.Legible) (op : Connective) :
    join op (l.flatMap f) = join op (l.map fun a => join op (f a)) := by
  have hleft : ∀ c ∈ l.flatMap f, c.Legible := by
    intro c hc
    obtain ⟨a, ha, hc⟩ := List.mem_flatMap.mp hc
    exact hf a ha c hc
  have hright : ∀ c ∈ l.map fun a => join op (f a), c.Legible := by
    rw [List.forall_mem_map]
    exact fun a ha => legible_join (hf a ha)
  apply join_congr hleft hright
  · rw [List.mem_flatMap, List.mem_map]
    apply exists_congr
    intro a
    apply and_congr_right
    intro ha
    exact (join_eq_const_iff fun c hc => (hf a ha c hc).canonical).symm
  · intro hdecided d
    rw [List.flatMap_assoc, List.flatMap_map, List.mem_flatMap, List.mem_flatMap]
    apply exists_congr
    intro a
    apply and_congr_right
    intro ha
    exact (mem_splice_join (hf a ha) fun h =>
      hdecided (List.mem_flatMap.mpr ⟨a, ha, h⟩)).symm

/-! ### Maps that go through joins -/

/-- A map of legible clauses that turns the groups of one connective into joins of another, and
the constants of the one into those of the other. -/
structure Distributes (f : Clause → Clause) (op op' : Connective) : Prop where
  legible : ∀ c, c.Legible → (f c).Legible
  neutral : f (const op.unit) = const op'.unit
  deciding : f (const !op.unit) = const !op'.unit
  group : ∀ cs, (Clause.group op cs).Legible → f (Clause.group op cs) = join op' (cs.map f)

namespace Distributes

variable {f : Clause → Clause}

lemma splice (hf : Distributes f op op') (hc : c.Legible) (hne : c ≠ const (!op.unit)) :
    join op' ((Clause.splice op c).map f) = f c := by
  cases c with
  | const b =>
    rw [eq_const_unit hne, hf.neutral]
    exact join_nil op'
  | test t | not c => exact join_singleton (hf.legible _ hc) op'
  | group op₁ cs =>
    by_cases hop : op₁ = op
    · subst hop
      rw [hf.group cs hc, Clause.splice, if_pos rfl]
    · rw [Clause.splice, if_neg hop]
      exact join_singleton (hf.legible _ hc) op'

lemma bundle (hf : Distributes f op op') (hcs : (Clause.bundle op cs).Legible) :
    f (Clause.bundle op cs) = join op' (cs.map f) := by
  match cs, hcs with
  | [], _            => exact hf.neutral.trans (join_nil op').symm
  | [c], hc          => exact (join_singleton (hf.legible c hc) op').symm
  | c :: d :: cs, hc => exact hf.group _ hc

/-- Such a map goes through joins. -/
lemma join (hf : Distributes f op op') (hcs : ∀ c ∈ cs, c.Legible) :
    f (Clause.join op cs) = Clause.join op' (cs.map f) := by
  have hmap : ∀ ds : List Clause, (∀ d ∈ ds, d.Legible) → ∀ d ∈ ds.map f, d.Legible := by
    intro ds hds
    rw [List.forall_mem_map]
    exact fun d hd => hf.legible d (hds d hd)
  by_cases hdecided : const (!op.unit) ∈ cs
  · rw [(join_eq_const_iff fun c hc => (hcs c hc).canonical).mpr hdecided, hf.deciding, eq_comm,
      join_eq_const_iff fun c hc => (hmap cs hcs c hc).canonical]
    exact hf.deciding ▸ List.mem_map_of_mem hdecided
  · have hjoin : Clause.join op cs = Clause.bundle op (arrange (cs.flatMap (Clause.splice op))) := by
      rw [join_eq, if_neg hdecided]
    have hfound : ∀ d ∈ cs.flatMap (Clause.splice op), d.IsReadable :=
      fun d hd => isReadable_of_mem_flatMap_splice hcs hd
    have hmem : ∀ d, d ∈ (arrange (cs.flatMap (Clause.splice op))).map f ↔
        d ∈ (cs.flatMap (Clause.splice op)).map f := by
      simp only [List.mem_map, mem_arrange hfound, implies_true]
    calc f (Clause.join op cs)
        = Clause.join op' ((arrange (cs.flatMap (Clause.splice op))).map f) := by
          rw [hjoin]
          exact hf.bundle (hjoin ▸ legible_join hcs)
      _ = Clause.join op' ((cs.flatMap (Clause.splice op)).map f) :=
          join_congr_mem (hmap _ fun d hd => (hfound d (mem_of_mem_arrange hd)).legible)
            (hmap _ fun d hd => (hfound d hd).legible) hmem
      _ = Clause.join op' (cs.map fun c => Clause.join op' ((Clause.splice op c).map f)) := by
          rw [List.map_flatMap]
          exact join_flatMap (fun c hc => hmap _ fun d hd =>
            ((hcs c hc).isReadable_of_mem_splice hd).legible) op'
      _ = Clause.join op' (cs.map f) := by
          apply congrArg (Clause.join op')
          exact List.map_congr_left fun c hc => hf.splice (hcs c hc) fun h => hdecided (h ▸ hc)

end Distributes

/-- De Morgan's law. -/
lemma distributes_negate (op : Connective) : Distributes negate op op.dual where
  legible _ hc := hc.negate
  neutral := by rw [negate, Connective.unit_dual]
  deciding := by rw [negate, Connective.unit_dual]
  group cs _ := by rw [negate, negateAll_eq_map]

lemma distributes_normalize (K : Constants) (op : Connective) :
    Distributes (normalize K) op op where
  legible c hc := legible_normalize K hc.tests
  neutral := rfl
  deciding := rfl
  group cs _ := by rw [normalize, normalizeAll_eq_map]

/-! ### Normalizing again -/

lemma settle_opposite? {t u : Test} (K : Constants) (h : t.opposite? = some u) :
    K.settle u = (K.settle t).negate := by
  rcases t.settle_eq_const_or K with ⟨b, hconst⟩ | ⟨htest, hopen⟩
  · cases t with
    | equals negated key value foldCase =>
      obtain rfl := Option.some.inj h
      cases hkey : K.get? key with
      | none => simp [Constants.settle, hkey] at hconst
      | some b' => cases negated <;> simp [Constants.settle, hkey, negate]
    | member negated key target => cases hconst
    | present key | compare op key operand | matching key pattern flags => cases h
  · rw [htest, negate, h, Test.settle_of_isOpen (hopen.of_opposite? h)]

/-- A negation is normalized to the negation of what its operand is normalized to. -/
lemma normalize_negate (hc : c.Legible) (K : Constants) :
    c.negate.normalize K = (c.normalize K).negate := by
  induction c with
  | const b => rfl
  | test t =>
    cases ht : t.opposite? with
    | none =>
      have hnot : (test t).negate = .not (test t) := by rw [negate, ht]
      rw [hnot]
      rfl
    | some u =>
      rw [negate, ht, normalize, normalize]
      exact settle_opposite? K ht
  | not c _ =>
    cases hc.canonical.reduced rfl with
    | @not t ht =>
      change K.settle t = (K.settle t).negate.negate
      rcases t.settle_eq_const_or K with ⟨b, hconst⟩ | ⟨htest, -⟩
      · simp [hconst, negate]
      · rw [htest, negate, Test.opposite?_eq_none.mpr ht]
        rfl
  | group op cs ih =>
    have hcs : ∀ d ∈ cs, d.Legible := fun d hd => (hc.isReadable_of_mem hd).legible
    have hnegated : ∀ d ∈ cs.map negate, d.Legible := by
      rw [List.forall_mem_map]
      exact fun d hd => (hcs d hd).negate
    have hnormalized : ∀ d ∈ cs.map (normalize K), d.Legible := by
      rw [List.forall_mem_map]
      exact fun d hd => legible_normalize K (hcs d hd).tests
    rw [negate, negateAll_eq_map, (distributes_normalize K op.dual).join hnegated, normalize,
      normalizeAll_eq_map, (distributes_negate op).join hnormalized, List.map_map, List.map_map]
    apply congrArg (join op.dual)
    exact List.map_congr_left fun d hd => ih d hd (hcs d hd)

/-- Normalizing under one table and then under another is normalizing under the second, if that
settles whatever the first one settles, and alike. -/
lemma normalize_normalize (h : ∀ t, (K₀.settle t).normalize K = K.settle t)
    (hc : c.All Test.IsReadable) : (c.normalize K₀).normalize K = c.normalize K := by
  induction c with
  | const b => rfl
  | test t => exact h t
  | not c ih =>
    have hc := all_not.mp hc
    rw [normalize, normalize_negate (legible_normalize K₀ hc), ih hc, normalize]
  | group op cs ih =>
    have hc := all_group.mp hc
    have hcs : ∀ d ∈ cs.map (normalize K₀), d.Legible := by
      rw [List.forall_mem_map]
      exact fun d hd => legible_normalize K₀ (hc d hd)
    rw [normalize, normalizeAll_eq_map, (distributes_normalize K op).join hcs, List.map_map,
      normalize, normalizeAll_eq_map]
    apply congrArg (join op)
    exact List.map_congr_left fun d hd => ih d hd (hc d hd)

end Clause

end WhenClause
