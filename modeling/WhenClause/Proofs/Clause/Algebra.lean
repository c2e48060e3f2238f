import WhenClause.Proofs.Clause.Laws

/-!
# The algebra of legible clauses

On legible clauses both connectives are associative, commutative and idempotent
(`join_assoc_comm_idem`), negation is its own inverse, and it turns a join into the dual join of
the negations (`negate_negate_and_negate_join`). All of these are equalities of trees.
-/

namespace WhenClause.Clause

variable {op : Connective} {c : Clause} {cs xs ys zs : List Clause}

/-! ### Joins inside of joins -/

/-- A join of three lists is the join of their joins. -/
lemma join_append_append (hxs : ∀ c ∈ xs, c.Legible) (hys : ∀ c ∈ ys, c.Legible)
    (hzs : ∀ c ∈ zs, c.Legible) :
    join op (xs ++ ys ++ zs) = join op [join op xs, join op ys, join op zs] := by
  have hlists : ∀ l ∈ [xs, ys, zs], ∀ c ∈ id l, c.Legible := by
    simp only [List.forall_mem_cons, id]
    exact ⟨hxs, hys, hzs, by simp⟩
  simpa using join_flatMap hlists op

/-- A join gives way to what it joins. -/
lemma join_append_join_append (hxs : ∀ c ∈ xs, c.Legible) (hys : ∀ c ∈ ys, c.Legible)
    (hzs : ∀ c ∈ zs, c.Legible) :
    join op (xs ++ [join op ys] ++ zs) = join op (xs ++ ys ++ zs) := by
  have hjoin : ∀ c ∈ [join op ys], c.Legible := by
    simpa using legible_join hys
  calc join op (xs ++ [join op ys] ++ zs)
      = join op [join op xs, join op [join op ys], join op zs] := join_append_append hxs hjoin hzs
    _ = join op [join op xs, join op ys, join op zs] := by rw [join_singleton (legible_join hys)]
    _ = join op (xs ++ ys ++ zs) := (join_append_append hxs hys hzs).symm

lemma isWord_singleton {x : Char} (hx : isWordStart x = true) (hslash : x ≠ '/') :
    Text.IsWord [x] :=
  ⟨hx, hslash, rfl⟩

/-- Joining is associative, since a join among the operands gives way to what it joins, and it is
commutative and idempotent, since it depends on the set of the operands alone. -/
theorem join_assoc_comm_idem (op : Connective) (hxs : ∀ c ∈ xs, c.Legible)
    (hys : ∀ c ∈ ys, c.Legible) (hzs : ∀ c ∈ zs, c.Legible) :
    join op (xs ++ [join op ys] ++ zs) = join op (xs ++ ys ++ zs) ∧
      ((∀ c, c ∈ xs ↔ c ∈ ys) → join op xs = join op ys) :=
  ⟨join_append_join_append hxs hys hzs, join_congr_mem hxs hys⟩

/-- An equality whose value looks like a conjunction, a group, and a neutral constant. -/
theorem join_assoc_comm_idem_of_repeated :
    let x := Clause.test (.equals false ['a'] "b && c".toList false)
    let y := Clause.group .and [.not (.test (.present ['b'])), x]
    let z := Clause.const false
    (∀ c ∈ [x, y, x], c.Legible) ∧ (∀ c ∈ [y, x], c.Legible) ∧ (∀ c ∈ [z], c.Legible) ∧
      (∀ c, c ∈ [x, y, x] ↔ c ∈ [y, x]) ∧
      join .or ([x, y, x] ++ [join .or [y, x]] ++ [z]) = join .or ([x, y, x] ++ [y, x] ++ [z]) ∧
      join .or [x, y, x] = join .or [y, x] := by
  intro x y z
  have hx : x.Legible :=
    ⟨.inr (.test _), all_test.mpr ⟨isWord_singleton (by decide) (by decide), by decide, rfl⟩⟩
  have hy : y.Legible := by
    refine ⟨.inr (.group (by decide) ?_ (by simp [x, connective?]) (by decide +kernel)), ?_⟩
    · simp only [List.forall_mem_cons]
      exact ⟨.not trivial, .test _, by simp⟩
    · simp only [y, all_group, List.forall_mem_cons, all_not, all_test]
      exact ⟨⟨isWord_singleton (by decide) (by decide), trivial⟩, hx.tests, by simp⟩
  have hz : z.Legible := ⟨canonical_const false, all_const⟩
  have hxs : ∀ c ∈ [x, y, x], c.Legible := by simp [hx, hy]
  have hys : ∀ c ∈ [y, x], c.Legible := by simp [hx, hy]
  have hzs : ∀ c ∈ [z], c.Legible := by simpa using hz
  have hmem : ∀ c, c ∈ [x, y, x] ↔ c ∈ [y, x] := by
    intro c
    simp only [List.mem_cons, List.not_mem_nil, or_false]
    constructor
    · rintro (h | h | h)
      exacts [.inr h, .inl h, .inr h]
    · rintro (h | h)
      exacts [.inr (.inl h), .inl h]
  have hlaws := join_assoc_comm_idem .or hxs hys hzs
  exact ⟨hxs, hys, hzs, hmem, hlaws.1, hlaws.2 hmem⟩

/-! ### Negation -/

/-- Negating twice gives the clause back. -/
lemma Legible.negate_negate (hc : c.Legible) : c.negate.negate = c := by
  induction c with
  | const b => simp [Clause.negate]
  | test t =>
    cases ht : t.opposite? with
    | none => simp [Clause.negate, ht]
    | some u => simp [Clause.negate, ht, Test.opposite?_opposite? ht]
  | not c _ =>
    cases hc.canonical.reduced rfl with
    | not ht => simp [Clause.negate, Test.opposite?_eq_none.mpr ht]
  | group op cs ih =>
    have hcs : ∀ c ∈ cs, c.Legible := fun c hmem => (hc.isReadable_of_mem hmem).legible
    have hnegated : ∀ c ∈ cs.map Clause.negate, c.Legible := by
      rw [List.forall_mem_map]
      exact fun c hmem => (hcs c hmem).negate
    have hback : (cs.map Clause.negate).map Clause.negate = cs := by
      rw [List.map_map]
      conv_rhs => rw [← List.map_id cs]
      exact List.map_congr_left fun c hmem => ih c hmem (hcs c hmem)
    calc (Clause.group op cs).negate.negate
        = (join op.dual (cs.map Clause.negate)).negate := by rw [Clause.negate, negateAll_eq_map]
      _ = join op.dual.dual ((cs.map Clause.negate).map Clause.negate) :=
          (distributes_negate op.dual).join hnegated
      _ = join op cs := by rw [hback, Connective.dual_dual]
      _ = Clause.group op cs :=
          (hc.canonical.reduced rfl).join_eq_self (hc.tests.imp fun _ ht => ht.key)

/-- Negation is an involution, and obeys De Morgan's laws. -/
theorem negate_negate_and_negate_join (op : Connective) (hc : c.Legible)
    (hcs : ∀ c ∈ cs, c.Legible) :
    c.negate.negate = c ∧ (join op cs).negate = join op.dual (cs.map negate) :=
  ⟨hc.negate_negate, (distributes_negate op).join hcs⟩

/-- A group in which negation changes the order of the operands, and operands of which two become
parts of one group. -/
theorem negate_negate_and_negate_join_of_groups :
    let a := Clause.test (.present ['a'])
    let b := Clause.test (.member false ['b'] ['c'])
    let c := Clause.group .and [a, .not (.test (.matching ['a'] "[/]".toList ['i'])), b]
    let cs := [Clause.group .or [a, b], .const false, b]
    c.Legible ∧ (∀ d ∈ cs, d.Legible) ∧ c.negate.negate = c ∧
      (join .or cs).negate = join .and (cs.map negate) := by
  intro a b c cs
  have ha : a.Legible :=
    ⟨.inr (.test _), all_test.mpr ⟨isWord_singleton (by decide) (by decide), trivial⟩⟩
  have hb : b.Legible := by
    refine ⟨.inr (.test _), all_test.mpr ⟨isWord_singleton (by decide) (by decide), ?_⟩⟩
    exact isWord_singleton (by decide) (by decide)
  have hc : c.Legible := by
    refine ⟨.inr (.group (by decide) ?_ (by simp [a, b, connective?]) (by decide +kernel)), ?_⟩
    · simp only [List.forall_mem_cons]
      exact ⟨.test _, .not trivial, .test _, by simp⟩
    · simp only [c, all_group, List.forall_mem_cons, all_not, all_test]
      refine ⟨ha.tests, ⟨isWord_singleton (by decide) (by decide), by decide, ?_⟩, hb.tests, by simp⟩
      exact List.all_eq_true.mp (by decide)
  have hcs : ∀ d ∈ cs, d.Legible := by
    have hgroup : (Clause.group .or [a, b]).Legible := by
      refine ⟨.inr (.group (by decide) ?_ (by simp [a, b, connective?]) (by decide +kernel)), ?_⟩
      · simp [a, b, Reduced.test]
      · simpa [all_group] using And.intro ha.tests hb.tests
    simp only [cs, List.forall_mem_cons]
    exact ⟨hgroup, ⟨canonical_const false, all_const⟩, hb, by simp⟩
  have hlaws := negate_negate_and_negate_join .or hc hcs
  exact ⟨hc, hcs, hlaws.1, hlaws.2⟩

end WhenClause.Clause
