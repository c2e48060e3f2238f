import WhenClause.Proofs.Clause.Readability
import WhenClause.Proofs.Grammar.Derivation

/-!
# What a clause means

A valuation gives every test a truth value, and so every clause. Normalizing keeps the value of a
clause whose tests can be told from their texts: repetitions are found by text, and readable
operands of one text are one operand.
-/

namespace WhenClause

/-- Truth values for the questions that tests ask. -/
structure Valuation where
  present : (key : Text) → Bool
  equals : (key value : Text) → (foldCase : Bool) → Bool
  compare : Comparator → (key : Text) → Operand → Bool
  matching : (key pattern flags : Text) → Bool
  member : (key target : Text) → Bool

namespace Valuation

/-- The truth value of a test; a negated test has the opposite one. -/
def test (v : Valuation) : Test → Bool
  | .present key                       => v.present key
  | .equals negated key value foldCase => v.equals key value foldCase != negated
  | .compare op key operand            => v.compare op key operand
  | .matching key pattern flags        => v.matching key pattern flags
  | .member negated key target         => v.member key target != negated

/-- A valuation agrees with a table of constant keys: each of them is its value, and equals the
word for that value only. -/
def Agrees (v : Valuation) (K : Constants) : Prop :=
  ∀ key b, K.get? key = some b →
    v.present key = b ∧ ∀ value, v.equals key value false = decide (value = Constants.word b)

/-- Some valuation agrees with a table. -/
lemma exists_agrees (K : Constants) : ∃ v : Valuation, v.Agrees K := by
  refine ⟨⟨fun key => (K.get? key).getD false,
    fun key value _ => decide (some value = (K.get? key).map Constants.word),
    fun _ _ _ => false, fun _ _ _ => false, fun _ _ => false⟩, fun key b hkey => ?_⟩
  simp [hkey]

variable {v : Valuation} {t u : Test}

lemma test_opposite? (h : t.opposite? = some u) : v.test u = !v.test t := by
  cases t with
  | present key | compare op key operand | matching key pattern flags => cases h
  | equals negated key value foldCase =>
    obtain rfl := Option.some.inj h
    simp [test]
  | member negated key target =>
    obtain rfl := Option.some.inj h
    simp [test]

end Valuation

/-- A connective of truth values. -/
def Connective.combine : Connective → List Bool → Bool
  | and, bs => bs.all id
  | or, bs  => bs.any id

/-- The truth of what clauses are made of. -/
def Grammar.Interpretation.truth (v : Valuation) : Interpretation Bool where
  const b := b
  test := v.test
  not b := !b
  group := Connective.combine

namespace Clause

mutual

/-- The truth value of a clause. -/
def holds (v : Valuation) : Clause → Bool
  | .const b     => b
  | .test t      => v.test t
  | .not c       => !c.holds v
  | .group op cs => op.combine (holdsAll v cs)

/-- The truth values of some clauses. -/
def holdsAll (v : Valuation) : List Clause → List Bool
  | []      => []
  | c :: cs => c.holds v :: holdsAll v cs

end

end Clause

/-! ### Connectives of truth values -/

namespace Connective

variable {op : Connective} {as bs : List Bool}

/-- A connective has the value that decides it exactly when an operand has. -/
lemma combine_eq_iff : op.combine bs = (!op.unit) ↔ (!op.unit) ∈ bs := by
  cases op with
  | and => simp [combine, unit]
  | or => simp [combine, unit]

lemma combine_congr (h : (!op.unit) ∈ as ↔ (!op.unit) ∈ bs) : op.combine as = op.combine bs := by
  have heq := combine_eq_iff.trans (h.trans combine_eq_iff.symm)
  cases hunit : op.unit <;> cases has : op.combine as <;> cases hbs : op.combine bs <;> simp_all

lemma combine_singleton (op : Connective) (b : Bool) : op.combine [b] = b := by
  cases op <;> simp [combine]

lemma combine_dual_map_not (op : Connective) (bs : List Bool) :
    op.dual.combine (bs.map (!·)) = !op.combine bs := by
  cases op with
  | and => simp [combine, dual, List.not_all_eq_any_not]
  | or => simp [combine, dual, List.not_any_eq_all_not]

end Connective

namespace Clause

variable {v : Valuation} {op : Connective} {c d : Clause} {cs : List Clause} {K : Constants}

/-! ### Truth values of clauses -/

@[simp] lemma holdsAll_eq_map (v : Valuation) (cs : List Clause) :
    holdsAll v cs = cs.map (holds v) := by
  induction cs with
  | nil => rfl
  | cons c cs ih => simp [holdsAll, ih]

/-- The truth of a clause is the truth of what it is made of. -/
lemma isTranslation_holds (v : Valuation) :
    Grammar.Interpretation.written.IsTranslation (.truth v) (holds v) where
  const _ := rfl
  test _ := rfl
  not _ := rfl
  group op cs := by
    rw [Grammar.Interpretation.written, holds, holdsAll_eq_map]
    rfl

lemma holds_bundle (op : Connective) (cs : List Clause) :
    (bundle op cs).holds v = op.combine (cs.map (holds v)) := by
  match cs with
  | []           => cases op <;> rfl
  | [c]          => exact (op.combine_singleton _).symm
  | c :: d :: cs => simp [bundle, holds]

/-- Leaving out operands whose text is repeated keeps the value. -/
lemma combine_arrange (op : Connective) (hcs : ∀ c ∈ cs, c.IsReadable) :
    op.combine ((arrange cs).map (holds v)) = op.combine (cs.map (holds v)) := by
  apply Connective.combine_congr
  rw [List.mem_map, List.mem_map]
  constructor
  · rintro ⟨c, hc, hholds⟩
    exact ⟨c, mem_of_mem_arrange hc, hholds⟩
  · rintro ⟨c, hc, hholds⟩
    obtain ⟨d, hd, htext⟩ := exists_text_arrange hc
    obtain rfl := (hcs d (mem_of_mem_arrange hd)).eq_of_text_eq (hcs c hc) htext
    exact ⟨d, hd, hholds⟩

/-- What an operand contributes decides a group exactly when the operand does. -/
lemma exists_mem_splice (hc : c ≠ const (!op.unit)) :
    (∃ d ∈ splice op c, d.holds v = !op.unit) ↔ c.holds v = !op.unit := by
  cases c with
  | const b =>
    have hb : b ≠ !op.unit := fun h => hc (by rw [h])
    simp [splice, holds, hb]
  | test t | not c => simp [splice]
  | group op' children =>
    by_cases hop : op' = op
    · subst hop
      simp [splice, holds, Connective.combine_eq_iff]
    · simp [splice, hop]

/-- Joining means combining. -/
lemma holds_join (hcs : ∀ c ∈ cs, c.Canonical) (htests : ∀ c ∈ cs, c.All Test.IsReadable) :
    (join op cs).holds v = op.combine (cs.map (holds v)) := by
  rw [join_eq]
  split_ifs with hdecided
  · symm
    exact Connective.combine_eq_iff.mpr (List.mem_map_of_mem hdecided)
  · have hreadable : ∀ d ∈ cs.flatMap (splice op), d.IsReadable := by
      intro d hd
      obtain ⟨c, hc, hd⟩ := List.mem_flatMap.mp hd
      exact ⟨((hcs c hc).of_mem_splice hd).1, (htests c hc).of_mem_splice hd⟩
    rw [holds_bundle, combine_arrange op hreadable]
    apply Connective.combine_congr
    have hsplice : ∀ c ∈ cs, (∃ d ∈ splice op c, d.holds v = !op.unit) ↔ c.holds v = !op.unit :=
      fun c hc => exists_mem_splice fun h => hdecided (h ▸ hc)
    simp only [List.mem_map, List.mem_flatMap]
    constructor
    · rintro ⟨d, ⟨c, hc, hd⟩, hholds⟩
      exact ⟨c, hc, (hsplice c hc).mp ⟨d, hd, hholds⟩⟩
    · rintro ⟨c, hc, hholds⟩
      obtain ⟨d, hd, hholds⟩ := (hsplice c hc).mpr hholds
      exact ⟨d, ⟨c, hc, hd⟩, hholds⟩

lemma Canonical.of_mem_group (h : (Clause.group op cs).Canonical) (hc : c ∈ cs) :
    c.Canonical := by
  cases h.reduced rfl with
  | group _ reduced _ _ => exact (reduced c hc).canonical

/-- The negation of a canonical clause has the opposite value. -/
lemma holds_negate (hc : c.Canonical) (htests : c.All Test.IsReadable) :
    c.negate.holds v = !c.holds v := by
  induction c with
  | const b => rfl
  | test t =>
    rw [negate]
    split
    · rename_i u hu
      exact Valuation.test_opposite? hu
    · rfl
  | not c _ => simp [negate, holds]
  | group op cs ih =>
    have hcanonical : ∀ c ∈ cs, c.Canonical := fun c hmem => hc.of_mem_group hmem
    have htests := all_group.mp htests
    rw [negate, negateAll_eq_map, holds_join, List.map_map]
    · have hmap : cs.map (holds v ∘ negate) = (cs.map (holds v)).map (!·) := by
        rw [List.map_map]
        exact List.map_congr_left fun c hmem => ih c hmem (hcanonical c hmem) (htests c hmem)
      rw [hmap, Connective.combine_dual_map_not, holds, holdsAll_eq_map]
    · rw [List.forall_mem_map]
      intro c hmem
      exact (hcanonical c hmem).negate
    · rw [List.forall_mem_map]
      intro c hmem
      exact (htests c hmem).negate fun t u => Test.IsReadable.of_opposite?

/-- A settled test has its value in every valuation that agrees with the table. -/
lemma holds_settle {t : Test} (ht : t.IsReadable) (hv : v.Agrees K) :
    (K.settle t).holds v = v.test t := by
  rcases t.settle_eq_const_or K with ⟨b, hconst⟩ | ⟨htest, -⟩
  · cases t with
    | present key =>
      cases hkey : K.get? key with
      | none => simp [Constants.settle, hkey] at hconst
      | some b' => simp [Constants.settle, hkey, holds, Valuation.test, (hv key b' hkey).1]
    | equals negated key value fold =>
      obtain rfl : fold = false := ht.right.2
      cases hkey : K.get? key with
      | none => simp [Constants.settle, hkey] at hconst
      | some b' => simp [Constants.settle, hkey, holds, Valuation.test, (hv key b' hkey).2]
    | compare op key operand | matching key pattern flags | member negated key target =>
      cases hconst
  · rw [htest]
    rfl

lemma all_isReadable_normalize (K : Constants) (hc : c.All Test.IsReadable) :
    (c.normalize K).All Test.IsReadable :=
  (all_normalize_of_all (fun _ _ => Test.IsReadable.of_opposite?) hc).imp fun _ ht => ht.1

/-- The canonical form of a clause has the value of the clause. -/
theorem holds_normalize (hc : c.All Test.IsReadable) (hv : v.Agrees K) :
    (c.normalize K).holds v = c.holds v := by
  induction c with
  | const b => rfl
  | test t => exact holds_settle (all_test.mp hc) hv
  | not c ih =>
    have hc := all_not.mp hc
    rw [normalize, holds_negate (canonical_normalize K c) (all_isReadable_normalize K hc), ih hc,
      holds]
  | group op cs ih =>
    have hc := all_group.mp hc
    rw [normalize, normalizeAll_eq_map, holds_join, List.map_map, holds, holdsAll_eq_map]
    · exact congrArg op.combine (List.map_congr_left fun c hmem => ih c hmem (hc c hmem))
    · rw [List.forall_mem_map]
      intro c _
      exact canonical_normalize K c
    · rw [List.forall_mem_map]
      intro c hmem
      exact all_isReadable_normalize K (hc c hmem)

end Clause

end WhenClause
