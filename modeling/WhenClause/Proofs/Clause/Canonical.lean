import WhenClause.Proofs.Clause.Order
import WhenClause.Proofs.Clause.Tests

/-!
# The canonical form

A canonical clause is a constant, or holds none and is *reduced*: its groups have at least two
operands, none of them a group of the same connective, in strictly ascending order, and a negation
stands over a test without opposite only. `join`, `negate` and `normalize` give canonical clauses,
and their tests are tests of what they were given, or the opposites of those.
-/

namespace WhenClause

namespace Clause

/-- Induction on the tree of a clause. -/
@[elab_as_elim, induction_eliminator]
theorem induction {motive : Clause → Prop} (const : ∀ b, motive (.const b))
    (test : ∀ t, motive (.test t)) (not : ∀ c, motive c → motive (.not c))
    (group : ∀ op cs, (∀ c ∈ cs, motive c) → motive (.group op cs)) (c : Clause) : motive c :=
  match c with
  | .const b     => const b
  | .test t      => test t
  | .not c       => not c (induction const test not group c)
  | .group op cs => group op cs fun c _ => induction const test not group c

/-- The connective of a group. -/
def connective? : Clause → Option Connective
  | group op _ => some op
  | _          => none

variable {op : Connective} {b : Bool} {t : Test} {c d : Clause} {cs : List Clause}
  {K : Constants}

/-! ### Parts -/

/-- The clauses that a clause is made of, itself included. -/
inductive IsPart : Clause → Clause → Prop
  | refl (c : Clause) : IsPart c c
  | not {c d : Clause} (h : IsPart c d) : IsPart c (.not d)
  | group {c d : Clause} {op : Connective} {cs : List Clause} (hd : d ∈ cs) (h : IsPart c d) :
    IsPart c (.group op cs)

/-- Every test of a clause has a property. -/
def All (P : Test → Prop) (c : Clause) : Prop := ∀ t, IsPart (.test t) c → P t

section All

variable {P Q : Test → Prop}

@[simp] lemma all_const : (const b).All P := by
  intro t h
  cases h

@[simp] lemma all_test : (test t).All P ↔ P t := by
  constructor
  · intro h
    exact h t (.refl _)
  · rintro h u hu
    cases hu
    exact h

@[simp] lemma all_not : (not c).All P ↔ c.All P := by
  constructor
  · intro h t ht
    exact h t ht.not
  · rintro h t (_ | ht)
    exact h t ht

@[simp] lemma all_group : (group op cs).All P ↔ ∀ c ∈ cs, c.All P := by
  constructor
  · intro h c hc t ht
    exact h t (ht.group hc)
  · rintro h t (_ | _ | ⟨hc, ht⟩)
    exact h _ hc t ht

lemma All.imp (h : c.All P) (hPQ : ∀ t, P t → Q t) : c.All Q := fun t ht => hPQ t (h t ht)

end All

/-! ### Joining in steps -/

/-- What an operand contributes to a group of a connective. -/
def splice (op : Connective) : Clause → List Clause
  | const _           => []
  | group op' children => if op' = op then children else [group op' children]
  | c                 => [c]

/-- Operands in order as a clause. -/
def bundle (op : Connective) : List Clause → Clause
  | []  => const op.unit
  | [c] => c
  | cs  => group op cs

lemma gather?_eq (op : Connective) (cs : List Clause) :
    gather? op cs = if const (!op.unit) ∈ cs then none else some (cs.flatMap (splice op)) := by
  induction cs with
  | nil => rfl
  | cons c cs ih =>
    cases c with
    | const b =>
      by_cases hb : b = op.unit
      · simp [gather?, ih, splice, hb]
      · have hb : b = !op.unit := by cases b <;> cases h : op.unit <;> simp_all
        simp [gather?, hb]
    | test t | not c =>
      simp only [gather?, ih]
      split_ifs <;> simp_all [splice]
    | group op' children =>
      simp only [gather?, ih]
      split_ifs <;> simp_all [splice]

lemma join_eq (op : Connective) (cs : List Clause) :
    join op cs = if const (!op.unit) ∈ cs then const (!op.unit)
      else bundle op (arrange (cs.flatMap (splice op))) := by
  rw [join, gather?_eq]
  split_ifs with h
  · rfl
  · dsimp only
    split <;> simp_all [bundle]

/-! ### The form -/

/-- In canonical form and no constant. -/
inductive Reduced : Clause → Prop
  | test (t : Test) : Reduced (.test t)
  | not {t : Test} (h : t.IsOneSided) : Reduced (.not (.test t))
  | group {op : Connective} {cs : List Clause} (size : 2 ≤ cs.length)
    (reduced : ∀ c ∈ cs, Reduced c) (flat : ∀ c ∈ cs, c.connective? ≠ some op)
    (ordered : cs.Pairwise Precedes) : Reduced (.group op cs)

/-- In canonical form. -/
def Canonical (c : Clause) : Prop := (∃ b, c = const b) ∨ c.Reduced

lemma canonical_const (b : Bool) : (const b).Canonical := .inl ⟨b, rfl⟩

lemma Reduced.canonical (h : c.Reduced) : c.Canonical := .inr h

lemma Reduced.ne_const (h : c.Reduced) (b : Bool) : c ≠ const b := by
  rintro rfl
  cases h

lemma Canonical.reduced (hc : c.Canonical) (hconst : c.isConst = false) : c.Reduced := by
  rcases hc with ⟨b, rfl⟩ | hreduced
  · cases hconst
  · exact hreduced

lemma Canonical.of_mem_splice (hc : c.Canonical) (hd : d ∈ splice op c) :
    d.Reduced ∧ d.connective? ≠ some op := by
  rcases hc with ⟨b, rfl⟩ | hc
  · simp [splice] at hd
  cases hc with
  | test t =>
    obtain rfl := List.mem_singleton.mp hd
    exact ⟨.test t, by simp [connective?]⟩
  | not h =>
    obtain rfl := List.mem_singleton.mp hd
    exact ⟨.not h, by simp [connective?]⟩
  | @group op' cs size reduced flat ordered =>
    by_cases hop : op' = op
    · subst hop
      have hd : d ∈ cs := by simpa [splice] using hd
      exact ⟨reduced d hd, flat d hd⟩
    · have hd : d = group op' cs := by simpa [splice, hop] using hd
      subst hd
      exact ⟨.group size reduced flat ordered, by simpa [connective?] using hop⟩

lemma canonical_bundle (hcs : ∀ c ∈ cs, c.Reduced ∧ c.connective? ≠ some op)
    (ordered : cs.Pairwise Precedes) : (bundle op cs).Canonical := by
  match cs, hcs, ordered with
  | [], _, _ => exact canonical_const _
  | [c], hcs, _ => exact (hcs c (by simp)).1.canonical
  | c :: d :: cs, hcs, ordered =>
    exact .inr (.group (by simp) (fun e he => (hcs e he).1) (fun e he => (hcs e he).2) ordered)

/-- Joining keeps the canonical form. -/
lemma canonical_join (hcs : ∀ c ∈ cs, c.Canonical) : (join op cs).Canonical := by
  rw [join_eq]
  split_ifs
  · exact canonical_const _
  · refine canonical_bundle (fun d hd => ?_) (pairwise_arrange _)
    obtain ⟨c, hc, hd⟩ := List.mem_flatMap.mp (mem_of_mem_arrange hd)
    exact (hcs c hc).of_mem_splice hd

lemma Reduced.canonical_negate (hc : c.Reduced) : c.negate.Canonical := by
  induction hc with
  | test t =>
    rw [negate]
    split
    · exact .inr (.test _)
    · rename_i h
      exact .inr (.not (Test.opposite?_eq_none.mp h))
  | not h => exact .inr (.test _)
  | group _ _ _ _ ih =>
    rw [negate, negateAll_eq_map]
    apply canonical_join
    rw [List.forall_mem_map]
    exact ih

/-- Negation keeps the canonical form. -/
lemma Canonical.negate (hc : c.Canonical) : c.negate.Canonical := by
  rcases hc with ⟨b, rfl⟩ | hc
  · exact canonical_const _
  · exact hc.canonical_negate

lemma canonical_settle (K : Constants) (t : Test) : (K.settle t).Canonical := by
  rcases t.settle_eq_const_or K with ⟨b, hconst⟩ | ⟨htest, -⟩
  · rw [hconst]
    exact canonical_const b
  · rw [htest]
    exact .inr (.test t)

lemma normalizeAll_eq_map (K : Constants) (cs : List Clause) :
    normalizeAll K cs = cs.map (normalize K) := by
  induction cs with
  | nil => rfl
  | cons c cs ih => simp [normalizeAll, ih]

/-- Every clause has a canonical form. -/
lemma canonical_normalize (K : Constants) (c : Clause) : (c.normalize K).Canonical := by
  induction c with
  | const b => exact canonical_const b
  | test t => exact canonical_settle K t
  | not c ih => exact ih.negate
  | group op cs ih =>
    rw [normalize, normalizeAll_eq_map]
    apply canonical_join
    rw [List.forall_mem_map]
    exact ih

/-! ### The tests of what is built -/

section All

variable {P Q : Test → Prop}

lemma All.of_mem_splice (hc : c.All P) (hd : d ∈ splice op c) : d.All P := by
  cases c with
  | const b => simp [splice] at hd
  | test t | not c =>
    obtain rfl := List.mem_singleton.mp hd
    exact hc
  | group op' cs =>
    by_cases hop : op' = op
    · exact all_group.mp hc d (by simpa [splice, hop] using hd)
    · have hd : d = group op' cs := by simpa [splice, hop] using hd
      exact hd ▸ hc

lemma all_bundle (hcs : ∀ c ∈ cs, c.All P) : (bundle op cs).All P := by
  match cs, hcs with
  | [], _ => exact all_const
  | [c], hcs => exact hcs c (by simp)
  | c :: d :: cs, hcs => exact all_group.mpr hcs

lemma all_join (hcs : ∀ c ∈ cs, c.All P) : (join op cs).All P := by
  rw [join_eq]
  split_ifs
  · exact all_const
  · apply all_bundle
    intro d hd
    obtain ⟨c, hc, hd⟩ := List.mem_flatMap.mp (mem_of_mem_arrange hd)
    exact (hcs c hc).of_mem_splice hd

variable (hP : ∀ t u : Test, t.opposite? = some u → P t → P u)
include hP

lemma All.negate (hc : c.All P) : c.negate.All P := by
  induction c with
  | const b => exact all_const
  | test t =>
    rw [Clause.negate]
    split
    · rename_i u hu
      exact all_test.mpr (hP t u hu (all_test.mp hc))
    · exact all_not.mpr hc
  | not c _ => exact all_not.mp hc
  | group op cs ih =>
    rw [Clause.negate, negateAll_eq_map]
    apply all_join
    rw [List.forall_mem_map]
    intro c hmem
    exact ih c hmem (all_group.mp hc c hmem)

lemma all_normalize (hc : c.All fun t => (K.settle t).All P) : (c.normalize K).All P := by
  induction c with
  | const b => exact all_const
  | test t => exact all_test.mp hc
  | not c ih => exact (ih (all_not.mp hc)).negate hP
  | group op cs ih =>
    rw [normalize, normalizeAll_eq_map]
    apply all_join
    rw [List.forall_mem_map]
    intro c hmem
    exact ih c hmem (all_group.mp hc c hmem)

/-- A property of tests that opposites share is carried over to the canonical form, whose tests
are open. -/
lemma all_normalize_of_all (hc : c.All P) :
    (c.normalize K).All fun t => P t ∧ t.IsOpen K := by
  have hboth : ∀ t u : Test, t.opposite? = some u → P t ∧ t.IsOpen K → P u ∧ u.IsOpen K :=
    fun t u h ht => ⟨hP t u h ht.1, ht.2.of_opposite? h⟩
  refine all_normalize hboth (hc.imp fun t ht => ?_)
  rcases t.settle_eq_const_or K with ⟨b, hconst⟩ | ⟨htest, hopen⟩
  · rw [hconst]
    exact all_const
  · rw [htest]
    exact all_test.mpr ⟨ht, hopen⟩

end All

end Clause

end WhenClause
