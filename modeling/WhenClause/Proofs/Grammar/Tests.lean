import WhenClause.Proofs.Clause.Canonical
import WhenClause.Proofs.Grammar.Derivation

/-!
# The tests of a derivation

Each test of the clause that a derivation writes stands in its tokens as a key and what follows
it, one after the other.
-/

namespace WhenClause

namespace Grammar

open Clause

variable {P : Test → Prop} {ts us : List Token.Spaced}

/-- The tests that stand among some tokens have a property. -/
def TestsHave (P : Test → Prop) (ts : List Token.Spaced) : Prop :=
  ∀ (key : Tok .key) (tail : Tail), key.1 :: tail.tokens <:+: ts → P (tail.test key.1.lexeme)

lemma TestsHave.mono (h : TestsHave P ts) (hus : us <:+: ts) : TestsHave P us :=
  fun key tail htail => h key tail (htail.trans hus)

lemma TestsHave.left (h : TestsHave P (ts ++ us)) : TestsHave P ts :=
  h.mono (List.prefix_append ts us).isInfix

lemma TestsHave.right (h : TestsHave P (ts ++ us)) : TestsHave P us :=
  h.mono (List.suffix_append ts us).isInfix

lemma TestsHave.tail {t : Token.Spaced} (h : TestsHave P (t :: ts)) : TestsHave P ts :=
  h.mono (List.suffix_cons t ts).isInfix

lemma TestsHave.test {key : Tok .key} {tail : Tail} (h : TestsHave P (key.1 :: tail.tokens)) :
    P (tail.test key.1.lexeme) :=
  h key tail List.infix_rfl

lemma all_chain {op : Connective} {cs : List Clause} (h : ∀ c ∈ cs, c.All P) :
    (Interpretation.written.chain op cs).All P := by
  match cs, h with
  | [], h           => exact all_group.mpr h
  | [c], h          => exact h c (List.mem_singleton_self c)
  | c :: d :: cs, h => exact all_group.mpr h

lemma Negation.all_value (n : Negation) (h : TestsHave P n.tokens) : (n.value .written).All P := by
  induction n with
  | negation bang n ih => exact all_not.mpr (ih h.tail)
  | literal bang t => exact all_not.mpr all_const
  | test bang key tail => exact all_not.mpr (all_test.mpr h.tail.test)

mutual

lemma Disjunction.all_values (d : Disjunction) (h : TestsHave P d.tokens) :
    ∀ c ∈ d.values .written, c.All P := by
  match d with
  | .last c => simpa [Disjunction.values] using all_chain (c.all_values h)
  | .more c op d =>
    rw [Disjunction.tokens] at h
    simpa [Disjunction.values] using
      And.intro (all_chain (c.all_values h.left)) (d.all_values h.right.tail)

lemma Conjunction.all_values (c : Conjunction) (h : TestsHave P c.tokens) :
    ∀ d ∈ c.values .written, d.All P := by
  match c with
  | .last u => simpa [Conjunction.values] using u.all_value h
  | .more u op c =>
    rw [Conjunction.tokens] at h
    simpa [Conjunction.values] using And.intro (u.all_value h.left) (c.all_values h.right.tail)

lemma Unary.all_value (u : Unary) (h : TestsHave P u.tokens) : (u.value .written).All P := by
  match u with
  | .primary p => exact p.all_value h
  | .negation n => exact n.all_value h

lemma Primary.all_value (p : Primary) (h : TestsHave P p.tokens) :
    (p.value .written).All P := by
  match p with
  | .literal t => exact all_const
  | .test key tail => exact all_test.mpr h.test
  | .parens left d right =>
    rw [Primary.tokens] at h
    exact all_chain (d.all_values h.tail.left)

end

/-- The tests of what a derivation writes stand among its tokens. -/
lemma Disjunction.all_value (d : Disjunction) (h : TestsHave P d.tokens) :
    (d.value .written).All P :=
  all_chain (d.all_values h)

end Grammar

end WhenClause
