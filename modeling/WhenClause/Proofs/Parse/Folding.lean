import WhenClause.Proofs.Clause.Laws
import WhenClause.Proofs.Parse.Meaning

/-!
# Folding constant keys afterwards

Constant keys can be folded while a text is parsed, or later into the clause that was parsed
without any: the tests that the table answers give way to their answers, and the clause is built
anew. Both ways give the same clause, and the same errors.
-/

namespace WhenClause

open Grammar

namespace Clause

mutual

/-- The clause with other clauses in the place of its tests. -/
def replace (f : Test → Clause) : Clause → Clause
  | .const b           => .const b
  | .test t            => f t
  | .not c             => .not (c.replace f)
  | .group op children => .group op (replaceAll f children)

/-- The clauses with other clauses in the place of their tests. -/
def replaceAll (f : Test → Clause) : List Clause → List Clause
  | []      => []
  | c :: cs => c.replace f :: replaceAll f cs

end

/-- The clause built anew from its tests by `negate` and `join`. -/
def rebuild (c : Clause) : Clause := c.normalize .empty

/-- A table of constant keys folded into a clause: the tests that it answers are replaced by their
answers, and the clause is built anew. -/
def fold (K : Constants) (c : Clause) : Clause := (c.replace K.settle).rebuild

variable {c : Clause} {K : Constants} {input : Text}

lemma replaceAll_eq_map (f : Test → Clause) (cs : List Clause) :
    replaceAll f cs = cs.map (replace f) := by
  induction cs with
  | nil => rfl
  | cons c cs ih => simp [replaceAll, ih]

lemma settle_empty (t : Test) : Constants.empty.settle t = test t := by
  cases t <;> rfl

lemma rebuild_settle (K : Constants) (t : Test) : (K.settle t).rebuild = K.settle t := by
  rcases t.settle_eq_const_or K with ⟨b, hconst⟩ | ⟨htest, -⟩
  · rw [hconst]
    rfl
  · rw [htest, rebuild, normalize, settle_empty]

/-- Folding a table into a clause is normalizing under the table. -/
lemma fold_eq_normalize (K : Constants) (c : Clause) : c.fold K = c.normalize K := by
  induction c with
  | const b => rfl
  | test t => exact rebuild_settle K t
  | not c ih => exact congrArg negate ih
  | group op cs ih =>
    rw [fold, rebuild, replace, replaceAll_eq_map, normalize, normalizeAll_eq_map, List.map_map,
      normalize, normalizeAll_eq_map]
    apply congrArg (join op)
    exact List.map_congr_left ih

end Clause

end WhenClause
