import WhenClause.Proofs.Parse.Folding

/-!
# Building anew what was built

A clause that was built from its tests by `negate` and `join` is built anew as itself, from whatever
tree it was built (`Clause.rebuild_rebuild`): these clauses are the canonical ones whose groups have
no neighbours of one text (`Clause.rebuild_eq_self_iff`). What is parsed is among them.
-/

namespace WhenClause.Clause

variable {c e : Clause}

@[simp] lemma rebuild_const (b : Bool) : (const b).rebuild = const b := rfl

@[simp] lemma rebuild_test (t : Test) : (test t).rebuild = test t := settle_empty t

@[simp] lemma rebuild_not (c : Clause) : (not c).rebuild = c.rebuild.negate := rfl

@[simp] lemma rebuild_group (op : Connective) (cs : List Clause) :
    (group op cs).rebuild = join op (cs.map rebuild) := by
  rw [rebuild, normalize, normalizeAll_eq_map]
  rfl

lemma isOpen_empty (t : Test) : t.IsOpen .empty := by
  cases t <;> first | rfl | trivial

/-- The clauses that are built anew as themselves. -/
lemma rebuild_eq_self_iff : c.rebuild = c ↔ c.Canonical ∧ c.NeighborsDiffer := by
  constructor
  · intro h
    rw [← h]
    exact ⟨canonical_normalize _ c, neighborsDiffer_normalize _ c⟩
  · rintro ⟨hcanonical, hdiffer⟩
    rcases hcanonical with ⟨b, rfl⟩ | hreduced
    · exact rebuild_const b
    · exact hreduced.normalize_of_neighborsDiffer hdiffer fun t _ => isOpen_empty t

/-- What is normalized, under any table of constant keys, is built anew as itself. -/
lemma rebuild_normalize (K : Constants) (c : Clause) : (c.normalize K).rebuild = c.normalize K :=
  rebuild_eq_self_iff.mpr ⟨canonical_normalize K c, neighborsDiffer_normalize K c⟩

/-- Building a clause anew twice is building it anew once, for any tree whatever; and a clause that
was parsed is built anew as itself. -/
theorem rebuild_rebuild :
    (∀ c : Clause, c.rebuild.rebuild = c.rebuild) ∧
    ∀ (K : Constants) (input : Text) (e : Clause), Clause.parse K input = .ok e → e.rebuild = e := by
  constructor
  · intro c
    exact rebuild_normalize .empty c
  · intro K input e h
    obtain ⟨-, d, -, rfl⟩ := parse_eq_ok_iff.mp h
    exact rebuild_normalize K (d.value .written)

/-- A tree with a key whose name is the text of an equality, a doubled negation, an empty group and a
group of one, and a text with a repeated operand and a constant key. -/
theorem rebuild_rebuild_of_named_equality :
    let x := test (.equals false ['x'] ['y'] true)
    let y := test (.present "x == 'y'".toList)
    let z := not (test (.present ['z']))
    let c := group .or [x, not (not z), group .or [y], group .or [], x]
    let e := group .or [test (.present ['a']), group .and [test (.present ['b']), z]]
    x.text = y.text ∧ c.rebuild = group .or [y, z, x] ∧ c.rebuild.rebuild = c.rebuild ∧
      Clause.parse .host "!z&&b||a||isMac||a".toList = .ok e ∧ e.rebuild = e := by
  intro x y z c e
  have h : Clause.parse .host "!z&&b||a||isMac||a".toList = .ok e := by decide +kernel
  exact ⟨by decide +kernel, by decide +kernel, rebuild_rebuild.1 c, h,
    rebuild_rebuild.2 .host _ e h⟩

end WhenClause.Clause
