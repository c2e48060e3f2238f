import Mathlib.Data.List.Destutter
import Mathlib.Data.List.Sort
import WhenClause.Clause.Order

/-!
# Arranged operands

Siblings are ordered by their sort keys, and `arrange` is insertion sort in this order followed by
the removal of neighbours with one text. An arranged list is strictly ascending, holds only given
operands and, for each of them, one with its text; a strictly ascending list without neighbours of
one text is arranged already.
-/

namespace WhenClause

/-! ### Sort keys -/

instance : Std.TransOrd SortKey :=
  inferInstanceAs (Std.TransCmp (compareLex (compareOn SortKey.rank)
    (compareLex (compareOn SortKey.key) (compareOn SortKey.text))))

lemma SortKey.eq_of_compare_eq {a b : SortKey} (h : compare a b = .eq) : a = b := by
  obtain ⟨hrank, h⟩ := Ordering.then_eq_eq.mp h
  obtain ⟨hkey, htext⟩ := Ordering.then_eq_eq.mp h
  have hrank : a.rank = b.rank := Std.LawfulEqOrd.eq_of_compare hrank
  have hkey : a.key = b.key := Std.LawfulEqOrd.eq_of_compare hkey
  have htext : a.text = b.text := Std.LawfulEqOrd.eq_of_compare htext
  cases a
  cases b
  simp_all

namespace Clause

variable {a b c : Clause} {cs : List Clause}

/-! ### The order of siblings -/

instance : Std.TransCmp compareSiblings := inferInstanceAs (Std.TransCmp (compareOn sortKey))

/-- Strictly before in the order of siblings. -/
def Precedes (a b : Clause) : Prop := compareSiblings a b = .lt

instance : DecidableRel Precedes := fun _ _ => inferInstanceAs (Decidable (_ = Ordering.lt))

/-- Not behind in the order of siblings. -/
def NotAfter (a b : Clause) : Prop := (compareSiblings a b).isLE = true

instance : DecidableRel NotAfter := fun _ _ => inferInstanceAs (Decidable (_ = true))

instance : IsTrans Clause Precedes := ⟨fun _ _ _ hab hbc => Std.TransCmp.lt_trans hab hbc⟩

instance : IsTrans Clause NotAfter := ⟨fun _ _ _ hab hbc => Std.TransCmp.isLE_trans hab hbc⟩

instance : Std.Total NotAfter where
  total a b := by
    have hswap : compareSiblings b a = (compareSiblings a b).swap := Std.OrientedCmp.eq_swap
    rw [NotAfter, NotAfter, hswap]
    cases compareSiblings a b <;> simp

lemma Precedes.notAfter (h : Precedes a b) : NotAfter a b := by
  rw [NotAfter, h]
  rfl

lemma NotAfter.precedes (h : NotAfter a b) (htext : a.text ≠ b.text) : Precedes a b := by
  rw [NotAfter] at h
  rw [Precedes]
  cases hab : compareSiblings a b with
  | lt => rfl
  | eq => exact absurd (congrArg SortKey.text (SortKey.eq_of_compare_eq hab)) htext
  | gt => simp [hab] at h

lemma Precedes.sortKey_ne (h : Precedes a b) : a.sortKey ≠ b.sortKey := by
  intro heq
  have hself : compareSiblings a b = .eq := by rw [compareSiblings, heq, Std.ReflOrd.compare_self]
  rw [Precedes, hself] at h
  cases h

/-! ### Arranging as sorting -/

/-- Having different texts. -/
def TextsDiffer (a b : Clause) : Prop := a.text ≠ b.text

instance : DecidableRel TextsDiffer := fun a b => inferInstanceAs (Decidable (a.text ≠ b.text))

/-- A clause with its sort key. -/
def keyed (c : Clause) : SortKey × Clause := (c.sortKey, c)

lemma insertSorted_keyed (c : Clause) (cs : List Clause) :
    insertSorted c.keyed (cs.map keyed) = (cs.orderedInsert NotAfter c).map keyed := by
  induction cs with
  | nil => rfl
  | cons d cs ih =>
    simp only [List.map_cons, insertSorted, List.orderedInsert_cons, ih]
    split_ifs with h h' h'
    · rfl
    · exact absurd h h'
    · exact absurd h' h
    · rfl

lemma foldr_insertSorted_keyed (cs : List Clause) :
    (cs.map keyed).foldr insertSorted [] = (cs.insertionSort NotAfter).map keyed := by
  induction cs with
  | nil => rfl
  | cons c cs ih => rw [List.map_cons, List.foldr_cons, ih, insertSorted_keyed,
      List.insertionSort_cons]

lemma dropRepeats_keyed (c : Clause) (cs : List Clause) :
    c :: (dropRepeats c.text (cs.map keyed)).map (·.2) = cs.destutter' TextsDiffer c := by
  induction cs generalizing c with
  | nil => rfl
  | cons d cs ih =>
    by_cases h : d.text = c.text
    · rw [List.destutter'_cons_neg _ (fun hne => hne h.symm), ← ih]
      simp [dropRepeats, keyed, sortKey, h]
    · rw [List.destutter'_cons_pos _ (fun heq => h heq.symm), ← ih]
      simp [dropRepeats, keyed, sortKey, h]

/-- Arranging is sorting and leaving out repeated texts. -/
lemma arrange_eq (cs : List Clause) :
    arrange cs = (cs.insertionSort NotAfter).destutter TextsDiffer := by
  have hsort := foldr_insertSorted_keyed cs
  rw [arrange]
  cases hcs : cs.insertionSort NotAfter with
  | nil =>
    rw [hcs] at hsort
    rw [show (cs.map fun c => (c.sortKey, c)).foldr insertSorted [] = [] from hsort]
    rfl
  | cons d ds =>
    rw [hcs] at hsort
    rw [show (cs.map fun c => (c.sortKey, c)).foldr insertSorted [] = _ from hsort]
    exact dropRepeats_keyed d ds

/-! ### What an arranged list holds -/

lemma mem_of_mem_arrange (h : c ∈ arrange cs) : c ∈ cs := by
  rw [arrange_eq] at h
  exact (List.mem_insertionSort _).mp ((List.destutter_sublist _ _).subset h)

lemma exists_text_destutter' (h : c ∈ a :: cs) :
    ∃ d ∈ cs.destutter' TextsDiffer a, d.text = c.text := by
  induction cs generalizing a with
  | nil => exact ⟨a, by simp, by simpa using congrArg text (List.mem_singleton.mp h).symm⟩
  | cons b cs ih =>
    by_cases hab : a.text = b.text
    · rw [List.destutter'_cons_neg _ (fun hne => hne hab)]
      rcases List.mem_cons.mp h with rfl | h
      · exact ih (List.mem_cons_self ..)
      · rcases List.mem_cons.mp h with rfl | h
        · exact ⟨a, List.mem_destutter' _ _ _, hab⟩
        · exact ih (List.mem_cons_of_mem _ h)
    · rw [List.destutter'_cons_pos _ hab]
      rcases List.mem_cons.mp h with rfl | h
      · exact ⟨c, List.mem_cons_self .., rfl⟩
      · obtain ⟨d, hd, htext⟩ := ih h
        exact ⟨d, List.mem_cons_of_mem _ hd, htext⟩

/-- Every operand is represented by one with its text. -/
lemma exists_text_arrange (h : c ∈ cs) : ∃ d ∈ arrange cs, d.text = c.text := by
  rw [arrange_eq]
  rw [← List.mem_insertionSort NotAfter] at h
  cases hcs : cs.insertionSort NotAfter with
  | nil => simp [hcs] at h
  | cons d ds =>
    rw [hcs] at h
    exact exists_text_destutter' h

/-- No neighbours in an arranged list have one text. -/
lemma isChain_arrange (cs : List Clause) : (arrange cs).IsChain TextsDiffer := by
  rw [arrange_eq]
  exact List.isChain_destutter TextsDiffer _

/-- An arranged list is strictly ascending. -/
lemma pairwise_arrange (cs : List Clause) : (arrange cs).Pairwise Precedes := by
  rw [arrange_eq]
  have hsorted := (List.pairwise_insertionSort NotAfter cs).sublist
    (List.destutter_sublist TextsDiffer _)
  have hdiffer := List.isChain_destutter TextsDiffer (cs.insertionSort NotAfter)
  rw [← List.isChain_iff_pairwise] at hsorted ⊢
  rw [List.isChain_iff_forall_rel_of_append_cons_cons] at hsorted hdiffer ⊢
  intro a b l₁ l₂ h
  exact (hsorted h).precedes (hdiffer h)

/-- Operands in order, of which no neighbours have one text, stay as they are. -/
lemma arrange_eq_self (hcs : cs.Pairwise Precedes) (hdiffer : cs.IsChain TextsDiffer) :
    arrange cs = cs := by
  have hsorted := hcs.imp Precedes.notAfter
  rw [arrange_eq, hsorted.insertionSort_eq, List.destutter_of_isChain _ _ hdiffer]

end Clause

end WhenClause
