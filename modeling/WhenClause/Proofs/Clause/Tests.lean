import Mathlib.Data.Char
import Mathlib.Tactic.Common
import WhenClause.Constants

/-!
# The tests of a clause in canonical form

Flags are kept in strictly ascending order, and no test asks what a table of constant keys
answers.
-/

namespace WhenClause

namespace Test

variable {c d : Char} {flags : Text} {t u : Test} {K : Constants}

/-! ### Opposites -/

/-- The tests without opposite: of presence, of an order, and of a regex. -/
def IsOneSided : Test → Prop
  | present _ | compare .. | matching .. => True
  | equals .. | member ..                => False

lemma opposite?_eq_none {t : Test} : t.opposite? = none ↔ t.IsOneSided := by
  cases t <;> simp [opposite?, IsOneSided]

lemma key_eq_of_opposite? (h : t.opposite? = some u) : u.key = t.key := by
  cases t <;> cases h <;> rfl

/-! ### Flags -/

lemma mem_insertFlag : c ∈ insertFlag d flags ↔ c = d ∨ c ∈ flags := by
  induction flags with
  | nil => simp [insertFlag]
  | cons e flags ih =>
    rw [insertFlag]
    split_ifs with hlt heq
    · simp
    · simp [heq]
    · simp [ih, or_left_comm]

lemma pairwise_insertFlag (h : flags.Pairwise (· < ·)) :
    (insertFlag c flags).Pairwise (· < ·) := by
  induction flags with
  | nil => simp [insertFlag]
  | cons d flags ih =>
    obtain ⟨hd, hflags⟩ := List.pairwise_cons.mp h
    rw [insertFlag]
    split_ifs with hlt heq
    · refine List.pairwise_cons.mpr ⟨fun e he => ?_, h⟩
      rcases List.mem_cons.mp he with rfl | he
      · exact hlt
      · exact lt_trans hlt (hd e he)
    · exact h
    · refine List.pairwise_cons.mpr ⟨fun e he => ?_, ih hflags⟩
      rcases mem_insertFlag.mp he with rfl | he
      · exact lt_of_le_of_ne (not_lt.mp hlt) (Ne.symm heq)
      · exact hd e he

lemma pairwise_sortFlags (flags : Text) : (sortFlags flags).Pairwise (· < ·) := by
  induction flags with
  | nil => exact .nil
  | cons c flags ih => exact pairwise_insertFlag ih

lemma mem_sortFlags : c ∈ sortFlags flags ↔ c ∈ flags := by
  induction flags with
  | nil => rfl
  | cons d flags ih => rw [List.mem_cons, ← ih, ← mem_insertFlag, sortFlags, List.foldr_cons]; rfl

lemma sortFlags_of_pairwise (h : flags.Pairwise (· < ·)) : sortFlags flags = flags := by
  induction flags with
  | nil => rfl
  | cons c flags ih =>
    obtain ⟨hc, hflags⟩ := List.pairwise_cons.mp h
    have hsort : sortFlags (c :: flags) = insertFlag c (sortFlags flags) := rfl
    rw [hsort, ih hflags]
    cases flags with
    | nil => rfl
    | cons d flags => rw [insertFlag, if_pos (hc d (List.mem_cons_self ..))]

/-- The flags of a regex are in strictly ascending order. -/
def FlagsAscend : Test → Prop
  | matching _ _ flags => flags.Pairwise (· < ·)
  | _                  => True

lemma flagsAscend_of_opposite? (h : t.opposite? = some u) : u.FlagsAscend := by
  cases t <;> cases h <;> trivial

/-! ### Constant keys -/

/-- A table of constant keys does not settle the test. -/
def IsOpen (K : Constants) : Test → Prop
  | present key | equals _ key _ _ => K.get? key = none
  | _                              => True

lemma IsOpen.of_opposite? (ht : t.IsOpen K) (h : t.opposite? = some u) : u.IsOpen K := by
  cases t <;> cases h <;> exact ht

lemma settle_of_isOpen (ht : t.IsOpen K) : K.settle t = .test t := by
  cases t with
  | present key | equals negated key value foldCase =>
    have hkey : K.get? key = none := ht
    simp [Constants.settle, hkey]
  | compare op key operand | matching key pattern flags | member negated key target => rfl

/-- A test is settled or stays. -/
lemma settle_eq_const_or (K : Constants) (t : Test) :
    (∃ b, K.settle t = .const b) ∨ K.settle t = .test t ∧ t.IsOpen K := by
  cases t with
  | present key | equals negated key value foldCase =>
    cases hkey : K.get? key with
    | none => exact .inr ⟨settle_of_isOpen hkey, hkey⟩
    | some b => exact .inl ⟨_, by simp only [Constants.settle, hkey]; rfl⟩
  | compare op key operand | matching key pattern flags | member negated key target =>
    exact .inr ⟨rfl, trivial⟩

end Test

end WhenClause
