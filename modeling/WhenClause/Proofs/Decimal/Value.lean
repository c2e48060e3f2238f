import Mathlib.Algebra.Order.Field.Rat
import Mathlib.Tactic.Positivity
import Mathlib.Tactic.Ring
import WhenClause.Proofs.Decimal.Spelling

/-!
# The value of a decimal number

A decimal number stands for a rational. Its normal form stands for the same one, and numbers in
normal form that stand for one rational are the same number (`normalize_eq_normalize_iff`), so that
they are also written in the same way (`toText_eq_toText_iff`).
-/

namespace WhenClause.Decimal

/-- The rational that a number stands for. -/
def toRat (d : Decimal) : ℚ := d.toInt / 10 ^ d.scale

/-- No digit after the point can be dropped, and zero has no sign. -/
structure IsNormal (d : Decimal) : Prop where
  scale : d.scale = 0 ∨ d.coeff % 10 ≠ 0
  sign : d.coeff = 0 → d.negative = false

variable {d e : Decimal}

/-! ### The normal form -/

lemma dropZeros_isLast (coeff scale : Nat) :
    (dropZeros coeff scale).2 = 0 ∨ (dropZeros coeff scale).1 % 10 ≠ 0 := by
  fun_induction dropZeros coeff scale with
  | case1 => exact .inl rfl
  | case2 _ _ _ ih => exact ih
  | case3 _ _ h => exact .inr h

lemma isNormal_normalize (d : Decimal) : d.normalize.IsNormal := by
  rw [normalize]
  split_ifs with hzero
  · exact ⟨.inl rfl, fun _ => rfl⟩
  · exact ⟨dropZeros_isLast _ _, fun h => absurd h (dropZeros_ne_zero hzero)⟩

/-- As many zeros are dropped as the scale gets smaller. -/
lemma exists_dropped (coeff scale : Nat) : ∃ count,
    coeff = (dropZeros coeff scale).1 * 10 ^ count ∧ scale = (dropZeros coeff scale).2 + count := by
  fun_induction dropZeros coeff scale with
  | case1 => exact ⟨0, by simp, rfl⟩
  | case2 coeff scale hmod ih =>
    obtain ⟨count, hcoeff, hscale⟩ := ih
    refine ⟨count + 1, ?_, by omega⟩
    rw [pow_succ, ← mul_assoc, ← hcoeff]
    omega
  | case3 => exact ⟨0, by simp, rfl⟩

/-! ### Values -/

lemma natAbs_toInt (d : Decimal) : d.toInt.natAbs = d.coeff := by
  rw [toInt]
  split_ifs <;> simp

lemma toRat_eq_toRat_iff :
    d.toRat = e.toRat ↔ d.toInt * 10 ^ e.scale = e.toInt * 10 ^ d.scale := by
  rw [toRat, toRat, div_eq_div_iff (by positivity) (by positivity)]
  exact_mod_cast Iff.rfl

@[simp] lemma toRat_normalize (d : Decimal) : d.normalize.toRat = d.toRat := by
  rw [toRat_eq_toRat_iff, normalize]
  split_ifs with hzero
  · simp [toInt, hzero]
  · obtain ⟨count, hcoeff, hscale⟩ := exists_dropped d.coeff d.scale
    generalize dropZeros d.coeff d.scale = kept at hcoeff hscale
    simp only [toInt, hcoeff, hscale, pow_add]
    split_ifs <;> push_cast <;> ring

/-- Of two numbers with one value, one in normal form has no more digits after the point. -/
lemma IsNormal.scale_le (he : e.IsNormal)
    (h : d.toInt * 10 ^ e.scale = e.toInt * 10 ^ d.scale) : e.scale ≤ d.scale := by
  by_contra hlt
  obtain ⟨k, hk⟩ : ∃ k, e.scale = k + 1 + d.scale := ⟨e.scale - d.scale - 1, by omega⟩
  have hcoeff : d.coeff * 10 ^ e.scale = e.coeff * 10 ^ d.scale := by
    have habs := congrArg Int.natAbs h
    simpa [Int.natAbs_mul, Int.natAbs_pow, natAbs_toInt] using habs
  rw [hk, pow_add, ← mul_assoc, pow_succ, ← mul_assoc] at hcoeff
  have hten : d.coeff * 10 ^ k * 10 = e.coeff := Nat.eq_of_mul_eq_mul_right (by positivity) hcoeff
  rcases he.scale with hscale | hmod
  · omega
  · omega

/-- Numbers in normal form that have one value are the same. -/
lemma IsNormal.eq_of_toRat_eq (hd : d.IsNormal) (he : e.IsNormal) (h : d.toRat = e.toRat) :
    d = e := by
  rw [toRat_eq_toRat_iff] at h
  have hscale : d.scale = e.scale := Nat.le_antisymm (hd.scale_le h.symm) (he.scale_le h)
  have hint : d.toInt = e.toInt := by
    rw [hscale] at h
    exact mul_right_cancel₀ (by positivity) h
  have hcoeff : d.coeff = e.coeff := by rw [← natAbs_toInt d, hint, natAbs_toInt]
  have hsign : d.negative = e.negative := by
    by_cases hzero : d.coeff = 0
    · rw [hd.sign hzero, he.sign (by omega)]
    · rw [toInt, toInt] at hint
      cases hneg : d.negative <;> cases hneg' : e.negative <;> simp [hneg, hneg'] at hint ⊢ <;>
        omega
  obtain ⟨negative, coeff, scale⟩ := d
  obtain ⟨negative', coeff', scale'⟩ := e
  rw [mk.injEq]
  exact ⟨hsign, hcoeff, hscale⟩

/-- Numbers have one normal form exactly when they have one value. -/
theorem normalize_eq_normalize_iff : d.normalize = e.normalize ↔ d.toRat = e.toRat := by
  rw [← toRat_normalize d, ← toRat_normalize e]
  constructor
  · intro h
    rw [h]
  · exact (isNormal_normalize d).eq_of_toRat_eq (isNormal_normalize e)

/-- Numbers within bounds are written in the same way exactly when they are the same. -/
lemma toText_eq_toText_iff (hd : d.InBounds) (he : e.InBounds) : d.toText = e.toText ↔ d = e := by
  constructor
  · intro h
    have hread := readPlain?_toText hd
    rw [h, readPlain?_toText he] at hread
    exact (Option.some.inj hread).symm
  · rintro rfl
    rfl

end WhenClause.Decimal
