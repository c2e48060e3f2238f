import WhenClause.Text.Basic

/-!
# Decimal numbers

A decimal number is a sign, a coefficient and a scale, the number of digits after the point. It
has one normal form, in which no digit after the point can be dropped and zero has no sign, so
that normal numbers are equal exactly when their values are.
-/

namespace WhenClause

/-- The number `coeff / 10 ^ scale`, or its opposite. -/
structure Decimal where
  negative : Bool
  coeff : Nat
  scale : Nat
  deriving DecidableEq, Repr

namespace Decimal

/-- One more than the largest coefficient: a coefficient has 96 bits. -/
def coeffBound : Nat := 1 <<< 96

/-- The largest scale. -/
def maxScale : Nat := 28

/-- How many units of the `n`-th place after the point make one. -/
def powTen (n : Nat) : Nat := Nat.pow 10 n

/-- A coefficient and a scale without the last zeros after the point. -/
def dropZeros (coeff : Nat) : Nat → Nat × Nat
  | 0         => (coeff, 0)
  | scale + 1 => if coeff % 10 = 0 then dropZeros (coeff / 10) scale else (coeff, scale + 1)

/-- The number in normal form. -/
def normalize (d : Decimal) : Decimal :=
  if d.coeff = 0 then ⟨false, 0, 0⟩
  else
    let (coeff, scale) := dropZeros d.coeff d.scale
    ⟨d.negative, coeff, scale⟩

/-- The last `count` digits of a number, zeros in front included. -/
def lastDigits : Nat → Nat → Text
  | 0, _         => []
  | count + 1, n => Nat.digitChar (n / powTen count % 10) :: lastDigits count n

/-- How a number is written: at least one digit stands before the point. -/
def toText (d : Decimal) : Text :=
  (if d.negative then ['-'] else []) ++ Text.ofNat (d.coeff / powTen d.scale) ++
    (if d.scale = 0 then [] else '.' :: lastDigits d.scale d.coeff)

/-- The value of a whole number. -/
def toInt (d : Decimal) : Int := if d.negative then -d.coeff else d.coeff

theorem dropZeros_snd_le (coeff scale : Nat) : (dropZeros coeff scale).2 ≤ scale := by
  fun_induction dropZeros coeff scale <;> omega

theorem dropZeros_fst_le (coeff scale : Nat) : (dropZeros coeff scale).1 ≤ coeff := by
  fun_induction dropZeros coeff scale <;> omega

@[simp] theorem powTen_zero : powTen 0 = 1 := rfl

theorem powTen_succ (n : Nat) : powTen (n + 1) = 10 * powTen n := Nat.pow_succ'

theorem powTen_mono {m n : Nat} (h : m ≤ n) : powTen m ≤ powTen n :=
  Nat.pow_le_pow_right (by decide) h

end Decimal

end WhenClause
