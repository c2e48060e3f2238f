import WhenClause.Decimal.Basic

/-!
# Doubles

A double is a mantissa of 53 bits times a power of two. Every operation computes the exact
result as a ratio of natural numbers and rounds it once, to the nearest double and on a tie to
the even mantissa. Signs are kept elsewhere, and the powers of two have no bound: the decimals
that are converted here stay far from both ends of the range.

A double is written with the fewest digits that read back as itself.
-/

namespace WhenClause

/-- The number `mantissa * 2 ^ exponent`; a mantissa other than zero has exactly 53 bits. -/
structure Binary64 where
  mantissa : Nat
  exponent : Int
  deriving DecidableEq, Repr

namespace Binary64

/-- The numerator and the denominator of a ratio `n / d` divided by `2 ^ e`. -/
def scaleDown (n d : Nat) (e : Int) : Nat × Nat :=
  if 0 ≤ e then (n, d <<< e.toNat) else (n <<< (-e).toNat, d)

/-- The nearest double to `n / d`. -/
def ofRatio (n d : Nat) : Binary64 :=
  if n = 0 then ⟨0, 0⟩
  else
    let low : Int := (n.log2 : Int) - d.log2 - 53
    let (n₀, d₀) := scaleDown n d low
    let exponent := if d₀ <<< 53 ≤ n₀ then low + 1 else low
    let (n, d) := scaleDown n d exponent
    let twice := 2 * (n % d)
    let mantissa := n / d + (if d < twice || (twice = d && n / d % 2 = 1) then 1 else 0)
    if mantissa = 1 <<< 53 then ⟨1 <<< 52, exponent + 1⟩ else ⟨mantissa, exponent⟩

/-- The exact value of a double, as numerator and denominator. -/
def ratio (x : Binary64) : Nat × Nat := scaleDown x.mantissa 1 (-x.exponent)

def ofNat (n : Nat) : Binary64 := ofRatio n 1

def add (x y : Binary64) : Binary64 :=
  ofRatio (x.ratio.1 * y.ratio.2 + y.ratio.1 * x.ratio.2) (x.ratio.2 * y.ratio.2)

def mul (x y : Binary64) : Binary64 := ofRatio (x.ratio.1 * y.ratio.1) (x.ratio.2 * y.ratio.2)

def div (x y : Binary64) : Binary64 := ofRatio (x.ratio.1 * y.ratio.2) (x.ratio.2 * y.ratio.1)

/-- The nearest whole number, the larger one on a tie. -/
def round (x : Binary64) : Nat := (2 * x.ratio.1 + x.ratio.2) / (2 * x.ratio.2)

/-- The `n`-th power by repeated squaring, times `acc`, for an exponent of at most `bits` bits. -/
def powWith : Nat → Binary64 → Binary64 → Nat → Binary64
  | 0, acc, _, _           => acc
  | bits + 1, acc, base, n =>
    let acc := if n % 2 = 1 then acc.mul base else acc
    if n / 2 = 0 then acc else powWith bits acc (base.mul base) (n / 2)

/-- The `n`-th power of ten, every product rounded. -/
def tenPow (n : Nat) : Binary64 := powWith (n.log2 + 1) (ofNat 1) (ofNat 10) n

/-- The double for a decimal's magnitude: whole part and fraction are converted apart, and their
sum is rounded to the decimal's scale. -/
def ofDecimal (d : Decimal) : Binary64 :=
  let power := Decimal.powTen d.scale
  let fraction := (ofNat (d.coeff % power)).div (ofNat power)
  let whole := ofNat (d.coeff / power)
  if fraction.mantissa = 0 then whole
  else
    let scale := tenPow d.scale
    (ofNat ((whole.add fraction).mul scale).round).div scale

/-! ### Text -/

/-- The least power of ten by which `n` must be multiplied to reach `d`, tried up from `k`. -/
def leadingZeros (n d : Nat) : Nat → Nat → Nat
  | 0, k        => k
  | fuel + 1, k => if d ≤ n * Decimal.powTen k then k else leadingZeros n d fuel (k + 1)

/-- The exponent `e` with `10 ^ e ≤ x < 10 ^ (e + 1)`, for `x` other than zero. -/
def magnitude (x : Binary64) : Int :=
  let (n, d) := x.ratio
  if d ≤ n then (Text.ofNat (n / d)).length - 1 else -(leadingZeros n d (d.log2 + 1) 1 : Nat)

/-- Whether `coeff * 10 ^ power` reads back as `x`. -/
def readsBack (x : Binary64) (coeff : Nat) (power : Int) : Bool :=
  (if 0 ≤ power then ofNat (coeff * Decimal.powTen power.toNat)
    else ofRatio coeff (Decimal.powTen (-power).toNat)) = x

/-- The coefficient with `count` digits that reads back as `x`, if there is one: the nearer of
the two neighbours of `x`, else the other. The second part is the power of ten. Where the upper
neighbour is the next power of ten, it has one digit only. -/
def withDigits? (x : Binary64) (count : Nat) : Option (Nat × Int) :=
  let power := x.magnitude - count + 1
  let (n, d) := x.ratio
  let (n, d) := if 0 ≤ power then (n, d * Decimal.powTen power.toNat)
    else (n * Decimal.powTen (-power).toNat, d)
  let twice := 2 * (n % d)
  let below := n / d
  let order := if twice < d || (twice = d && below % 2 = 0) then [below, below + 1]
    else [below + 1, below]
  (order.find? fun coeff => x.readsBack coeff power).map fun coeff =>
    if coeff = Decimal.powTen count then (1, power + count) else (coeff, power)

/-- The shortest coefficient and power of ten that read back as `x`. -/
def shortest (x : Binary64) : Nat × Int :=
  ((List.range 17).findSome? fun i => x.withDigits? (i + 1)).getD (0, 0)

/-- How a double is written: with a point where its first digit has one of the places 5 behind
the point to 16 before it, else with an exponent that has a sign. -/
def toText (x : Binary64) : Text :=
  if x.mantissa = 0 then ['0', '.', '0']
  else
    let (coeff, power) := x.shortest
    let digits := Text.ofNat coeff
    let e : Int := power + digits.length - 1
    if 0 ≤ e && e ≤ 15 then
      let before := e.toNat + 1
      if digits.length ≤ before then
        digits ++ List.replicate (before - digits.length) '0' ++ ['.', '0']
      else digits.take before ++ '.' :: digits.drop before
    else if -5 ≤ e && e < 0 then
      '0' :: '.' :: List.replicate ((-e).toNat - 1) '0' ++ digits
    else
      digits.take 1 ++ (if digits.length = 1 then [] else '.' :: digits.drop 1) ++
        'e' :: (if e < 0 then '-' else '+') :: Text.ofNat e.natAbs

end Binary64

end WhenClause
