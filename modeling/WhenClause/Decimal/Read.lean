import WhenClause.Decimal.Basic

/-!
# Reading decimal numbers

A number is an optional sign, digits with at most one point, and underscores after the first
digit; it may end in an exponent. A coefficient of 96 bits and 28 digits after the point hold a
number exactly; longer fractions are rounded, half up, at the first digit that does not fit,
and longer whole numbers are refused.

A text is long from 18 characters on. A long text is read in two phases: while the coefficient
stays narrow only the scale can end the exact digits, afterwards the coefficient can as well.
The phases differ in how they pass an underscore at the rounding place.
-/

namespace WhenClause.Decimal

/-- The value of a digit. -/
def digit? (c : Char) : Option Nat := if c.isDigit then some (c.toNat - '0'.toNat) else none

/-- The number of characters from which on a text is long. -/
def longLength : Nat := 18

/-- A coefficient of a long text is narrow below this bound. -/
def narrowBound : Nat := 1844674407370955161 - 255

/-- Ends a fraction at the first character of `text`, which decides the rounding; what follows
must still be digits and underscores. -/
def roundAt (coeff scale : Nat) (text : Text) : Option (Nat × Nat) :=
  match text with
  | []        => none
  | c :: rest =>
    if (digit? c).isNone && c ≠ '_' then none
    else if !rest.all (fun c => c.isDigit || c = '_') then none
    else if (digit? c).getD 0 < 5 then some (coeff, scale)
    else if coeff + 1 < coeffBound then some (coeff + 1, scale)
    else if scale = 0 then none
    else some ((coeff + 1 + 4) / 10, scale - 1)

/-- Reads on once the coefficient is wide, after a digit. -/
def readWide (point : Bool) (coeff scale : Nat) : Text → Option (Nat × Nat)
  | []        => some (coeff, scale)
  | c :: rest =>
    match digit? c with
    | some d =>
      if coeffBound ≤ 10 * coeff + d then
        if point then roundAt coeff scale (c :: rest) else none
      else if point then
        if maxScale ≤ scale + 1 then
          match rest.dropWhile (· = '_') with
          | []   => some (10 * coeff + d, scale + 1)
          | more => roundAt (10 * coeff + d) (scale + 1) more
        else readWide point (10 * coeff + d) (scale + 1) rest
      else readWide point (10 * coeff + d) scale rest
    | none =>
      if c = '.' && !point then readWide true coeff scale rest
      else if c = '_' then readWide point coeff scale rest
      else none

/-- Reads while the coefficient is narrow; `seen` tells whether there was a digit. -/
def readNarrow (long point seen : Bool) (coeff scale : Nat) : Text → Option (Nat × Nat)
  | []        => if seen then some (coeff, scale) else none
  | c :: rest =>
    match digit? c with
    | some d =>
      let coeff := 10 * coeff + d
      let scale := if point then scale + 1 else scale
      if !long || rest = [] then readNarrow long point true coeff scale rest
      else if point && maxScale ≤ scale then roundAt coeff scale rest
      else if narrowBound ≤ coeff then readWide point coeff scale rest
      else readNarrow long point true coeff scale rest
    | none =>
      if c = '.' && !point then readNarrow long true seen coeff scale rest
      else if c = '_' && seen then readNarrow long point seen coeff scale rest
      else none

/-- Reads a number without exponent. -/
def readPlain? (text : Text) : Option Decimal :=
  let (negative, digits) := match text with
    | '-' :: rest => (true, rest)
    | '+' :: rest => (false, rest)
    | _           => (false, text)
  (readNarrow (longLength ≤ text.length) false false 0 0 digits).map fun (coeff, scale) =>
    ⟨negative, coeff, scale⟩

/-- The digits of an exponent, after an optional plus: a number of 32 bits. -/
def readExponent? (text : Text) : Option Nat :=
  let digits := match text with
    | '+' :: rest => rest
    | _           => text
  if digits = [] || !digits.all Char.isDigit then none
  else
    let n := digits.foldl (fun n c => 10 * n + (c.toNat - '0'.toNat)) 0
    if n < UInt32.size then some n else none

/-- The number `d / 10 ^ n`, rounded half up to the largest scale. -/
def shiftDown? (d : Decimal) (n : Nat) : Option Decimal :=
  if maxScale < n then none
  else if d.scale + n ≤ maxScale then some ⟨d.negative, d.coeff, d.scale + n⟩
  else
    let dropped := d.scale + n - maxScale
    let up := if 5 ≤ d.coeff / powTen (dropped - 1) % 10 then 1 else 0
    some ⟨d.negative, d.coeff / powTen dropped + up, maxScale⟩

/-- The number `d * 10 ^ n`. -/
def shiftUp? (d : Decimal) (n : Nat) : Option Decimal :=
  if n ≤ d.scale then some ⟨d.negative, d.coeff, d.scale - n⟩
  else if maxScale < n then none
  else
    let coeff := d.coeff * powTen (n - d.scale)
    if coeff < coeffBound then some ⟨d.negative, coeff, 0⟩ else none

/-- Reads a number with an exponent behind the first `e` or `E`. -/
def readScientific? (text : Text) : Option Decimal :=
  match text.dropWhile (fun c => c ≠ 'e' && c ≠ 'E') with
  | []            => none
  | _ :: exponent => do
    let base ← readPlain? (text.takeWhile (fun c => c ≠ 'e' && c ≠ 'E'))
    match exponent with
    | '-' :: digits => shiftDown? base (← readExponent? digits)
    | _             => shiftUp? base (← readExponent? exponent)

/-- Reads a number. -/
def read? (text : Text) : Option Decimal := (readPlain? text).orElse fun _ => readScientific? text

end WhenClause.Decimal
