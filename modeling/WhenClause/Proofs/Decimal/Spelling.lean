import WhenClause.Proofs.Decimal.Bounds

/-!
# Reading back a decimal number

A text of digits with at most one point spells a coefficient and a scale. If both are within
bounds, the text is read as exactly these, in whatever phase the reader is, and a number within
bounds is written as a text that spells it. So writing a number and reading it gives it back.
-/

namespace WhenClause.Decimal

/-- A text of digits and, unless `point` tells that it is past, one point goes on from a
coefficient and a scale to others. -/
inductive Spells : Bool → Nat → Nat → Text → Nat → Nat → Prop
  | nil (point : Bool) (coeff scale : Nat) : Spells point coeff scale [] coeff scale
  | digit {point : Bool} {coeff scale coeff' scale' d : Nat} {c : Char} {rest : Text}
    (hc : digit? c = some d)
    (h : Spells point (10 * coeff + d) (if point then scale + 1 else scale) rest coeff' scale') :
    Spells point coeff scale (c :: rest) coeff' scale'
  | point {coeff scale coeff' scale' : Nat} {rest : Text}
    (h : Spells true coeff scale rest coeff' scale') :
    Spells false coeff scale ('.' :: rest) coeff' scale'

namespace Spells

variable {point long seen : Bool} {coeff scale coeff' scale' : Nat} {text : Text}

lemma coeff_le (h : Spells point coeff scale text coeff' scale') : coeff ≤ coeff' := by
  induction h with
  | nil => exact Nat.le_refl _
  | digit _ _ ih => omega
  | point _ ih => exact ih

lemma scale_eq (h : Spells true coeff scale text coeff' scale') : scale' = scale + text.length := by
  generalize hpoint : true = point at h
  induction h with
  | nil => rfl
  | digit _ _ ih =>
    subst hpoint
    have := ih rfl
    simp only [↓reduceIte] at this
    simp only [List.length_cons]
    omega
  | point => cases hpoint

lemma digit?_point : digit? '.' = none := by decide

/-- In the wide phase, an exact number is read exactly. -/
lemma readWide_eq (h : Spells point coeff scale text coeff' scale') (hcoeff : coeff' < coeffBound)
    (hscale : scale' ≤ maxScale) : readWide point coeff scale text = some (coeff', scale') := by
  induction h with
  | nil => rfl
  | @digit point coeff scale coeff' scale' d c rest hc h ih =>
    have hbound : ¬coeffBound ≤ 10 * coeff + d := by
      have := h.coeff_le
      omega
    have ih := ih hcoeff hscale
    simp only [readWide, hc, hbound, ↓reduceIte]
    cases point with
    | false => exact ih
    | true =>
      have hlength : scale' = scale + 1 + rest.length := h.scale_eq
      simp only [↓reduceIte] at ih ⊢
      split_ifs with hlast
      · -- the largest scale leaves no room for a further digit
        have hrest : rest = [] := List.eq_nil_of_length_eq_zero (by omega)
        subst hrest
        cases h
        rfl
      · exact ih
  | point h ih => simpa [readWide, digit?_point] using ih hcoeff hscale

/-- In the narrow phase, an exact number with a digit is read exactly. -/
lemma readNarrow_eq (h : Spells point coeff scale text coeff' scale')
    (hcoeff : coeff' < coeffBound) (hscale : scale' ≤ maxScale)
    (hseen : seen = true ∨ ∃ c ∈ text, digit? c ≠ none) :
    readNarrow long point seen coeff scale text = some (coeff', scale') := by
  induction h generalizing seen with
  | nil =>
    obtain rfl : seen = true := by simpa using hseen
    rfl
  | @digit point coeff scale coeff' scale' d c rest hc h ih =>
    have ih := ih hcoeff hscale (.inl rfl)
    simp only [readNarrow, hc]
    generalize (if point = true then scale + 1 else scale) = next at h ih ⊢
    split_ifs with hnarrow hlast hwide
    · exact ih
    · -- the largest scale leaves no room for a further digit
      obtain ⟨rfl, hlast⟩ : point = true ∧ maxScale ≤ next := by simpa using hlast
      have hlength := h.scale_eq
      have hrest : rest = [] := List.eq_nil_of_length_eq_zero (by omega)
      simp [hrest] at hnarrow
    · exact h.readWide_eq hcoeff hscale
    · exact ih
  | @point coeff scale coeff' scale' rest h ih =>
    have hseen : seen = true ∨ ∃ c ∈ rest, digit? c ≠ none := by
      rcases hseen with hseen | ⟨c, hc, hdigit⟩
      · exact .inl hseen
      · rcases List.mem_cons.mp hc with rfl | hc
        · exact absurd digit?_point hdigit
        · exact .inr ⟨c, hc, hdigit⟩
    simpa [readNarrow, digit?_point] using ih hcoeff hscale hseen

end Spells

/-! ### Writing -/

variable {n coeff scale coeff' scale' : Nat} {rest : Text} {d : Decimal}

lemma digit?_digitChar (hn : n < 10) : digit? n.digitChar = some n := by
  have hnat : n.digitChar.toNat = 48 + n := Nat.toNat_digitChar_of_lt_ten hn
  have hzero : '0'.toNat = 48 := rfl
  simp [digit?, Nat.isDigit_digitChar, hn, hnat, hzero]

/-- The digits of a whole number spell it. -/
lemma spells_ofNat (n : Nat) (h : Spells false n 0 rest coeff' scale') :
    Spells false 0 0 (Text.ofNat n ++ rest) coeff' scale' := by
  induction n using Nat.strongRecOn generalizing rest with
  | ind n ih =>
    by_cases hn : n < 10
    · rw [Text.ofNat, Nat.toDigits_of_lt_base hn]
      exact .digit (digit?_digitChar hn) (by simpa using h)
    · have hdigit : Spells false (n / 10) 0 ((n % 10).digitChar :: rest) coeff' scale' := by
        refine .digit (digit?_digitChar (Nat.mod_lt n (by omega))) ?_
        rwa [Nat.div_add_mod]
      rw [Text.ofNat, Nat.toDigits_of_base_le (by omega) (by omega), List.append_assoc]
      exact ih (n / 10) (by omega) hdigit

/-- The last digits of a number complete the number without them. -/
lemma spells_lastDigits (count n scale : Nat) :
    Spells true (n / powTen count) scale (lastDigits count n) n (scale + count) := by
  induction count generalizing scale with
  | zero => simpa [lastDigits] using Spells.nil true n scale
  | succ count ih =>
    have hcoeff : 10 * (n / powTen (count + 1)) + n / powTen count % 10 = n / powTen count := by
      rw [powTen_succ, Nat.mul_comm 10 (powTen _), ← Nat.div_div_eq_div_mul, Nat.div_add_mod]
    refine .digit (digit?_digitChar (Nat.mod_lt _ (by omega))) ?_
    rw [hcoeff, if_pos rfl, show scale + (count + 1) = scale + 1 + count by omega]
    exact ih (scale + 1)

/-- A number is written without its sign. -/
def digits (d : Decimal) : Text :=
  Text.ofNat (d.coeff / powTen d.scale) ++
    (if d.scale = 0 then [] else '.' :: lastDigits d.scale d.coeff)

lemma toText_eq (d : Decimal) : d.toText = (if d.negative then ['-'] else []) ++ d.digits := by
  rw [toText, digits, List.append_assoc]

lemma spells_digits (d : Decimal) : Spells false 0 0 d.digits d.coeff d.scale := by
  rw [digits]
  split_ifs with hscale
  · exact spells_ofNat _ (by simpa [hscale] using Spells.nil false d.coeff 0)
  · have h := spells_lastDigits d.scale d.coeff 0
    rw [Nat.zero_add] at h
    exact spells_ofNat _ (.point h)

lemma isDigit_of_mem_lastDigits {c : Char} {count : Nat} (h : c ∈ lastDigits count n) :
    c.isDigit = true := by
  induction count with
  | zero => cases h
  | succ count ih =>
    rcases List.mem_cons.mp h with rfl | h
    · simp [Nat.isDigit_digitChar, Nat.mod_lt]
    · exact ih h

/-- A number is written with digits, a sign and a point. -/
lemma mem_toText {c : Char} (h : c ∈ d.toText) : c.isDigit = true ∨ c = '-' ∨ c = '.' := by
  rw [toText] at h
  rcases List.mem_append.mp h with h | h
  · rcases List.mem_append.mp h with h | h
    · split_ifs at h
      · exact .inr (.inl (List.mem_singleton.mp h))
      · cases h
    · exact .inl (Nat.isDigit_of_mem_toDigits (by decide) (by decide) h)
  · split_ifs at h
    · cases h
    · rcases List.mem_cons.mp h with rfl | h
      · exact .inr (.inr rfl)
      · exact .inl (isDigit_of_mem_lastDigits h)

lemma digits_eq_cons (d : Decimal) : ∃ c rest, d.digits = c :: rest ∧ c.isDigit = true := by
  rw [digits, Text.ofNat]
  cases hdigits : Nat.toDigits 10 (d.coeff / powTen d.scale) with
  | nil => exact absurd hdigits Nat.toDigits_ne_nil
  | cons c rest =>
    have hc : c ∈ Nat.toDigits 10 (d.coeff / powTen d.scale) := by simp [hdigits]
    exact ⟨c, _, rfl, Nat.isDigit_of_mem_toDigits (by decide) (by decide) hc⟩

/-- A number within bounds is read as it was written. -/
lemma readPlain?_toText (h : d.InBounds) : readPlain? d.toText = some d := by
  obtain ⟨c, rest, hdigits, hc⟩ := d.digits_eq_cons
  have hread (long : Bool) :
      readNarrow long false false 0 0 d.digits = some (d.coeff, d.scale) := by
    refine d.spells_digits.readNarrow_eq h.coeff h.scale (.inr ⟨c, ?_, ?_⟩)
    · rw [hdigits]
      exact List.mem_cons_self ..
    · simp [digit?, hc]
  rw [toText_eq]
  cases hsign : d.negative with
  | true =>
    simp only [readPlain?, ↓reduceIte, List.cons_append, List.nil_append, hread, Option.map_some]
    rw [← hsign]
  | false =>
    have hminus : c ≠ '-' := by
      rintro rfl
      cases hc
    have hplus : c ≠ '+' := by
      rintro rfl
      cases hc
    rw [if_neg (by decide), List.nil_append, readPlain?, hread, Option.map_some, ← hsign]
    · intro tail htail
      exact hminus (List.cons.inj (hdigits.symm.trans htail)).1
    · intro tail htail
      exact hplus (List.cons.inj (hdigits.symm.trans htail)).1

/-! ### The normal form -/

lemma dropZeros_dropZeros (coeff scale : Nat) :
    dropZeros (dropZeros coeff scale).1 (dropZeros coeff scale).2 = dropZeros coeff scale := by
  fun_induction dropZeros coeff scale with
  | case1 => rfl
  | case2 _ _ _ ih => exact ih
  | case3 coeff scale h => simp [dropZeros, h]

lemma dropZeros_ne_zero (h : coeff ≠ 0) : (dropZeros coeff scale).1 ≠ 0 := by
  fun_induction dropZeros coeff scale with
  | case1 => exact h
  | case2 coeff _ hmod ih => exact ih (by omega)
  | case3 => exact h

@[simp] lemma normalize_normalize (d : Decimal) : d.normalize.normalize = d.normalize := by
  unfold normalize
  by_cases h : d.coeff = 0
  · simp [h]
  · simp [h, dropZeros_ne_zero, dropZeros_dropZeros]

end WhenClause.Decimal
