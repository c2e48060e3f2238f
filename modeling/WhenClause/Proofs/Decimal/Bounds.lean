import Mathlib.Tactic.Common
import WhenClause.Decimal.Read

/-!
# The size of the numbers that are read

A number that is read, rounded or not, has a coefficient of 96 bits and at most 28 digits after
the point.
-/

namespace WhenClause.Decimal

/-- The coefficient and the scale have the size that a number can hold. -/
structure InBounds (d : Decimal) : Prop where
  coeff : d.coeff < coeffBound
  scale : d.scale ≤ maxScale

variable {c : Char} {digit n coeff scale coeff' scale' : Nat} {point seen : Bool} {text : Text}
  {d d' : Decimal}

lemma InBounds.normalize (h : d.InBounds) : d.normalize.InBounds := by
  rw [Decimal.normalize]
  split_ifs
  · exact ⟨by decide, by decide⟩
  · exact ⟨Nat.lt_of_le_of_lt (dropZeros_fst_le _ _) h.coeff,
      Nat.le_trans (dropZeros_snd_le _ _) h.scale⟩

lemma digit?_lt (h : digit? c = some digit) : digit < 10 := by
  rw [digit?] at h
  split_ifs at h with hdigit
  obtain rfl := Option.some.inj h
  have hle : c.toNat ≤ 57 := (Char.isDigit_iff_toNat.mp hdigit).2
  have hzero : '0'.toNat = 48 := rfl
  omega

lemma roundAt_inBounds (hcoeff : coeff < coeffBound) (hscale : scale ≤ maxScale)
    (h : roundAt coeff scale text = some (coeff', scale')) :
    coeff' < coeffBound ∧ scale' ≤ maxScale := by
  unfold roundAt at h
  split at h
  · cases h
  · split_ifs at h
    all_goals
      obtain ⟨rfl, rfl⟩ := Prod.mk.inj (Option.some.inj h)
      omega

lemma readWide_inBounds (hcoeff : coeff < coeffBound) (hscale : scale < maxScale)
    (h : readWide point coeff scale text = some (coeff', scale')) :
    coeff' < coeffBound ∧ scale' ≤ maxScale := by
  induction text generalizing point coeff scale with
  | nil =>
    obtain ⟨rfl, rfl⟩ := Prod.mk.inj (Option.some.inj h)
    exact ⟨hcoeff, Nat.le_of_lt hscale⟩
  | cons c rest ih =>
    rw [readWide] at h
    cases hc : digit? c with
    | some digit =>
      simp only [hc] at h
      split_ifs at h with hfull hpoint hpoint hlast
      · exact roundAt_inBounds hcoeff (Nat.le_of_lt hscale) h
      · split at h
        · obtain ⟨rfl, rfl⟩ := Prod.mk.inj (Option.some.inj h)
          exact ⟨by omega, by omega⟩
        · exact roundAt_inBounds (by omega) (by omega) h
      · exact ih (by omega) (by omega) h
      · exact ih (by omega) hscale h
    | none =>
      simp only [hc] at h
      split_ifs at h
      · exact ih hcoeff hscale h
      · exact ih hcoeff hscale h

/-- A text that is not long has too few digits to leave the bounds. -/
lemma readNarrow_short_inBounds (hcoeff : (coeff + 1) * powTen text.length ≤ powTen longLength)
    (hscale : scale + text.length ≤ longLength)
    (h : readNarrow false point seen coeff scale text = some (coeff', scale')) :
    coeff' < coeffBound ∧ scale' ≤ maxScale := by
  induction text generalizing point seen coeff scale with
  | nil =>
    rw [readNarrow] at h
    split_ifs at h
    obtain ⟨rfl, rfl⟩ := Prod.mk.inj (Option.some.inj h)
    have hlong : powTen longLength < coeffBound := by decide
    have hlast : longLength ≤ maxScale := by decide
    simp only [List.length_nil, powTen_zero] at *
    omega
  | cons c rest ih =>
    rw [List.length_cons, powTen_succ, ← Nat.mul_assoc] at hcoeff
    rw [List.length_cons] at hscale
    have hstep (digit : Nat) (hdigit : digit < 10) :
        (10 * coeff + digit + 1) * powTen rest.length ≤ powTen longLength :=
      Nat.le_trans (Nat.mul_le_mul_right _ (by omega)) hcoeff
    have hkeep : (coeff + 1) * powTen rest.length ≤ powTen longLength :=
      Nat.le_trans (Nat.mul_le_mul_right _ (by omega)) hcoeff
    rw [readNarrow] at h
    cases hc : digit? c with
    | some digit =>
      simp only [hc, Bool.not_false, Bool.true_or, ↓reduceIte] at h
      refine ih (hstep digit (digit?_lt hc)) ?_ h
      split_ifs <;> omega
    | none =>
      simp only [hc] at h
      split_ifs at h
      · exact ih hkeep (by omega) h
      · exact ih hkeep (by omega) h

/-- A long text is read in the wide phase, or rounded, before it leaves the bounds. -/
lemma readNarrow_long_inBounds (hcoeff : coeff < narrowBound) (hscale : scale < maxScale)
    (h : readNarrow true point seen coeff scale text = some (coeff', scale')) :
    coeff' < coeffBound ∧ scale' ≤ maxScale := by
  have hbound : 10 * narrowBound < coeffBound := by decide
  induction text generalizing point seen coeff scale with
  | nil =>
    rw [readNarrow] at h
    split_ifs at h
    obtain ⟨rfl, rfl⟩ := Prod.mk.inj (Option.some.inj h)
    omega
  | cons c rest ih =>
    rw [readNarrow] at h
    cases hc : digit? c with
    | some digit =>
      have hdigit := digit?_lt hc
      have hnext : (if point = true then scale + 1 else scale) ≤ maxScale := by
        split_ifs <;> omega
      have hwhole : point = false → (if point = true then scale + 1 else scale) < maxScale := by
        rintro rfl
        exact hscale
      simp only [hc] at h
      generalize (if point = true then scale + 1 else scale) = next at h hnext hwhole
      split_ifs at h with hrest hfull hwide
      · obtain rfl : rest = [] := by simpa using hrest
        rw [readNarrow] at h
        obtain ⟨rfl, rfl⟩ := Prod.mk.inj (Option.some.inj h)
        exact ⟨by omega, hnext⟩
      · exact roundAt_inBounds (by omega) hnext h
      all_goals
        have hless : next < maxScale := by
          cases point with
          | false => exact hwhole rfl
          | true => simpa using hfull
      · exact readWide_inBounds (by omega) hless h
      · exact ih (by omega) hless h
    | none =>
      simp only [hc] at h
      split_ifs at h
      · exact ih hcoeff hscale h
      · exact ih hcoeff hscale h

lemma readPlain?_inBounds (h : readPlain? text = some d) : d.InBounds := by
  unfold readPlain? at h
  split at h
  rename_i negative digits hmatch
  have hlength : digits.length ≤ text.length := by
    split at hmatch <;> obtain ⟨rfl, rfl⟩ := Prod.mk.inj hmatch <;> simp
  obtain ⟨⟨coeff, scale⟩, hread, rfl⟩ := Option.map_eq_some_iff.mp h
  suffices coeff < coeffBound ∧ scale ≤ maxScale from ⟨this.1, this.2⟩
  cases hlong : decide (longLength ≤ text.length) with
  | true =>
    rw [hlong] at hread
    exact readNarrow_long_inBounds (by decide) (by decide) hread
  | false =>
    rw [hlong] at hread
    have hshort : digits.length ≤ longLength := by
      have := of_decide_eq_false hlong
      omega
    refine readNarrow_short_inBounds ?_ (by omega) hread
    simpa using powTen_mono hshort

lemma shiftDown?_inBounds (hd : d.InBounds) (h : shiftDown? d n = some d') : d'.InBounds := by
  rw [shiftDown?] at h
  split_ifs at h with hn hscale
  · obtain rfl := Option.some.inj h
    exact ⟨hd.coeff, hscale⟩
  · obtain rfl := Option.some.inj h
    refine ⟨?_, Nat.le_refl _⟩
    have hten : powTen 1 ≤ powTen (d.scale + n - maxScale) := powTen_mono (by omega)
    have hle : d.coeff / powTen (d.scale + n - maxScale) ≤ d.coeff / 10 :=
      Nat.div_le_div_left hten (by decide)
    have hcoeff := hd.coeff
    have hlarge : 10 < coeffBound := by decide
    dsimp only
    split_ifs <;> omega

lemma shiftUp?_inBounds (hd : d.InBounds) (h : shiftUp? d n = some d') : d'.InBounds := by
  rw [shiftUp?] at h
  have hscale := hd.scale
  dsimp only at h
  split_ifs at h with hn hmax hcoeff
  · obtain rfl := Option.some.inj h
    exact ⟨hd.coeff, Nat.le_trans (Nat.sub_le _ _) hscale⟩
  · obtain rfl := Option.some.inj h
    exact ⟨hcoeff, Nat.zero_le _⟩

/-- Every number that is read is within bounds. -/
lemma read?_inBounds (h : read? text = some d) : d.InBounds := by
  rw [read?] at h
  cases hplain : readPlain? text with
  | some d' =>
    obtain rfl : d' = d := by simpa [hplain] using h
    exact readPlain?_inBounds hplain
  | none =>
    have h : readScientific? text = some d := by simpa [hplain] using h
    rw [readScientific?] at h
    split at h
    · cases h
    · obtain ⟨base, hbase, h⟩ := Option.bind_eq_some_iff.mp h
      have hbase := readPlain?_inBounds hbase
      split at h
      · obtain ⟨n, -, h⟩ := Option.bind_eq_some_iff.mp h
        exact shiftDown?_inBounds hbase h
      · obtain ⟨n, -, h⟩ := Option.bind_eq_some_iff.mp h
        exact shiftUp?_inBounds hbase h

end WhenClause.Decimal
