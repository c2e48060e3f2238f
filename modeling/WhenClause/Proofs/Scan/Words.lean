import Mathlib.Tactic.Common
import WhenClause.Scan.Piece

/-!
# Words that are read back

A text that is a word by itself is the same word in front of any text that does not continue it,
and what a scan takes for a word is such a text (`isWord_takeWord`).
-/

namespace WhenClause

/-- Whether a character may stand anywhere in a word. -/
def isWordChar (c : Char) : Bool := isWordStart c || c = '<' || c = '>'

/-- The number of open brackets `<` after one more character, where that continues a word. -/
def bracketsAfter? (depth : Nat) (c : Char) : Option Nat :=
  if c = '<' then some (depth + 1)
  else if c = '>' ∧ 0 < depth then some (depth - 1)
  else if isKeyChar c then some depth
  else none

namespace Text

/-- A text that is a word from its first character to its last. -/
def IsWord : Text → Prop
  | []        => False
  | c :: tail => isWordStart c = true ∧ c ≠ '/' ∧ takeWord 0 tail = (tail, [])

/-- A text that does not continue a word in front of it. -/
def EndsWord (t : Text) : Prop := ∀ c ∈ t.head?, isWordChar c = false

end Text

variable {t rest : Text} {c : Char} {depth depth' : Nat}

/-! ### Taking words -/

lemma isWordChar_of_isWordStart (h : isWordStart c = true) : isWordChar c = true := by
  simp [isWordChar, h]

lemma ne_brackets_of_isWordStart (h : isWordStart c = true) : c ≠ '<' ∧ c ≠ '>' := by
  constructor
  · rintro rfl
    exact absurd h (by decide)
  · rintro rfl
    exact absurd h (by decide)

lemma isWordChar_of_bracketsAfter? (h : bracketsAfter? depth c = some depth') :
    isWordChar c = true := by
  rw [bracketsAfter?] at h
  split_ifs at h with h₁ h₂ h₃
  · simp [isWordChar, h₁]
  · simp [isWordChar, h₂.1]
  · simp [isWordChar, isWordStart, h₃]

lemma takeWord_cons (depth : Nat) (c : Char) (t : Text) :
    takeWord depth (c :: t) = match bracketsAfter? depth c with
      | some depth' => (c :: (takeWord depth' t).1, (takeWord depth' t).2)
      | none        => ([], c :: t) := by
  rw [takeWord, bracketsAfter?]
  split_ifs <;> simp_all

lemma isWordChar_of_mem_takeWord (h : c ∈ (takeWord depth t).1) : isWordChar c = true := by
  induction t generalizing depth with
  | nil => cases h
  | cons d t ih =>
    rw [takeWord_cons] at h
    cases hd : bracketsAfter? depth d with
    | none => simp [hd] at h
    | some depth' =>
      rw [hd] at h
      rcases List.mem_cons.mp h with rfl | h
      · exact isWordChar_of_bracketsAfter? hd
      · exact ih h

/-- Reading a word again takes all of it. -/
lemma takeWord_takeWord (depth : Nat) (t : Text) :
    takeWord depth (takeWord depth t).1 = ((takeWord depth t).1, []) := by
  induction t generalizing depth with
  | nil => rfl
  | cons c t ih =>
    rw [takeWord_cons]
    cases hc : bracketsAfter? depth c with
    | none => rfl
    | some depth' => simp [takeWord_cons, hc, ih]

/-- What is taken of a text is taken in front of any text that does not continue a word. -/
lemma takeWord_append_rest (hrest : rest.EndsWord) (depth : Nat) (t : Text) :
    takeWord depth (t ++ rest) = ((takeWord depth t).1, (takeWord depth t).2 ++ rest) := by
  induction t generalizing depth with
  | nil =>
    cases rest with
    | nil => rfl
    | cons c rest =>
      rw [List.nil_append, takeWord_cons]
      cases hc : bracketsAfter? depth c with
      | none => rfl
      | some depth' =>
        have hword := isWordChar_of_bracketsAfter? hc
        rw [hrest c rfl] at hword
        cases hword
  | cons c t ih =>
    rw [List.cons_append, takeWord_cons, takeWord_cons]
    cases hc : bracketsAfter? depth c with
    | none => rfl
    | some depth' => simp [ih]

/-- A word ends at a text that does not continue it. -/
lemma takeWord_append_of_endsWord (ht : takeWord depth t = (t, [])) (hrest : rest.EndsWord) :
    takeWord depth (t ++ rest) = (t, rest) := by
  rw [takeWord_append_rest hrest, ht, List.nil_append]

lemma takeWord_of_isKeyChar (ht : ∀ c ∈ t, isKeyChar c = true) : takeWord depth t = (t, []) := by
  induction t with
  | nil => rfl
  | cons c t ih =>
    have hc : isKeyChar c = true := ht c (List.mem_cons_self ..)
    have hstart : isWordStart c = true := by simp [isWordStart, hc]
    obtain ⟨hopen, hclose⟩ := ne_brackets_of_isWordStart hstart
    have hbrackets : bracketsAfter? depth c = some depth := by
      simp [bracketsAfter?, hopen, hclose, hc]
    have htail := ih fun d hd => ht d (List.mem_cons_of_mem _ hd)
    simp [takeWord_cons, hbrackets, htail]

/-! ### Words -/

namespace Text

lemma IsWord.isWordChar (h : t.IsWord) : ∀ c ∈ t, isWordChar c = true := by
  cases t with
  | nil => cases h
  | cons d tail =>
    obtain ⟨hd, -, htail⟩ := h
    intro c hc
    rcases List.mem_cons.mp hc with rfl | hc
    · exact isWordChar_of_isWordStart hd
    · have hmem : c ∈ (takeWord 0 tail).1 := by rwa [htail]
      exact isWordChar_of_mem_takeWord hmem

lemma IsWord.append_ne_cons {rest' : Text} (ht : t.IsWord)
    (hc : isWordStart c = false) : t ++ rest ≠ c :: rest' := by
  cases t with
  | nil => cases ht
  | cons d t =>
    intro h
    obtain ⟨rfl, -⟩ := List.cons.inj h
    exact absurd ht.1 (by simp [hc])

lemma isWord_takeWord (hc : isWordStart c = true) (hslash : c ≠ '/') (t : Text) :
    IsWord (c :: (takeWord 0 t).1) :=
  ⟨hc, hslash, takeWord_takeWord 0 t⟩

lemma isWord_of_isKeyChar (hne : t ≠ []) (hslash : t.head? ≠ some '/')
    (ht : ∀ c ∈ t, isKeyChar c = true) : t.IsWord := by
  cases t with
  | nil => exact absurd rfl hne
  | cons c tail =>
    refine ⟨?_, fun h => hslash (by rw [h]; rfl), ?_⟩
    · simp [isWordStart, ht c (List.mem_cons_self ..)]
    · exact takeWord_of_isKeyChar fun d hd => ht d (List.mem_cons_of_mem _ hd)

lemma endsWord_nil : EndsWord [] := by
  intro c hc
  cases hc

lemma endsWord_cons (hc : isWordChar c = false) (t : Text) : EndsWord (c :: t) := by
  intro d hd
  cases hd
  exact hc

/-- A word in front of a text that does not continue it is found again. -/
lemma IsWord.append_inj {u rest' : Text} (ht : t.IsWord) (hu : u.IsWord)
    (hrest : rest.EndsWord) (hrest' : rest'.EndsWord) (h : t ++ rest = u ++ rest') :
    t = u ∧ rest = rest' := by
  cases t with
  | nil => cases ht
  | cons c t =>
    cases u with
    | nil => cases hu
    | cons d u =>
      rw [List.cons_append, List.cons_append, List.cons.injEq] at h
      obtain ⟨rfl, h⟩ := h
      have htail := takeWord_append_of_endsWord ht.2.2 hrest
      rw [h, takeWord_append_of_endsWord hu.2.2 hrest', Prod.mk.injEq] at htail
      exact ⟨by rw [htail.1], htail.2.symm⟩

end Text

end WhenClause
