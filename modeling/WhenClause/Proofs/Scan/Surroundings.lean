import WhenClause.Proofs.Scan.Boundaries

/-!
# A text scanned inside another

A token at the head of a text is found again in front of any text that does not continue it
(`Piece.ofText_append`). A text without scan errors that does not end in a blank is therefore passed
in front of a parenthesis with the tokens that it has alone, each as much further on as the text is
(`Passes.inside`).
-/

namespace WhenClause

namespace Text

/-- A text that continues no token in front of it, unless that is the word `not`. -/
def EndsToken (t : Text) : Prop := ∀ c ∈ t.head?, c = ')' ∨ isBlank c = true

/-- A text that does not end in a blank. -/
def EndsTight (t : Text) : Prop := ∀ c ∈ t.getLast?, isBlank c = false

instance (t : Text) : Decidable t.EndsTight :=
  decidable_of_iff (t.getLast?.all fun c => !isBlank c) <| by
    rw [EndsTight, Option.all_eq_true]
    simp only [Bool.not_eq_true', Option.mem_def]

variable {t rest : Text} {c : Char}

lemma endsToken_rparen (t : Text) : EndsToken (')' :: t) := by
  intro c hc
  cases hc
  exact .inl rfl

lemma EndsToken.head?_ne (h : t.EndsToken) (hparen : c ≠ ')') (hblank : isBlank c = false) :
    t.head? ≠ some c := by
  intro hhead
  rcases h c hhead with hc | hc
  · exact hparen hc
  · rw [hblank] at hc
    cases hc

lemma EndsToken.endsWord (h : t.EndsToken) : t.EndsWord := by
  intro c hc
  by_contra hword
  have hword : isWordChar c = true := by simpa using hword
  refine h.head?_ne ?_ (isBlank_of_isWordChar hword) hc
  rintro rfl
  exact absurd hword (by decide)

/-- What is left behind a token stands in front of a text that does not continue it. -/
lemma EndsToken.stopsAs (h : rest.EndsToken) (t : Text) : (t ++ rest).StopsAs t := by
  intro c hc hcontinues
  cases t with
  | cons d t => exact hc
  | nil =>
    rcases h c hc with rfl | hblank
    · exact absurd hcontinues (by decide)
    · rw [continuesToken_of_isBlank hblank] at hcontinues
      cases hcontinues

lemma EndsTight.of_append (h : EndsTight (t ++ rest)) : rest.EndsTight := by
  intro c hc
  refine h c ?_
  rw [Option.mem_def] at hc
  rw [List.getLast?_append, hc]
  rfl

lemma EndsTight.of_cons (h : EndsTight (c :: t)) : t.EndsTight := of_append (t := [c]) h

end Text

/-! ### Pieces in front of other text -/

section Append

variable {text span behind rest : Text} {c : Char} {kind : Token.Kind}

/-- What is taken of a text is taken in front of any text of which nothing is taken. -/
lemma takeWhile_append_rest {q : Char → Bool} (hrest : ∀ c ∈ rest.head?, q c = false) (t : Text) :
    (t ++ rest).takeWhile q = t.takeWhile q ∧ (t ++ rest).dropWhile q = t.dropWhile q ++ rest := by
  induction t with
  | nil =>
    cases rest with
    | nil => simp
    | cons c rest => simp [hrest c rfl]
  | cons c t ih =>
    cases hc : q c with
    | true => simp [hc, ih]
    | false => simp [hc]

namespace Piece

/-- The piece with more text behind it. -/
def before (p : Piece) (rest : Text) : Piece := { p with rest := p.rest ++ rest }

/-- The word `in` is found behind a `not` in front of any other text; where there are only blanks in
front, that text must not be such a word itself. -/
lemma inWord?_append {t : Text} (hrest : rest.EndsWord)
    (hin : (∀ c ∈ t, isBlank c = true) → inWord? rest = none) :
    inWord? (t ++ rest) = (inWord? t).map fun (more, behind) => (more, behind ++ rest) := by
  induction t with
  | nil => exact hin (by simp)
  | cons c t ih =>
    cases hc : isBlank c with
    | true =>
      have hin : (∀ c ∈ t, isBlank c = true) → inWord? rest = none := by
        intro ht
        exact hin (List.forall_mem_cons.mpr ⟨hc, ht⟩)
      rw [List.cons_append, inWord?_cons_blank hc, ih hin, inWord?_cons_blank hc, Option.map_map,
        Option.map_map]
      rfl
    | false =>
      by_cases hi : c = 'i'
      · subst hi
        simp only [inWord?, List.cons_append, List.dropWhile_cons, List.takeWhile_cons, hc,
          Bool.false_eq_true, ↓reduceIte, takeWord_append_rest hrest]
        split_ifs <;> rfl
      · simp [inWord?, hc, hi]

/-- A token at the head of a text is found in front of any text that does not continue it. The word
`not` is, if it is not followed by blanks alone and a word `in`. -/
lemma ofText_append (hpiece : ofText c text = ⟨.ok kind, span, behind⟩) (hrest : rest.EndsToken)
    (hin : span = "not".toList → (∀ c ∈ behind, isBlank c = true) → inWord? rest = none) :
    ofText c (text ++ rest) = before ⟨.ok kind, span, behind⟩ rest := by
  have hnot : span = "not".toList → inWord? (behind ++ rest) = none := by
    rintro rfl
    rw [inWord?_append hrest.endsWord (hin rfl), inWord?_eq_none_of_ofText hpiece, Option.map_none]
  obtain ⟨tail, rfl, hsame⟩ := ofText_of_stopsAs hpiece (hrest.stopsAs behind) hnot
  have htext : tail ++ behind = text := (List.cons.inj (append_of_ofText hpiece)).2
  rw [← htext, List.append_assoc]
  exact hsame

end Piece

end Append

/-! ### Scans inside other text -/

section Inside

variable {offset offset' n : Nat} {text mid rest : Text} {ts : List Token.Spaced}

/-- A text without errors is passed to its end. -/
lemma passes_of_errors_eq_nil (offset : Nat) (text : Text)
    (h : (piecesFrom 0 offset text).filterMap Placed.error? = []) :
    Passes offset text ((piecesFrom 0 offset text).filterMap Placed.token?)
      (offset + text.length) [] := by
  induction offset, text using scan_induction with
  | nil offset => exact .refl _ _
  | blank offset c text hc ih =>
    rw [piecesFrom, if_pos hc] at h ⊢
    rw [show offset + (c :: text).length = offset + 1 + text.length by simp; omega]
    exact .blank hc (ih h)
  | piece offset c text kind span behind hc hpiece ih =>
    rw [piecesFrom_piece hc hpiece] at h ⊢
    cases kind with
    | error fault => cases h
    | ok kind =>
      have hpass := ih h
      rw [Nat.add_assoc, ← List.length_append, Piece.append_of_ofText hpiece] at hpass
      exact .token hc hpiece hpass

/-- The token as much further on. -/
def Token.Spaced.shift (n : Nat) (t : Token.Spaced) : Token.Spaced :=
  { t with offset := n + t.offset }

lemma trailOf_of_endsTight (htext : text.EndsTight) : trailOf text = text.takeWhile isBlank := by
  rw [trailOf]
  split_ifs with hall
  · cases hlast : text.getLast? with
    | none =>
      rw [List.getLast?_eq_none_iff] at hlast
      rw [hlast]
      rfl
    | some c =>
      have hblank := List.all_eq_true.mp hall c (List.mem_of_getLast? hlast)
      rw [htext c hlast] at hblank
      cases hblank
  · rfl

/-- In front of anything but a blank, the blanks at the head of a text are its trail. -/
lemma trailOf_append_cons {c : Char} (hc : isBlank c = false) (t rest : Text) :
    trailOf (t ++ c :: rest) = t.takeWhile isBlank := by
  have htake : (t ++ c :: rest).takeWhile isBlank = t.takeWhile isBlank :=
    (takeWhile_append_rest (by simp [hc]) t).1
  have hall : (t ++ c :: rest).all isBlank = false := by simp [hc]
  rw [trailOf, hall, htake]
  rfl

lemma trailOf_append_rparen (htext : text.EndsTight) (rest : Text) :
    trailOf (text ++ ')' :: rest) = trailOf text := by
  rw [trailOf_append_cons (by decide), trailOf_of_endsTight htext]

/-- In front of a parenthesis the same tokens are passed as without it, and more behind. -/
lemma Passes.inside (h : Passes offset text ts offset' mid) (htext : text.EndsTight) (n : Nat)
    (rest : Text) : Passes (n + offset) (text ++ ')' :: rest) (ts.map (·.shift n)) (n + offset')
      (mid ++ ')' :: rest) := by
  induction h with
  | refl => exact .refl _ _
  | blank hc _ ih => exact .blank hc (ih htext.of_cons)
  | @token offset offset' c text span behind mid kind ts hc hpiece _ ih =>
    have hbehind : behind.EndsTight := by
      rw [← Piece.append_of_ofText hpiece] at htext
      exact htext.of_append
    have hin : Piece.inWord? (')' :: rest) = none := by simp [Piece.inWord?, isBlank]
    have hpiece' : Piece.ofText c (text ++ ')' :: rest) =
        ⟨.ok kind, span, behind ++ ')' :: rest⟩ :=
      Piece.ofText_append hpiece (Text.endsToken_rparen rest) fun _ _ => hin
    have hpass := ih hbehind
    rw [← Nat.add_assoc] at hpass
    have h := Passes.token hc hpiece' hpass
    rwa [trailOf_append_rparen hbehind] at h

end Inside

end WhenClause
