import WhenClause.Proofs.Scan.Spans
import WhenClause.Proofs.Scan.Surroundings

/-!
# Tokens with other blanks between them

The tokens of a text without scan errors are found again when their source characters are set with
any blanks between them, at least one between two tokens (`tokenize_respace`). One token is found
again because a blank continues none (`Piece.ofText_of_stopsAs`); only for the word `not` the tokens
behind it have to be known, and they are known by induction.
-/

namespace WhenClause

/-- The source characters of a token of a text. -/
def Token.slice (text : Text) (t : Token) : Text := (text.drop t.offset).take t.width

/-- Tokens as they are cut, each with the blanks behind it. -/
def layOut (cut : Token → Text) : List (Token × Text) → Text
  | []                 => []
  | (t, gap) :: spaced => cut t ++ (gap ++ layOut cut spaced)

/-- The same tokens, each at the offset where it is laid out. -/
def placeFrom (cut : Token → Text) : Nat → List (Token × Text) → List Token
  | _, []                      => []
  | offset, (t, gap) :: spaced =>
    { t with offset := offset } :: placeFrom cut (offset + (cut t).length + gap.length) spaced

/-- The tokens of a text with other blanks before, between and behind them. -/
def Text.respace (text lead : Text) (spaced : List (Token × Text)) : Text :=
  lead ++ layOut (Token.slice text) spaced

section LayOut

variable {cut cut' : Token → Text} {spaced : List (Token × Text)}

lemma layOut_congr (h : ∀ t ∈ spaced.map Prod.fst, cut t = cut' t) :
    layOut cut spaced = layOut cut' spaced := by
  induction spaced with
  | nil => rfl
  | cons p spaced ih =>
    obtain ⟨ht, hspaced⟩ := List.forall_mem_cons.mp h
    rw [layOut, layOut, ht, ih hspaced]

lemma placeFrom_congr (h : ∀ t ∈ spaced.map Prod.fst, cut t = cut' t) (offset : Nat) :
    placeFrom cut offset spaced = placeFrom cut' offset spaced := by
  induction spaced generalizing offset with
  | nil => rfl
  | cons p spaced ih =>
    obtain ⟨ht, hspaced⟩ := List.forall_mem_cons.mp h
    rw [placeFrom, placeFrom, ht, ih hspaced]

lemma map_kind_placeFrom (cut : Token → Text) (offset : Nat) (spaced : List (Token × Text)) :
    (placeFrom cut offset spaced).map Token.kind = (spaced.map Prod.fst).map Token.kind := by
  induction spaced generalizing offset with
  | nil => rfl
  | cons p spaced ih => simp [placeFrom, ih]

/-- No gap is empty but the last, so a blank or the end stands behind every token. -/
lemma stopsAs_layOut {t : Token} {gap : Text} (hgap : ∀ c ∈ gap, isBlank c = true)
    (hgaps : ∀ p ∈ ((t, gap) :: spaced).dropLast, p.2 ≠ []) (behind : Text) :
    (gap ++ layOut cut spaced).StopsAs behind := by
  cases gap with
  | cons c gap =>
    exact Text.stopsAs_cons (continuesToken_of_isBlank (hgap c (List.mem_cons_self ..))) _ _
  | nil =>
    cases spaced with
    | nil => exact Text.stopsAs_nil _
    | cons p spaced => exact absurd rfl (hgaps _ (List.mem_cons_self ..))

end LayOut

section Passes

variable {offset offset' o o' : Nat} {text text' rest gap : Text} {ts us : List Token.Spaced}

/-- What a pass to the end gives is found again with other blanks between the tokens. -/
lemma Passes.laidOut (h : Passes offset text ts offset' []) {spaced : List (Token × Text)}
    (htokens : spaced.map Prod.fst = ts.map (·.toToken))
    (hblank : ∀ p ∈ spaced, ∀ c ∈ p.2, isBlank c = true)
    (hgaps : ∀ p ∈ spaced.dropLast, p.2 ≠ []) (o : Nat) :
    ∃ us, Passes o (layOut Token.source spaced) us (o + (layOut Token.source spaced).length) [] ∧
      us.map (·.toToken) = placeFrom Token.source o spaced := by
  generalize hrest : ([] : Text) = rest at h
  induction h generalizing o spaced with
  | refl =>
    subst hrest
    obtain rfl : spaced = [] := by simpa using htokens
    exact ⟨[], .refl _ _, rfl⟩
  | blank _ _ ih => exact ih htokens hblank hgaps o hrest
  | @token offset offset' c text span behind rest kind ts hc hpiece hpass ih =>
    subst hrest
    cases spaced with
    | nil => cases htokens
    | cons p spaced =>
      obtain ⟨t, gap⟩ := p
      obtain ⟨ht, htail⟩ := List.cons.inj htokens
      obtain ⟨hgap, hblanks⟩ := List.forall_mem_cons.mp hblank
      dsimp only at ht hgap
      subst ht
      have hstop : (gap ++ layOut Token.source spaced).StopsAs behind :=
        stopsAs_layOut hgap hgaps behind
      have hgaps' : ∀ p ∈ spaced.dropLast, p.2 ≠ [] := by
        intro p hp
        cases spaced with
        | nil => cases hp
        | cons q spaced => exact hgaps p (List.mem_cons_of_mem _ hp)
      obtain ⟨us, hus, hplaced⟩ := ih htail hblanks hgaps' (o + span.length + gap.length) rfl
      have hbehind := (passes_blanks hgap (o + span.length) _).append hus
      have hkinds : us.map (·.kind) = ts.map (·.kind) := by
        have hmap := congrArg (List.map Token.kind) hplaced
        rwa [map_kind_placeFrom, htail, List.map_map, List.map_map] at hmap
      have hin : span = "not".toList →
          Piece.inWord? (gap ++ layOut Token.source spaced) = none := by
        rintro rfl
        have hnone := Piece.inWord?_eq_none_of_ofText hpiece
        exact inWord?_eq_none_congr hpass hbehind hkinds rfl hnone
      obtain ⟨tail, rfl, hsame⟩ := Piece.ofText_of_stopsAs hpiece hstop hin
      have hsource : Token.source ⟨kind, Placed.lexemeOf kind (c :: tail), offset⟩ = c :: tail :=
        congrArg Span.source (Token.span_of_ofText hpiece offset)
      have hfound : Passes o (c :: (tail ++ (gap ++ layOut Token.source spaced))) _ _ [] :=
        .token hc hsame hbehind
      rw [layOut, placeFrom, hsource, List.length_append, List.length_append, ← Nat.add_assoc,
        ← Nat.add_assoc, ← hplaced]
      exact ⟨_, hfound, rfl⟩

end Passes

variable {text lead : Text} {spaced : List (Token × Text)}

lemma slice_eq_source {t : Token} (h : t ∈ (spacedTokens text).map (·.toToken)) :
    t.slice text = t.source := by
  obtain ⟨t, ht, rfl⟩ := List.mem_map.mp h
  exact (liesIn_of_mem_spacedTokens ht).source_eq

/-- Other blanks between the tokens of a text, at least one between two of them, leave the tokens
what they are: each is found where it was set, and there are no errors. -/
theorem tokenize_respace (herrors : scanErrors text = [])
    (htokens : (tokenize text).1 = spaced.map Prod.fst ++ [.endOf text.length])
    (hlead : ∀ c ∈ lead, isBlank c = true) (hblank : ∀ p ∈ spaced, ∀ c ∈ p.2, isBlank c = true)
    (hgaps : ∀ p ∈ spaced.dropLast, p.2 ≠ []) :
    tokenize (text.respace lead spaced) =
      (placeFrom (Token.slice text) lead.length spaced ++
        [.endOf (text.respace lead spaced).length], []) := by
  have hspaced : spaced.map Prod.fst = (spacedTokens text).map (·.toToken) :=
    (List.append_cancel_right htokens).symm
  have hslice : ∀ t ∈ spaced.map Prod.fst, t.slice text = t.source := by
    rw [hspaced]
    exact fun t => slice_eq_source
  have hpass := passes_of_errors_eq_nil 0 text herrors
  obtain ⟨us, hus, hplaced⟩ := hpass.laidOut hspaced hblank hgaps lead.length
  obtain ⟨hscan, hnone⟩ : spacedTokens (text.respace lead spaced) = us ∧
      scanErrors (text.respace lead spaced) = [] := by
    have hlead := passes_blanks hlead 0 (layOut Token.source spaced)
    rw [Nat.zero_add] at hlead
    rw [Text.respace, layOut_congr hslice]
    exact (hlead.append hus).to_end
  rw [tokenize, hscan, hnone, hplaced, placeFrom_congr hslice]

/-- A text in which a key, a word with a double quote, an operator, a regex, another key, the word
`not`, a parenthesis and the words `in` and `not in` stand side by side. -/
theorem tokenize_respace_of_touching :
    let text : Text := "a\"b==/x/iz\rnot(in)not\tin!=".toList
    let lead : Text := " \t".toList
    let spaced := (tokenize text).1.dropLast.map fun t => (t, "\u00a0\n".toList)
    (scanErrors text = [] ∧
      (tokenize text).1 = spaced.map Prod.fst ++ [.endOf text.length] ∧
      (∀ c ∈ lead, isBlank c = true) ∧ (∀ p ∈ spaced, ∀ c ∈ p.2, isBlank c = true) ∧
      ∀ p ∈ spaced.dropLast, p.2 ≠ []) ∧
    (tokenize text).1.map (fun t => String.ofList t.lexeme) =
      ["a", "\"b", "==", "/x/i", "z", "not", "(", "in", ")", "not\tin", "!=", ""] ∧
    tokenize (text.respace lead spaced) =
      (placeFrom (Token.slice text) lead.length spaced ++
        [.endOf (text.respace lead spaced).length], []) := by
  intro text lead spaced
  have herrors : scanErrors text = [] := by decide +kernel
  have htokens : (tokenize text).1 = spaced.map Prod.fst ++ [.endOf text.length] := by
    decide +kernel
  have hlead : ∀ c ∈ lead, isBlank c = true := List.all_eq_true.mp (by decide)
  have hblanks : spaced.all (fun p => p.2.all isBlank) = true := by decide +kernel
  have hblank : ∀ p ∈ spaced, ∀ c ∈ p.2, isBlank c = true := fun p hp =>
    List.all_eq_true.mp (List.all_eq_true.mp hblanks p hp)
  have hgaps : ∀ p ∈ spaced.dropLast, p.2 ≠ [] := by decide +kernel
  exact ⟨⟨herrors, htokens, hlead, hblank, hgaps⟩, by decide +kernel,
    tokenize_respace herrors htokens hlead hblank hgaps⟩

end WhenClause
