import Mathlib.Data.List.Forall2
import WhenClause.Proofs.Scan.Spans
import WhenClause.Proofs.Scan.Surroundings

/-!
# Other text in the place of a token

A scan up to some place goes the same way whatever stands there, as long as that continues no token
in front of it (`Passes.upTo`); behind that place it goes the same way at any offset
(`Passes.exists_moved`). So a token of a text can give way to a text in quotes, and all other tokens
stay what they are (`exists_passes_quoteAt`).
-/

namespace WhenClause

/-- The text with a text in quotes in the place of a token. -/
def Text.quoteAt (text : Text) (t : Token) (value : Text) : Text :=
  text.take t.offset ++ '\'' :: (value ++ '\'' :: text.drop (t.offset + t.width))

/-- Two tokens differ at most in where they stand. -/
def Token.Spaced.Moved (t u : Token.Spaced) : Prop := u = { t with offset := u.offset }

variable {offset offset' : Nat} {text rest rest' value : Text} {t : Token.Spaced}
  {ts us before after : List Token.Spaced} {c d : Char}

namespace Passes

/-- What is passed stands in front of what is left. -/
lemma exists_append (h : Passes offset text ts offset' rest) :
    ∃ u, text = u ++ rest ∧ offset' = offset + u.length := by
  induction h with
  | refl => exact ⟨[], rfl, rfl⟩
  | @blank _ _ c _ _ _ _ _ ih =>
    obtain ⟨u, rfl, rfl⟩ := ih
    exact ⟨c :: u, rfl, by rw [List.length_cons]; omega⟩
  | @token _ _ c text span _ _ _ _ _ hpiece _ ih =>
    obtain ⟨u, rfl, rfl⟩ := ih
    refine ⟨span ++ u, ?_, ?_⟩
    · rw [← Piece.append_of_ofText hpiece, List.append_assoc]
    · rw [List.length_append]
      omega

/-- A pass that gives two lists of tokens stands between them at some place. -/
lemma exists_between (h : Passes offset text (ts ++ us) offset' rest) :
    ∃ mid behind, Passes offset text ts mid behind ∧ Passes mid behind us offset' rest := by
  generalize hvs : ts ++ us = vs at h
  induction h generalizing ts with
  | refl offset text =>
    obtain ⟨rfl, rfl⟩ := List.append_eq_nil_iff.mp hvs
    exact ⟨offset, text, .refl _ _, .refl _ _⟩
  | blank hc _ ih =>
    obtain ⟨mid, behind, hts, hus⟩ := ih hvs
    exact ⟨mid, behind, .blank hc hts, hus⟩
  | @token offset _ c text _ _ _ _ _ hc hpiece hpass ih =>
    cases ts with
    | nil =>
      obtain rfl : us = _ := hvs
      exact ⟨offset, c :: text, .refl _ _, .token hc hpiece hpass⟩
    | cons t ts =>
      obtain ⟨rfl, htail⟩ := List.cons.inj hvs
      obtain ⟨mid, behind, hts, hus⟩ := ih htail
      exact ⟨mid, behind, .token hc hpiece hts, hus⟩

/-- The first token of a pass is the piece behind some blanks. -/
lemma exists_token (h : Passes offset text (t :: ts) offset' rest) :
    ∃ (gap : Text) (c : Char) (tail span behind : Text) (kind : Token.Kind),
      (∀ d ∈ gap, isBlank d = true) ∧ text = gap ++ c :: tail ∧ isBlank c = false ∧
      Piece.ofText c tail = ⟨.ok kind, span, behind⟩ ∧
      t = ⟨⟨kind, Placed.lexemeOf kind span, offset + gap.length⟩, trailOf behind⟩ ∧
      Passes (offset + gap.length + span.length) behind ts offset' rest := by
  generalize hvs : t :: ts = vs at h
  induction h with
  | refl => cases hvs
  | @blank offset _ d _ _ _ hd _ ih =>
    obtain ⟨gap, c, tail, span, behind, kind, hgap, rfl, hc, hpiece, rfl, hpass⟩ := ih hvs
    have hoffset : offset + 1 + gap.length = offset + (d :: gap).length := by
      rw [List.length_cons]
      omega
    rw [hoffset] at hpass ⊢
    exact ⟨d :: gap, c, tail, span, behind, kind, List.forall_mem_cons.mpr ⟨hd, hgap⟩, rfl, hc,
      hpiece, rfl, hpass⟩
  | token hc hpiece hpass _ =>
    obtain ⟨rfl, rfl⟩ := List.cons.inj hvs
    exact ⟨[], _, _, _, _, _, by simp, rfl, hc, hpiece, rfl, hpass⟩

/-- A pass up to a token can be made up to anything else that continues no token more than that one
does and is not the word `in`. -/
lemma upTo (h : Passes offset text ts offset' (c :: rest)) (hc : isBlank c = false)
    (hd : isBlank d = false) (hstop : Text.StopsAs (d :: rest') (c :: rest))
    (hin : Piece.inWord? (d :: rest') = none) :
    ∃ u, text = u ++ c :: rest ∧ Passes offset (u ++ d :: rest') ts offset' (d :: rest') := by
  generalize hmid : c :: rest = mid at h
  induction h with
  | refl =>
    subst hmid
    exact ⟨[], rfl, .refl _ _⟩
  | @blank _ _ b _ _ _ hb _ ih =>
    obtain ⟨u, rfl, hpass⟩ := ih hmid
    exact ⟨b :: u, rfl, .blank hb hpass⟩
  | @token offset offset' b text span behind _ kind ts hb hpiece hold ih =>
    obtain ⟨u, rfl, hpass⟩ := ih hmid
    subst hmid
    have hnot : span = "not".toList → Piece.inWord? (u ++ d :: rest') = none := by
      rintro rfl
      exact inWord?_eq_none_congr hold hpass rfl hin (Piece.inWord?_eq_none_of_ofText hpiece)
    obtain ⟨tail, rfl, hsame⟩ := Piece.ofText_of_stopsAs hpiece (hstop.append u) hnot
    have htext : tail ++ (u ++ c :: rest) = text :=
      (List.cons.inj (Piece.append_of_ofText hpiece)).2
    have hfound : Passes offset (b :: (tail ++ (u ++ d :: rest'))) _ offset' (d :: rest') :=
      .token hb hsame hpass
    rw [trailOf_append_cons hd, ← trailOf_append_cons hc u rest] at hfound
    exact ⟨b :: (tail ++ u), by rw [← htext]; simp, by simpa using hfound⟩

/-- The same pass can be made from any offset. -/
lemma exists_moved (h : Passes offset text ts offset' rest) (n : Nat) :
    ∃ us n', Passes n text us n' rest ∧ List.Forall₂ Token.Spaced.Moved ts us := by
  induction h generalizing n with
  | refl => exact ⟨[], n, .refl _ _, .nil⟩
  | blank hc _ ih =>
    obtain ⟨us, n', hpass, hmoved⟩ := ih (n + 1)
    exact ⟨us, n', .blank hc hpass, hmoved⟩
  | @token _ _ _ _ span _ _ _ _ hc hpiece _ ih =>
    obtain ⟨us, n', hpass, hmoved⟩ := ih (n + span.length)
    exact ⟨_, n', .token hc hpiece hpass, .cons rfl hmoved⟩

end Passes

/-- With a text in quotes in the place of one token, the tokens before it stay where they are and
those behind it stay what they are. -/
lemma exists_passes_quoteAt (h : Passes 0 text (before ++ t :: after) offset' [])
    (hvalue : '\'' ∉ value) :
    ∃ after' n, Passes 0 (text.quoteAt t.toToken value)
        (before ++ ⟨⟨.string, value, t.offset⟩, t.trail⟩ :: after') n [] ∧
      List.Forall₂ Token.Spaced.Moved after after' := by
  obtain ⟨mid, rest, hbefore, hrest⟩ := h.exists_between
  obtain ⟨gap, c, tail, span, behind, kind, hgap, rfl, hc, hpiece, rfl, hafter⟩ :=
    hrest.exists_token
  have hquote : isBlank '\'' = false := by decide
  have hstop : Text.StopsAs ('\'' :: (value ++ '\'' :: behind)) (c :: tail) :=
    Text.stopsAs_cons (by decide) _ _
  have hin : Piece.inWord? ('\'' :: (value ++ '\'' :: behind)) = none := by
    simp [Piece.inWord?, hquote]
  -- the token stands behind what is passed before it
  have hfront := hbefore.append (passes_blanks hgap mid (c :: tail))
  rw [List.append_nil] at hfront
  obtain ⟨u, rfl, hfront'⟩ := hfront.upTo hc hquote hstop hin
  obtain ⟨u', hu, hlength⟩ := hfront.exists_append
  obtain rfl := List.append_cancel_right hu
  rw [Nat.zero_add] at hlength
  have htail : c :: tail = span ++ behind := (Piece.append_of_ofText hpiece).symm
  have hwidth : Token.width ⟨kind, Placed.lexemeOf kind span, mid + gap.length⟩ = span.length :=
    congrArg Span.width (Token.span_of_ofText hpiece _)
  have hquoted : Text.quoteAt (u ++ c :: tail)
      ⟨kind, Placed.lexemeOf kind span, mid + gap.length⟩ value =
        u ++ '\'' :: (value ++ '\'' :: behind) := by
    rw [Text.quoteAt, hwidth, htail]
    simp [hlength]
  obtain ⟨after', n, hbehind, hmoved⟩ := hafter.exists_moved (mid + gap.length + (value.length + 2))
  refine ⟨after', n, ?_, hmoved⟩
  rw [hquoted]
  exact hfront'.append ((passes_quoted hvalue behind _).append hbehind)

end WhenClause
