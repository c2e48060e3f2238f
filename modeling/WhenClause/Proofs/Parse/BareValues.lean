import WhenClause.Proofs.Grammar.Recognition
import WhenClause.Proofs.Scan.Replacement

/-!
# Values without quotes

On the right side of an equality a word is read with the blanks behind it. What is read is the text
from the beginning of the word up to the next token, or the word alone where no token follows
(`Reading.run_bare_value`). So the value is the same whether the blanks are kept with the token or
cut from the text at the offsets of two tokens (`TestPart.equalityValue?_eq_slicedValue?`).
-/

namespace WhenClause

/-- The characters of a text from one offset up to another. -/
def Text.between (text : Text) (start stop : Nat) : Text := (text.drop start).take (stop - start)

lemma Text.between_append (a b c : Text) :
    Text.between (a ++ (b ++ c)) a.length (a.length + b.length) = b := by
  simp [Text.between]

/-- A value is what a text has from one token up to the next: the first token, and blanks. -/
structure IsCut (input : Text) (t u : Token) (value : Text) : Prop where
  ordered : t.offset + t.width ≤ u.offset
  within : u.offset ≤ input.length
  eq_between : value = input.between t.offset u.offset
  eq_lexeme_append : value = t.lexeme ++ input.between (t.offset + t.width) u.offset
  blank : ∀ c ∈ input.between (t.offset + t.width) u.offset, isBlank c = true

variable {input text gap key : Text} {c : Char} {offset offset' n : Nat} {t u : Token.Spaced}
  {before after : List Token.Spaced}

/-- A text that is cut at both ends of a word and behind the blanks that follow. -/
lemma IsCut.of_append {t u : Token} (front gap rest : Text) (hwidth : t.width = t.lexeme.length)
    (hinput : input = front ++ (t.lexeme ++ (gap ++ rest))) (ht : t.offset = front.length)
    (hu : u.offset = front.length + t.lexeme.length + gap.length)
    (hgap : ∀ c ∈ gap, isBlank c = true) : IsCut input t u (t.lexeme ++ gap) := by
  have hbehind : input.between (t.offset + t.width) u.offset = gap := by
    have h := Text.between_append (front ++ t.lexeme) gap rest
    rw [List.append_assoc, ← hinput, List.length_append] at h
    rw [ht, hwidth, hu, h]
  have hwhole : input.between t.offset u.offset = t.lexeme ++ gap := by
    have h := Text.between_append front (t.lexeme ++ gap) rest
    rw [List.append_assoc, ← hinput, List.length_append, ← Nat.add_assoc] at h
    rw [ht, hu, h]
  constructor
  · omega
  · rw [hinput]
    simp only [List.length_append]
    omega
  · exact hwhole.symm
  · rw [hbehind]
  · rwa [hbehind]

/-! ### The trail of a token -/

lemma trailOf_of_isBlank (htext : ∀ c ∈ text, isBlank c = true) : trailOf text = [] := by
  rw [trailOf, if_pos (List.all_eq_true.mpr htext)]

/-- Blanks in front of a token are the whole trail of the one before. -/
lemma trailOf_gap (hgap : ∀ c ∈ gap, isBlank c = true) (hc : isBlank c = false) (text : Text) :
    trailOf (gap ++ c :: text) = gap := by
  rw [trailOf_append_cons hc, List.takeWhile_eq_self_iff.mpr hgap]

/-- The source of a word is its lexeme. -/
lemma lexemeOf_of_isWordKind {kind : Token.Kind} (hkind : Operand.isWordKind kind = true)
    (span : Text) : Placed.lexemeOf kind span = span := by
  cases kind <;> first | rfl | cases hkind

lemma Token.width_of_isWordKind {t : Token} (ht : Operand.isWordKind t.kind = true) :
    t.width = t.lexeme.length := by
  obtain ⟨kind, lexeme, offset⟩ := t
  cases kind <;> first | rfl | cases ht

namespace Passes

/-- Where no token is passed up to the end, there are blanks only. -/
lemma isBlank_of_nil (h : Passes offset text [] offset' []) : ∀ c ∈ text, isBlank c = true := by
  generalize hts : ([] : List Token.Spaced) = ts at h
  generalize hrest : ([] : Text) = rest at h
  induction h with
  | refl => simp [← hrest]
  | blank hc _ ih => exact List.forall_mem_cons.mpr ⟨hc, ih hts hrest⟩
  | token => cases hts

/-- Behind the last token of a text there is no trail. -/
lemma trail_eq_nil (h : Passes offset input (before ++ [t]) n []) : t.trail = [] := by
  obtain ⟨mid, behind, -, h⟩ := h.exists_between
  obtain ⟨gap, c, tail, span, rest, kind, -, -, -, -, rfl, hend⟩ := h.exists_token
  exact trailOf_of_isBlank hend.isBlank_of_nil

/-- A word with its trail reaches up to the next token. -/
lemma isCut (h : Passes 0 input (before ++ t :: u :: after) n [])
    (ht : Operand.isWordKind t.kind = true) :
    IsCut input t.toToken u.toToken (t.lexeme ++ t.trail) := by
  obtain ⟨mid, behind, hbefore, hbehind⟩ := h.exists_between
  obtain ⟨front, rfl, rfl⟩ := hbefore.exists_append
  obtain ⟨gap, c, tail, span, rest, kind, -, rfl, -, hpiece, rfl, hrest⟩ := hbehind.exists_token
  obtain ⟨gap', d, tail', -, -, -, hgap', rfl, hd, -, rfl, -⟩ := hrest.exists_token
  have hlexeme : Placed.lexemeOf kind span = span := lexemeOf_of_isWordKind ht span
  rw [trailOf_gap hgap' hd, ← Piece.append_of_ofText hpiece]
  refine IsCut.of_append (front ++ gap) gap' (d :: tail') (Token.width_of_isWordKind ht) ?_ ?_ ?_
    hgap'
  · simp [hlexeme]
  · simp
  · simp [hlexeme]

end Passes

/-! ### What is read -/

/-- A token that is not the last is followed by the end or by another token. -/
lemma spacedTokens_of_endedTokens (h : endedTokens input = before ++ t :: u :: after) :
    (u.kind = .eof ∧ spacedTokens input = before ++ [t]) ∨
      (u.kind ≠ .eof ∧ ∃ after', spacedTokens input = before ++ t :: u :: after') := by
  rw [endedTokens] at h
  rcases List.eq_nil_or_concat after with rfl | ⟨after, last, rfl⟩
  · left
    have h : spacedTokens input ++ [⟨.endOf input.length, []⟩] = (before ++ [t]) ++ [u] := by
      simpa using h
    obtain ⟨hspaced, hend⟩ := List.append_inj' h rfl
    rw [← (List.cons.inj hend).1]
    exact ⟨rfl, hspaced⟩
  · right
    have h : spacedTokens input ++ [⟨.endOf input.length, []⟩] =
        (before ++ t :: u :: after) ++ [last] := by simpa using h
    have hspaced := (List.append_inj' h rfl).1
    have hmem : u ∈ spacedTokens input := by simp [hspaced]
    exact ⟨kind_ne_eof_of_mem_spacedTokens hmem, after, hspaced⟩

section Consecutive

variable (hscan : scanErrors input = []) (htokens : endedTokens input = before ++ t :: u :: after)
include hscan htokens

/-- A word reaches with its trail up to the token behind it. -/
lemma isCut_of_endedTokens (ht : Operand.isWordKind t.kind = true) (hu : u.kind ≠ .eof) :
    IsCut input t.toToken u.toToken (t.lexeme ++ t.trail) := by
  have hpass : Passes 0 input (spacedTokens input) (0 + input.length) [] :=
    passes_of_errors_eq_nil 0 input hscan
  obtain ⟨heof, -⟩ | ⟨-, after', hspaced⟩ := spacedTokens_of_endedTokens htokens
  · exact absurd heof hu
  · rw [hspaced] at hpass
    exact hpass.isCut ht

lemma trail_eq_nil_of_endedTokens (hu : u.kind = .eof) : t.trail = [] := by
  have hpass : Passes 0 input (spacedTokens input) (0 + input.length) [] :=
    passes_of_errors_eq_nil 0 input hscan
  obtain ⟨-, hspaced⟩ | ⟨hne, -⟩ := spacedTokens_of_endedTokens htokens
  · rw [hspaced] at hpass
    exact hpass.trail_eq_nil
  · exact absurd hu hne

end Consecutive

/-- The value that a token is on the right side of an equality in front of the token `next`, with
what separates the two cut from the text at their offsets. -/
def TestPart.slicedValue? (text : Text) (t next : Token) : Option Text :=
  if t.kind = .string then some t.lexeme
  else if Operand.isWordKind t.kind then
    if next.kind = .eof then some t.lexeme
    else
      let stop := t.offset + t.width
      some (t.lexeme ++ text.between stop (max next.offset stop))
  else none

/-- What a token has for a trail is what the text has between it and the next token. -/
theorem TestPart.equalityValue?_eq_slicedValue? (hscan : scanErrors input = [])
    (htokens : endedTokens input = before ++ t :: u :: after) :
    equalityValue? t = slicedValue? input t.toToken u.toToken := by
  rw [equalityValue?, slicedValue?]
  split_ifs with hstring hword heof
  · rfl
  · rw [trail_eq_nil_of_endedTokens hscan htokens heof, List.append_nil]
  · have hcut := isCut_of_endedTokens hscan htokens hword heof
    dsimp only
    rw [max_eq_left hcut.ordered, ← hcut.eq_lexeme_append]
  · rfl

namespace Reading

variable {r : Reading} {negated : Bool}

/-- A word on the right side of an equality is read with its trail. -/
lemma run_word (hrun : start.run before = .ok r) (hplace : r.place = .test n key (.equality negated))
    (ht : Operand.isWordKind t.kind = true) :
    start.run (before ++ [t]) =
      .ok (r.complete n (.test (.equals negated key (t.lexeme ++ t.trail) false))) := by
  obtain ⟨place, level, outer⟩ := r
  obtain rfl : place = _ := hplace
  have hvalue : TestPart.equalityValue? t = some (t.lexeme ++ t.trail) := by
    rw [TestPart.equalityValue?, if_neg (Token.Kind.ne_string_of_isWordKind ht), if_pos ht]
  have htest : TestPart.test? (.equality negated) key t =
      some (.equals negated key (t.lexeme ++ t.trail) false) := by
    rw [TestPart.test?, hvalue]
    rfl
  rw [run_append hrun, run_cons (step_test htest), run_nil]
  rfl

/-- Wherever a text without scan errors is read up to an equality with a word on its right side,
the value is what the text has from that word up to the next token, all of it blanks but for the
word; no quote is among it. Where no token follows, the value is the word alone. -/
theorem run_bare_value (hscan : scanErrors input = [])
    (htokens : endedTokens input = before ++ t :: u :: after) (hrun : start.run before = .ok r)
    (hplace : r.place = .test n key (.equality negated))
    (ht : Operand.isWordKind t.kind = true) :
    ∃ value, start.run (before ++ [t]) =
        .ok (r.complete n (.test (.equals negated key value false))) ∧
      '\'' ∉ value ∧ (u.kind ≠ .eof → IsCut input t.toToken u.toToken value) ∧
      (u.kind = .eof → value = t.lexeme) := by
  have hmem : t ∈ spacedTokens input := by
    rcases spacedTokens_of_endedTokens htokens with ⟨-, h⟩ | ⟨-, _, h⟩ <;> simp [h]
  have hwell := wellFormed_of_mem_spacedTokens hmem
  refine ⟨t.lexeme ++ t.trail, run_word hrun hplace ht, ?_, ?_, ?_⟩
  · rw [List.mem_append, not_or]
    exact ⟨hwell.quote_not_mem (.inr ht), hwell.quote_not_mem_trail⟩
  · exact isCut_of_endedTokens hscan htokens ht
  · intro hu
    rw [trail_eq_nil_of_endedTokens hscan htokens hu, List.append_nil]

/-- The word `in` with blanks in front of a parenthesis, in a text that goes on as no clause does,
and a word with blanks at the end of a text. -/
theorem run_bare_value_of_blanks :
    let s := "(b||k!= in \t) x".toList
    let before : List Token.Spaced := [⟨⟨.lparen, ['('], 0⟩, []⟩, ⟨⟨.key, ['b'], 1⟩, []⟩,
      ⟨⟨.or, ['|', '|'], 2⟩, []⟩, ⟨⟨.key, ['k'], 4⟩, []⟩, ⟨⟨.equality true, ['!', '='], 5⟩, [' ']⟩]
    let t : Token.Spaced := ⟨⟨.membership false, ['i', 'n'], 8⟩, [' ', '\t']⟩
    let u : Token.Spaced := ⟨⟨.rparen, [')'], 12⟩, [' ']⟩
    let after : List Token.Spaced := [⟨⟨.key, ['x'], 14⟩, []⟩, ⟨.endOf 15, []⟩]
    let r : Reading :=
      ⟨.test 0 ['k'] (.equality true), ⟨[.test (.present ['b'])], []⟩, [Level.start]⟩
    let s' := "k==v  ".toList
    let before' : List Token.Spaced :=
      [⟨⟨.key, ['k'], 0⟩, []⟩, ⟨⟨.equality false, ['=', '='], 1⟩, []⟩]
    let t' : Token.Spaced := ⟨⟨.key, ['v'], 3⟩, []⟩
    let u' : Token.Spaced := ⟨.endOf 6, []⟩
    let r' : Reading := ⟨.test 0 ['k'] (.equality false), Level.start, []⟩
    (scanErrors s = [] ∧ endedTokens s = before ++ t :: u :: after) ∧
    (scanErrors s' = [] ∧ endedTokens s' = before' ++ t' :: u' :: []) ∧
    (∃ value, start.run (before ++ [t]) =
        .ok (r.complete 0 (.test (.equals true ['k'] value false))) ∧
      '\'' ∉ value ∧ IsCut s t.toToken u.toToken value) ∧
    ∃ value, start.run (before' ++ [t']) =
        .ok (r'.complete 0 (.test (.equals false ['k'] value false))) ∧ value = ['v'] := by
  intro s before t u after r s' before' t' u' r'
  have h : scanErrors s = [] ∧ endedTokens s = before ++ t :: u :: after := by decide +kernel
  have h' : scanErrors s' = [] ∧ endedTokens s' = before' ++ t' :: u' :: [] := by decide +kernel
  have hrun : start.run before = .ok r := rfl
  have hrun' : start.run before' = .ok r' := rfl
  obtain ⟨value, hvalue, hquote, hcut, -⟩ := run_bare_value h.1 h.2 hrun rfl rfl
  obtain ⟨value', hvalue', -, -, hlast⟩ := run_bare_value h'.1 h'.2 hrun' rfl rfl
  exact ⟨h, h', ⟨value, hvalue, hquote, hcut (by decide)⟩, value', hvalue', hlast rfl⟩

end Reading

end WhenClause
