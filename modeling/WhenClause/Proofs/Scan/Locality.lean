import WhenClause.Proofs.Scan.OnDemand
import WhenClause.Proofs.Scan.Surroundings

/-!
# Errors stay where they are

Behind blanks a scan begins anew: the tokens and the errors of a text in front of blanks and another
text are its own, and those of the other text follow, as much further on as they stand behind
(`tokenize_append_gap`). The exceptions are an error that takes the rest of the text, for want of a
closing quote or slash, and the word `not` with a word `in` behind the blanks.
-/

namespace WhenClause

/-- An error that begins with a quote or a slash, whose partner is missing up to the end of the
text. -/
def ScanError.IsUnclosed : ScanError → Prop
  | .unterminatedString _ _ => True
  | .strayEquals _          => False
  | .unexpected lexeme _    => lexeme.head? = some '\'' ∨ lexeme.head? = some '/'

instance : DecidablePred ScanError.IsUnclosed
  | .unterminatedString _ _ => isTrue trivial
  | .strayEquals _          => isFalse not_false
  | .unexpected _ _         => inferInstanceAs (Decidable (_ ∨ _))

/-- The token as much further on. -/
def Token.shift (n : Nat) (t : Token) : Token := { t with offset := n + t.offset }

/-- The error as much further on. -/
def ScanError.shift (n : Nat) : ScanError → ScanError
  | .unterminatedString lexeme offset => .unterminatedString lexeme (n + offset)
  | .strayEquals offset               => .strayEquals (n + offset)
  | .unexpected lexeme offset         => .unexpected lexeme (n + offset)

variable {a b gap text rest span behind : Text} {c : Char} {fault : Fault} {p : Placed}
  {offset n : Nat}

/-! ### Pieces apart from their trails -/

namespace Placed

/-- The piece as much further on. -/
def shift (n : Nat) (p : Placed) : Placed := { p with offset := n + p.offset }

/-- The piece without the blanks behind it. -/
def bare (p : Placed) : Placed := { p with trail := [] }

@[simp] lemma error?_bare (p : Placed) : p.bare.error? = p.error? := rfl

@[simp] lemma error?_shift (n : Nat) (p : Placed) :
    (p.shift n).error? = p.error?.map (·.shift n) := by
  obtain ⟨fault | kind, span, offset, trail⟩ := p
  · cases fault <;> rfl
  · rfl

lemma map_token?_bare (p : Placed) :
    p.bare.token?.map (·.toToken) = p.token?.map (·.toToken) := by
  obtain ⟨fault | kind, span, offset, trail⟩ := p <;> rfl

lemma map_token?_shift (n : Nat) (p : Placed) :
    (p.shift n).token?.map (·.toToken) = (p.token?.map (·.toToken)).map (·.shift n) := by
  obtain ⟨fault | kind, span, offset, trail⟩ := p <;> rfl

end Placed

lemma tokensOf_eq (ps : List Placed) :
    tokensOf ps = ps.filterMap fun p => p.token?.map (·.toToken) := by
  rw [tokensOf, List.map_filterMap]

lemma tokensOf_map_bare (ps : List Placed) : tokensOf (ps.map Placed.bare) = tokensOf ps := by
  simp only [tokensOf_eq, List.filterMap_map, Function.comp_def, Placed.map_token?_bare]

lemma tokensOf_map_shift (n : Nat) (ps : List Placed) :
    tokensOf (ps.map (·.shift n)) = (tokensOf ps).map (·.shift n) := by
  simp only [tokensOf_eq, List.filterMap_map, Function.comp_def, Placed.map_token?_shift,
    List.map_filterMap]

/-- The pieces of a text stand as much further on as the text does. -/
lemma piecesFrom_shift (n skip offset : Nat) (text : Text) :
    piecesFrom skip (n + offset) text = (piecesFrom skip offset text).map (·.shift n) := by
  fun_induction piecesFrom skip offset text with
  | case1 skip => cases skip <;> rfl
  | case2 skip offset c text ih => exact ih
  | case3 offset c text hc ih =>
    rw [piecesFrom, if_pos hc]
    exact ih
  | case4 offset c text hc piece ih =>
    rw [piecesFrom, if_neg hc, List.map_cons, ← ih]
    rfl

lemma piecesFrom_blanks (hgap : ∀ c ∈ gap, isBlank c = true) (offset : Nat) (rest : Text) :
    piecesFrom 0 offset (gap ++ rest) = piecesFrom 0 (offset + gap.length) rest := by
  induction gap generalizing offset with
  | nil => rfl
  | cons c gap ih =>
    obtain ⟨hc, hgap⟩ := List.forall_mem_cons.mp hgap
    rw [List.cons_append, piecesFrom, if_pos hc, ih hgap, List.length_cons]
    congr 1
    omega

/-! ### Pieces in front of blanks -/

namespace Piece

/-- No sign stands where no sign begins, and where `&` and `|` are single. -/
lemma sign?_cons_eq_none_iff : sign? (c :: text) = none ↔
    c ∉ ['(', ')', '!', '=', '<', '>'] ∧ (c ∈ ['&', '|'] → text.head? ≠ some c) := by
  constructor
  · intro h
    constructor
    · unfold sign? at h
      split at h <;> simp_all
    · intro hc hhead
      obtain ⟨rest, rfl⟩ := List.head?_eq_some_iff.mp hhead
      obtain rfl | rfl : c = '&' ∨ c = '|' := by simpa using hc
      · cases h
      · cases h
  · rintro ⟨hc, hpair⟩
    unfold sign?
    split <;> simp_all

lemma sign?_append_eq_none (h : sign? (c :: text) = none) (hrest : rest.EndsToken) :
    sign? (c :: (text ++ rest)) = none := by
  rw [sign?_cons_eq_none_iff] at h ⊢
  refine ⟨h.1, fun hc => ?_⟩
  cases text with
  | cons d text => exact h.2 hc
  | nil =>
    obtain rfl | rfl : c = '&' ∨ c = '|' := by simpa using hc
    · exact hrest.head?_ne (by decide) (by decide)
    · exact hrest.head?_ne (by decide) (by decide)

lemma isUnclosed_of_quoted (h : quoted text = ⟨.error fault, span, behind⟩) (offset : Nat) :
    (ScanError.ofFault span offset fault).IsUnclosed := by
  rw [quoted] at h
  split at h
  · cases (mk.inj h).1
  · obtain ⟨hfault, rfl, -⟩ := mk.inj h
    split_ifs at hfault <;> cases hfault
    · exact .inl rfl
    · trivial

lemma isUnclosed_of_regexLiteral (h : regexLiteral text = ⟨.error fault, span, behind⟩)
    (offset : Nat) : (ScanError.ofFault span offset fault).IsUnclosed := by
  rw [regexLiteral] at h
  split at h
  · cases (mk.inj h).1
  · obtain ⟨hfault, rfl, -⟩ := mk.inj h
    cases hfault
    exact .inr rfl

lemma word_ne_error : word c text ≠ ⟨.error fault, span, behind⟩ := by
  intro h
  rw [word] at h
  dsimp only at h
  split at h <;> cases (mk.inj h).1

/-- Characters at fault are found again in front of any text that continues no token, unless they
are all that is left for want of a partner. -/
lemma ofText_append_fault (hpiece : ofText c text = ⟨.error fault, span, behind⟩)
    (hclosed : ¬(ScanError.ofFault span offset fault).IsUnclosed) (hrest : rest.EndsToken) :
    ofText c (text ++ rest) = before ⟨.error fault, span, behind⟩ rest := by
  rw [ofText] at hpiece ⊢
  cases hsign : sign? (c :: text) with
  | some p =>
    simp only [hsign] at hpiece
    subst hpiece
    have happend : span ++ behind = c :: text := span_append_rest_of_sign? hsign
    have hsame := sign?_of_stopsAs hsign (hrest.stopsAs behind)
    rw [← List.append_assoc, happend, List.cons_append] at hsame
    rw [hsame]
    rfl
  | none =>
    rw [sign?_append_eq_none hsign hrest]
    simp only [hsign] at hpiece ⊢
    split_ifs at hpiece ⊢
    · exact absurd (isUnclosed_of_quoted hpiece offset) hclosed
    · exact absurd (isUnclosed_of_regexLiteral hpiece offset) hclosed
    · exact absurd hpiece word_ne_error
    · cases hpiece
      rfl

end Piece

/-- A piece that is not all that is left for want of a partner is found again in front of any text
that continues no token. The word `not` is, if it is not followed by blanks alone and a word `in`. -/
lemma Piece.ofText_append_of_closed {kind : Except Fault Token.Kind} (offset : Nat)
    (hpiece : ofText c text = ⟨kind, span, behind⟩) (hrest : rest.EndsToken)
    (hclosed : ∀ fault, kind = .error fault → ¬(ScanError.ofFault span offset fault).IsUnclosed)
    (hin : kind = .ok .key → span = "not".toList → (∀ c ∈ behind, isBlank c = true) →
      inWord? rest = none) :
    ofText c (text ++ rest) = before ⟨kind, span, behind⟩ rest := by
  cases kind with
  | error fault => exact ofText_append_fault hpiece (hclosed fault rfl) hrest
  | ok kind =>
    refine ofText_append hpiece hrest fun hspan hblank => hin ?_ hspan hblank
    subst hspan
    rw [(kind_and_inWord?_of_ofText hpiece).1]

/-- In front of blanks a text has the pieces that it has alone, whatever stands behind the blanks,
but for a word `in` behind the word `not`. -/
lemma map_bare_piecesFrom_append (hrest : rest.EndsToken)
    (hclosed : ∀ e ∈ (piecesFrom 0 offset text).filterMap Placed.error?, ¬e.IsUnclosed)
    (hnot : ∀ p ∈ (piecesFrom 0 offset text).getLast?, p.kind = .ok .key →
      p.span = "not".toList → Piece.inWord? rest = none) :
    (piecesFrom 0 offset (text ++ rest)).map Placed.bare =
      (piecesFrom 0 offset text).map Placed.bare ++
        (piecesFrom 0 (offset + text.length) rest).map Placed.bare := by
  induction offset, text using scan_induction with
  | nil offset => simp [piecesFrom]
  | blank offset c text hc ih =>
    have hskip (t : Text) : piecesFrom 0 offset (c :: t) = piecesFrom 0 (offset + 1) t := by
      rw [piecesFrom, if_pos hc]
    rw [hskip] at hclosed hnot
    rw [List.cons_append, hskip, hskip, ih hclosed hnot, List.length_cons]
    congr 3
    omega
  | piece offset c text kind span behind hc hpiece ih =>
    rw [piecesFrom_piece hc hpiece] at hclosed hnot
    have hsame : Piece.ofText c (text ++ rest) = ⟨kind, span, behind ++ rest⟩ := by
      apply Piece.ofText_append_of_closed offset hpiece hrest
      · rintro fault rfl
        exact hclosed _ (by simp [Placed.error?])
      · intro hkind hspan hblank
        have hlast := piecesFrom_blanks hblank (offset + span.length) []
        rw [List.append_nil] at hlast
        exact hnot ⟨kind, span, offset, trailOf behind⟩ (by rw [hlast]; rfl) hkind hspan
    have hclosed' : ∀ e ∈ (piecesFrom 0 (offset + span.length) behind).filterMap Placed.error?,
        ¬e.IsUnclosed := by
      intro e he
      apply hclosed
      rw [List.filterMap_cons]
      split
      · exact he
      · exact List.mem_cons_of_mem _ he
    have hnot' : ∀ p ∈ (piecesFrom 0 (offset + span.length) behind).getLast?,
        p.kind = .ok .key → p.span = "not".toList → Piece.inWord? rest = none := by
      intro p hp
      apply hnot
      rw [List.getLast?_cons, hp]
      rfl
    rw [List.cons_append, piecesFrom_piece hc hsame, piecesFrom_piece hc hpiece, List.map_cons,
      List.map_cons, ih hclosed' hnot', Nat.add_assoc, ← List.length_append,
      Piece.append_of_ofText hpiece]
    rfl

/-! ### Texts in front of blanks -/

/-- The pieces of a text in front of blanks, and those of the text behind them. -/
lemma map_bare_pieces (hgap : gap ≠ []) (hblank : ∀ c ∈ gap, isBlank c = true)
    (hclosed : ∀ e ∈ scanErrors a, ¬e.IsUnclosed)
    (hnot : ∀ p ∈ (pieces a).getLast?, p.kind = .ok .key → p.span = "not".toList →
      Piece.inWord? (gap ++ b) = none) :
    (pieces (a ++ gap ++ b)).map Placed.bare =
      (pieces a ++ (pieces b).map (·.shift (a ++ gap).length)).map Placed.bare := by
  have hrest : Text.EndsToken (gap ++ b) := by
    cases gap with
    | nil => exact absurd rfl hgap
    | cons c gap =>
      intro d hd
      cases hd
      exact .inr (hblank c (List.mem_cons_self ..))
  have hshift := piecesFrom_shift (a ++ gap).length 0 0 b
  rw [Nat.add_zero, List.length_append] at hshift
  rw [pieces, List.append_assoc, map_bare_piecesFrom_append hrest hclosed hnot,
    piecesFrom_blanks hblank, Nat.zero_add, hshift, ← List.map_append, List.length_append]
  rfl

/-- A word `in` behind blanks is the first token of a text. -/
lemma kind_of_inWord? (h : (Piece.inWord? text).isSome) (offset : Nat) :
    ∃ t ∈ (tokensOf (piecesFrom 0 offset text)).head?, t.kind = .membership false := by
  induction offset, text using scan_induction with
  | nil offset => cases h
  | blank offset c text hc ih =>
    rw [Piece.inWord?_cons_blank hc, Option.isSome_map] at h
    rw [piecesFrom, if_pos hc]
    exact ih h
  | piece offset c text kind span behind hc hpiece _ =>
    obtain rfl := (Piece.inWord?_cons_isSome_iff hc hpiece).mp h
    rw [piecesFrom_piece hc hpiece]
    exact ⟨_, rfl, rfl⟩

/-- The last piece of a text is its last token, if it is a token. -/
lemma getLast?_tokensOf {ps : List Placed} {t : Token.Spaced} (hp : p ∈ ps.getLast?)
    (ht : p.token? = some t) : t.toToken ∈ (tokensOf ps).getLast? := by
  obtain ⟨ps, rfl⟩ := List.getLast?_eq_some_iff.mp hp
  rw [tokensOf_append]
  simp [tokensOf, ht]

/-- The word `not` at the end of a text joins no word behind it, if its last token is not the key
`not` or the first token behind is not the word `in`. -/
lemma inWord?_eq_none_of_tokens (hblank : ∀ c ∈ gap, isBlank c = true)
    (hnot : ¬((∃ t ∈ (tokenize a).1.dropLast.getLast?, t.kind = .key ∧ t.lexeme = "not".toList) ∧
      ∃ t ∈ (tokenize b).1.head?, t.kind = .membership false))
    (hp : p ∈ (pieces a).getLast?) (hkind : p.kind = .ok .key) (hspan : p.span = "not".toList) :
    Piece.inWord? (gap ++ b) = none := by
  by_contra hin
  obtain ⟨kind, span, offset, trail⟩ := p
  dsimp only at hkind hspan
  subst hkind hspan
  refine hnot ⟨⟨⟨.key, "not".toList, offset⟩, ?_, rfl, rfl⟩, ?_⟩
  · rw [Scanner.tokenize_tokens, List.dropLast_concat]
    exact getLast?_tokensOf hp rfl
  · obtain ⟨t, ht, hkind⟩ := kind_of_inWord? (Option.isSome_iff_ne_none.mpr hin) 0
    rw [piecesFrom_blanks hblank, Nat.zero_add, ← Nat.add_zero gap.length, piecesFrom_shift,
      tokensOf_map_shift, List.head?_map] at ht
    obtain ⟨t, hfirst, rfl⟩ := Option.map_eq_some_iff.mp ht
    refine ⟨t, ?_, hkind⟩
    rw [Scanner.tokenize_tokens, List.head?_append, pieces, hfirst]
    rfl

/-- Blanks keep a text apart from another one behind them: the tokens and the errors are those of the
first and then those of the second, as much further on as it stands behind, unless an error of the
first takes all that is left of it, or the two make one token of their words `not` and `in`. -/
theorem tokenize_append_gap (hgap : gap ≠ []) (hblank : ∀ c ∈ gap, isBlank c = true)
    (hclosed : ∀ e ∈ (tokenize a).2, ¬e.IsUnclosed)
    (hnot : ¬((∃ t ∈ (tokenize a).1.dropLast.getLast?, t.kind = .key ∧ t.lexeme = "not".toList) ∧
      ∃ t ∈ (tokenize b).1.head?, t.kind = .membership false)) :
    tokenize (a ++ gap ++ b) =
      ((tokenize a).1.dropLast ++ (tokenize b).1.map (·.shift (a ++ gap).length),
        (tokenize a).2 ++ (tokenize b).2.map (·.shift (a ++ gap).length)) := by
  have hpieces := map_bare_pieces hgap hblank hclosed
    fun p hp => inWord?_eq_none_of_tokens hblank hnot hp
  have hend : Token.endOf (a ++ gap ++ b).length =
      (Token.endOf b.length).shift (a ++ gap).length := by
    rw [List.length_append]
    rfl
  apply Prod.ext
  · have htokens := congrArg tokensOf hpieces
    rw [tokensOf_map_bare, tokensOf_map_bare, tokensOf_append, tokensOf_map_shift] at htokens
    dsimp only
    rw [Scanner.tokenize_tokens, Scanner.tokenize_tokens, Scanner.tokenize_tokens, htokens, hend,
      List.dropLast_concat, List.map_append, List.append_assoc]
    rfl
  · have herrors := congrArg (List.filterMap Placed.error?) hpieces
    simp only [List.filterMap_append, List.filterMap_map, Function.comp_def, Placed.error?_bare,
      Placed.error?_shift] at herrors
    rw [← List.map_filterMap] at herrors
    exact herrors

/-- A text with single signs, a regex and the word `not` at its end, in front of a text that begins
with `not in` and ends in an open string. -/
theorem tokenize_append_gap_of_faults :
    let a : Text := "a& =b=~/[/]/i~not".toList
    let gap : Text := "\t\u00a0".toList
    let b : Text := "not\nin c|'d".toList
    (gap ≠ [] ∧ (∀ c ∈ gap, isBlank c = true) ∧ (∀ e ∈ (tokenize a).2, ¬e.IsUnclosed) ∧
      ¬((∃ t ∈ (tokenize a).1.dropLast.getLast?, t.kind = .key ∧ t.lexeme = "not".toList) ∧
        ∃ t ∈ (tokenize b).1.head?, t.kind = .membership false)) ∧
    (tokenize a).1.dropLast.getLast? = some ⟨.key, "not".toList, 14⟩ ∧
    tokenize (a ++ gap ++ b) =
      ((tokenize a).1.dropLast ++ (tokenize b).1.map (·.shift (a ++ gap).length),
        (tokenize a).2 ++ (tokenize b).2.map (·.shift (a ++ gap).length)) ∧
    (tokenize (a ++ gap ++ b)).2 =
      [.unexpected ['&'] 1, .strayEquals 3, .unexpected ['~'] 13, .unexpected ['|'] 27,
        .unterminatedString ['\'', 'd'] 28] := by
  intro a gap b
  have hgap : gap ≠ [] := by decide
  have hblank : ∀ c ∈ gap, isBlank c = true := List.all_eq_true.mp (by decide)
  have hclosed : ∀ e ∈ (tokenize a).2, ¬e.IsUnclosed := by
    have hall : (tokenize a).2.all (fun e => ¬e.IsUnclosed) = true := by decide +kernel
    simpa using hall
  have hnot : ¬((∃ t ∈ (tokenize a).1.dropLast.getLast?, t.kind = .key ∧
        t.lexeme = "not".toList) ∧
      ∃ t ∈ (tokenize b).1.head?, t.kind = .membership false) := by
    rintro ⟨-, t, ht, hkind⟩
    have hfirst : (tokenize b).1.head? = some ⟨.membership true, "not\nin".toList, 0⟩ := by
      decide +kernel
    rw [hfirst] at ht
    cases ht
    cases hkind
  exact ⟨⟨hgap, hblank, hclosed, hnot⟩, by decide +kernel,
    tokenize_append_gap hgap hblank hclosed hnot, by decide +kernel⟩

end WhenClause
