import Mathlib.Data.List.Perm.Basic
import WhenClause.Proofs.Scan.Passes

/-!
# The spans of a scan

The tokens and the errors of a text lie in it one behind the other, each at its offset, and only
blanks lie between them (`tokenize_spans`). The invariant of a scan is `Tiles`: the pieces that are
listed from an offset on are the text from there on, cut at blanks.
-/

namespace WhenClause

/-- Some characters at an offset of a text. -/
structure Span where
  offset : Nat
  width : Nat
  source : Text

namespace Span

/-- A span of a text: not empty, within the text, and with the characters that stand there. -/
structure LiesIn (s : Span) (text : Text) : Prop where
  pos : 0 < s.width
  within : s.offset + s.width ≤ text.length
  source_eq : (text.drop s.offset).take s.width = s.source

/-- Whether an offset lies in a span. -/
def Covers (s : Span) (i : Nat) : Prop := s.offset ≤ i ∧ i < s.offset + s.width

/-- One span ends before the other begins. -/
def Apart (s s' : Span) : Prop :=
  s.offset + s.width ≤ s'.offset ∨ s'.offset + s'.width ≤ s.offset

lemma Apart.symm {s s' : Span} (h : s.Apart s') : s'.Apart s := Or.symm h

end Span

/-- The source characters of a token: those of its lexeme, and for a string the quotes around
them. -/
def Token.source (t : Token) : Text :=
  match t.kind with
  | .string => '\'' :: t.lexeme ++ ['\'']
  | _       => t.lexeme

/-- Where a token stands. -/
def Token.span (t : Token) : Span := ⟨t.offset, t.width, t.source⟩

/-- Where an error stands. -/
def ScanError.span (e : ScanError) : Span := ⟨e.offset, e.lexeme.length, e.lexeme⟩

/-- The spans of the tokens of a text and of its errors. -/
def spans (text : Text) : List Span :=
  (spacedTokens text).map (·.toToken.span) ++ (scanErrors text).map ScanError.span

/-! ### Pieces keep their characters -/

namespace Piece

/-- The characters of a piece can be told from what is kept of it: a string has its two quotes, a
stray `=` is one character, and the end is no piece. -/
def Keeps (kind : Except Fault Token.Kind) (span : Text) : Prop :=
  match kind with
  | .ok .eof             => False
  | .ok .string          => ∃ content, span = '\'' :: content ++ ['\'']
  | .error .strayEquals  => span = ['=']
  | _                    => True

lemma keeps_sign? {text : Text} {p : Piece} (h : sign? text = some p) : Keeps p.kind p.span := by
  unfold sign? at h
  split at h <;> simp only [Option.some.injEq, reduceCtorEq] at h <;> subst h <;>
    trivial

lemma keeps_quoted (text : Text) : Keeps (quoted text).kind (quoted text).span := by
  rw [quoted]
  split
  · exact ⟨_, rfl⟩
  · dsimp only
    split_ifs <;> trivial

lemma keeps_regexLiteral (text : Text) :
    Keeps (regexLiteral text).kind (regexLiteral text).span := by
  rw [regexLiteral]
  split <;> trivial

lemma keeps_word (c : Char) (text : Text) : Keeps (word c text).kind (word c text).span := by
  rw [word]
  dsimp only
  split
  · trivial
  · dsimp only [kindOfWord]
    split_ifs <;> trivial

lemma keeps_ofText (c : Char) (text : Text) : Keeps (ofText c text).kind (ofText c text).span := by
  rw [ofText]
  split
  · rename_i h
    exact keeps_sign? h
  · split_ifs
    · exact keeps_quoted text
    · exact keeps_regexLiteral text
    · exact keeps_word c text
    · trivial

end Piece

namespace Placed

/-- Where a piece stands. -/
def extent (p : Placed) : Span := ⟨p.offset, p.span.length, p.span⟩

variable {p : Placed}

lemma span_of_token? {t : Token.Spaced} (hkeeps : Piece.Keeps p.kind p.span)
    (ht : p.token? = some t) : t.toToken.span = p.extent := by
  obtain ⟨kind | kind, span, offset, trail⟩ := p
  · cases ht
  · obtain rfl := Option.some.inj ht
    cases kind with
    | string =>
      obtain ⟨content, rfl⟩ := hkeeps
      simp [Token.span, Token.width, Token.source, lexemeOf, extent]
    | _ => rfl

lemma span_of_error? {e : ScanError} (hkeeps : Piece.Keeps p.kind p.span)
    (he : p.error? = some e) : e.span = p.extent := by
  obtain ⟨fault | kind, span, offset, trail⟩ := p
  · obtain rfl := Option.some.inj he
    cases fault with
    | strayEquals =>
      obtain rfl : span = ['='] := hkeeps
      rfl
    | _ => rfl
  · cases he

end Placed

/-- The token at the head of a text stands where its piece stands. -/
lemma Token.span_of_ofText {c : Char} {text span behind : Text} {kind : Token.Kind}
    (h : Piece.ofText c text = ⟨.ok kind, span, behind⟩) (offset : Nat) :
    Token.span ⟨kind, Placed.lexemeOf kind span, offset⟩ = ⟨offset, span.length, span⟩ := by
  have hkeeps := Piece.keeps_ofText c text
  rw [h] at hkeeps
  exact Placed.span_of_token? (p := ⟨.ok kind, span, offset, []⟩) hkeeps rfl

/-! ### Tilings -/

/-- Pieces are the text from an offset on, in order, with blanks before, between and behind
them. -/
inductive Tiles : Nat → Text → List Placed → Prop
  | nil (offset : Nat) : Tiles offset [] []
  | blank {offset : Nat} {c : Char} {text : Text} {ps : List Placed} (hc : isBlank c = true)
    (h : Tiles (offset + 1) text ps) : Tiles offset (c :: text) ps
  | piece {offset : Nat} {kind : Except Fault Token.Kind} {span rest trail : Text}
    {ps : List Placed} (hne : span ≠ []) (hkeeps : Piece.Keeps kind span)
    (h : Tiles (offset + span.length) rest ps) :
    Tiles offset (span ++ rest) (⟨kind, span, offset, trail⟩ :: ps)

/-- Listing the pieces of a text cuts it at blanks. -/
lemma tiles_piecesFrom (offset : Nat) (text : Text) :
    Tiles offset text (piecesFrom 0 offset text) := by
  induction offset, text using scan_induction with
  | nil offset => exact .nil offset
  | blank offset c text hc ih =>
    rw [piecesFrom, if_pos hc]
    exact .blank hc ih
  | piece offset c text kind span behind hc hpiece ih =>
    have hne := Piece.span_ne_nil c text
    have hkeeps := Piece.keeps_ofText c text
    rw [hpiece] at hne hkeeps
    rw [piecesFrom_piece hc hpiece, ← Piece.append_of_ofText hpiece]
    exact .piece hne hkeeps ih

namespace Tiles

variable {offset i : Nat} {c : Char} {text : Text} {ps : List Placed} {p : Placed}

/-- A piece stands in the text at its offset. -/
lemma exists_append (h : Tiles offset text ps) (hp : p ∈ ps) :
    p.span ≠ [] ∧ ∃ before behind, text = before ++ (p.span ++ behind) ∧
      p.offset = offset + before.length := by
  induction h with
  | nil => cases hp
  | @blank offset c text ps _ _ ih =>
    obtain ⟨hne, before, behind, rfl, hoffset⟩ := ih hp
    refine ⟨hne, c :: before, behind, rfl, ?_⟩
    rw [hoffset, List.length_cons]
    omega
  | @piece offset kind span rest trail ps hne _ _ ih =>
    rcases List.mem_cons.mp hp with rfl | hp
    · exact ⟨hne, [], rest, rfl, rfl⟩
    · obtain ⟨hne, before, behind, rfl, hoffset⟩ := ih hp
      refine ⟨hne, span ++ before, behind, by simp, ?_⟩
      rw [hoffset, List.length_append]
      omega

/-- A piece ends before a later one begins. -/
lemma pairwise (h : Tiles offset text ps) :
    ps.Pairwise fun p q => p.offset + p.span.length ≤ q.offset := by
  induction h with
  | nil => exact .nil
  | blank _ _ ih => exact ih
  | piece _ _ h ih =>
    refine List.pairwise_cons.mpr ⟨fun q hq => ?_, ih⟩
    obtain ⟨-, before, -, -, hoffset⟩ := h.exists_append hq
    simp only [hoffset]
    omega

/-- A character that no piece covers is a blank. -/
lemma isBlank_of_not_covers (h : Tiles offset text ps) (hi : text[i]? = some c)
    (hps : ∀ p ∈ ps, ¬p.extent.Covers (offset + i)) : isBlank c = true := by
  induction h generalizing i with
  | nil => cases hi
  | @blank offset d text ps hd _ ih =>
    cases i with
    | zero =>
      obtain rfl : d = c := by simpa using hi
      exact hd
    | succ i =>
      refine ih (by simpa using hi) fun p hp hcovers => hps p hp ?_
      rwa [show offset + (i + 1) = offset + 1 + i by omega]
  | @piece offset kind span rest trail ps _ _ _ ih =>
    obtain ⟨hhead, htail⟩ := List.forall_mem_cons.mp hps
    have hi' : span.length ≤ i := by
      by_contra hlt
      refine hhead ⟨?_, ?_⟩ <;> simp only [Placed.extent] <;> omega
    refine ih (i := i - span.length) ?_ fun p hp hcovers => htail p hp ?_
    · rwa [List.getElem?_append_right hi'] at hi
    · rwa [show offset + i = offset + span.length + (i - span.length) by omega]

/-- Tokens and errors stand where their pieces stand. -/
lemma spans_perm (h : Tiles offset text ps) :
    ((ps.filterMap Placed.token?).map (·.toToken.span) ++
      (ps.filterMap Placed.error?).map ScanError.span).Perm (ps.map Placed.extent) := by
  induction h with
  | nil => exact .nil
  | blank _ _ ih => exact ih
  | @piece offset kind span rest trail ps _ hkeeps _ ih =>
    cases kind with
    | ok kind =>
      have hspan := Placed.span_of_token? (p := ⟨.ok kind, span, offset, trail⟩) hkeeps rfl
      simpa [List.filterMap_cons, Placed.token?, Placed.error?, ← hspan] using ih
    | error fault =>
      have hspan := Placed.span_of_error? (p := ⟨.error fault, span, offset, trail⟩) hkeeps rfl
      simpa [List.filterMap_cons, Placed.token?, Placed.error?, ← hspan] using
        List.perm_middle.trans (ih.cons _)

/-- The end of the text is no piece of it. -/
lemma kind_ne_eof (h : Tiles offset text ps) (hp : p ∈ ps) : p.kind ≠ .ok .eof := by
  induction h with
  | nil => cases hp
  | blank _ _ ih => exact ih hp
  | piece _ hkeeps _ ih =>
    rcases List.mem_cons.mp hp with rfl | hp
    · rintro rfl
      exact hkeeps
    · exact ih hp

end Tiles

/-! ### The scan of a whole text -/

variable {text : Text}

lemma tiles_pieces (text : Text) : Tiles 0 text (pieces text) := tiles_piecesFrom 0 text

lemma spans_perm_pieces (text : Text) : (spans text).Perm ((pieces text).map Placed.extent) :=
  (tiles_pieces text).spans_perm

lemma liesIn_of_mem_spans {s : Span} (h : s ∈ spans text) : s.LiesIn text := by
  obtain ⟨p, hp, rfl⟩ := List.mem_map.mp ((spans_perm_pieces text).mem_iff.mp h)
  obtain ⟨hne, before, behind, rfl, hoffset⟩ := (tiles_pieces text).exists_append hp
  rw [Nat.zero_add] at hoffset
  refine ⟨List.length_pos_of_ne_nil hne, ?_, ?_⟩
  · simp only [Placed.extent, hoffset, List.length_append]
    omega
  · simp [Placed.extent, hoffset]

lemma pairwise_apart_spans (text : Text) : (spans text).Pairwise Span.Apart := by
  rw [(spans_perm_pieces text).pairwise_iff Span.Apart.symm, List.pairwise_map]
  exact (tiles_pieces text).pairwise.imp .inl

/-- Parts of the pieces of a text begin in the order in which they are listed. -/
lemma pairwise_offset {α : Type} {f : Placed → Option α} {offsetOf : α → Nat}
    (hf : ∀ p a, f p = some a → offsetOf a = p.offset) (text : Text) :
    (((pieces text).filterMap f).map offsetOf).Pairwise (· < ·) := by
  rw [List.pairwise_map, List.pairwise_filterMap]
  refine (tiles_pieces text).pairwise.imp_of_mem fun hp _ hle a ha b hb => ?_
  have hpos := List.length_pos_of_ne_nil ((tiles_pieces text).exists_append hp).1
  rw [hf _ _ ha, hf _ _ hb]
  omega

lemma offset_of_token? {p : Placed} {t : Token.Spaced} (h : p.token? = some t) :
    t.offset = p.offset := by
  rw [Placed.token?] at h
  split at h
  · obtain rfl := Option.some.inj h
    rfl
  · cases h

lemma offset_of_error? {p : Placed} {e : ScanError} (h : p.error? = some e) :
    e.offset = p.offset := by
  rw [Placed.error?] at h
  split at h
  · cases h
  · rename_i fault hfault
    obtain rfl := Option.some.inj h
    cases fault <;> rfl

lemma kind_ne_eof_of_mem_spacedTokens {t : Token.Spaced} (h : t ∈ spacedTokens text) :
    t.kind ≠ .eof := by
  obtain ⟨p, hp, ht⟩ := List.mem_filterMap.mp h
  have hkind := (tiles_pieces text).kind_ne_eof hp
  rw [Placed.token?] at ht
  split at ht
  · rename_i kind hk
    obtain rfl := Option.some.inj ht
    rintro rfl
    exact hkind hk
  · cases ht

lemma exists_spaced_of_mem_tokenize {t : Token} (h : t ∈ (tokenize text).1) (hkind : t.kind ≠ .eof) :
    ∃ s ∈ spacedTokens text, s.toToken = t := by
  rcases List.mem_append.mp h with hmem | hmem
  · exact List.mem_map.mp hmem
  · obtain rfl := List.mem_singleton.mp hmem
    exact absurd rfl hkind

lemma liesIn_of_mem_spacedTokens {s : Token.Spaced} (h : s ∈ spacedTokens text) :
    s.toToken.span.LiesIn text :=
  liesIn_of_mem_spans (List.mem_append_left _ (List.mem_map_of_mem h))

/-- From the offset of a token on, a text is the source of the token and what stands behind it. -/
lemma drop_offset_of_mem_spacedTokens {s : Token.Spaced} (h : s ∈ spacedTokens text) :
    text.drop s.offset = s.source ++ text.drop (s.offset + s.width) := by
  have hsource : (text.drop s.offset).take s.width = s.source :=
    (liesIn_of_mem_spacedTokens h).source_eq
  rw [← hsource, ← List.drop_drop, List.take_append_drop]

/-- The scan loses and invents nothing. The end of the text comes last and only there; the other
tokens and the errors stand where their offsets say, each list in order and all of them apart from
each other, and what they leave of the text is blank. -/
theorem tokenize_spans (text : Text) :
    ∃ (tokens : List Token) (errors : List ScanError),
      tokenize text = (tokens ++ [⟨.eof, [], text.length⟩], errors) ∧
      (∀ t ∈ tokens, t.kind ≠ .eof) ∧
      ((tokenize text).1.map Token.offset).Pairwise (· < ·) ∧
      (errors.map ScanError.offset).Pairwise (· < ·) ∧
      (∀ s ∈ tokens.map Token.span ++ errors.map ScanError.span, s.LiesIn text) ∧
      (tokens.map Token.span ++ errors.map ScanError.span).Pairwise Span.Apart ∧
      ∀ i c, text[i]? = some c →
        (∀ s ∈ tokens.map Token.span ++ errors.map ScanError.span, ¬s.Covers i) →
        isBlank c = true := by
  have hspans : ((spacedTokens text).map (·.toToken)).map Token.span ++
      (scanErrors text).map ScanError.span = spans text := by
    rw [List.map_map]
    rfl
  refine ⟨(spacedTokens text).map (·.toToken), scanErrors text, rfl, ?_, ?_, ?_, ?_⟩
  · intro _ hmem
    obtain ⟨t, ht, rfl⟩ := List.mem_map.mp hmem
    exact kind_ne_eof_of_mem_spacedTokens ht
  · rw [tokenize, List.map_append, List.pairwise_append, List.map_map]
    refine ⟨pairwise_offset (fun _ _ => offset_of_token?) text, List.pairwise_singleton _ _, ?_⟩
    intro i hi j hj
    obtain ⟨t, ht, rfl⟩ := List.mem_map.mp hi
    obtain rfl := List.mem_singleton.mp hj
    have hmem : t.toToken.span ∈ spans text := List.mem_append_left _ (List.mem_map_of_mem ht)
    obtain ⟨hpos, hwithin, -⟩ := liesIn_of_mem_spans hmem
    exact Nat.lt_of_lt_of_le (Nat.lt_add_of_pos_right hpos) hwithin
  · exact pairwise_offset (fun _ _ => offset_of_error?) text
  · rw [hspans]
    refine ⟨fun s hs => liesIn_of_mem_spans hs, pairwise_apart_spans text, ?_⟩
    intro i c hi hs
    refine (tiles_pieces text).isBlank_of_not_covers hi fun p hp hcovers => ?_
    have hmem := (spans_perm_pieces text).mem_iff.mpr (List.mem_map_of_mem hp)
    rw [Nat.zero_add] at hcovers
    exact hs _ hmem hcovers

end WhenClause
