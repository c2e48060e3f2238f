import Mathlib.Data.List.TakeWhile
import WhenClause.Proofs.Regex.Literal
import WhenClause.Proofs.Scan.Words
import WhenClause.Operand

/-!
# What a scan guarantees of its tokens

The lexeme of a scanned token has the form of its kind: a name or another word is a word, a string
holds no quote, a regex is a closed pattern between slashes with its flags behind. The trail of a
token holds blanks only.
-/

namespace WhenClause

/-- A lexeme has the form of a kind. -/
def Token.Kind.Fits (kind : Token.Kind) (lexeme : Text) : Prop :=
  match kind with
  | .literal _ | .membership false | .key => lexeme.IsWord ∧ Piece.kindOfWord lexeme = kind
  | .string                               => '\'' ∉ lexeme
  | .regex                                =>
    ∃ pattern flags, lexeme = '/' :: pattern ++ '/' :: flags ∧ Regex.IsClosed pattern ∧
      ∀ c ∈ flags, Regex.isFlag c = true
  | _                                     => True

namespace Token.Kind

variable {kind : Token.Kind} {lexeme : Text}

lemma fits_of_isWordKind (hkind : Operand.isWordKind kind = true) :
    kind.Fits lexeme ↔ lexeme.IsWord ∧ Piece.kindOfWord lexeme = kind := by
  cases kind with
  | membership negated =>
    cases negated with
    | false => exact Iff.rfl
    | true => cases hkind
  | literal _ | key => exact Iff.rfl
  | _ => cases hkind

lemma ne_string_of_isWordKind (hkind : Operand.isWordKind kind = true) : kind ≠ .string := by
  rintro rfl
  cases hkind

lemma isWordKind_kindOfWord (lexeme : Text) :
    Operand.isWordKind (Piece.kindOfWord lexeme) = true := by
  rw [Piece.kindOfWord]
  split_ifs <;> rfl

lemma fits_kindOfWord (h : lexeme.IsWord) : (Piece.kindOfWord lexeme).Fits lexeme :=
  (fits_of_isWordKind (isWordKind_kindOfWord lexeme)).mpr ⟨h, rfl⟩

end Token.Kind

/-! ### Pieces -/

namespace Piece

section Covers

variable {text span behind : Text} {c : Char} {kind : Except Fault Token.Kind}

/-- A piece and the text behind it are the text at whose head it stands. -/
lemma append_of_ofText (h : ofText c text = ⟨kind, span, behind⟩) : span ++ behind = c :: text := by
  have happend := span_append_rest c text
  rwa [h] at happend

/-- A piece begins with the first character of its text. -/
lemma exists_tail_of_ofText (h : ofText c text = ⟨kind, span, behind⟩) :
    ∃ tail, span = c :: tail ∧ tail ++ behind = text := by
  have happend := append_of_ofText h
  have hne := span_ne_nil c text
  rw [h] at hne
  cases span with
  | nil => exact absurd rfl hne
  | cons d tail =>
    obtain ⟨rfl, htail⟩ := List.cons.inj happend
    exact ⟨tail, rfl, htail⟩

end Covers

variable {text : Text} {c : Char} {kind : Token.Kind}

/-- Whatever a sign is, it is a token of a kind whose lexeme is arbitrary, or an error. -/
lemma fits_sign? {p : Piece} (h : sign? text = some p) (hkind : p.kind = .ok kind) (lexeme : Text) :
    kind.Fits lexeme := by
  unfold sign? at h
  split at h <;> simp only [Option.some.injEq, reduceCtorEq] at h <;> subst h <;>
    first | (cases hkind; trivial) | cases hkind

lemma fits_quoted (hkind : (quoted text).kind = .ok kind) :
    kind.Fits (Placed.lexemeOf kind (quoted text).span) := by
  rw [quoted] at hkind ⊢
  cases hs : Text.splitFirst? '\'' text with
  | none => simp [hs] at hkind
  | some parts =>
    obtain ⟨content, rest⟩ := parts
    simp only [hs, Except.ok.injEq] at hkind ⊢
    subst hkind
    simpa [Placed.lexemeOf, Token.Kind.Fits] using Text.not_mem_of_splitFirst? hs

lemma fits_regexLiteral (hkind : (regexLiteral text).kind = .ok kind) :
    kind.Fits (Placed.lexemeOf kind (regexLiteral text).span) := by
  rw [regexLiteral] at hkind ⊢
  cases hs : Regex.close? .start text with
  | none => simp [hs] at hkind
  | some parts =>
    obtain ⟨body, after⟩ := parts
    simp only [hs, Except.ok.injEq] at hkind ⊢
    subst hkind
    exact ⟨body, _, rfl, Regex.closes_of_close? hs, fun c hc =>
      List.mem_takeWhile_imp hc⟩

lemma lexemeOf_kindOfWord (lexeme : Text) :
    Placed.lexemeOf (kindOfWord lexeme) lexeme = lexeme := by
  rw [kindOfWord]
  split_ifs <;> rfl

lemma fits_word (hc : isWordStart c = true) (hslash : c ≠ '/')
    (hkind : (word c text).kind = .ok kind) :
    kind.Fits (Placed.lexemeOf kind (word c text).span) := by
  rw [word] at hkind ⊢
  dsimp only at hkind ⊢
  cases hin : (if c :: (takeWord 0 text).1 = "not".toList then inWord? (takeWord 0 text).2
      else none) with
  | some parts =>
    simp only [hin, Except.ok.injEq] at hkind
    subst hkind
    trivial
  | none =>
    simp only [hin, Except.ok.injEq] at hkind ⊢
    subst hkind
    rw [lexemeOf_kindOfWord]
    exact Token.Kind.fits_kindOfWord (Text.isWord_takeWord hc hslash text)

/-- The token at the head of a text fits its kind. -/
lemma fits_ofText (hkind : (ofText c text).kind = .ok kind) :
    kind.Fits (Placed.lexemeOf kind (ofText c text).span) := by
  rw [ofText] at hkind ⊢
  split at hkind
  · rename_i p hp
    exact fits_sign? hp hkind _
  · split_ifs at hkind ⊢ with hquote hslash hword
    · exact fits_quoted hkind
    · exact fits_regexLiteral hkind
    · exact fits_word hword hslash hkind

end Piece

/-! ### Whole scans -/

namespace Token.Spaced

/-- A token as a scan gives it: its lexeme fits its kind and its trail is blank. -/
structure WellFormed (t : Token.Spaced) : Prop where
  fits : t.kind.Fits t.lexeme
  blank : ∀ c ∈ t.trail, isBlank c = true

variable {t : Token.Spaced}

lemma WellFormed.isWord (h : t.WellFormed) (hkind : Operand.isWordKind t.kind = true) :
    t.lexeme.IsWord :=
  ((Token.Kind.fits_of_isWordKind hkind).mp h.fits).1

lemma WellFormed.quote_not_mem (h : t.WellFormed)
    (hkind : t.kind = .string ∨ Operand.isWordKind t.kind = true) : '\'' ∉ t.lexeme := by
  rcases hkind with hkind | hkind
  · have hfits := h.fits
    rw [hkind] at hfits
    exact hfits
  · intro hmem
    exact absurd ((h.isWord hkind).isWordChar _ hmem) (by decide)

lemma WellFormed.quote_not_mem_trail (h : t.WellFormed) : '\'' ∉ t.trail := fun hmem =>
  absurd (h.blank _ hmem) (by decide)

end Token.Spaced

lemma isBlank_of_mem_trailOf {text : Text} {c : Char} (h : c ∈ trailOf text) :
    isBlank c = true := by
  rw [trailOf] at h
  split_ifs at h
  · cases h
  · exact List.mem_takeWhile_imp h

lemma wellFormed_of_mem_piecesFrom {skip offset : Nat} {text : Text} {p : Placed}
    {t : Token.Spaced} (hp : p ∈ piecesFrom skip offset text) (ht : p.token? = some t) :
    t.WellFormed := by
  fun_induction piecesFrom skip offset text with
  | case1 => cases hp
  | case2 _ _ _ _ ih => exact ih hp
  | case3 _ _ _ _ ih => exact ih hp
  | case4 offset c rest _ piece ih =>
    rcases List.mem_cons.mp hp with rfl | hp
    · rw [Placed.token?] at ht
      dsimp only at ht
      split at ht
      · rename_i kind hkind
        obtain rfl := Option.some.inj ht
        exact ⟨Piece.fits_ofText hkind, fun d hd => isBlank_of_mem_trailOf hd⟩
      · cases ht
    · exact ih hp

/-- All tokens of a text are well-formed. -/
lemma wellFormed_of_mem_spacedTokens {text : Text} {t : Token.Spaced}
    (h : t ∈ spacedTokens text) : t.WellFormed := by
  obtain ⟨p, hp, ht⟩ := List.mem_filterMap.mp h
  exact wellFormed_of_mem_piecesFrom hp ht

end WhenClause
