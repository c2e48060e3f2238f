import WhenClause.Proofs.Scan.Spans

/-!
# Regex literals in a scan

A scan ends a regex literal at the first slash that no escape and no class hides, and this is the
last slash of the token, at which the literal is cut into its pattern and its flags
(`exists_holdsRegex`). A text can be put between slashes once its own are escaped, and escaping them
again changes nothing (`escapeSlashes_idem_and_splitLiteral`).
-/

namespace WhenClause

variable {text pattern flags : Text} {t : Token}

/-- A token of a text is a regex literal with a pattern and flags: the lexeme is cut into the two at
its last slash, every slash of the pattern is hidden by an escape or a class, neither of which stays
open, and the slash behind it is the one at which a reader of the text closes the literal. -/
structure Token.HoldsRegex (t : Token) (text pattern flags : Text) : Prop where
  lexeme_eq : t.lexeme = '/' :: pattern ++ '/' :: flags
  splitLiteral_eq : Regex.splitLiteral t.lexeme = (pattern, flags)
  isFlag : ∀ c ∈ flags, Regex.isFlag c = true
  hidden : ∀ before c after, pattern = before ++ c :: after →
    (Regex.Mode.start.after before).endsAt c = false
  ends : Regex.Mode.start.after pattern = .start
  close?_eq : Regex.close? .start (text.drop (t.offset + 1)) =
    some (pattern, flags ++ text.drop (t.offset + t.width))

lemma Token.HoldsRegex.isClosed (h : t.HoldsRegex text pattern flags) : Regex.IsClosed pattern :=
  (Regex.Mode.closes_iff .start pattern).mpr ⟨h.hidden, h.ends⟩

/-! ### Literals in a text -/

/-- Every regex token holds a regex, which is cut where the scan closed the literal. -/
lemma exists_holdsRegex (h : t ∈ (tokenize text).1) (hkind : t.kind = .regex) :
    ∃ pattern flags, t.HoldsRegex text pattern flags := by
  obtain ⟨s, hs, rfl⟩ := exists_spaced_of_mem_tokenize h (by rw [hkind]; decide)
  have hfits := (wellFormed_of_mem_spacedTokens hs).fits
  rw [hkind] at hfits
  obtain ⟨pattern, flags, hlexeme, hclosed, hflags⟩ := hfits
  obtain ⟨hhidden, hends⟩ := (Regex.Mode.closes_iff .start pattern).mp hclosed
  have hsource : s.source = '/' :: pattern ++ '/' :: flags := by
    rw [Token.source, hkind, hlexeme]
  refine ⟨pattern, flags, hlexeme, ?_, hflags, hhidden, hends, ?_⟩
  · rw [hlexeme, Regex.splitLiteral_append pattern hflags]
  · have hclose := Regex.close?_append hclosed (flags ++ text.drop (s.offset + s.width))
    rw [← List.drop_drop, drop_offset_of_mem_spacedTokens hs, hsource]
    simpa using hclose

/-! ### Texts between slashes -/

/-- A text between slashes is one regex literal if and only if it is closed. -/
lemma tokenize_between_slashes_iff :
    tokenize ('/' :: pattern ++ ['/']) =
        ([⟨.regex, '/' :: pattern ++ ['/'], 0⟩, .endOf ('/' :: pattern ++ ['/']).length], []) ↔
      Regex.IsClosed pattern := by
  constructor
  · intro h
    have hmem : (⟨.regex, '/' :: pattern ++ ['/'], 0⟩ : Token) ∈
        (tokenize ('/' :: pattern ++ ['/'])).1 := by
      rw [h]
      exact List.mem_cons_self ..
    obtain ⟨pattern', flags, hholds⟩ := exists_holdsRegex hmem rfl
    have hnone : ∀ c ∈ ([] : Text), Regex.isFlag c = true := by simp
    have hsplit := hholds.splitLiteral_eq
    rw [Regex.splitLiteral_append pattern hnone] at hsplit
    obtain ⟨rfl, -⟩ := Prod.mk.inj hsplit
    exact hholds.isClosed
  · intro hclosed
    have hnone : ([] ++ [] : Text).takeWhile Regex.isFlag = [] := rfl
    exact (passes_regex hclosed hnone 0).tokenize_eq

/-- Escaping the slashes of a text a second time changes nothing. Between slashes the escaped text is
scanned as one regex literal if and only if the text leaves no escape and no class open. And of every
regex literal that is scanned in a text, the last slash stands where the scan closed it: in front of
it there is the pattern, in which no slash closes the literal, and behind it there are the flags. -/
theorem escapeSlashes_idem_and_splitLiteral :
    (∀ p : Text, Regex.escapeSlashes .start (Regex.escapeSlashes .start p) =
      Regex.escapeSlashes .start p) ∧
    (∀ p : Text,
      let literal := '/' :: Regex.escapeSlashes .start p ++ ['/']
      tokenize literal = ([⟨.regex, literal, 0⟩, .endOf literal.length], []) ↔
        Regex.Mode.start.after p = .start) ∧
    ∀ (text : Text), ∀ t ∈ (tokenize text).1, t.kind = .regex →
      ∃ pattern flags, t.HoldsRegex text pattern flags := by
  refine ⟨Regex.escapeSlashes_escapeSlashes .start, fun p => ?_, fun text t => exists_holdsRegex⟩
  have hclosed : Regex.IsClosed (Regex.escapeSlashes .start p) ↔
      Regex.Mode.start.after p = .start := by
    rw [Regex.IsClosed, Regex.closes_escapeSlashes, decide_eq_true_iff]
  exact tokenize_between_slashes_iff.trans hclosed

/-- A slash in a class, an escaped one, flags behind which a word stands, and slashes in that
word. -/
theorem escapeSlashes_idem_and_splitLiteral_of_inner_slashes :
    let text := "k =~ /[/]\\//gib/c/".toList
    let t : Token := ⟨.regex, "/[/]\\//gi".toList, 5⟩
    t ∈ (tokenize text).1 ∧ t.kind = .regex ∧
      t.HoldsRegex text "[/]\\/".toList "gi".toList := by
  intro text t
  have hmem : t ∈ (tokenize text).1 := by decide +kernel
  obtain ⟨pattern, flags, hholds⟩ := escapeSlashes_idem_and_splitLiteral.2.2 text t hmem rfl
  have hsplit : Regex.splitLiteral t.lexeme = ("[/]\\/".toList, "gi".toList) := by decide
  rw [hholds.splitLiteral_eq] at hsplit
  obtain ⟨rfl, rfl⟩ := Prod.mk.inj hsplit
  exact ⟨hmem, rfl, hholds⟩

end WhenClause
