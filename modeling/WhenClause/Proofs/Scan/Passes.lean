import WhenClause.Proofs.Scan.Tokens

/-!
# Scanning a text in parts

A scan passes from a place of a text to a later one and gives the tokens between the two. Such
passes are put together, so the tokens of a long text are found from those of its parts, and a
pass to the end gives the tokens of the whole text and shows that it has no errors.
-/

namespace WhenClause

/-- A scan passes from an offset, with a text from there on, to another offset and the text that
is left, and gives the tokens between. -/
inductive Passes : Nat → Text → List Token.Spaced → Nat → Text → Prop
  | refl (offset : Nat) (text : Text) : Passes offset text [] offset text
  | blank {offset offset' : Nat} {c : Char} {text rest : Text} {ts : List Token.Spaced}
    (hc : isBlank c = true) (h : Passes (offset + 1) text ts offset' rest) :
    Passes offset (c :: text) ts offset' rest
  | token {offset offset' : Nat} {c : Char} {text span behind rest : Text} {kind : Token.Kind}
    {ts : List Token.Spaced} (hc : isBlank c = false)
    (hpiece : Piece.ofText c text = ⟨.ok kind, span, behind⟩)
    (h : Passes (offset + span.length) behind ts offset' rest) :
    Passes offset (c :: text)
      (⟨⟨kind, Placed.lexemeOf kind span, offset⟩, trailOf behind⟩ :: ts) offset' rest

namespace Passes

variable {offset offset' offset'' : Nat} {text mid rest : Text} {ts us : List Token.Spaced}

lemma append (h : Passes offset text ts offset' mid) (h' : Passes offset' mid us offset'' rest) :
    Passes offset text (ts ++ us) offset'' rest := by
  induction h with
  | refl => exact h'
  | blank hc _ ih => exact .blank hc (ih h')
  | token hc hpiece _ ih => exact .token hc hpiece (ih h')

end Passes

lemma piecesFrom_append (offset : Nat) (t rest : Text) :
    piecesFrom t.length offset (t ++ rest) = piecesFrom 0 (offset + t.length) rest := by
  induction t generalizing offset with
  | nil => rfl
  | cons c t ih =>
    rw [List.length_cons, List.cons_append, piecesFrom, ih]
    congr 1
    omega

/-- Behind a piece the next one is looked for where the piece ends. -/
lemma piecesFrom_piece {offset : Nat} {c : Char} {text span behind : Text}
    {kind : Except Fault Token.Kind} (hc : isBlank c = false)
    (hpiece : Piece.ofText c text = ⟨kind, span, behind⟩) :
    piecesFrom 0 offset (c :: text) =
      ⟨kind, span, offset, trailOf behind⟩ :: piecesFrom 0 (offset + span.length) behind := by
  obtain ⟨tail, rfl, rfl⟩ := Piece.exists_tail_of_ofText hpiece
  have hrest := piecesFrom_append (offset + 1) tail behind
  rw [piecesFrom, if_neg (by simp [hc])]
  simp only [hpiece, List.length_cons, Nat.add_sub_cancel]
  rw [hrest, show offset + 1 + tail.length = offset + (tail.length + 1) by omega]

/-- A text is scanned from the left: it is nothing, or a blank or a piece stands in front of the rest
of it. -/
@[elab_as_elim]
theorem scan_induction {motive : Nat → Text → Prop} (nil : ∀ offset, motive offset [])
    (blank : ∀ offset c text, isBlank c = true → motive (offset + 1) text → motive offset (c :: text))
    (piece : ∀ offset c text kind span behind, isBlank c = false →
      Piece.ofText c text = ⟨kind, span, behind⟩ → motive (offset + span.length) behind →
      motive offset (c :: text))
    (offset : Nat) (text : Text) : motive offset text := by
  -- a piece takes any number of characters, so the induction is on the length of the text
  induction hn : text.length using Nat.strong_induction_on generalizing offset text with
  | _ n ih =>
    subst hn
    cases text with
    | nil => exact nil offset
    | cons c text =>
      cases hc : isBlank c with
      | true => exact blank offset c text hc (ih _ (Nat.lt_succ_self _) (offset + 1) text rfl)
      | false =>
        obtain ⟨kind, span, behind, hpiece⟩ :
          ∃ kind span behind, Piece.ofText c text = ⟨kind, span, behind⟩ := ⟨_, _, _, rfl⟩
        have hlt : behind.length < (c :: text).length := by
          obtain ⟨tail, -, rfl⟩ := Piece.exists_tail_of_ofText hpiece
          simp only [List.length_cons, List.length_append]
          omega
        exact piece offset c text kind span behind hc hpiece (ih _ hlt _ behind rfl)

namespace Passes

variable {offset offset' : Nat} {text rest : Text} {ts : List Token.Spaced}

/-- The tokens of a text are those of a pass and those of what it leaves; all errors are in what it
leaves. -/
lemma split (h : Passes offset text ts offset' rest) :
    (piecesFrom 0 offset text).filterMap Placed.token? =
        ts ++ (piecesFrom 0 offset' rest).filterMap Placed.token? ∧
      (piecesFrom 0 offset text).filterMap Placed.error? =
        (piecesFrom 0 offset' rest).filterMap Placed.error? := by
  induction h with
  | refl => exact ⟨rfl, rfl⟩
  | blank hc _ ih =>
    rw [piecesFrom, if_pos hc]
    exact ih
  | token hc hpiece _ ih =>
    obtain ⟨htokens, herrors⟩ := ih
    rw [piecesFrom_piece hc hpiece]
    exact ⟨congrArg (_ :: ·) htokens, herrors⟩

/-- A pass to the end gives all tokens, and there are no errors. -/
lemma to_end (h : Passes offset text ts offset' []) :
    (piecesFrom 0 offset text).filterMap Placed.token? = ts ∧
      (piecesFrom 0 offset text).filterMap Placed.error? = [] := by
  simpa [piecesFrom] using h.split

/-- A text that is passed to its end is scanned as the tokens of the pass. -/
lemma tokenize_eq (h : Passes 0 text ts offset' []) :
    tokenize text = (ts.map (·.toToken) ++ [.endOf text.length], []) := by
  obtain ⟨htokens, herrors⟩ := h.to_end
  rw [tokenize, spacedTokens, scanErrors, pieces, htokens, herrors]

end Passes

lemma passes_blanks {gap : Text} (h : ∀ c ∈ gap, isBlank c = true) (offset : Nat) (rest : Text) :
    Passes offset (gap ++ rest) [] (offset + gap.length) rest := by
  induction gap generalizing offset with
  | nil => exact .refl _ _
  | cons c gap ih =>
    obtain ⟨hc, hgap⟩ := List.forall_mem_cons.mp h
    have hpass := ih hgap (offset + 1)
    rw [show offset + 1 + gap.length = offset + (c :: gap).length by simp; omega] at hpass
    exact .blank hc hpass

/-! ### Pieces of known form -/

section Pieces

variable {c : Char} {t value rest : Text} {offset : Nat}

lemma isBlank_of_isWordChar (hc : isWordChar c = true) : isBlank c = false := by
  by_contra h
  have hblank : isBlank c = true := by simpa using h
  simp only [isBlank, Bool.or_eq_true, decide_eq_true_eq] at hblank
  rcases hblank with (((rfl | rfl) | rfl) | rfl) | rfl <;> exact absurd hc (by decide)

lemma sign?_eq_none_of_isWordStart (hc : isWordStart c = true) (text : Text) :
    Piece.sign? (c :: text) = none := by
  unfold Piece.sign?
  split <;> rename_i h <;> first
    | rfl
    | (obtain ⟨rfl, -⟩ := List.cons.inj h; exact absurd hc (by decide))

/-- A word is the piece at the head of a text that it begins, unless it joins a following `in`. -/
lemma ofText_word (ht : Text.IsWord (c :: t)) (hrest : rest.EndsWord)
    (hin : c :: t = "not".toList → Piece.inWord? rest = none) :
    Piece.ofText c (t ++ rest) = ⟨.ok (Piece.kindOfWord (c :: t)), c :: t, rest⟩ := by
  obtain ⟨hstart, hslash, htake⟩ := ht
  have hquote : c ≠ '\'' := by
    rintro rfl
    revert hstart
    decide
  have hnone : (if c :: t = "not".toList then Piece.inWord? rest else none) = none := by
    split_ifs with hnot
    · exact hin hnot
    · rfl
  rw [Piece.ofText, sign?_eq_none_of_isWordStart hstart]
  simp only [hquote, hslash, hstart, ↓reduceIte]
  rw [Piece.word, takeWord_append_of_endsWord htake hrest]
  simp only [hnone]

lemma passes_word (ht : t.IsWord) (hrest : rest.EndsWord)
    (hin : t = "not".toList → Piece.inWord? rest = none) (offset : Nat) :
    Passes offset (t ++ rest) [⟨⟨Piece.kindOfWord t, t, offset⟩, trailOf rest⟩]
      (offset + t.length) rest := by
  cases t with
  | nil => cases ht
  | cons c t =>
    have hc : isBlank c = false := isBlank_of_isWordChar (ht.isWordChar c (List.mem_cons_self ..))
    have h : Passes offset (c :: (t ++ rest)) _ _ rest :=
      .token hc (ofText_word ht hrest hin) (.refl _ _)
    rwa [Piece.lexemeOf_kindOfWord] at h

/-- A word by itself is one token. -/
lemma tokenize_of_isWord (ht : t.IsWord) :
    tokenize t = ([⟨Piece.kindOfWord t, t, 0⟩, .endOf t.length], []) := by
  have hpass := passes_word ht Text.endsWord_nil (fun _ => rfl) 0
  rw [List.append_nil] at hpass
  exact hpass.tokenize_eq

lemma passes_quoted (hvalue : '\'' ∉ value) (rest : Text) (offset : Nat) :
    Passes offset ('\'' :: (value ++ '\'' :: rest))
      [⟨⟨.string, value, offset⟩, trailOf rest⟩] (offset + (value.length + 2)) rest := by
  have hpiece : Piece.ofText '\'' (value ++ '\'' :: rest) =
      ⟨.ok .string, '\'' :: value ++ ['\''], rest⟩ := by
    simp [Piece.ofText, Piece.sign?, Piece.quoted, Text.splitFirst?_append hvalue rest]
  have h : Passes offset _ _ _ rest := .token (by decide) hpiece (.refl _ _)
  simpa [Placed.lexemeOf] using h

lemma passes_regex {pattern flags : Text} (hpattern : Regex.IsClosed pattern)
    (hflags : (flags ++ rest).takeWhile Regex.isFlag = flags) (offset : Nat) :
    Passes offset ('/' :: (pattern ++ '/' :: (flags ++ rest)))
      [⟨⟨.regex, '/' :: pattern ++ '/' :: flags, offset⟩, trailOf rest⟩]
      (offset + ('/' :: pattern ++ '/' :: flags).length) rest := by
  have hbehind : (flags ++ rest).dropWhile Regex.isFlag = rest := by
    have happend := List.takeWhile_append_dropWhile (p := Regex.isFlag) (l := flags ++ rest)
    rw [hflags] at happend
    exact List.append_cancel_left happend
  have hpiece : Piece.ofText '/' (pattern ++ '/' :: (flags ++ rest)) =
      ⟨.ok .regex, '/' :: pattern ++ '/' :: flags, rest⟩ := by
    simp [Piece.ofText, Piece.sign?, Piece.regexLiteral, Regex.close?_append hpattern, hflags,
      hbehind]
  exact Passes.token (by decide) hpiece (.refl _ _)

lemma of_sign?_eq_some {text span : Text} {kind : Token.Kind}
    (h : Piece.sign? text = some ⟨.ok kind, span, rest⟩) :
    kind ≠ .string ∧ ∃ c tail, text = c :: tail ∧ isBlank c = false := by
  unfold Piece.sign? at h
  split at h <;> simp only [Option.some.injEq, Piece.mk.injEq, Except.ok.injEq, reduceCtorEq,
    false_and] at h
  all_goals
    obtain ⟨rfl, -⟩ := h
    exact ⟨by decide, _, _, rfl, by decide⟩

/-- A sign is a token of its own. -/
lemma passes_sign {text span : Text} {kind : Token.Kind}
    (h : Piece.sign? text = some ⟨.ok kind, span, rest⟩) (offset : Nat) :
    Passes offset text [⟨⟨kind, span, offset⟩, trailOf rest⟩] (offset + span.length) rest := by
  obtain ⟨hkind, c, tail, rfl, hc⟩ := of_sign?_eq_some h
  have hlexeme : Placed.lexemeOf kind span = span := by
    cases kind <;> first | rfl | exact absurd rfl hkind
  have hpiece : Piece.ofText c tail = ⟨.ok kind, span, rest⟩ := by simp [Piece.ofText, h]
  have hpass : Passes offset (c :: tail) _ _ rest := .token hc hpiece (.refl _ _)
  rwa [hlexeme] at hpass

lemma inWord?_in (rest : Text) :
    Piece.inWord? (' ' :: 'i' :: 'n' :: ' ' :: rest) = some ([' ', 'i', 'n'], ' ' :: rest) := by
  have hword : takeWord 0 ['n'] = (['n'], []) :=
    takeWord_of_isKeyChar (List.all_eq_true.mp (by decide))
  have htake : takeWord 0 ('n' :: ' ' :: rest) = (['n'], ' ' :: rest) :=
    takeWord_append_of_endsWord hword (Text.endsWord_cons (by decide) rest)
  have hdrop :
      (' ' :: 'i' :: 'n' :: ' ' :: rest).dropWhile isBlank = 'i' :: 'n' :: ' ' :: rest := by
    simp [isBlank]
  have htakeWhile : (' ' :: 'i' :: 'n' :: ' ' :: rest).takeWhile isBlank = [' '] := by
    simp [isBlank]
  rw [Piece.inWord?, hdrop, htakeWhile]
  simp [htake]

/-- The words `not` and `in` with a blank between them are one token. -/
lemma passes_not_in (rest : Text) (offset : Nat) :
    Passes offset ('n' :: 'o' :: 't' :: ' ' :: 'i' :: 'n' :: ' ' :: rest)
      [⟨⟨.membership true, ['n', 'o', 't', ' ', 'i', 'n'], offset⟩, trailOf (' ' :: rest)⟩]
      (offset + 6) (' ' :: rest) := by
  have hword : takeWord 0 ['o', 't'] = (['o', 't'], []) :=
    takeWord_of_isKeyChar (List.all_eq_true.mp (by decide))
  have htake : takeWord 0 ('o' :: 't' :: ' ' :: 'i' :: 'n' :: ' ' :: rest) =
      (['o', 't'], ' ' :: 'i' :: 'n' :: ' ' :: rest) :=
    takeWord_append_of_endsWord hword (Text.endsWord_cons (by decide) _)
  have hstart : isWordStart 'n' = true := by decide
  have hpiece : Piece.ofText 'n' ('o' :: 't' :: ' ' :: 'i' :: 'n' :: ' ' :: rest) =
      ⟨.ok (.membership true), ['n', 'o', 't', ' ', 'i', 'n'], ' ' :: rest⟩ := by
    rw [Piece.ofText, sign?_eq_none_of_isWordStart hstart]
    simp [hstart, Piece.word, htake, inWord?_in]
  exact Passes.token (by decide) hpiece (.refl _ _)

end Pieces

end WhenClause
