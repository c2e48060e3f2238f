import WhenClause.Proofs.Scan.Passes

/-!
# Where a token ends

A token is told by the characters it covers and the first character behind them: in front of any
text that continues it no more than the text behind it does, the same token is found again
(`Piece.ofText_of_stopsAs`). Only the word `not` looks further, for a word `in`, and finds it
exactly when that is the next token (`inWord?_isSome_iff`).
-/

namespace WhenClause

/-- Whether a character may make a token in front of it longer. -/
def continuesToken (c : Char) : Bool := isWordChar c || c = '=' || c = '~'

namespace Text

/-- A text that continues a token in front of it only if another text continues it as well. -/
def StopsAs (t u : Text) : Prop := ∀ c ∈ t.head?, continuesToken c = true → u.head? = some c

variable {t u v : Text} {c d : Char}

lemma stopsAs_nil (u : Text) : StopsAs [] u := by
  intro c hc
  cases hc

lemma stopsAs_cons (hc : continuesToken c = false) (t u : Text) : StopsAs (c :: t) u := by
  intro d hd hcontinues
  cases hd
  rw [hc] at hcontinues
  cases hcontinues

/-- Behind the same characters, what continues a token in front is the same. -/
lemma StopsAs.append (h : t.StopsAs u) (v : Text) : StopsAs (v ++ t) (v ++ u) := by
  cases v with
  | nil => exact h
  | cons c v => exact fun d hd _ => hd

lemma StopsAs.ne_cons (h : t.StopsAs u) (hc : continuesToken c = true)
    (hu : ∀ v, u ≠ c :: v) (v : Text) : t ≠ c :: v := by
  rintro rfl
  obtain ⟨v, hv⟩ := List.head?_eq_some_iff.mp (h c rfl hc)
  exact hu v hv

end Text

lemma continuesToken_of_isWordChar {c : Char} (h : isWordChar c = true) :
    continuesToken c = true := by
  simp [continuesToken, h]

lemma continuesToken_of_isFlag {c : Char} (h : Regex.isFlag c = true) :
    continuesToken c = true := by
  have hflags : ∀ c ∈ ['i', 'g', 's', 'm', 'y', 'u'], continuesToken c = true := by
    have hall : ['i', 'g', 's', 'm', 'y', 'u'].all continuesToken = true := by decide
    exact List.all_eq_true.mp hall
  exact hflags c (of_decide_eq_true h)

lemma continuesToken_of_isBlank {c : Char} (h : isBlank c = true) : continuesToken c = false := by
  simp only [isBlank, Bool.or_eq_true, decide_eq_true_eq] at h
  rcases h with (((rfl | rfl) | rfl) | rfl) | rfl <;> decide

/-! ### Words -/

section Words

variable {text word more behind behind' : Text} {depth : Nat}

/-- A word is read again in front of a text that continues it no more. -/
lemma takeWord_of_stopsAs (h : takeWord depth text = (word, behind))
    (hstop : behind'.StopsAs behind) : takeWord depth (word ++ behind') = (word, behind') := by
  induction text generalizing depth word with
  | nil =>
    obtain ⟨rfl, rfl⟩ := Prod.mk.inj h
    refine takeWord_append_of_endsWord rfl fun c hc => ?_
    by_contra hword
    have hcontinues := continuesToken_of_isWordChar (by simpa using hword)
    cases hstop c hc hcontinues
  | cons c text ih =>
    rw [takeWord_cons] at h
    cases hc : bracketsAfter? depth c with
    | some depth' =>
      rw [hc] at h
      obtain ⟨rfl, rfl⟩ := Prod.mk.inj h
      rw [List.cons_append, takeWord_cons, hc]
      simp only [ih rfl]
    | none =>
      rw [hc] at h
      obtain ⟨rfl, rfl⟩ := Prod.mk.inj h
      cases behind' with
      | nil => rfl
      | cons d rest =>
        rw [List.nil_append, takeWord_cons]
        cases hd : bracketsAfter? depth d with
        | none => rfl
        | some depth' =>
          -- a character that continues the word stands there on both sides
          have hword := isWordChar_of_bracketsAfter? hd
          have hsame := hstop d rfl (continuesToken_of_isWordChar hword)
          obtain rfl : c = d := Option.some.inj hsame
          rw [hc] at hd
          cases hd

/-- A word `in` behind blanks is read again in front of a text that continues it no more. -/
lemma inWord?_of_stopsAs (h : Piece.inWord? text = some (more, behind))
    (hstop : behind'.StopsAs behind) : Piece.inWord? (more ++ behind') = some (more, behind') := by
  rw [Piece.inWord?] at h
  split at h
  · next tail htail =>
    dsimp only at h
    split_ifs at h with hn
    obtain ⟨rfl, rfl⟩ := Prod.mk.inj (Option.some.inj h)
    have hword : takeWord 0 ('n' :: behind') = (['n'], behind') :=
      takeWord_of_stopsAs (Prod.ext hn rfl) hstop
    have hblank : ∀ c ∈ text.takeWhile isBlank, isBlank c = true := fun c hc =>
      List.mem_takeWhile_imp hc
    have hi : isBlank 'i' = false := by decide
    rw [Piece.inWord?, List.append_assoc, List.dropWhile_append_of_pos hblank,
      List.takeWhile_append_of_pos hblank]
    simp [hi, hword]
  · cases h

end Words

/-! ### Pieces -/

namespace Piece

variable {c : Char} {text span behind behind' : Text} {kind : Token.Kind} {p : Piece}

lemma sign?_of_stopsAs (h : sign? text = some p) (hstop : behind'.StopsAs p.rest) :
    sign? (p.span ++ behind') = some { p with rest := behind' } := by
  have hequals : continuesToken '=' = true := by decide
  have htilde : continuesToken '~' = true := by decide
  unfold sign? at h
  split at h <;> simp only [Option.some.injEq, reduceCtorEq] at h <;> subst h
  -- a sign that `=` or `~` would make longer ends here because neither stands behind it
  case h_4 t ht | h_7 t ht | h_11 t ht | h_13 t ht =>
    have hne := hstop.ne_cons hequals ht
    simp only [List.cons_append, List.nil_append, sign?]
  case h_5 t _ ht =>
    have hne := hstop.ne_cons hequals ht
    have hne' : ∀ u, behind' ≠ '=' :: '=' :: u := fun u => hne ('=' :: u)
    simp only [List.cons_append, List.nil_append, sign?]
  case h_9 t _ ht ht' =>
    have hne := hstop.ne_cons hequals ht
    have hne' : ∀ u, behind' ≠ '=' :: '=' :: u := fun u => hne ('=' :: u)
    have hne'' := hstop.ne_cons htilde ht'
    simp only [List.cons_append, List.nil_append, sign?]
  all_goals rfl

lemma quoted_of_kind (h : (quoted text).kind = .ok kind) (behind' : Text) :
    ∃ tail, (quoted text).span = '\'' :: tail ∧
      quoted (tail ++ behind') = { quoted text with rest := behind' } := by
  rw [quoted] at h ⊢
  cases hs : Text.splitFirst? '\'' text with
  | none => simp [hs] at h
  | some parts =>
    obtain ⟨content, behind⟩ := parts
    have happend := Text.splitFirst?_append (Text.not_mem_of_splitFirst? hs) behind'
    refine ⟨content ++ ['\''], rfl, ?_⟩
    rw [List.append_assoc, List.cons_append, List.nil_append, quoted, happend]

lemma regexLiteral_of_stopsAs (h : (regexLiteral text).kind = .ok kind)
    (hstop : behind'.StopsAs (regexLiteral text).rest) :
    ∃ tail, (regexLiteral text).span = '/' :: tail ∧
      regexLiteral (tail ++ behind') = { regexLiteral text with rest := behind' } := by
  rw [regexLiteral] at h hstop ⊢
  cases hs : Regex.close? .start text with
  | none => simp [hs] at h
  | some parts =>
    obtain ⟨body, after⟩ := parts
    simp only [hs] at hstop
    have hflags : ∀ c ∈ after.takeWhile Regex.isFlag, Regex.isFlag c = true := fun c hc =>
      List.mem_takeWhile_imp hc
    have hhead : ∀ c ∈ behind'.head?, Regex.isFlag c = false := by
      intro c hc
      by_contra hflag
      have hflag : Regex.isFlag c = true := by simpa using hflag
      have hsame := hstop c hc (continuesToken_of_isFlag hflag)
      have hnot := List.head?_dropWhile_not Regex.isFlag after
      rw [hsame] at hnot
      simp [hflag] at hnot
    have hnone : behind'.takeWhile Regex.isFlag = [] ∧
        behind'.dropWhile Regex.isFlag = behind' := by
      cases behind' with
      | nil => exact ⟨rfl, rfl⟩
      | cons c rest =>
        have hc := hhead c rfl
        simp [hc]
    have happend := Regex.close?_append (Regex.closes_of_close? hs)
      (after.takeWhile Regex.isFlag ++ behind')
    refine ⟨body ++ '/' :: after.takeWhile Regex.isFlag, rfl, ?_⟩
    rw [List.append_assoc, List.cons_append, regexLiteral, happend]
    simp only [List.takeWhile_append_of_pos hflags, List.dropWhile_append_of_pos hflags, hnone,
      List.append_nil]

/-- The word `not` is a key, and no word `in` stands behind it. -/
lemma kind_and_inWord?_of_word (h : word c text = ⟨.ok kind, "not".toList, behind⟩) :
    kind = .key ∧ inWord? behind = none := by
  rw [word] at h
  dsimp only at h
  split at h
  · next more rest hin =>
    split_ifs at hin with hname
    -- a joined word is longer than `not`
    have hspan : c :: (takeWord 0 text).1 ++ more = "not".toList := (Piece.mk.inj h).2.1
    rw [hname] at hspan
    obtain rfl : more = [] := by simpa using hspan
    rw [inWord?] at hin
    split at hin
    · dsimp only at hin
      split_ifs at hin
      simp at hin
    · cases hin
  · next hin =>
    obtain ⟨hkind, hname, rfl⟩ := Piece.mk.inj h
    rw [if_pos hname] at hin
    rw [hname] at hkind
    exact ⟨(Except.ok.inj hkind).symm, hin⟩

lemma word_of_stopsAs (h : word c text = ⟨.ok kind, span, behind⟩)
    (hstop : behind'.StopsAs behind) (hin : span = "not".toList → inWord? behind' = none) :
    ∃ tail, span = c :: tail ∧ word c (tail ++ behind') = ⟨.ok kind, span, behind'⟩ := by
  rw [word] at h
  dsimp only at h
  split at h
  · next more rest hmore =>
    obtain ⟨hkind, rfl, rfl⟩ := Piece.mk.inj h
    split_ifs at hmore with hname
    have hbehind := eq_of_inWord? hmore
    have hsame : (more ++ behind').StopsAs (takeWord 0 text).2 := by
      rw [← hbehind]
      exact hstop.append more
    have hword := takeWord_of_stopsAs rfl hsame
    refine ⟨(takeWord 0 text).1 ++ more, rfl, ?_⟩
    rw [List.append_assoc, word, hword]
    simp only [hname, ↓reduceIte, inWord?_of_stopsAs hmore hstop, hkind]
  · next hnone =>
    obtain ⟨hkind, rfl, rfl⟩ := Piece.mk.inj h
    have hword := takeWord_of_stopsAs rfl hstop
    refine ⟨(takeWord 0 text).1, rfl, ?_⟩
    have hnone' : (if c :: (takeWord 0 text).1 = "not".toList then inWord? behind' else none) =
        none := by
      split_ifs with hname
      · exact hin hname
      · rfl
    rw [word, hword]
    simp only [hnone', hkind]

/-- A token is found again in front of a text that continues it no more than the text behind it,
unless it is the word `not` and a word `in` follows. -/
lemma ofText_of_stopsAs (h : ofText c text = ⟨.ok kind, span, behind⟩)
    (hstop : behind'.StopsAs behind) (hin : span = "not".toList → inWord? behind' = none) :
    ∃ tail, span = c :: tail ∧ ofText c (tail ++ behind') = ⟨.ok kind, span, behind'⟩ := by
  obtain ⟨tail, hspan, -⟩ := exists_tail_of_ofText h
  rw [ofText] at h
  cases hsign : sign? (c :: text) with
  | some p =>
    simp only [hsign] at h
    subst h hspan
    have hsame := sign?_of_stopsAs hsign hstop
    rw [List.cons_append] at hsame
    exact ⟨tail, rfl, by rw [ofText, hsame]⟩
  | none =>
    simp only [hsign] at h
    split_ifs at h with hquote hslash hword
    · subst hquote
      obtain ⟨tail, hspan, hsame⟩ := quoted_of_kind (congrArg Piece.kind h) behind'
      rw [h] at hspan hsame
      exact ⟨tail, hspan, by rw [ofText]; simpa [sign?] using hsame⟩
    · subst hslash
      obtain ⟨tail, hspan, hsame⟩ := regexLiteral_of_stopsAs (congrArg Piece.kind h) (by rwa [h])
      rw [h] at hspan hsame
      exact ⟨tail, hspan, by rw [ofText]; simpa [sign?] using hsame⟩
    · obtain ⟨tail, hspan, hsame⟩ := word_of_stopsAs h hstop hin
      refine ⟨tail, hspan, ?_⟩
      rw [ofText, sign?_eq_none_of_isWordStart hword]
      simpa only [hquote, hslash, hword, ↓reduceIte] using hsame
    · cases (Piece.mk.inj h).1

/-- The piece `not` is a key, and no word `in` follows. -/
lemma kind_and_inWord?_of_ofText (h : ofText c text = ⟨.ok kind, "not".toList, behind⟩) :
    kind = .key ∧ inWord? behind = none := by
  obtain rfl : 'n' = c := (List.cons.inj (append_of_ofText h)).1
  have hstart : isWordStart 'n' = true := by decide
  rw [ofText, sign?_eq_none_of_isWordStart hstart] at h
  exact kind_and_inWord?_of_word h

/-- The piece `not` is found only where no word `in` follows. -/
lemma inWord?_eq_none_of_ofText (h : ofText c text = ⟨.ok kind, "not".toList, behind⟩) :
    inWord? behind = none :=
  (kind_and_inWord?_of_ofText h).2

/-! ### The word behind a `not` -/

lemma inWord?_cons_blank (hc : isBlank c = true) (t : Text) :
    inWord? (c :: t) = (inWord? t).map fun (more, behind) => (c :: more, behind) := by
  rw [inWord?, inWord?, List.dropWhile_cons_of_pos hc, List.takeWhile_cons_of_pos hc]
  split
  · dsimp only
    split_ifs <;> rfl
  · rfl

lemma kindOfWord_eq_membership (name : Text) :
    kindOfWord name = .membership false ↔ name = "in".toList := by
  rw [kindOfWord]
  split_ifs with htrue hfalse hin
  · simp [htrue]
  · simp [hfalse]
  · simp [hin]
  · exact ⟨fun h => (by cases h), fun h => absurd h hin⟩

/-- A word `in` stands at the head of a text exactly if it is the piece there. -/
lemma inWord?_cons_isSome_iff {kind : Except Fault Token.Kind} (hc : isBlank c = false)
    (h : ofText c text = ⟨kind, span, behind⟩) :
    (inWord? (c :: text)).isSome ↔ kind = .ok (.membership false) := by
  by_cases hi : c = 'i'
  · subst hi
    have hstart : isWordStart 'i' = true := by decide
    have hkind : .ok (kindOfWord ('i' :: (takeWord 0 text).1)) = kind := by
      rw [ofText, sign?_eq_none_of_isWordStart hstart] at h
      simpa [hstart, word] using congrArg Piece.kind h
    rw [inWord?, List.dropWhile_cons_of_neg (by simp [hc]), ← hkind, Except.ok.injEq,
      kindOfWord_eq_membership]
    by_cases hn : (takeWord 0 text).1 = ['n'] <;> simp [hn]
  · have hnone : inWord? (c :: text) = none := by
      rw [inWord?, List.dropWhile_cons_of_neg (by simp [hc])]
      split
      · next hcons => exact absurd (List.cons.inj hcons).1 hi
      · rfl
    rw [hnone]
    refine ⟨fun hsome => (by cases hsome), ?_⟩
    rintro rfl
    have hfits := fits_ofText (congrArg Piece.kind h)
    rw [h] at hfits
    have hspan : span = "in".toList := (kindOfWord_eq_membership span).mp hfits.2
    have happend := append_of_ofText h
    rw [hspan] at happend
    exact absurd (List.cons.inj happend).1.symm hi

end Piece

section Passes

variable {offset offset' : Nat} {text rest : Text} {t : Token.Spaced} {ts : List Token.Spaced}

/-- A word `in` stands behind blanks exactly if it is the next token. -/
lemma inWord?_isSome_iff (h : Passes offset text (t :: ts) offset' rest) :
    (Piece.inWord? text).isSome ↔ t.kind = .membership false := by
  generalize hus : t :: ts = us at h
  induction h with
  | refl => cases hus
  | blank hc _ ih => rw [Piece.inWord?_cons_blank hc, Option.isSome_map, ih hus]
  | token hc hpiece _ _ =>
    obtain ⟨rfl, -⟩ := List.cons.inj hus
    rw [Piece.inWord?_cons_isSome_iff hc hpiece, Except.ok.injEq]

lemma inWord?_eq_none_of_passes (h : Passes offset text [] offset' rest)
    (hrest : Piece.inWord? rest = none) : Piece.inWord? text = none := by
  generalize hus : ([] : List Token.Spaced) = us at h
  induction h with
  | refl => exact hrest
  | blank hc _ ih => rw [Piece.inWord?_cons_blank hc, ih hrest hus, Option.map_none]
  | token => cases hus

/-- Where tokens of the same kinds follow, either both texts have a word `in` next or none. -/
lemma inWord?_eq_none_congr {o o' : Nat} {text' rest' : Text} {us : List Token.Spaced}
    (h : Passes offset text ts offset' rest) (h' : Passes o text' us o' rest')
    (hkinds : us.map (·.kind) = ts.map (·.kind)) (hrest : Piece.inWord? rest' = none)
    (hin : Piece.inWord? text = none) : Piece.inWord? text' = none := by
  cases us with
  | nil => exact inWord?_eq_none_of_passes h' hrest
  | cons u us =>
    cases ts with
    | nil => cases hkinds
    | cons t ts =>
      have hkind : u.kind = t.kind := (List.cons.inj hkinds).1
      rw [← Option.not_isSome_iff_eq_none, inWord?_isSome_iff h', hkind,
        ← inWord?_isSome_iff h, hin]
      simp

end Passes

end WhenClause
