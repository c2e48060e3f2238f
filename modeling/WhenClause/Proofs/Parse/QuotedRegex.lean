import WhenClause.Proofs.Grammar.Printing
import WhenClause.Proofs.Grammar.Recognition
import WhenClause.Proofs.Regex.Flags
import WhenClause.Proofs.Scan.RegexTokens

/-!
# Regexes in quotes

A quoted regex is written as a literal. The literal is scanned as one token with the same pattern
and the same flags exactly when the pattern leaves no escape and no class open, which only a
comment can hide from the parser of regexes (`Clause.parse_quoted_regex`).
-/

namespace WhenClause

variable {K : Constants} {key content pattern flags right rest : Text} {e c : Clause}
  {k o r : Token.Spaced} {offset : Nat}

/-! ### Keys and matches -/

/-- A key and the sign of a match are passed before the right side. -/
lemma passes_matching (hkey : key.IsKeyName) (h : Passes (key.length + 4) right [r] offset rest) :
    ∃ k o : Token.Spaced, k.toToken = ⟨.key, key, 0⟩ ∧
      o.toToken = ⟨.matching, ['=', '~'], key.length + 1⟩ ∧
      Passes 0 (key ++ " =~ ".toList ++ right) [k, o, r] offset rest := by
  have hin : Piece.inWord? (" =~ ".toList ++ right) = none := by simp [Piece.inWord?, isBlank]
  have hends : Text.EndsWord (" =~ ".toList ++ right) := Text.endsWord_cons (by decide) _
  have hword := passes_word hkey.isWord hends (fun _ => hin) 0
  rw [hkey.kindOfWord, Nat.zero_add] at hword
  have hsign : Piece.sign? ('=' :: '~' :: ' ' :: right) =
    some ⟨.ok .matching, ['=', '~'], ' ' :: right⟩ := rfl
  have htail := (passes_sign hsign (key.length + 1)).spaced h
  rw [List.append_assoc]
  exact ⟨_, _, rfl, rfl, hword.append htail⟩

/-- A key, the sign of a match and one more token are read as a match, if at all. -/
lemma Clause.ofTokens_matching {last : Token} (hk : k.kind = .key) (ho : o.kind = .matching)
    (h : Clause.ofTokens [k, o, r] last = .ok c) :
    ∃ pattern flags, TestPart.regex? r = some (pattern, flags) ∧
      Regex.accepts pattern flags = true ∧ c = .test (.regex k.lexeme pattern flags) := by
  have hkey : Reading.start.step k = .ok ⟨.key 0 k.lexeme, .start, []⟩ := Reading.step_key hk
  have hsign : Reading.step ⟨.key 0 k.lexeme, .start, []⟩ o =
      .ok ⟨.test 0 k.lexeme .matching, .start, []⟩ :=
    Reading.step_operator (by rw [ho]; rfl)
  have hread : Clause.ofTokens [k, o, r] last =
      (Reading.run ⟨.test 0 k.lexeme .matching, .start, []⟩ [r]).bind (·.finish last) := by
    rw [← Reading.run_cons hsign, ← Reading.run_cons hkey]
    rfl
  rw [hread] at h
  cases htest : TestPart.matching.test? k.lexeme r with
  | none =>
    have hfail : Reading.run ⟨.test 0 k.lexeme .matching, .start, []⟩ [r] =
        .error ⟨r.toToken, .regex⟩ := by
      simp only [Reading.run, List.foldlM_cons, Reading.step, htest]
      rfl
    rw [hfail] at h
    cases h
  | some test =>
    have hdone : Reading.run ⟨.test 0 k.lexeme .matching, .start, []⟩ [r] =
        .ok ⟨.done, Level.start.add (.test test), []⟩ :=
      Reading.run_cons (Reading.step_test htest) []
    rw [hdone] at h
    obtain rfl : Clause.test test = c := Except.ok.inj h
    simp only [TestPart.test?] at htest
    split at htest
    · next pattern flags hregex =>
      split_ifs at htest with haccepts
      cases htest
      exact ⟨pattern, flags, hregex, haccepts, rfl⟩
    · cases htest

/-! ### Literals -/

/-- The text of a match is scanned as the key, the sign and one regex literal, which holds the
pattern and the flags. -/
def ScansBack (key pattern flags : Text) : Prop :=
  ∃ rx : Token,
    tokenize (Clause.test (.matching key pattern flags)).text =
      ([⟨.key, key, 0⟩, ⟨.matching, ['=', '~'], key.length + 1⟩, rx,
        .endOf (Clause.test (.matching key pattern flags)).text.length], []) ∧
    rx.kind = .regex ∧ Regex.splitLiteral rx.lexeme = (pattern, flags)

lemma scansBack_of_isClosed (hkey : key.IsKeyName) (hpattern : Regex.IsClosed pattern)
    (hflags : ∀ c ∈ flags, Regex.isFlag c = true) : ScansBack key pattern flags := by
  have htake : (flags ++ []).takeWhile Regex.isFlag = flags := by
    rw [List.append_nil, List.takeWhile_eq_self_iff.mpr hflags]
  obtain ⟨k, o, hk, ho, hpass⟩ := passes_matching hkey (passes_regex hpattern htake (key.length + 4))
  have htext : (Clause.test (.matching key pattern flags)).text =
      key ++ " =~ ".toList ++ '/' :: (pattern ++ '/' :: (flags ++ [])) := by
    simp [Clause.text, Clause.write, Test.write]
  refine ⟨⟨.regex, '/' :: pattern ++ '/' :: flags, key.length + 4⟩, ?_, rfl,
    Regex.splitLiteral_append pattern hflags⟩
  rw [htext, hpass.tokenize_eq]
  simp [hk, ho]

/-- A regex literal holds a closed pattern. -/
lemma isClosed_of_scansBack (h : ScansBack key pattern flags) : Regex.IsClosed pattern := by
  obtain ⟨rx, htokens, hkind, hsplit⟩ := h
  have hmem : rx ∈ (tokenize (Clause.test (.matching key pattern flags)).text).1 := by
    rw [htokens]
    simp
  obtain ⟨pattern', flags', hholds⟩ := exists_holdsRegex hmem hkind
  rw [hholds.splitLiteral_eq] at hsplit
  cases hsplit
  exact hholds.isClosed

/-! ### Regexes in quotes -/

/-- A regex in quotes is parsed as the text between two slashes of it, with its slashes escaped,
and what is written of it is scanned as the regex that was parsed if and only if no escape and no
class is left open. Without a comment none is. -/
theorem Clause.parse_quoted_regex (hkey : key.IsKeyName) (hcontent : '\'' ∉ content)
    (h : Clause.parse K (key ++ " =~ '".toList ++ content ++ ['\'']) = .ok e) :
    ∃ pattern flags, Regex.splitQuoted? content = some (pattern, flags) ∧
      e = test (.matching key pattern flags) ∧
      (ScansBack key pattern flags ↔ Regex.Mode.start.after pattern = .start) ∧
      ('#' ∉ pattern → ScansBack key pattern flags) := by
  have hinput : key ++ " =~ '".toList ++ content ++ ['\''] =
      key ++ " =~ ".toList ++ '\'' :: (content ++ '\'' :: []) := by simp
  obtain ⟨k, o, hk, ho, hpass⟩ := passes_matching hkey (passes_quoted hcontent [] _)
  obtain ⟨htokens, herrors⟩ := hpass.to_end
  rw [← hinput] at htokens herrors
  have hspaced : spacedTokens _ = _ := htokens
  have hscan : scanErrors _ = _ := herrors
  rw [Clause.parse, hscan, hspaced] at h
  dsimp only at h
  split at h
  · next c hread =>
    obtain ⟨pattern, flags, hregex, haccepts, rfl⟩ :=
      ofTokens_matching (congrArg Token.kind hk) (congrArg Token.kind ho) hread
    have hsplit : Regex.splitQuoted? content = some (pattern, flags) := hregex
    have hscans : ScansBack key pattern flags ↔ Regex.Mode.start.after pattern = .start := by
      constructor
      · intro hscans
        exact Regex.after_of_closes (isClosed_of_scansBack hscans)
      · intro hafter
        obtain ⟨hclosed, hflags⟩ := Regex.isClosed_of_splitQuoted? hsplit hafter
        exact scansBack_of_isClosed hkey hclosed hflags
    have hkey : k.lexeme = key := congrArg Token.lexeme hk
    have hsettle : (test (.matching key pattern flags)).normalize K =
        test (.matching key pattern flags) := Test.settle_of_isOpen trivial
    refine ⟨pattern, flags, hsplit, ?_, hscans, fun hcomment => ?_⟩
    · rw [hkey, Test.regex, Regex.sortFlags_of_splitQuoted? hsplit, hsettle] at h
      exact (Except.ok.inj h).symm
    · exact hscans.mpr (Regex.after_of_accepts hcomment haccepts)
  · cases h

/-- A slash in a class, a slash outside of it, and a text before the first slash. -/
theorem Clause.parse_quoted_regex_of_inner_slashes :
    let content := "see /(?:[/]a/\\d)+/i".toList
    Text.IsKeyName ['k'] ∧ '\'' ∉ content ∧
      Clause.parse .host (['k'] ++ " =~ '".toList ++ content ++ ['\'']) =
        .ok (test (.matching ['k'] "(?:[/]a\\/\\d)+".toList ['i'])) ∧
      ScansBack ['k'] "(?:[/]a\\/\\d)+".toList ['i'] := by
  intro content
  have hkey : Text.IsKeyName ['k'] := by decide +kernel
  have hcontent : '\'' ∉ content := by decide +kernel
  have h : Clause.parse .host (['k'] ++ " =~ '".toList ++ content ++ ['\'']) =
      .ok (test (.matching ['k'] "(?:[/]a\\/\\d)+".toList ['i'])) := by decide +kernel
  obtain ⟨pattern, flags, -, htest, -, hscans⟩ := parse_quoted_regex hkey hcontent h
  cases htest
  exact ⟨hkey, hcontent, h, hscans (by decide)⟩

/-- A comment hides its bracket from the parser of regexes, but not from the scanner of clauses. -/
theorem Clause.not_scansBack_of_comment :
    Text.IsKeyName ['k'] ∧ '\'' ∉ "/(?#[)/".toList ∧
      Clause.parse .host (['k'] ++ " =~ '".toList ++ "/(?#[)/".toList ++ ['\'']) =
        .ok (test (.matching ['k'] "(?#[)".toList [])) ∧
      ¬ScansBack ['k'] "(?#[)".toList [] := by
  refine ⟨by decide +kernel, by decide, by decide +kernel, ?_⟩
  rintro ⟨rx, htokens, -⟩
  have herrors : scanErrors (test (.matching ['k'] "(?#[)".toList [])).text ≠ [] := by
    decide +kernel
  exact herrors (Prod.mk.inj htokens).2

end WhenClause
