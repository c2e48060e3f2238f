import WhenClause.Proofs.Grammar.Likeness
import WhenClause.Proofs.Grammar.Recognition
import WhenClause.Proofs.Scan.Replacement

/-!
# Literals in quotes

A constant key that is compared with `true` or `false` can also be compared with that word in
quotes. The clause is the same unless the word is the value of the key and blanks separate it from
another token (`Clause.parse_quoteAt`): without quotes these blanks belong to the value, which is
then no value of a constant key (`Clause.not_parse_quoteAt_of_gap`).
-/

namespace WhenClause

open Grammar Reading

variable {α : Type} {J : Interpretation α} {f : Clause → α} {r q : Reading}
  {t u key op : Token.Spaced} {before after after' ts us : List Token.Spaced} {last : Token}
  {c e : Clause} {negated : Bool} {value s : Text} {K : Constants} {b l : Bool}

/-! ### The place behind the sign of an equality -/

namespace Reading

/-- Behind a key and the sign of an equality stands what the key is compared with. -/
lemma exists_place_of_run (hkey : key.kind = .key) (hop : op.kind = .equality negated)
    (h : start.run (before ++ [key, op]) = .ok q) :
    ∃ n, q.place = .test n key.lexeme (.equality negated) := by
  obtain ⟨p, -, hrun⟩ := exists_run_of_run_append h
  obtain ⟨p', hstep, hrun⟩ := exists_step_of_run_cons hrun
  obtain ⟨p'', hstep', hrun⟩ := exists_step_of_run_cons hrun
  obtain rfl := Except.ok.inj hrun
  obtain ⟨n, name, hplace, hplace'⟩ := place_of_step_equality hop hstep'
  rcases place_of_step_key hkey hstep with ⟨m, hm⟩ | hdone
  · rw [hplace] at hm
    cases hm
    exact ⟨n, hplace'⟩
  · rw [hplace] at hdone
    cases hdone

/-! ### One token in the place of another -/

lemma abreast_of_moved (h : List.Forall₂ Token.Spaced.Moved ts us) (behindEquality : Bool) :
    Abreast f behindEquality ts us := by
  refine abreast_of_forall₂ (h.imp fun t u hmoved p => ?_) _
  rw [hmoved]
  exact Place.equates_of_lexeme_eq f rfl rfl fun _ _ => rfl

/-- A token can give way to one that says the same in its place, and the tokens behind it can stand
anywhere. -/
lemma exists_ofTokens_eq_ok_of_equates (hf : Interpretation.written.IsTranslation J f)
    (ht : ∀ q, start.run before = .ok q → q.place.Equates f t u)
    (hafter : List.Forall₂ Token.Spaced.Moved after after')
    (h : Clause.ofTokens (before ++ t :: after) last = .ok c) (last' : Token) :
    ∃ c', Clause.ofTokens (before ++ u :: after') last' = .ok c' ∧ f c = f c' := by
  obtain ⟨r, hrun, hfinish⟩ := ofTokens_eq_ok_iff.mp h
  obtain ⟨q, hbefore, hrun⟩ := exists_run_of_run_append hrun
  obtain ⟨p, hstep, hrun⟩ := exists_step_of_run_cons hrun
  obtain ⟨p', hstep', hagree⟩ := (Agree.refl f q).step hf (ht q hbefore) hstep
  obtain ⟨r', hrun', hagree⟩ := hagree.run hf (abreast_of_moved hafter _) hrun
  obtain ⟨c', hfinish', hc⟩ := hagree.finish hf hfinish last'
  refine ⟨c', ofTokens_eq_ok_iff.mpr ⟨r', ?_, hfinish'⟩, hc⟩
  rw [run_append hbefore, run_cons hstep', hrun']

end Reading

namespace Clause

/-- The right side of an equality can give way to a text in quotes that makes the same test. -/
lemma exists_ofTokens_quoteAt (hf : Interpretation.written.IsTranslation J f)
    (hscan : scanErrors s = []) (htokens : spacedTokens s = before ++ key :: op :: t :: after)
    (hkey : key.kind = .key) (hop : op.kind = .equality negated)
    (ht : Operand.isWordKind t.kind = true) (hvalue : '\'' ∉ value)
    (htest : f (.test (.equals negated key.lexeme (t.lexeme ++ t.trail) false)) =
      f (.test (.equals negated key.lexeme value false)))
    (h : Clause.ofTokens (spacedTokens s) (.endOf s.length) = .ok c) :
    scanErrors (s.quoteAt t.toToken value) = [] ∧
      ∃ c', Clause.ofTokens (spacedTokens (s.quoteAt t.toToken value))
        (.endOf (s.quoteAt t.toToken value).length) = .ok c' ∧ f c = f c' := by
  have hbetween : before ++ key :: op :: t :: after = (before ++ [key, op]) ++ t :: after := by simp
  have hpass : Passes 0 s (spacedTokens s) (0 + s.length) [] := passes_of_errors_eq_nil 0 s hscan
  rw [htokens, hbetween] at hpass h
  obtain ⟨after', n, hquoted, hmoved⟩ := exists_passes_quoteAt hpass hvalue
  obtain ⟨hfound, herrors⟩ := hquoted.to_end
  refine ⟨herrors, ?_⟩
  rw [spacedTokens, pieces, hfound]
  refine exists_ofTokens_eq_ok_of_equates hf (fun q hq => ?_) hmoved h _
  obtain ⟨n, hplace⟩ := exists_place_of_run hkey hop hq
  have hstring := Token.Kind.ne_string_of_isWordKind ht
  rw [hplace]
  simpa [Place.Equates, TestPart.test?, TestPart.equalityValue?, hstring, ht] using htest

/-! ### Literals -/

lemma word_append_eq_word_iff {trail : Text} :
    Constants.word l ++ trail = Constants.word b ↔ trail = [] ∧ l = b := by
  cases l <;> cases b <;> simp [Constants.word]

lemma word_eq_word_iff : Constants.word l = Constants.word b ↔ l = b := by
  cases l <;> cases b <;> decide

lemma eq_word_of_kindOfWord {lexeme : Text} (h : Piece.kindOfWord lexeme = .literal l) :
    lexeme = Constants.word l := by
  rw [Piece.kindOfWord] at h
  split_ifs at h with htrue hfalse
  · cases h
    exact htrue
  · cases h
    exact hfalse

lemma normalize_equals (hconst : K.get? key.lexeme = some b) (value : Text) :
    (test (.equals negated key.lexeme value false)).normalize K =
      .const (decide (value = Constants.word b) != negated) := by
  simp only [normalize, Constants.settle, hconst]

lemma quote_not_mem_word (b : Bool) : '\'' ∉ Constants.word b := by cases b <;> decide

/-- A constant key that is compared with `true` or `false` can be compared with that word in quotes.
The clause is the same if no blanks separate the word from another token, or it is not the value of
the key. Otherwise the word with these blanks is no value of the key, and the clause is the one for
the other word in quotes. -/
theorem parse_quoteAt (hconst : K.get? key.lexeme = some b) (hparse : Clause.parse K s = .ok e)
    (htokens : spacedTokens s = before ++ key :: op :: t :: after) (hkey : key.kind = .key)
    (hop : op.kind = .equality negated) (ht : t.kind = .literal l) :
    (∃ e', Clause.parse K (s.quoteAt t.toToken t.lexeme) = .ok e') ∧
      (t.trail = [] ∨ l ≠ b → Clause.parse K (s.quoteAt t.toToken t.lexeme) = .ok e) ∧
      (t.trail ≠ [] → l = b →
        Clause.parse K (s.quoteAt t.toToken (Constants.word !b)) = .ok e) := by
  have hmem : t ∈ spacedTokens s := by simp [htokens]
  have hfits := (wellFormed_of_mem_spacedTokens hmem).fits
  rw [ht] at hfits
  have hlexeme : t.lexeme = Constants.word l := eq_word_of_kindOfWord hfits.2
  have hword : Operand.isWordKind t.kind = true := by rw [ht]; rfl
  obtain ⟨hscan, c, hread, hc⟩ := parse_eq_ok_iff_ofTokens.mp hparse
  -- the clause is the same where the two texts are both the value of the key, or neither is
  have hquote (value : Text) (hvalue : '\'' ∉ value) (hsame : Constants.word l ++ t.trail =
      Constants.word b ↔ value = Constants.word b) :
      Clause.parse K (s.quoteAt t.toToken value) = .ok e := by
    have htest : (test (.equals negated key.lexeme (t.lexeme ++ t.trail) false)).normalize K =
        (test (.equals negated key.lexeme value false)).normalize K := by
      rw [normalize_equals hconst, normalize_equals hconst, hlexeme, decide_eq_decide.mpr hsame]
    obtain ⟨herrors, c', hread', hc'⟩ := exists_ofTokens_quoteAt (isTranslation_normalize K) hscan
      htokens hkey hop hword hvalue htest hread
    exact parse_eq_ok_iff_ofTokens.mpr ⟨herrors, c', hread', hc'.symm.trans hc⟩
  refine ⟨?_, fun h => ?_, fun htrail hl => ?_⟩
  · rw [hlexeme]
    obtain ⟨herrors, c', hread', -⟩ := exists_ofTokens_quoteAt isTranslation_forget hscan
      htokens hkey hop hword (quote_not_mem_word l) rfl hread
    exact ⟨_, parse_eq_ok_iff_ofTokens.mpr ⟨herrors, c', hread', rfl⟩⟩
  · rw [hlexeme]
    refine hquote _ (quote_not_mem_word l) ?_
    rw [word_append_eq_word_iff, word_eq_word_iff]
    tauto
  · refine hquote _ (quote_not_mem_word _) ?_
    rw [word_append_eq_word_iff, word_eq_word_iff]
    simp [htrail]

/-- A key that is true compared with `true`, and one that is false compared with it, both with a
blank in front of what follows. -/
theorem parse_quoteAt_of_host_keys :
    let s : Text := "isLinux == true && a".toList
    let key : Token.Spaced := ⟨⟨.key, "isLinux".toList, 0⟩, [' ']⟩
    let op : Token.Spaced := ⟨⟨.equality false, ['=', '='], 8⟩, [' ']⟩
    let t : Token.Spaced := ⟨⟨.literal true, "true".toList, 11⟩, [' ']⟩
    let after : List Token.Spaced :=
      [⟨⟨.and, ['&', '&'], 16⟩, [' ']⟩, ⟨⟨.key, ['a'], 19⟩, []⟩]
    let s' : Text := "isMac != true && a".toList
    let key' : Token.Spaced := ⟨⟨.key, "isMac".toList, 0⟩, [' ']⟩
    let op' : Token.Spaced := ⟨⟨.equality true, ['!', '='], 6⟩, [' ']⟩
    let t' : Token.Spaced := ⟨⟨.literal true, "true".toList, 9⟩, [' ']⟩
    let after' : List Token.Spaced :=
      [⟨⟨.and, ['&', '&'], 14⟩, [' ']⟩, ⟨⟨.key, ['a'], 17⟩, []⟩]
    (Constants.host.get? key.lexeme = some true ∧ Clause.parse .host s = .ok (.const false) ∧
      spacedTokens s = [] ++ key :: op :: t :: after) ∧
    (Constants.host.get? key'.lexeme = some false ∧
      Clause.parse .host s' = .ok (test (.present ['a'])) ∧
      spacedTokens s' = [] ++ key' :: op' :: t' :: after') ∧
    (∃ e, Clause.parse .host (s.quoteAt t.toToken t.lexeme) = .ok e) ∧
    Clause.parse .host (s.quoteAt t.toToken (Constants.word false)) = .ok (.const false) ∧
    Clause.parse .host (s'.quoteAt t'.toToken t'.lexeme) = .ok (test (.present ['a'])) := by
  intro s key op t after s' key' op' t' after'
  have h : Constants.host.get? key.lexeme = some true ∧
      Clause.parse .host s = .ok (.const false) ∧
      spacedTokens s = [] ++ key :: op :: t :: after := by decide +kernel
  have h' : Constants.host.get? key'.lexeme = some false ∧
      Clause.parse .host s' = .ok (test (.present ['a'])) ∧
      spacedTokens s' = [] ++ key' :: op' :: t' :: after' := by decide +kernel
  obtain ⟨haccept, -, hother⟩ := parse_quoteAt h.1 h.2.1 h.2.2 rfl rfl rfl
  obtain ⟨-, hsame, -⟩ := parse_quoteAt h'.1 h'.2.1 h'.2.2 rfl rfl rfl
  exact ⟨h, h', haccept, hother (by decide) rfl, hsame (.inr (by decide))⟩

/-- A key that is true is not equal to `true` with a blank behind it, but to `'true'`. -/
theorem not_parse_quoteAt_of_gap :
    ¬∀ (K : Constants) (b l negated : Bool) (s : Text) (e : Clause)
      (before after : List Token.Spaced) (key op t : Token.Spaced),
      K.get? key.lexeme = some b → Clause.parse K s = .ok e →
      spacedTokens s = before ++ key :: op :: t :: after → key.kind = .key →
      op.kind = .equality negated → t.kind = .literal l →
      Clause.parse K (s.quoteAt t.toToken t.lexeme) = .ok e := by
  intro h
  have hfold := h .host true true false "isLinux == true && a".toList (.const false) []
    [⟨⟨.and, ['&', '&'], 16⟩, [' ']⟩, ⟨⟨.key, ['a'], 19⟩, []⟩]
    ⟨⟨.key, "isLinux".toList, 0⟩, [' ']⟩ ⟨⟨.equality false, ['=', '='], 8⟩, [' ']⟩
    ⟨⟨.literal true, "true".toList, 11⟩, [' ']⟩ (by decide +kernel) (by decide +kernel)
    (by decide +kernel) rfl rfl rfl
  have hquoted : Clause.parse .host (Text.quoteAt "isLinux == true && a".toList
      ⟨.literal true, "true".toList, 11⟩ "true".toList) = .ok (test (.present ['a'])) := by
    decide +kernel
  rw [hquoted] at hfold
  cases hfold

end Clause

end WhenClause
