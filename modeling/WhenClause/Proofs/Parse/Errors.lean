import Mathlib.Order.Bounds.Basic
import WhenClause.Proofs.Grammar.Recognition
import WhenClause.Proofs.Grammar.Viability
import WhenClause.Proofs.Scan.Spans

/-!
# The error of a text that has no derivation

A text without scan errors is parsed when its tokens are accepted (`Clause.exists_parse_eq_ok_iff`).
Otherwise it has one error, and that names the first token with which the tokens are no longer the
beginning of a sentence (`Clause.parse_error_first`).
-/

namespace WhenClause

open Grammar

variable {K : Constants} {input : Text}

namespace Reading

variable {r : Reading} {t : Token.Spaced} {ts : List Token.Spaced} {last : Token} {e : ParseError}

/-- A run that fails fails at one of its tokens. -/
lemma exists_step_of_run_error (h : r.run ts = .error e) :
    ∃ before t after q, ts = before ++ t :: after ∧ r.run before = .ok q ∧ q.step t = .error e := by
  induction ts generalizing r with
  | nil => cases h
  | cons t ts ih =>
    cases hstep : r.step t with
    | error e' =>
      rw [run, List.foldlM_cons, hstep] at h
      obtain rfl := Except.error.inj h
      exact ⟨[], t, ts, r, rfl, rfl, hstep⟩
    | ok q =>
      rw [run_cons hstep] at h
      obtain ⟨before, t', after, q', rfl, hrun, hstep'⟩ := ih h
      exact ⟨t :: before, t', after, q', rfl, by rw [run_cons hstep, hrun], hstep'⟩

end Reading

open Reading

/-- The tokens before the one at fault are the beginning of a sentence, and with it they are not.
The token at fault may be the end of the text. -/
lemma exists_viable_of_ofTokens_error {tokens : List Token.Spaced} {last : Token} {e : ParseError}
    (htokens : ∀ t ∈ tokens, t.kind ≠ .eof) (hlast : last.kind = .eof)
    (h : Clause.ofTokens tokens last = .error e) :
    ∃ before after, tokens.map (·.toToken) ++ [last] = before ++ e.token :: after ∧
      IsViable before ∧ ¬IsViable (before ++ [e.token]) := by
  -- the token at fault is the end where there is no token, then where reading fails at a token
  -- that one, and else again the end
  rw [Clause.ofTokens] at h
  split_ifs at h with hempty
  · obtain rfl := Except.error.inj h
    obtain rfl : tokens = [] := by simpa using hempty
    refine ⟨[], [], rfl, isViable_of_run (run_nil start), fun hviable => ?_⟩
    have hviable : IsViable (([] : List Token.Spaced).map (·.toToken) ++ [last]) := hviable
    obtain ⟨r, c, hrun, hfinish⟩ := exists_finish_of_isViable hviable hlast
    obtain rfl := Except.ok.inj hrun
    cases hfinish
  · cases hrun : start.run tokens with
    | error e' =>
      have he : e' = e := by
        rw [Reading.run] at hrun
        rw [hrun] at h
        exact Except.error.inj h
      subst he
      obtain ⟨before, t, after, q, rfl, hbefore, hstep⟩ := exists_step_of_run_error hrun
      rw [error_of_step hstep]
      refine ⟨before.map (·.toToken), after.map (·.toToken) ++ [last], by simp,
        isViable_of_run hbefore, fun hviable => ?_⟩
      have hbefore' : ∀ u ∈ before ++ [t], u.kind ≠ .eof := fun u hu => htokens u (by
        rw [List.append_cons]
        exact List.mem_append_left _ hu)
      obtain ⟨r, hr⟩ := exists_run_of_isViable (by simpa using hviable) hbefore'
      rw [run_append hbefore, Reading.run, List.foldlM_cons, hstep] at hr
      cases hr
    | ok q =>
      have hfinish : q.finish last = .error e := by
        rw [Reading.run] at hrun
        rwa [hrun] at h
      rw [error_of_finish hfinish]
      refine ⟨tokens.map (·.toToken), [], rfl, isViable_of_run hrun, fun hviable => ?_⟩
      obtain ⟨r, c, hrun', hfinish'⟩ := exists_finish_of_isViable hviable hlast
      rw [hrun] at hrun'
      obtain rfl := Except.ok.inj hrun'
      rw [hfinish] at hfinish'
      cases hfinish'

namespace Clause

/-- What is parsed are the texts without scan errors whose tokens are accepted. -/
theorem exists_parse_eq_ok_iff :
    (∃ e, Clause.parse K input = .ok e) ↔
      scanErrors input = [] ∧ IsAccepted (tokenize input).1 := by
  constructor
  · rintro ⟨e, h⟩
    obtain ⟨hscan, d, hd, -⟩ := parse_eq_ok_iff.mp h
    obtain ⟨s, hs, -⟩ := exists_sentence hd
    exact ⟨hscan, s, by rw [hs, map_toToken_endedTokens]⟩
  · rintro ⟨hscan, haccepted⟩
    have hviable : IsViable (tokenize input).1 := ⟨[], by rwa [List.append_nil]⟩
    obtain ⟨r, c, hrun, hfinish⟩ := exists_finish_of_isViable hviable rfl
    have hread := ofTokens_eq_ok_iff.mpr ⟨r, hrun, hfinish⟩
    exact ⟨_, parse_eq_ok_iff_ofTokens.mpr ⟨hscan, c, hread, rfl⟩⟩

/-- A text without scan errors that is not parsed has one error. Its token is the first with which
the tokens of the text stop to be the beginning of a sentence. -/
theorem parse_error_first (hscan : scanErrors input = [])
    (hreject : ∀ c, Clause.parse K input ≠ .ok c) :
    ∃ (i : Nat) (e : ParseError), Clause.parse K input = .error ⟨[], [e]⟩ ∧
      (tokenize input).1[i]? = some e.token ∧
      IsLeast {j | ¬IsViable ((tokenize input).1.take (j + 1))} i ∧
      IsViable ((tokenize input).1.take i) := by
  cases hread : Clause.ofTokens (spacedTokens input) (.endOf input.length) with
  | ok c => exact absurd (by simp only [Clause.parse, hscan, hread]) (hreject (c.normalize K))
  | error e =>
    have hparse : Clause.parse K input = .error ⟨[], [e]⟩ := by
      simp only [Clause.parse, hscan, hread]
    obtain ⟨before, after, hsplit, hviable, hstuck⟩ :=
      exists_viable_of_ofTokens_error (fun t ht => kind_ne_eof_of_mem_spacedTokens ht) rfl hread
    have htokens : (tokenize input).1 = before ++ e.token :: after := hsplit
    have htake : (tokenize input).1.take before.length = before := by simp [htokens]
    have htake' : (tokenize input).1.take (before.length + 1) = before ++ [e.token] := by
      rw [htokens, List.append_cons]
      exact List.take_left' (by simp)
    refine ⟨before.length, e, hparse, by simp [htokens], ⟨?_, fun j hj => ?_⟩, ?_⟩
    · show ¬IsViable ((tokenize input).1.take (before.length + 1))
      rwa [htake']
    · by_contra hlt
      refine hj (hviable.of_isPrefix ?_)
      rw [← htake]
      exact List.take_prefix_take_left (by omega)
    · rwa [htake]

/-- A parenthesis behind a negation is at fault before the open end of the text is. -/
theorem parse_error_first_of_negated_group :
    Clause.parse .host "a && !(b".toList =
      .error ⟨[], [⟨⟨.lparen, ['('], 6⟩, .negatable⟩]⟩ ∧
    IsLeast {j | ¬IsViable ((tokenize "a && !(b".toList).1.take (j + 1))} 3 := by
  have hscan : scanErrors "a && !(b".toList = [] := by decide +kernel
  have hparse : Clause.parse .host "a && !(b".toList =
      .error ⟨[], [⟨⟨.lparen, ['('], 6⟩, .negatable⟩]⟩ := by decide +kernel
  have htokens : (tokenize "a && !(b".toList).1 =
      [⟨.key, ['a'], 0⟩, ⟨.and, ['&', '&'], 2⟩, ⟨.not, ['!'], 5⟩, ⟨.lparen, ['('], 6⟩,
        ⟨.key, ['b'], 7⟩, ⟨.eof, [], 8⟩] := by decide +kernel
  have hreject : ∀ c, Clause.parse .host "a && !(b".toList ≠ .ok c := by
    intro c hc
    rw [hparse] at hc
    cases hc
  obtain ⟨i, e, he, hi, hleast, -⟩ := parse_error_first hscan hreject
  rw [hparse] at he
  obtain rfl : e = ⟨⟨.lparen, ['('], 6⟩, .negatable⟩ := by
    cases he
    rfl
  have hi : i = 3 := by
    rw [htokens] at hi
    rcases i with _ | _ | _ | _ | _ | _ | i <;> simp at hi ⊢
  rw [hi] at hleast
  exact ⟨hparse, hleast⟩

end Clause

end WhenClause
