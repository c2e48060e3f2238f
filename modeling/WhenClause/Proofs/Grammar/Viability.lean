import WhenClause.Proofs.Grammar.Likeness
import WhenClause.Proofs.Grammar.Soundness

/-!
# Beginnings of sentences

Tokens are viable when they can be continued to tokens that have a derivation. Reading goes on just
as long as what has been read is viable: wherever it stands, an operand and closing parentheses
complete a sentence (`isViable_of_run`), and it stands in the same place for all tokens that differ
in their trails only, so also for those of a derivation (`exists_run_of_isViable`,
`exists_finish_of_isViable`).
-/

namespace WhenClause

namespace Grammar

/-- Some tokens, their end among them, have a derivation. Trails do not matter. -/
def IsAccepted (ts : List Token) : Prop := ∃ s : Sentence, s.tokens.map (·.toToken) = ts

/-- Some tokens are the beginning of tokens that have a derivation. -/
def IsViable (ts : List Token) : Prop := ∃ us, IsAccepted (ts ++ us)

lemma IsViable.of_isPrefix {ts us : List Token} (h : IsViable us) (hts : ts <+: us) :
    IsViable ts := by
  obtain ⟨vs, rfl⟩ := hts
  obtain ⟨ws, h⟩ := h
  exact ⟨vs ++ ws, by rwa [← List.append_assoc]⟩

end Grammar

namespace Reading

open Grammar

variable {r r' : Reading} {t : Token.Spaced} {ts us : List Token.Spaced} {l : Level}
  {outer : List Level} {last : Token} {c : Clause}

lemma kind_ne_eof_of_run (h : r.run ts = .ok r') (ht : t ∈ ts) : t.kind ≠ .eof := by
  induction ts generalizing r with
  | nil => cases ht
  | cons u us ih =>
    obtain ⟨q, hstep, hrun⟩ := exists_step_of_run_cons h
    rcases List.mem_cons.mp ht with rfl | ht
    · exact kind_ne_eof_of_step hstep
    · exact ih hrun ht

/-! ### Completing a sentence -/

/-- A key, at any place. -/
def someKey : Token.Spaced := ⟨⟨.key, ['a'], 0⟩, []⟩

/-- A regex, at any place. -/
def someRegex : Token.Spaced := ⟨⟨.regex, ['/', 'a', '/'], 0⟩, []⟩

/-- A closing parenthesis, at any place. -/
def someRparen : Token.Spaced := ⟨⟨.rparen, [')'], 0⟩, []⟩

/-- Behind each operator some token completes a test. -/
lemma exists_test?_eq_some (part : TestPart) (key : Text) :
    ∃ t test, part.test? key t = some test := by
  cases part with
  | matching =>
    have hregex : TestPart.regex? someRegex = some (['a'], []) := by decide
    have haccepts : Regex.accepts ['a'] [] = true := by decide +kernel
    refine ⟨someRegex, .regex key ['a'] [], ?_⟩
    simp only [TestPart.test?, hregex, haccepts, ↓reduceIte]
  | _ => exact ⟨someKey, _, rfl⟩

/-- Wherever reading stands, an operand can be completed. -/
lemma exists_completes (r : Reading) : ∃ us l, r.Completes us l := by
  obtain ⟨place, level, outer⟩ := r
  cases place with
  | operand n => exact ⟨[someKey], _, _, run_cons (step_key rfl) [], rfl⟩
  | key n key => exact ⟨[], _, _, rfl, rfl⟩
  | test n key part =>
    obtain ⟨t, test, ht⟩ := exists_test?_eq_some part key
    exact ⟨[t], _, _, run_cons (step_test ht) [], rfl⟩
  | done => exact ⟨[], level, _, rfl, rfl⟩

/-- Behind an operand all open groups can be closed. -/
lemma exists_run_closing (h : r.settled = ⟨.done, l, outer⟩) :
    ∃ us r' l', r.run us = .ok r' ∧ r'.settled = ⟨.done, l', []⟩ := by
  induction outer generalizing r l with
  | nil => exact ⟨[], r, l, rfl, h⟩
  | cons around outer ih =>
    have hstep : r.step someRparen = .ok ⟨.done, around.add l.close, outer⟩ := by
      rw [step_of_settled h rfl]
      exact follow_rparen rfl
    have hdone : settled ⟨.done, around.add l.close, outer⟩ = ⟨.done, around.add l.close, outer⟩ :=
      rfl
    obtain ⟨us, r', l', hrun, hsettled⟩ := ih hdone
    exact ⟨someRparen :: us, r', l', by rw [run_cons hstep, hrun], hsettled⟩

/-- What has been read is the beginning of a sentence. -/
theorem isViable_of_run (h : start.run ts = .ok r) : IsViable (ts.map (·.toToken)) := by
  obtain ⟨us, l, r', hcomplete, hsettled⟩ := exists_completes r
  obtain ⟨vs, r'', l', hclosing, hsettled'⟩ := exists_run_closing hsettled
  have hrun : start.run (ts ++ (us ++ vs)) = .ok r'' := by
    rw [run_append h, run_append hcomplete, hclosing]
  have hfinish : r''.finish (.endOf 0) = .ok l'.close := finish_of_settled hsettled'
  obtain ⟨d, hd, -⟩ := exists_disjunction_of_ofTokens (ofTokens_eq_ok_iff.mpr ⟨_, hrun, hfinish⟩)
  refine ⟨(us ++ vs).map (·.toToken) ++ [.endOf 0], ⟨d, ⟨⟨.endOf 0, []⟩, rfl⟩⟩, ?_⟩
  simp [Sentence.tokens, hd]

/-! ### Viable tokens are read -/

/-- The tokens of a derivation are read, and the end of the clause behind them. -/
lemma exists_run_of_disjunction (d : Disjunction) (last : Token) :
    ∃ r c, start.run d.tokens = .ok r ∧ r.finish last = .ok c := by
  obtain ⟨l, ⟨r, hrun, hsettled⟩, -⟩ := d.completes [] []
  exact ⟨r, l.close, hrun, finish_of_settled hsettled⟩

/-- Viable tokens without an end are read. -/
theorem exists_run_of_isViable (h : IsViable (ts.map (·.toToken)))
    (hts : ∀ t ∈ ts, t.kind ≠ .eof) : ∃ r, start.run ts = .ok r := by
  obtain ⟨us, s, hs⟩ := h
  obtain ⟨r, -, hrun, -⟩ := exists_run_of_disjunction s.clause s.ending.1.toToken
  rw [Sentence.tokens, List.map_append, List.map_singleton] at hs
  have hprefix : ts.map (·.toToken) <+: s.clause.tokens.map (·.toToken) ++ [s.ending.1.toToken] :=
    ⟨us, hs.symm⟩
  -- the beginning cannot reach the end of the sentence, which is a token of that kind
  rcases List.prefix_concat_iff.mp hprefix with heq | ⟨vs, hvs⟩
  · have hmem : s.ending.1.toToken ∈ ts.map (·.toToken) := by simp [heq]
    obtain ⟨t, ht, heof⟩ := List.mem_map.mp hmem
    exact absurd (by rw [heof]; exact s.ending.2) (hts t ht)
  · obtain ⟨ws, vs', hsplit, hws, -⟩ := List.map_eq_append_iff.mp hvs.symm
    rw [hsplit] at hrun
    obtain ⟨q, hq, -⟩ := exists_run_of_run_append hrun
    obtain ⟨q', hq', -⟩ :=
      (Agree.refl forget start).run isTranslation_forget (abreast_forget hws _) hq
    exact ⟨q', hq'⟩

/-- Viable tokens with an end are read up to it and make up a clause. -/
theorem exists_finish_of_isViable (h : IsViable (ts.map (·.toToken) ++ [last]))
    (hlast : last.kind = .eof) : ∃ r c, start.run ts = .ok r ∧ r.finish last = .ok c := by
  obtain ⟨us, s, hs⟩ := h
  obtain ⟨r, c, hrun, hfinish⟩ := exists_run_of_disjunction s.clause s.ending.1.toToken
  rw [Sentence.tokens, List.map_append, List.map_singleton] at hs
  have hprefix : ts.map (·.toToken) ++ [last] <+:
      s.clause.tokens.map (·.toToken) ++ [s.ending.1.toToken] := ⟨us, hs.symm⟩
  -- and with an end it cannot stop short of it, as no token of a derivation is an end
  rcases List.prefix_concat_iff.mp hprefix with heq | hprefix
  · obtain ⟨hts, -⟩ := List.append_inj' heq rfl
    obtain ⟨r', hrun', hagree⟩ :=
      (Agree.refl forget start).run isTranslation_forget (abreast_forget hts.symm _) hrun
    obtain ⟨c', hfinish', -⟩ := hagree.finish isTranslation_forget hfinish last
    exact ⟨r', c', hrun', hfinish'⟩
  · have hmem : last ∈ s.clause.tokens.map (·.toToken) := hprefix.subset (by simp)
    obtain ⟨t, ht, rfl⟩ := List.mem_map.mp hmem
    exact absurd hlast (kind_ne_eof_of_run hrun ht)

end Reading

end WhenClause
