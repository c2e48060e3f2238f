import WhenClause.Proofs.Parse.Errors

/-!
# Sessions

A session that has parsed any texts parses the next one as if it were new, and its diagnostics are
those of that text alone (`Session.answer_run`). The diagnostics of a text that is not parsed are
either all its scan errors or one error of the grammar, never both and never none
(`Clause.IsDiagnosis`).
-/

namespace WhenClause

variable {K : Constants} {input : Text} {d : Diagnostics} {e : Clause}

/-! ### The diagnostics of a text -/

/-- The diagnostics that a text can have where it is not parsed. -/
inductive Clause.IsDiagnosis (input : Text) : Diagnostics → Prop
  /-- all its scan errors -/
  | scanning (herrors : (tokenize input).2 ≠ []) : IsDiagnosis input ⟨(tokenize input).2, []⟩
  /-- one token that does not fit, where there are no scan errors -/
  | parsing {e : ParseError} (herrors : (tokenize input).2 = [])
    (htoken : e.token ∈ (tokenize input).1) : IsDiagnosis input ⟨[], [e]⟩

namespace Clause

/-- The errors of a text that is not parsed are of one kind. -/
lemma isDiagnosis_of_parse_error (h : Clause.parse K input = .error d) : IsDiagnosis input d := by
  rw [Clause.parse] at h
  split at h
  · rename_i hscan
    split at h
    · cases h
    · rename_i e hread
      obtain rfl := Except.error.inj h
      obtain ⟨before, after, htokens, -⟩ :=
        exists_viable_of_ofTokens_error (fun t ht => kind_ne_eof_of_mem_spacedTokens ht) rfl hread
      have htokens : (tokenize input).1 = before ++ e.token :: after := htokens
      refine .parsing hscan ?_
      rw [htokens]
      exact List.mem_append_right _ List.mem_cons_self
  · rename_i hscan
    obtain rfl := Except.error.inj h
    exact .scanning hscan

lemma IsDiagnosis.isEmpty_eq_false (h : IsDiagnosis input d) : d.isEmpty = false := by
  cases h with
  | scanning herrors => simpa [Diagnostics.isEmpty] using herrors
  | parsing => rfl

end Clause

namespace Session

/-! ### Calls -/

/-- A call on a session. -/
inductive Call where
  | parse (text : Text)
  | tryParse (text : Text)

/-- The text that a call is for. -/
def Call.text : Call → Text
  | parse text    => text
  | tryParse text => text

/-- What a call returns. -/
inductive Answer where
  | parsed (c? : Option Clause)
  | tried (result : Except Diagnostics Clause)

/-- The clause that is returned. -/
def Answer.clause? : Answer → Option Clause
  | parsed c?    => c?
  | tried result => result.toOption

/-- The answer to a call, and the session after it. -/
def answer (s : Session) : Call → Answer × Session
  | .parse text    => (.parsed (s.parse text).1, (s.parse text).2)
  | .tryParse text => (.tried (s.tryParse text).1, (s.tryParse text).2)

/-- The answers to some calls, one after the other, and the session after them. -/
def run (s : Session) : List Call → List Answer × Session
  | []      => ([], s)
  | c :: cs => ((s.answer c).1 :: ((s.answer c).2.run cs).1, ((s.answer c).2.run cs).2)

variable {s : Session} {c : Call}

/-- A parse takes the session up as its first step leaves it. -/
lemma parse_eq_new (s : Session) (input : Text) :
    s.parse input = (new s.constants).parse input := by
  have hclear : s.clear = (new s.constants).clear := rfl
  rw [parse, parse, hclear]

/-- A session parses a text as its constants tell, and keeps the diagnostics of that text. -/
lemma parse_eq (s : Session) (input : Text) :
    s.parse input =
      match Clause.parse s.constants input with
      | .ok e    => (some e, ⟨s.constants, .none⟩)
      | .error d => (none, ⟨s.constants, d⟩) := by
  rw [parse, Clause.parse]
  cases hscan : scanErrors input with
  | nil => cases Clause.ofTokens (spacedTokens input) (.endOf input.length) <;> rfl
  | cons => rfl

lemma parse_of_ok (h : Clause.parse s.constants input = .ok e) :
    s.parse input = (some e, ⟨s.constants, .none⟩) := by
  rw [parse_eq, h]

lemma parse_of_error (h : Clause.parse s.constants input = .error d) :
    s.parse input = (none, ⟨s.constants, d⟩) := by
  rw [parse_eq, h]

/-- A parse keeps the constants. -/
lemma constants_parse (s : Session) (input : Text) :
    (s.parse input).2.constants = s.constants := by
  cases h : Clause.parse s.constants input with
  | ok e => rw [parse_of_ok h]
  | error d => rw [parse_of_error h]

lemma answer_of_ok (h : Clause.parse s.constants c.text = .ok e) :
    (s.answer c).1.clause? = some e ∧ (s.answer c).2 = ⟨s.constants, .none⟩ := by
  cases c with
  | parse text =>
    have hparse : s.parse text = (some e, ⟨s.constants, .none⟩) := parse_of_ok h
    rw [answer, hparse]
    exact ⟨rfl, rfl⟩
  | tryParse text =>
    have hparse : s.parse text = (some e, ⟨s.constants, .none⟩) := parse_of_ok h
    rw [answer, tryParse, hparse]
    exact ⟨rfl, rfl⟩

lemma answer_of_error (h : Clause.parse s.constants c.text = .error d) :
    (s.answer c).1.clause? = none ∧ (s.answer c).2 = ⟨s.constants, d⟩ ∧
      ∀ text, c = .tryParse text → (s.answer c).1 = .tried (.error d) := by
  cases c with
  | parse text =>
    have hparse : s.parse text = (none, ⟨s.constants, d⟩) := parse_of_error h
    rw [answer, hparse]
    exact ⟨rfl, rfl, nofun⟩
  | tryParse text =>
    have hparse : s.parse text = (none, ⟨s.constants, d⟩) := parse_of_error h
    rw [answer, tryParse, hparse]
    exact ⟨rfl, rfl, fun _ _ => rfl⟩

/-! ### Any calls -/

/-- Nothing but the constants of a session is read. -/
lemma answer_eq_new (s : Session) (c : Call) : s.answer c = (new s.constants).answer c := by
  cases c with
  | parse text => rw [answer, answer, parse_eq_new]
  | tryParse text => rw [answer, answer, tryParse, tryParse, parse_eq_new]

/-- A call keeps the constants. -/
lemma constants_answer (s : Session) (c : Call) : (s.answer c).2.constants = s.constants := by
  cases h : Clause.parse s.constants c.text with
  | ok e => rw [(answer_of_ok h).2]
  | error d => rw [(answer_of_error h).2.1]

lemma constants_run (s : Session) (cs : List Call) : (s.run cs).2.constants = s.constants := by
  induction cs generalizing s with
  | nil => rfl
  | cons c cs ih => rw [run, ih, constants_answer]

/-- A session that has answered any calls answers the next one as if it were new. There is a clause
exactly if the diagnostics are then empty, and else they are those of the text alone; they are what
a call for diagnostics returns. -/
theorem answer_run (K : Constants) (cs : List Call) (c : Call) :
    ∃ (s s' : Session) (a : Answer), ((new K).run cs).2 = s ∧ s.answer c = (a, s') ∧
      (new K).answer c = (a, s') ∧
      (a.clause?.isSome ↔ s'.diagnostics.scanning = [] ∧ s'.diagnostics.parsing = []) ∧
      (a.clause? = none → Clause.IsDiagnosis c.text s'.diagnostics) ∧
      (∀ text, c = .tryParse text → a.clause? = none → a = .tried (.error s'.diagnostics)) := by
  have hconstants : ((new K).run cs).2.constants = K := constants_run (new K) cs
  have hfresh : ((new K).run cs).2.answer c = (new K).answer c := by
    rw [answer_eq_new, hconstants]
  refine ⟨_, ((new K).answer c).2, ((new K).answer c).1, rfl, hfresh, rfl, ?_⟩
  cases h : Clause.parse (new K).constants c.text with
  | ok e =>
    obtain ⟨hclause, hsession⟩ := answer_of_ok h
    rw [hclause, hsession]
    exact ⟨iff_of_true rfl ⟨rfl, rfl⟩, nofun, nofun⟩
  | error d =>
    obtain ⟨hclause, hsession, htried⟩ := answer_of_error h
    have hdiagnosis := Clause.isDiagnosis_of_parse_error h
    rw [hclause, hsession]
    refine ⟨?_, fun _ => hdiagnosis, fun text hc _ => htried text hc⟩
    have hempty := hdiagnosis.isEmpty_eq_false
    simpa [Diagnostics.isEmpty] using hempty

-- neither a scan error nor an error of the grammar outlives the next call
example : ((new .host).run [.parse "'a".toList, .tryParse "a &&".toList, .parse ['a']]).2 =
    new .host := rfl

end Session

end WhenClause
