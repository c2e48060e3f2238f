import WhenClause.Proofs.Grammar.Printing
import WhenClause.Proofs.Grammar.Recognition
import WhenClause.Proofs.Grammar.Viability

/-!
# Where a written clause is misread

A test of membership that asks about a key `not` is written with the words `not in` at its head,
and these are scanned as one token. No operand begins with that token, so a canonical clause with
such a test is not parsed from its text (`Clause.Reduced.isMisread`,
`Clause.not_parsed_of_misreads`): what stands before the first of them is read, and there the
reading ends.
-/

namespace WhenClause

open Grammar Reading

/-- A text is passed up to a token `not in`, and the tokens before it lead from the start of an
operand to the start of an operand. -/
def Misreads (offset : Nat) (text : Text) : Prop :=
  ∃ (ts : List Token.Spaced) (t : Token.Spaced) (offset' : Nat) (rest : Text),
    Passes offset text (ts ++ [t]) offset' rest ∧ t.kind = .membership true ∧
      ∀ l outer, ∃ l' outer', run ⟨.operand 0, l, outer⟩ ts = .ok ⟨.operand 0, l', outer'⟩

namespace Misreads

variable {offset offset' : Nat} {text mid : Text} {us : List Token.Spaced}

/-- What is misread is misread behind tokens that lead to the start of an operand. -/
lemma behind (h : Misreads offset' mid) (hpass : Passes offset text us offset' mid)
    (hrun : ∀ l outer, ∃ l' outer', run ⟨.operand 0, l, outer⟩ us = .ok ⟨.operand 0, l', outer'⟩) :
    Misreads offset text := by
  obtain ⟨ts, t, offset'', rest, hmid, hkind, hts⟩ := h
  refine ⟨us ++ ts, t, offset'', rest, by simpa using hpass.append hmid, hkind, ?_⟩
  intro l outer
  obtain ⟨l₁, outer₁, hus⟩ := hrun l outer
  obtain ⟨l₂, outer₂, hts⟩ := hts l₁ outer₁
  exact ⟨l₂, outer₂, by rw [run_append hus, hts]⟩

end Misreads

/-- An operand and a connective lead to the start of the next operand. -/
lemma exists_run_unary (u : Unary) {t : Token.Spaced} {op : Connective}
    (ht : t.kind = kindOf op) (l : Level) (outer : List Level) :
    ∃ l' outer', run ⟨.operand 0, l, outer⟩ (u.tokens ++ [t]) = .ok ⟨.operand 0, l', outer'⟩ := by
  obtain ⟨r, hrun, hsettled⟩ := u.completes l outer
  rw [run_append hrun]
  cases op with
  | and =>
    have hstep : r.step t = .ok ⟨.operand 0, l.add (u.value .written), outer⟩ := by
      rw [step_of_settled hsettled (by rw [ht]; rfl)]
      exact follow_and ht
    exact ⟨_, _, run_cons hstep []⟩
  | or =>
    have hstep : r.step t = .ok ⟨.operand 0, (l.add (u.value .written)).split, outer⟩ := by
      rw [step_of_settled hsettled (by rw [ht]; rfl)]
      exact follow_or ht
    exact ⟨_, _, run_cons hstep []⟩

namespace Clause

variable {c : Clause} {cs : List Clause} {op : Connective} {K : Constants}

/-- In front of a text that ends an operand, a written clause is misread. -/
def IsMisread (c : Clause) : Prop :=
  ∀ rest offset, EndsClause rest → Misreads offset (c.write rest)

lemma isMisread_test {t : Test} (h : t.JoinsNot) : (test t).IsMisread := by
  obtain ⟨target, rfl⟩ := h
  intro rest offset _
  exact ⟨[], _, _, _, passes_not_in (target ++ rest) offset, rfl, fun l outer => ⟨l, outer, rfl⟩⟩

/-- Operands are misread at the first of them that is. -/
lemma misreads_writeAll (hcs : ∀ c ∈ cs, c.IsPassed ∨ c.IsMisread) (h : ∃ c ∈ cs, c.IsMisread)
    (rest : Text) (offset : Nat) : Misreads offset (writeAll op false cs (')' :: rest)) := by
  induction cs generalizing offset with
  | nil => simp at h
  | cons c cs ih =>
    obtain ⟨hc, hcs⟩ := List.forall_mem_cons.mp hcs
    by_cases hmisread : c.IsMisread
    · exact hmisread _ offset (endsClause_writeAll op cs rest)
    · have hrest : ∃ d ∈ cs, d.IsMisread := by simpa [hmisread] using h
      cases cs with
      | nil => simp at hrest
      | cons d cs =>
        obtain ⟨u, offset₁, hpass, -⟩ := hc.resolve_right hmisread _ offset
          (endsClause_writeAll op (d :: cs) rest)
        obtain ⟨t, hkind, hop⟩ :=
          passes_symbol op (d.write (writeAll op true cs (')' :: rest))) offset₁
        exact (ih hcs hrest (offset₁ + 4)).behind (hpass.append hop) (exists_run_unary u hkind)

lemma isMisread_group (hcs : ∀ c ∈ cs, c.IsPassed ∨ c.IsMisread) (h : ∃ c ∈ cs, c.IsMisread) :
    (group op cs).IsMisread := by
  intro rest offset _
  have hleft : Piece.sign? ('(' :: writeAll op false cs (')' :: rest)) =
    some ⟨.ok .lparen, ['('], _⟩ := rfl
  exact (misreads_writeAll hcs h rest (offset + 1)).behind (passes_sign hleft offset)
    fun l outer => ⟨_, _, run_cons (step_lparen rfl) []⟩

/-- A canonical clause without constants is misread when one of its tests is. -/
lemma Reduced.isMisread (hc : c.Reduced) (hwell : c.All Test.WellFormed)
    (hnot : ¬c.All (¬·.JoinsNot)) : c.IsMisread := by
  induction hc with
  | test t =>
    rw [all_test, not_not] at hnot
    exact isMisread_test hnot
  | not h =>
    -- membership has an opposite, so no negation stands over it
    rw [all_not, all_test, not_not] at hnot
    obtain ⟨target, rfl⟩ := hnot
    cases h
  | @group op cs _ hreduced _ _ ih =>
    rw [all_group] at hwell hnot
    obtain ⟨d, hd, hd'⟩ : ∃ d ∈ cs, ¬d.All (¬·.JoinsNot) := by simpa using hnot
    refine isMisread_group (fun d hd => ?_) ⟨d, hd, ih d hd (hwell d hd) hd'⟩
    by_cases hd' : d.All (¬·.JoinsNot)
    · exact .inl ((hreduced d hd).isPassed (hwell d hd) hd')
    · exact .inr (ih d hd (hwell d hd) hd')

/-- A text that is misread is not parsed. -/
lemma not_parsed_of_misreads {text : Text} (h : Misreads 0 text) (e : Clause) :
    Clause.parse K text ≠ .ok e := by
  intro hparse
  obtain ⟨ts, t, offset, rest, hpass, hkind, hrun⟩ := h
  obtain ⟨l, outer, hts⟩ := hrun .start []
  obtain ⟨-, d, hd, -⟩ := parse_eq_ok_iff.mp hparse
  obtain ⟨r, -, hread, -⟩ := exists_run_of_disjunction d (.endOf 0)
  have hsplit : d.tokens = ts ++ [t] ++ (piecesFrom 0 offset rest).filterMap Placed.token? := by
    rw [hd]
    exact hpass.split.1
  rw [hsplit] at hread
  obtain ⟨r', hprefix, -⟩ := exists_run_of_run_append hread
  obtain ⟨r'', hts', hlast⟩ := exists_run_of_run_append hprefix
  have hr : r'' = ⟨.operand 0, l, outer⟩ := Except.ok.inj (hts'.symm.trans hts)
  obtain ⟨q, hstep, -⟩ := exists_step_of_run_cons hlast
  simp [hr, step, hkind, fail] at hstep

end Clause

end WhenClause
