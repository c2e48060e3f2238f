import WhenClause.Proofs.Grammar.Derivation

/-!
# Reading what the grammar derives

The tokens of a derivation are read to the end, and what is read is the clause as the derivation
writes it. Each production has its lemma: from a place before an operand, the tokens of a
production lead to a place behind an operand, with its value added to the innermost level.
-/

namespace WhenClause

open Grammar

namespace Reading

variable {r r' : Reading} {t : Token.Spaced} {ts us : List Token.Spaced} {l : Level}
  {outer : List Level} {n : Nat} {key : Text} {part : TestPart} {test : Test} {last : Token}

/-- The tokens of a list, one after the other. -/
def run (r : Reading) (ts : List Token.Spaced) : Except ParseError Reading := ts.foldlM step r

/-- What has been read, where a key that may be a whole test is taken for one. -/
def settled (r : Reading) : Reading :=
  match r.place with
  | .key negations key => r.complete negations (.test (.present key))
  | _                  => r

/-- Reading some tokens completes the operands of the innermost level. -/
def Completes (r : Reading) (ts : List Token.Spaced) (l : Level) : Prop :=
  ∃ r', r.run ts = .ok r' ∧ r'.settled = ⟨.done, l, r.outer⟩

/-! ### One step -/

lemma step_test (h : part.test? key t = some test) :
    step ⟨.test n key part, l, outer⟩ t =
      .ok ⟨.done, l.add (Nat.repeat .not n (.test test)), outer⟩ := by
  simp only [step, h]
  rfl

lemma step_operator (h : TestPart.ofKind? t.kind = some part) :
    step ⟨.key n key, l, outer⟩ t = .ok ⟨.test n key part, l, outer⟩ := by
  simp only [step, h]

lemma step_key (h : t.kind = .key) :
    step ⟨.operand n, l, outer⟩ t = .ok ⟨.key n t.lexeme, l, outer⟩ := by
  simp only [step, h]

lemma step_literal {b : Bool} (h : t.kind = .literal b) :
    step ⟨.operand n, l, outer⟩ t = .ok ⟨.done, l.add (Nat.repeat .not n (.const b)), outer⟩ := by
  simp only [step, h]
  rfl

lemma step_not (h : t.kind = .not) :
    step ⟨.operand n, l, outer⟩ t = .ok ⟨.operand (n + 1), l, outer⟩ := by
  simp only [step, h]

lemma step_lparen (h : t.kind = .lparen) :
    step ⟨.operand 0, l, outer⟩ t = .ok ⟨.operand 0, .start, l :: outer⟩ := by
  simp only [step, h, ↓reduceIte]

lemma follow_and (h : t.kind = .and) :
    follow ⟨.done, l, outer⟩ t = .ok ⟨.operand 0, l, outer⟩ := by
  simp only [follow, h]

lemma follow_or (h : t.kind = .or) :
    follow ⟨.done, l, outer⟩ t = .ok ⟨.operand 0, l.split, outer⟩ := by
  simp only [follow, h]

lemma follow_rparen {around : Level} (h : t.kind = .rparen) :
    follow ⟨.done, l, around :: outer⟩ t = .ok ⟨.done, around.add l.close, outer⟩ := by
  simp only [follow, h]

/-! ### Runs -/

lemma run_nil (r : Reading) : r.run [] = .ok r := rfl

lemma run_cons (h : r.step t = .ok r') (ts : List Token.Spaced) : r.run (t :: ts) = r'.run ts := by
  rw [run, List.foldlM_cons, h]
  rfl

lemma run_append (h : r.run ts = .ok r') (us : List Token.Spaced) :
    r.run (ts ++ us) = r'.run us := by
  rw [run, List.foldlM_append]
  rw [run] at h
  rw [h]
  rfl

lemma exists_step_of_run_cons (h : r.run (t :: ts) = .ok r') :
    ∃ q, r.step t = .ok q ∧ q.run ts = .ok r' := by
  cases hstep : r.step t with
  | ok q => exact ⟨q, rfl, by rw [← run_cons hstep, h]⟩
  | error e =>
    rw [run, List.foldlM_cons, hstep] at h
    cases h

lemma exists_run_of_run_append (h : r.run (ts ++ us) = .ok r') :
    ∃ q, r.run ts = .ok q ∧ q.run us = .ok r' := by
  induction ts generalizing r with
  | nil => exact ⟨r, rfl, h⟩
  | cons t ts ih =>
    obtain ⟨q, hstep, hrun⟩ := exists_step_of_run_cons h
    obtain ⟨q', hts, hus⟩ := ih hrun
    exact ⟨q', by rw [run_cons hstep, hts], hus⟩

lemma ofTokens_cons (t : Token.Spaced) (ts : List Token.Spaced) (last : Token) :
    Clause.ofTokens (t :: ts) last = (start.run (t :: ts)).bind (·.finish last) := rfl

lemma ofTokens_eq_ok_iff {c : Clause} :
    Clause.ofTokens ts last = .ok c ↔ ∃ r, start.run ts = .ok r ∧ r.finish last = .ok c := by
  cases ts with
  | nil =>
    refine ⟨fun h => (by cases h), ?_⟩
    rintro ⟨r, hrun, hfinish⟩
    obtain rfl := Except.ok.inj hrun
    cases hfinish
  | cons t ts =>
    rw [ofTokens_cons]
    cases start.run (t :: ts) with
    | error e => simp [Except.bind]
    | ok r => simp [Except.bind]

lemma Completes.cons (h : r.step t = .ok r') (hr : r'.outer = r.outer) (h' : r'.Completes ts l) :
    r.Completes (t :: ts) l := by
  obtain ⟨r'', hrun, hsettled⟩ := h'
  exact ⟨r'', by rw [run_cons h, hrun], by rw [hsettled, hr]⟩

lemma step_of_settled (h : r.settled = ⟨.done, l, outer⟩) (ht : TestPart.ofKind? t.kind = none) :
    r.step t = follow ⟨.done, l, outer⟩ t := by
  obtain ⟨place, level, outer'⟩ := r
  cases place with
  | operand n | test n key part => cases h
  | key n key => rw [← h, step, ht]; rfl
  | done => rw [← h]; rfl

lemma finish_of_settled (h : r.settled = ⟨.done, l, []⟩) : r.finish last = .ok l.close := by
  have hfinish : r.finish last = r.settled.finish last := by
    obtain ⟨place, level, outer'⟩ := r
    cases place <;> rfl
  rw [hfinish, h]
  rfl

/-- Behind an operand, a sign and what follows it are read on. -/
lemma Completes.then {l' l'' : Level} (h : r.Completes ts l)
    (ht : TestPart.ofKind? t.kind = none)
    (hfollow : follow ⟨.done, l, r.outer⟩ t = .ok ⟨.operand 0, l', r.outer⟩)
    (h' : Completes ⟨.operand 0, l', r.outer⟩ us l'') : r.Completes (ts ++ t :: us) l'' := by
  obtain ⟨r', hrun, hsettled⟩ := h
  obtain ⟨r'', hrun', hsettled'⟩ := h'
  refine ⟨r'', ?_, hsettled'⟩
  rw [run_append hrun, run_cons (by rw [step_of_settled hsettled ht, hfollow]), hrun']

end Reading

namespace Grammar

open Reading

variable {l : Level} {outer : List Level} {n : Nat}

lemma repeat_not (n : Nat) (c : Clause) :
    Nat.repeat Clause.not n c.not = Nat.repeat Clause.not (n + 1) c := by
  induction n with
  | zero => rfl
  | succ n ih => exact congrArg Clause.not ih

lemma equalityValue?_value (v : Value) : TestPart.equalityValue? v.1 = some (equalityText v) := by
  unfold TestPart.equalityValue? equalityText
  split_ifs with hstring hword
  · rfl
  · rfl
  · exact absurd v.2 (by simp [hstring, hword])

lemma regex?_of_holds {t : Token.Spaced} {pattern flags : Text} (h : t.Holds pattern flags) :
    TestPart.regex? t = some (pattern, flags) := by
  rcases h with ⟨hkind, h⟩ | ⟨hkind, -, h⟩ <;> simp [TestPart.regex?, hkind, h]

/-- A key with an operator and a right side that fits it is a test. -/
lemma completes_test {key : Text} {part : TestPart} {op t : Token.Spaced} {test : Test}
    (hop : TestPart.ofKind? op.kind = some part) (ht : part.test? key t = some test) :
    Reading.Completes ⟨.key n key, l, outer⟩ [op, t]
      (l.add (Nat.repeat .not n (.test test))) :=
  ⟨_, by rw [run_cons (step_operator hop), run_cons (step_test ht), run_nil], rfl⟩

lemma Tail.completes (key : Text) (tail : Tail) :
    Reading.Completes ⟨.key n key, l, outer⟩ tail.tokens
      (l.add (Nat.repeat .not n (.test (tail.test key)))) := by
  cases tail with
  | nothing => exact ⟨_, rfl, rfl⟩
  | @equality negated op value =>
    have hop : TestPart.ofKind? op.1.kind = some (.equality negated) := by rw [op.2]; rfl
    apply completes_test hop
    rw [TestPart.test?, equalityValue?_value]
    rfl
  | @order cmp op value =>
    have hop : TestPart.ofKind? op.1.kind = some (.order cmp) := by rw [op.2]; rfl
    apply completes_test hop
    rw [TestPart.test?, if_pos (by simpa using value.2)]
    rfl
  | @membership negated op target =>
    have hop : TestPart.ofKind? op.1.kind = some (.membership negated) := by rw [op.2]; rfl
    apply completes_test hop
    rw [TestPart.test?, if_pos target.2]
    rfl
  | matching op rx =>
    have hop : TestPart.ofKind? op.1.kind = some .matching := by rw [op.2]; rfl
    apply completes_test hop
    rw [TestPart.test?, regex?_of_holds rx.holds]
    simp [rx.accepted, Tail.test]

lemma completes_literal {b : Bool} (t : Tok (.literal b)) :
    Reading.Completes ⟨.operand n, l, outer⟩ [t.1] (l.add (Nat.repeat .not n (.const b))) :=
  ⟨_, run_cons (step_literal t.2) [], rfl⟩

lemma completes_key (k : Tok .key) (tail : Tail) :
    Reading.Completes ⟨.operand n, l, outer⟩ (k.1 :: tail.tokens)
      (l.add (Nat.repeat .not n (.test (tail.test k.1.lexeme)))) :=
  (tail.completes _).cons (step_key k.2) rfl

/-- A negation counts one `!` more behind those that were counted before. -/
lemma Negation.completes (neg : Negation) :
    Reading.Completes ⟨.operand n, l, outer⟩ neg.tokens
      (l.add (Nat.repeat .not n (neg.value .written))) := by
  induction neg generalizing n with
  | negation bang neg ih =>
    have hvalue : (neg.negation bang).value .written = .not (neg.value .written) := rfl
    rw [hvalue, repeat_not]
    exact ih.cons (step_not bang.2) rfl
  | @literal b bang t =>
    have hvalue : (Negation.literal bang t).value .written = .not (.const b) := rfl
    rw [hvalue, repeat_not]
    exact (completes_literal t).cons (step_not bang.2) rfl
  | test bang key tail =>
    have hvalue : (Negation.test bang key tail).value .written =
      .not (.test (tail.test key.1.lexeme)) := rfl
    rw [hvalue, repeat_not]
    exact (completes_key key tail).cons (step_not bang.2) rfl

mutual

lemma Disjunction.completes (d : Disjunction) (alternatives : List Clause)
    (outer : List Level) :
    ∃ l : Level, Reading.Completes ⟨.operand 0, ⟨alternatives, []⟩, outer⟩ d.tokens l ∧
      l.split.alternatives = (d.values .written).reverse ++ alternatives := by
  match d with
  | .last c =>
    refine ⟨_, c.completes ⟨alternatives, []⟩ outer, ?_⟩
    simp [Level.split, Disjunction.values, chain_reverse]
  | .more c op d =>
    have hc := c.completes ⟨alternatives, []⟩ outer
    obtain ⟨l, hl, hsplit⟩ := d.completes (c.value .written :: alternatives) outer
    refine ⟨l, hc.then (by rw [op.2]; rfl) (follow_or op.2) ?_, ?_⟩
    · simpa [Level.split, chain_reverse, Conjunction.value] using hl
    · simp [hsplit, Disjunction.values, Conjunction.value]

lemma Conjunction.completes (c : Conjunction) (l : Level) (outer : List Level) :
    Reading.Completes ⟨.operand 0, l, outer⟩ c.tokens
      ⟨l.alternatives, (c.values .written).reverse ++ l.operands⟩ := by
  match c with
  | .last u => exact u.completes l outer
  | .more u op c =>
    have hu := u.completes l outer
    have hc := c.completes (l.add (u.value .written)) outer
    have h := hu.then (by rw [op.2]; rfl) (follow_and op.2) hc
    simpa [Conjunction.values, Conjunction.tokens, Level.add] using h

lemma Unary.completes (u : Unary) (l : Level) (outer : List Level) :
    Reading.Completes ⟨.operand 0, l, outer⟩ u.tokens (l.add (u.value .written)) := by
  match u with
  | .primary p => exact p.completes l outer
  | .negation n => exact n.completes

lemma Primary.completes (p : Primary) (l : Level) (outer : List Level) :
    Reading.Completes ⟨.operand 0, l, outer⟩ p.tokens (l.add (p.value .written)) := by
  match p with
  | .literal t => exact completes_literal t
  | .test key tail => exact completes_key key tail
  | .parens left d right =>
    obtain ⟨inner, ⟨r, hrun, hsettled⟩, hsplit⟩ := d.completes [] (l :: outer)
    have hclose : inner.close = (Primary.parens left d right).value .written := by
      rw [Level.close, hsplit, List.append_nil, chain_reverse]
      rfl
    have hlast : r.step right.1 = .ok ⟨.done, l.add inner.close, outer⟩ := by
      rw [step_of_settled hsettled (by rw [right.2]; rfl)]
      exact follow_rparen right.2
    refine ⟨⟨.done, l.add inner.close, outer⟩, ?_, ?_⟩
    · have hlparen : step ⟨.operand 0, l, outer⟩ left.1 = .ok ⟨.operand 0, .start, l :: outer⟩ :=
        step_lparen left.2
      rw [Primary.tokens, run_cons hlparen, Level.start, run_append hrun, run_cons hlast, run_nil]
    · rw [hclose]
      rfl

end

lemma Disjunction.tokens_ne_nil (d : Disjunction) : d.tokens ≠ [] := by
  intro h
  obtain ⟨l, ⟨r, hrun, hsettled⟩, -⟩ := d.completes [] []
  rw [h, run_nil] at hrun
  obtain rfl := Except.ok.inj hrun
  cases hsettled

/-- The tokens of a derivation are read to the end, as the clause that it writes. -/
theorem Disjunction.ofTokens_tokens (d : Disjunction) (last : Token) :
    Clause.ofTokens d.tokens last = .ok (d.value .written) := by
  obtain ⟨l, ⟨r, hrun, hsettled⟩, hsplit⟩ := d.completes [] []
  have hclose : l.close = d.value .written := by
    rw [Level.close, hsplit, List.append_nil, chain_reverse]
    rfl
  have hfold : d.tokens.foldlM step .start = .ok r := hrun
  rw [Clause.ofTokens, if_neg (by simpa using d.tokens_ne_nil), hfold]
  exact (finish_of_settled hsettled).trans (by rw [hclose])

end Grammar

end WhenClause
