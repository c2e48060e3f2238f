import WhenClause.Proofs.Grammar.Completeness

/-!
# What a step of reading can do

A step is one of nine (`step_eq_ok_iff`), and where there is none the error names the token at hand
and what is expected in its place (`error_of_step`).
-/

namespace WhenClause

/-- Whether a kind of token is the sign of an equality. -/
def Token.Kind.isEquality : Token.Kind → Bool
  | .equality _ => true
  | _           => false

namespace Reading

/-- A reading goes on with a token. Behind an operand, which may be a key alone, a connective or a
closing parenthesis is read. -/
inductive Steps : Reading → Token.Spaced → Reading → Prop
  | literal {n : Nat} {l : Level} {outer : List Level} {t : Token.Spaced} {b : Bool}
    (ht : t.kind = .literal b) :
    Steps ⟨.operand n, l, outer⟩ t ⟨.done, l.add (Nat.repeat .not n (.const b)), outer⟩
  | key {n : Nat} {l : Level} {outer : List Level} {t : Token.Spaced} (ht : t.kind = .key) :
    Steps ⟨.operand n, l, outer⟩ t ⟨.key n t.lexeme, l, outer⟩
  | not {n : Nat} {l : Level} {outer : List Level} {t : Token.Spaced} (ht : t.kind = .not) :
    Steps ⟨.operand n, l, outer⟩ t ⟨.operand (n + 1), l, outer⟩
  | lparen {l : Level} {outer : List Level} {t : Token.Spaced} (ht : t.kind = .lparen) :
    Steps ⟨.operand 0, l, outer⟩ t ⟨.operand 0, .start, l :: outer⟩
  | operator {n : Nat} {name : Text} {part : TestPart} {l : Level} {outer : List Level}
    {t : Token.Spaced} (ht : TestPart.ofKind? t.kind = some part) :
    Steps ⟨.key n name, l, outer⟩ t ⟨.test n name part, l, outer⟩
  | test {n : Nat} {name : Text} {part : TestPart} {l : Level} {outer : List Level}
    {t : Token.Spaced} {test : Test} (ht : part.test? name t = some test) :
    Steps ⟨.test n name part, l, outer⟩ t
      ⟨.done, l.add (Nat.repeat .not n (.test test)), outer⟩
  | and {r : Reading} {l : Level} {outer : List Level} {t : Token.Spaced}
    (hr : r.settled = ⟨.done, l, outer⟩) (ht : t.kind = .and) :
    Steps r t ⟨.operand 0, l, outer⟩
  | or {r : Reading} {l : Level} {outer : List Level} {t : Token.Spaced}
    (hr : r.settled = ⟨.done, l, outer⟩) (ht : t.kind = .or) :
    Steps r t ⟨.operand 0, l.split, outer⟩
  | rparen {r : Reading} {l around : Level} {outer : List Level} {t : Token.Spaced}
    (hr : r.settled = ⟨.done, l, around :: outer⟩) (ht : t.kind = .rparen) :
    Steps r t ⟨.done, around.add l.close, outer⟩

variable {r q : Reading} {t : Token.Spaced} {l : Level} {outer : List Level} {last : Token}
  {e : ParseError}

lemma steps_of_follow (hr : r.settled = ⟨.done, l, outer⟩)
    (h : follow ⟨.done, l, outer⟩ t = .ok q) : Steps r t q := by
  rw [follow] at h
  dsimp only at h
  split at h
  · next ht =>
    obtain rfl := Except.ok.inj h
    exact .and hr ht
  · next ht =>
    obtain rfl := Except.ok.inj h
    exact .or hr ht
  · next ht =>
    obtain rfl := Except.ok.inj h
    exact .rparen hr ht
  · cases h

/-- What a step can do, and when. -/
theorem step_eq_ok_iff : r.step t = .ok q ↔ Steps r t q := by
  constructor
  · intro h
    obtain ⟨place, level, outer⟩ := r
    cases place with
    | operand n =>
      rw [step] at h
      dsimp only at h
      split at h
      · next ht =>
        obtain rfl := Except.ok.inj h
        exact .literal ht
      · next ht =>
        obtain rfl := Except.ok.inj h
        exact .key ht
      · next ht =>
        obtain rfl := Except.ok.inj h
        exact .not ht
      · next ht =>
        split_ifs at h with hn
        · subst hn
          obtain rfl := Except.ok.inj h
          exact .lparen ht
        · cases h
      · cases h
    | key n name =>
      cases hop : TestPart.ofKind? t.kind with
      | some part =>
        rw [step_operator hop] at h
        obtain rfl := Except.ok.inj h
        exact .operator hop
      | none =>
        simp only [step, hop] at h
        exact steps_of_follow rfl h
    | test n name part =>
      cases htest : part.test? name t with
      | some test =>
        rw [step_test htest] at h
        obtain rfl := Except.ok.inj h
        exact .test htest
      | none =>
        simp only [step, htest] at h
        cases h
    | done => exact steps_of_follow rfl h
  · intro h
    cases h with
    | literal ht => exact step_literal ht
    | key ht => exact step_key ht
    | not ht => exact step_not ht
    | lparen ht => exact step_lparen ht
    | operator ht => exact step_operator ht
    | test ht => exact step_test ht
    | and hr ht => rw [step_of_settled hr (by rw [ht]; rfl), follow_and ht]
    | or hr ht => rw [step_of_settled hr (by rw [ht]; rfl), follow_or ht]
    | rparen hr ht => rw [step_of_settled hr (by rw [ht]; rfl), follow_rparen ht]

/-! ### The token of a step -/

/-- The right side of a test is neither the sign of an equality nor the end. -/
lemma kind_of_test? {part : TestPart} {name : Text} {test : Test}
    (h : part.test? name t = some test) : t.kind.isEquality = false ∧ t.kind ≠ .eof := by
  cases hkind : t.kind with
  | equality negated =>
    cases part <;>
      simp [TestPart.test?, TestPart.equalityValue?, TestPart.regex?, Operand.isWordKind,
        hkind] at h
  | eof =>
    cases part <;>
      simp [TestPart.test?, TestPart.equalityValue?, TestPart.regex?, Operand.isWordKind,
        hkind] at h
  | _ => exact ⟨rfl, by simp⟩

lemma kind_ne_eof_of_step (h : r.step t = .ok q) : t.kind ≠ .eof := by
  cases step_eq_ok_iff.mp h with
  | literal ht | key ht | not ht | lparen ht | and _ ht | or _ ht | rparen _ ht => simp [ht]
  | operator ht =>
    intro heof
    rw [heof] at ht
    cases ht
  | test ht => exact (kind_of_test? ht).2

/-- Whether a word is read with the blanks behind it. -/
def Place.takesTrail : Place → Bool
  | .test _ _ (.equality _) => true
  | _                       => false

/-- Behind a token a word is read with its trail exactly if the token is the sign of an equality. -/
lemma takesTrail_of_step (h : r.step t = .ok q) : q.place.takesTrail = t.kind.isEquality := by
  cases step_eq_ok_iff.mp h with
  | literal ht | key ht | not ht | lparen ht | and _ ht | or _ ht | rparen _ ht =>
    rw [ht]
    rfl
  | operator ht => cases hkind : t.kind <;> rw [hkind] at ht <;> cases ht <;> rfl
  | test ht => exact (kind_of_test? ht).1.symm

/-- The sign of an equality is read behind a key. -/
lemma place_of_step_equality {negated : Bool} (ht : t.kind = .equality negated)
    (h : r.step t = .ok q) :
    ∃ n name, r.place = .key n name ∧ q.place = .test n name (.equality negated) := by
  cases step_eq_ok_iff.mp h with
  | literal ht' | key ht' | not ht' | lparen ht' | and _ ht' | or _ ht' | rparen _ ht' =>
    rw [ht] at ht'
    cases ht'
  | operator ht' =>
    rw [ht] at ht'
    cases ht'
    exact ⟨_, _, rfl, rfl⟩
  | test ht' =>
    have hkind := (kind_of_test? ht').1
    rw [ht] at hkind
    cases hkind

/-- A key begins a test or ends one. -/
lemma place_of_step_key (ht : t.kind = .key) (h : r.step t = .ok q) :
    (∃ n, q.place = .key n t.lexeme) ∨ q.place = .done := by
  cases step_eq_ok_iff.mp h with
  | key _ => exact .inl ⟨_, rfl⟩
  | literal _ | test _ | rparen _ _ => exact .inr rfl
  | not ht' | lparen ht' | and _ ht' | or _ ht' =>
    rw [ht] at ht'
    cases ht'
  | operator ht' =>
    rw [ht] at ht'
    cases ht'

/-! ### Errors -/

lemma error_of_follow (h : r.follow t = .error e) : e = ⟨t.toToken, r.expectation⟩ := by
  rw [follow] at h
  split at h
  · cases h
  · cases h
  · cases h
  · exact (Except.error.inj h).symm

/-- An error names the token at hand and what is expected in its place. -/
lemma error_of_step (h : r.step t = .error e) : e = ⟨t.toToken, r.expectation⟩ := by
  obtain ⟨place, level, outer⟩ := r
  cases place with
  | operand n =>
    rw [step] at h
    dsimp only at h
    split at h
    · cases h
    · cases h
    · cases h
    · split_ifs at h
      exact (Except.error.inj h).symm
    · exact (Except.error.inj h).symm
  | key n name =>
    cases hop : TestPart.ofKind? t.kind with
    | some part =>
      rw [step_operator hop] at h
      cases h
    | none =>
      simp only [step, hop] at h
      exact error_of_follow (r := complete ⟨.key n name, level, outer⟩ n _) h
  | test n name part =>
    cases htest : part.test? name t with
    | some test =>
      rw [step_test htest] at h
      cases h
    | none =>
      simp only [step, htest] at h
      exact (Except.error.inj h).symm
  | done => exact error_of_follow h

lemma error_of_finish (h : r.finish last = .error e) : e = ⟨last, r.expectation⟩ := by
  obtain ⟨place, level, outer⟩ := r
  cases place <;> cases outer <;> first | cases h; done | exact (Except.error.inj h).symm

end Reading

end WhenClause
