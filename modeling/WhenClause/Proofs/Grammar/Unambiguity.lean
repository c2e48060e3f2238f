import WhenClause.Proofs.Grammar.Derivation

/-!
# One derivation for a list of tokens

In front of tokens that do not continue it, a derivation can be told from its tokens, and so can
the place where it ends. The mutual induction follows the productions; what must not follow is an
operator behind an operand, a `&&` behind a conjunction and a `||` behind a disjunction.
-/

namespace WhenClause

namespace Grammar

variable {rest rest' : List Token.Spaced}

/-- No operator stands at the head of some tokens. -/
def EndsOperand (ts : List Token.Spaced) : Prop :=
  ∀ t ∈ ts.head?, TestPart.ofKind? t.kind = none

/-- Nothing that continues a conjunction stands at the head of some tokens. -/
def EndsConjunction (ts : List Token.Spaced) : Prop :=
  EndsOperand ts ∧ ∀ t ∈ ts.head?, t.kind ≠ .and

/-- Nothing that continues a disjunction stands at the head of some tokens. -/
def EndsDisjunction (ts : List Token.Spaced) : Prop :=
  EndsConjunction ts ∧ ∀ t ∈ ts.head?, t.kind ≠ .or

lemma endsOperand_cons {t : Token.Spaced} (h : TestPart.ofKind? t.kind = none)
    (ts : List Token.Spaced) : EndsOperand (t :: ts) := by
  rintro u ⟨⟩
  exact h

lemma endsConjunction_or (op : Tok .or) (ts : List Token.Spaced) :
    EndsConjunction (op.1 :: ts) := by
  refine ⟨endsOperand_cons (by rw [op.2]; rfl) ts, ?_⟩
  rintro u ⟨⟩
  simp [op.2]

lemma endsDisjunction_rparen (right : Tok .rparen) (ts : List Token.Spaced) :
    EndsDisjunction (right.1 :: ts) := by
  refine ⟨⟨endsOperand_cons (by rw [right.2]; rfl) ts, ?_⟩, ?_⟩
  all_goals
    rintro u ⟨⟩
    simp [right.2]

lemma endsDisjunction_eof (last : Tok .eof) (ts : List Token.Spaced) :
    EndsDisjunction (last.1 :: ts) := by
  refine ⟨⟨endsOperand_cons (by rw [last.2]; rfl) ts, ?_⟩, ?_⟩
  all_goals
    rintro u ⟨⟩
    simp [last.2]

lemma Tok.kind_eq {kind kind' : Token.Kind} {t : Tok kind} {t' : Tok kind'} (h : t.1 = t'.1) :
    kind = kind' :=
  t.2.symm.trans (h ▸ t'.2)

/-! ### Tails -/

/-- A token holds one regex at most. -/
lemma Holds.unique {t : Token.Spaced} {p p' f f' : Text} (h : t.Holds p f) (h' : t.Holds p' f') :
    p = p' ∧ f = f' := by
  rcases h with ⟨hkind, h⟩ | ⟨hkind, -, h⟩ <;> rcases h' with ⟨hkind', h'⟩ | ⟨hkind', -, h'⟩
  · exact Prod.mk.inj (h.symm.trans h')
  · simp [hkind] at hkind'
  · simp [hkind] at hkind'
  · exact Prod.mk.inj (Option.some.inj (h.symm.trans h'))

lemma Rx.ext_token {rx rx' : Rx} (h : rx.token = rx'.token) : rx = rx' := by
  obtain ⟨t, p, f, hholds, haccepted⟩ := rx
  obtain ⟨t', p', f', hholds', haccepted'⟩ := rx'
  obtain rfl : t = t' := h
  obtain ⟨rfl, rfl⟩ := Holds.unique hholds hholds'
  rfl

lemma Tail.tokens_eq (tail : Tail) :
    tail.tokens = [] ∨ ∃ op t, tail.tokens = [op, t] ∧ TestPart.ofKind? op.kind ≠ none := by
  cases tail with
  | nothing => exact .inl rfl
  | equality op value => exact .inr ⟨_, _, rfl, by simp [op.2, TestPart.ofKind?]⟩
  | order op value => exact .inr ⟨_, _, rfl, by simp [op.2, TestPart.ofKind?]⟩
  | membership op target => exact .inr ⟨_, _, rfl, by simp [op.2, TestPart.ofKind?]⟩
  | matching op rx => exact .inr ⟨_, _, rfl, by simp [op.2, TestPart.ofKind?]⟩

lemma Tail.eq_of_tokens_eq {tail tail' : Tail} (h : tail.tokens = tail'.tokens) :
    tail = tail' := by
  cases tail <;> cases tail' <;> simp only [tokens, List.cons.injEq, and_true, reduceCtorEq] at h
  · rfl
  all_goals cases Tok.kind_eq h.1
  · rw [Subtype.ext h.1, Subtype.ext h.2]
  · rw [Subtype.ext h.1, Subtype.ext h.2]
  · rw [Subtype.ext h.1, Subtype.ext h.2]
  · rw [Subtype.ext h.1, Rx.ext_token h.2]

lemma Tail.tokens_append_inj {tail tail' : Tail} (hrest : EndsOperand rest)
    (hrest' : EndsOperand rest') (h : tail.tokens ++ rest = tail'.tokens ++ rest') :
    tail = tail' ∧ rest = rest' := by
  rcases tail.tokens_eq with hnil | ⟨op, t, htokens, hop⟩ <;>
    rcases tail'.tokens_eq with hnil' | ⟨op', t', htokens', hop'⟩
  · exact ⟨eq_of_tokens_eq (hnil.trans hnil'.symm), by simpa [hnil, hnil'] using h⟩
  · rw [hnil, htokens', List.nil_append] at h
    exact absurd (hrest op' (by rw [h]; rfl)) hop'
  · rw [htokens, hnil', List.nil_append] at h
    exact absurd (hrest' op (by rw [← h]; rfl)) hop
  · rw [htokens, htokens'] at h
    simp only [List.cons_append, List.nil_append, List.cons.injEq] at h
    exact ⟨eq_of_tokens_eq (by rw [htokens, htokens', h.1, h.2.1]), h.2.2⟩

/-! ### Derivations -/

lemma Negation.tokens_append_inj {n n' : Negation} (hrest : EndsOperand rest)
    (hrest' : EndsOperand rest') (h : n.tokens ++ rest = n'.tokens ++ rest') :
    n = n' ∧ rest = rest' := by
  induction n generalizing n' with
  | negation bang n ih =>
    cases n' with
    | negation bang' n' =>
      obtain ⟨hbang, h⟩ := List.cons.inj h
      obtain ⟨rfl, rfl⟩ := ih h
      exact ⟨by rw [Subtype.ext hbang], rfl⟩
    | literal bang' t =>
      have h := (List.cons.inj h).2
      cases n <;> cases Tok.kind_eq (List.cons.inj h).1
    | test bang' key tail =>
      have h := (List.cons.inj h).2
      cases n <;> cases Tok.kind_eq (List.cons.inj h).1
  | literal bang t =>
    cases n' with
    | negation bang' n' =>
      have h := (List.cons.inj h).2
      cases n' <;> cases Tok.kind_eq (List.cons.inj h).1
    | literal bang' t' =>
      obtain ⟨hbang, htail⟩ := List.cons.inj h
      obtain ⟨ht, hrests⟩ := List.cons.inj htail
      cases Tok.kind_eq ht
      exact ⟨by rw [Subtype.ext hbang, Subtype.ext ht], hrests⟩
    | test bang' key tail =>
      have h := (List.cons.inj h).2
      cases Tok.kind_eq (List.cons.inj h).1
  | test bang key tail =>
    cases n' with
    | negation bang' n' =>
      have h := (List.cons.inj h).2
      cases n' <;> cases Tok.kind_eq (List.cons.inj h).1
    | literal bang' t' =>
      have h := (List.cons.inj h).2
      cases Tok.kind_eq (List.cons.inj h).1
    | test bang' key' tail' =>
      obtain ⟨hbang, h⟩ := List.cons.inj h
      obtain ⟨hkey, h⟩ := List.cons.inj h
      obtain ⟨rfl, rfl⟩ := Tail.tokens_append_inj hrest hrest' h
      exact ⟨by rw [Subtype.ext hbang, Subtype.ext hkey], rfl⟩

lemma Negation.tokens_eq_cons (n : Negation) : ∃ (bang : Tok .not) (ts : List Token.Spaced),
    n.tokens = bang.1 :: ts := by
  cases n with
  | negation bang n => exact ⟨bang, _, rfl⟩
  | literal bang t => exact ⟨bang, _, rfl⟩
  | test bang key tail => exact ⟨bang, _, rfl⟩

/-- No negation begins like another operand. -/
lemma Primary.tokens_ne_negation (p : Primary) (n : Negation) :
    p.tokens ++ rest ≠ n.tokens ++ rest' := by
  obtain ⟨bang, ts, hn⟩ := n.tokens_eq_cons
  rw [hn]
  intro h
  cases p with
  | literal t => cases Tok.kind_eq (List.cons.inj h).1
  | test key tail => cases Tok.kind_eq (List.cons.inj h).1
  | parens left d right => cases Tok.kind_eq (List.cons.inj h).1

mutual

lemma Disjunction.tokens_append_inj {rest rest' : List Token.Spaced} (d d' : Disjunction)
    (hrest : EndsDisjunction rest) (hrest' : EndsDisjunction rest')
    (h : d.tokens ++ rest = d'.tokens ++ rest') : d = d' ∧ rest = rest' := by
  match d, d' with
  | .last c, .last c' =>
    obtain ⟨rfl, rfl⟩ := c.tokens_append_inj c' hrest.1 hrest'.1 h
    exact ⟨rfl, rfl⟩
  | .last c, .more c' op' d' =>
    rw [Disjunction.tokens, Disjunction.tokens, List.append_assoc] at h
    obtain ⟨-, hop⟩ := c.tokens_append_inj c' hrest.1 (endsConjunction_or op' _) h
    exact absurd op'.2 (hrest.2 op'.1 (by rw [hop]; rfl))
  | .more c op d, .last c' =>
    rw [Disjunction.tokens, Disjunction.tokens, List.append_assoc] at h
    obtain ⟨-, hop⟩ := c.tokens_append_inj c' (endsConjunction_or op _) hrest'.1 h
    exact absurd op.2 (hrest'.2 op.1 (by rw [← hop]; rfl))
  | .more c op d, .more c' op' d' =>
    rw [Disjunction.tokens, Disjunction.tokens, List.append_assoc, List.append_assoc] at h
    obtain ⟨rfl, hd⟩ :=
      c.tokens_append_inj c' (endsConjunction_or op _) (endsConjunction_or op' _) h
    obtain ⟨hop, hd⟩ := List.cons.inj hd
    obtain ⟨rfl, rfl⟩ := d.tokens_append_inj d' hrest hrest' hd
    exact ⟨by rw [Subtype.ext hop], rfl⟩

lemma Conjunction.tokens_append_inj {rest rest' : List Token.Spaced} (c c' : Conjunction)
    (hrest : EndsConjunction rest) (hrest' : EndsConjunction rest')
    (h : c.tokens ++ rest = c'.tokens ++ rest') : c = c' ∧ rest = rest' := by
  have hand : ∀ (op : Tok .and) (ts : List Token.Spaced), EndsOperand (op.1 :: ts) :=
    fun op => endsOperand_cons (by rw [op.2]; rfl)
  match c, c' with
  | .last u, .last u' =>
    obtain ⟨rfl, rfl⟩ := u.tokens_append_inj u' hrest.1 hrest'.1 h
    exact ⟨rfl, rfl⟩
  | .last u, .more u' op' c' =>
    rw [Conjunction.tokens, Conjunction.tokens, List.append_assoc] at h
    obtain ⟨-, hop⟩ := u.tokens_append_inj u' hrest.1 (hand op' _) h
    exact absurd op'.2 (hrest.2 op'.1 (by rw [hop]; rfl))
  | .more u op c, .last u' =>
    rw [Conjunction.tokens, Conjunction.tokens, List.append_assoc] at h
    obtain ⟨-, hop⟩ := u.tokens_append_inj u' (hand op _) hrest'.1 h
    exact absurd op.2 (hrest'.2 op.1 (by rw [← hop]; rfl))
  | .more u op c, .more u' op' c' =>
    rw [Conjunction.tokens, Conjunction.tokens, List.append_assoc, List.append_assoc] at h
    obtain ⟨rfl, hc⟩ := u.tokens_append_inj u' (hand op _) (hand op' _) h
    obtain ⟨hop, hc⟩ := List.cons.inj hc
    obtain ⟨rfl, rfl⟩ := c.tokens_append_inj c' hrest hrest' hc
    exact ⟨by rw [Subtype.ext hop], rfl⟩

lemma Unary.tokens_append_inj {rest rest' : List Token.Spaced} (u u' : Unary)
    (hrest : EndsOperand rest) (hrest' : EndsOperand rest')
    (h : u.tokens ++ rest = u'.tokens ++ rest') : u = u' ∧ rest = rest' := by
  match u, u' with
  | .primary p, .primary p' =>
    obtain ⟨rfl, rfl⟩ := p.tokens_append_inj p' hrest hrest' h
    exact ⟨rfl, rfl⟩
  | .primary p, .negation n' => exact absurd h (p.tokens_ne_negation n')
  | .negation n, .primary p' => exact absurd h.symm (p'.tokens_ne_negation n)
  | .negation n, .negation n' =>
    obtain ⟨rfl, rfl⟩ := Negation.tokens_append_inj hrest hrest' h
    exact ⟨rfl, rfl⟩

lemma Primary.tokens_append_inj {rest rest' : List Token.Spaced} (p p' : Primary)
    (hrest : EndsOperand rest) (hrest' : EndsOperand rest')
    (h : p.tokens ++ rest = p'.tokens ++ rest') : p = p' ∧ rest = rest' := by
  match p, p' with
  | .literal t, .literal t' =>
    obtain ⟨ht, hrests⟩ := List.cons.inj h
    cases Tok.kind_eq ht
    exact ⟨by rw [Subtype.ext ht], hrests⟩
  | .test key tail, .test key' tail' =>
    obtain ⟨hkey, htail⟩ := List.cons.inj h
    obtain ⟨rfl, rfl⟩ := Tail.tokens_append_inj hrest hrest' htail
    exact ⟨by rw [Subtype.ext hkey], rfl⟩
  | .parens left d right, .parens left' d' right' =>
    rw [Primary.tokens, Primary.tokens, List.cons_append, List.cons_append, List.append_assoc,
      List.append_assoc] at h
    obtain ⟨hleft, hd⟩ := List.cons.inj h
    obtain ⟨rfl, hright⟩ := d.tokens_append_inj d' (endsDisjunction_rparen right _)
      (endsDisjunction_rparen right' _) hd
    obtain ⟨hright, hrests⟩ := List.cons.inj hright
    exact ⟨by rw [Subtype.ext hleft, Subtype.ext hright], hrests⟩
  | .literal t, .test key tail => cases Tok.kind_eq (List.cons.inj h).1
  | .literal t, .parens left d right => cases Tok.kind_eq (List.cons.inj h).1
  | .test key tail, .literal t => cases Tok.kind_eq (List.cons.inj h).1
  | .test key tail, .parens left d right => cases Tok.kind_eq (List.cons.inj h).1
  | .parens left d right, .literal t => cases Tok.kind_eq (List.cons.inj h).1
  | .parens left d right, .test key tail => cases Tok.kind_eq (List.cons.inj h).1

end

/-- A sentence is determined by its tokens. -/
theorem Sentence.eq_of_tokens_eq {s s' : Sentence} (h : s.tokens = s'.tokens) : s = s' := by
  obtain ⟨d, last⟩ := s
  obtain ⟨d', last'⟩ := s'
  obtain ⟨rfl, hlast⟩ := d.tokens_append_inj d' (endsDisjunction_eof last [])
    (endsDisjunction_eof last' []) h
  rw [Subtype.ext (List.cons.inj hlast).1]

end Grammar

end WhenClause
