import WhenClause.Proofs.Grammar.Steps
import WhenClause.Proofs.Regex.Literal

/-!
# What is read has a derivation

The tokens read so far make up the beginning of a derivation: around each open parenthesis stand
whole alternatives and whole operands, and behind the innermost one stands part of an operand
(`Reading.Spells`). Each step keeps this, and at the end it is a derivation of all tokens whose
written clause is the one that was read.
-/

namespace WhenClause

namespace Grammar

variable {α : Type} (I : Interpretation α)

/-! ### Chains from their parts -/

/-- Operands before a conjunction, the last first. -/
def Conjunction.behind : List (Unary × Tok .and) → Conjunction → Conjunction
  | [], c            => c
  | (u, op) :: us, c => behind us (.more u op c)

/-- Alternatives before a disjunction, the last first. -/
def Disjunction.behind : List (Conjunction × Tok .or) → Disjunction → Disjunction
  | [], d            => d
  | (c, op) :: cs, d => behind cs (.more c op d)

/-- A group up to an operand: alternatives with a sign behind each, then operands with a sign
behind each, both the last first. -/
structure Beginning where
  alternatives : List (Conjunction × Tok .or)
  operands : List (Unary × Tok .and)

namespace Beginning

/-- Nothing of a group. -/
def empty : Beginning := ⟨[], []⟩

/-- The tokens of a group up to an operand. -/
def tokens (b : Beginning) : List Token.Spaced :=
  b.alternatives.reverse.flatMap (fun (c, op) => c.tokens ++ [op.1]) ++
    b.operands.reverse.flatMap (fun (u, op) => u.tokens ++ [op.1])

/-- The clauses that the alternatives and the operands write. -/
def level (b : Beginning) : Level :=
  ⟨b.alternatives.map (·.1.value .written), b.operands.map (·.1.value .written)⟩

/-- The alternative that one more operand ends. -/
def conjunction (b : Beginning) (u : Unary) : Conjunction := .behind b.operands (.last u)

/-- The group that one more operand ends. -/
def disjunction (b : Beginning) (u : Unary) : Disjunction :=
  .behind b.alternatives (.last (b.conjunction u))

end Beginning

lemma Conjunction.tokens_behind (us : List (Unary × Tok .and)) (c : Conjunction) :
    (behind us c).tokens = us.reverse.flatMap (fun (u, op) => u.tokens ++ [op.1]) ++ c.tokens := by
  induction us generalizing c with
  | nil => rfl
  | cons u us ih => simp [behind, ih, tokens]

lemma Conjunction.values_behind (us : List (Unary × Tok .and)) (c : Conjunction) :
    (behind us c).values I = (us.map (·.1.value I)).reverse ++ c.values I := by
  induction us generalizing c with
  | nil => rfl
  | cons u us ih => simp [behind, ih, values]

lemma Disjunction.tokens_behind (cs : List (Conjunction × Tok .or)) (d : Disjunction) :
    (behind cs d).tokens = cs.reverse.flatMap (fun (c, op) => c.tokens ++ [op.1]) ++ d.tokens := by
  induction cs generalizing d with
  | nil => rfl
  | cons c cs ih => simp [behind, ih, tokens]

lemma Disjunction.values_behind (cs : List (Conjunction × Tok .or)) (d : Disjunction) :
    (behind cs d).values I = (cs.map (·.1.value I)).reverse ++ d.values I := by
  induction cs generalizing d with
  | nil => rfl
  | cons c cs ih => simp [behind, ih, values, Conjunction.value]

namespace Beginning

variable (b : Beginning) (u : Unary)

lemma tokens_empty : empty.tokens = [] := rfl

lemma level_empty : empty.level = .start := rfl

lemma tokens_disjunction : (b.disjunction u).tokens = b.tokens ++ u.tokens := by
  simp [disjunction, conjunction, Disjunction.tokens_behind, Conjunction.tokens_behind, tokens,
    Disjunction.tokens, Conjunction.tokens]

lemma tokens_or (op : Tok .or) :
    tokens ⟨(b.conjunction u, op) :: b.alternatives, []⟩ = b.tokens ++ u.tokens ++ [op.1] := by
  simp [conjunction, Conjunction.tokens_behind, tokens, Conjunction.tokens]

lemma value_conjunction :
    (b.conjunction u).value .written = .chain .and (b.level.add (u.value .written)).operands := by
  rw [Conjunction.value, conjunction, Conjunction.values_behind, ← chain_reverse]
  simp [Conjunction.values, Level.add, level]

lemma level_or (op : Tok .or) :
    level ⟨(b.conjunction u, op) :: b.alternatives, []⟩ =
      (b.level.add (u.value .written)).split := by
  rw [Level.split, ← value_conjunction]
  rfl

lemma value_disjunction :
    (b.disjunction u).value .written = (b.level.add (u.value .written)).close := by
  rw [Disjunction.value, disjunction, Disjunction.values_behind, ← chain_reverse]
  have hlast : Interpretation.written.chain .and ((b.conjunction u).values .written) =
    .chain .and (b.level.add (u.value .written)).operands := b.value_conjunction u
  simp [Disjunction.values, Level.close, Level.split, hlast]
  rfl

end Beginning

/-! ### Negated operands -/

/-- Some `!` before an operand that may be negated make a negation. -/
lemma exists_unary (p : Primary) (negation : Tok .not → Negation)
    (htokens : ∀ bang, (negation bang).tokens = bang.1 :: p.tokens)
    (hvalue : ∀ bang, (negation bang).value .written = .not (p.value .written))
    (bangs : List (Tok .not)) :
    ∃ u : Unary, u.tokens = bangs.map (·.1) ++ p.tokens ∧
      u.value .written = Nat.repeat .not bangs.length (p.value .written) := by
  cases bangs with
  | nil => exact ⟨.primary p, rfl, rfl⟩
  | cons bang bangs =>
    have hneg : ∃ n : Negation, n.tokens = bang.1 :: bangs.map (·.1) ++ p.tokens ∧
        n.value .written = Nat.repeat .not (bangs.length + 1) (p.value .written) := by
      induction bangs generalizing bang with
      | nil => exact ⟨negation bang, htokens bang, hvalue bang⟩
      | cons bang' bangs ih =>
        obtain ⟨n, htokens, hvalue⟩ := ih bang'
        refine ⟨.negation bang n, ?_, ?_⟩
        · rw [Negation.tokens, htokens]
          rfl
        · rw [Negation.value, hvalue]
          rfl
    obtain ⟨n, htokens, hvalue⟩ := hneg
    exact ⟨.negation n, htokens, hvalue⟩

lemma exists_unary_literal {b : Bool} (t : Tok (.literal b)) (bangs : List (Tok .not)) :
    ∃ u : Unary, u.tokens = bangs.map (·.1) ++ [t.1] ∧
      u.value .written = Nat.repeat .not bangs.length (.const b) :=
  exists_unary (.literal t) (fun bang => .literal bang t) (fun _ => rfl) (fun _ => rfl) bangs

lemma exists_unary_test (key : Tok .key) (tail : Tail) (bangs : List (Tok .not)) :
    ∃ u : Unary, u.tokens = bangs.map (·.1) ++ key.1 :: tail.tokens ∧
      u.value .written = Nat.repeat .not bangs.length (.test (tail.test key.1.lexeme)) :=
  exists_unary (.test key tail) (fun bang => .test bang key tail) (fun _ => rfl) (fun _ => rfl)
    bangs

/-! ### Tests -/

lemma kind_of_ofKind? {kind : Token.Kind} {part : TestPart}
    (h : TestPart.ofKind? kind = some part) :
    kind = match part with
      | .equality negated   => .equality negated
      | .order op           => .order op
      | .membership negated => .membership negated
      | .matching           => .matching := by
  cases kind <;> first | cases h; rfl | cases h

lemma equalityValue?_eq_some {t : Token.Spaced} {text : Text}
    (h : TestPart.equalityValue? t = some text) :
    ∃ v : Value, v.1 = t ∧ equalityText v = text := by
  rw [TestPart.equalityValue?] at h
  split_ifs at h with hstring hword
  · exact ⟨⟨t, .inl hstring⟩, rfl, by simpa [equalityText, hstring] using h⟩
  · exact ⟨⟨t, .inr hword⟩, rfl, by simpa [equalityText, hstring] using h⟩

lemma holds_of_regex? {t : Token.Spaced} {pattern flags : Text}
    (h : TestPart.regex? t = some (pattern, flags)) : t.Holds pattern flags := by
  rw [TestPart.regex?] at h
  split at h
  · rename_i hkind
    exact .inl ⟨hkind, Option.some.inj h⟩
  · rename_i hkind
    exact .inr ⟨hkind, Regex.two_le_count_of_splitQuoted? h, h⟩
  · cases h

/-- An operator behind a key and a token that completes it are what may follow the key. -/
lemma exists_tail {part : TestPart} {key : Text} {op t : Token.Spaced} {test : Test}
    (hop : TestPart.ofKind? op.kind = some part) (ht : part.test? key t = some test) :
    ∃ tail : Tail, tail.tokens = [op, t] ∧ tail.test key = test := by
  cases part with
  | equality negated =>
    obtain ⟨text, htext, rfl⟩ := Option.map_eq_some_iff.mp ht
    obtain ⟨value, rfl, rfl⟩ := equalityValue?_eq_some htext
    exact ⟨.equality ⟨op, kind_of_ofKind? hop⟩ value, rfl, rfl⟩
  | order cmp =>
    rw [TestPart.test?] at ht
    split_ifs at ht with hvalue
    obtain rfl := Option.some.inj ht
    exact ⟨.order ⟨op, kind_of_ofKind? hop⟩ ⟨t, by simpa using hvalue⟩, rfl, rfl⟩
  | membership negated =>
    rw [TestPart.test?] at ht
    split_ifs at ht with hkey
    obtain rfl := Option.some.inj ht
    exact ⟨.membership ⟨op, kind_of_ofKind? hop⟩ ⟨t, hkey⟩, rfl, rfl⟩
  | matching =>
    rw [TestPart.test?] at ht
    cases hregex : TestPart.regex? t with
    | none => simp [hregex] at ht
    | some parts =>
      obtain ⟨pattern, flags⟩ := parts
      simp only [hregex] at ht
      split_ifs at ht with haccepts
      obtain rfl := Option.some.inj ht
      exact ⟨.matching ⟨op, kind_of_ofKind? hop⟩
        ⟨t, pattern, flags, holds_of_regex? hregex, haccepts⟩, rfl, rfl⟩

end Grammar

namespace Reading

open Grammar

variable {v w : List Token.Spaced} {t : Token.Spaced} {r r' : Reading} {l : Level}
  {outer : List Level}

/-! ### The beginning of a derivation -/

/-- The open groups around the place before an operand, with the tokens that spell them. -/
inductive Opened : List Token.Spaced → Level → List Level → Prop
  | whole (b : Beginning) : Opened b.tokens b.level []
  | parens {w : List Token.Spaced} {l : Level} {outer : List Level} (h : Opened w l outer)
    (left : Tok .lparen) (b : Beginning) : Opened (w ++ left.1 :: b.tokens) b.level (l :: outer)

/-- Some tokens spell what has been read. -/
inductive Spells : List Token.Spaced → Reading → Prop
  | operand {v : List Token.Spaced} {l : Level} {outer : List Level} (h : Opened v l outer)
    (bangs : List (Tok .not)) :
    Spells (v ++ bangs.map (·.1)) ⟨.operand bangs.length, l, outer⟩
  | key {v : List Token.Spaced} {l : Level} {outer : List Level} (h : Opened v l outer)
    (bangs : List (Tok .not)) (k : Tok .key) :
    Spells (v ++ (bangs.map (·.1) ++ [k.1])) ⟨.key bangs.length k.1.lexeme, l, outer⟩
  | test {v : List Token.Spaced} {l : Level} {outer : List Level} (h : Opened v l outer)
    (bangs : List (Tok .not)) (k : Tok .key) {op : Token.Spaced} {part : TestPart}
    (hop : TestPart.ofKind? op.kind = some part) :
    Spells (v ++ (bangs.map (·.1) ++ [k.1, op])) ⟨.test bangs.length k.1.lexeme part, l, outer⟩
  | done {v : List Token.Spaced} {l : Level} {outer : List Level} (h : Opened v l outer)
    (u : Unary) : Spells (v ++ u.tokens) ⟨.done, l.add (u.value .written), outer⟩

lemma Opened.and (h : Opened v l outer) (u : Unary) (op : Tok .and) :
    Opened (v ++ u.tokens ++ [op.1]) (l.add (u.value .written)) outer := by
  cases h with
  | whole b =>
    have hb := Opened.whole ⟨b.alternatives, (u, op) :: b.operands⟩
    simpa [Beginning.tokens, Beginning.level, Level.add] using hb
  | parens h left b =>
    have hb := h.parens left ⟨b.alternatives, (u, op) :: b.operands⟩
    simpa [Beginning.tokens, Beginning.level, Level.add] using hb

lemma Opened.or (h : Opened v l outer) (u : Unary) (op : Tok .or) :
    Opened (v ++ u.tokens ++ [op.1]) (l.add (u.value .written)).split outer := by
  cases h with
  | whole b =>
    have hb := Opened.whole ⟨(b.conjunction u, op) :: b.alternatives, []⟩
    simpa [Beginning.tokens_or, Beginning.level_or] using hb
  | parens h left b =>
    have hb := h.parens left ⟨(b.conjunction u, op) :: b.alternatives, []⟩
    simpa [Beginning.tokens_or, Beginning.level_or] using hb

/-- Behind an operand, which may be a key alone, the last of the tokens are those of an operand. -/
lemma Spells.exists_operand (h : Spells w r) (hr : r.settled = ⟨.done, l, outer⟩) :
    ∃ (v : List Token.Spaced) (before : Level) (u : Unary), Opened v before outer ∧
      v ++ u.tokens = w ∧ before.add (u.value .written) = l := by
  cases h with
  | operand h bangs => cases hr
  | key h bangs k =>
    obtain ⟨u, htokens, hvalue⟩ := exists_unary_test k .nothing bangs
    cases hr
    exact ⟨_, _, u, h, by rw [htokens]; rfl, by rw [hvalue]; rfl⟩
  | test h bangs k hop => cases hr
  | done h u =>
    cases hr
    exact ⟨_, _, u, h, rfl, rfl⟩

/-- Each step goes on in a derivation. -/
lemma Spells.step (h : Spells w r) (hstep : r.step t = .ok r') : Spells (w ++ [t]) r' := by
  cases step_eq_ok_iff.mp hstep with
  | literal hkind =>
    cases h with
    | operand h bangs =>
      obtain ⟨u, htokens, hvalue⟩ := exists_unary_literal ⟨t, hkind⟩ bangs
      simpa [htokens, hvalue] using Spells.done h u
  | key hkind =>
    cases h with
    | operand h bangs => simpa using Spells.key h bangs ⟨t, hkind⟩
  | not hkind =>
    cases h with
    | operand h bangs =>
      have hbangs := Spells.operand h (bangs ++ [⟨t, hkind⟩])
      rw [List.length_append, List.map_append] at hbangs
      simpa using hbangs
  | lparen hkind =>
    generalize hn : 0 = n at h
    cases h with
    | operand h bangs =>
      obtain rfl := List.eq_nil_of_length_eq_zero hn.symm
      simpa [Beginning.tokens_empty, Beginning.level_empty] using
        Spells.operand (h.parens ⟨t, hkind⟩ .empty) []
  | operator hop =>
    cases h with
    | key h bangs k => simpa using Spells.test h bangs k hop
  | test htest =>
    cases h with
    | test h bangs k hop =>
      obtain ⟨tail, htail, rfl⟩ := exists_tail hop htest
      obtain ⟨u, htokens, hvalue⟩ := exists_unary_test k tail bangs
      simpa [htokens, hvalue, htail] using Spells.done h u
  | and hr hkind =>
    obtain ⟨v, before, u, hopened, rfl, rfl⟩ := h.exists_operand hr
    simpa using Spells.operand (hopened.and u ⟨t, hkind⟩) []
  | or hr hkind =>
    obtain ⟨v, before, u, hopened, rfl, rfl⟩ := h.exists_operand hr
    simpa using Spells.operand (hopened.or u ⟨t, hkind⟩) []
  | rparen hr hkind =>
    obtain ⟨v, before, u, hopened, rfl, rfl⟩ := h.exists_operand hr
    cases hopened with
    | parens h left b =>
      have hgroup := Spells.done h (.primary (.parens left (b.disjunction u) ⟨t, hkind⟩))
      have hvalue : (Primary.parens left (b.disjunction u) ⟨t, hkind⟩).value .written =
        (b.level.add (u.value .written)).close := b.value_disjunction u
      simpa [Unary.tokens, Unary.value, Primary.tokens, Beginning.tokens_disjunction,
        hvalue] using hgroup

lemma Spells.run {ts : List Token.Spaced} (h : Spells w r) (hrun : r.run ts = .ok r') :
    Spells (w ++ ts) r' := by
  induction ts generalizing w r with
  | nil =>
    obtain rfl := Except.ok.inj hrun
    simpa using h
  | cons t ts ih =>
    obtain ⟨q, hstep, hrun⟩ := exists_step_of_run_cons hrun
    simpa using ih (h.step hstep) hrun

/-- What is read to the end has a derivation. -/
lemma Spells.finish {c : Clause} {last : Token} (h : Spells w r) (hfinish : r.finish last = .ok c) :
    ∃ d : Disjunction, d.tokens = w ∧ d.value .written = c := by
  have hdone : ∀ {v l} (u : Unary), Opened v l [] →
      ∃ d : Disjunction, d.tokens = v ++ u.tokens ∧
        d.value .written = (l.add (u.value .written)).close := by
    rintro v l u ⟨b⟩
    exact ⟨b.disjunction u, b.tokens_disjunction u, b.value_disjunction u⟩
  cases h with
  | operand h bangs => cases hfinish
  | @test v l outer h bangs k op part hop => cases hfinish
  | @key v l outer h bangs k =>
    cases outer with
    | cons around outer => cases hfinish
    | nil =>
      obtain rfl := Except.ok.inj hfinish
      obtain ⟨u, htokens, hvalue⟩ := exists_unary_test k .nothing bangs
      obtain ⟨d, hd, hclose⟩ := hdone u h
      refine ⟨d, by rw [hd, htokens]; rfl, ?_⟩
      rw [hclose, hvalue]
      rfl
  | @done v l outer h u =>
    cases outer with
    | cons around outer => cases hfinish
    | nil =>
      obtain rfl := Except.ok.inj hfinish
      exact hdone u h

end Reading

/-- Tokens that are read as a clause are those of a derivation that writes it. -/
theorem Grammar.exists_disjunction_of_ofTokens {tokens : List Token.Spaced} {last : Token}
    {c : Clause} (h : Clause.ofTokens tokens last = .ok c) :
    ∃ d : Disjunction, d.tokens = tokens ∧ d.value .written = c := by
  obtain ⟨r, hrun, hfinish⟩ := Reading.ofTokens_eq_ok_iff.mp h
  have hstart : Reading.Spells [] .start := .operand (.whole .empty) []
  exact (hstart.run hrun).finish hfinish

end WhenClause
