import Mathlib.Tactic.Common
import WhenClause.Clause.Reading
import WhenClause.Constants

/-!
# The grammar

The derivations of the grammar of clauses, as trees over tokens:

    Sentence    := Disjunction eof
    Disjunction := Conjunction ('||' Conjunction)*
    Conjunction := Unary ('&&' Unary)*
    Unary       := Primary | Negation
    Negation    := '!' (Negation | literal | key Tail)
    Primary     := literal | '(' Disjunction ')' | key Tail
    Tail        := nothing | ('==' | '!=') Value | ('<' | '<=' | '>' | '>=') Value
                 | ('in' | 'not in') key | '=~' Rx

A derivation spells a list of tokens and has a value in every interpretation of literals, tests,
negations and groups; a chain of one operand has the value of that operand.
-/

namespace WhenClause

/-- A token that holds a regex between slashes: a regex literal, or a string with two slashes. -/
def Token.Spaced.Holds (t : Token.Spaced) (pattern flags : Text) : Prop :=
  t.kind = .regex ∧ Regex.splitLiteral t.lexeme = (pattern, flags) ∨
    t.kind = .string ∧ 2 ≤ t.lexeme.count '/' ∧
      Regex.splitQuoted? t.lexeme = some (pattern, flags)

namespace Grammar

/-- A token of a given kind. -/
abbrev Tok (kind : Token.Kind) : Type := { t : Token.Spaced // t.kind = kind }

/-- The right side of an equality or an order. -/
abbrev Value : Type :=
  { t : Token.Spaced // t.kind = .string ∨ Operand.isWordKind t.kind = true }

/-- The right side of a match: a token that holds a regex that is accepted. -/
structure Rx where
  token : Token.Spaced
  pattern : Text
  flags : Text
  holds : token.Holds pattern flags
  accepted : Regex.accepts pattern flags = true

/-- What may follow a key. -/
inductive Tail where
  | nothing
  | equality {negated : Bool} (op : Tok (.equality negated)) (value : Value)
  | order {cmp : Comparator} (op : Tok (.order cmp)) (value : Value)
  | membership {negated : Bool} (op : Tok (.membership negated)) (target : Tok .key)
  | matching (op : Tok .matching) (rx : Rx)

/-- A negation; groups cannot be negated. -/
inductive Negation where
  | negation (bang : Tok .not) (n : Negation)
  | literal {b : Bool} (bang : Tok .not) (t : Tok (.literal b))
  | test (bang : Tok .not) (key : Tok .key) (tail : Tail)

mutual

/-- Alternatives with `||` between them. -/
inductive Disjunction where
  | last (c : Conjunction)
  | more (c : Conjunction) (op : Tok .or) (d : Disjunction)

/-- Operands with `&&` between them. -/
inductive Conjunction where
  | last (u : Unary)
  | more (u : Unary) (op : Tok .and) (c : Conjunction)

/-- An operand. -/
inductive Unary where
  | primary (p : Primary)
  | negation (n : Negation)

/-- An operand that is not a negation. -/
inductive Primary where
  | literal {b : Bool} (t : Tok (.literal b))
  | test (key : Tok .key) (tail : Tail)
  | parens (left : Tok .lparen) (d : Disjunction) (right : Tok .rparen)

end

/-- A whole clause with its end. -/
structure Sentence where
  clause : Disjunction
  ending : Tok .eof

/-! ### Tokens -/

/-- The tokens behind a key. -/
def Tail.tokens : Tail → List Token.Spaced
  | .nothing              => []
  | .equality op value    => [op.1, value.1]
  | .order op value       => [op.1, value.1]
  | .membership op target => [op.1, target.1]
  | .matching op rx       => [op.1, rx.token]

/-- The tokens of a negation. -/
def Negation.tokens : Negation → List Token.Spaced
  | .negation bang n    => bang.1 :: n.tokens
  | .literal bang t     => [bang.1, t.1]
  | .test bang key tail => bang.1 :: key.1 :: tail.tokens

mutual

/-- The tokens of a disjunction. -/
def Disjunction.tokens : Disjunction → List Token.Spaced
  | .last c      => c.tokens
  | .more c op d => c.tokens ++ op.1 :: d.tokens

/-- The tokens of a conjunction. -/
def Conjunction.tokens : Conjunction → List Token.Spaced
  | .last u      => u.tokens
  | .more u op c => u.tokens ++ op.1 :: c.tokens

/-- The tokens of an operand. -/
def Unary.tokens : Unary → List Token.Spaced
  | .primary p  => p.tokens
  | .negation n => n.tokens

/-- The tokens of an operand that is not a negation. -/
def Primary.tokens : Primary → List Token.Spaced
  | .literal t           => [t.1]
  | .test key tail       => key.1 :: tail.tokens
  | .parens left d right => left.1 :: (d.tokens ++ [right.1])

end

/-- The tokens of a sentence. -/
def Sentence.tokens (s : Sentence) : List Token.Spaced := s.clause.tokens ++ [s.ending.1]

/-! ### Values -/

/-- The text that a value stands for in an equality: a word takes along the blanks behind it. -/
def equalityText (v : Value) : Text :=
  if v.1.kind = .string then v.1.lexeme else v.1.lexeme ++ v.1.trail

/-- The test of a key with what follows it. -/
def Tail.test (key : Text) : Tail → Test
  | .nothing                                 => .present key
  | @Tail.equality negated _ value           => .equals negated key (equalityText value) false
  | @Tail.order cmp _ value                  => .compare cmp key (.ofLexeme value.1.lexeme)
  | @Tail.membership negated _ target        => .member negated key target.1.lexeme
  | .matching _ rx                           => .regex key rx.pattern rx.flags

/-- An interpretation of what clauses are made of. -/
structure Interpretation (α : Type) where
  const : Bool → α
  test : Test → α
  not : α → α
  group : Connective → List α → α

namespace Interpretation

variable {α β : Type}

/-- The value of a chain of operands. -/
def chain (I : Interpretation α) (op : Connective) : List α → α
  | [a]      => a
  | operands => I.group op operands

/-- A translation of values that respects two interpretations. -/
structure IsTranslation (I : Interpretation α) (J : Interpretation β) (f : α → β) : Prop where
  const : ∀ b, f (I.const b) = J.const b
  test : ∀ t, f (I.test t) = J.test t
  not : ∀ a, f (I.not a) = J.not (f a)
  group : ∀ op as, f (I.group op as) = J.group op (as.map f)

lemma IsTranslation.chain {I : Interpretation α} {J : Interpretation β} {f : α → β}
    (h : I.IsTranslation J f) (op : Connective) (as : List α) :
    f (I.chain op as) = J.chain op (as.map f) := by
  match as with
  | []           => exact h.group op []
  | [a]          => rfl
  | a :: b :: as => exact h.group op (a :: b :: as)

/-- A clause as it is written. -/
def written : Interpretation Clause := ⟨.const, .test, .not, .group⟩

/-- A clause in canonical form under a table of constant keys. -/
def canonical (K : Constants) : Interpretation Clause :=
  ⟨.const, K.settle, Clause.negate, Clause.join⟩

end Interpretation

section Values

variable {α : Type} (I : Interpretation α)

/-- The value of a negation. -/
def Negation.value : Negation → α
  | .negation _ n           => I.not n.value
  | @Negation.literal b _ _ => I.not (I.const b)
  | .test _ key tail        => I.not (I.test (tail.test key.1.lexeme))

mutual

/-- The values of the alternatives of a disjunction. -/
def Disjunction.values : Disjunction → List α
  | .last c     => [I.chain .and c.values]
  | .more c _ d => I.chain .and c.values :: d.values

/-- The values of the operands of a conjunction. -/
def Conjunction.values : Conjunction → List α
  | .last u     => [u.value]
  | .more u _ c => u.value :: c.values

/-- The value of an operand. -/
def Unary.value : Unary → α
  | .primary p  => p.value
  | .negation n => n.value I

/-- The value of an operand that is not a negation. -/
def Primary.value : Primary → α
  | @Primary.literal b _ => I.const b
  | .test key tail       => I.test (tail.test key.1.lexeme)
  | .parens _ d _        => I.chain .or d.values

end

/-- The value of a disjunction. -/
def Disjunction.value (d : Disjunction) : α := I.chain .or (d.values I)

/-- The value of a conjunction. -/
def Conjunction.value (c : Conjunction) : α := I.chain .and (c.values I)

/-- The value of a sentence. -/
def Sentence.value (s : Sentence) : α := s.clause.value I

end Values

lemma chain_eq_group {op : Connective} {cs : List Clause} (h : 2 ≤ cs.length) :
    Clause.chain op cs = .group op cs.reverse := by
  match cs, h with
  | _ :: _ :: _, _ => rfl

/-- Operands that are listed last first are chained as they are written. -/
lemma chain_reverse (op : Connective) (cs : List Clause) :
    Clause.chain op cs.reverse = Interpretation.written.chain op cs := by
  match cs with
  | []           => rfl
  | [c]          => rfl
  | c :: d :: cs =>
    rw [chain_eq_group (by simp), List.reverse_reverse]
    rfl

/-! ### Translating values -/

section Translation

variable {α β : Type} {I : Interpretation α} {J : Interpretation β} {f : α → β}

lemma Negation.value_translate (h : I.IsTranslation J f) (n : Negation) :
    f (n.value I) = n.value J := by
  induction n with
  | negation bang n ih => rw [Negation.value, h.not, ih, Negation.value]
  | literal bang t => rw [Negation.value, h.not, h.const, Negation.value]
  | test bang key tail => rw [Negation.value, h.not, h.test, Negation.value]

mutual

lemma Disjunction.values_translate (h : I.IsTranslation J f) (d : Disjunction) :
    (d.values I).map f = d.values J := by
  match d with
  | .last c =>
    simp only [Disjunction.values, List.map_cons, List.map_nil, h.chain, c.values_translate h]
  | .more c op d =>
    simp only [Disjunction.values, List.map_cons, h.chain, c.values_translate h,
      d.values_translate h]

lemma Conjunction.values_translate (h : I.IsTranslation J f) (c : Conjunction) :
    (c.values I).map f = c.values J := by
  match c with
  | .last u => simp only [Conjunction.values, List.map_cons, List.map_nil, u.value_translate h]
  | .more u op c =>
    simp only [Conjunction.values, List.map_cons, u.value_translate h,
      c.values_translate h]

lemma Unary.value_translate (h : I.IsTranslation J f) (u : Unary) :
    f (u.value I) = u.value J := by
  match u with
  | .primary p => exact p.value_translate h
  | .negation n => exact n.value_translate h

lemma Primary.value_translate (h : I.IsTranslation J f) (p : Primary) :
    f (p.value I) = p.value J := by
  match p with
  | .literal t => exact h.const _
  | .test key tail => exact h.test _
  | .parens left d right => rw [Primary.value, h.chain, d.values_translate h, Primary.value]

end

/-- Values are translated along the whole of a derivation. -/
lemma Disjunction.value_translate (h : I.IsTranslation J f) (d : Disjunction) :
    f (d.value I) = d.value J := by
  rw [Disjunction.value, h.chain, d.values_translate h, Disjunction.value]

end Translation

/-! ### Chains of operands -/

section Chain

variable {α : Type} (I : Interpretation α)

/-- The kind of the token that stands for a connective. -/
def kindOf : Connective → Token.Kind
  | .and => .and
  | .or  => .or

/-- An operand, and a connective in front of each operand behind it. -/
def chainTokens {kind : Token.Kind} (u : Unary) (us : List (Tok kind × Unary)) :
    List Token.Spaced :=
  u.tokens ++ us.flatMap fun v => v.1.1 :: v.2.tokens

/-- The values of the operands of a chain. -/
def chainValues {kind : Token.Kind} (u : Unary) (us : List (Tok kind × Unary)) : List α :=
  u.value I :: us.map (·.2.value I)

@[simp] lemma chainTokens_nil {kind : Token.Kind} (u : Unary) :
    chainTokens u ([] : List (Tok kind × Unary)) = u.tokens := List.append_nil _

@[simp] lemma chainTokens_cons {kind : Token.Kind} (u : Unary) (v : Tok kind × Unary)
    (us : List (Tok kind × Unary)) :
    chainTokens u (v :: us) = u.tokens ++ v.1.1 :: chainTokens v.2 us := by
  simp [chainTokens]

lemma exists_conjunction_chain (u : Unary) (us : List (Tok (kindOf .and) × Unary)) :
    ∃ c : Conjunction, c.tokens = chainTokens u us ∧ c.values I = chainValues I u us := by
  induction us generalizing u with
  | nil => exact ⟨.last u, (chainTokens_nil u).symm, rfl⟩
  | cons v us ih =>
    obtain ⟨c, htokens, hvalues⟩ := ih v.2
    refine ⟨.more u v.1 c, ?_, ?_⟩
    · rw [chainTokens_cons, ← htokens]
      rfl
    · exact congrArg (u.value I :: ·) hvalues

lemma exists_disjunction_chain (u : Unary) (us : List (Tok (kindOf .or) × Unary)) :
    ∃ d : Disjunction, d.tokens = chainTokens u us ∧ d.values I = chainValues I u us := by
  induction us generalizing u with
  | nil => exact ⟨.last (.last u), (chainTokens_nil u).symm, rfl⟩
  | cons v us ih =>
    obtain ⟨d, htokens, hvalues⟩ := ih v.2
    refine ⟨.more (.last u) v.1 d, ?_, ?_⟩
    · rw [chainTokens_cons, ← htokens]
      rfl
    · exact congrArg (u.value I :: ·) hvalues

/-- A chain is a disjunction, of the value of the group of its operands. -/
lemma exists_disjunction_of_chain (op : Connective) (u : Unary)
    (us : List (Tok (kindOf op) × Unary)) :
    ∃ d : Disjunction, d.tokens = chainTokens u us ∧
      d.value I = I.chain op (chainValues I u us) := by
  cases op with
  | and =>
    obtain ⟨c, htokens, hvalues⟩ := exists_conjunction_chain I u us
    refine ⟨.last c, htokens, ?_⟩
    rw [Disjunction.value, Disjunction.values, hvalues]
    rfl
  | or =>
    obtain ⟨d, htokens, hvalues⟩ := exists_disjunction_chain I u us
    exact ⟨d, htokens, by rw [Disjunction.value, hvalues]⟩

end Chain

end Grammar

end WhenClause
