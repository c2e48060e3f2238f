import Mathlib.Data.List.Forall2
import WhenClause.Proofs.Grammar.Printing
import WhenClause.Proofs.Grammar.Recognition
import WhenClause.Proofs.Grammar.Viability
import WhenClause.Proofs.Scan.Surroundings

/-!
# Parsing texts in parentheses

Texts that are parsed can be put between parentheses and joined by a connective. What is parsed then
is the clauses of the texts, joined (`Clause.parse_parenthesized`). A text is read between parentheses
as it is read alone, since no step of reading asks where a token stands
(`Grammar.exists_disjunction_shift`).
-/

namespace WhenClause

open Grammar Reading

/-- The text between parentheses. -/
def Text.parenthesize (t : Text) : Text := '(' :: t ++ [')']

/-- The tokens of a derivation, further on, have a derivation of the same value. -/
lemma Grammar.exists_disjunction_shift (d : Disjunction) (n : Nat) :
    ∃ d' : Disjunction, d'.tokens = d.tokens.map (·.shift n) ∧
      d'.value .written = d.value .written := by
  have hshift : List.Forall₂ (fun t u => ∀ p : Place, p.Equates id t u) d.tokens
      (d.tokens.map (·.shift n)) := by
    rw [List.forall₂_map_right_iff, List.forall₂_same]
    exact fun t _ p => Place.equates_of_lexeme_eq id rfl rfl fun _ _ => rfl
  obtain ⟨c, hread, hc⟩ := exists_ofTokens_eq_ok isTranslation_id (abreast_of_forall₂ hshift false)
    (d.ofTokens_tokens (.endOf 0)) (.endOf 0)
  obtain ⟨d', htokens, hvalue⟩ := exists_disjunction_of_ofTokens hread
  exact ⟨d', htokens, hvalue.trans hc.symm⟩

namespace Clause

variable {K : Constants} {op : Connective} {s : Text} {e : Clause} {ss : List Text}
  {es : List Clause}

/-- A text that is parsed as a clause and does not end in a blank. -/
structure IsSource (K : Constants) (s : Text) (e : Clause) : Prop where
  parse_eq : Clause.parse K s = .ok e
  tight : s.EndsTight

/-- A source in parentheses is passed as an operand, whatever stands behind it. -/
lemma IsSource.exists_unary (h : IsSource K s e) (offset : Nat) (rest : Text) :
    ∃ (u : Unary) (offset' : Nat),
      Passes offset (s.parenthesize ++ rest) u.tokens offset' rest ∧
        (u.value .written).normalize K = e := by
  obtain ⟨hscan, d, hd, hvalue⟩ := parse_eq_ok_iff.mp h.parse_eq
  obtain ⟨d', htokens, hvalue'⟩ := exists_disjunction_shift d (offset + 1)
  have hinside := (passes_of_errors_eq_nil 0 s hscan).inside h.tight (offset + 1) rest
  have htokens' : d'.tokens = ((piecesFrom 0 0 s).filterMap Placed.token?).map
      (·.shift (offset + 1)) := by rw [htokens, hd]; rfl
  rw [← htokens'] at hinside
  have htext : s.parenthesize ++ rest = '(' :: (s ++ ')' :: rest) := by simp [Text.parenthesize]
  have hleft : Piece.sign? ('(' :: (s ++ ')' :: rest)) = some ⟨.ok .lparen, ['('], _⟩ := rfl
  have hright : Piece.sign? (')' :: rest) = some ⟨.ok .rparen, [')'], rest⟩ := rfl
  have hnormal : ((d'.value .written).normalize K) = e := by rw [hvalue', hvalue]
  rw [htext]
  exact ⟨.primary (.parens ⟨_, rfl⟩ d' ⟨_, rfl⟩), _,
    (passes_sign hleft offset).append (hinside.append (passes_sign hright _)), hnormal⟩

/-- Sources in parentheses with a connective between them are passed as a chain of operands. -/
lemma exists_chain (op : Connective) (h : IsSource K s e) (hs : List.Forall₂ (IsSource K) ss es)
    (offset : Nat) :
    ∃ (u : Unary) (us : List (Tok (kindOf op) × Unary)) (offset' : Nat),
      Passes offset (List.intercalate op.symbol ((s :: ss).map Text.parenthesize))
        (chainTokens u us) offset' [] ∧
        (chainValues .written u us).map (normalize K) = e :: es := by
  induction hs generalizing s e offset with
  | nil =>
    obtain ⟨u, offset', hpass, hvalue⟩ := h.exists_unary offset []
    refine ⟨u, [], offset', ?_, congrArg ([·]) hvalue⟩
    simpa using hpass
  | @cons s' e' ss es h' _ ih =>
    obtain ⟨u, offset₁, hpass, hvalue⟩ := h.exists_unary offset
      (op.symbol ++ List.intercalate op.symbol ((s' :: ss).map Text.parenthesize))
    obtain ⟨t, hkind, hsymbol⟩ := passes_symbol op
      (List.intercalate op.symbol ((s' :: ss).map Text.parenthesize)) offset₁
    obtain ⟨v, us, offset', hrest, hvalues⟩ := ih h' (offset₁ + 4)
    refine ⟨u, (⟨t, hkind⟩, v) :: us, offset', ?_, ?_⟩
    · have hchain := hpass.append (hsymbol.append hrest)
      simpa [List.intercalate_cons_cons] using hchain
    · rw [← hvalues, ← hvalue]
      rfl

/-- Texts that are parsed can be put together from left to right: a text in parentheses is parsed as
the clause of the text, and texts in parentheses with a connective between them are parsed as their
clauses joined by it. No text may end in a blank, which would belong to a value at its end. -/
theorem parse_parenthesized (K : Constants) :
    (∀ s e, Clause.parse K s = .ok e → s.EndsTight →
      Clause.parse K s.parenthesize = .ok e) ∧
    ∀ (op : Connective) (ss : List Text) (es : List Clause), 2 ≤ ss.length →
      List.Forall₂ (fun s e => Clause.parse K s = .ok e ∧ s.EndsTight) ss es →
      Clause.parse K (List.intercalate op.symbol (ss.map Text.parenthesize)) =
        .ok (join op es) := by
  constructor
  · intro s e hparse htight
    obtain ⟨u, offset, hpass, hvalue⟩ := IsSource.exists_unary ⟨hparse, htight⟩ 0 []
    rw [List.append_nil] at hpass
    obtain ⟨htokens, herrors⟩ := hpass.to_end
    exact parse_eq_ok_iff.mpr ⟨herrors, .last (.last u), htokens.symm, hvalue⟩
  · intro op ss es hlength hsources
    have hsources : List.Forall₂ (IsSource K) ss es := hsources.imp fun _ _ h => ⟨h.1, h.2⟩
    obtain ⟨s, s', ss, rfl⟩ : ∃ s s' ts, ss = s :: s' :: ts := by
      match ss, hlength with
      | s :: s' :: ts, _ => exact ⟨s, s', ts, rfl⟩
    obtain ⟨e, es, h, hs, rfl⟩ := List.forall₂_cons_left_iff.mp hsources
    obtain ⟨e', es, h', hs', rfl⟩ := List.forall₂_cons_left_iff.mp hs
    obtain ⟨u, us, offset, hpass, hvalues⟩ := exists_chain op h hs 0
    obtain ⟨htokens, herrors⟩ := hpass.to_end
    obtain ⟨d, hd, hchain⟩ := exists_disjunction_of_chain .written op u us
    refine parse_eq_ok_iff.mpr ⟨herrors, d, hd.trans htokens.symm, ?_⟩
    rw [hchain, (isTranslation_normalize K).chain, hvalues]
    rfl

/-- Sources whose last tokens a following text could continue: a word with an open bracket, the word
`not`, a regex, and a bare value. -/
theorem parse_parenthesized_of_open_ends :
    let ss := ["a<b".toList, "x||not".toList, "k=~/x/".toList, "k == v".toList]
    let es := [test (.present "a<b".toList),
      group .or [test (.present "not".toList), test (.present ['x'])],
      test (.matching ['k'] ['x'] []), test (.equals false ['k'] ['v'] false)]
    List.Forall₂ (fun s e => Clause.parse .host s = .ok e ∧ s.EndsTight) ss es ∧
      Clause.parse .host (Text.parenthesize "k == v".toList) =
        .ok (test (.equals false ['k'] ['v'] false)) ∧
      Clause.parse .host (List.intercalate Connective.and.symbol (ss.map Text.parenthesize)) =
        .ok (join .and es) := by
  intro ss es
  have hvalue : Clause.parse .host "k == v".toList =
      .ok (test (.equals false ['k'] ['v'] false)) ∧ Text.EndsTight "k == v".toList := by
    decide +kernel
  have hsources :
      List.Forall₂ (fun s e => Clause.parse .host s = .ok e ∧ s.EndsTight) ss es :=
    .cons (by decide +kernel) (.cons (by decide +kernel) (.cons (by decide +kernel)
      (.cons hvalue .nil)))
  exact ⟨hsources, (parse_parenthesized .host).1 _ _ hvalue.1 hvalue.2,
    (parse_parenthesized .host).2 .and ss es (by decide) hsources⟩

-- a blank at the end of a source is lost there and kept in front of a parenthesis
example :
    Clause.parse .host "k == v ".toList = .ok (test (.equals false ['k'] ['v'] false)) ∧
      Clause.parse .host "(k == v )".toList = .ok (test (.equals false ['k'] ['v', ' '] false)) := by
  decide +kernel

end Clause

end WhenClause
