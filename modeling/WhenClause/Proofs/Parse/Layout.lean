import WhenClause.Proofs.Grammar.Likeness
import WhenClause.Proofs.Grammar.Recognition

/-!
# Layout

What is parsed depends on the words of a text and not on its layout, with one exception: the right
side of an equality that has no quotes is read with the blanks behind it (`Clause.parse_layout`).
-/

namespace WhenClause

open Grammar Reading

/-- Two lists of tokens have the same kinds and, but for the words `not in`, the same lexemes; and a
word behind the sign of an equality has the same blanks up to the next token. -/
def SameWords (behindEquality : Bool) : List Token.Spaced → List Token.Spaced → Prop
  | [], []           => True
  | t :: ts, u :: us =>
    t.kind = u.kind ∧ (t.kind ≠ .membership true → t.lexeme = u.lexeme) ∧
      (behindEquality = true → Operand.isWordKind t.kind = true → t.trail = u.trail) ∧
      SameWords t.kind.isEquality ts us
  | _, _             => False

instance decidableSameWords (behindEquality : Bool) (ts us : List Token.Spaced) :
    Decidable (SameWords behindEquality ts us) :=
  match ts, us with
  | [], []           => isTrue trivial
  | t :: ts, u :: us =>
    have := decidableSameWords t.kind.isEquality ts us
    decidable_of_iff (t.kind = u.kind ∧ (t.kind ≠ .membership true → t.lexeme = u.lexeme) ∧
      (behindEquality = true → Operand.isWordKind t.kind = true → t.trail = u.trail) ∧
      SameWords t.kind.isEquality ts us) Iff.rfl
  | [], _ :: _       => isFalse id
  | _ :: _, []       => isFalse id

variable {behindEquality : Bool} {t u : Token.Spaced} {ts us : List Token.Spaced} {p : Place}

/-- The words `not in` say the same, as only their kind is read. -/
lemma Reading.Place.equates_of_not_in {α : Type} (f : Clause → α) (ht : t.kind = .membership true)
    (hu : u.kind = .membership true) : p.Equates f t u := by
  cases p with
  | test n key part =>
    cases part <;> simp [Place.Equates, TestPart.test?, TestPart.equalityValue?, TestPart.regex?,
      Operand.isWordKind, ht, hu]
  | _ => exact ⟨ht.trans hu.symm, fun hkey => by rw [ht] at hkey; cases hkey⟩

lemma abreast_of_sameWords (h : SameWords behindEquality ts us) :
    Abreast id behindEquality ts us := by
  induction ts generalizing behindEquality us with
  | nil =>
    cases us with
    | nil => exact .nil _
    | cons u us => cases h
  | cons t ts ih =>
    cases us with
    | nil => cases h
    | cons u us =>
      obtain ⟨hkind, hlexeme, htrail, hrest⟩ := h
      refine .cons (fun p hp => ?_) (ih hrest)
      by_cases hnot : t.kind = .membership true
      · exact Place.equates_of_not_in id hnot (hkind.symm.trans hnot)
      · exact Place.equates_of_lexeme_eq id hkind (hlexeme hnot) fun htakes =>
          htrail (hp.symm.trans htakes)

namespace Clause

variable {s s' : Text}

/-- Texts without scan errors that differ in their layout only are parsed as the same clause, or the
same token is at fault in both. The blanks behind a word on the right side of an equality count as
its own, up to the next token. -/
theorem parse_layout (K : Constants) (hs : scanErrors s = []) (hs' : scanErrors s' = [])
    (hwords : SameWords false (spacedTokens s) (spacedTokens s')) :
    (∃ e, Clause.parse K s = .ok e ∧ Clause.parse K s' = .ok e) ∨
      ∃ (i : Nat) (d d' : ParseError), Clause.parse K s = .error ⟨[], [d]⟩ ∧
        Clause.parse K s' = .error ⟨[], [d']⟩ ∧ (tokenize s).1[i]? = some d.token ∧
        (tokenize s').1[i]? = some d'.token ∧ d.expected = d'.expected := by
  have habreast := abreast_of_sameWords hwords
  cases hread : Clause.ofTokens (spacedTokens s) (.endOf s.length) with
  | ok c =>
    left
    obtain ⟨c', hread', rfl⟩ :=
      exists_ofTokens_eq_ok isTranslation_id habreast hread (.endOf s'.length)
    exact ⟨c.normalize K, by simp only [Clause.parse, hs, hread],
      by simp only [Clause.parse, hs', hread', id]⟩
  | error d =>
    right
    obtain ⟨i, token, htoken, htoken', hread'⟩ :=
      exists_ofTokens_eq_error isTranslation_id habreast hread (.endOf s'.length)
    exact ⟨i, d, ⟨token, d.expected⟩, by simp only [Clause.parse, hs, hread],
      by simp only [Clause.parse, hs', hread'], htoken, htoken', rfl⟩

/-- A clause with other blanks around its operators, in `not in` and at both ends, and a text in
which the same parenthesis is at fault wherever it stands. -/
theorem parse_layout_of_moved_blanks :
    let s := "a&&(x  not\tin\nz||k== 'q')&&k==v ||!b".toList
    let s' := " a && ( x not in z || k=='q' ) && k == v || ! b ".toList
    let e := group .or [not (test (.present ['b'])), group .and [test (.present ['a']),
      test (.equals false ['k'] ['v', ' '] false),
      group .or [test (.equals false ['k'] ['q'] false), test (.member true ['x'] ['z'])]]]
    let u := "k== v )x".toList
    let u' := "k\n==v ) x".toList
    (scanErrors s = [] ∧ scanErrors s' = [] ∧
      SameWords false (spacedTokens s) (spacedTokens s')) ∧
    (scanErrors u = [] ∧ scanErrors u' = [] ∧
      SameWords false (spacedTokens u) (spacedTokens u')) ∧
    (Clause.parse .host s = .ok e ∧ Clause.parse .host s' = .ok e) ∧
    ∃ (i : Nat) (d d' : ParseError), Clause.parse .host u = .error ⟨[], [d]⟩ ∧
      Clause.parse .host u' = .error ⟨[], [d']⟩ ∧ (tokenize u).1[i]? = some d.token ∧
      (tokenize u').1[i]? = some d'.token ∧ d.expected = d'.expected := by
  intro s s' e u u'
  have hs : scanErrors s = [] ∧ scanErrors s' = [] ∧
      SameWords false (spacedTokens s) (spacedTokens s') := by decide +kernel
  have hu : scanErrors u = [] ∧ scanErrors u' = [] ∧
      SameWords false (spacedTokens u) (spacedTokens u') := by decide +kernel
  have hparse : Clause.parse .host s = .ok e := by decide +kernel
  have hreject : Clause.parse .host u = .error ⟨[], [⟨⟨.rparen, [')'], 6⟩, .ending⟩]⟩ := by
    decide +kernel
  refine ⟨hs, hu, ⟨hparse, ?_⟩, ?_⟩
  · rcases parse_layout .host hs.1 hs.2.1 hs.2.2 with ⟨e', he, he'⟩ | ⟨-, d, -, hd, -⟩
    · rw [hparse] at he
      rwa [Except.ok.inj he]
    · rw [hparse] at hd
      cases hd
  · rcases parse_layout .host hu.1 hu.2.1 hu.2.2 with ⟨e', he, -⟩ | hboth
    · rw [hreject] at he
      cases he
    · exact hboth

-- the blanks behind a bare value are the exception
example :
    let s := "k==v ||a".toList
    let s' := "k==v||a".toList
    (spacedTokens s).map (·.lexeme) = (spacedTokens s').map (·.lexeme) ∧
      Clause.parse .host s ≠ Clause.parse .host s' := by
  decide +kernel

end Clause

end WhenClause
