import Mathlib.Data.List.Forall2
import WhenClause.Proofs.Grammar.Steps

/-!
# Readings that agree

Two readings agree under a translation of clauses when they stand in the same place and what they
have read has the same translation. Tokens that say the same at that place lead on to readings that
agree, or neither is read and the same is expected in their place (`Agree.step`,
`Agree.step_error`). So tokens that are abreast all along give clauses with the same translation, or
are at fault with the same token (`exists_ofTokens_eq_ok`, `exists_ofTokens_eq_error`).
-/

namespace WhenClause

open Grammar

variable {α : Type} {J : Interpretation α} {f : Clause → α}

namespace Grammar

lemma isTranslation_id : Interpretation.written.IsTranslation .written id where
  const _ := rfl
  test _ := rfl
  not _ := rfl
  group op cs := by rw [List.map_id]; rfl

/-- The interpretation that forgets all but that there is something. -/
def Interpretation.trivial : Interpretation Unit :=
  ⟨fun _ => (), fun _ => (), fun _ => (), fun _ _ => ()⟩

/-- The translation of a clause that forgets all of it. -/
def forget (_ : Clause) : Unit := ()

lemma isTranslation_forget : Interpretation.written.IsTranslation .trivial forget where
  const _ := rfl
  test _ := rfl
  not _ := rfl
  group _ _ := rfl

end Grammar

/-! ### Levels -/

namespace Level

/-- What a translation makes of a level. -/
def image (f : Clause → α) (l : Level) : List α × List α :=
  (l.alternatives.map f, l.operands.map f)

variable {l l' : Level} {c c' : Clause}

lemma translate_chain (hf : Interpretation.written.IsTranslation J f) (op : Connective)
    (cs : List Clause) : f (.chain op cs) = J.chain op (cs.map f).reverse := by
  rw [← List.map_reverse, ← hf.chain, ← chain_reverse, List.reverse_reverse]

lemma image_add_congr (h : l.image f = l'.image f) (hc : f c = f c') :
    (l.add c).image f = (l'.add c').image f := by
  obtain ⟨halternatives, hoperands⟩ := Prod.mk.inj h
  simp only [image, add, List.map_cons, halternatives, hoperands, hc]

lemma image_split_congr (hf : Interpretation.written.IsTranslation J f)
    (h : l.image f = l'.image f) : l.split.image f = l'.split.image f := by
  obtain ⟨halternatives, hoperands⟩ := Prod.mk.inj h
  simp only [image, split, List.map_cons, translate_chain hf, halternatives, hoperands]

lemma translate_close_congr (hf : Interpretation.written.IsTranslation J f)
    (h : l.image f = l'.image f) : f l.close = f l'.close := by
  have halternatives := congrArg Prod.fst (image_split_congr hf h)
  rw [close, close, translate_chain hf, translate_chain hf]
  exact congrArg (fun as => J.chain .or as.reverse) halternatives

lemma translate_repeat_not_congr (hf : Interpretation.written.IsTranslation J f) (n : Nat)
    (hc : f c = f c') : f (Nat.repeat .not n c) = f (Nat.repeat .not n c') := by
  induction n with
  | zero => exact hc
  | succ n ih => exact (hf.not _).trans ((congrArg J.not ih).trans (hf.not _).symm)

end Level

namespace Reading

/-- Two tokens say the same at a place: they complete tests with the same translation, or they have
the same kind and name the same key. -/
def Place.Equates (f : Clause → α) (p : Place) (t u : Token.Spaced) : Prop :=
  match p with
  | .test _ name part =>
    (part.test? name t).map (fun test => f (.test test)) =
      (part.test? name u).map fun test => f (.test test)
  | _                 => t.kind = u.kind ∧ (t.kind = .key → t.lexeme = u.lexeme)

/-- Two readings stand in the same place and have read what has the same translation. -/
structure Agree (f : Clause → α) (r r' : Reading) : Prop where
  place : r.place = r'.place
  level : r.level.image f = r'.level.image f
  outer : r.outer.map (·.image f) = r'.outer.map (·.image f)

/-- Tokens that say the same wherever they are read, one by one; behind the sign of an equality that
is only where a word takes the blanks behind it along. -/
inductive Abreast (f : Clause → α) : Bool → List Token.Spaced → List Token.Spaced → Prop
  | nil (behindEquality : Bool) : Abreast f behindEquality [] []
  | cons {behindEquality : Bool} {t u : Token.Spaced} {ts us : List Token.Spaced}
    (h : ∀ p : Place, p.takesTrail = behindEquality → p.Equates f t u)
    (hrest : Abreast f t.kind.isEquality ts us) : Abreast f behindEquality (t :: ts) (u :: us)

variable {r r' q : Reading} {t u : Token.Spaced} {ts us : List Token.Spaced} {c : Clause}
  {last : Token} {e : ParseError} {l : Level} {outer : List Level}

/-! ### One step -/

lemma Place.Equates.symm {p : Place} (h : p.Equates f t u) : p.Equates f u t := by
  cases p with
  | test n key part => exact Eq.symm h
  | _ => exact ⟨h.1.symm, fun hkind => (h.2 (h.1.trans hkind)).symm⟩

lemma Place.Equates.kind_eq (h : r.place.Equates f t u) (hr : r.settled = ⟨.done, l, outer⟩) :
    t.kind = u.kind := by
  obtain ⟨place, level, outer'⟩ := r
  cases place with
  | operand n | test n name part => cases hr
  | key n name | done => exact h.1

/-- Tokens of the same kind and lexeme say the same, if a word that takes the blanks behind it has
the same blanks there. -/
lemma Place.equates_of_lexeme_eq {p : Place} (f : Clause → α) (hkind : t.kind = u.kind)
    (hlexeme : t.lexeme = u.lexeme)
    (htrail : p.takesTrail = true → Operand.isWordKind t.kind = true → t.trail = u.trail) :
    p.Equates f t u := by
  obtain ⟨⟨kind, lexeme, offset⟩, trail⟩ := t
  obtain ⟨⟨kind', lexeme', offset'⟩, trail'⟩ := u
  dsimp only at hkind hlexeme htrail
  subst hkind hlexeme
  cases p with
  | test n key part =>
    cases part with
    | equality negated =>
      cases hword : Operand.isWordKind kind with
      | true =>
        obtain rfl := htrail rfl hword
        rfl
      | false => simp [Place.Equates, TestPart.test?, TestPart.equalityValue?, hword]
    | _ => rfl
  | _ => exact ⟨rfl, fun _ => rfl⟩

/-- Where all of what is read is forgotten, trails do not matter. -/
lemma Place.equates_forget {p : Place} (h : t.toToken = u.toToken) : p.Equates forget t u := by
  obtain ⟨token, trail⟩ := t
  obtain ⟨token', trail'⟩ := u
  obtain rfl : token = token' := h
  cases p with
  | test n key part =>
    cases part with
    | equality negated =>
      simp only [Place.Equates, TestPart.test?, TestPart.equalityValue?]
      split_ifs <;> rfl
    | _ => rfl
  | _ => exact ⟨rfl, fun _ => rfl⟩

lemma abreast_of_forall₂ (h : List.Forall₂ (fun t u => ∀ p : Place, p.Equates f t u) ts us)
    (behindEquality : Bool) : Abreast f behindEquality ts us := by
  induction h generalizing behindEquality with
  | nil => exact .nil _
  | cons ht _ ih => exact .cons (fun p _ => ht p) (ih _)

lemma abreast_forget (h : ts.map (·.toToken) = us.map (·.toToken)) (behindEquality : Bool) :
    Abreast forget behindEquality ts us := by
  refine abreast_of_forall₂ ?_ _
  rw [← List.forall₂_eq_eq_eq, List.forall₂_map_left_iff, List.forall₂_map_right_iff] at h
  exact h.imp fun _ _ ht _ => Place.equates_forget ht

namespace Agree

lemma refl (f : Clause → α) (r : Reading) : Agree f r r := ⟨rfl, rfl, rfl⟩

lemma symm (h : Agree f r r') : Agree f r' r := ⟨h.place.symm, h.level.symm, h.outer.symm⟩

lemma expectation (h : Agree f r r') : r.expectation = r'.expectation := by
  have houter : r.outer.isEmpty = r'.outer.isEmpty := by
    rw [← List.isEmpty_map (f := Level.image f), h.outer, List.isEmpty_map]
  rw [Reading.expectation, Reading.expectation, h.place, houter]

lemma settled (h : Agree f r r') : Agree f r.settled r'.settled := by
  obtain ⟨place, level, outer⟩ := r
  obtain ⟨place', level', outer'⟩ := r'
  obtain ⟨rfl, hlevel, houter⟩ := h
  cases place with
  | key n name => exact ⟨rfl, Level.image_add_congr hlevel rfl, houter⟩
  | operand n | test n name part | done => exact ⟨rfl, hlevel, houter⟩

/-- Where one of two readings stands behind an operand, the other does. -/
lemma exists_settled (h : Agree f r r') (hr : r.settled = ⟨.done, l, outer⟩) :
    ∃ l' outer', r'.settled = ⟨.done, l', outer'⟩ ∧ l.image f = l'.image f ∧
      outer.map (·.image f) = outer'.map (·.image f) := by
  have hagree := h.settled
  rw [hr] at hagree
  generalize r'.settled = q at hagree
  obtain ⟨place', level', outer'⟩ := q
  obtain ⟨rfl, hlevel, houter⟩ := hagree
  exact ⟨level', outer', rfl, hlevel, houter⟩

/-- Where one of two tokens that say the same is read, the other is. -/
lemma step (hf : Interpretation.written.IsTranslation J f) (h : Agree f r r')
    (ht : r.place.Equates f t u) (hstep : r.step t = .ok q) :
    ∃ q', r'.step u = .ok q' ∧ Agree f q q' := by
  have hagree := h
  obtain ⟨place', level', outer'⟩ := r'
  obtain ⟨rfl, hlevel, houter⟩ := h
  have hadd {n : Nat} {c c' : Clause} (hc : f c = f c') :=
    Level.image_add_congr hlevel (Level.translate_repeat_not_congr hf n hc)
  cases step_eq_ok_iff.mp hstep with
  | literal hliteral => exact ⟨_, step_literal (ht.1.symm.trans hliteral), rfl, hadd rfl, houter⟩
  | key hkey =>
    exact ⟨_, step_key (ht.1.symm.trans hkey), congrArg (Place.key _) (ht.2 hkey), hlevel, houter⟩
  | not hnot => exact ⟨_, step_not (ht.1.symm.trans hnot), rfl, hlevel, houter⟩
  | lparen hlparen =>
    refine ⟨_, step_lparen (ht.1.symm.trans hlparen), rfl, rfl, ?_⟩
    exact congrArg₂ List.cons hlevel houter
  | operator hop => exact ⟨_, step_operator (ht.1 ▸ hop), rfl, hlevel, houter⟩
  | test htest =>
    rw [Place.Equates, htest, Option.map_some, eq_comm, Option.map_eq_some_iff] at ht
    obtain ⟨test', htest', htranslate⟩ := ht
    exact ⟨_, step_test htest', rfl, hadd htranslate.symm, houter⟩
  | and hr hand =>
    obtain ⟨l', outer', hr', hl, ho⟩ := hagree.exists_settled hr
    have hstep' := step_eq_ok_iff.mpr (.and hr' ((ht.kind_eq hr).symm.trans hand))
    exact ⟨_, hstep', rfl, hl, ho⟩
  | or hr hor =>
    obtain ⟨l', outer', hr', hl, ho⟩ := hagree.exists_settled hr
    have hstep' := step_eq_ok_iff.mpr (.or hr' ((ht.kind_eq hr).symm.trans hor))
    exact ⟨_, hstep', rfl, Level.image_split_congr hf hl, ho⟩
  | rparen hr hrparen =>
    obtain ⟨l', outer', hr', hl, ho⟩ := hagree.exists_settled hr
    cases outer' with
    | nil => cases ho
    | cons around' outer' =>
      obtain ⟨haround, ho⟩ := List.cons.inj ho
      have hstep' := step_eq_ok_iff.mpr (.rparen hr' ((ht.kind_eq hr).symm.trans hrparen))
      exact ⟨_, hstep', rfl, Level.image_add_congr haround (Level.translate_close_congr hf hl), ho⟩

/-- Where one of two tokens that say the same does not fit, the other does not. -/
lemma step_error (hf : Interpretation.written.IsTranslation J f) (h : Agree f r r')
    (ht : r.place.Equates f t u) (hstep : r.step t = .error e) :
    r'.step u = .error ⟨u.toToken, e.expected⟩ := by
  rw [error_of_step hstep, h.expectation]
  cases hstep' : r'.step u with
  | error e' => rw [error_of_step hstep']
  | ok q' =>
    obtain ⟨q, hok, -⟩ := h.symm.step hf (h.place ▸ ht.symm) hstep'
    rw [hstep] at hok
    cases hok

/-! ### Runs -/

lemma run (hf : Interpretation.written.IsTranslation J f) (h : Agree f r r')
    (hts : Abreast f r.place.takesTrail ts us) (hrun : r.run ts = .ok q) :
    ∃ q', r'.run us = .ok q' ∧ Agree f q q' := by
  generalize hbehind : r.place.takesTrail = behindEquality at hts
  induction hts generalizing r r' with
  | nil =>
    obtain rfl := Except.ok.inj hrun
    exact ⟨r', rfl, h⟩
  | @cons behindEquality t u ts us ht _ ih =>
    obtain ⟨p, hstep, hrun⟩ := exists_step_of_run_cons hrun
    obtain ⟨p', hstep', hagree⟩ := h.step hf (ht _ hbehind) hstep
    rw [run_cons hstep']
    exact ih hagree hrun (takesTrail_of_step hstep)

/-- Runs over tokens that are abreast fail at the same place, with the same expectation. -/
lemma run_error (hf : Interpretation.written.IsTranslation J f) (h : Agree f r r')
    (hts : Abreast f r.place.takesTrail ts us) (hrun : r.run ts = .error e) :
    ∃ (i : Nat) (t u : Token.Spaced), ts[i]? = some t ∧ us[i]? = some u ∧ e.token = t.toToken ∧
      r'.run us = .error ⟨u.toToken, e.expected⟩ := by
  generalize hbehind : r.place.takesTrail = behindEquality at hts
  induction hts generalizing r r' with
  | nil => cases hrun
  | @cons behindEquality t u ts us ht _ ih =>
    cases hstep : r.step t with
    | error e' =>
      rw [Reading.run, List.foldlM_cons, hstep] at hrun
      obtain rfl := Except.error.inj hrun
      refine ⟨0, t, u, rfl, rfl, by rw [error_of_step hstep], ?_⟩
      rw [Reading.run, List.foldlM_cons, h.step_error hf (ht _ hbehind) hstep]
      rfl
    | ok p =>
      rw [run_cons hstep] at hrun
      obtain ⟨p', hstep', hagree⟩ := h.step hf (ht _ hbehind) hstep
      rw [run_cons hstep']
      obtain ⟨i, hi⟩ := ih hagree hrun (takesTrail_of_step hstep)
      exact ⟨i + 1, hi⟩

/-- Where one of the two is a whole clause the other is one. -/
lemma finish (hf : Interpretation.written.IsTranslation J f) (h : Agree f r r')
    (hfinish : r.finish last = .ok c) (last' : Token) :
    ∃ c', r'.finish last' = .ok c' ∧ f c = f c' := by
  obtain ⟨place, level, outer⟩ := r
  obtain ⟨place', level', outer'⟩ := r'
  obtain ⟨rfl, hlevel, houter⟩ := h
  cases outer with
  | cons around outer => cases place <;> cases hfinish
  | nil =>
    obtain rfl : outer' = [] := by simpa using houter.symm
    cases place with
    | operand n | test n key part => cases hfinish
    | key n key =>
      obtain rfl := Except.ok.inj hfinish
      exact ⟨_, rfl, Level.translate_close_congr hf (Level.image_add_congr hlevel rfl)⟩
    | done =>
      obtain rfl := Except.ok.inj hfinish
      exact ⟨_, rfl, Level.translate_close_congr hf hlevel⟩

lemma finish_error (hf : Interpretation.written.IsTranslation J f) (h : Agree f r r')
    (hfinish : r.finish last = .error e) (last' : Token) :
    r'.finish last' = .error ⟨last', e.expected⟩ := by
  rw [error_of_finish hfinish, h.expectation]
  cases hfinish' : r'.finish last' with
  | error e' => rw [error_of_finish hfinish']
  | ok c' =>
    obtain ⟨c, hok, -⟩ := h.symm.finish hf hfinish' last
    rw [hfinish] at hok
    cases hok

end Agree

/-! ### Whole clauses -/

lemma Abreast.length_eq {b : Bool} (h : Abreast f b ts us) : ts.length = us.length := by
  induction h with
  | nil => rfl
  | cons _ _ ih => exact congrArg (· + 1) ih

lemma getElem?_map_concat {i : Nat} (h : ts[i]? = some t) (last : Token) :
    (ts.map (·.toToken) ++ [last])[i]? = some t.toToken := by
  obtain ⟨hi, -⟩ := List.getElem?_eq_some_iff.mp h
  rw [List.getElem?_append_left (by simpa using hi), List.getElem?_map, h]
  rfl

/-- Tokens that are abreast spell clauses with the same translation. -/
theorem exists_ofTokens_eq_ok (hf : Interpretation.written.IsTranslation J f)
    (hts : Abreast f false ts us) (h : Clause.ofTokens ts last = .ok c) (last' : Token) :
    ∃ c', Clause.ofTokens us last' = .ok c' ∧ f c = f c' := by
  obtain ⟨r, hrun, hfinish⟩ := ofTokens_eq_ok_iff.mp h
  obtain ⟨r', hrun', hagree⟩ := (Agree.refl f start).run hf hts hrun
  obtain ⟨c', hfinish', hc⟩ := hagree.finish hf hfinish last'
  exact ⟨c', ofTokens_eq_ok_iff.mpr ⟨r', hrun', hfinish'⟩, hc⟩

/-- Tokens that are abreast are at fault with the same token, which may be their end. -/
theorem exists_ofTokens_eq_error (hf : Interpretation.written.IsTranslation J f)
    (hts : Abreast f false ts us) (h : Clause.ofTokens ts last = .error e) (last' : Token) :
    ∃ (i : Nat) (u : Token), (ts.map (·.toToken) ++ [last])[i]? = some e.token ∧
      (us.map (·.toToken) ++ [last'])[i]? = some u ∧
      Clause.ofTokens us last' = .error ⟨u, e.expected⟩ := by
  have hruns := hts
  cases hts with
  | nil =>
    obtain rfl := Except.error.inj h
    exact ⟨0, last', rfl, rfl, rfl⟩
  | @cons _ t u ts us =>
    rw [ofTokens_cons] at h ⊢
    cases hrun : start.run (t :: ts) with
    | error e' =>
      rw [hrun] at h
      obtain rfl := Except.error.inj h
      obtain ⟨i, t', u', ht, hu, htoken, hrun'⟩ := (Agree.refl f start).run_error hf hruns hrun
      rw [hrun', htoken]
      exact ⟨i, u'.toToken, getElem?_map_concat ht last, getElem?_map_concat hu last', rfl⟩
    | ok r =>
      obtain ⟨r', hrun', hagree⟩ := (Agree.refl f start).run hf hruns hrun
      rw [hrun] at h
      rw [hrun']
      have hlength : (t :: ts).length = (u :: us).length := hruns.length_eq
      refine ⟨(t :: ts).length, last', ?_, ?_, hagree.finish_error hf h last'⟩
      · rw [error_of_finish h, List.getElem?_append_right (by simp)]
        simp
      · rw [hlength, List.getElem?_append_right (by simp)]
        simp

end Reading

end WhenClause
