import WhenClause.Proofs.Regex.Comments

/-!
# Fuel

The parser of regexes has as much fuel as it needs: what it reads with any fuel it reads with all
that is enough for the length of the text (`alternation?_of_le`).
-/

namespace WhenClause.Regex

variable {s s' : ParserState} {text rest : Text} {n node : Node}

/-! ### What is left of a text -/

lemma length_skip_le (h : s.skip text = some rest) : rest.length ≤ text.length :=
  (isSuffix_skipFrom h).length_le

lemma length_close?_le (h : s.close? text = some rest) : rest.length ≤ text.length :=
  (takes_close? (p := False) False.elim h).isSuffix.length_le

lemma length_quantified?_le (h : s.quantified? node text = some (n, rest)) :
    rest.length ≤ text.length :=
  (takes_quantified? (p := False) False.elim h).isSuffix.length_le

lemma length_flags?_le {negated colon : Bool} {fuel : ℕ}
    (h : ParserState.flags? negated fuel s text = some (colon, s', rest)) :
    rest.length ≤ text.length :=
  (takes_flags? (p := False) False.elim h).isSuffix.length_le

lemma length_groupKind?_le {kind : GroupKind} (h : groupKind? text = some (kind, rest)) :
    rest.length ≤ text.length :=
  (takes_groupKind? (p := False) h).isSuffix.length_le

section Lengths

variable {depth fuel : ℕ} {nodes : List Node}

lemma length_pieces?_le (h : pieces? depth fuel s text = some (nodes, s', rest)) :
    rest.length ≤ text.length :=
  (takes_pieces? (p := False) False.elim False.elim h).isSuffix.length_le

lemma length_atom?_le (h : atom? depth fuel s text = some (n, s', rest)) :
    rest.length ≤ text.length :=
  (takes_atom? (p := False) False.elim False.elim h).isSuffix.length_le

lemma length_condition?_le (h : condition? depth fuel s text = some (n, s', rest)) :
    rest.length ≤ text.length :=
  (takes_condition? (p := False) False.elim False.elim h).isSuffix.length_le

end Lengths

/-! ### Enough fuel -/

-- Induction on the fuel that was enough once. Of the functions that call each other before a
-- character is read, each keeps one more than those that it calls.
mutual

/-- What an alternation is with any fuel it is with enough. -/
lemma alternation?_of_le {depth fuel fuel' : ℕ} {s : ParserState} {text : Text}
    {r : Node × ParserState × Text} (h : alternation? depth fuel s text = some r)
    (hfuel : 8 * text.length + 3 ≤ fuel') : alternation? depth fuel' s text = some r := by
  match fuel, fuel', h, hfuel with
  | 0, _, h, _ => rw [alternation?] at h; cases h
  | fuel + 1, fuel' + 1, h, hfuel =>
    simp only [alternation?, Option.bind_eq_bind, Option.bind_eq_some_iff] at h ⊢
    obtain ⟨⟨parts, s₁, mid⟩, hpieces, inner, hskip, ⟨others, s₂, last⟩, hbranches, h⟩ := h
    have hmid := length_pieces?_le hpieces
    have hinner : inner.length ≤ mid.length := length_skip_le hskip
    exact ⟨_, pieces?_of_le hpieces (by omega), _, hskip, _,
      branches?_of_le hbranches (by omega), h⟩

/-- What some branches are with any fuel they are with enough. -/
lemma branches?_of_le {depth fuel fuel' : ℕ} {s : ParserState} {text : Text}
    {r : List Node × ParserState × Text} (h : branches? depth fuel s text = some r)
    (hfuel : 8 * text.length + 1 ≤ fuel') : branches? depth fuel' s text = some r := by
  match fuel, fuel', h, hfuel with
  | 0, _, h, _ => rw [branches?] at h; cases h
  | fuel + 1, fuel' + 1, h, hfuel =>
    unfold branches? at h ⊢
    split at h
    · next text =>
      simp only [Option.bind_eq_bind, Option.bind_eq_some_iff] at h ⊢
      obtain ⟨⟨parts, s₁, mid⟩, hpieces, inner, hskip, ⟨others, s₂, last⟩, hbranches, h⟩ := h
      have hmid := length_pieces?_le hpieces
      have hinner : inner.length ≤ mid.length := length_skip_le hskip
      rw [List.length_cons] at hfuel
      exact ⟨_, pieces?_of_le hpieces (by omega), _, hskip, _,
        branches?_of_le hbranches (by omega), h⟩
    · exact h

/-- What some pieces are with any fuel they are with enough. -/
lemma pieces?_of_le {depth fuel fuel' : ℕ} {s : ParserState} {text : Text}
    {r : List Node × ParserState × Text} (h : pieces? depth fuel s text = some r)
    (hfuel : 8 * text.length + 2 ≤ fuel') : pieces? depth fuel' s text = some r := by
  match fuel, fuel', h, hfuel with
  | 0, _, h, _ => rw [pieces?] at h; cases h
  | fuel + 1, fuel' + 1, h, hfuel =>
    simp only [pieces?, Option.bind_eq_bind, Option.bind_eq_some_iff] at h ⊢
    obtain ⟨inner, hskip, ⟨atom, s₁, mid⟩, hatom, ⟨node, after⟩, hquantified, h⟩ := h
    have hinner := length_skip_le hskip
    have hmid := length_atom?_le hatom
    have hafter : after.length ≤ mid.length := length_quantified?_le hquantified
    refine ⟨_, hskip, _, atom?_of_le hatom (by omega), _, hquantified, ?_⟩
    dsimp only at h ⊢
    split at h
    · next hlength => rwa [if_pos hlength]
    · next hlength =>
      obtain ⟨more, hmore, h⟩ := Option.bind_eq_some_iff.mp h
      rw [if_neg hlength]
      exact Option.bind_eq_some_iff.mpr ⟨more, pieces?_of_le hmore (by omega), h⟩

/-- What an atom is with any fuel it is with enough; only a group needs more than one. -/
lemma atom?_of_le {depth fuel fuel' : ℕ} {s : ParserState} {text : Text}
    {r : Node × ParserState × Text} (h : atom? depth fuel s text = some r)
    (hfuel : 8 * text.length + 1 ≤ fuel') : atom? depth fuel' s text = some r := by
  match fuel, fuel', h, hfuel with
  | 0, _, h, _ => rw [atom?] at h; cases h
  | fuel + 1, fuel' + 1, h, hfuel =>
    unfold atom? at h ⊢
    split at h
    case h_4 text =>
      rw [List.length_cons] at hfuel
      exact group?_of_le h (by omega)
    all_goals exact h

/-- What a group is with any fuel it is with enough. -/
lemma group?_of_le {depth fuel fuel' : ℕ} {s : ParserState} {text : Text}
    {r : Node × ParserState × Text} (h : group? depth fuel s text = some r)
    (hfuel : 8 * text.length + 5 ≤ fuel') : group? depth fuel' s text = some r := by
  match fuel, fuel', h, hfuel with
  | 0, _, h, _ => rw [group?] at h; cases h
  | fuel + 1, fuel' + 1, h, hfuel =>
    rw [group?] at h ⊢
    split at h
    · cases h
    next hdepth =>
    obtain ⟨signs, hskip, h⟩ := Option.bind_eq_some_iff.mp h
    obtain ⟨⟨kind, behind⟩, hkind, h⟩ := Option.bind_eq_some_iff.mp h
    have hsigns := length_skip_le hskip
    have hbehind := length_groupKind?_le hkind
    rw [if_neg hdepth]
    refine Option.bind_eq_some_iff.mpr ⟨signs, hskip, Option.bind_eq_some_iff.mpr ⟨_, hkind, ?_⟩⟩
    cases kind with
    | look _ | capture _ | atomic =>
      simp only [Option.bind_eq_bind, Option.bind_eq_some_iff] at h ⊢
      obtain ⟨body, hbody, h⟩ := h
      exact ⟨body, alternation?_of_le hbody (by omega), h⟩
    | reference => exact h
    | flags =>
      dsimp only at h ⊢
      split at h
      · cases h
      next hflag =>
      rw [if_neg hflag]
      simp only [Option.bind_eq_bind, Option.bind_eq_some_iff] at h ⊢
      obtain ⟨⟨colon, s₁, after⟩, hflags, h⟩ := h
      have hafter := length_flags?_le hflags
      refine ⟨_, hflags, ?_⟩
      dsimp only at h ⊢
      cases colon with
      | true =>
        obtain ⟨body, hbody, h⟩ := Option.bind_eq_some_iff.mp h
        exact Option.bind_eq_some_iff.mpr ⟨body, alternation?_of_le hbody (by omega), h⟩
      | false => exact h
    | conditional =>
      simp only [Option.bind_eq_bind, Option.bind_eq_some_iff] at h ⊢
      obtain ⟨⟨condition, s₁, mid⟩, hcondition, start, hclose, body, hbody, h⟩ := h
      have hmid := length_condition?_le hcondition
      have hstart : start.length ≤ mid.length := length_close?_le hclose
      exact ⟨_, condition?_of_le hcondition (by omega), _, hclose, _,
        alternation?_of_le hbody (by omega), h⟩

/-- What a condition is with any fuel it is with enough. -/
lemma condition?_of_le {depth fuel fuel' : ℕ} {s : ParserState} {text : Text}
    {r : Node × ParserState × Text} (h : condition? depth fuel s text = some r)
    (hfuel : 8 * text.length + 4 ≤ fuel') : condition? depth fuel' s text = some r := by
  match fuel, fuel', h, hfuel with
  | 0, _, h, _ => rw [condition?] at h; cases h
  | fuel + 1, fuel' + 1, h, hfuel =>
    unfold condition? at h ⊢
    split at h
    case h_3 c text _ _ =>
      split at h
      · next hdigit => rwa [if_pos hdigit]
      · next hdigit =>
        rw [if_neg hdigit]
        exact alternation?_of_le h (by omega)
    all_goals exact h

end

end WhenClause.Regex
