import WhenClause.Proofs.Regex.Brackets
import WhenClause.Regex.Parser

/-!
# Regexes without comments

Each function of the parser takes the head of a text and leaves the rest of it. A comment may open
a bracket that nothing closes, but without the sign of comments the parser takes a regex apart
where a reader of literals does, so a whole regex leaves him outside of escapes and classes
(`after_of_parse?`).
-/

namespace WhenClause.Regex

variable {c : Char} {text rest mid : Text} {p : Prop}
  {s s' : ParserState} {n : Node} {nodes : List Node}

/-! ### Gaps and quantifiers -/

lemma not_mem_of_cons {d : Char} (htext : p → c ∉ d :: text) : p → c ∉ text :=
  fun hp => List.not_mem_of_not_mem_cons (htext hp)

lemma Takes.sign (hc : IsInert c) (h : Takes .start p text rest) :
    Takes .start p (c :: text) rest :=
  .inert rfl hc h

lemma isSuffix_skipFrom {verbose : Bool} {gap : Gap} (h : skipFrom verbose gap text = some rest) :
    rest <:+ text := by
  fun_induction skipFrom verbose gap text <;> grind [List.IsSuffix.trans, List.suffix_cons]

/-- A gap without comments holds blanks only. -/
lemma takes_skipFrom {verbose : Bool} {gap : Gap} (hgap : gap = .outside) (htext : p → '#' ∉ text)
    (h : skipFrom verbose gap text = some rest) : Takes .start p text rest := by
  by_cases hp : p
  · replace htext := htext hp
    fun_induction skipFrom verbose gap text with
    | case1 rest ih => simp at htext
    | case2 c text _ hblank ih =>
      simp only [Bool.and_eq_true, Bool.or_eq_true, decide_eq_true_eq] at hblank
      refine .sign ?_ (ih rfl h (List.not_mem_of_not_mem_cons htext))
      rcases hblank.2 with ((rfl | rfl) | rfl) | rfl <;> decide
    | case3 c text _ _ hcomment ih =>
      simp only [Bool.and_eq_true, decide_eq_true_eq] at hcomment
      exact absurd (by rw [hcomment.2]; exact List.mem_cons_self ..) htext
    | case4 => cases h; exact .refl ..
    | case5 => cases h; exact .refl ..
    | _ => cases hgap
  · exact .of_not hp (isSuffix_skipFrom h)

lemma takes_skip (htext : p → '#' ∉ text) (h : s.skip text = some rest) :
    Takes .start p text rest :=
  takes_skipFrom rfl htext h

/-- A part and the gap behind it. -/
lemma Takes.skip (h : Takes .start p text mid) (htext : p → '#' ∉ text)
    (hskip : s.skip mid = some rest) : Takes .start p text rest :=
  h.trans (takes_skip (h.not_mem htext) hskip)

/-- A limit that may be left out. -/
lemma takes_getD_number? (default : ℕ) (text : Text) :
    Takes .start p text ((number? text).getD (default, text)).2 := by
  cases hnumber : number? text with
  | none => exact .refl ..
  | some limit => exact takes_number? rfl hnumber

lemma takes_limits? {low high : ℕ} (htext : p → '#' ∉ text)
    (h : s.limits? text = some (low, high, rest)) : Takes .start p text rest := by
  simp only [ParserState.limits?, Option.bind_eq_bind, Option.bind_eq_some_iff] at h
  obtain ⟨inner, hskip, h⟩ := h
  have hinner : Takes .start p text inner := takes_skip htext hskip
  split at h
  all_goals
    simp only [Option.bind_eq_some_iff] at h
    obtain ⟨⟨n, behind⟩, hlow, after, hskip', h⟩ := h
    have hbehind : Takes .start p text behind := hinner.trans (by
      first
        | exact takes_number? rfl hlow
        | cases hlow; exact .refl ..)
    have hafter := hbehind.skip htext hskip'
    dsimp only at h
    split at h
    · cases h
      exact hafter.trans (.sign (by decide) (.refl ..))
    · simp only [Option.bind_eq_some_iff] at h
      obtain ⟨more, hskip, last, hskip', h⟩ := h
      have hcomma := hafter.trans (.sign (by decide) (.refl ..))
      have hmore := (hcomma.skip htext hskip).trans (takes_getD_number? Node.noLimit more)
      have hlast := hmore.skip htext hskip'
      split at h
      · cases h
        exact hlast.trans (.sign (by decide) (.refl ..))
      · cases h
    · cases h

lemma takes_quantifier? {low high : ℕ} (htext : p → '#' ∉ text)
    (h : s.quantifier? text = some (low, high, rest)) : Takes .start p text rest := by
  unfold ParserState.quantifier? at h
  split at h
  · cases h
    exact .sign (by decide) (.refl ..)
  · cases h
    exact .sign (by decide) (.refl ..)
  · cases h
    exact .sign (by decide) (.refl ..)
  · exact .sign (by decide) (takes_limits? (not_mem_of_cons htext) h)
  · cases h

/-- The sign that may make a quantifier lazy. -/
lemma takes_lazySign (text : Text) :
    Takes .start p text (match text with | '?' :: rest => rest | _ => text) := by
  split
  · exact .sign (by decide) (.refl ..)
  · exact .refl ..

lemma takes_quantified? {node : Node} (htext : p → '#' ∉ text)
    (h : s.quantified? node text = some (n, rest)) : Takes .start p text rest := by
  simp only [ParserState.quantified?, Option.bind_eq_bind, Option.bind_eq_some_iff] at h
  obtain ⟨inner, hskip, h⟩ := h
  have hinner : Takes .start p text inner := takes_skip htext hskip
  split at h
  · cases h
    exact hinner
  · next low high behind hquantifier =>
    split_ifs at h
    obtain ⟨after, hskip', h⟩ := Option.bind_eq_some_iff.mp h
    have hbehind := hinner.trans (takes_quantifier? (hinner.not_mem htext) hquantifier)
    have hafter := hbehind.skip htext hskip'
    split at h
    · next last hplus =>
      cases h
      have hpossessive : Takes .start p text ('+' :: rest) := by
        rw [← hplus]
        exact hafter.trans (takes_lazySign after)
      exact hpossessive.trans (.sign (by decide) (.refl ..))
    · cases h
      exact hafter.trans (takes_lazySign after)

/-- A quantifier leaves the sets of the node that it repeats. -/
lemma setsExist_of_quantified? {node : Node} (h : s.quantified? node text = some (n, rest)) :
    n.setsExist = node.setsExist := by
  simp only [ParserState.quantified?, Option.bind_eq_bind, Option.bind_eq_some_iff] at h
  obtain ⟨inner, -, h⟩ := h
  split at h
  · cases h
    rfl
  · split_ifs at h
    obtain ⟨after, -, h⟩ := Option.bind_eq_some_iff.mp h
    split at h <;> cases h <;> rfl

lemma takes_flags? {negated colon : Bool} {fuel : ℕ} (htext : p → '#' ∉ text)
    (h : ParserState.flags? negated fuel s text = some (colon, s', rest)) :
    Takes .start p text rest := by
  induction fuel generalizing negated s text with
  | zero => cases h
  | succ fuel ih =>
    simp only [ParserState.flags?, Option.bind_eq_bind, Option.bind_eq_some_iff] at h
    obtain ⟨inner, hskip, h⟩ := h
    have hinner : Takes .start p text inner := takes_skip htext hskip
    have hnot := hinner.not_mem htext
    refine hinner.trans ?_
    split at h
    · cases h
      exact .sign (by decide) (.refl ..)
    · cases h
      exact .sign (by decide) (.refl ..)
    · split_ifs at h
      exact .sign (by decide) (ih (not_mem_of_cons hnot) h)
    · split_ifs at h
      exact .sign (by decide) (ih (not_mem_of_cons hnot) h)
    · exact .sign (by decide) (ih (not_mem_of_cons hnot) h)
    · split_ifs at h with hflag
      refine .sign ?_ (ih (not_mem_of_cons hnot) h)
      exact forall_mem_isInert (by decide) _ hflag
    · cases h

lemma takes_groupKind? {kind : GroupKind} (h : groupKind? text = some (kind, rest)) :
    Takes .start p text rest := by
  unfold groupKind? at h
  split at h
  -- the name of a capture group follows its signs
  case h_5 | h_6 =>
    obtain ⟨⟨name, behind⟩, hname, hpair⟩ := Option.map_eq_some_iff.mp h
    cases hpair
    have hbehind : Takes .start p _ rest := takes_name? rfl (by decide) hname
    repeat refine .sign (by decide) ?_
    exact hbehind
  all_goals
    cases h
    repeat refine .sign (by decide) ?_
    exact .refl ..

lemma takes_close? (htext : p → '#' ∉ text) (h : s.close? text = some rest) :
    Takes .start p text rest := by
  simp only [ParserState.close?, Option.bind_eq_bind, Option.bind_eq_some_iff] at h
  obtain ⟨inner, hskip, h⟩ := h
  have hinner : Takes .start p text inner := takes_skip htext hskip
  split at h
  · cases h
    exact hinner.trans (.sign (by decide) (.refl ..))
  · cases h

/-- A part that a parenthesis closes. -/
lemma Takes.close (h : Takes .start p text mid) (htext : p → '#' ∉ text)
    (hclose : s.close? mid = some rest) : Takes .start p text rest :=
  h.trans (takes_close? (h.not_mem htext) hclose)

/-! ### Nodes put together -/

namespace Node

lemma setsExist_ofParts (parts : List Node) : (ofParts parts).setsExist = allSetsExist parts := by
  unfold ofParts
  split <;> simp [setsExist, allSetsExist]

lemma setsExist_ofBranches (branches : List Node) :
    (ofBranches branches).setsExist = allSetsExist branches := by
  unfold ofBranches
  split <;> simp [setsExist, allSetsExist]

lemma setsExist_of_isEmpty (h : n.isEmpty = true) : n.setsExist = true := by
  cases n <;> first | rfl | cases h

end Node

lemma setsExist_of_ite_isEmpty {condition yes no : Node}
    (h : (if yes.isEmpty && no.isEmpty then condition
      else .conditional condition yes no).setsExist = true) :
    condition.setsExist = true ∧ yes.setsExist = true ∧ no.setsExist = true := by
  split_ifs at h with hempty
  · rw [Bool.and_eq_true] at hempty
    exact ⟨h, Node.setsExist_of_isEmpty hempty.1, Node.setsExist_of_isEmpty hempty.2⟩
  · simpa only [Node.setsExist, Bool.and_eq_true, and_assoc] using h

/-- A conditional has the sets of its condition and of its branches. -/
lemma setsExist_of_conditionalOf {condition body : Node}
    (h : (conditionalOf condition body).setsExist = true) :
    condition.setsExist = true ∧ body.setsExist = true := by
  unfold conditionalOf at h
  dsimp only at h
  split at h
  · next yes others =>
    obtain ⟨hcondition, hyes, hno⟩ := setsExist_of_ite_isEmpty h
    rw [Node.setsExist_ofBranches] at hno
    refine ⟨by cases condition <;> exact hcondition, ?_⟩
    rw [Node.setsExist, Node.allSetsExist, hyes, hno, Bool.and_self]
  · obtain ⟨hcondition, hyes, -⟩ := setsExist_of_ite_isEmpty h
    exact ⟨by cases condition <;> exact hcondition, hyes⟩

lemma allSetsExist_cons_ofParts {parts others : List Node} :
    Node.allSetsExist (.ofParts parts :: others) = true ↔
      Node.allSetsExist parts = true ∧ Node.allSetsExist others = true := by
  rw [Node.allSetsExist, Bool.and_eq_true, Node.setsExist_ofParts]

lemma allSetsExist_of_ite_isEmpty
    (h : Node.allSetsExist (if n.isEmpty then nodes else n :: nodes) = true) :
    n.setsExist = true ∧ Node.allSetsExist nodes = true := by
  split_ifs at h with hempty
  · exact ⟨Node.setsExist_of_isEmpty hempty, h⟩
  · rwa [Node.allSetsExist, Bool.and_eq_true] at h

/-! ### The parser -/

-- Induction on the fuel. A reader is followed only if the sets of the node exist, since the name of
-- a bad property may hold any bracket. The state and the text change from call to call.
mutual

/-- What an alternation takes leaves a reader outside of escapes and classes. -/
lemma takes_alternation? {p : Prop} {depth fuel : ℕ} {s s' : ParserState} {text rest : Text}
    {n : Node} (htext : p → '#' ∉ text) (hset : p → n.setsExist = true)
    (h : alternation? depth fuel s text = some (n, s', rest)) : Takes .start p text rest := by
  match fuel, h with
  | 0, h => rw [alternation?] at h; cases h
  | fuel + 1, h =>
    simp only [alternation?, Option.bind_eq_bind, Option.bind_eq_some_iff] at h
    obtain ⟨⟨parts, s₁, mid⟩, hpieces, inner, hskip, ⟨others, s₂, last⟩, hbranches, h⟩ := h
    have hbranch (hsets : p → Node.allSetsExist (.ofParts parts :: others) = true) :
        Takes .start p text last := by
      have hboth hp := allSetsExist_cons_ofParts.mp (hsets hp)
      have hinner := (takes_pieces? htext (fun hp => (hboth hp).1) hpieces).skip htext hskip
      exact hinner.trans
        (takes_branches? (hinner.not_mem htext) (fun hp => (hboth hp).2) hbranches)
    split_ifs at h with hempty
    · cases h
      obtain rfl := List.isEmpty_iff.mp hempty
      refine hbranch fun hp => ?_
      rw [Node.allSetsExist, hset hp]
      rfl
    · cases h
      exact hbranch hset

/-- What the branches behind bars take. -/
lemma takes_branches? {p : Prop} {depth fuel : ℕ} {s s' : ParserState} {text rest : Text}
    {nodes : List Node} (htext : p → '#' ∉ text) (hset : p → Node.allSetsExist nodes = true)
    (h : branches? depth fuel s text = some (nodes, s', rest)) : Takes .start p text rest := by
  match fuel, h with
  | 0, h => rw [branches?] at h; cases h
  | fuel + 1, h =>
    unfold branches? at h
    split at h
    · next text =>
      simp only [Option.bind_eq_bind, Option.bind_eq_some_iff] at h
      obtain ⟨⟨parts, s₁, mid⟩, hpieces, inner, hskip, ⟨others, s₂, _⟩, hbranches, h⟩ := h
      cases h
      have htext := not_mem_of_cons htext
      have hboth hp := allSetsExist_cons_ofParts.mp (hset hp)
      have hinner := (takes_pieces? htext (fun hp => (hboth hp).1) hpieces).skip htext hskip
      exact .sign (by decide) (hinner.trans
        (takes_branches? (hinner.not_mem htext) (fun hp => (hboth hp).2) hbranches))
    · cases h
      exact .refl ..

/-- What the pieces of a branch take. -/
lemma takes_pieces? {p : Prop} {depth fuel : ℕ} {s s' : ParserState} {text rest : Text}
    {nodes : List Node} (htext : p → '#' ∉ text) (hset : p → Node.allSetsExist nodes = true)
    (h : pieces? depth fuel s text = some (nodes, s', rest)) : Takes .start p text rest := by
  match fuel, h with
  | 0, h => rw [pieces?] at h; cases h
  | fuel + 1, h =>
    simp only [pieces?, Option.bind_eq_bind, Option.bind_eq_some_iff] at h
    obtain ⟨inner, hskip, ⟨atom, s₁, mid⟩, hatom, ⟨node, after⟩, hquantified, h⟩ := h
    dsimp only at h
    split at h
    · cases h
      exact .refl ..
    · obtain ⟨⟨more, s₂, _⟩, hmore, h⟩ := Option.bind_eq_some_iff.mp h
      cases h
      have hboth hp := allSetsExist_of_ite_isEmpty (hset hp)
      have hatomSets : p → atom.setsExist = true := fun hp =>
        (setsExist_of_quantified? hquantified).symm.trans (hboth hp).1
      have hinner : Takes .start p text inner := takes_skip htext hskip
      have hmid := hinner.trans (takes_atom? (hinner.not_mem htext) hatomSets hatom)
      have hafter := hmid.trans (takes_quantified? (hmid.not_mem htext) hquantified)
      exact hafter.trans
        (takes_pieces? (hafter.not_mem htext) (fun hp => (hboth hp).2) hmore)

/-- What an atom takes: a character, or what begins with a backslash, a bracket or a parenthesis. -/
lemma takes_atom? {p : Prop} {depth fuel : ℕ} {s s' : ParserState} {text rest : Text} {n : Node}
    (htext : p → '#' ∉ text) (hset : p → n.setsExist = true)
    (h : atom? depth fuel s text = some (n, s', rest)) : Takes .start p text rest := by
  match fuel, h with
  | 0, h => rw [atom?] at h; cases h
  | fuel + 1, h =>
    unfold atom? at h
    split at h
    · cases h
      exact .refl ..
    · next text =>
      simp only [Option.bind_eq_bind, Option.bind_eq_some_iff] at h
      obtain ⟨⟨escape, s₁, after⟩, hescape, h⟩ := h
      cases h
      exact (takes_escape? rfl hescape).imp hset
    · exact (takes_class? h).imp hset
    · exact .sign (by decide) (takes_group? (not_mem_of_cons htext) hset h)
    · next hslash hbracket _ _ =>
      have hc := Mode.next_start_of_ne hslash hbracket
      split_ifs at h <;> cases h
      exacts [.refl .., .cons hc (.refl ..), .cons hc (.refl ..)]

/-- What a group takes behind its parenthesis. -/
lemma takes_group? {p : Prop} {depth fuel : ℕ} {s s' : ParserState} {text rest : Text} {n : Node}
    (htext : p → '#' ∉ text) (hset : p → n.setsExist = true)
    (h : group? depth fuel s text = some (n, s', rest)) : Takes .start p text rest := by
  match fuel, h with
  | 0, h => rw [group?] at h; cases h
  | fuel + 1, h =>
    rw [group?] at h
    split at h
    · cases h
    obtain ⟨signs, hskip, h⟩ := Option.bind_eq_some_iff.mp h
    obtain ⟨⟨kind, behind⟩, hkind, h⟩ := Option.bind_eq_some_iff.mp h
    have hbehind : Takes .start p text behind :=
      (takes_skip htext hskip).trans (takes_groupKind? hkind)
    have hnot := hbehind.not_mem htext
    refine hbehind.trans ?_
    cases kind with
    | look _ | capture _ | atomic =>
      simp only [Option.bind_eq_bind, Option.bind_eq_some_iff] at h
      obtain ⟨⟨body, s₁, mid⟩, hbody, after, hclose, h⟩ := h
      cases h
      have hbodySets : p → body.setsExist = true := hset
      exact (takes_alternation? hnot hbodySets hbody).close hnot hclose
    | reference =>
      simp only [Option.bind_eq_bind, Option.bind_eq_some_iff] at h
      obtain ⟨⟨node, after⟩, hreference, h⟩ := h
      cases h
      exact takes_namedReference? rfl (by decide) hreference
    | flags =>
      dsimp only at h
      split at h
      · cases h
      simp only [Option.bind_eq_bind, Option.bind_eq_some_iff] at h
      obtain ⟨⟨colon, s₁, after⟩, hflags, h⟩ := h
      have hafter := takes_flags? hnot hflags
      split at h
      · obtain ⟨⟨body, s₂, last⟩, hbody, h⟩ := Option.bind_eq_some_iff.mp h
        split at h
        · next hlast =>
          cases h
          dsimp only at hlast
          subst hlast
          exact (hafter.trans (takes_alternation? (hafter.not_mem hnot) hset hbody)).trans
            (.sign (by decide) (.refl ..))
        · cases h
      · cases h
        exact hafter
    | conditional =>
      simp only [Option.bind_eq_bind, Option.bind_eq_some_iff] at h
      obtain ⟨⟨condition, s₁, mid⟩, hcondition, start, hclose, ⟨body, s₂, last⟩, hbody, h⟩ := h
      split at h
      · next hlength =>
        -- nothing was taken, and the condition alone stands
        have hlast := takes_alternation? (p := False) False.elim False.elim hbody
        obtain rfl := hlast.eq_of_length_eq hlength
        cases condition with
        | backreference group =>
          obtain ⟨after, hclose', h⟩ := Option.bind_eq_some_iff.mp h
          cases h
          have hstart := (takes_condition? hnot (fun _ => rfl) hcondition).close hnot hclose
          exact hstart.close hnot hclose'
        | _ => cases h
      · obtain ⟨after, hclose', h⟩ := Option.bind_eq_some_iff.mp h
        cases h
        have hboth hp := setsExist_of_conditionalOf (hset hp)
        have hstart :=
          (takes_condition? hnot (fun hp => (hboth hp).1) hcondition).close hnot hclose
        have hlast := hstart.trans
          (takes_alternation? (hstart.not_mem hnot) (fun hp => (hboth hp).2) hbody)
        exact hlast.close hnot hclose'

/-- What a condition takes: a reference, or a regex. -/
lemma takes_condition? {p : Prop} {depth fuel : ℕ} {s s' : ParserState} {text rest : Text}
    {n : Node} (htext : p → '#' ∉ text) (hset : p → n.setsExist = true)
    (h : condition? depth fuel s text = some (n, s', rest)) : Takes .start p text rest := by
  match fuel, h with
  | 0, h => rw [condition?] at h; cases h
  | fuel + 1, h =>
    unfold condition? at h
    split at h
    case h_4 => cases h
    case h_3 =>
      split_ifs at h
      · obtain ⟨k, hnumber⟩ := exists_number?_of_numberedReference? h
        exact takes_number? rfl hnumber
      · exact takes_alternation? htext hset h
    all_goals
      obtain ⟨⟨node, behind⟩, hreference, hpair⟩ := Option.map_eq_some_iff.mp h
      cases hpair
      exact .sign (by decide) (takes_namedReference? rfl (by decide) hreference)

end

/-! ### Whole regexes -/

/-- A regex without the sign of comments closes its escapes and classes. -/
lemma after_of_parse? (htext : '#' ∉ text) (h : parse? text = some n) (hset : n.setsExist = true) :
    Mode.start.after text = .start := by
  unfold parse? at h
  split at h
  · next hparsed =>
    cases h
    obtain ⟨read, rfl, hread⟩ :=
      takes_alternation? (p := True) (fun _ => htext) (fun _ => hset) hparsed
    rw [List.append_nil]
    exact hread trivial
  · cases h

end WhenClause.Regex
