import WhenClause.Proofs.Scan.Spans
import WhenClause.Scan.Scanner

/-!
# Scanning on demand and at once

A scanner can be asked for its next token, for the next element of its sequence, or for all that is
left of the sequence, in any order. Whatever the calls, the tokens that they hand out are those of the
whole scan, the last of them again and again, and the errors found so far are those before the token
handed out last (`Scanner.run_eq_tokenize`). The invariant is `Scanner.HasHanded`: the pieces of the
text are those passed and those ahead, and what has been handed out is told by those passed.
-/

namespace WhenClause

/-- The tokens among some pieces. -/
def tokensOf (ps : List Placed) : List Token := (ps.filterMap Placed.token?).map (·.toToken)

lemma tokensOf_append (ps qs : List Placed) : tokensOf (ps ++ qs) = tokensOf ps ++ tokensOf qs := by
  simp [tokensOf]

namespace Scanner

/-! ### Calls -/

/-- A call on a scanner. -/
inductive Call where
  /-- for the next token -/
  | nextToken
  /-- for the next element of the sequence -/
  | next
  /-- for all that is left of the sequence -/
  | drain

/-- What a call returns. -/
inductive Answer where
  | token (t : Token)
  | element (t? : Option Token)
  | elements (ts : List Token)

namespace Answer

/-- The tokens that are handed out. -/
def tokens : Answer → List Token
  | token t     => [t]
  | element t?  => t?.toList
  | elements ts => ts

/-- Whether the end is handed out as an element of the sequence. -/
def endsSequence : Answer → Bool
  | token _     => false
  | element t?  => t?.any (·.kind = .eof)
  | elements ts => ts.any (·.kind = .eof)

end Answer

/-- The answer to a call, and the scanner after it. -/
def call (s : Scanner) : Call → Answer × Scanner
  | .nextToken => (.token s.nextToken.1, s.nextToken.2)
  | .next      => (.element s.next.1, s.next.2)
  | .drain     => (.elements s.drain.1, s.drain.2)

/-- The answers to some calls, one after the other, and the scanner after them. -/
def run (s : Scanner) : List Call → List Answer × Scanner
  | []      => ([], s)
  | c :: cs => ((s.call c).1 :: ((s.call c).2.run cs).1, ((s.call c).2.run cs).2)

/-- The pieces that a scanner has not passed. -/
def ahead (s : Scanner) : List Placed := piecesFrom 0 s.offset s.rest

lemma next_of_finished {s : Scanner} (h : s.finished = true) : s.next = (none, s) := by
  rw [next, if_pos h]

lemma next_of_not_finished {s : Scanner} (h : s.finished = false) :
    s.next = (some s.nextToken.1,
      { s.nextToken.2 with finished := decide (s.nextToken.1.kind = .eof) }) := by
  rw [next, if_neg (by simp [h])]

/-! ### One token -/

/-- For one more token of a text, some pieces are passed and others stay ahead: what is passed are
errors and then the token, or only errors where nothing stays ahead. -/
inductive HandsOut (length : Nat) : List Placed → Token → List Placed → Prop
  | token {faults ahead : List Placed} {p : Placed} {t : Token.Spaced}
    (hfaults : tokensOf faults = []) (hp : p.token? = some t) :
    HandsOut length (faults ++ [p]) t.toToken ahead
  | ending {faults : List Placed} (hfaults : tokensOf faults = []) :
    HandsOut length faults (.endOf length) []

variable {length : Nat} {passed ahead : List Placed} {t : Token}

/-- An error at the head is passed first. -/
lemma HandsOut.cons_error {p : Placed} (h : HandsOut length passed t ahead)
    (hp : p.token? = none) : HandsOut length (p :: passed) t ahead := by
  have hcons : ∀ faults, tokensOf faults = [] → tokensOf (p :: faults) = [] := by
    intro faults hfaults
    rw [tokensOf] at hfaults ⊢
    rwa [List.filterMap_cons_none hp]
  cases h with
  | token hfaults hp' => exact .token (hcons _ hfaults) hp'
  | ending hfaults => exact .ending (hcons _ hfaults)

/-- Advancing over a text passes some of its pieces and records the errors among them. -/
lemma exists_passed_of_advance {skip offset offset' : Nat} {errors errors' : List ScanError}
    {text rest : Text} (h : advance skip offset errors text = (t, rest, offset', errors')) :
    ∃ passed, piecesFrom skip offset text = passed ++ piecesFrom 0 offset' rest ∧
      errors' = errors ++ passed.filterMap Placed.error? ∧
      offset' + rest.length = offset + text.length ∧
      HandsOut (offset + text.length) passed t (piecesFrom 0 offset' rest) := by
  fun_induction advance skip offset errors text with
  | case1 skip offset errors =>
    obtain ⟨rfl, rfl, rfl, rfl⟩ : Token.endOf offset = t ∧ [] = rest ∧ offset = offset' ∧
      errors = errors' := by simpa using h
    cases skip <;> exact ⟨[], rfl, (List.append_nil _).symm, rfl, .ending rfl⟩
  | case2 skip offset errors c text ih =>
    obtain ⟨passed, hpieces, herrors, hlength, hands⟩ := ih h
    rw [List.length_cons, show offset + (text.length + 1) = offset + 1 + text.length by omega]
    exact ⟨passed, hpieces, herrors, hlength, hands⟩
  | case3 offset errors c text hc ih =>
    obtain ⟨passed, hpieces, herrors, hlength, hands⟩ := ih h
    rw [piecesFrom, if_pos hc, List.length_cons,
      show offset + (text.length + 1) = offset + 1 + text.length by omega]
    exact ⟨passed, hpieces, herrors, hlength, hands⟩
  | case4 offset errors c text hc piece kind hkind =>
    obtain ⟨rfl, rfl, rfl, rfl⟩ : ⟨kind, Placed.lexemeOf kind piece.span, offset⟩ = t ∧
      piece.rest = rest ∧ offset + piece.span.length = offset' ∧ errors = errors' := by simpa using h
    have hpiece : Piece.ofText c text = ⟨.ok kind, piece.span, piece.rest⟩ := by rw [← hkind]
    have hlength : piece.span.length + piece.rest.length = (c :: text).length := by
      rw [← List.length_append, Piece.span_append_rest]
    refine ⟨[⟨.ok kind, piece.span, offset, trailOf piece.rest⟩],
      piecesFrom_piece (by simpa using hc) hpiece, (List.append_nil _).symm, by omega, ?_⟩
    have htoken : Placed.token? ⟨.ok kind, piece.span, offset, trailOf piece.rest⟩ =
      some ⟨⟨kind, Placed.lexemeOf kind piece.span, offset⟩, trailOf piece.rest⟩ := rfl
    exact .token (show tokensOf [] = [] from rfl) htoken
  | case5 offset errors c text hc piece fault hkind ih =>
    obtain ⟨passed, hpieces, herrors, hlength, hands⟩ := ih h
    rw [List.length_cons, show offset + (text.length + 1) = offset + 1 + text.length by omega]
    refine ⟨⟨piece.kind, piece.span, offset, trailOf piece.rest⟩ :: passed, ?_, ?_, hlength,
      hands.cons_error ?_⟩
    · rw [piecesFrom, if_neg hc, List.cons_append, ← hpieces]
    · rw [herrors, hkind]
      simp [Placed.error?]
    · rw [hkind]
      rfl

/-! ### What has been handed out -/

/-- What has been handed out of a text, where some pieces are passed and others are ahead: nothing at
first, then the tokens among the pieces that are passed, of which the last is such a token, and
where no piece is ahead also the end, any number of times. -/
inductive Handed (length : Nat) : List Placed → List Placed → List Token → Prop
  | start (ahead : List Placed) : Handed length [] ahead []
  | token {before ahead : List Placed} {p : Placed} {t : Token.Spaced} (hp : p.token? = some t) :
    Handed length (before ++ [p]) ahead (tokensOf (before ++ [p]))
  | ending (past : List Placed) (n : Nat) :
    Handed length past [] (tokensOf past ++ List.replicate (n + 1) (.endOf length))

variable {past : List Placed} {handed : List Token}

lemma tokensOf_token {p : Placed} {t : Token.Spaced} (hp : p.token? = some t) :
    tokensOf [p] = [t.toToken] := by
  simp [tokensOf, hp]

lemma tokensOf_append_faults {faults : List Placed} (hfaults : tokensOf faults = []) :
    tokensOf (past ++ faults) = tokensOf past := by
  rw [tokensOf_append, hfaults, List.append_nil]

/-- A token more is handed out. -/
lemma Handed.handsOut (h : Handed length past (passed ++ ahead) handed)
    (hands : HandsOut length passed t ahead) :
    Handed length (past ++ passed) ahead (handed ++ [t]) := by
  generalize hall : passed ++ ahead = all at h
  cases hands with
  | @token faults _ p t hfaults hp =>
    have hpassed : tokensOf (faults ++ [p]) = [t.toToken] := by
      rw [tokensOf_append, hfaults, tokensOf_token hp, List.nil_append]
    -- as a piece is ahead, the end has not been handed out
    cases h with
    | start =>
      rw [List.nil_append, List.nil_append, ← hpassed]
      exact .token hp
    | @token before _ q =>
      rw [← hpassed, ← tokensOf_append, ← List.append_assoc]
      exact .token hp
    | ending => simp at hall
  | ending hfaults =>
    cases h with
    | start =>
      have hending : Handed length passed [] (tokensOf passed ++ [.endOf length]) :=
        .ending passed 0
      rwa [hfaults] at hending
    | @token before _ q =>
      rw [← tokensOf_append_faults hfaults]
      exact .ending _ 0
    | ending past n =>
      obtain rfl : passed = [] := by simpa using hall
      rw [List.append_nil, List.append_assoc, ← List.replicate_succ']
      exact .ending past (n + 1)

/-! ### Any calls -/

/-- The invariant of a scanner of a text: it has handed out some tokens, and its errors are those
that it has passed. -/
structure HasHanded (text : Text) (handed : List Token) (s : Scanner) : Prop where
  length_eq : s.offset + s.rest.length = text.length
  exists_past : ∃ past, pieces text = past ++ s.ahead ∧
    s.errors = past.filterMap Placed.error? ∧ Handed text.length past s.ahead handed

variable {text : Text} {s : Scanner}

lemma hasHanded_ofText (text : Text) : HasHanded text [] (ofText text) :=
  ⟨Nat.zero_add _, [], rfl, rfl, .start _⟩

lemma HasHanded.nextToken (h : HasHanded text handed s) :
    HasHanded text (handed ++ [s.nextToken.1]) s.nextToken.2 := by
  obtain ⟨hlength, past, hpieces, herrors, hhanded⟩ := h
  obtain ⟨passed, hahead, herrors', hlength', hands⟩ :=
    exists_passed_of_advance (show advance 0 s.offset s.errors s.rest = _ from rfl)
  have hsplit : s.ahead = passed ++ s.nextToken.2.ahead := hahead
  rw [hlength] at hlength' hands
  rw [hsplit] at hpieces hhanded
  refine ⟨hlength', past ++ passed, by rw [hpieces, List.append_assoc], ?_, hhanded.handsOut hands⟩
  rw [List.filterMap_append, ← herrors]
  exact herrors'

lemma HasHanded.next (h : HasHanded text handed s) :
    HasHanded text (handed ++ s.next.1.toList) s.next.2 := by
  cases hfinished : s.finished with
  | true =>
    rw [next_of_finished hfinished]
    simpa using h
  | false =>
    obtain ⟨hlength, hpast⟩ := h.nextToken
    rw [next_of_not_finished hfinished]
    exact ⟨hlength, hpast⟩

lemma HasHanded.drainWith (h : HasHanded text handed s) (fuel : Nat) :
    HasHanded text (handed ++ (drainWith fuel s).1) (drainWith fuel s).2 := by
  induction fuel generalizing handed s with
  | zero => simpa [Scanner.drainWith] using h
  | succ fuel ih =>
    have hnext := h.next
    rw [Scanner.drainWith]
    split
    · rename_i s' heq
      rw [heq] at hnext
      simpa using hnext
    · rename_i t s' heq
      rw [heq] at hnext
      have hdrain := ih hnext
      simpa using hdrain

lemma HasHanded.call (h : HasHanded text handed s) (c : Call) :
    HasHanded text (handed ++ (s.call c).1.tokens) (s.call c).2 := by
  cases c with
  | nextToken => exact h.nextToken
  | next => exact h.next
  | drain => exact h.drainWith _

lemma HasHanded.run (h : HasHanded text handed s) (cs : List Call) :
    HasHanded text (handed ++ (s.run cs).1.flatMap Answer.tokens) (s.run cs).2 := by
  induction cs generalizing handed s with
  | nil => simpa [Scanner.run] using h
  | cons c cs ih =>
    have hrun := ih (h.call c)
    rwa [List.append_assoc] at hrun

/-! ### The end of the sequence -/

lemma finished_next (s : Scanner) :
    s.next.2.finished = (s.finished || (Answer.element s.next.1).endsSequence) := by
  cases hfinished : s.finished with
  | true => rw [next_of_finished hfinished, hfinished, Bool.true_or]
  | false => rw [next_of_not_finished hfinished, Bool.false_or, Answer.endsSequence, Option.any_some]

lemma finished_drainWith (fuel : Nat) (s : Scanner) :
    (drainWith fuel s).2.finished =
      (s.finished || (Answer.elements (drainWith fuel s).1).endsSequence) := by
  induction fuel generalizing s with
  | zero => simp [drainWith, Answer.endsSequence]
  | succ fuel ih =>
    have hnext := finished_next s
    rw [drainWith]
    split
    · rename_i s' heq
      rw [heq] at hnext
      exact hnext
    · rename_i t s' heq
      rw [heq] at hnext
      dsimp only
      rw [ih s', hnext, Bool.or_assoc]
      rfl

lemma finished_call (s : Scanner) (c : Call) :
    (s.call c).2.finished = (s.finished || (s.call c).1.endsSequence) := by
  cases c with
  | nextToken => exact (Bool.or_false _).symm
  | next => exact finished_next s
  | drain => exact finished_drainWith _ s

/-- The sequence is over once a call on it has handed out the end. -/
lemma finished_run (s : Scanner) (cs : List Call) :
    (s.run cs).2.finished = (s.finished || (s.run cs).1.any Answer.endsSequence) := by
  induction cs generalizing s with
  | nil => exact (Bool.or_false _).symm
  | cons c cs ih => rw [run, ih, finished_call, Bool.or_assoc, List.any_cons]

lemma next_eq_none_iff : s.next.1 = none ↔ s.finished = true := by
  cases hfinished : s.finished with
  | true => simp [next_of_finished hfinished]
  | false => simp [next_of_not_finished hfinished]

/-- A token other than the end takes a character of the text at least. -/
lemma rest_lt_of_advance {skip offset : Nat} {errors : List ScanError} {text : Text}
    (h : (advance skip offset errors text).1.kind ≠ .eof) :
    (advance skip offset errors text).2.1.length < text.length := by
  fun_induction advance skip offset errors text with
  | case1 => exact absurd rfl h
  | case2 _ _ _ _ _ ih => exact (ih h).trans (Nat.lt_succ_self _)
  | case3 _ _ _ _ _ ih => exact (ih h).trans (Nat.lt_succ_self _)
  | case4 _ _ c text _ piece =>
    have happend : piece.span.length + piece.rest.length = (c :: text).length := by
      rw [← List.length_append, Piece.span_append_rest]
    have hpos : 0 < piece.span.length := List.length_pos_iff.mpr (Piece.span_ne_nil c text)
    dsimp only
    omega
  | case5 _ _ _ _ _ _ _ _ ih => exact (ih h).trans (Nat.lt_succ_self _)

/-- A drain goes on until the sequence is over. -/
lemma finished_drainWith_of_lt {fuel : Nat} (h : s.rest.length < fuel) :
    (drainWith fuel s).2.finished = true := by
  induction fuel generalizing s with
  | zero => exact absurd h (Nat.not_lt_zero _)
  | succ fuel ih =>
    cases hfinished : s.finished with
    | true => rw [finished_drainWith, hfinished, Bool.true_or]
    | false =>
      rw [drainWith, next_of_not_finished hfinished]
      dsimp only
      by_cases hkind : s.nextToken.1.kind = .eof
      · rw [finished_drainWith, decide_eq_true hkind, Bool.true_or]
      · have hlt : s.nextToken.2.rest.length < s.rest.length := rest_lt_of_advance hkind
        exact ih (by dsimp only; omega)

/-! ### The whole scan -/

lemma tokenize_tokens (text : Text) :
    (tokenize text).1 = tokensOf (pieces text) ++ [.endOf text.length] := rfl

/-- What has been handed out are the tokens of the text, the last of them again and again. -/
lemma Handed.getElem?_eq (hpieces : pieces text = past ++ ahead)
    (h : Handed text.length past ahead handed) {i : Nat} (hi : i < handed.length) :
    handed[i]? = (tokenize text).1[min i ((tokenize text).1.length - 1)]? := by
  rw [tokenize_tokens, hpieces, tokensOf_append, List.length_append, List.length_singleton,
    Nat.add_sub_cancel]
  cases h with
  | start => exact absurd hi (Nat.not_lt_zero i)
  | token =>
    rw [List.append_assoc, List.length_append, Nat.min_eq_left (by omega),
      List.getElem?_append_left hi]
  | ending =>
    rw [show tokensOf [] = [] from rfl, List.append_nil]
    rcases Nat.lt_or_ge i (tokensOf past).length with hlt | hge
    · rw [Nat.min_eq_left hlt.le, List.getElem?_append_left hlt, List.getElem?_append_left hlt]
    · rw [List.length_append, List.length_replicate] at hi
      rw [Nat.min_eq_right hge, List.getElem?_append_right hge, List.getElem?_append_right le_rfl,
        Nat.sub_self, List.getElem?_replicate_of_lt (by omega), List.getElem?_cons_zero]

lemma error?_eq_none_of_token? {p : Placed} {t : Token.Spaced} (h : p.token? = some t) :
    p.error? = none := by
  rw [Placed.token?] at h
  rw [Placed.error?]
  split at h
  · rfl
  · cases h

/-- The errors before an offset are those of the pieces before it. -/
lemma filter_scanErrors (hpieces : pieces text = past ++ ahead) {n : Nat}
    (hpast : ∀ p ∈ past, ∀ e, p.error? = some e → p.offset < n)
    (hahead : ∀ p ∈ ahead, n ≤ p.offset) :
    (scanErrors text).filter (·.offset < n) = past.filterMap Placed.error? := by
  rw [scanErrors, hpieces, List.filterMap_append, List.filter_append]
  have hkept : (past.filterMap Placed.error?).filter (·.offset < n) =
      past.filterMap Placed.error? := by
    refine List.filter_eq_self.mpr fun e he => ?_
    obtain ⟨p, hp, hpe⟩ := List.mem_filterMap.mp he
    rw [offset_of_error? hpe, decide_eq_true (hpast p hp e hpe)]
  have hleft : (ahead.filterMap Placed.error?).filter (·.offset < n) = [] := by
    refine List.filter_eq_nil_iff.mpr fun e he => ?_
    obtain ⟨p, hp, hpe⟩ := List.mem_filterMap.mp he
    have hle := hahead p hp
    rw [offset_of_error? hpe, decide_eq_true_iff]
    omega
  rw [hkept, hleft, List.append_nil]

/-- The errors that have been passed are those before the token handed out last. -/
lemma Handed.errors_eq (hpieces : pieces text = past ++ ahead)
    (h : Handed text.length past ahead handed) :
    past.filterMap Placed.error? =
      (tokenize text).2.filter fun e => handed.getLast?.any (e.offset < ·.offset) := by
  have hordered : (pieces text).Pairwise fun p q => p.offset < q.offset := by
    have hoffsets := pairwise_offset
      (fun p q (hpq : some p = some q) => congrArg Placed.offset (Option.some.inj hpq).symm) text
    rwa [List.filterMap_some, List.pairwise_map] at hoffsets
  cases h with
  | start => simp
  | @token before _ p t hp =>
    have hlast : (tokensOf (before ++ [p])).getLast? = some t.toToken := by
      rw [tokensOf_append, tokensOf_token hp, List.getLast?_concat]
    rw [hpieces, List.pairwise_append, List.pairwise_append] at hordered
    obtain ⟨⟨-, -, hbefore⟩, -, hahead⟩ := hordered
    simp only [hlast, Option.any_some]
    refine (filter_scanErrors hpieces ?_ ?_).symm
    · intro q hq e he
      rw [offset_of_token? hp]
      rcases List.mem_append.mp hq with hq | hq
      · exact hbefore q hq p (List.mem_singleton_self p)
      · -- the piece passed last is a token
        obtain rfl := List.mem_singleton.mp hq
        rw [error?_eq_none_of_token? hp] at he
        cases he
    · intro q hq
      rw [offset_of_token? hp]
      exact (hahead p (List.mem_append_right _ (List.mem_singleton_self p)) q hq).le
  | ending _ n =>
    rw [List.getLast?_append, List.getLast?_replicate]
    simp only [Nat.add_one_ne_zero, if_false, Option.some_or, Option.any_some]
    refine (filter_scanErrors hpieces (fun p hp e he => ?_) fun p hp => ?_).symm
    · have hmem : e ∈ scanErrors text :=
        List.mem_filterMap.mpr ⟨p, hpieces ▸ List.mem_append_left _ hp, he⟩
      obtain ⟨hpos, hwithin, -⟩ :=
        liesIn_of_mem_spans (List.mem_append_right _ (List.mem_map_of_mem hmem))
      rw [← offset_of_error? he]
      exact Nat.lt_of_lt_of_le (Nat.lt_add_of_pos_right hpos) hwithin
    · cases hp

/-- Scanning on demand agrees with the scan of the whole text. Whatever the calls so far, the tokens
that they have handed out are those of the text, the end again and again; the sequence is over
exactly if one of the calls on it has handed out the end, and after a drain; and the errors found
are those before the token handed out last. -/
theorem run_eq_tokenize (text : Text) (cs : List Call) :
    ∃ (answers : List Answer) (s : Scanner) (handed tokens : List Token) (errors : List ScanError),
      (ofText text).run cs = (answers, s) ∧ handed = answers.flatMap Answer.tokens ∧
      tokenize text = (tokens, errors) ∧
      (∀ i < handed.length, handed[i]? = tokens[min i (tokens.length - 1)]?) ∧
      (s.next.1 = none ↔ ∃ a ∈ answers, a.endsSequence = true) ∧
      s.drain.2.next.1 = none ∧
      s.errors = errors.filter fun e => handed.getLast?.any (e.offset < ·.offset) := by
  obtain ⟨-, past, hpieces, herrors, hhanded⟩ := (hasHanded_ofText text).run cs
  rw [List.nil_append] at hhanded
  refine ⟨_, _, _, _, _, rfl, rfl, rfl, fun i hi => hhanded.getElem?_eq hpieces hi, ?_, ?_, ?_⟩
  · rw [next_eq_none_iff, finished_run, ← List.any_eq_true]
    rfl
  · rw [next_eq_none_iff]
    exact finished_drainWith_of_lt (by omega)
  · rw [herrors]
    exact hhanded.errors_eq hpieces

-- an end that is handed out as a next token does not end the sequence
example : ((ofText []).run [.nextToken, .next, .next]).1 =
    [.token (.endOf 0), .element (some (.endOf 0)), .element none] := rfl

end Scanner

end WhenClause
