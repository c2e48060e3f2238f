import WhenClause.Proofs.Clause.Readability
import WhenClause.Proofs.Grammar.Derivation
import WhenClause.Proofs.Scan.Passes

/-!
# The derivation of a written clause

The text of a canonical clause is scanned as the tokens of a derivation that writes the clause.
This goes along the tree of the clause: in front of any text that ends an operand, the text of a
clause is passed with the tokens of an operand that writes it.
-/

namespace WhenClause

open Grammar

variable {t x rest : Text} {offset : Nat}

/-! ### Well-formed tests -/

/-- A text that is scanned as the name of a key. -/
def Text.IsKeyName (t : Text) : Prop := tokenize t = ([⟨.key, t, 0⟩, .endOf t.length], [])

instance (t : Text) : Decidable t.IsKeyName := inferInstanceAs (Decidable (_ = _))

/-- A word of that kind is scanned as the name of a key. -/
lemma Text.isKeyName_of_isWord (h : t.IsWord) (hkind : Piece.kindOfWord t = .key) :
    t.IsKeyName := by
  rw [IsKeyName, tokenize_of_isWord h, hkind]

lemma Text.IsKeyName.isWord (h : t.IsKeyName) : t.IsWord := (isWord_of_tokenize h rfl rfl).1

lemma Text.IsKeyName.kindOfWord (h : t.IsKeyName) : Piece.kindOfWord t = .key :=
  (isWord_of_tokenize h rfl rfl).2

namespace Test

/-- The right side of a test can stand in a clause. -/
def RightIsWellFormed : Test → Prop
  | present _                => True
  | equals _ _ value fold    => '\'' ∉ value ∧ fold = false
  | compare _ _ operand      => ∃ x, '\'' ∉ x ∧ operand = .ofLexeme x
  | matching _ pattern flags =>
    Regex.IsClosed pattern ∧ flags.Pairwise (· < ·) ∧ (∀ c ∈ flags, Regex.isFlag c = true) ∧
      Regex.accepts pattern flags = true
  | member _ _ target        => target.IsKeyName

/-- A test as it can stand in a clause. -/
structure WellFormed (t : Test) : Prop where
  key : t.key.IsKeyName
  right : t.RightIsWellFormed

/-- A test whose key and sign together would be scanned as `not in`. -/
def JoinsNot (t : Test) : Prop := ∃ target, t = member false "not".toList target

end Test

/-! ### Right sides -/

lemma inWord?_of_endsClause (h : EndsClause rest) : Piece.inWord? rest = none := by
  cases h with
  | nil => rfl
  | rparen rest => simp [Piece.inWord?, isBlank]
  | symbol op rest => cases op <;> simp [Piece.inWord?, Connective.symbol, isBlank]

lemma inWord?_afterKey {t : Test} (hrest : EndsClause rest) (ht : ¬t.JoinsNot)
    (hkey : t.key = "not".toList) : Piece.inWord? (t.afterKey rest) = none := by
  cases t with
  | present key => exact inWord?_of_endsClause hrest
  | equals negated key value fold =>
    cases negated <;> simp [Test.afterKey, Piece.inWord?, isBlank]
  | compare op key operand =>
    cases op <;> simp [Test.afterKey, Piece.inWord?, isBlank, Comparator.symbol]
  | matching key pattern flags => simp [Test.afterKey, Piece.inWord?, isBlank]
  | member negated key target =>
    cases negated with
    | false => exact absurd ⟨target, congrArg (Test.member false · target) hkey⟩ ht
    | true => simp [Test.afterKey, Piece.inWord?, isBlank]

/-- A sign and a right side are passed one after the other. -/
lemma Passes.spaced {op r : Token.Spaced} {text right : Text} {offset₁ offset₂ : Nat}
    (hop : Passes (offset + 1) text [op] offset₁ (' ' :: right))
    (hright : Passes (offset₁ + 1) right [r] offset₂ rest) :
    Passes offset (' ' :: text) [op, r] offset₂ rest :=
  .blank (by decide) (hop.append (.blank (by decide) hright))

/-- A written operand is passed as one value that reads back as the operand. -/
lemma passes_operand (hx : '\'' ∉ x) (hrest : EndsClause rest) (offset : Nat) :
    ∃ (value : Value) (offset' : Nat),
      Passes offset ((Operand.ofLexeme x).write ++ rest) [value.1] offset' rest ∧
        Operand.ofLexeme value.1.lexeme = Operand.ofLexeme x := by
  have htext := Operand.ofLexeme_toText x
  rcases (Operand.ofLexeme x).write_eq_or with ⟨hwrite, hword⟩ | hwrite
  · have hkind := Token.Kind.isWordKind_kindOfWord (Operand.ofLexeme x).toText
    have h := passes_word hword hrest.endsWord (fun _ => inWord?_of_endsClause hrest) offset
    rw [hwrite]
    exact ⟨⟨_, .inr hkind⟩, _, h, htext⟩
  · have h := passes_quoted (Operand.quote_not_mem_toText hx) rest offset
    rw [hwrite, List.append_assoc, List.cons_append]
    exact ⟨⟨_, .inl rfl⟩, _, h, htext⟩

/-- What is written of a test behind its key is passed as what follows the key. -/
lemma passes_afterKey {t : Test} (ht : t.RightIsWellFormed) (hrest : EndsClause rest)
    (offset : Nat) : ∃ (tail : Tail) (offset' : Nat),
      Passes offset (t.afterKey rest) tail.tokens offset' rest ∧ tail.test t.key = t := by
  cases t with
  | present key => exact ⟨.nothing, offset, .refl _ _, rfl⟩
  | equals negated key value fold =>
    obtain ⟨hvalue, rfl⟩ := ht
    have hsign (right : Text) :
        Piece.sign? ((if negated then '!' else '=') :: '=' :: ' ' :: right) =
          some ⟨.ok (.equality negated), [if negated then '!' else '=', '='], ' ' :: right⟩ := by
      cases negated <;> rfl
    have hop := passes_sign (hsign ('\'' :: (value ++ '\'' :: rest))) (offset + 1)
    have hquoted := passes_quoted hvalue rest (offset + 1 + 2 + 1)
    exact ⟨.equality ⟨_, rfl⟩ ⟨_, .inl rfl⟩, _, hop.spaced hquoted, rfl⟩
  | compare cmp key operand =>
    obtain ⟨x, hx, rfl⟩ := ht
    have hsign : Piece.sign? (cmp.symbol ++ ' ' :: ((Operand.ofLexeme x).write ++ rest)) =
        some ⟨.ok (.order cmp), cmp.symbol, ' ' :: ((Operand.ofLexeme x).write ++ rest)⟩ := by
      cases cmp <;> rfl
    have hop := passes_sign hsign (offset + 1)
    obtain ⟨value, offset', hvalue, hlexeme⟩ := passes_operand hx hrest _
    exact ⟨.order ⟨_, rfl⟩ value, offset', hop.spaced hvalue, by rw [Tail.test, hlexeme]; rfl⟩
  | matching key pattern flags =>
    obtain ⟨hpattern, hsorted, hflags, haccepts⟩ := ht
    have hsign : Piece.sign? ('=' :: '~' :: ' ' :: '/' :: (pattern ++ '/' :: (flags ++ rest))) =
      some ⟨.ok .matching, ['=', '~'], ' ' :: '/' :: (pattern ++ '/' :: (flags ++ rest))⟩ := rfl
    have hop := passes_sign hsign (offset + 1)
    have hregex := passes_regex hpattern (Test.takeWhile_isFlag_append hflags hrest)
      (offset + 1 + 2 + 1)
    have hholds := Regex.splitLiteral_append pattern hflags
    refine ⟨.matching ⟨_, rfl⟩ ⟨_, pattern, flags, .inl ⟨?_, hholds⟩, haccepts⟩, _,
      hop.spaced hregex, ?_⟩
    · rfl
    · rw [Tail.test, Test.regex, Test.sortFlags_of_pairwise hsorted]
      rfl
  | member negated key target =>
    have htarget := passes_word ht.isWord hrest.endsWord (fun _ => inWord?_of_endsClause hrest)
    cases negated with
    | false =>
      have hword : Text.IsWord ['i', 'n'] :=
        Text.isWord_of_isKeyChar (by decide) (by decide) (List.all_eq_true.mp (by decide))
      have hends : Text.EndsWord (' ' :: (target ++ rest)) := Text.endsWord_cons (by decide) _
      have hin := passes_word hword hends (fun h => absurd h (by decide)) (offset + 1)
      exact ⟨.membership ⟨_, rfl⟩ ⟨_, ht.kindOfWord⟩, _, hin.spaced (htarget _), rfl⟩
    | true =>
      have hin := passes_not_in (target ++ rest) (offset + 1)
      exact ⟨.membership ⟨_, rfl⟩ ⟨_, ht.kindOfWord⟩, _, hin.spaced (htarget _), rfl⟩

/-! ### Operands -/

/-- A written test is passed as a key and what follows it. -/
lemma passes_test {t : Test} (ht : t.WellFormed) (hnot : ¬t.JoinsNot) (hrest : EndsClause rest)
    (offset : Nat) : ∃ (key : Tok .key) (tail : Tail) (offset' : Nat),
      Passes offset (t.write rest) (key.1 :: tail.tokens) offset' rest ∧
        tail.test key.1.lexeme = t := by
  have hkey := passes_word ht.key.isWord (t.endsWord_afterKey hrest)
    (fun hkey => inWord?_afterKey hrest hnot hkey) offset
  obtain ⟨tail, offset', htail, htest⟩ := passes_afterKey ht.right hrest (offset + t.key.length)
  rw [Test.write_eq]
  exact ⟨⟨_, ht.key.kindOfWord⟩, tail, offset', hkey.append htail, htest⟩

namespace Clause

variable {c d : Clause} {cs : List Clause} {op : Connective}

/-- In front of a text that ends an operand, a written clause is passed as an operand that writes
it. -/
def IsPassed (c : Clause) : Prop :=
  ∀ rest offset, EndsClause rest → ∃ (u : Unary) (offset' : Nat),
    Passes offset (c.write rest) u.tokens offset' rest ∧ u.value .written = c

lemma isPassed_test {t : Test} (ht : t.WellFormed) (hnot : ¬t.JoinsNot) :
    (test t).IsPassed := by
  intro rest offset hrest
  obtain ⟨key, tail, offset', hpass, htest⟩ := passes_test ht hnot hrest offset
  exact ⟨.primary (.test key tail), offset', hpass, congrArg test htest⟩

lemma isPassed_not_test {t : Test} (ht : t.WellFormed) (hnot : ¬t.JoinsNot) :
    (not (test t)).IsPassed := by
  intro rest offset hrest
  -- the sign is `!` alone, as no key begins with `=`
  have hsign : Piece.sign? ('!' :: t.write rest) = some ⟨.ok .not, ['!'], t.write rest⟩ := by
    have hne : ∀ text, t.write rest ≠ '=' :: text := fun text =>
      write_test_ne_cons ht.key.isWord (by decide)
    cases hwrite : t.write rest with
    | nil => rfl
    | cons c text =>
      have hc : c ≠ '=' := fun h => hne text (by rw [hwrite, h])
      simp [Piece.sign?, hc]
  obtain ⟨key, tail, offset', hpass, htest⟩ := passes_test ht hnot hrest (offset + 1)
  exact ⟨.negation (.test ⟨_, rfl⟩ key tail), offset', (passes_sign hsign offset).append hpass,
    congrArg (fun t => not (test t)) htest⟩

/-- Behind an operand, a connective is passed with a blank on each side of it. -/
lemma passes_symbol (op : Connective) (text : Text) (offset : Nat) :
    ∃ t : Token.Spaced, t.kind = kindOf op ∧
      Passes offset (op.symbol ++ text) [t] (offset + 4) text := by
  cases op with
  | and =>
    have hsign : Piece.sign? ('&' :: '&' :: ' ' :: text) =
      some ⟨.ok .and, ['&', '&'], ' ' :: text⟩ := rfl
    have hblank : Passes (offset + 3) (' ' :: text) [] (offset + 4) text :=
      .blank (by decide) (.refl _ _)
    exact ⟨_, rfl, .blank (by decide) ((passes_sign hsign (offset + 1)).append hblank)⟩
  | or =>
    have hsign : Piece.sign? ('|' :: '|' :: ' ' :: text) =
      some ⟨.ok .or, ['|', '|'], ' ' :: text⟩ := rfl
    have hblank : Passes (offset + 3) (' ' :: text) [] (offset + 4) text :=
      .blank (by decide) (.refl _ _)
    exact ⟨_, rfl, .blank (by decide) ((passes_sign hsign (offset + 1)).append hblank)⟩

/-- The operands of a group are passed as a chain. -/
lemma passes_chain (op : Connective) (hcs : ∀ d ∈ c :: cs, d.IsPassed) (rest : Text)
    (offset : Nat) :
    ∃ (u : Unary) (us : List (Tok (kindOf op) × Unary)) (offset' : Nat),
      Passes offset (c.write (writeAll op true cs (')' :: rest))) (chainTokens u us) offset'
        (')' :: rest) ∧ chainValues .written u us = c :: cs := by
  induction cs generalizing c offset with
  | nil =>
    obtain ⟨u, offset', hpass, hvalue⟩ := hcs c (by simp) _ offset (.rparen rest)
    rw [← chainTokens_nil] at hpass
    exact ⟨u, [], offset', hpass, congrArg ([·]) hvalue⟩
  | cons d cs ih =>
    obtain ⟨u, offset₁, hpass, hvalue⟩ :=
      hcs c (by simp) _ offset (endsClause_writeAll op (d :: cs) rest)
    obtain ⟨t, hkind, hop⟩ :=
      passes_symbol op (d.write (writeAll op true cs (')' :: rest))) offset₁
    obtain ⟨v, us, offset', hrest, hvalues⟩ :=
      ih (fun e he => hcs e (List.mem_cons_of_mem _ he)) (offset₁ + 4)
    refine ⟨u, (⟨t, hkind⟩, v) :: us, offset', ?_, ?_⟩
    · rw [chainTokens_cons]
      exact hpass.append (hop.append hrest)
    · rw [← hvalues, ← hvalue]
      rfl

/-- A group is passed as a disjunction between parentheses. -/
lemma isPassed_group (hsize : 2 ≤ cs.length) (hcs : ∀ c ∈ cs, c.IsPassed) :
    (group op cs).IsPassed := by
  intro rest offset hrest
  obtain ⟨c, d, cs, rfl⟩ : ∃ c d ds, cs = c :: d :: ds := by
    match cs, hsize with
    | c :: d :: ds, _ => exact ⟨c, d, ds, rfl⟩
  obtain ⟨u, us, offset', hpass, hvalues⟩ := passes_chain op hcs rest (offset + 1)
  obtain ⟨k, htokens, hvalue⟩ := exists_disjunction_of_chain .written op u us
  rw [← htokens] at hpass
  rw [hvalues] at hvalue
  have hleft : Piece.sign? ('(' :: writeAll op false (c :: d :: cs) (')' :: rest)) =
    some ⟨.ok .lparen, ['('], _⟩ := rfl
  have hright : Piece.sign? (')' :: rest) = some ⟨.ok .rparen, [')'], rest⟩ := rfl
  exact ⟨.primary (.parens ⟨_, rfl⟩ k ⟨_, rfl⟩), _,
    (passes_sign hleft offset).append (hpass.append (passes_sign hright offset')), hvalue⟩

/-- A canonical clause without constants is passed as an operand that writes it. -/
lemma Reduced.isPassed (hc : c.Reduced) (hwell : c.All Test.WellFormed)
    (hnot : c.All (¬·.JoinsNot)) : c.IsPassed := by
  induction hc with
  | test t => exact isPassed_test (all_test.mp hwell) (all_test.mp hnot)
  | not h =>
    exact isPassed_not_test (all_test.mp (all_not.mp hwell)) (all_test.mp (all_not.mp hnot))
  | group size _ _ _ ih =>
    exact isPassed_group size fun c hc => ih c hc (all_group.mp hwell c hc) (all_group.mp hnot c hc)

lemma write_const (b : Bool) (rest : Text) : (const b).write rest = Constants.word b ++ rest := by
  cases b <;> rfl

lemma isWord_word (b : Bool) : (Constants.word b).IsWord := by
  cases b <;> exact Text.isWord_of_isKeyChar (by decide) (by decide) (List.all_eq_true.mp (by decide))

lemma kindOfWord_word (b : Bool) : Piece.kindOfWord (Constants.word b) = .literal b := by
  cases b <;> rfl

lemma isPassed_const (b : Bool) : (const b).IsPassed := by
  intro rest offset hrest
  have hnot : Constants.word b ≠ "not".toList := by cases b <;> decide
  have hpass := passes_word (isWord_word b) hrest.endsWord (fun h => absurd h hnot) offset
  rw [kindOfWord_word] at hpass
  rw [write_const]
  exact ⟨.primary (.literal ⟨_, rfl⟩), _, hpass, rfl⟩

end Clause

end WhenClause
