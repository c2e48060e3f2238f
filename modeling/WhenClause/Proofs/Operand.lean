import WhenClause.Proofs.Decimal.Spelling
import WhenClause.Proofs.Scan.Tokens

/-!
# Reading back an operand

An operand is written as a word or as a text between quotes. What stands there reads back as the
operand, so that operands can be told from their texts in front of anything that ends a word
(`Operand.write_append_inj`).
-/

namespace WhenClause

variable {t x y rest rest' : Text} {d : Decimal}

lemma isKeyChar_of_isDigit {c : Char} (h : c.isDigit = true) : isKeyChar c = true := by
  have hdigits : ∀ n < 58, 48 ≤ n → isKeyChar (Char.ofNat n) = true := by decide
  have hlow : 48 ≤ c.toNat := (Char.isDigit_iff_toNat.mp h).1
  have hhigh : c.toNat ≤ 57 := (Char.isDigit_iff_toNat.mp h).2
  rw [← Char.ofNat_toNat c]
  exact hdigits c.toNat (by omega) hlow

/-- A number is written as a word. -/
lemma Decimal.isWord_toText (d : Decimal) : d.toText.IsWord := by
  have hmem := fun c (hc : c ∈ d.toText) => mem_toText hc
  refine Text.isWord_of_isKeyChar ?_ ?_ fun c hc => ?_
  · obtain ⟨c, rest, hdigits, -⟩ := d.digits_eq_cons
    rw [toText_eq, hdigits]
    simp
  · intro hslash
    rcases hmem '/' (List.mem_of_mem_head? hslash) with h | h | h <;> cases h
  · rcases hmem c hc with h | rfl | rfl
    · exact isKeyChar_of_isDigit h
    · decide
    · decide

/-- A text that is scanned as one word of its own length is a word of that kind. -/
lemma isWord_of_tokenize {token last : Token} {errors : List ScanError}
    (h : tokenize t = ([token, last], errors)) (hlexeme : token.lexeme = t)
    (hkind : Operand.isWordKind token.kind = true) :
    t.IsWord ∧ Piece.kindOfWord t = token.kind := by
  have htokens : (spacedTokens t).map (·.toToken) ++ [.endOf t.length] = [token] ++ [last] :=
    (Prod.mk.inj h).1
  have hspaced : (spacedTokens t).map (·.toToken) = [token] := (List.append_inj' htokens rfl).1
  obtain ⟨token', htoken', rfl⟩ : ∃ t' ∈ spacedTokens t, t'.toToken = token := by
    simpa using (congrArg (token ∈ ·) hspaced).mpr (List.mem_singleton_self token)
  have hfits := (wellFormed_of_mem_spacedTokens htoken').fits
  rw [hlexeme] at hfits
  exact (Token.Kind.fits_of_isWordKind hkind).mp hfits

namespace Operand

/-- What stands for an operand reads back as the operand. -/
lemma ofLexeme_toText (x : Text) : ofLexeme (ofLexeme x).toText = ofLexeme x := by
  unfold ofLexeme
  cases hx : Decimal.read? x with
  | none => simp [toText, hx]
  | some d =>
    have hread : Decimal.read? d.normalize.toText = some d.normalize := by
      rw [Decimal.read?, Decimal.readPlain?_toText (Decimal.read?_inBounds hx).normalize]
      rfl
    simp [toText, hread]

/-- A text that reads back without quotes is a word. -/
lemma isWord_of_readsBare (h : readsBare t = true) : t.IsWord := by
  rw [readsBare] at h
  split at h
  · rename_i token last htokens
    obtain ⟨hlexeme, hkind⟩ : token.lexeme = t ∧ isWordKind token.kind = true := by simpa using h
    exact (isWord_of_tokenize htokens hlexeme hkind).1
  · cases h

/-- How an operand is written: as a word, or a text between quotes. -/
lemma write_eq_or (op : Operand) :
    op.write = op.toText ∧ op.toText.IsWord ∨ op.write = '\'' :: op.toText ++ ['\''] := by
  cases op with
  | number d => exact .inl ⟨rfl, d.isWord_toText⟩
  | text t =>
    rw [write, toText]
    split_ifs with hbare
    · exact .inl ⟨rfl, isWord_of_readsBare hbare⟩
    · exact .inr rfl

lemma quote_not_mem_toText (hx : '\'' ∉ x) : '\'' ∉ (ofLexeme x).toText := by
  rw [ofLexeme]
  cases Decimal.read? x with
  | none => exact hx
  | some d =>
    intro hmem
    rcases Decimal.mem_toText hmem with h | h | h <;> cases h

/-- A written operand tells the operand and what stands behind it. -/
lemma write_append_inj (hx : '\'' ∉ x) (hy : '\'' ∉ y) (hrest : rest.EndsWord)
    (hrest' : rest'.EndsWord) (h : (ofLexeme x).write ++ rest = (ofLexeme y).write ++ rest') :
    ofLexeme x = ofLexeme y ∧ rest = rest' := by
  have hquote : isWordStart '\'' = false := by decide
  suffices htexts : (ofLexeme x).toText = (ofLexeme y).toText ∧ rest = rest' by
    exact ⟨by rw [← ofLexeme_toText x, htexts.1, ofLexeme_toText], htexts.2⟩
  rcases (ofLexeme x).write_eq_or with ⟨hwrite, hword⟩ | hwrite <;>
    rcases (ofLexeme y).write_eq_or with ⟨hwrite', hword'⟩ | hwrite' <;> rw [hwrite, hwrite'] at h
  · exact hword.append_inj hword' hrest hrest' h
  · exact absurd h (hword.append_ne_cons hquote)
  · exact absurd h.symm (hword'.append_ne_cons hquote)
  · simp only [List.cons_append, List.append_assoc, List.nil_append, List.cons.injEq] at h
    exact Text.append_cons_inj (quote_not_mem_toText hx) (quote_not_mem_toText hy) h.2

end Operand

end WhenClause
