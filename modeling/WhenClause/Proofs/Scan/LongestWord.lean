import WhenClause.Proofs.Operand
import WhenClause.Proofs.Scan.Passes

/-!
# Words by longest match

The words form a language that is told character by character: what may stand behind some characters
depends on them only through the brackets that they leave open. A word is read as the longest one
that a text begins with, so the texts that are scanned as one word are those of the language that do
not begin with a slash (`isLongestWord_iff_and_tokenize_iff`).
-/

namespace WhenClause

namespace Text

/-- Whether a word may go on with a character behind the characters `before` of it. -/
def Continues (before : Text) (c : Char) : Prop :=
  isKeyChar c = true ∨ c = '<' ∨ c = '>' ∧ before.count '>' < before.count '<'

/-- The language of words: the first character may begin a word, and each later one continues those
before it. -/
structure HasWordForm (t : Text) : Prop where
  first : ∃ c ∈ t.head?, isWordStart c = true
  later : ∀ (before : Text) (c : Char) (after : Text),
    t = before ++ c :: after → before ≠ [] → before.Continues c

/-- The longest word that a text begins with. -/
structure IsLongestWord (w t : Text) : Prop where
  form : w.HasWordForm
  begins : w <+: t
  longest : ∀ u : Text, u.HasWordForm → u <+: t → u.length ≤ w.length

/-- A text has `depth` more opening brackets than closing ones. -/
def LeavesOpen (before : Text) (depth : Nat) : Prop :=
  before.count '<' = before.count '>' + depth

end Text

variable {before t u v w : Text} {c : Char} {depth depth' : Nat}

/-! ### Open brackets -/

/-- A reader that counts the open brackets goes on as long as the word does. -/
lemma bracketsAfter?_isSome_iff (h : before.LeavesOpen depth) :
    (bracketsAfter? depth c).isSome = true ↔ before.Continues c := by
  have hopen : before.count '>' < before.count '<' ↔ 0 < depth := by
    rw [Text.LeavesOpen] at h
    omega
  rw [Text.Continues, hopen, bracketsAfter?]
  split_ifs with hless hgreater hkey
  · simp [hless]
  · simp [hgreater]
  · simp [hkey]
  · simp [hless, hgreater, hkey]

namespace Text

lemma LeavesOpen.of_isWordStart (hc : isWordStart c = true) : LeavesOpen [c] 0 := by
  obtain ⟨hless, hgreater⟩ := ne_brackets_of_isWordStart hc
  simp [LeavesOpen, hless, hgreater]

/-- The count of open brackets is right behind every character that is taken. -/
lemma LeavesOpen.step (h : before.LeavesOpen depth) (hc : bracketsAfter? depth c = some depth') :
    (before ++ [c]).LeavesOpen depth' := by
  rw [LeavesOpen] at h ⊢
  rw [List.count_append, List.count_append]
  rw [bracketsAfter?] at hc
  split_ifs at hc with hless hgreater hkey <;> obtain rfl := Option.some.inj hc
  · subst hless
    simp
    omega
  · obtain ⟨rfl, hpos⟩ := hgreater
    simp
    omega
  · have hstart : isWordStart c = true := by simp [isWordStart, hkey]
    simp [hless, (ne_brackets_of_isWordStart hstart).2, h]

end Text

/-! ### The language of words -/

/-- A text is taken to its end behind some characters if and only if each character of it continues
those before it. -/
lemma takeWord_eq_self_iff (h : before.LeavesOpen depth) :
    takeWord depth t = (t, []) ↔
      ∀ (mid : Text) (c : Char) (after : Text), t = mid ++ c :: after →
        (before ++ mid).Continues c := by
  -- along the text, with the characters before it: their open brackets are the reader's count
  induction t generalizing before depth with
  | nil => simp [takeWord]
  | cons d t ih =>
    rw [takeWord_cons]
    cases hd : bracketsAfter? depth d with
    | none =>
      have hstop : ¬before.Continues d := by
        rw [← bracketsAfter?_isSome_iff h, hd]
        simp
      constructor
      · intro heq
        cases heq
      · intro hall
        exact absurd (by simpa using hall [] d t rfl) hstop
    | some depth' =>
      have hgo : before.Continues d := by
        rw [← bracketsAfter?_isSome_iff h, hd]
        rfl
      have htail : (d :: (takeWord depth' t).1, (takeWord depth' t).2) = (d :: t, []) ↔
          takeWord depth' t = (t, []) := by simp [Prod.ext_iff]
      rw [htail, ih (h.step hd), Text.forall_split_cons_iff, List.append_nil]
      simp [hgo]

namespace Text

lemma hasWordForm_cons_iff :
    HasWordForm (c :: t) ↔ isWordStart c = true ∧ takeWord 0 t = (t, []) := by
  constructor
  · rintro ⟨⟨d, hd, hstart⟩, hlater⟩
    obtain rfl : c = d := Option.some.inj hd
    refine ⟨hstart, (takeWord_eq_self_iff (.of_isWordStart hstart)).mpr ?_⟩
    intro mid d after heq
    exact (forall_split_cons_iff.mp hlater).2 mid d after heq (by simp)
  · rintro ⟨hstart, htake⟩
    refine ⟨⟨c, rfl, hstart⟩, forall_split_cons_iff.mpr ⟨fun hne => absurd rfl hne, ?_⟩⟩
    intro mid d after heq _
    exact (takeWord_eq_self_iff (.of_isWordStart hstart)).mp htake mid d after heq

/-- Words that are scanned as such are those of the language that do not begin with a slash, which
opens a regex. -/
lemma isWord_iff : t.IsWord ↔ t.HasWordForm ∧ t.head? ≠ some '/' := by
  cases t with
  | nil =>
    constructor
    · exact False.elim
    · rintro ⟨⟨⟨c, hc, -⟩, -⟩, -⟩
      cases hc
  | cons c t =>
    rw [hasWordForm_cons_iff, List.head?_cons, Ne, Option.some.injEq, IsWord]
    tauto

end Text

/-! ### Longest match -/

/-- What is taken of a text begins with every text at its head that is taken to its end. -/
lemma isPrefix_takeWord (hu : takeWord depth u = (u, [])) (v : Text) :
    u <+: (takeWord depth (u ++ v)).1 := by
  induction u generalizing depth with
  | nil => exact List.nil_prefix
  | cons c u ih =>
    rw [takeWord_cons] at hu
    rw [List.cons_append, takeWord_cons]
    cases hc : bracketsAfter? depth c with
    | none => simp [hc] at hu
    | some depth' =>
      simp only [hc, Prod.mk.injEq, List.cons.injEq, true_and] at hu
      exact List.cons_prefix_cons.mpr ⟨rfl, ih (Prod.ext hu.1 hu.2)⟩

namespace Text

lemma IsLongestWord.unique (h : w.IsLongestWord t) (h' : v.IsLongestWord t) : w = v := by
  have hlength : w.length = v.length :=
    Nat.le_antisymm (h'.longest w h.form h.begins) (h.longest v h'.form h'.begins)
  exact (List.prefix_of_prefix_length_le h.begins h'.begins hlength.le).eq_of_length hlength

lemma isLongestWord_takeWord (hc : isWordStart c = true) (t : Text) :
    IsLongestWord (c :: (takeWord 0 t).1) (c :: t) := by
  refine ⟨hasWordForm_cons_iff.mpr ⟨hc, takeWord_takeWord 0 t⟩, ?_, ?_⟩
  · exact List.cons_prefix_cons.mpr ⟨rfl, _, takeWord_append 0 t⟩
  · intro u hu hbegins
    cases u with
    | nil => exact Nat.zero_le _
    | cons d u =>
      obtain ⟨rfl, rest, rfl⟩ := List.cons_prefix_cons.mp hbegins
      have hprefix := isPrefix_takeWord (hasWordForm_cons_iff.mp hu).2 rest
      exact Nat.succ_le_succ hprefix.length_le

/-- A text begins with a word if and only if its first character may begin one, and then the longest
is the one that is read. -/
lemma isLongestWord_iff :
    IsLongestWord w (c :: t) ↔ isWordStart c = true ∧ w = c :: (takeWord 0 t).1 := by
  constructor
  · intro h
    have hc : isWordStart c = true := by
      obtain ⟨⟨d, hd, hstart⟩, -⟩ := h.form
      obtain ⟨rest, happend⟩ := h.begins
      cases w with
      | nil => cases hd
      | cons e w =>
        obtain rfl : e = d := Option.some.inj hd
        obtain ⟨rfl, -⟩ := List.cons.inj happend
        exact hstart
    exact ⟨hc, h.unique (isLongestWord_takeWord hc t)⟩
  · rintro ⟨hc, rfl⟩
    exact isLongestWord_takeWord hc t

end Text

/-! ### Texts that are one word -/

lemma Piece.kindOfWord_eq_key_iff :
    kindOfWord t = .key ↔ t ≠ "true".toList ∧ t ≠ "false".toList ∧ t ≠ "in".toList := by
  rw [kindOfWord]
  split_ifs with htrue hfalse hin
  · simp [htrue]
  · simp [hfalse]
  · simp [hin]
  · exact iff_of_true rfl ⟨htrue, hfalse, hin⟩

lemma tokenize_eq_key_iff :
    tokenize t = ([⟨.key, t, 0⟩, .endOf t.length], []) ↔
      t.IsWord ∧ Piece.kindOfWord t = .key := by
  constructor
  · intro h
    exact isWord_of_tokenize h rfl rfl
  · rintro ⟨hword, hkind⟩
    rw [tokenize_of_isWord hword, hkind]

lemma Operand.readsBare_iff : readsBare t = true ↔ t.IsWord := by
  constructor
  · exact isWord_of_readsBare
  · intro hword
    simp [readsBare, tokenize_of_isWord hword, Token.Kind.isWordKind_kindOfWord]

/-- What is read as a word at the head of a text, the first character and all that is taken behind
it, is the longest prefix of the text in the language of words, where there is one at all. So the
texts that are scanned as the name of a key and nothing else are the words that do not begin with a
slash and are not reserved, and those that an operand is written as without quotes are the words that
do not begin with a slash. -/
theorem isLongestWord_iff_and_tokenize_iff :
    (∀ (w : Text) (c : Char) (rest : Text),
      w.IsLongestWord (c :: rest) ↔ isWordStart c = true ∧ w = c :: (takeWord 0 rest).1) ∧
    ∀ t : Text,
      (tokenize t = ([⟨.key, t, 0⟩, .endOf t.length], []) ↔
        t.HasWordForm ∧ t.head? ≠ some '/' ∧
          t ≠ "true".toList ∧ t ≠ "false".toList ∧ t ≠ "in".toList) ∧
      (Operand.readsBare t = true ↔ t.HasWordForm ∧ t.head? ≠ some '/') := by
  refine ⟨fun _ _ _ => Text.isLongestWord_iff, fun t => ⟨?_, ?_⟩⟩
  · rw [tokenize_eq_key_iff, Piece.kindOfWord_eq_key_iff, Text.isWord_iff, and_assoc]
  · rw [Operand.readsBare_iff, Text.isWord_iff]

-- an opening bracket behind the first character, a closing one without a partner, and the word
-- `not`
example : Operand.readsBare "\"<".toList = true ∧ Operand.readsBare "a<>>".toList = false ∧
    tokenize "not".toList = ([⟨.key, "not".toList, 0⟩, .endOf 3], []) := by
  decide +kernel

end WhenClause
