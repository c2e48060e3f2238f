import WhenClause.Proofs.Clause.Canonical
import WhenClause.Proofs.Parse.Operands

/-!
# Telling a clause from its tree

The tree of a clause loses nothing but the fractions of numbers: clauses whose numbers are whole are
the same if their trees are (`Clause.toJson_injective`). A whole number of more than 64 bits stands
in the tree as a string, which no text can be, since it would have been read as that number.
-/

namespace WhenClause

namespace Operand

/-- A text or a whole number, as it was read from some text. -/
structure IsExact (operand : Operand) : Prop where
  read : ∃ x, operand = ofLexeme x
  whole : ∀ d, operand = number d → d.scale = 0

/-- A whole number that a signed integer of 64 bits can hold. -/
def fitsInt64 (d : Decimal) : Prop :=
  Int64.minValue.toInt ≤ d.toInt ∧ d.toInt ≤ Int64.maxValue.toInt

instance : DecidablePred fitsInt64 := fun _ => inferInstanceAs (Decidable (_ ∧ _))

variable {a b operand : Operand} {d e : Decimal}

lemma toJson_number (h : d.scale = 0) :
    (number d).toJson = if fitsInt64 d then .integer d.toInt else .string d.toText := by
  simp [toJson, h, fitsInt64]

/-- An operand is an integer of its tree, or the string of its text. -/
lemma IsExact.toJson_eq_or (h : operand.IsExact) :
    (∃ d, operand = number d ∧ operand.toJson = .integer d.toInt) ∨
      operand.toJson = .string operand.toText := by
  cases operand with
  | text t => exact .inr rfl
  | number d =>
    rw [toJson_number (h.whole d rfl)]
    split_ifs
    · exact .inl ⟨d, rfl, rfl⟩
    · exact .inr rfl

lemma IsExact.ofLexeme_toText (h : operand.IsExact) : ofLexeme operand.toText = operand := by
  obtain ⟨x, rfl⟩ := h.read
  exact Operand.ofLexeme_toText x

lemma IsExact.isNormal (h : (number d).IsExact) : d.IsNormal := by
  obtain ⟨x, hx⟩ := h.read
  obtain ⟨d, -, rfl⟩ := exists_read?_of_ofLexeme hx.symm
  exact Decimal.isNormal_normalize d

/-- Whole numbers are told by their integers. -/
lemma IsExact.eq_of_toInt_eq (hd : (number d).IsExact) (he : (number e).IsExact)
    (h : d.toInt = e.toInt) : d = e := by
  apply hd.isNormal.eq_of_toRat_eq he.isNormal
  rw [Decimal.toRat, Decimal.toRat, h, hd.whole d rfl, he.whole e rfl]

lemma IsExact.eq_of_toJson_eq (ha : a.IsExact) (hb : b.IsExact) (h : a.toJson = b.toJson) :
    a = b := by
  rcases ha.toJson_eq_or with ⟨d, rfl, hd⟩ | hstring <;>
    rcases hb.toJson_eq_or with ⟨e, rfl, he⟩ | hstring'
  · rw [hd, he] at h
    rw [ha.eq_of_toInt_eq hb (Json.integer.inj h)]
  · rw [hd, hstring'] at h
    cases h
  · rw [hstring, he] at h
    cases h
  · rw [hstring, hstring'] at h
    rw [← ha.ofLexeme_toText, Json.string.inj h, hb.ofLexeme_toText]

end Operand

namespace Test

/-- What the test compares with, if it does, is a text or a whole number. -/
def HasExactOperand : Test → Prop
  | compare _ _ operand => operand.IsExact
  | _                   => True

variable {t u : Test}

lemma eq_of_toJson_eq (ht : t.HasExactOperand) (hu : u.HasExactOperand)
    (h : t.toJson = u.toJson) : t = u := by
  cases t <;> cases u <;> simp [toJson] at h
  case present.present => rw [h]
  case equals.equals negated _ _ _ negated' _ _ _ =>
    obtain ⟨rfl, rfl, hkind, rfl⟩ := h
    cases negated <;> cases negated' <;> simp at hkind ⊢
  case compare.compare =>
    obtain ⟨rfl, hsymbol, hvalue⟩ := h
    rw [Comparator.symbol_injective hsymbol, ht.eq_of_toJson_eq hu hvalue]
  case matching.matching =>
    obtain ⟨rfl, rfl, rfl⟩ := h
    rfl
  case member.member =>
    obtain ⟨rfl, rfl, rfl⟩ := h
    rfl

end Test

/-- The kind of a group in a tree. -/
def Connective.kind : Connective → Text
  | and => "and".toList
  | or  => "or".toList

lemma Connective.kind_injective {op op' : Connective} (h : op.kind = op'.kind) : op = op' := by
  cases op <;> cases op' <;> simp [kind] at h ⊢

namespace Clause

variable {a b c : Clause} {op : Connective} {cs as bs : List Clause} {t : Test}

lemma toJsonAll_eq_map (cs : List Clause) : toJsonAll cs = cs.map toJson := by
  induction cs with
  | nil          => rfl
  | cons c cs ih => rw [toJsonAll, ih, List.map_cons]

@[simp] lemma toJson_const (b : Bool) :
    (const b).toJson = .object [("kind", .string "constant".toList), ("value", .bool b)] := rfl

@[simp] lemma toJson_test (t : Test) : (test t).toJson = t.toJson := rfl

@[simp] lemma toJson_not (c : Clause) :
    (not c).toJson = .object [("kind", .string "not".toList), ("operand", c.toJson)] := rfl

@[simp] lemma toJson_group (op : Connective) (cs : List Clause) :
    (group op cs).toJson =
      .object [("children", .array (cs.map toJson)), ("kind", .string op.kind)] := by
  rw [← toJsonAll_eq_map]
  cases op <;> rfl

/-- The node of a test is no other node: it has another list of members or another kind. -/
lemma toJson_eq_test (h : c.toJson = t.toJson) : ∃ u, c = test u := by
  cases c with
  | test u => exact ⟨u, rfl⟩
  | const b => cases t <;> simp [Test.toJson] at h
  | not c => cases t <;> simp [Test.toJson] at h
  | group op cs => cases t <;> simp [Test.toJson] at h

/-- Lists are told by the trees of their members if the members are. -/
lemma eq_of_map_toJson_eq (hmem : ∀ a ∈ as, ∀ b ∈ bs, a.toJson = b.toJson → a = b)
    (h : as.map toJson = bs.map toJson) : as = bs := by
  apply List.ext_getElem
  · simpa using congrArg List.length h
  · intro i hi hi'
    apply hmem _ (List.getElem_mem hi) _ (List.getElem_mem hi')
    have hnode := List.getElem_of_eq h (by simpa using hi)
    rwa [List.getElem_map, List.getElem_map] at hnode

/-- By induction on the first clause: its node tells which node the other one has, and the members
of the two are told by what is already known. -/
lemma eq_of_toJson_eq (ha : a.All Test.HasExactOperand) (hb : b.All Test.HasExactOperand)
    (h : a.toJson = b.toJson) : a = b := by
  induction a generalizing b with
  | const x =>
    cases b with
    | const y => rw [show x = y by simpa using h]
    | test u => obtain ⟨_, ⟨⟩⟩ := toJson_eq_test h
    | not b => simp at h
    | group op bs => simp at h
  | test t =>
    obtain ⟨u, rfl⟩ := toJson_eq_test h.symm
    rw [Test.eq_of_toJson_eq (all_test.mp ha) (all_test.mp hb) h]
  | not a ih =>
    cases b with
    | const y => simp at h
    | test u => obtain ⟨_, ⟨⟩⟩ := toJson_eq_test h
    | not b =>
      rw [ih (all_not.mp ha) (all_not.mp hb) (by simpa using h)]
    | group op bs => simp at h
  | group op as ih =>
    cases b with
    | const y => simp at h
    | test u => obtain ⟨_, ⟨⟩⟩ := toJson_eq_test h
    | not b => simp at h
    | group op' bs =>
      rw [all_group] at ha hb
      obtain ⟨hchildren, hkind⟩ : as.map toJson = bs.map toJson ∧ op.kind = op'.kind := by
        simpa using h
      rw [Connective.kind_injective hkind,
        eq_of_map_toJson_eq (fun a hmem b hmem' => ih a hmem (ha a hmem) (hb b hmem')) hchildren]

/-- Trees lose nothing but the fractions of numbers: clauses in any form whose operands are texts
and whole numbers are the same if their trees are. A whole number of more than 64 bits is a string
in its tree, and that string is no text that is kept as one. -/
theorem toJson_injective :
    (∀ a b : Clause, a.All Test.HasExactOperand → b.All Test.HasExactOperand →
      a.toJson = b.toJson → a = b) ∧
    ∀ (x y : Text) (d : Decimal) (t : Text), Operand.ofLexeme x = .number d → d.scale = 0 →
      ¬ Operand.fitsInt64 d → Operand.ofLexeme y = .text t →
      (Operand.number d).toJson = .string d.toText ∧
        (Operand.text t).toJson ≠ (Operand.number d).toJson := by
  constructor
  · intro a b ha hb h
    exact eq_of_toJson_eq ha hb h
  · intro x y d t hx hscale hlarge hy
    constructor
    · rw [Operand.toJson_number hscale, if_neg hlarge]
    · intro h
      have hnumber : (Operand.number d).IsExact := ⟨⟨x, hx.symm⟩, by rintro _ ⟨⟩; exact hscale⟩
      have htext : (Operand.text t).IsExact := ⟨⟨y, hy.symm⟩, by rintro _ ⟨⟩⟩
      cases htext.eq_of_toJson_eq hnumber h

/-- Two spellings of a number of more than 64 bits, below nodes that no text is read as, and a text
that starts with the same digits. -/
theorem toJson_injective_of_large_number :
    let x := "9223372036854775808".toList
    let y := "+9_223_372_036_854_775_808.00".toList
    let z := "9223372036854775808th".toList
    let d : Decimal := ⟨false, 9223372036854775808, 0⟩
    let clause (operand : Operand) := group .and [const true, not (group .or []),
      test (.equals true [] ['\''] true), test (.compare .less ['k'] operand)]
    let a := clause (Operand.ofLexeme x)
    let b := clause (Operand.ofLexeme y)
    a.All Test.HasExactOperand ∧ b.All Test.HasExactOperand ∧ a.toJson = b.toJson ∧ a = b ∧
    Operand.ofLexeme x = .number d ∧ ¬ Operand.fitsInt64 d ∧ Operand.ofLexeme z = .text z ∧
    (Operand.number d).toJson = .string d.toText ∧
    (Operand.text z).toJson ≠ (Operand.number d).toJson := by
  intro x y z d clause a b
  have hx : Operand.ofLexeme x = .number d := by decide +kernel
  have hy : Operand.ofLexeme y = .number d := by decide +kernel
  have hz : Operand.ofLexeme z = .text z := by decide +kernel
  have hlarge : ¬ Operand.fitsInt64 d := by decide +kernel
  have hexact : (Operand.number d).IsExact := ⟨⟨x, hx.symm⟩, by rintro _ ⟨⟩; rfl⟩
  have ha : a.All Test.HasExactOperand := by
    simp only [a, clause, hx]
    simp [Test.HasExactOperand, hexact]
  have hb : b.All Test.HasExactOperand := by
    simp only [b, clause, hy]
    simp [Test.HasExactOperand, hexact]
  have htree : a.toJson = b.toJson := by
    simp only [a, b, hx, hy]
  obtain ⟨hstring, hne⟩ := toJson_injective.2 x z d z hx rfl hlarge hz
  exact ⟨ha, hb, htree, toJson_injective.1 a b ha hb htree, hx, hlarge, hz, hstring, hne⟩

end Clause

end WhenClause
