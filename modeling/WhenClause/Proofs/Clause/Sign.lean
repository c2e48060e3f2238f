import WhenClause.Clause.Order
import WhenClause.Clause.Reading
import WhenClause.Proofs.Scan.Words

/-!
# The sign behind a key

A test is written as its key and what follows: nothing, or a sign and a right side. In front of
text that does not continue it, the written test tells the key and the sign, and with the sign the
rank of the test (`Test.write_inj`).
-/

namespace WhenClause

/-- A text that may stand behind an operand: nothing, a closing parenthesis, or a connective. -/
inductive EndsClause : Text → Prop
  | nil : EndsClause []
  | rparen (rest : Text) : EndsClause (')' :: rest)
  | symbol (op : Connective) (rest : Text) : EndsClause (op.symbol ++ rest)

lemma EndsClause.endsWord {rest : Text} (h : EndsClause rest) : rest.EndsWord := by
  cases h with
  | nil => exact Text.endsWord_nil
  | rparen rest => exact Text.endsWord_cons (by decide) rest
  | symbol op rest => cases op <;> exact Text.endsWord_cons (by decide) _

namespace Test

variable {t u : Test} {rest rest' : Text}

/-- The sign of a test, where it has one. -/
def sign? : Test → Option TestPart
  | present _           => none
  | equals negated ..   => some (.equality negated)
  | compare op ..       => some (.order op)
  | matching ..         => some .matching
  | member negated ..   => some (.membership negated)

/-- What is written of a test behind its key. -/
def afterKey (t : Test) (rest : Text) : Text :=
  match t with
  | present _                => rest
  | equals negated _ value _ =>
    ' ' :: (if negated then '!' else '=') :: '=' :: ' ' :: '\'' :: (value ++ '\'' :: rest)
  | compare op _ operand     => ' ' :: (op.symbol ++ ' ' :: (operand.write ++ rest))
  | matching _ pattern flags =>
    ' ' :: '=' :: '~' :: ' ' :: '/' :: (pattern ++ '/' :: (flags ++ rest))
  | member negated _ target  =>
    ' ' :: ((if negated then ['n', 'o', 't', ' '] else []) ++ 'i' :: 'n' :: ' ' :: (target ++ rest))

lemma write_eq (t : Test) (rest : Text) : t.write rest = t.key ++ t.afterKey rest := by
  cases t with
  | present key => rfl
  | equals negated key value foldCase => cases negated <;> simp [write, afterKey, Test.key]
  | compare op key operand => simp [write, afterKey, Test.key]
  | matching key pattern flags => simp [write, afterKey, Test.key]
  | member negated key target => cases negated <;> simp [write, afterKey, Test.key]

/-- The sign at the head of a text. -/
def signAt? : Text → Option TestPart
  | ' ' :: '=' :: '=' :: _ => some (.equality false)
  | ' ' :: '!' :: _        => some (.equality true)
  | ' ' :: '=' :: '~' :: _ => some .matching
  | ' ' :: '<' :: '=' :: _ => some (.order .lessEqual)
  | ' ' :: '<' :: _        => some (.order .less)
  | ' ' :: '>' :: '=' :: _ => some (.order .greaterEqual)
  | ' ' :: '>' :: _        => some (.order .greater)
  | ' ' :: 'i' :: _        => some (.membership false)
  | ' ' :: 'n' :: _        => some (.membership true)
  | _                      => none

lemma signAt?_afterKey (t : Test) (h : EndsClause rest) : signAt? (t.afterKey rest) = t.sign? := by
  cases t with
  | present key =>
    cases h with
    | nil => rfl
    | rparen rest => rfl
    | symbol op rest => cases op <;> rfl
  | equals negated key value foldCase => cases negated <;> rfl
  | compare op key operand => cases op <;> rfl
  | matching key pattern flags => rfl
  | member negated key target => cases negated <;> rfl

lemma endsWord_afterKey (t : Test) (h : EndsClause rest) : (t.afterKey rest).EndsWord := by
  cases t with
  | present key => exact h.endsWord
  | equals negated key value foldCase =>
    cases negated <;> exact Text.endsWord_cons (by decide) _
  | compare op key operand => exact Text.endsWord_cons (by decide) _
  | matching key pattern flags => exact Text.endsWord_cons (by decide) _
  | member negated key target => cases negated <;> exact Text.endsWord_cons (by decide) _

/-- A written test tells its key, its sign, and what stands behind the key. -/
lemma write_inj (ht : t.key.IsWord) (hu : u.key.IsWord) (hrest : EndsClause rest)
    (hrest' : EndsClause rest') (h : t.write rest = u.write rest') :
    t.key = u.key ∧ t.sign? = u.sign? ∧ t.afterKey rest = u.afterKey rest' := by
  rw [write_eq, write_eq] at h
  obtain ⟨hkey, hafter⟩ :=
    ht.append_inj hu (t.endsWord_afterKey hrest) (u.endsWord_afterKey hrest') h
  refine ⟨hkey, ?_, hafter⟩
  rw [← t.signAt?_afterKey hrest, hafter, u.signAt?_afterKey hrest']

/-- The rank of a test with a given sign. -/
def rankOfSign : Option TestPart → Nat
  | none                     => 2
  | some (.equality false)   => 4
  | some (.equality true)    => 5
  | some .matching           => 7
  | some (.membership false) => 10
  | some (.membership true)  => 11
  | some (.order op)         => (compare op [] (.text [])).rank

lemma rank_eq (t : Test) : t.rank = rankOfSign t.sign? := by
  cases t with
  | present key => rfl
  | equals negated key value foldCase => cases negated <;> rfl
  | compare op key operand => cases op <;> rfl
  | matching key pattern flags => rfl
  | member negated key target => cases negated <;> rfl

end Test

end WhenClause
