import WhenClause.Proofs.Clause.Siblings
import WhenClause.Proofs.Operand

/-!
# Reading back a clause

A canonical clause can be told from its text, and so can the place where it ends, as long as its
tests can: keys and targets are words, values hold no quote, and patterns are closed. So operands
of one text are one operand (`Clause.eq_of_text_eq`).
-/

namespace WhenClause

variable {rest rest' : Text}

/-! ### Tests -/

namespace Test

variable {t u : Test}

/-- The right side of a test can be told from its text. -/
def RightIsReadable : Test → Prop
  | present _                => True
  | equals _ _ value fold    => '\'' ∉ value ∧ fold = false
  | compare _ _ operand      => ∃ x, '\'' ∉ x ∧ operand = .ofLexeme x
  | matching _ pattern flags => Regex.IsClosed pattern ∧ ∀ c ∈ flags, Regex.isFlag c = true
  | member _ _ target        => target.IsWord

/-- A test can be told from its text. -/
structure IsReadable (t : Test) : Prop where
  key : t.key.IsWord
  right : t.RightIsReadable

lemma IsReadable.of_opposite? (h : t.opposite? = some u) (ht : t.IsReadable) : u.IsReadable := by
  obtain ⟨hkey, hright⟩ := ht
  cases t <;> cases h <;> exact ⟨hkey, hright⟩

lemma takeWhile_isFlag_append {flags : Text} (hflags : ∀ c ∈ flags, Regex.isFlag c = true)
    (hrest : EndsClause rest) : (flags ++ rest).takeWhile Regex.isFlag = flags := by
  rw [List.takeWhile_append_of_pos hflags]
  cases hrest with
  | nil => simp
  | rparen rest => simp [Regex.isFlag]
  | symbol op rest => cases op <;> simp [Connective.symbol, Regex.isFlag]

lemma pattern_append_inj {pattern pattern' flags flags' : Text} (hp : Regex.IsClosed pattern)
    (hp' : Regex.IsClosed pattern') (hf : ∀ c ∈ flags, Regex.isFlag c = true)
    (hf' : ∀ c ∈ flags', Regex.isFlag c = true) (hrest : EndsClause rest)
    (hrest' : EndsClause rest')
    (h : pattern ++ '/' :: (flags ++ rest) = pattern' ++ '/' :: (flags' ++ rest')) :
    pattern = pattern' ∧ flags = flags' ∧ rest = rest' := by
  have hclose := Regex.close?_append hp (flags ++ rest)
  rw [h, Regex.close?_append hp' (flags' ++ rest')] at hclose
  obtain ⟨hpattern, hbehind⟩ := Prod.mk.inj (Option.some.inj hclose)
  have hflags : flags' = flags := by
    rw [← takeWhile_isFlag_append hf' hrest', hbehind, takeWhile_isFlag_append hf hrest]
  subst hflags
  exact ⟨hpattern.symm, rfl, (List.append_cancel_left hbehind).symm⟩

/-- A written test tells the test and what stands behind it. -/
lemma write_append_inj (ht : t.IsReadable) (hu : u.IsReadable) (hrest : EndsClause rest)
    (hrest' : EndsClause rest') (h : t.write rest = u.write rest') : t = u ∧ rest = rest' := by
  obtain ⟨hkey, hsign, hafter⟩ := write_inj ht.key hu.key hrest hrest' h
  replace ht := ht.right
  replace hu := hu.right
  cases t with
  | present key =>
    cases u with
    | present key' => exact ⟨congrArg present hkey, hafter⟩
    | _ => simp [sign?] at hsign
  | equals negated key value fold =>
    cases u with
    | equals negated' key' value' fold' =>
      obtain rfl : negated = negated' := by simpa [sign?] using hsign
      obtain ⟨hvalue, rfl⟩ := ht
      obtain ⟨hvalue', rfl⟩ := hu
      simp only [afterKey, List.cons.injEq, true_and] at hafter
      obtain ⟨rfl, hrests⟩ := Text.append_cons_inj hvalue hvalue' hafter
      exact ⟨congrArg (equals negated · value false) hkey, hrests⟩
    | _ => simp [sign?] at hsign
  | compare op key operand =>
    cases u with
    | compare op' key' operand' =>
      obtain rfl : op = op' := by simpa [sign?] using hsign
      obtain ⟨x, hx, rfl⟩ := ht
      obtain ⟨y, hy, rfl⟩ := hu
      simp only [afterKey, List.cons.injEq, true_and, List.append_cancel_left_eq] at hafter
      obtain ⟨hoperand, hrests⟩ :=
        Operand.write_append_inj hx hy hrest.endsWord hrest'.endsWord hafter
      rw [hoperand]
      exact ⟨congrArg (compare op · _) hkey, hrests⟩
    | _ => simp [sign?] at hsign
  | matching key pattern flags =>
    cases u with
    | matching key' pattern' flags' =>
      simp only [afterKey, List.cons.injEq, true_and] at hafter
      obtain ⟨rfl, rfl, hrests⟩ := pattern_append_inj ht.1 hu.1 ht.2 hu.2 hrest hrest' hafter
      exact ⟨congrArg (matching · pattern flags) hkey, hrests⟩
    | _ => simp [sign?] at hsign
  | member negated key target =>
    cases u with
    | member negated' key' target' =>
      obtain rfl : negated = negated' := by simpa [sign?] using hsign
      simp only [afterKey, List.cons.injEq, true_and, List.append_cancel_left_eq] at hafter
      obtain ⟨rfl, hrests⟩ :=
        Text.IsWord.append_inj ht hu hrest.endsWord hrest'.endsWord hafter
      exact ⟨congrArg (member negated · target) hkey, hrests⟩
    | _ => simp [sign?] at hsign

end Test

/-! ### Clauses -/

namespace Clause

variable {op op' : Connective} {c d : Clause} {cs ds : List Clause}

/-- A canonical clause whose tests can be told from their texts. -/
structure IsReadable (c : Clause) : Prop where
  reduced : c.Reduced
  tests : c.All Test.IsReadable

lemma writeAll_cons (op : Connective) (c : Clause) (cs : List Clause) (rest : Text) :
    writeAll op true (c :: cs) rest = op.symbol ++ c.write (writeAll op true cs rest) := rfl

lemma endsClause_writeAll (op : Connective) (cs : List Clause) (rest : Text) :
    EndsClause (writeAll op true cs (')' :: rest)) := by
  cases cs with
  | nil => exact .rparen rest
  | cons c cs => exact .symbol op _

lemma symbol_append_inj (h : op.symbol ++ rest = op'.symbol ++ rest') :
    op = op' ∧ rest = rest' := by
  cases op <;> cases op' <;> simp_all [Connective.symbol]

/-- A written clause tells the clause and what stands behind it. -/
def IsTold (c : Clause) : Prop :=
  ∀ d rest rest', d.IsReadable → EndsClause rest → EndsClause rest' →
    c.write rest = d.write rest' → c = d ∧ rest = rest'

lemma writeAll_inj (hcs : ∀ c ∈ cs, c.IsTold) (hds : ∀ d ∈ ds, d.IsReadable)
    (h : writeAll op true cs (')' :: rest) = writeAll op true ds (')' :: rest')) :
    cs = ds ∧ rest = rest' := by
  have hparen : ∀ {t t' : Text}, ')' :: t ≠ op.symbol ++ t' := by
    intro t t'
    cases op <;> simp [Connective.symbol]
  induction cs generalizing ds with
  | nil =>
    cases ds with
    | nil => exact ⟨rfl, (List.cons.inj h).2⟩
    | cons d ds => exact absurd h hparen
  | cons c cs ih =>
    cases ds with
    | nil => exact absurd h.symm hparen
    | cons d ds =>
      rw [writeAll_cons, writeAll_cons] at h
      obtain ⟨rfl, htail⟩ := hcs c (List.mem_cons_self ..) d _ _ (hds d (List.mem_cons_self ..))
        (endsClause_writeAll op cs rest) (endsClause_writeAll op ds rest')
        (List.append_cancel_left h)
      obtain ⟨rfl, rfl⟩ := ih (fun c hc => hcs c (List.mem_cons_of_mem _ hc))
        (fun d hd => hds d (List.mem_cons_of_mem _ hd)) htail
      exact ⟨rfl, rfl⟩

lemma IsReadable.of_mem (h : (Clause.group op cs).IsReadable) (hc : c ∈ cs) : c.IsReadable := by
  obtain ⟨hreduced, htests⟩ := h
  cases hreduced with
  | group _ reduced _ _ => exact ⟨reduced c hc, all_group.mp htests c hc⟩

lemma IsReadable.exists_eq_cons (h : (Clause.group op cs).IsReadable) :
    ∃ c d ds, cs = c :: d :: ds := by
  obtain ⟨hreduced, -⟩ := h
  cases hreduced with
  | group size _ _ _ =>
    match cs, size with
    | c :: d :: ds, _ => exact ⟨c, d, ds, rfl⟩

/-- Behind the first operand stands the connective, so a written group tells it as well. -/
lemma writeAll_false_inj (hcs : ∀ c ∈ cs, c.IsTold) (hc : (Clause.group op cs).IsReadable)
    (hd : (Clause.group op' ds).IsReadable)
    (h : writeAll op false cs (')' :: rest) = writeAll op' false ds (')' :: rest')) :
    op = op' ∧ cs = ds ∧ rest = rest' := by
  obtain ⟨c, c', cs, rfl⟩ := hc.exists_eq_cons
  obtain ⟨d, d', ds, rfl⟩ := hd.exists_eq_cons
  have hfirst : c.write (writeAll op true (c' :: cs) (')' :: rest)) =
    d.write (writeAll op' true (d' :: ds) (')' :: rest')) := h
  obtain ⟨rfl, htail⟩ := hcs c (List.mem_cons_self ..) d _ _ (hd.of_mem (List.mem_cons_self ..))
    (endsClause_writeAll op _ rest) (endsClause_writeAll op' _ rest') hfirst
  obtain rfl : op = op' := (symbol_append_inj htail).1
  obtain ⟨htails, hrests⟩ := writeAll_inj (fun e he => hcs e (List.mem_cons_of_mem _ he))
    (fun e he => hd.of_mem (List.mem_cons_of_mem _ he)) htail
  exact ⟨rfl, by rw [htails], hrests⟩

/-- A readable clause can be told from its text, in front of anything that ends a clause. -/
lemma IsReadable.isTold (hc : c.IsReadable) : c.IsTold := by
  have hbang : isWordStart '!' = false := by decide
  have hparen : isWordStart '(' = false := by decide
  induction c with
  | const b => cases hc.reduced
  | test t =>
    rintro d rest rest' ⟨hd, htests⟩ hrest hrest' h
    have ht := all_test.mp hc.tests
    cases hd with
    | test u =>
      obtain ⟨rfl, rfl⟩ := Test.write_append_inj ht (all_test.mp htests) hrest hrest' h
      exact ⟨rfl, rfl⟩
    | not _ => exact absurd h (write_test_ne_cons ht.key hbang)
    | group _ _ _ _ => exact absurd h (write_test_ne_cons ht.key hparen)
  | not c _ =>
    rintro d rest rest' ⟨hd, htests⟩ hrest hrest' h
    obtain ⟨hreduced, htest⟩ := hc
    cases hreduced with
    | @not t _ =>
      cases hd with
      | test u => exact absurd h.symm (write_test_ne_cons (all_test.mp htests).key hbang)
      | @not u _ =>
        obtain ⟨rfl, rfl⟩ := Test.write_append_inj (all_test.mp (all_not.mp htest))
          (all_test.mp (all_not.mp htests)) hrest hrest' (List.cons.inj h).2
        exact ⟨rfl, rfl⟩
      | group _ _ _ _ => exact absurd (List.cons.inj h).1 (by decide)
  | group op cs ih =>
    intro d rest rest' hd hrest hrest' h
    have hreduced := hd.reduced
    cases hreduced with
    | test u => exact absurd h.symm (write_test_ne_cons (all_test.mp hd.tests).key hparen)
    | not _ => exact absurd (List.cons.inj h).1 (by decide)
    | @group op' ds _ _ _ _ =>
      have htold : ∀ c ∈ cs, c.IsTold := fun c hmem => ih c hmem (hc.of_mem hmem)
      obtain ⟨rfl, rfl, rfl⟩ := writeAll_false_inj htold hc hd (List.cons.inj h).2
      exact ⟨rfl, rfl⟩

/-- Readable clauses of one text are one clause. -/
lemma IsReadable.eq_of_text_eq (hc : c.IsReadable) (hd : d.IsReadable) (h : c.text = d.text) :
    c = d :=
  (hc.isTold d [] [] hd .nil .nil h).1

end Clause

end WhenClause
