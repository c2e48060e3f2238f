import Mathlib.Data.List.TakeWhile
import WhenClause.Proofs.Regex.Sets
import WhenClause.Proofs.Text
import WhenClause.Regex.Literal

/-!
# Brackets and backslashes in escapes and classes

A reader of literals and the parser of regexes each decide where an escape or a class ends. They
agree on every escape and on every class whose sets exist: what the parser takes of a text leaves
the reader where it was (`takes_escape?`, `takes_class?`).
-/

namespace WhenClause.Regex

variable {c : Char} {t text rest mid name : Text} {m : Mode} {p q : Prop}

/-! ### Characters without meaning for a reader -/

/-- A character that opens and closes nothing. -/
def IsInert (c : Char) : Prop := c ≠ '\\' ∧ c ≠ '[' ∧ c ≠ ']'

instance : DecidablePred IsInert := fun _ => inferInstanceAs (Decidable (_ ∧ _))

lemma forall_mem_isInert (h : (t.all fun c => decide (IsInert c)) = true) : ∀ c ∈ t, IsInert c :=
  fun c hc => of_decide_eq_true (List.all_eq_true.mp h c hc)

lemma Mode.next_of_isInert (hm : m.escaped = false) (hc : IsInert c) : m.next c = m := by
  simp [Mode.next, hm, hc.1, hc.2.1, hc.2.2]

lemma Mode.escaped_next (hm : m.escaped = false) (hc : c ≠ '\\') : (m.next c).escaped = false := by
  rw [Mode.next, hm]
  split_ifs <;> simp_all

/-- A backslash and the character behind it leave a reader where he was. -/
lemma Mode.next_next_backslash (hm : m.escaped = false) (c : Char) :
    (m.next '\\').next c = m := by
  obtain ⟨escaped, inClass⟩ := m
  obtain rfl : escaped = false := hm
  simp [Mode.next]

lemma Mode.after_append (m : Mode) (t rest : Text) : m.after (t ++ rest) = (m.after t).after rest :=
  List.foldl_append

lemma Mode.after_cons (m : Mode) (c : Char) (t : Text) : m.after (c :: t) = (m.next c).after t :=
  rfl

lemma Mode.after_eq_self (ht : ∀ c ∈ t, m.next c = m) : m.after t = m := by
  induction t with
  | nil => rfl
  | cons c t ih =>
    rw [Mode.after_cons, ht c (List.mem_cons_self ..)]
    exact ih fun d hd => ht d (List.mem_cons_of_mem c hd)

lemma Mode.next_start_of_ne (hslash : c ≠ '\\') (hbracket : c ≠ '[') :
    Mode.start.next c = .start := by
  simp only [Mode.next, Mode.start, hslash, hbracket, Bool.false_eq_true, ↓reduceIte]
  split_ifs <;> rfl

/-! ### Taking parts of a text -/

/-- What is left of a text is behind a part of it that leaves a reader in the mode `m`, if `p`. -/
def Takes (m : Mode) (p : Prop) (text rest : Text) : Prop :=
  ∃ read, text = read ++ rest ∧ (p → m.after read = m)

namespace Takes

lemma refl (m : Mode) (p : Prop) (text : Text) : Takes m p text text :=
  ⟨[], rfl, fun _ => rfl⟩

lemma trans (h : Takes m p text mid) (h' : Takes m p mid rest) : Takes m p text rest := by
  obtain ⟨read, rfl, hread⟩ := h
  obtain ⟨read', rfl, hread'⟩ := h'
  refine ⟨read ++ read', (List.append_assoc ..).symm, fun hp => ?_⟩
  rw [Mode.after_append, hread hp, hread' hp]

lemma imp (h : Takes m p text rest) (hqp : q → p) : Takes m q text rest := by
  obtain ⟨read, htext, hread⟩ := h
  exact ⟨read, htext, fun hq => hread (hqp hq)⟩

lemma cons (hc : m.next c = m) (h : Takes m p text rest) : Takes m p (c :: text) rest := by
  obtain ⟨read, rfl, hread⟩ := h
  refine ⟨c :: read, rfl, fun hp => ?_⟩
  rw [Mode.after_cons, hc, hread hp]

lemma append (ht : p → ∀ c ∈ t, m.next c = m) (rest : Text) : Takes m p (t ++ rest) rest :=
  ⟨t, rfl, fun hp => Mode.after_eq_self (ht hp)⟩

/-- What is taken behind a backslash and another character is taken with them. -/
lemma backslash (hm : m.escaped = false) (c : Char) (h : Takes m p text rest) :
    Takes m p ('\\' :: c :: text) rest := by
  obtain ⟨read, rfl, hread⟩ := h
  refine ⟨'\\' :: c :: read, rfl, fun hp => ?_⟩
  rw [Mode.after_cons, Mode.after_cons, Mode.next_next_backslash hm, hread hp]

/-- Where no reader is followed, it is enough that something is left. -/
lemma of_not (hp : ¬p) (h : rest <:+ text) : Takes m p text rest := by
  obtain ⟨read, rfl⟩ := h
  exact ⟨read, rfl, (absurd · hp)⟩

lemma isSuffix (h : Takes m p text rest) : rest <:+ text := by
  obtain ⟨read, rfl, -⟩ := h
  exact List.suffix_append ..

lemma not_mem (h : Takes m p text rest) (hc : p → c ∉ text) : p → c ∉ rest :=
  fun hp hrest => hc hp (h.isSuffix.subset hrest)

/-- What leaves a text as long as it was leaves it as it was. -/
lemma eq_of_length_eq (h : Takes m p text rest) (hlength : rest.length = text.length) :
    rest = text :=
  h.isSuffix.eq_of_length hlength

lemma takeWhile {f : Char → Bool} (hf : ∀ c, f c = true → m.next c = m) (text : Text) :
    Takes m p text (text.dropWhile f) := by
  conv => arg 3; rw [← List.takeWhile_append_dropWhile (p := f) (l := text)]
  exact append (fun _ c hc => hf c (List.mem_takeWhile_imp hc)) _

end Takes

/-! ### Numbers and names -/

lemma isInert_of_isDigit (h : c.isDigit = true) : IsInert c := by
  refine ⟨?_, ?_, ?_⟩ <;> rintro rfl <;> exact absurd h (by decide)

lemma isInert_of_isHexDigit (h : isHexDigit c = true) : IsInert c := by
  refine ⟨?_, ?_, ?_⟩ <;> rintro rfl <;> exact absurd h (by decide)

lemma isInert_of_isNameChar (h : isNameChar c = true) : IsInert c := by
  refine ⟨?_, ?_, ?_⟩ <;> rintro rfl <;> exact absurd h (by decide +kernel)

section Inert

variable (hm : m.escaped = false)
include hm

lemma Takes.inert (hc : IsInert c) (h : Takes m p text rest) : Takes m p (c :: text) rest :=
  .cons (Mode.next_of_isInert hm hc) h

lemma Takes.digits (text : Text) : Takes m p text (text.dropWhile Char.isDigit) :=
  .takeWhile (fun _ hc => Mode.next_of_isInert hm (isInert_of_isDigit hc)) text

lemma takes_number? {n : Nat} (h : number? text = some (n, rest)) : Takes m p text rest := by
  simp only [number?] at h
  split_ifs at h
  obtain ⟨-, rfl⟩ := Prod.mk.inj (Option.some.inj h)
  exact .digits hm text

/-- A number that begins with a given digit takes the digits behind it. -/
lemma takes_number?_cons {n : Nat} (hc : c.isDigit = true)
    (h : number? (c :: text) = some (n, rest)) : Takes m p text rest := by
  simp only [number?] at h
  split_ifs at h
  obtain ⟨-, rfl⟩ := Prod.mk.inj (Option.some.inj h)
  rw [List.dropWhile_cons_of_pos hc]
  exact .digits hm text

/-- A name up to the sign that closes it. -/
lemma takes_name? {relative : Bool} {close : Char} (hclose : IsInert close)
    (h : name? relative close text = some (name, rest)) : Takes m p text rest := by
  have hnames (text : Text) : Takes m p text (text.dropWhile isNameChar) :=
    .takeWhile (fun _ hc => Mode.next_of_isInert hm (isInert_of_isNameChar hc)) text
  have hhyphen : IsInert '-' := by decide
  unfold name? at h
  split at h
  next start behind hstart =>
  have hbehind : Takes m p text behind := by
    split at hstart <;> cases hstart
    · exact .inert hm hhyphen (.digits hm _)
    · exact hnames text
  split at h
  · next d more =>
    split_ifs at h with hd
    cases h
    simp only [Bool.and_eq_true, decide_eq_true_eq] at hd
    obtain rfl := hd.1.1
    exact hbehind.trans (.inert hm hclose (.refl ..))
  · cases h

end Inert

/-! ### Names of properties -/

/-- A name without characters that mean something to a reader. -/
def IsPlain (name : String) : Prop :=
  ∃ t : Text, name = String.ofList t ∧ (t.all fun c => decide (IsInert c)) = true

lemma isPlain_of_mem_categoryNames : ∀ name ∈ categoryNames, IsPlain name := by
  unfold categoryNames
  repeat refine List.forall_mem_cons.mpr ⟨⟨_, rfl, by decide⟩, ?_⟩
  exact List.forall_mem_nil _

lemma isPlain_of_mem_binaryNames : ∀ name ∈ binaryNames, IsPlain name := by
  unfold binaryNames
  repeat refine List.forall_mem_cons.mpr ⟨⟨_, rfl, by decide⟩, ?_⟩
  exact List.forall_mem_nil _

lemma isPlain_of_mem_scriptNames : ∀ name ∈ scriptNames, IsPlain name := by
  unfold scriptNames
  repeat refine List.forall_mem_cons.mpr ⟨⟨_, rfl, by decide⟩, ?_⟩
  exact List.forall_mem_nil _

lemma isPlain_of_mem_ageNames : ∀ name ∈ ageNames, IsPlain name := by
  unfold ageNames
  repeat refine List.forall_mem_cons.mpr ⟨⟨_, rfl, by decide⟩, ?_⟩
  exact List.forall_mem_nil _

lemma isInert_of_isListed {names : List String} (hnames : ∀ name ∈ names, IsPlain name)
    (h : isListed name names = true) : ∀ c ∈ name, IsInert c := by
  obtain ⟨t, heq, ht⟩ := hnames _ (List.contains_iff_mem.mp h)
  rw [String.ofList_injective heq]
  exact forall_mem_isInert ht

/-- A loose name keeps the characters that mean something to a reader. -/
lemma mem_looseName (hc : ¬IsInert c) (h : c ∈ name) : c ∈ looseName name := by
  have hcases : c = '\\' ∨ c = '[' ∨ c = ']' := by
    simpa only [IsInert, not_and_or, ne_eq, not_not] using hc
  have hlower : c.toLower = c := by rcases hcases with rfl | rfl | rfl <;> decide
  have hkept (t : Text) (ht : c ∈ t) : c ∈ (t.filter fun d =>
      d ≠ ' ' && d ≠ '_' && d ≠ '-' && d.toNat < 128).map Char.toLower :=
    List.mem_map.mpr ⟨c, List.mem_filter.mpr ⟨ht, by
      rcases hcases with rfl | rfl | rfl <;> decide⟩, hlower⟩
  have hloose : ∀ (body kept : Text), c ∈ kept →
      c ∈ (if body.length < name.length && kept = ['c'] then ['i', 's', 'c'] else kept) := by
    intro body kept hkept
    split_ifs with hshort
    · simp only [Bool.and_eq_true, decide_eq_true_eq] at hshort
      rw [hshort.2, List.mem_singleton] at hkept
      rw [hkept]
      decide
    · exact hkept
  refine hloose _ _ (hkept _ ?_)
  split
  · next a b more =>
    split_ifs with his
    · simp only [Bool.and_eq_true, decide_eq_true_eq] at his
      rcases List.mem_cons.mp h with rfl | h
      · rw [hlower] at his
        exact absurd (by rw [his.1]; decide) hc
      rcases List.mem_cons.mp h with rfl | h
      · rw [hlower] at his
        exact absurd (by rw [his.2]; decide) hc
      exact h
    · exact h
  · exact h

lemma isInert_of_looseName (h : ∀ c ∈ looseName name, IsInert c) : ∀ c ∈ name, IsInert c := by
  intro c hc
  by_contra hinert
  exact hinert (h c (mem_looseName hinert hc))

lemma isInert_of_isValueProperty {property value : Text}
    (h : isValueProperty property value = true) :
    (∀ c ∈ property, IsInert c) ∧ ∀ c ∈ value, IsInert c := by
  have hcategory : ∀ name ∈ ["gc", "generalcategory"], IsPlain name := by
    repeat refine List.forall_mem_cons.mpr ⟨⟨_, rfl, by decide⟩, ?_⟩
    exact List.forall_mem_nil _
  have hscript : ∀ name ∈ ["sc", "script", "scx", "scriptextensions"], IsPlain name := by
    repeat refine List.forall_mem_cons.mpr ⟨⟨_, rfl, by decide⟩, ?_⟩
    exact List.forall_mem_nil _
  rw [isValueProperty] at h
  split_ifs at h with hgc hsc
  · exact ⟨isInert_of_looseName (isInert_of_isListed hcategory hgc),
      isInert_of_looseName (isInert_of_isListed isPlain_of_mem_categoryNames h)⟩
  · exact ⟨isInert_of_looseName (isInert_of_isListed hscript hsc),
      isInert_of_looseName (isInert_of_isListed isPlain_of_mem_scriptNames h)⟩
  · simp only [Bool.and_eq_true, decide_eq_true_eq] at h
    refine ⟨isInert_of_looseName ?_,
      isInert_of_looseName (isInert_of_isListed isPlain_of_mem_ageNames h.2)⟩
    rw [h.1]
    exact forall_mem_isInert (by decide)

lemma eq_of_splitUnequal? {property value : Text} (h : splitUnequal? name = some (property, value)) :
    name = property ++ '!' :: '=' :: value := by
  fun_induction splitUnequal? name generalizing property with
  | case1 rest => cases h; rfl
  | case2 c rest _ ih =>
    obtain ⟨⟨before, after⟩, hsplit, heq⟩ := Option.map_eq_some_iff.mp h
    cases heq
    rw [ih hsplit, List.cons_append]
  | case3 => cases h

/-- A name with a value holds nothing else but the signs between them. -/
lemma mem_of_splitValue? {property value : Text} (h : splitValue? name = some (property, value))
    (hc : c ∈ name) : c ∈ property ∨ c ∈ value ∨ IsInert c := by
  rw [splitValue?] at h
  have hone {sign : Char} (hsign : IsInert sign)
      (h : Text.splitFirst? sign name = some (property, value)) :
      c ∈ property ∨ c ∈ value ∨ IsInert c := by
    rw [Text.eq_of_splitFirst? h, List.mem_append, List.mem_cons] at hc
    rcases hc with hc | rfl | hc
    exacts [.inl hc, .inr (.inr hsign), .inr (.inl hc)]
  cases hunequal : splitUnequal? name with
  | some parts =>
    rw [hunequal] at h
    cases h
    rw [eq_of_splitUnequal? hunequal, List.mem_append, List.mem_cons, List.mem_cons] at hc
    rcases hc with hc | rfl | rfl | hc
    exacts [.inl hc, .inr (.inr (by decide)), .inr (.inr (by decide)), .inr (.inl hc)]
  | none =>
    rw [hunequal] at h
    cases hcolon : Text.splitFirst? ':' name with
    | some parts =>
      rw [hcolon] at h
      cases h
      exact hone (by decide) hcolon
    | none =>
      rw [hcolon] at h
      exact hone (by decide) h

/-- The name of a property that exists opens and closes nothing. -/
lemma isInert_of_isProperty (h : isProperty name = true) : ∀ c ∈ name, IsInert c := by
  intro c hc
  rw [isProperty] at h
  cases hsplit : splitValue? name with
  | some parts =>
    obtain ⟨property, value⟩ := parts
    simp only [hsplit] at h
    obtain ⟨hproperty, hvalue⟩ := isInert_of_isValueProperty h
    rcases mem_of_splitValue? hsplit hc with hc | hc | hc
    · exact hproperty c hc
    · exact hvalue c hc
    · exact hc
  | none =>
    simp only [hsplit, Bool.or_eq_true] at h
    refine isInert_of_looseName ?_ c hc
    rcases h with (h | h) | h
    · exact isInert_of_isListed isPlain_of_mem_binaryNames h
    · exact isInert_of_isListed isPlain_of_mem_categoryNames h
    · exact isInert_of_isListed isPlain_of_mem_scriptNames h

/-! ### Escapes -/

section Escapes

variable {s s' : ParserState} {e : Escape} {n : Node}

/-- A property up to its name's end, which exists. -/
lemma takes_property? (hm : m.escaped = false) (h : property? text = some (e, rest)) :
    Takes m (e.toNode.setsExist = true) text rest := by
  match text, h with
  | [], h => cases h
  | c :: text, h =>
    unfold property? at h
    split at h
    · next text heq =>
      obtain ⟨⟨name, after⟩, hsplit, hpair⟩ := Option.map_eq_some_iff.mp h
      cases hpair
      cases heq
      rw [Text.eq_of_splitFirst? hsplit]
      refine .inert hm (by decide) (.trans (.append ?_ _) (.inert hm (by decide) (.refl ..)))
      exact fun hset d hd => Mode.next_of_isInert hm (isInert_of_isProperty hset d hd)
    · next d text heq =>
      cases h
      cases heq
      exact .append (t := [c]) (fun hset d hd =>
        Mode.next_of_isInert hm (isInert_of_isProperty hset d hd)) _
    · cases h

lemma takes_hexChar? (hm : m.escaped = false) {count : Nat}
    (h : hexChar? count text = some (e, rest)) : Takes m p text rest := by
  have hhex {t : Text} (ht : t.all isHexDigit = true) (rest : Text) : Takes m p (t ++ rest) rest :=
    .append (fun _ c hc => Mode.next_of_isInert hm
      (isInert_of_isHexDigit (List.all_eq_true.mp ht c hc))) rest
  simp only [hexChar?] at h
  split_ifs at h with hdigits
  · obtain ⟨c, -, hpair⟩ := Option.map_eq_some_iff.mp h
    cases hpair
    rw [Bool.and_eq_true] at hdigits
    conv => arg 3; rw [← List.take_append_drop count text]
    exact hhex hdigits.2 _
  · split at h
    · next text =>
      split at h
      · next after hafter =>
        split_ifs at h
        obtain ⟨c, -, hpair⟩ := Option.map_eq_some_iff.mp h
        cases hpair
        refine .inert hm (by decide) ?_
        rw [← List.takeWhile_append_dropWhile (p := isHexDigit) (l := text), hafter]
        exact (hhex (List.all_takeWhile ..) _).trans (.inert hm (by decide) (.refl ..))
      · cases h
    · cases h

lemma takes_namedReference? (hm : m.escaped = false) {close : Char} (hclose : IsInert close)
    (h : s.namedReference? close text = some (n, rest)) : Takes m p text rest := by
  simp only [ParserState.namedReference?, Option.pure_def, Option.bind_eq_bind,
    Option.bind_eq_some_iff] at h
  obtain ⟨⟨name, behind⟩, hname, group, -, hpair⟩ := h
  cases hpair
  exact takes_name? hm hclose hname

/-- A reference by number takes the number. -/
lemma exists_number?_of_numberedReference? (h : s.numberedReference? text = some (n, s', rest)) :
    ∃ k, number? text = some (k, rest) := by
  simp only [ParserState.numberedReference?, Option.pure_def, Option.bind_eq_bind,
    Option.bind_eq_some_iff] at h
  obtain ⟨⟨k, behind⟩, hnumber, hresult⟩ := h
  cases hresult
  exact ⟨k, hnumber⟩

/-- A backslash and what the parser takes behind it, which names a set that exists if any. -/
lemma takes_escape? (hm : m.escaped = false) {inClass : Bool}
    (h : s.escape? inClass text = some (e, s', rest)) :
    Takes m (e.toNode.setsExist = true) ('\\' :: text) rest := by
  match text, h with
  | [], h => cases h
  | c :: text, h =>
    rw [ParserState.escape?] at h
    refine .backslash hm c ?_
    split at h
    · next hdigit =>
      simp only [Option.pure_def, Option.bind_eq_bind, Option.bind_eq_some_iff] at h
      obtain ⟨⟨node, behind⟩, hreference, hpair⟩ := h
      cases hpair
      obtain ⟨k, hnumber⟩ := exists_number?_of_numberedReference? hreference
      exact takes_number?_cons hm hdigit hnumber
    split at h
    · -- a reference by name, between quotes or between angle brackets
      split at h
      all_goals
        simp only [Option.pure_def, Option.bind_eq_bind, Option.bind_some, Option.bind_none,
          Option.bind_eq_some_iff, reduceCtorEq] at h
      all_goals
        obtain ⟨⟨node, behind⟩, hreference, hpair⟩ := h
        cases hpair
        exact .inert hm (by decide) (takes_namedReference? hm (by decide) hreference)
    split at h
    · obtain ⟨node, -, hpair⟩ := Option.map_eq_some_iff.mp h
      cases hpair
      exact .refl ..
    split at h
    · cases h
      exact .refl ..
    split at h
    · cases h
      exact .refl ..
    -- a code point of two, four or eight digits
    iterate 3
      split at h
      · obtain ⟨⟨e, rest⟩, hchar, hpair⟩ := Option.map_eq_some_iff.mp h
        cases hpair
        exact takes_hexChar? hm hchar
    split at h
    · obtain ⟨⟨e, rest⟩, hproperty, hpair⟩ := Option.map_eq_some_iff.mp h
      cases hpair
      exact takes_property? hm hproperty
    split at h
    · cases h
      exact .refl ..
    split at h
    · cases h
      exact .refl ..
    · cases h

end Escapes

/-! ### Classes -/

section Classes

variable {s s' : ParserState} {e : Escape} {n : Node} {items : List ClassItem}

lemma setsExist_of_toItems? (h : e.toItems? = some items)
    (hvalid : items.all ClassItem.isValid = true) : e.toNode.setsExist = true := by
  cases e with
  | char c => rfl
  | set valid =>
    cases h
    simpa [ClassItem.isValid, Escape.toNode, Node.setsExist] using hvalid
  | hexDigit negated => rfl
  | node n => cases h

lemma all_isValid_of_isWellFormedClass (h : isWellFormedClass items = true) :
    items.all ClassItem.isValid = true :=
  (Bool.and_eq_true_iff.mp h).1

/-- The rest of a class leads a reader out of it, whatever brackets it opens again. -/
lemma exists_read_of_classItems? {depth fuel : ℕ} (hm : m.escaped = false)
    (h : s.classItems? depth fuel text = some (items, s', rest)) :
    ∃ read, text = read ++ rest ∧
      (items.all ClassItem.isValid = true → m.after read = .start) := by
  induction fuel generalizing m s depth text items with
  | zero => cases h
  | succ fuel ih =>
    -- a character that no backslash hides stands for itself, and the rest follows
    have hraw {c : Char} (hc : c ≠ '\\') {s : ParserState} {depth : ℕ} {text : Text}
        (h : (s.classItems? depth fuel text).bind (fun parts =>
          some (.raw c :: parts.1, parts.2.1, parts.2.2)) = some (items, s', rest)) :
        ∃ read, c :: text = read ++ rest ∧
          (items.all ClassItem.isValid = true → m.after read = .start) := by
      obtain ⟨⟨more, _, _⟩, hmore, hresult⟩ := Option.bind_eq_some_iff.mp h
      cases hresult
      obtain ⟨read, rfl, hread⟩ := ih (Mode.escaped_next hm hc) hmore
      exact ⟨c :: read, rfl, hread⟩
    rw [ParserState.classItems?.eq_def] at h
    dsimp only at h
    split at h
    · cases h
    · simp only [Option.pure_def, Option.bind_eq_bind, Option.bind_eq_some_iff] at h
      obtain ⟨⟨e, s₁, behind⟩, hescape, own, hown, ⟨more, _, _⟩, hmore, hresult⟩ := h
      cases hresult
      obtain ⟨read, htext, hread⟩ := takes_escape? hm hescape
      obtain ⟨read', rfl, hread'⟩ := ih hm hmore
      refine ⟨read ++ read', by rw [htext, List.append_assoc], fun hvalid => ?_⟩
      rw [List.all_append, Bool.and_eq_true] at hvalid
      rw [Mode.after_append, hread (setsExist_of_toItems? hown hvalid.1), hread' hvalid.2]
    · next text =>
      split_ifs at h
      · cases h
        exact ⟨[']'], rfl, fun _ => by simp [Mode.after, Mode.next, hm, Mode.start]⟩
      · exact hraw (by decide) h
    · next d text hslash _ => exact hraw hslash h

/-- A class whose sets exist leaves a reader outside of it. -/
lemma takes_class? (h : s.class? text = some (n, s', rest)) :
    Takes .start (n.setsExist = true) ('[' :: text) rest := by
  unfold ParserState.class? at h
  split at h
  next caret behind hcaret =>
  split at h
  next bracket inner hbracket =>
  simp only [Option.pure_def, Option.bind_eq_bind, Option.bind_eq_some_iff] at h
  obtain ⟨⟨items, _, _⟩, hitems, hresult⟩ := h
  cases hresult
  obtain ⟨signs, rfl, hsigns⟩ : ∃ signs, text = signs ++ inner ∧
      (Mode.start.after ('[' :: signs)).escaped = false := by
    split at hcaret <;> cases hcaret <;> split at hbracket <;> cases hbracket
    exacts [⟨['^', ']'], rfl, rfl⟩, ⟨['^'], rfl, rfl⟩, ⟨[']'], rfl, rfl⟩, ⟨[], rfl, rfl⟩]
  obtain ⟨read, rfl, hread⟩ := exists_read_of_classItems? hsigns hitems
  refine ⟨'[' :: signs ++ read, by simp only [List.cons_append, List.append_assoc], fun hset => ?_⟩
  have hvalid := all_isValid_of_isWellFormedClass hset
  rw [List.all_append, Bool.and_eq_true] at hvalid
  rw [Mode.after_append, hread hvalid.2]

end Classes

end WhenClause.Regex
