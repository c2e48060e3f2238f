import WhenClause.Clause.Join

/-!
# Constant keys

Some keys tell what host a program runs on and never change while it runs. A table gives their
values, and the tests of these keys are settled when a clause is built: a test of presence is the
value itself, and a test of equality compares with the word for the value.
-/

namespace WhenClause

/-- Keys with their fixed values, each key once. -/
structure Constants where
  entries : List (Text × Bool)
  nodup : (entries.map Prod.fst).Nodup
  deriving DecidableEq, Repr

/-- An entry that is not `KEY=true` or `KEY=false`. -/
structure EntryError where
  entry : Text
  deriving DecidableEq, Repr

/-- The sentence about a bad entry. -/
def EntryError.message (e : EntryError) : String :=
  "invalid constant '" ++ String.ofList e.entry ++ "', expected KEY=true or KEY=false"

namespace Constants

/-- No constant keys. -/
def empty : Constants := ⟨[], .nil⟩

/-- The value of a key. -/
def get? (c : Constants) (key : Text) : Option Bool := c.entries.lookup key

/-- The number of keys. -/
def size (c : Constants) : Nat := c.entries.length

/-- Entries with a key set to a value. -/
def set (key : Text) (value : Bool) : List (Text × Bool) → List (Text × Bool)
  | []               => [(key, value)]
  | (k, v) :: others => if k = key then (k, value) :: others else (k, v) :: set key value others

theorem mem_map_fst_set {key k : Text} {value : Bool} {entries : List (Text × Bool)} :
    k ∈ (set key value entries).map Prod.fst ↔ k = key ∨ k ∈ entries.map Prod.fst := by
  induction entries with
  | nil => simp [set]
  | cons entry others ih =>
    rw [set]
    split
    · next hkey =>
      simp only [List.map_cons, List.mem_cons]
      exact ⟨.inr, fun h => h.elim (fun h => .inl (h.trans hkey.symm)) id⟩
    · simp only [List.map_cons, List.mem_cons, ih, or_left_comm]

theorem nodup_set (key : Text) (value : Bool) {entries : List (Text × Bool)}
    (h : (entries.map Prod.fst).Nodup) : ((set key value entries).map Prod.fst).Nodup := by
  induction entries with
  | nil => simp [set]
  | cons entry others ih =>
    obtain ⟨hentry, hothers⟩ := List.nodup_cons.mp h
    rw [set]
    split
    · exact h
    · next hkey =>
      refine List.nodup_cons.mpr ⟨fun hmem => ?_, ih hothers⟩
      exact (mem_map_fst_set.mp hmem).elim hkey hentry

/-- The table with a key set to a value. -/
def insert (c : Constants) (key : Text) (value : Bool) : Constants :=
  ⟨set key value c.entries, nodup_set key value c.nodup⟩

/-- The table with all entries of another, which take the place of its own. -/
def merge (c other : Constants) : Constants :=
  other.entries.foldl (fun c (key, value) => c.insert key value) c

/-- The table of a desktop computer under Linux. -/
def host : Constants :=
  ⟨[("isMac".toList, false), ("isLinux".toList, true), ("isWindows".toList, false),
    ("isWeb".toList, false), ("isMacNative".toList, false), ("isIOS".toList, false),
    ("isMobile".toList, false), ("isEdge".toList, false), ("isFirefox".toList, false),
    ("isChrome".toList, false), ("isSafari".toList, false)], by decide⟩

/-- The word for a truth value. -/
def word (b : Bool) : Text := if b then "true".toList else "false".toList

/-- The truth value of a word. -/
def ofWord? (t : Text) : Option Bool :=
  if t = word true then some true else if t = word false then some false else none

/-- The table of one entry `KEY=true` or `KEY=false`; white space around the two does not count. -/
def ofEntry (entry : Text) : Except EntryError Constants :=
  match Text.splitFirst? '=' entry with
  | some (key, value) =>
    match ofWord? value.trim with
    | some b => if key.trim = [] then .error ⟨entry⟩ else .ok (empty.insert key.trim b)
    | none   => .error ⟨entry⟩
  | none => .error ⟨entry⟩

/-- The table with one more entry. -/
def mergeEntry (c : Constants) (entry : Text) : Except EntryError Constants := do
  return c.merge (← ofEntry entry)

/-- The clause of a test: a constant where the table settles it. -/
def settle (c : Constants) (t : Test) : Clause :=
  match t with
  | .present key              =>
    match c.get? key with
    | some b => .const b
    | none   => .test t
  | .equals negated key value _ =>
    match c.get? key with
    | some b => .const (decide (value = word b) != negated)
    | none   => .test t
  | _                         => .test t

theorem lookup_set (key k : Text) (value : Bool) (entries : List (Text × Bool)) :
    (set key value entries).lookup k = if k = key then some value else entries.lookup k := by
  induction entries with
  | nil =>
    by_cases h : k = key
    · simp [set, h]
    · simp [set, List.lookup_cons, beq_false_of_ne h, h]
  | cons entry entries ih =>
    obtain ⟨key', value'⟩ := entry
    by_cases hk : key' = key <;> by_cases h : k = key'
    · simp [set, hk, h]
    · subst hk
      simp [set, List.lookup_cons, beq_false_of_ne h, h]
    · subst h
      simp [set, hk]
    · simp [set, List.lookup_cons, hk, beq_false_of_ne h, ih]

theorem get?_insert (c : Constants) (key k : Text) (value : Bool) :
    (c.insert key value).get? k = if k = key then some value else c.get? k :=
  lookup_set key k value c.entries

/-- Since each key of the other table stands there once, its entry is the one that counts. -/
theorem get?_merge (c other : Constants) (key : Text) :
    (c.merge other).get? key = (other.get? key).or (c.get? key) := by
  obtain ⟨entries, hnodup⟩ := other
  change (entries.foldl _ c).get? key = (entries.lookup key).or (c.get? key)
  induction entries generalizing c with
  | nil => rfl
  | cons entry others ih =>
    obtain ⟨k, value⟩ := entry
    obtain ⟨hk, hothers⟩ := List.nodup_cons.mp hnodup
    rw [List.foldl_cons, ih _ hothers, get?_insert, List.lookup_cons]
    by_cases h : key = k
    · subst h
      have hnone : others.lookup key = none := by
        rw [List.lookup_eq_none_iff]
        intro entry hentry
        have hne : key ≠ entry.1 := fun heq => hk (List.mem_map.mpr ⟨entry, hentry, heq.symm⟩)
        simpa using hne
      simp [hnone]
    · simp [beq_false_of_ne h, h]

end Constants

namespace Clause

mutual

/-- The canonical clause with the meaning of any clause, under a table of constant keys: built
anew from its tests by `negate` and `join`. -/
def normalize (constants : Constants) : Clause → Clause
  | .const b           => .const b
  | .test t            => constants.settle t
  | .not c             => (normalize constants c).negate
  | .group op children => join op (normalizeAll constants children)

/-- The canonical clauses of some clauses. -/
def normalizeAll (constants : Constants) : List Clause → List Clause
  | []      => []
  | c :: cs => normalize constants c :: normalizeAll constants cs

end

end Clause

end WhenClause
