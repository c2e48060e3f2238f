import WhenClause.Proofs.Clause.Tests
import WhenClause.Proofs.Regex.Fuel
import WhenClause.Proofs.Regex.Literal
import WhenClause.Regex.Accept

/-!
# Flags in the source of a regex

The flags that count stand in a group at the head of the source of a regex (`sourceOf_eq`), which
is read without a trace. So an accepted pattern closes its escapes and classes as a whole regex
does (`after_of_accepts`), and a pattern is accepted under its flags as they are kept, in order and
each once, if and only if it is accepted under them as they are written (`accepts_sortFlags`).
-/

namespace WhenClause.Regex

variable {depth fuel : Nat} {s : ParserState} {flags flags' pattern : Text}

/-! ### The source of a pattern -/

/-- A flag that stands in the source of a pattern. -/
def IsInline (c : Char) : Prop := c ∈ ['i', 'm', 's']

instance : DecidablePred IsInline := fun c => inferInstanceAs (Decidable (c ∈ ['i', 'm', 's']))

lemma IsInline.eq_or {c : Char} (h : IsInline c) : c = 'i' ∨ c = 'm' ∨ c = 's' := by
  simpa [IsInline] using h

/-- A pattern behind a group of flags. -/
def behindFlags (flags pattern : Text) : Text := '(' :: '?' :: flags ++ ')' :: pattern

/-- The flags that stand in the source of a pattern. -/
def inlineFlags (flags : Text) : Text := flags.filter fun c => c ∈ ['i', 'm', 's']

lemma isInline_of_mem_inlineFlags {c : Char} (h : c ∈ inlineFlags flags) : IsInline c :=
  of_decide_eq_true (List.mem_filter.mp h).2

lemma sourceOf_eq (pattern flags : Text) :
    sourceOf pattern flags =
      if inlineFlags flags = [] then pattern else behindFlags (inlineFlags flags) pattern := by
  rw [sourceOf, inlineFlags]
  split
  · rename_i hnil
    rw [if_pos hnil]
  · rename_i hne
    rw [if_neg hne]
    rfl

/-! ### Accepted patterns -/

/-- A group of flags leaves a reader where he was. -/
lemma after_behindFlags (hflags : ∀ c ∈ flags, IsInline c) (pattern : Text) :
    Mode.start.after (behindFlags flags pattern) = Mode.start.after pattern := by
  have hinert : ∀ c ∈ '(' :: '?' :: flags ++ [')'], IsInert c := by
    intro c hc
    have hcases : c = '(' ∨ c = '?' ∨ IsInline c ∨ c = ')' := by
      simp only [List.cons_append, List.mem_cons, List.mem_append, List.not_mem_nil, or_false] at hc
      exact hc.imp_right fun hc => hc.imp_right fun hc => hc.imp_left (hflags c)
    rcases hcases with rfl | rfl | hc | rfl
    · decide
    · decide
    · exact forall_mem_isInert (by decide) c hc
    · decide
  have hsource : behindFlags flags pattern = ('(' :: '?' :: flags ++ [')']) ++ pattern := by
    rw [behindFlags, List.append_assoc, List.singleton_append]
  rw [hsource, Mode.after_append,
    Mode.after_eq_self fun c hc => Mode.next_of_isInert rfl (hinert c hc)]

/-- An accepted pattern without the sign of comments closes its escapes and classes. -/
theorem after_of_accepts (hpattern : '#' ∉ pattern) (h : accepts pattern flags = true) :
    Mode.start.after pattern = .start := by
  unfold accepts at h
  split at h
  · next node hparse =>
    have hset := Node.setsExist_of_isAccepted h
    rw [sourceOf_eq] at hparse
    split_ifs at hparse with hflags
    · exact after_of_parse? hpattern hparse hset
    · have hinline : ∀ c ∈ inlineFlags flags, IsInline c := fun _ => isInline_of_mem_inlineFlags
      have hsign : '#' ∉ inlineFlags flags := fun hc => absurd (hinline '#' hc) (by decide)
      have hsource : '#' ∉ behindFlags (inlineFlags flags) pattern := by
        simp [behindFlags, hsign, hpattern]
      rw [← after_behindFlags hinline pattern]
      exact after_of_parse? hsource hparse hset
  · cases h

/-! ### Reading a group of flags -/

lemma flags?_inline (hs : s.verbose = false) (hflags : ∀ c ∈ flags, IsInline c)
    (hfuel : flags.length < fuel) (pattern : Text) :
    ParserState.flags? false fuel s (flags ++ ')' :: pattern) = some (false, s, pattern) := by
  induction flags generalizing fuel with
  | nil =>
    cases fuel with
    | zero => cases hfuel
    | succ fuel => simp [ParserState.flags?, ParserState.skip, skipFrom, hs]
  | cons c flags ih =>
    cases fuel with
    | zero => cases hfuel
    | succ fuel =>
      obtain ⟨hc, hflags⟩ := List.forall_mem_cons.mp hflags
      have hrest := ih hflags (Nat.lt_of_succ_lt_succ hfuel)
      rcases hc.eq_or with rfl | rfl | rfl <;>
        simp [ParserState.flags?, ParserState.skip, skipFrom, hs, hrest]

/-- A group of flags is empty and leaves the state as it is. -/
lemma atom?_behindFlags (hdepth : depth + 1 < maxDepth) (hs : s.verbose = false)
    (hne : flags ≠ []) (hflags : ∀ c ∈ flags, IsInline c) (pattern : Text) :
    atom? depth (fuel + 2) s (behindFlags flags pattern) = some (.empty, s, pattern) := by
  have hdepth' : ¬maxDepth ≤ depth + 1 := Nat.not_le.mpr hdepth
  have hskip : s.skip ('?' :: (flags ++ ')' :: pattern)) =
      some ('?' :: (flags ++ ')' :: pattern)) := by
    simp [ParserState.skip, skipFrom, hs]
  have hkind : groupKind? ('?' :: (flags ++ ')' :: pattern)) =
        some (.flags, flags ++ ')' :: pattern) ∧
      lacksFlags (flags ++ ')' :: pattern) = false := by
    cases flags with
    | nil => exact absurd rfl hne
    | cons c flags =>
      rcases (hflags c (List.mem_cons_self ..)).eq_or with rfl | rfl | rfl <;> exact ⟨rfl, rfl⟩
  have hfuel : flags.length < (flags ++ ')' :: pattern).length + 1 := by
    rw [List.length_append]
    omega
  have hread : ParserState.flags? false ((flags ++ ')' :: pattern).length + 1) s
      (flags ++ ')' :: pattern) = some (false, s, pattern) :=
    flags?_inline hs hflags hfuel pattern
  have hatom : atom? depth (fuel + 2) s (behindFlags flags pattern) =
    group? (depth + 1) (fuel + 1) s ('?' :: (flags ++ ')' :: pattern)) := by
    rw [behindFlags, List.cons_append, List.cons_append, atom?]
  rw [hatom, group?, if_neg hdepth', hskip]
  simp only [Option.bind_eq_bind, Option.bind_some, hkind.1, hkind.2, hread]
  rfl

/-- What is read at the head of a source is read again behind its flags. -/
lemma pieces?_behindFlags (hdepth : depth + 1 < maxDepth) (hs : s.verbose = false)
    (hne : flags ≠ []) (hflags : ∀ c ∈ flags, IsInline c) (pattern : Text) :
    pieces? depth (fuel + 3) s (behindFlags flags pattern) = (do
      let (node, rest) ← s.quantified? .empty pattern
      let (nodes, s, rest) ← pieces? depth (fuel + 2) s rest
      some (if node.isEmpty then nodes else node :: nodes, s, rest)) := by
  have hskip : s.skip (behindFlags flags pattern) = some (behindFlags flags pattern) := by
    cases flags with
    | nil => exact absurd rfl hne
    | cons c flags =>
      have hc : c ≠ '#' := by
        rintro rfl
        exact absurd (hflags '#' (List.mem_cons_self ..)) (by decide)
      simp [ParserState.skip, behindFlags, skipFrom, hs, hc]
  rw [pieces?, hskip]
  simp only [Option.bind_eq_bind, Option.bind_some, atom?_behindFlags hdepth hs hne hflags pattern]
  cases hquantified : s.quantified? .empty pattern with
  | none => rfl
  | some parts =>
    obtain ⟨node, rest⟩ := parts
    have hle : rest.length ≤ pattern.length := length_quantified?_le hquantified
    have hlt : rest.length ≠ (behindFlags flags pattern).length := by
      simp only [behindFlags, List.cons_append, List.length_cons, List.length_append]
      omega
    simp [hlt]

/-! ### Other flags -/

section Flags

variable (hne : flags ≠ []) (hne' : flags' ≠ [])
  (hflags : ∀ c ∈ flags, IsInline c) (hflags' : ∀ c ∈ flags', IsInline c)
include hne hne' hflags hflags'

/-- What a pattern is behind some flags it is with enough fuel behind any others. -/
lemma alternation?_behindFlags {fuel fuel' : ℕ} {r : Node × ParserState × Text}
    (h : alternation? 0 (fuel + 4) .start (behindFlags flags pattern) = some r)
    (hfuel : 8 * pattern.length ≤ fuel') :
    alternation? 0 (fuel' + 4) .start (behindFlags flags' pattern) = some r := by
  have hdepth : 0 + 1 < maxDepth := by decide
  rw [alternation?, pieces?_behindFlags hdepth rfl hne hflags] at h
  rw [alternation?, pieces?_behindFlags hdepth rfl hne' hflags']
  simp only [Option.bind_eq_bind, Option.bind_eq_some_iff] at h ⊢
  obtain ⟨⟨parts, s₁, mid⟩, ⟨⟨node, after⟩, hquantified, ⟨nodes, s₂, last⟩, hmore, hparts⟩, inner,
    hskip, ⟨others, s₃, rest⟩, hbranches, h⟩ := h
  obtain rfl : last = mid := by
    cases hparts
    rfl
  have hafter : after.length ≤ pattern.length := length_quantified?_le hquantified
  have hlast : last.length ≤ after.length := length_pieces?_le hmore
  have hinner : inner.length ≤ last.length := length_skip_le hskip
  have hmore' : pieces? 0 (fuel' + 2) .start after = some (nodes, s₂, last) :=
    pieces?_of_le hmore (by omega)
  exact ⟨_, ⟨_, hquantified, _, hmore', hparts⟩, _, hskip, _,
    branches?_of_le hbranches (by omega), h⟩

/-- A pattern is parsed alike behind any flags. -/
lemma parse?_behindFlags :
    parse? (behindFlags flags pattern) = parse? (behindFlags flags' pattern) := by
  have hlength (flags : Text) :
      8 * pattern.length ≤ 8 * (behindFlags flags pattern).length + 4 := by
    simp only [behindFlags, List.cons_append, List.length_cons, List.length_append]
    omega
  have hread : alternation? 0 (8 * (behindFlags flags pattern).length + 8) .start
        (behindFlags flags pattern) =
      alternation? 0 (8 * (behindFlags flags' pattern).length + 8) .start
        (behindFlags flags' pattern) := by
    refine Option.ext fun r => ⟨fun h => ?_, fun h => ?_⟩
    · exact alternation?_behindFlags hne hne' hflags hflags' h (hlength flags')
    · exact alternation?_behindFlags hne' hne hflags' hflags h (hlength flags)
  rw [parse?, parse?, hread]

end Flags

lemma sortFlags_of_splitQuoted? {content : Text}
    (h : splitQuoted? content = some (pattern, flags)) : Test.sortFlags flags = flags := by
  obtain ⟨-, -, -, -, -, rfl | rfl⟩ := exists_parts_of_splitQuoted? h <;> rfl

/-- A regex is accepted with its flags as they are kept. -/
theorem accepts_sortFlags (pattern flags : Text) :
    accepts pattern (Test.sortFlags flags) = accepts pattern flags := by
  have hnil : inlineFlags (Test.sortFlags flags) = [] ↔ inlineFlags flags = [] := by
    simp only [inlineFlags, List.filter_eq_nil_iff, Test.mem_sortFlags]
  have hparse : parse? (sourceOf pattern (Test.sortFlags flags)) =
      parse? (sourceOf pattern flags) := by
    rw [sourceOf_eq, sourceOf_eq]
    by_cases h : inlineFlags flags = []
    · rw [if_pos h, if_pos (hnil.mpr h)]
    · rw [if_neg h, if_neg (mt hnil.mp h)]
      exact parse?_behindFlags (mt hnil.mp h) h (fun _ => isInline_of_mem_inlineFlags)
        fun _ => isInline_of_mem_inlineFlags
  rw [accepts, accepts, hparse]

end WhenClause.Regex
