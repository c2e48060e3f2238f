import Mathlib.Tactic.Common
import WhenClause.Command.Run
import WhenClause.Proofs.Command.Arguments
import WhenClause.Proofs.Parse.Session

/-!
# Checking several texts

A check that cannot start prints nothing but the first of its faults, and any other is put together
from the checks of its texts alone, with the same options (`runProgram_check`). What it needs of
the parts of a run are the lines of the standard input (`linesFrom_eq_lines`), the first entry at
fault (`foldlM_mergeEntry`), that a session which goes from text to text checks each as a new one
would (`Session.checkEach_eq_map`), and how blocks and failures add up (`resultOf_map`).
-/

namespace WhenClause

/-! ### The lines of an input -/

namespace Text

/-- A line without a carriage return at its end. -/
def dropReturn (line : Text) : Text := if line.getLast? = some '\r' then line.dropLast else line

/-- The lines of a text: what stands in front of each line feed, without a carriage return, and
behind the last, unless nothing stands there. -/
def lines (t : Text) : List Text :=
  let parts := t.splitOn '\n'
  parts.dropLast.map dropReturn ++ parts.getLast?.toList.filter (· ≠ [])

variable {t : Text}

lemma lines_of_not_mem (h : '\n' ∉ t) : t.lines = if t = [] then [] else [t] := by
  rw [lines, List.splitOn_eq_singleton h]
  by_cases ht : t = [] <;> simp [ht]

lemma lines_append_cons (h : '\n' ∉ t) (rest : Text) :
    lines (t ++ '\n' :: rest) = t.dropReturn :: rest.lines := by
  rw [lines, lines, List.splitOn_append_cons_self_of_not_mem h]
  obtain ⟨part, parts, hparts⟩ := List.exists_cons_of_ne_nil (List.splitOn_ne_nil '\n' rest)
  rw [hparts]
  rfl

lemma dropReturn_reverse (line : Text) :
    dropReturn line.reverse =
      match line with
      | '\r' :: line => line.reverse
      | _            => line.reverse := by
  cases line with
  | nil => rfl
  | cons c line =>
    rw [List.reverse_cons, dropReturn, List.getLast?_concat, List.dropLast_concat]
    by_cases hc : c = '\r'
    · rw [if_pos (congrArg some hc)]
      subst hc
      rfl
    · rw [if_neg (mt Option.some.inj hc)]
      split
      · rename_i heq
        exact absurd (List.cons.inj heq).1 hc
      · rfl

end Text

/-- Lines are read as they are split, where a line that has begun stands in front of the text. -/
lemma linesFrom_eq_lines {line : Text} (hline : '\n' ∉ line) (t : Text) :
    linesFrom line t = Text.lines (line.reverse ++ t) := by
  fun_induction linesFrom line t with
  | case1 => rfl
  | case2 line hne =>
    rw [List.append_nil, Text.lines_of_not_mem (mt List.mem_reverse.mp hline),
      if_neg (mt List.reverse_eq_nil_iff.mp hne)]
  | case3 line rest ih =>
    rw [Text.lines_append_cons (mt List.mem_reverse.mp hline), Text.dropReturn_reverse,
      ih List.not_mem_nil]
    rfl
  | case4 line c rest hc ih =>
    have hline' : '\n' ∉ c :: line :=
      List.not_mem_cons_of_ne_of_not_mem (fun h => hc h.symm) hline
    rw [ih hline', List.reverse_cons, List.append_assoc]
    rfl

-- a line feed after the last line begins none, and a carriage return without it ends none
example : linesFrom [] "a\r\n\nb\r".toList = [['a'], [], ['b', '\r']] := rfl

/-- The texts that a check is for: those on the command line, or else the lines of the standard
input that are not white. -/
def expressions (texts : List Text) (stdin : ByteArray) : List Text :=
  if texts = [] then
    ((String.fromUTF8? stdin).elim [] fun input => Text.lines input.toList).filter fun l => !l.isWhite
  else texts

/-! ### What keeps a check from starting -/

/-- What is wrong with a name of a log level. -/
def levelFault? (name : Text) : Option RunError :=
  match LogLevel.ofName name with
  | .ok _    => none
  | .error e => some (.level e)

/-- What is wrong with an entry of the constants. -/
def entryFault? (entry : Text) : Option RunError :=
  match Constants.ofEntry entry with
  | .ok _    => none
  | .error e => some (.entry e)

/-- All that keeps a check from starting, in order. -/
def setupFaults (level : Option Text) (entries texts : List Text) (stdin : ByteArray) :
    List RunError :=
  level.toList.filterMap levelFault? ++
    (if texts = [] ∧ (String.fromUTF8? stdin).isNone then [.input] else []) ++
    entries.filterMap entryFault? ++
    (if expressions texts stdin = [] then [.noInput] else [])

section Faults

variable {entries texts xs : List Text} {e : RunError} {es : List RunError} {level : Option Text}
  {stdin : ByteArray} {noConstants : Bool}

lemma levelOf_of_nil (h : level.toList.filterMap levelFault? = []) : ∃ l, levelOf level = .ok l := by
  cases level with
  | none => exact ⟨_, rfl⟩
  | some name =>
    rw [levelOf]
    cases hname : LogLevel.ofName name with
    | ok l => exact ⟨l, rfl⟩
    | error e => simp [levelFault?, hname] at h

lemma levelOf_of_cons (h : level.toList.filterMap levelFault? = e :: es) :
    levelOf level = .error e := by
  cases level with
  | none => cases h
  | some name =>
    rw [levelOf]
    cases hname : LogLevel.ofName name with
    | ok l => simp [levelFault?, hname] at h
    | error e' =>
      obtain ⟨rfl, -⟩ : RunError.level e' = e ∧ es = [] := by
        simpa [levelFault?, hname, eq_comm] using h
      rfl

lemma mergeEntry_of_ok {entry : Text} {k : Constants} (h : Constants.ofEntry entry = .ok k)
    (K : Constants) : K.mergeEntry entry = .ok (K.merge k) := by
  rw [Constants.mergeEntry, h]
  rfl

lemma mergeEntry_of_error {entry : Text} {e : EntryError} (h : Constants.ofEntry entry = .error e)
    (K : Constants) : K.mergeEntry entry = .error e := by
  rw [Constants.mergeEntry, h]
  rfl

/-- Entries are added up to the first at fault. -/
lemma foldlM_mergeEntry (entries : List Text) (K : Constants) :
    match entries.filterMap entryFault? with
    | []     => ∃ K', entries.foldlM Constants.mergeEntry K = .ok K'
    | e :: _ => ∃ e', e = .entry e' ∧ entries.foldlM Constants.mergeEntry K = .error e' := by
  induction entries generalizing K with
  | nil => exact ⟨K, rfl⟩
  | cons entry entries ih =>
    cases h : Constants.ofEntry entry with
    | ok k =>
      have hfault : entryFault? entry = none := by rw [entryFault?, h]
      rw [List.filterMap_cons_none hfault, List.foldlM_cons, mergeEntry_of_ok h]
      exact ih (K.merge k)
    | error e =>
      have hfault : entryFault? entry = some (.entry e) := by rw [entryFault?, h]
      rw [List.filterMap_cons_some hfault, List.foldlM_cons, mergeEntry_of_error h]
      exact ⟨e, rfl, rfl⟩

lemma constantsOf_of_nil (h : entries.filterMap entryFault? = []) (noConstants : Bool) :
    ∃ K, constantsOf noConstants entries = .ok K := by
  have hfold := foldlM_mergeEntry entries (if noConstants then .empty else .host)
  rw [h] at hfold
  obtain ⟨K, hK⟩ := hfold
  exact ⟨K, by rw [constantsOf, hK]⟩

lemma constantsOf_of_cons (h : entries.filterMap entryFault? = e :: es) (noConstants : Bool) :
    constantsOf noConstants entries = .error e := by
  have hfold := foldlM_mergeEntry entries (if noConstants then .empty else .host)
  rw [h] at hfold
  obtain ⟨e', rfl, he'⟩ := hfold
  rw [constantsOf, he']

lemma textsOf_eq (texts : List Text) (stdin : ByteArray) :
    textsOf texts stdin =
      if texts = [] ∧ (String.fromUTF8? stdin).isNone then .error .input
      else .ok (expressions texts stdin) := by
  rw [textsOf, expressions]
  cases texts with
  | nil =>
    cases String.fromUTF8? stdin with
    | none => rfl
    | some input =>
      have hlines : inputTexts input.toList =
          (Text.lines input.toList).filter fun l => !l.isWhite := by
        rw [inputTexts, linesFrom_eq_lines List.not_mem_nil]
        rfl
      simp [hlines]
  | cons => rfl

/-- Where nothing keeps a check from starting, nothing keeps the check of a text alone from it. -/
lemma setupFaults_singleton (h : setupFaults level entries texts stdin = []) (x : Text)
    (stdin' : ByteArray) : setupFaults level entries [x] stdin' = [] := by
  rw [setupFaults, List.append_eq_nil_iff, List.append_eq_nil_iff, List.append_eq_nil_iff] at h
  obtain ⟨⟨⟨hlevel, -⟩, hentries⟩, -⟩ := h
  rw [setupFaults, hlevel, hentries]
  rfl

end Faults

/-! ### Texts in one session -/

namespace Session

variable {x : Text}

lemma check_eq_new (s : Session) (json : Bool) (x : Text) :
    s.check json x = (new s.constants).check json x := by
  rw [check, check, parse_eq_new]

/-- A check keeps the constants. -/
lemma constants_check (s : Session) (json : Bool) (x : Text) :
    (s.check json x).2.constants = s.constants := by
  rw [check]
  rcases hparse : s.parse x with ⟨_ | c, s'⟩ <;>
    exact (congrArg (·.2.constants) hparse).symm.trans (constants_parse s x)

/-- Of the texts that are checked one after the other, each is checked as in a new session. -/
lemma checkEach_eq_map (s : Session) (json : Bool) (xs : List Text) :
    s.checkEach json xs = xs.map fun x => (x, ((new s.constants).check json x).1) := by
  induction xs generalizing s with
  | nil => rfl
  | cons x xs ih =>
    obtain ⟨o, s', hcheck⟩ : ∃ o s', s.check json x = (o, s') := ⟨_, _, rfl⟩
    have hnew : (new s.constants).check json x = (o, s') := by rw [← check_eq_new, hcheck]
    have hconstants : s'.constants = s.constants := by rw [← constants_check s json x, hcheck]
    rw [checkEach, hcheck, List.map_cons, hnew]
    dsimp only
    rw [ih, hconstants]

lemma isFailure_check (K : Constants) (json : Bool) (x : Text) :
    ((new K).check json x).1.isFailure = false ↔ ∃ c, Clause.parse K x = .ok c := by
  rw [check]
  cases h : Clause.parse K x with
  | ok c =>
    have hparse : (new K).parse x = (some c, new K) := parse_of_ok h
    rw [hparse]
    cases json <;> simp [Outcome.isFailure]
  | error d =>
    have hparse : (new K).parse x = (none, ⟨K, d⟩) := parse_of_error h
    rw [hparse]
    simp [Outcome.isFailure]

end Session

/-! ### Many texts from each alone -/

/-- The result of a check of several texts, from the results of the check of each alone. -/
def Result.together (xs : List Text) (alone : Text → Result) : Result :=
  let heading x := if 1 < xs.length then "# " ++ String.ofList x ++ "\n" else ""
  let stdout := String.join (xs.map fun x => heading x ++ (alone x).stdout)
  let failed := xs.countP fun x => (alone x).exit ≠ 0
  if failed = 0 then ⟨0, stdout, ""⟩
  else ⟨1, stdout, String.ofList (Text.ofNat failed) ++ " expression(s) failed to parse\n"⟩

variable {x : Text} {o : Outcome}

lemma exit_resultOf_singleton : (resultOf [(x, o)]).exit = if o.isFailure then 1 else 0 := by
  rw [resultOf]
  cases h : o.isFailure <;> simp [h, Result.ok, Result.fail]

lemma stdout_resultOf_singleton : (resultOf [(x, o)]).stdout = o.report := by
  rw [resultOf]
  cases h : o.isFailure <;> simp [h, Result.ok, Result.fail, block, String.join]

/-- Blocks and failures add up. -/
lemma resultOf_map (f : Text → Outcome) (xs : List Text) :
    resultOf (xs.map fun x => (x, f x)) = .together xs fun x => resultOf [(x, f x)] := by
  have hcount : xs.countP (fun x => (f x).isFailure) =
      xs.countP fun x => (resultOf [(x, f x)]).exit ≠ 0 := by
    congr 1
    funext x
    cases h : (f x).isFailure <;> simp [exit_resultOf_singleton, h]
  have hblocks : xs.map (fun x => block (decide (1 < xs.length)) x (f x)) =
      xs.map fun x => (if 1 < xs.length then "# " ++ String.ofList x ++ "\n" else "") ++
        (resultOf [(x, f x)]).stdout := by
    refine List.map_congr_left fun x _ => ?_
    rw [stdout_resultOf_singleton]
    by_cases hseveral : 1 < xs.length <;> simp [block, hseveral]
  rw [resultOf, Result.together]
  simp only [List.countP_map, List.map_map, List.length_map, Function.comp_def]
  rw [hcount, hblocks]
  split
  · rename_i hnone
    rw [if_pos hnone]
    rfl
  · rename_i hsome
    rw [if_neg (by simpa using hsome), Result.fail, RunError.message, String.empty_append,
      String.append_assoc]
    rfl

variable {json : Bool} {K : Constants}

lemma run_check (json noConstants : Bool) (entries texts : List Text) (stdin : ByteArray) :
    (Command.check json noConstants entries texts).run stdin =
      match textsOf texts stdin, constantsOf noConstants entries with
      | .error e, _     => .fail "" "" e
      | .ok _, .error e => .fail "" "" e
      | .ok [], .ok _   => .fail "" "" .noInput
      | .ok xs, .ok K   => resultOf ((Session.new K).checkEach json xs) := by
  rw [Command.run]
  cases textsOf texts stdin with
  | error e => rfl
  | ok xs =>
    cases constantsOf noConstants entries with
    | error e => rfl
    | ok K => cases xs <;> rfl

variable {arguments : List Text}

/-- A check prints its first fault or the results of its texts. -/
lemma runProgram_of_check (environment : Option Text) (stdin : ByteArray)
    (h : Request.ofArguments? arguments =
      some (.run level (.check json noConstants entries texts))) :
    match setupFaults (level.or environment) entries texts stdin with
    | e :: _ => runProgram arguments environment stdin = .fail "" "" e
    | []     => ∃ K, constantsOf noConstants entries = .ok K ∧
      runProgram arguments environment stdin =
        resultOf ((Session.new K).checkEach json (expressions texts stdin)) := by
  rw [runProgram, h]
  dsimp only
  rw [Request.answer, setupFaults]
  -- the faults are looked for in the order in which they are listed
  cases hlevel : (level.or environment).toList.filterMap levelFault? with
  | cons e es =>
    rw [levelOf_of_cons hlevel]
    rfl
  | nil =>
    obtain ⟨l, hl⟩ := levelOf_of_nil hlevel
    rw [hl]
    dsimp only
    rw [run_check, textsOf_eq]
    by_cases hinput : texts = [] ∧ (String.fromUTF8? stdin).isNone
    · rw [if_pos hinput, if_pos hinput]
      rfl
    rw [if_neg hinput, if_neg hinput]
    cases hentries : entries.filterMap entryFault? with
    | cons e es =>
      rw [constantsOf_of_cons hentries]
      cases expressions texts stdin <;> rfl
    | nil =>
      obtain ⟨K, hK⟩ := constantsOf_of_nil hentries noConstants
      rw [hK]
      cases hxs : expressions texts stdin with
      | nil => rfl
      | cons x xs => exact ⟨K, rfl, rfl⟩

/-- A check prints the first of the faults that keep it from starting, and nothing else. A check
that starts prints the block of each of its texts, which is what the check of that text alone
prints, below the text itself if there are several; it succeeds if no text fails, and else counts
those that do. -/
theorem runProgram_check (environment : Option Text) (stdin : ByteArray)
    (h : Request.ofArguments? arguments =
      some (.run level (.check json noConstants entries texts))) :
    (∀ e es, setupFaults (level.or environment) entries texts stdin = e :: es →
      runProgram arguments environment stdin = ⟨1, "", e.message ++ "\n"⟩) ∧
    (setupFaults (level.or environment) entries texts stdin = [] →
      ∃ K, constantsOf noConstants entries = .ok K ∧
        ∀ stdin' : ByteArray,
          let alone x := runProgram (Request.alone arguments x) environment stdin'
          runProgram arguments environment stdin = .together (expressions texts stdin) alone ∧
            ∀ x, (alone x).exit = 0 ↔ ∃ c, Clause.parse K x = .ok c) := by
  have hrun := runProgram_of_check environment stdin h
  constructor
  · intro e es hfaults
    rw [hfaults] at hrun
    rw [hrun, Result.fail, String.empty_append]
  · intro hfaults
    rw [hfaults] at hrun
    obtain ⟨K, hK, hrun⟩ := hrun
    refine ⟨K, hK, fun stdin' => ?_⟩
    have halone : ∀ x, runProgram (Request.alone arguments x) environment stdin' =
        resultOf [(x, ((Session.new K).check json x).1)] := by
      intro x
      have hrun := runProgram_of_check environment stdin' (Request.ofArguments?_alone h x)
      rw [setupFaults_singleton hfaults] at hrun
      obtain ⟨K', hK', hrun⟩ := hrun
      obtain rfl := Except.ok.inj (hK.symm.trans hK')
      exact hrun
    refine ⟨?_, fun x => ?_⟩
    · rw [hrun, Session.checkEach_eq_map, resultOf_map]
      exact congrArg _ (funext fun x => (halone x).symm)
    · dsimp only
      rw [halone, exit_resultOf_singleton, ← Session.isFailure_check]
      cases ((Session.new K).check json x).1.isFailure <;> simp

/-- Three operands, one with an error, around an option and behind `--`; and a check with three
faults, of which the level is reported. -/
theorem runProgram_check_of_mixed :
    let arguments := ["check", "b && a", "--no-constants", "a &&", "--", "-a"].map String.toList
    let texts := ["b && a", "a &&", "-a"].map String.toList
    let alone x := runProgram (Request.alone arguments x) none .empty
    let arguments' := ["check", "--constant=a"].map String.toList
    (runProgram arguments none .empty = .together texts alone ∧
      (alone "-a".toList).exit = 0 ∧ (alone "a &&".toList).exit ≠ 0) ∧
    runProgram arguments' (some "loud".toList) .empty =
      ⟨1, "", (RunError.level ⟨"loud".toList⟩).message ++ "\n"⟩ := by
  intro arguments texts alone arguments'
  have h : Request.ofArguments? arguments = some (.run none (.check false true [] texts)) := by
    decide +kernel
  have h' : Request.ofArguments? arguments' =
      some (.run none (.check false false ["a".toList] [])) := by
    decide +kernel
  have hfaults : setupFaults none [] texts .empty = [] := by decide +kernel
  have hfaults' : setupFaults (some "loud".toList) ["a".toList] [] .empty =
      [.level ⟨"loud".toList⟩, .entry ⟨"a".toList⟩, .noInput] := by
    decide +kernel
  obtain ⟨K, hK, hrun⟩ := (runProgram_check none .empty h).2 hfaults
  obtain ⟨htogether, hexit⟩ := hrun .empty
  obtain rfl : Constants.empty = K := Except.ok.inj hK
  refine ⟨⟨htogether, (hexit _).mpr ⟨.test (.present "-a".toList), by decide +kernel⟩, ?_⟩,
    (runProgram_check _ .empty h').1 _ _ hfaults'⟩
  rw [Ne, hexit]
  rintro ⟨c, hc⟩
  have herror : Clause.parse .empty "a &&".toList =
      .error ⟨[], [⟨⟨.eof, [], 4⟩, .operand⟩]⟩ := by
    decide +kernel
  rw [herror] at hc
  cases hc

end WhenClause
