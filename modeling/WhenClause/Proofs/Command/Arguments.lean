import Mathlib.Data.Nat.Init
import Mathlib.Tactic.SplitIfs
import WhenClause.Command.Arguments

/-!
# The options of a command line

The options of a command line that checks texts are read again when another text takes the place of
its operands (`ofArguments?_alone`). They are kept as they are written, with the values that stand
behind them, and the text is put behind `--`, where it is an operand whatever it looks like.
-/

namespace WhenClause.Request

/-- Whether the value of an option is the argument behind it. -/
def takesValue (arg : Text) : Bool := arg = "--log-level".toList || arg = "--constant".toList

lemma takesValue_iff {arg : Text} :
    takesValue arg = true ↔ arg = "--log-level".toList ∨ arg = "--constant".toList := by
  rw [takesValue, Bool.or_eq_true, decide_eq_true_iff, decide_eq_true_iff]

/-- The options among the arguments behind a command, the first of which is or is not the value of
an option. -/
def optionsBehind : Bool → List Text → List Text
  | _, []                  => []
  | true, value :: args => value :: optionsBehind false args
  | false, arg :: args    =>
    if arg = "--".toList then []
    else if isPlain arg then optionsBehind false args
    else arg :: optionsBehind (takesValue arg) args

/-- A command line without its operands. Its first argument is or is not the value of an option. -/
def options : Bool → List Text → List Text
  | _, []               => []
  | true, value :: args => value :: options false args
  | false, arg :: args  =>
    if isPlain arg then arg :: optionsBehind false args
    else arg :: options (takesValue arg) args

/-- A command line for one text in place of its operands. -/
def alone (arguments : List Text) (text : Text) : List Text :=
  options false arguments ++ ["--".toList, text]

namespace Arguments

/-- The arguments with other operands. -/
def withOperands (a : Arguments) (texts : List Text) : Arguments := { a with operands := texts }

/-- The effect of an option and its value, the argument behind it. -/
def setValued? (a : Arguments) (arg value : Text) : Option Arguments :=
  if isPlain value then
    if arg = "--log-level".toList then a.setLevel? value
    else some { a with entries := a.entries ++ [value] }
  else failure

/-- The effect of an option that is one argument. -/
def setSingle? (a : Arguments) (arg : Text) : Option Arguments :=
  match attached? "--log-level".toList arg, attached? "--constant".toList arg with
  | some value, _ => a.setLevel? value
  | _, some value => some { a with entries := a.entries ++ [value] }
  | _, _          => a.setFlag? arg

variable {a b : Arguments} {texts : List Text} {arg value : Text}

/-! ### No option concerns the operands -/

lemma setLevel?_withOperands (h : a.setLevel? value = some b) :
    (a.withOperands texts).setLevel? value = some (b.withOperands texts) := by
  rw [setLevel?] at h
  split_ifs at h with hlevel
  obtain rfl := Option.some.inj h
  exact if_neg hlevel

lemma setFlag?_withOperands (h : a.setFlag? arg = some b) :
    (a.withOperands texts).setFlag? arg = some (b.withOperands texts) := by
  rw [setFlag?] at h
  split_ifs at h with hjson hconstants
  · obtain rfl := Option.some.inj h
    exact if_pos hjson
  · obtain rfl := Option.some.inj h
    exact (if_neg hjson).trans (if_pos hconstants)

lemma setValued?_withOperands (h : a.setValued? arg value = some b) :
    (a.withOperands texts).setValued? arg value = some (b.withOperands texts) := by
  rw [setValued?] at h ⊢
  split_ifs at h ⊢
  · exact setLevel?_withOperands h
  · obtain rfl := Option.some.inj h
    rfl

lemma setSingle?_withOperands (h : a.setSingle? arg = some b) :
    (a.withOperands texts).setSingle? arg = some (b.withOperands texts) := by
  rw [setSingle?] at h ⊢
  split at h
  · exact setLevel?_withOperands h
  · obtain rfl := Option.some.inj h
    rfl
  · exact setFlag?_withOperands h

end Arguments

variable {a b : Arguments} {args texts : List Text} {arg value text : Text}

/-! ### Behind the command -/

lemma readArguments?_dashes (a : Arguments) (args : List Text) :
    readArguments? true a ("--".toList :: args) =
      some (a.withOperands (a.operands ++ args)) := by
  rw [readArguments?.eq_def]
  exact if_pos rfl

lemma readArguments?_plain (hdashes : arg ≠ "--".toList) (hplain : isPlain arg = true) :
    readArguments? true a (arg :: args) =
      readArguments? true (a.withOperands (a.operands ++ [arg])) args := by
  rw [readArguments?.eq_def]
  exact (if_neg hdashes).trans (if_pos hplain)

section Option

variable (hdashes : arg ≠ "--".toList) (hplain : ¬isPlain arg = true)

include hdashes hplain

lemma readArguments?_valued (hvalued : takesValue arg = true) :
    readArguments? true a (arg :: value :: args) =
      (a.setValued? arg value).bind (readArguments? true · args) := by
  rw [readArguments?.eq_def, Arguments.setValued?]
  dsimp only
  rw [if_neg hdashes, if_neg hplain]
  by_cases hlevel : arg = "--log-level".toList
  · rw [if_pos hlevel, if_pos hlevel]
    split_ifs <;> rfl
  · have hconstant := (takesValue_iff.mp hvalued).resolve_left hlevel
    rw [if_neg hlevel, if_neg hlevel, decide_eq_true hconstant, Bool.true_and, if_pos rfl]
    split_ifs <;> rfl

lemma readArguments?_valued_nil (hvalued : takesValue arg = true) :
    readArguments? true a [arg] = none := by
  rw [readArguments?.eq_def]
  dsimp only
  rw [if_neg hdashes, if_neg hplain]
  by_cases hlevel : arg = "--log-level".toList
  · rw [if_pos hlevel]
    rfl
  · have hconstant := (takesValue_iff.mp hvalued).resolve_left hlevel
    rw [if_neg hlevel, decide_eq_true hconstant, Bool.true_and, if_pos rfl]
    rfl

lemma readArguments?_single (hvalued : takesValue arg = false) :
    readArguments? true a (arg :: args) =
      (a.setSingle? arg).bind (readArguments? true · args) := by
  obtain ⟨hlevel, hconstant⟩ := Bool.or_eq_false_iff.mp hvalued
  rw [readArguments?.eq_def, Arguments.setSingle?]
  dsimp only
  rw [if_neg hdashes, if_neg hplain, if_neg (of_decide_eq_false hlevel), hconstant, Bool.and_false,
    if_neg Bool.false_ne_true]
  cases attached? "--log-level".toList arg with
  | some value => rfl
  | none => cases attached? "--constant".toList arg <;> rfl

lemma optionsBehind_option :
    optionsBehind false (arg :: args) = arg :: optionsBehind (takesValue arg) args := by
  rw [optionsBehind, if_neg hdashes, if_neg hplain]

end Option

/-- The options behind a command are read to the same effect when they stand in front of one
operand. -/
lemma readArguments?_optionsBehind (h : readArguments? true a args = some b) :
    readArguments? true (a.withOperands texts) (optionsBehind false args ++ ["--".toList, text]) =
      some (b.withOperands (texts ++ [text])) := by
  -- an option may take two arguments, so the induction is on the number of arguments
  induction hn : args.length using Nat.strong_induction_on generalizing a args with
  | _ n ih =>
    subst hn
    match args with
    | [] =>
      obtain rfl := Option.some.inj h
      rfl
    | arg :: args =>
      by_cases hdashes : arg = "--".toList
      · subst hdashes
        rw [readArguments?_dashes] at h
        obtain rfl := Option.some.inj h
        exact readArguments?_dashes _ _
      by_cases hplain : isPlain arg = true
      · rw [readArguments?_plain hdashes hplain] at h
        rw [optionsBehind, if_neg hdashes, if_pos hplain]
        exact (ih _ (Nat.lt_succ_self _) h rfl :)
      rw [optionsBehind_option hdashes hplain]
      cases hvalued : takesValue arg with
      | true =>
        match args with
        | [] =>
          rw [readArguments?_valued_nil hdashes hplain hvalued] at h
          cases h
        | value :: args =>
          rw [readArguments?_valued hdashes hplain hvalued] at h
          obtain ⟨c, hc, hread⟩ := Option.bind_eq_some_iff.mp h
          rw [optionsBehind, List.cons_append, List.cons_append,
            readArguments?_valued hdashes hplain hvalued, Arguments.setValued?_withOperands hc]
          exact ih _ (Nat.lt_succ_of_lt (Nat.lt_succ_self _)) hread rfl
      | false =>
        rw [readArguments?_single hdashes hplain hvalued] at h
        obtain ⟨c, hc, hread⟩ := Option.bind_eq_some_iff.mp h
        rw [List.cons_append, readArguments?_single hdashes hplain hvalued,
          Arguments.setSingle?_withOperands hc]
        exact ih _ (Nat.lt_succ_self _) hread rfl

/-! ### The whole command line -/

lemma eq_check_of_command? {name : Text} {json noConstants : Bool} {entries : List Text}
    (h : command? name a = some (.check json noConstants entries texts)) :
    name = "check".toList ∧ a.json = json ∧ a.noConstants = noConstants ∧ a.entries = entries := by
  rw [command?] at h
  split at h
  · rename_i hname
    obtain ⟨rfl, rfl, rfl, rfl⟩ := Command.check.inj (Option.some.inj h)
    exact ⟨String.ofList_inj.mp hname, rfl, rfl, rfl⟩
  all_goals cases h

lemma eq_of_attached? {name : Text} (h : attached? name arg = some value) :
    arg = name ++ '=' :: value := by
  rw [attached?] at h
  split_ifs at h with hprefix
  obtain rfl := Option.some.inj h
  obtain ⟨rest, rfl⟩ := List.isPrefixOf_iff_prefix.mp hprefix
  simp

variable {level : Option Text}

lemma options_level :
    options false ("--log-level".toList :: value :: args) =
      "--log-level".toList :: value :: options false args := rfl

lemma options_attached (h : attached? "--log-level".toList arg = some value) :
    options false (arg :: args) = arg :: options false args := by
  rw [eq_of_attached? h]
  rfl

lemma options_check :
    options false ("check".toList :: args) = "check".toList :: optionsBehind false args := rfl

lemma readFrom?_check (h : readArguments? true .none args = some a) :
    readFrom? level ("check".toList :: args) =
      some (.run (a.level.or level) (.check a.json a.noConstants a.entries a.operands)) := by
  rw [readFrom?.eq_def]
  dsimp only
  rw [if_neg (by decide), if_neg (by decide), show attached? "--log-level".toList _ = none from rfl,
    decide_eq_true rfl]
  exact Option.bind_eq_some_iff.mpr ⟨a, h, rfl⟩

/-- A command line that checks texts checks another text in place of them, with the same options. -/
lemma readFrom?_alone {level' : Option Text} {json noConstants : Bool} {entries : List Text}
    (h : readFrom? level args = some (.run level' (.check json noConstants entries texts))) :
    readFrom? level (alone args text) =
      some (.run level' (.check json noConstants entries [text])) := by
  rw [alone]
  fun_induction readFrom? level args with
  | case3 level value args hvalue hversion ih =>
    rw [options_level, List.cons_append, List.cons_append, readFrom?, if_neg hversion, if_pos rfl]
    rw [if_pos hvalue]
    exact ih h
  | case6 level arg args hversion hlevel value hattached hnone ih =>
    rw [options_attached hattached, List.cons_append, readFrom?.eq_def]
    dsimp only
    rw [if_neg hversion, if_neg hlevel, hattached]
    dsimp only
    rw [if_pos hnone]
    exact ih h
  | case8 level arg args hversion hlevel hattached =>
    obtain ⟨a, hread, h⟩ := Option.bind_eq_some_iff.mp h
    obtain ⟨c, hcommand, h⟩ := Option.bind_eq_some_iff.mp h
    obtain ⟨rfl, rfl⟩ := Request.run.inj (Option.some.inj h)
    obtain ⟨rfl, rfl, rfl, rfl⟩ := eq_check_of_command? hcommand
    rw [options_check, List.cons_append]
    exact readFrom?_check (readArguments?_optionsBehind hread)
  | case1 => cases h
  | case2 => cases h
  | case4 => cases h
  | case5 => cases h
  | case7 => cases h

/-- The check of a text alone is the check of texts with the same options and only that text. -/
theorem ofArguments?_alone {json noConstants : Bool} {entries : List Text}
    (h : ofArguments? args = some (.run level (.check json noConstants entries texts)))
    (text : Text) :
    ofArguments? (alone args text) = some (.run level (.check json noConstants entries [text])) :=
  readFrom?_alone h

-- operands go, and values stay with their options
example :
    alone (["--log-level", "info", "check", "a", "--constant", "b=true", "c"].map String.toList)
        "-d".toList =
      ["--log-level", "info", "check", "--constant", "b=true", "--", "-d"].map String.toList := rfl

end WhenClause.Request
