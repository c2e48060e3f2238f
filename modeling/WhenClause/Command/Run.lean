import WhenClause.Command.Arguments
import WhenClause.Command.Check
import WhenClause.Command.LogLevel
import WhenClause.Command.Pages

/-!
# Runs

What a run of the program prints and how it exits, from its arguments, its environment and its
standard input. A run that cannot start prints nothing but its error; a run that checks texts
prints a block for each and then the number of those that failed.
-/

namespace WhenClause

/-- Why a run did not succeed. -/
inductive RunError where
  /-- some texts have errors -/
  | failed (count : Nat)
  | level (error : UnknownLevel)
  | entry (error : EntryError)
  /-- the standard input is no text -/
  | input
  /-- there is no text to check -/
  | noInput
  | page (error : UnknownPage)
  deriving DecidableEq, Repr

/-- The sentence about an error. -/
def RunError.message : RunError → String
  | failed count => String.ofList (Text.ofNat count) ++ " expression(s) failed to parse"
  | level e      => e.message
  | entry e      => e.message
  | input        => "IO error: stream did not contain valid UTF-8"
  | noInput      => "No expression provided. Pass one as an argument or pipe them to stdin."
  | page e       => e.message

/-- What a run leaves behind. -/
structure Result where
  exit : Nat
  stdout : String
  stderr : String
  deriving DecidableEq, Repr

namespace Result

/-- A run that succeeds. -/
def ok (stdout : String) : Result := ⟨0, stdout, ""⟩

/-- A run that fails, after some output and some remarks. -/
def fail (stdout remarks : String) (e : RunError) : Result :=
  ⟨1, stdout, remarks ++ e.message ++ "\n"⟩

/-- A run with arguments that make no request. -/
def misuse : Result := ⟨2, "", ""⟩

end Result

/-- The lines of a text whose current line begins with `line`, last character first. A line ends at
a line feed, or at a carriage return and a line feed, and the last line may have no end. -/
def linesFrom (line : Text) : Text → List Text
  | []          => if line = [] then [] else [line.reverse]
  | '\n' :: rest =>
    (match line with
      | '\r' :: line => line.reverse
      | _            => line.reverse) :: linesFrom [] rest
  | c :: rest   => linesFrom (c :: line) rest

/-- The texts on the lines of an input; lines of white space alone do not count. -/
def inputTexts (input : Text) : List Text := (linesFrom [] input).filter fun l => !l.isWhite

/-- The texts to check: the operands, or the lines of the standard input if there are none. -/
def textsOf (texts : List Text) (stdin : ByteArray) : Except RunError (List Text) :=
  if texts.isEmpty then
    match String.fromUTF8? stdin with
    | some input => .ok (inputTexts input.toList)
    | none       => .error .input
  else .ok texts

/-- The constant keys of a run. -/
def constantsOf (noConstants : Bool) (entries : List Text) : Except RunError Constants :=
  match entries.foldlM Constants.mergeEntry (if noConstants then .empty else .host) with
  | .ok c    => .ok c
  | .error e => .error (.entry e)

/-- Texts with what became of them, all in one session. There must be one. -/
def checkAll (constants : Constants) (json : Bool) (texts : List Text) :
    Except RunError (List (Text × Outcome)) :=
  if texts.isEmpty then .error .noInput else .ok ((Session.new constants).checkEach json texts)

/-- The block of a text, below the text itself if there are several. -/
def block (several : Bool) (input : Text) (outcome : Outcome) : String :=
  (if several then "# " ++ String.ofList input ++ "\n" else "") ++ outcome.report

/-- The result of a check: all blocks, and the number of failures. -/
def resultOf (outcomes : List (Text × Outcome)) : Result :=
  let several := 1 < outcomes.length
  let stdout := String.join (outcomes.map fun (input, outcome) => block several input outcome)
  match outcomes.countP fun (_, outcome) => outcome.isFailure with
  | 0     => .ok stdout
  | count => .fail stdout "" (.failed count)

/-- Runs a command. -/
def Command.run (command : Command) (stdin : ByteArray) : Result :=
  match command with
  | .check json noConstants entries texts =>
    let outcomes : Except RunError (List (Text × Outcome)) := do
      let texts ← textsOf texts stdin
      checkAll (← constantsOf noConstants entries) json texts
    match outcomes with
    | .ok outcomes => resultOf outcomes
    | .error e     => .fail "" "" e
  | .tokens text =>
    let (found, errors) := tokenize text
    let stdout := ofLines (found.map fun t => String.ofList t.line)
    if errors.isEmpty then .ok stdout
    else .fail stdout (ofLines (errors.map ScanError.message)) (.failed 1)
  | .docs => .ok overview
  | .doc name =>
    match Page.ofName name with
    | .ok page => .ok page.content
    | .error e => .fail "" "" (.page e)

/-- Whether a command reads the standard input. -/
def Command.readsInput : Command → Bool
  | .check _ _ _ texts => texts.isEmpty
  | _                  => false

/-- The level of a run by its name, if it has one. -/
def levelOf (name : Option Text) : Except RunError LogLevel :=
  match name with
  | none      => .ok .default
  | some name =>
    match LogLevel.ofName name with
    | .ok level => .ok level
    | .error e  => .error (.level e)

/-- Whether a request reads the standard input. -/
def Request.readsInput : Request → Bool
  | .version       => false
  | .run _ command => command.readsInput

/-- Answers a request; `environment` is the level that is set outside of the arguments. -/
def Request.answer (environment : Option Text) (stdin : ByteArray) : Request → Result
  | .version           => .ok "ctxkey 0.1.0\n"
  | .run level command =>
    match levelOf (level.or environment) with
    | .ok _    => command.run stdin
    | .error e => .fail "" "" e

/-- Runs the program. -/
def runProgram (arguments : List Text) (environment : Option Text) (stdin : ByteArray) : Result :=
  match Request.ofArguments? arguments with
  | some request => request.answer environment stdin
  | none         => .misuse

end WhenClause
