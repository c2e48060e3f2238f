import WhenClause.Text.Basic

/-!
# Arguments

What a command line asks for. Options may stand before and between operands; an argument that
begins with a hyphen is an option unless it is a hyphen alone or stands behind `--`. An option that
takes a value takes it from behind an equals sign, or from the next argument, which must not look
like an option. Anything else is a misuse.

The pages on how to call the program are left out: `-h`, `--help` and the command `help`, which
would print one of them and succeed, count as a misuse here.
-/

namespace WhenClause

/-- What to do. -/
inductive Command where
  /-- check texts: whether to print trees, whether to leave the host's keys out of the constants,
  the entries to add to the constants, and the texts -/
  | check (json noConstants : Bool) (entries texts : List Text)
  /-- list the tokens of a text -/
  | tokens (text : Text)
  /-- list the pages of the documentation -/
  | docs
  /-- print a page -/
  | doc (name : Text)
  deriving DecidableEq, Repr

/-- What a command line asks for. -/
inductive Request where
  | version
  /-- a command, with the name of a log level if one was given -/
  | run (level : Option Text) (command : Command)
  deriving DecidableEq, Repr

namespace Request

/-- The arguments of a command, as far as they have been read. -/
structure Arguments where
  level : Option Text
  json : Bool
  noConstants : Bool
  entries : List Text
  operands : List Text

/-- No arguments. -/
def Arguments.none : Arguments := ⟨.none, false, false, [], []⟩

/-- Whether an argument can be an option's value or an operand: it is no option. -/
def isPlain (arg : Text) : Bool := arg.head? ≠ some '-' || arg = ['-']

/-- The value of an option that is written behind its name and an equals sign. -/
def attached? (name arg : Text) : Option Text :=
  if (name ++ ['=']).isPrefixOf arg then some (arg.drop (name.length + 1)) else none

/-- A log level, which is given once. -/
def Arguments.setLevel? (a : Arguments) (value : Text) : Option Arguments :=
  if a.level.isSome then failure else some { a with level := some value }

/-- An option of `check` that takes no value, which is given once. -/
def Arguments.setFlag? (a : Arguments) (arg : Text) : Option Arguments :=
  if arg = "--json".toList && !a.json then some { a with json := true }
  else if arg = "--no-constants".toList && !a.noConstants then some { a with noConstants := true }
  else failure

/-- Reads the arguments behind a command; `checking` if it is `check`, which alone has options of
its own. -/
def readArguments? (checking : Bool) (a : Arguments) : List Text → Option Arguments
  | []          => some a
  | arg :: rest =>
    if arg = "--".toList then some { a with operands := a.operands ++ rest }
    else if isPlain arg then readArguments? checking { a with operands := a.operands ++ [arg] } rest
    else if arg = "--log-level".toList then
      match rest with
      | value :: rest =>
        if isPlain value then (a.setLevel? value).bind (readArguments? checking · rest) else failure
      | []            => failure
    else if checking && arg = "--constant".toList then
      match rest with
      | value :: rest =>
        if isPlain value then
          readArguments? checking { a with entries := a.entries ++ [value] } rest
        else failure
      | []            => failure
    else
      match attached? "--log-level".toList arg, attached? "--constant".toList arg with
      | some value, _ => (a.setLevel? value).bind (readArguments? checking · rest)
      | _, some value =>
        if checking then readArguments? checking { a with entries := a.entries ++ [value] } rest
        else failure
      | _, _          =>
        if checking then (a.setFlag? arg).bind (readArguments? checking · rest) else failure

/-- The command of a name and its arguments. -/
def command? (name : Text) (a : Arguments) : Option Command :=
  match String.ofList name, a.operands with
  | "check", texts    => some (.check a.json a.noConstants a.entries texts)
  | "tokens", [text]  => some (.tokens text)
  | "docs", []        => some .docs
  | "doc", [page]     => some (.doc page)
  | _, _              => failure

/-- What a command line asks for whose options before the command have set a log level or not. -/
def readFrom? (level : Option Text) : List Text → Option Request
  | []          => failure
  | arg :: rest =>
    if arg = "--version".toList || arg = "-V".toList then some .version
    else if arg = "--log-level".toList then
      match rest with
      | value :: rest =>
        if isPlain value && level.isNone then readFrom? (some value) rest else failure
      | []            => failure
    else
      match attached? "--log-level".toList arg with
      | some value => if level.isNone then readFrom? (some value) rest else failure
      | none       => do
        let a ← readArguments? (arg = "check".toList) .none rest
        return .run (a.level.or level) (← command? arg a)

/-- What a command line asks for, unless it is a misuse or asks for help. The log level may be given
before the command and behind it, where it has precedence. -/
def ofArguments? (arguments : List Text) : Option Request := readFrom? none arguments

end Request

end WhenClause
