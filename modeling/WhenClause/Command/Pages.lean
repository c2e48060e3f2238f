import WhenClause.Text.Basic

/-!
# Documentation

The pages that describe the language to authors of clauses. A page has several names, which are
read in any case and with hyphens or underscores.
-/

namespace WhenClause

/-- Lines of text, each with its line end. -/
def ofLines (lines : List String) : String := String.join (lines.map (· ++ "\n"))

/-- The list of pages, with a summary of the language. -/
def overview : String := ofLines [
  "CONTEXT KEY EXPRESSIONS",
  "",
  "A context key expression is a boolean predicate over named flags that a host",
  "application keeps at runtime. It decides whether a menu entry, command or view",
  "applies. ctxkey parses expressions, reports malformed ones and prints their",
  "canonical form.",
  "",
  "DOCUMENTATION CATEGORIES",
  "",
  "  syntax            Keys, literals, grouping and precedence",
  "  operators         Comparison, regex, membership and logical operators",
  "  canonical         How expressions are normalized and printed",
  "  errors            Lexing and parsing diagnostics",
  "",
  "QUICK REFERENCE",
  "",
  "  key                   Key is set and truthy",
  "  !key                  Negation",
  "  key == value          String equality (value quoted or bare)",
  "  key >= 2              Ordered comparison",
  "  key =~ /re/i          Regex match",
  "  key in list           Membership",
  "  a && b || c           && binds tighter than ||",
  "",
  "Run 'ctxkey doc <category>' for detailed documentation."]

/-- The page on keys, literals and grouping. -/
def grammarPage : String := ofLines [
  "SYNTAX - Keys, Literals and Grouping",
  "",
  "GRAMMAR (loosest to tightest)",
  "  or      := and ('||' and)*",
  "  and     := unary ('&&' unary)*",
  "  unary   := '!' unary | primary",
  "  primary := 'true' | 'false' | '(' or ')' | KEY [ tail ]",
  "  tail    := ('==' | '!=' | '<' | '<=' | '>' | '>=' | 'in' | 'not' 'in') value",
  "           | '=~' regex",
  "",
  "KEYS",
  "  Letters, digits and _ - . / \\ : * ? + [ ] ^ , # @ ; % $",
  "  A <...> suffix belongs to the key:   fee.bee<K-loo+1>   vim<c-r>",
  "  Write spaces around < and <= after a key:   count < 2",
  "",
  "LITERALS",
  "  true, false           Boolean constants",
  "  'text'                Quoted string (no escapes)",
  "  /pattern/flags        Regex, flags from igsmyu",
  "",
  "NEGATION",
  "  ! applies to a key, a comparison or a literal, never to a group.",
  "",
  "    !foo                  ok",
  "    !foo == 'x'           ok, same as foo != 'x'",
  "    !(foo && bar)         error"]

/-- The page on operators. -/
def operatorsPage : String := ofLines [
  "OPERATORS",
  "",
  "EQUALITY",
  "  ==  ===   Equal, value compared as a string",
  "  !=  !==   Not equal",
  "",
  "  Bare and quoted values are the same:",
  "    foo.bar==enabled      foo.bar == 'enabled'",
  "",
  "ORDERED COMPARISON",
  "  <  <=  >  >=",
  "  Decimal operands stay numbers, anything else is text. Numbers and single",
  "  words print bare, other text is quoted:",
  "    foo.bar >= -1         channel > beta        label < 'a b'",
  "",
  "REGEX",
  "  =~ /pattern/flags",
  "  The pattern must be a valid regular expression. A quoted '/pattern/' is",
  "  accepted too.",
  "",
  "MEMBERSHIP",
  "  key in other          Value of key is contained in value of other",
  "  key not in other",
  "",
  "LOGICAL",
  "  &&  ||  !"]

/-- The page on the canonical form. -/
def canonicalPage : String := ofLines [
  "CANONICAL FORM",
  "",
  "Every expression is normalized while it is parsed:",
  "",
  "  - constants fold:           !true && foo        -> false",
  "  - double negation cancels:  !!foo               -> foo",
  "  - nested groups flatten:    a || (b || c)       -> (a || b || c)",
  "  - duplicates drop:          a && a              -> a",
  "  - children are sorted by kind, then key:",
  "        a && b || c                               -> (c || (a && b))",
  "        !x && y                                   -> (y && !x)",
  "  - host keys fold: isMac, isLinux, isWindows, isWeb, ... are constants",
  "",
  "Every && and || group is printed in parentheses, at every depth.",
  "Printing a canonical form and parsing it again gives the same form."]

/-- The page on diagnostics. -/
def errorsPage : String := ofLines [
  "ERRORS",
  "",
  "Lexing errors come first; when there are any, the expression is not parsed.",
  "",
  "  Unexpected token ''bar' at offset 7. Did you forget to close the string?",
  "  Unexpected token '=' at offset 21. Did you mean '==' or '=~'?",
  "  Unexpected token '~' at offset 4",
  "",
  "Parsing errors name what was expected and the token found:",
  "",
  "  Expected 'true', 'false', '(', KEY, ... but got \x7b\"type\":\"in\",\"offset\":9\x7d",
  "  Expected KEY, 'true', or 'false'",
  "  Unexpected token 'WorkSpace' at offset 20",
  "",
  "Offsets count characters from 0."]

/-- A page of the documentation. -/
inductive Page where
  | grammar
  | operators
  | canonical
  | errors
  deriving DecidableEq, Repr

/-- A name of no page. -/
structure UnknownPage where
  name : Text
  deriving DecidableEq, Repr

/-- The sentences about an unknown page. -/
def UnknownPage.message (e : UnknownPage) : String :=
  "Unknown category: '" ++ String.ofList e.name ++
    "'\nRun 'ctxkey docs' to see available categories."

namespace Page

/-- The text of a page. -/
def content : Page → String
  | grammar   => grammarPage
  | operators => operatorsPage
  | canonical => canonicalPage
  | errors    => errorsPage

/-- The page of a name. -/
def ofName (name : Text) : Except UnknownPage Page :=
  match String.ofList (name.lower.map fun c => if c = '-' then '_' else c) with
  | "syntax"         => .ok grammar
  | "grammar"        => .ok grammar
  | "operators"      => .ok operators
  | "ops"            => .ok operators
  | "canonical"      => .ok canonical
  | "canonical_form" => .ok canonical
  | "normalization"  => .ok canonical
  | "errors"         => .ok errors
  | "diagnostics"    => .ok errors
  | _                => .error ⟨name⟩

end Page

end WhenClause
