import WhenClause.Text.Basic

/-!
# Names of character properties

The properties that a regex can ask for with `\p`, by their names and short names in loose form:
lower case, without blanks, underscores and hyphens.
-/

namespace WhenClause.Regex

/-- General categories, and the three sets that go with them. -/
def categoryNames : List String := [
  "any", "ascii", "assigned", "c", "casedletter", "cc", "cf", "closepunctuation", "cn", "cntrl",
  "co", "combiningmark", "connectorpunctuation", "control", "currencysymbol", "dashpunctuation",
  "decimalnumber", "digit", "enclosingmark", "finalpunctuation", "format", "initialpunctuation",
  "l", "lc", "letter", "letternumber", "lineseparator", "ll", "lm", "lo", "lowercaseletter", "lt",
  "lu", "m", "mark", "mathsymbol", "mc", "me", "mn", "modifierletter", "modifiersymbol", "n", "nd",
  "nl", "no", "nonspacingmark", "number", "openpunctuation", "other", "otherletter", "othernumber",
  "otherpunctuation", "othersymbol", "p", "paragraphseparator", "pc", "pd", "pe", "pf", "pi", "po",
  "privateuse", "ps", "punct", "punctuation", "s", "sc", "separator", "sk", "sm", "so",
  "spaceseparator", "spacingmark", "symbol", "titlecaseletter", "unassigned", "uppercaseletter",
  "z", "zl", "zp", "zs"]

/-- Properties that a character has or has not. -/
def binaryNames : List String := [
  "ahex", "alpha", "alphabetic", "asciihexdigit", "bidic", "bidicontrol", "bidim", "bidimirrored",
  "cased", "caseignorable", "changeswhencasefolded", "changeswhencasemapped",
  "changeswhenlowercased", "changeswhentitlecased", "changeswhenuppercased", "ci", "cwcf", "cwcm",
  "cwl", "cwt", "cwu", "dash", "defaultignorablecodepoint", "dep", "deprecated", "di", "dia",
  "diacritic", "ebase", "ecomp", "emod", "emoji", "emojicomponent", "emojimodifier",
  "emojimodifierbase", "emojipresentation", "epres", "ext", "extendedpictographic", "extender",
  "extpict", "graphemebase", "graphemeextend", "graphemelink", "grbase", "grext", "hex", "hexdigit",
  "hyphen", "idc", "idcompatmathcontinue", "idcompatmathstart", "idcontinue", "ideo", "ideographic",
  "ids", "idsb", "idsbinaryoperator", "idst", "idstart", "idstrinaryoperator", "idsunaryoperator",
  "joinc", "joincontrol", "loe", "logicalorderexception", "lower", "lowercase", "math",
  "modifiercombiningmark", "nchar", "noncharactercodepoint", "otheralphabetic",
  "otherdefaultignorablecodepoint", "othergraphemeextend", "otheridcontinue", "otheridstart",
  "otherlowercase", "othermath", "otheruppercase", "patsyn", "patternsyntax", "patternwhitespace",
  "patws", "pcm", "prependedconcatenationmark", "qmark", "quotationmark", "radical",
  "regionalindicator", "ri", "sd", "sentenceterminal", "softdotted", "space", "sterm", "term",
  "terminalpunctuation", "uideo", "unifiedideograph", "upper", "uppercase", "variationselector",
  "vs", "whitespace", "wspace", "xidc", "xidcontinue", "xids", "xidstart"]

/-- Scripts. -/
def scriptNames : List String := [
  "adlam", "adlm", "aghb", "ahom", "anatolianhieroglyphs", "arab", "arabic", "armenian", "armi",
  "armn", "avestan", "avst", "bali", "balinese", "bamu", "bamum", "bass", "bassavah", "batak",
  "batk", "beng", "bengali", "bhaiksuki", "bhks", "bopo", "bopomofo", "brah", "brahmi", "brai",
  "braille", "bugi", "buginese", "buhd", "buhid", "cakm", "canadianaboriginal", "cans", "cari",
  "carian", "caucasianalbanian", "chakma", "cham", "cher", "cherokee", "chorasmian", "chrs",
  "common", "copt", "coptic", "cpmn", "cprt", "cuneiform", "cypriot", "cyprominoan", "cyrillic",
  "cyrl", "deseret", "deva", "devanagari", "diak", "divesakuru", "dogr", "dogra", "dsrt", "dupl",
  "duployan", "egyp", "egyptianhieroglyphs", "elba", "elbasan", "elym", "elymaic", "ethi",
  "ethiopic", "geor", "georgian", "glag", "glagolitic", "gong", "gonm", "goth", "gothic", "gran",
  "grantha", "greek", "grek", "gujarati", "gujr", "gunjalagondi", "gurmukhi", "guru", "han", "hang",
  "hangul", "hani", "hanifirohingya", "hano", "hanunoo", "hatr", "hatran", "hebr", "hebrew", "hira",
  "hiragana", "hluw", "hmng", "hmnp", "hung", "imperialaramaic", "inherited",
  "inscriptionalpahlavi", "inscriptionalparthian", "ital", "java", "javanese", "kaithi", "kali",
  "kana", "kannada", "katakana", "kawi", "kayahli", "khar", "kharoshthi", "khitansmallscript",
  "khmer", "khmr", "khoj", "khojki", "khudawadi", "kits", "knda", "kthi", "lana", "lao", "laoo",
  "latin", "latn", "lepc", "lepcha", "limb", "limbu", "lina", "linb", "lineara", "linearb", "lisu",
  "lyci", "lycian", "lydi", "lydian", "mahajani", "mahj", "maka", "makasar", "malayalam", "mand",
  "mandaic", "mani", "manichaean", "marc", "marchen", "masaramgondi", "medefaidrin", "medf",
  "meeteimayek", "mend", "mendekikakui", "merc", "mero", "meroiticcursive", "meroitichieroglyphs",
  "miao", "mlym", "modi", "mong", "mongolian", "mro", "mroo", "mtei", "mult", "multani", "myanmar",
  "mymr", "nabataean", "nagm", "nagmundari", "nand", "nandinagari", "narb", "nbat", "newa",
  "newtailue", "nko", "nkoo", "nshu", "nushu", "nyiakengpuachuehmong", "ogam", "ogham", "olchiki",
  "olck", "oldhungarian", "olditalic", "oldnortharabian", "oldpermic", "oldpersian", "oldsogdian",
  "oldsoutharabian", "oldturkic", "olduyghur", "oriya", "orkh", "orya", "osage", "osge", "osma",
  "osmanya", "ougr", "pahawhhmong", "palm", "palmyrene", "pauc", "paucinhau", "perm", "phag",
  "phagspa", "phli", "phlp", "phnx", "phoenician", "plrd", "prti", "psalterpahlavi", "qaac", "qaai",
  "rejang", "rjng", "rohg", "runic", "runr", "samaritan", "samr", "sarb", "saur", "saurashtra",
  "sgnw", "sharada", "shavian", "shaw", "shrd", "sidd", "siddham", "signwriting", "sind", "sinh",
  "sinhala", "sogd", "sogdian", "sogo", "sora", "sorasompeng", "soyo", "soyombo", "sund",
  "sundanese", "sylo", "sylotinagri", "syrc", "syriac", "tagalog", "tagb", "tagbanwa", "taile",
  "taitham", "taiviet", "takr", "takri", "tale", "talu", "tamil", "taml", "tang", "tangsa",
  "tangut", "tavt", "telu", "telugu", "tfng", "tglg", "thaa", "thaana", "thai", "tibetan", "tibt",
  "tifinagh", "tirh", "tirhuta", "tnsa", "toto", "ugar", "ugaritic", "vai", "vaii", "vith",
  "vithkuqi", "wancho", "wara", "warangciti", "wcho", "xpeo", "xsux", "yezi", "yezidi", "yi",
  "yiii", "zanabazarsquare", "zanb", "zinh", "zyyy"]

/-- Versions in which a character was assigned. -/
def ageNames : List String := [
  "1.1", "10.0", "11.0", "12.0", "12.1", "13.0", "14.0", "15.0", "2.0", "2.1", "3.0", "3.1", "3.2",
  "4.0", "4.1", "5.0", "5.1", "5.2", "6.0", "6.1", "6.2", "6.3", "7.0", "8.0", "9.0", "v100", "v11",
  "v110", "v120", "v121", "v130", "v140", "v150", "v20", "v21", "v30", "v31", "v32", "v40", "v41",
  "v50", "v51", "v52", "v60", "v61", "v62", "v63", "v70", "v80", "v90"]

/-- A name in loose form, which drops a leading `is` and every character beyond ASCII. -/
def looseName (name : Text) : Text :=
  let body := match name with
    | a :: b :: rest => if a.toLower = 'i' && b.toLower = 's' then rest else name
    | _              => name
  let kept := body.filter fun c => c ≠ ' ' && c ≠ '_' && c ≠ '-' && c.toNat < 128
  let loose := kept.map Char.toLower
  -- the short name `isc` belongs to a comment field, not to the category `c`
  if body.length < name.length && loose = ['c'] then ['i', 's', 'c'] else loose

/-- Whether a loose name is in a list. -/
def isListed (name : Text) (names : List String) : Bool := names.contains (String.ofList name)

/-- What stands before and after the first `!=`. -/
def splitUnequal? : Text → Option (Text × Text)
  | '!' :: '=' :: rest => some ([], rest)
  | c :: rest          => (splitUnequal? rest).map fun (before, after) => (c :: before, after)
  | []                 => none

/-- The name and the value of a property that is written with `!=`, `:` or `=`; the first of these
signs that occurs at all splits the text. -/
def splitValue? (name : Text) : Option (Text × Text) :=
  (splitUnequal? name).orElse fun _ =>
    (Text.splitFirst? ':' name).orElse fun _ => Text.splitFirst? '=' name

/-- Whether a property with a value exists. -/
def isValueProperty (property value : Text) : Bool :=
  let property := looseName property
  let value := looseName value
  if isListed property ["gc", "generalcategory"] then isListed value categoryNames
  else if isListed property ["sc", "script", "scx", "scriptextensions"] then
    isListed value scriptNames
  else property = "age".toList && isListed value ageNames

/-- Whether a property of that name exists: categories, binary properties and scripts go by their
names alone. -/
def isProperty (name : Text) : Bool :=
  match splitValue? name with
  | some (property, value) => isValueProperty property value
  | none                   =>
    let name := looseName name
    isListed name binaryNames || isListed name categoryNames || isListed name scriptNames

end WhenClause.Regex
