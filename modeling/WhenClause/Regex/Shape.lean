import WhenClause.Regex.Node

/-!
# Shapes of regexes

How many characters a node takes at least, whether it always takes that many, and whether it
needs a matcher that can go back (it is *hard*) or only looks forward (it is *easy*); and whether
every reference is to a group that has been opened before.
-/

namespace WhenClause.Regex

/-- What the matcher must know of a node. -/
structure Shape where
  /-- the least number of characters -/
  least : Nat
  /-- the number of characters is always the same -/
  fixed : Bool
  hard : Bool
  deriving DecidableEq, Repr

/-- The shape of one part after another. -/
def Shape.append (a b : Shape) : Shape :=
  ⟨a.least + b.least, a.fixed && b.fixed, a.hard || b.hard⟩

/-- The shape of a choice with one more branch at its end. -/
def Shape.orElse (a b : Shape) : Shape :=
  ⟨min a.least b.least, a.fixed && b.fixed && a.least = b.least, a.hard || b.hard⟩

namespace Node

mutual

/-- The shape of a node. -/
def shape : Node → Shape
  | .empty                       => ⟨0, true, false⟩
  | .char                        => ⟨1, true, false⟩
  | .set _                       => ⟨1, true, false⟩
  | .assertion onWords           => ⟨0, true, onWords⟩
  | .mark                        => ⟨0, true, true⟩
  | .backreference _             => ⟨0, false, true⟩
  | .took _                      => ⟨0, true, true⟩
  | .concat parts                => concatShape parts
  | .choice []                   => ⟨0, true, false⟩
  | .choice (branch :: branches) => choiceShape (shape branch) branches
  | .capture body                => shape body
  | .repeated body low high      =>
    let s := shape body
    ⟨s.least * low, s.fixed && low = high, s.hard⟩
  | .atomic body                 => { shape body with hard := true }
  | .look _ _                    => ⟨0, true, true⟩
  | .conditional condition yes no =>
    let c := shape condition
    let y := shape yes
    let n := shape no
    ⟨c.least + min y.least n.least,
      c.fixed && y.fixed && n.fixed && c.least + y.least = n.least, true⟩

/-- The shape of some parts one after another. -/
def concatShape : List Node → Shape
  | []            => ⟨0, true, false⟩
  | part :: parts => (shape part).append (concatShape parts)

/-- The shape of a choice whose first branches have the given shape. -/
def choiceShape (first : Shape) : List Node → Shape
  | []                 => first
  | branch :: branches => choiceShape (first.orElse (shape branch)) branches

end

mutual

/-- The number of groups after a node, counting on from `opened`, if each reference in it is to a
group that has been opened; the whole match is the group 0. -/
def countGroups? (opened : Nat) : Node → Option Nat
  | .backreference group | .took group => if group < opened then some opened else none
  | .concat nodes | .choice nodes      => countAll? opened nodes
  | .capture body                      => countGroups? (opened + 1) body
  | .repeated body _ _                 => countGroups? opened body
  | .atomic body                       => countGroups? opened body
  | .look _ body                       => countGroups? opened body
  | .conditional condition yes no      => do
    let opened ← countGroups? opened condition
    let opened ← countGroups? opened yes
    countGroups? opened no
  | _                                  => some opened

/-- The number of groups after some nodes. -/
def countAll? (opened : Nat) : List Node → Option Nat
  | []            => some opened
  | node :: nodes => do countAll? (← countGroups? opened node) nodes

end

end Node

end WhenClause.Regex
