import WhenClause.Regex.Parser
import WhenClause.Regex.Shape

/-!
# Accepted regexes

A regex is matched by two engines. An easy part goes to the fast engine, which checks the limits
of repetitions and the classes of what it is given; hard parts are run by an engine that can go
back, which only asks that a look behind has a fixed length. The larger engine hands over
whatever easy parts it can: at the start of a sequence those of fixed length, and at its end all
of them, or again those of fixed length if what follows may have to come back.

A regex is accepted when it parses, its references are to open groups, and both engines take
their parts. The limit that the fast engine sets to the size of what it builds from a regex is left
out: a repetition such as `a{100000000}`, which exceeds it, is accepted here.
-/

namespace WhenClause.Regex

/-- Whether the limits of a repetition suit the fast engine, whatever size it builds from them. -/
def isLimit (low high : Nat) : Bool :=
  low ≤ high && low < UInt32.size && (high = Node.noLimit || high < UInt32.size)

namespace Node

/-- Whether a node needs the larger engine. -/
def isHard (n : Node) : Bool := n.shape.hard

/-- Whether a node is easy and has a fixed length. -/
def isFixedEasy (n : Node) : Bool := n.shape.fixed && !n.shape.hard

mutual

/-- Whether the fast engine takes an easy node. -/
def isFast : Node → Bool
  | .set valid                     => valid
  | .concat nodes | .choice nodes  => allFast nodes
  | .capture body                  => isFast body
  | .repeated body low high        => isLimit low high && isFast body
  | .atomic body                   => isFast body
  | .look _ body                   => isFast body
  | .conditional condition yes no  => isFast condition && isFast yes && isFast no
  | _                              => true

/-- Whether the fast engine takes some easy nodes. -/
def allFast : List Node → Bool
  | []            => true
  | node :: nodes => isFast node && allFast nodes

end

mutual

/-- Whether the larger engine takes a node; `strict` if what follows may have to come back into
it. -/
def isTaken (strict : Bool) (node : Node) : Bool :=
  if !strict && !node.isHard then node.isFast
  else
    match node with
    | .set valid                    => valid
    | .concat parts                 => isTakenSequence strict true parts
    | .choice branches              => isTakenEach strict branches
    | .capture body                 => isTaken strict body
    | .repeated body low high       => isTaken (strict || (low, high) != (0, 1)) body
    | .atomic body                  => isTaken false body
    | .look false body              => isTaken false body
    | .look true body               =>
      if body.shape.fixed then isTaken false body
      else
        match body with
        | .choice branches => isTakenBehind branches
        | _                => false
    | .conditional condition yes no =>
      isTaken strict condition && isTaken strict yes && isTaken strict no
    | _                             => true

/-- Whether the larger engine takes a sequence; `atStart` while all parts before were easy and
of fixed length. -/
def isTakenSequence (strict atStart : Bool) : List Node → Bool
  | []            => true
  | part :: parts =>
    if atStart && part.isFixedEasy then isFast part && isTakenSequence strict true parts
    else if (part :: parts).all (fun n => if strict then n.isFixedEasy else !n.isHard) then
      isFast part && allFast parts
    else isTaken true part && isTakenSequence strict false parts

/-- Whether the larger engine takes each of some nodes. -/
def isTakenEach (strict : Bool) : List Node → Bool
  | []            => true
  | node :: nodes => isTaken strict node && isTakenEach strict nodes

/-- Whether the larger engine takes each branch of a look behind by itself. -/
def isTakenBehind : List Node → Bool
  | []            => true
  | node :: nodes => node.shape.fixed && isTaken false node && isTakenBehind nodes

end

/-- Whether the two engines take a whole regex. -/
def isAccepted (n : Node) : Bool :=
  (n.countGroups? 1).isSome && if n.isHard then n.isTaken true else n.isFast

end Node

/-- The source of a pattern: of its flags only these three change what is accepted. -/
def sourceOf (pattern flags : Text) : Text :=
  match flags.filter fun c => c ∈ ['i', 'm', 's'] with
  | []     => pattern
  | inline => '(' :: '?' :: inline ++ ')' :: pattern

/-- Whether a pattern is a regex under its flags. -/
def accepts (pattern flags : Text) : Bool :=
  match parse? (sourceOf pattern flags) with
  | some node => node.isAccepted
  | none      => false

end WhenClause.Regex
