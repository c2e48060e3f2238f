import Mathlib.Tactic.Common
import WhenClause.Regex.Accept

/-!
# Sets of accepted regexes

Whatever engine takes a part of a regex, it asks that every set of characters in it exists, be it
a class or a property. So the sets of an accepted regex exist (`Node.setsExist_of_isAccepted`).
-/

namespace WhenClause.Regex

namespace Node

mutual

/-- Whether every set in a node exists. -/
def setsExist : Node → Bool
  | .set valid                    => valid
  | .concat nodes | .choice nodes => allSetsExist nodes
  | .capture body                 => setsExist body
  | .repeated body _ _            => setsExist body
  | .atomic body                  => setsExist body
  | .look _ body                  => setsExist body
  | .conditional condition yes no => setsExist condition && setsExist yes && setsExist no
  | _                             => true

/-- Whether every set in some nodes exists. -/
def allSetsExist : List Node → Bool
  | []            => true
  | node :: nodes => setsExist node && allSetsExist nodes

end

mutual

lemma setsExist_of_isFast (node : Node) (h : node.isFast = true) : node.setsExist = true := by
  match node with
  | .set valid => exact h
  | .concat nodes | .choice nodes => exact allSetsExist_of_allFast nodes h
  | .capture body | .atomic body | .look _ body => exact setsExist_of_isFast body h
  | .repeated body low high =>
    rw [isFast, Bool.and_eq_true] at h
    exact setsExist_of_isFast body h.2
  | .conditional condition yes no =>
    simp only [isFast, Bool.and_eq_true] at h
    simp only [setsExist, Bool.and_eq_true]
    exact ⟨⟨setsExist_of_isFast condition h.1.1, setsExist_of_isFast yes h.1.2⟩,
      setsExist_of_isFast no h.2⟩
  | .empty | .char | .assertion _ | .mark | .backreference _ | .took _ => rfl

lemma allSetsExist_of_allFast (nodes : List Node) (h : allFast nodes = true) :
    allSetsExist nodes = true := by
  match nodes with
  | [] => rfl
  | node :: nodes =>
    rw [allFast, Bool.and_eq_true] at h
    rw [allSetsExist, Bool.and_eq_true]
    exact ⟨setsExist_of_isFast node h.1, allSetsExist_of_allFast nodes h.2⟩

end

mutual

lemma setsExist_of_isTaken (strict : Bool) (node : Node) (h : node.isTaken strict = true) :
    node.setsExist = true := by
  unfold isTaken at h
  split_ifs at h with heasy
  · exact setsExist_of_isFast node h
  match node, h with
  | .set valid, h => exact h
  | .concat parts, h => exact allSetsExist_of_isTakenSequence strict true parts h
  | .choice branches, h => exact allSetsExist_of_isTakenEach strict branches h
  | .capture body, h => exact setsExist_of_isTaken strict body h
  | .repeated body low high, h => exact setsExist_of_isTaken _ body h
  | .atomic body, h | .look false body, h => exact setsExist_of_isTaken false body h
  | .look true body, h =>
    dsimp only at h
    split_ifs at h with hfixed
    · exact setsExist_of_isTaken false body h
    · match body, h with
      | .choice branches, h => exact allSetsExist_of_isTakenBehind branches h
  | .conditional condition yes no, h =>
    simp only [Bool.and_eq_true] at h
    simp only [setsExist, Bool.and_eq_true]
    exact ⟨⟨setsExist_of_isTaken strict condition h.1.1, setsExist_of_isTaken strict yes h.1.2⟩,
      setsExist_of_isTaken strict no h.2⟩
  | .empty, _ | .char, _ | .assertion _, _ | .mark, _ | .backreference _, _ | .took _, _ => rfl

lemma allSetsExist_of_isTakenSequence (strict atStart : Bool) (nodes : List Node)
    (h : isTakenSequence strict atStart nodes = true) : allSetsExist nodes = true := by
  match nodes with
  | [] => rfl
  | node :: nodes =>
    rw [isTakenSequence] at h
    rw [allSetsExist, Bool.and_eq_true]
    by_cases hprefix : (atStart && node.isFixedEasy) = true
    · rw [if_pos hprefix, Bool.and_eq_true] at h
      exact ⟨setsExist_of_isFast node h.1, allSetsExist_of_isTakenSequence strict true nodes h.2⟩
    rw [if_neg hprefix] at h
    by_cases hsuffix :
      ((node :: nodes).all fun n => if strict then n.isFixedEasy else !n.isHard) = true
    · rw [if_pos hsuffix, Bool.and_eq_true] at h
      exact ⟨setsExist_of_isFast node h.1, allSetsExist_of_allFast nodes h.2⟩
    · rw [if_neg hsuffix, Bool.and_eq_true] at h
      exact ⟨setsExist_of_isTaken true node h.1,
        allSetsExist_of_isTakenSequence strict false nodes h.2⟩

lemma allSetsExist_of_isTakenEach (strict : Bool) (nodes : List Node)
    (h : isTakenEach strict nodes = true) : allSetsExist nodes = true := by
  match nodes with
  | [] => rfl
  | node :: nodes =>
    rw [isTakenEach, Bool.and_eq_true] at h
    rw [allSetsExist, Bool.and_eq_true]
    exact ⟨setsExist_of_isTaken strict node h.1, allSetsExist_of_isTakenEach strict nodes h.2⟩

lemma allSetsExist_of_isTakenBehind (nodes : List Node) (h : isTakenBehind nodes = true) :
    allSetsExist nodes = true := by
  match nodes with
  | [] => rfl
  | node :: nodes =>
    simp only [isTakenBehind, Bool.and_eq_true] at h
    rw [allSetsExist, Bool.and_eq_true]
    exact ⟨setsExist_of_isTaken false node h.1.2, allSetsExist_of_isTakenBehind nodes h.2⟩

end

/-- The sets of an accepted regex exist. -/
lemma setsExist_of_isAccepted {node : Node} (h : node.isAccepted = true) :
    node.setsExist = true := by
  rw [isAccepted, Bool.and_eq_true] at h
  have hengines := h.2
  split_ifs at hengines
  · exact setsExist_of_isTaken true node hengines
  · exact setsExist_of_isFast node hengines

end Node

end WhenClause.Regex
