import Mathlib
import CommandWrap.Shell.Shape

/-! The search for nested commands, against what can be reached in a tree. Steps lead from a node to its
parts, and from a redirection to its target. -/
namespace CommandWrap.Shell

namespace Tree

/-- The tree is a part of the node, or the target of a redirection. A target without a kind is a plain
value, and nothing is looked for in it. -/
inductive Below : Tree → Tree → Prop
  | part {kind type : Option Text} {parts : List Tree} {target : Option Tree} {t : Tree} (h : t ∈ parts) :
      Below (node kind type parts target) t
  | target {type : Option Text} {parts : List Tree} {t : Tree} (h : t.kind?.isSome = true) :
      Below (node (some "redirect") type parts (some t)) t

/-- The second tree is the first, or stands below it at some depth. -/
def Reaches : Tree → Tree → Prop := Relation.ReflTransGen Below

/-- The node runs a command inside another one, or brings the input of a command with it. -/
def IsNesting : Tree → Prop
  | leaf => False
  | node kind type _ _ => kind = some "commandsubstitution" ∨ kind = some "processsubstitution" ∨
      kind = some "redirect" ∧ (type = some "<<" ∨ type = some "<<-" ∨ type = some "<<<")

variable {t u : Tree} {trees : List Tree} {target : Option Tree}

lemma isSubstitution_iff {kind : Option Text} : isSubstitution kind = true ↔
    kind = some "commandsubstitution" ∨ kind = some "processsubstitution" := by
  cases kind with
  | none => simp [isSubstitution]
  | some kind => simp [isSubstitution, substitutionKinds]

lemma isDocument_iff {type : Option Text} : isDocument type = true ↔
    type = some "<<" ∨ type = some "<<-" ∨ type = some "<<<" := by
  cases type with
  | none => simp [isDocument]
  | some type => simp [isDocument, documentTypes]

lemma anyHasNested_iff : anyHasNested trees = true ↔ ∃ t ∈ trees, t.hasNested = true := by
  induction trees with
  | nil => simp [anyHasNested]
  | cons t trees ih => simp [anyHasNested, ih]

lemma targetHasNested_iff : targetHasNested target = true ↔
    ∃ t, target = some t ∧ t.kind?.isSome = true ∧ t.hasNested = true := by
  cases target with
  | none => simp [targetHasNested]
  | some t => simp [targetHasNested]

/-- One step of the search: the node itself, or something right below it. -/
lemma hasNested_iff_step : t.hasNested = true ↔ t.IsNesting ∨ ∃ u, t.Below u ∧ u.hasNested = true := by
  cases t with
  | leaf =>
    refine iff_of_false (by simp [hasNested]) ?_
    rintro (hnesting | ⟨u, hbelow, -⟩)
    · exact hnesting
    · cases hbelow
  | node kind type parts target =>
    simp only [hasNested, Bool.or_eq_true, Bool.and_eq_true, decide_eq_true_eq, isSubstitution_iff,
      isDocument_iff, targetHasNested_iff, anyHasNested_iff]
    constructor
    · rintro ((hkind | ⟨hkind, htype | ⟨u, rfl, hsome, hu⟩⟩) | ⟨u, hmem, hu⟩)
      · exact .inl (hkind.imp_right .inl)
      · exact .inl (.inr (.inr ⟨hkind, htype⟩))
      · subst hkind
        exact .inr ⟨u, .target hsome, hu⟩
      · exact .inr ⟨u, .part hmem, hu⟩
    · rintro ((hkind | hkind | ⟨hkind, htype⟩) | ⟨u, hbelow, hu⟩)
      · exact .inl (.inl (.inl hkind))
      · exact .inl (.inl (.inr hkind))
      · exact .inl (.inr ⟨hkind, .inl htype⟩)
      · cases hbelow with
        | part hmem => exact .inr ⟨u, hmem, hu⟩
        | target hsome => exact .inl (.inr ⟨rfl, .inr ⟨u, rfl, hsome, hu⟩⟩)

lemma sizeOf_lt_of_below (h : t.Below u) : sizeOf u < sizeOf t := by
  cases h with
  | part hmem =>
    have hsize := List.sizeOf_lt_of_mem hmem
    simp only [node.sizeOf_spec]
    omega
  | target hsome =>
    simp only [node.sizeOf_spec, Option.some.sizeOf_spec]
    omega

/-- The search finds something exactly if it can be reached. -/
theorem hasNested_iff_reaches : t.hasNested = true ↔ ∃ u, t.Reaches u ∧ u.IsNesting := by
  constructor
  · -- A step leads to a smaller tree, so the search comes to an end at what it finds.
    induction hsize : sizeOf t using Nat.strongRecOn generalizing t with
    | ind n ih =>
      intro h
      rcases hasNested_iff_step.mp h with hnesting | ⟨u, hbelow, hu⟩
      · exact ⟨t, .refl, hnesting⟩
      · obtain ⟨v, hv, hnesting⟩ := ih (sizeOf u) (hsize ▸ sizeOf_lt_of_below hbelow) rfl hu
        exact ⟨v, .head hbelow hv, hnesting⟩
  · rintro ⟨u, hreaches, hnesting⟩
    induction hreaches using Relation.ReflTransGen.head_induction_on with
    | refl => exact hasNested_iff_step.mpr (.inl hnesting)
    | head hbelow _ ih => exact hasNested_iff_step.mpr (.inr ⟨_, hbelow, ih⟩)

end Tree

namespace Shape

/-- One command, from which no nested command can be reached. -/
def IsPlainCommand (trees : List Tree) : Prop :=
  ∃ t, trees = [t] ∧ t.kind? = some "command" ∧ ∀ u, t.Reaches u → ¬ u.IsNesting

lemma ofTrees_eq_simple_iff {trees : List Tree} :
    ofTrees trees = .simple ↔ IsPlainCommand trees := by
  match trees with
  | [] => simp [ofTrees, IsPlainCommand]
  | [t] =>
    have hplain : t.hasNested = false ↔ ∀ u, t.Reaches u → ¬ u.IsNesting := by
      rw [← Bool.not_eq_true, Tree.hasNested_iff_reaches]
      simp only [not_exists, not_and]
    simp only [ofTrees, IsPlainCommand, List.cons.injEq, and_true, exists_eq_left', ← hplain]
    split_ifs with h
    · simpa using h
    · simpa using h
  | first :: second :: more => simp [ofTrees, IsPlainCommand]

/-- The trees of a text that can be parsed make it simple if they are one command from which no nested
command can be reached, and compound if they are anything else. -/
theorem ofTrees_by_reach (trees : List Tree) :
    (ofTrees trees = .simple ↔ IsPlainCommand trees) ∧
    (ofTrees trees = .compound ↔ trees ≠ [] ∧ ¬ IsPlainCommand trees) ∧
    ∀ depth text, Script.parse? depth text = some trees → ofText depth text = ofTrees trees := by
  refine ⟨ofTrees_eq_simple_iff, ?_, fun depth text hparse => ?_⟩
  · rw [← ofTrees_eq_simple_iff]
    match trees with
    | [] => simp [ofTrees]
    | [t] =>
      simp only [ofTrees]
      split_ifs <;> simp
    | first :: second :: more => simp [ofTrees]
  · rw [ofText, hparse]

end Shape
end CommandWrap.Shell
