import Formula.Proofs.Tree.Grammar
import Mathlib.Data.List.MinMax
import Mathlib.Order.Nat

/-!
# Nodes of a tree

`Tree.parts` are the trees right below the root, and `Tree.Contains` says that a tree stands at one
of the nodes of another. What is known of a tree as a whole, its height and that its calls are
accepted, is known of its parts, and so of every node.
-/

namespace Formula

namespace Tree

/-- The trees right below the root. -/
def parts : Tree → List Tree
  | literal _ | reference _ => []
  | unary _ operand => [operand]
  | binary _ left right => [left, right]
  | call _ arguments => arguments

/-- Whether a tree stands at a node of another, the root included. -/
inductive Contains : Tree → Tree → Prop where
  | self (tree : Tree) : Contains tree tree
  | inside {tree part node : Tree} (hpart : part ∈ tree.parts) (h : Contains part node) :
      Contains tree node

/-- The greatest of the numbers that the parts have. -/
def overParts (number : Tree → Nat) (tree : Tree) : Nat := (tree.parts.map number).foldr max 0

variable {tree part node : Tree}

/-- No part has a greater number than all of them together. -/
theorem le_overParts (number : Tree → Nat) (h : part ∈ tree.parts) :
    number part ≤ tree.overParts number :=
  List.le_max_of_le (List.mem_map_of_mem h) (Nat.le_refl _)

/-- A bound on the parts is one on all of them together. -/
theorem overParts_le {number : Tree → Nat} {bound : Nat}
    (h : ∀ part ∈ tree.parts, number part ≤ bound) : tree.overParts number ≤ bound := by
  apply List.max_le_of_forall_le _ _
  intro n hn
  obtain ⟨part, hpart, rfl⟩ := List.mem_map.mp hn
  exact h part hpart

/-- Parts with the same numbers have the same greatest one. -/
theorem overParts_congr {number number' : Tree → Nat}
    (h : ∀ part ∈ tree.parts, number part = number' part) :
    tree.overParts number = tree.overParts number' :=
  congrArg (List.foldr max 0) (List.map_congr_left h)

/-- The height of several trees is that of the tallest. -/
theorem heightAll_eq (trees : List Tree) :
    height.heightAll trees = (trees.map height).foldr max 0 := by
  induction trees with
  | nil => rfl
  | cons tree rest ih => rw [height.heightAll, ih]; rfl

/-- A tree is one level higher than the highest of its parts. -/
theorem height_eq (tree : Tree) : tree.height = tree.overParts height + 1 := by
  cases tree with
  | literal _ => rfl
  | reference _ => rfl
  | unary op operand => exact congrArg (· + 1) (Nat.max_zero _).symm
  | binary op left right =>
    show max left.height right.height + 1 = max left.height (max right.height 0) + 1
    rw [Nat.max_zero]
  | call f arguments => exact congrArg (· + 1) (heightAll_eq arguments)

/-- A part is lower than its tree. -/
theorem height_lt_of_mem_parts (h : part ∈ tree.parts) : part.height < tree.height := by
  rw [tree.height_eq]
  exact Nat.lt_succ_of_le (le_overParts height h)

/-- The calls of several trees are accepted if those of each are. -/
theorem allAccepted_iff (trees : List Tree) :
    callsAccepted.allAccepted trees = true ↔ ∀ tree ∈ trees, tree.callsAccepted = true := by
  induction trees with
  | nil => simp [callsAccepted.allAccepted]
  | cons tree rest ih =>
    rw [callsAccepted.allAccepted, Bool.and_eq_true_iff, ih, List.forall_mem_cons]

/-- If the calls of a tree are accepted, so are those of its parts. -/
theorem callsAccepted_of_mem_parts (h : tree.callsAccepted = true) (hpart : part ∈ tree.parts) :
    part.callsAccepted = true := by
  cases tree with
  | literal _ => exact nomatch hpart
  | reference _ => exact nomatch hpart
  | unary op operand =>
    rw [List.mem_singleton.mp hpart]
    exact h
  | binary op left right =>
    have hboth : left.callsAccepted = true ∧ right.callsAccepted = true := Bool.and_eq_true_iff.mp h
    rcases List.mem_pair.mp hpart with rfl | rfl
    · exact hboth.1
    · exact hboth.2
  | call f arguments =>
    exact (allAccepted_iff arguments).mp (Bool.and_eq_true_iff.mp h).2 part hpart

/-- Where all calls are accepted, so is the call at any node. -/
theorem accepts_of_contains {f : Function} {arguments : List Tree}
    (hcalls : tree.callsAccepted = true) (h : tree.Contains (.call f arguments)) :
    f.arity.accepts arguments.length = true := by
  generalize hnode : Tree.call f arguments = node at h
  induction h with
  | self tree =>
    subst hnode
    exact (Bool.and_eq_true_iff.mp hcalls).1
  | inside hpart _ ih => exact ih (callsAccepted_of_mem_parts hcalls hpart) hnode

/-- What holds of a tree if it holds of its parts holds of every tree. -/
theorem induction_parts {property : Tree → Prop}
    (h : ∀ tree : Tree, (∀ part ∈ tree.parts, property part) → property tree) (tree : Tree) :
    property tree := by
  induction hheight : tree.height using Nat.strong_induction_on generalizing tree with
  | _ height ih =>
    apply h tree
    intro part hpart
    exact ih part.height (hheight ▸ height_lt_of_mem_parts hpart) part rfl

end Tree

end Formula
