import Formula.Proofs.Evaluation.Limits

/-!
# Trees in place of variables

A variable that is bound to an expression means the tree of that expression, put in its place:
`evaluate_substitute`. The tree in place of the variable is reached one level higher and inside of one
expression less, so all that can change is that a limit is no longer reached. The expression may
mention the variable itself, and is put in its place in the given tree only.
-/

namespace Formula

/-- The tree with a part in place of every variable of a name, in any letter case. -/
def Tree.substitute (tree : Tree) (name : String) (part : Tree) : Tree :=
  match tree with
  | literal value => .literal value
  | reference other =>
    if Bindings.fold other = Bindings.fold name then part else .reference other
  | unary op operand => .unary op (operand.substitute name part)
  | binary op left right => .binary op (left.substitute name part) (right.substitute name part)
  | call function arguments => .call function (inAll arguments)
where
  /-- The trees with the part in place of the variable in each of them. -/
  inAll : List Tree → List Tree
    | [] => []
    | tree :: rest => tree.substitute name part :: inAll rest

variable {bindings : Bindings} {name : String} {part : Tree}

/-- A substitution in several trees is one in each of them. -/
theorem inAll_eq_map (trees : List Tree) :
    Tree.substitute.inAll name part trees = trees.map (·.substitute name part) := by
  induction trees with
  | nil => rfl
  | cons tree rest ih => rw [List.map_cons, ← ih]; rfl

/-- Away from the variable itself, a substitution leaves a node and goes on below it. -/
theorem Tree.substitute_eq_mapParts {tree : Tree}
    (h : ∀ other, tree = .reference other → Bindings.fold other ≠ Bindings.fold name) :
    tree.substitute name part = tree.mapParts (·.substitute name part) := by
  cases tree with
  | reference other => exact if_neg (h other rfl)
  | call function arguments => exact congrArg (call function) (inAll_eq_map arguments)
  | _ => rfl

/-- Names that fold alike are bound to the same value. -/
theorem Bindings.get?_congr {other : String} (h : fold other = fold name) :
    bindings.get? other = bindings.get? name := by
  unfold get?
  rw [h]

/-- Where a part comes to the same as the variable in some levels more, so does every tree with the
part in place of the variable. -/
theorem agrees_substitute_of {extra : Nat}
    (hpart : ∀ other, Bindings.fold other = Bindings.fold name → ∀ levels nesting,
      Agrees ((Tree.reference other).within bindings levels nesting)
        (part.within bindings (levels + extra) nesting))
    (levels nesting : Nat) (tree : Tree) :
    Agrees (tree.within bindings levels nesting)
      ((tree.substitute name part).within bindings (levels + extra) nesting) := by
  induction levels generalizing nesting tree with
  | zero => exact agrees_of_isLimit rfl _
  | succ levels ih =>
    by_cases hname : ∃ other, tree = .reference other ∧ Bindings.fold other = Bindings.fold name
    · obtain ⟨other, rfl, hfold⟩ := hname
      have htree : (Tree.reference other).substitute name part = part := if_pos hfold
      rw [htree]
      exact hpart other hfold (levels + 1) nesting
    · rw [Tree.substitute_eq_mapParts fun other h hfold => hname ⟨other, h, hfold⟩,
        Nat.add_right_comm]
      refine agrees_nodeValue (fun below => ih nesting below) (fun entered inside => ?_) tree
      -- what variables are bound to is not substituted into, and only has levels to spare
      by_cases hdeep : nesting ≥ maxNesting
      · rw [if_pos hdeep, if_pos hdeep]
        exact Agrees.refl _
      · rw [if_neg hdeep, if_neg hdeep]
        exact Tree.within_mono (Nat.le_add_right levels extra) (Nat.le_refl _) inside

/-- The substituted tree comes to the same in as many levels. -/
theorem agrees_substitute {e : Expression} (hbound : bindings.get? name = some (.expression e))
    (levels nesting : Nat) (tree : Tree) :
    Agrees (tree.within bindings levels nesting)
      ((tree.substitute name e.tree).within bindings levels nesting) := by
  refine @agrees_substitute_of bindings name e.tree 0 (fun other hfold levels nesting => ?_) levels
    nesting tree
  cases levels with
  | zero => exact agrees_of_isLimit rfl _
  | succ levels =>
    have hvalue : (Tree.reference other).within bindings (levels + 1) nesting =
        if nesting ≥ maxNesting then .error (.nestingTooDeep other maxNesting)
        else e.tree.within bindings levels (nesting + 1) := by
      simp only [Tree.within, Tree.nodeValue, Bindings.get?_congr hfold, hbound]
    rw [hvalue]
    by_cases hdeep : nesting ≥ maxNesting
    · rw [if_pos hdeep]
      exact agrees_of_isLimit rfl _
    · -- in place of the variable, the tree has a level more and is inside of an expression less
      rw [if_neg hdeep]
      exact Tree.within_mono (by omega) (by omega) e.tree

/-- A variable bound to an expression means the tree of the expression in its place: a result other
than an error about a limit stays as it is when the tree is put there. -/
theorem evaluate_substitute (tree : Tree) (bindings : Bindings) (name : String) (e : Expression)
    (hbound : bindings.get? name = some (.expression e))
    (hsettled : Settled (tree.evaluate bindings)) :
    (tree.substitute name e.tree).evaluate bindings = tree.evaluate bindings := by
  rw [Tree.evaluate_eq_within] at hsettled
  rw [Tree.evaluate_eq_within, Tree.evaluate_eq_within]
  exact agrees_substitute hbound maxEvaluationDepth 0 tree hsettled

/-- A variable that is bound to an expression with itself in it may still be replaced by that
expression. -/
theorem evaluate_substitute_cyclic :
    let e := Expression.mk "true or x" (.binary .or (.literal (.boolean true)) (.reference "x")) 0
    let bindings := Bindings.empty.insert "x" (.expression e)
    (Tree.unary .not e.tree).evaluate bindings =
      (Tree.unary .not (.reference "X")).evaluate bindings := by
  intro e bindings
  have hfold : Bindings.fold "X" = Bindings.fold "x" := by decide +kernel
  have hbound : bindings.get? "x" = some (.expression e) := by
    rw [Bindings.get?_insert, if_pos rfl]
  -- the variable inside of its own tree is never reached, so four levels are enough
  have hwithin (levels : Nat) :
      (Tree.unary .not (.reference "X")).within bindings (levels + 4) 0 = .ok (.boolean false) := by
    simp only [Tree.within, Tree.nodeValue, Bindings.get?_congr hfold, hbound]
    rfl
  have hvalue : (Tree.unary .not (.reference "X")).evaluate bindings = .ok (.boolean false) := by
    rw [Tree.evaluate_eq_within]
    exact hwithin 508
  have htree : (Tree.unary .not (.reference "X")).substitute "x" e.tree = .unary .not e.tree :=
    congrArg (Tree.unary .not) (if_pos hfold)
  have h := evaluate_substitute (.unary .not (.reference "X")) bindings "x" e hbound
    fun error herror => by rw [hvalue] at herror; cases herror
  rwa [htree] at h

end Formula
