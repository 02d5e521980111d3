import Formula.Evaluation

/-!
# Evaluation without counters

An evaluation leaves its counters as it found them, so its result depends on them only through what
they allow. `Tree.within bindings levels nesting tree` is that result: the value of a tree in at most
`levels` levels, inside of `nesting` expressions. `evaluate_eq_within` says that it is the outcome of
an evaluation, and `Walk.returns_descend` that the counters come back whatever the outcome is. So one
evaluator may be used for any number of trees (`Evaluator.evaluateAll_ofBindings`).
-/

namespace Formula

/-! ## Results of nodes -/

/-- The truth value of an operand of a logical operator, given the values of trees. -/
def Tree.truth (inner : Tree → Except EvalError Value) (op : BinaryOp) (tree : Tree) :
    Except EvalError Bool := do
  let value ← inner tree
  match value.toBoolean? with
  | some b => return b
  | none => throw (.invalidOperand op.symbol value.kind)

/-- The value of one node, given the values of the trees below it, and those of the trees of
expressions that variables are bound to. -/
def Tree.nodeValue (bindings : Bindings) (inner : Tree → Except EvalError Value)
    (enter : String → Tree → Except EvalError Value) : Tree → Except EvalError Value
  | literal value => .ok value
  | reference name =>
    match bindings.get? name with
    | none => .error (.unresolvedVariable name)
    | some (.expression e) => enter name e.tree
    | some value => .ok value
  | unary op operand => do op.apply (← inner operand)
  | binary .and left right => do
    if ← truth inner .and left then return .boolean (← truth inner .and right)
    else return .boolean false
  | binary .or left right => do
    if ← truth inner .or left then return .boolean true
    else return .boolean (← truth inner .or right)
  | binary op left right => do
    let left ← inner left
    let right ← inner right
    op.apply left right
  | call function arguments => do function.call (← arguments.mapM inner)

/-- The value of a tree in at most `levels` levels, inside of `nesting` expressions. -/
def Tree.within (bindings : Bindings) : (levels nesting : Nat) → Tree → Except EvalError Value
  | 0, _, _ => .error (.tooDeep maxEvaluationDepth)
  | levels + 1, nesting, tree =>
    tree.nodeValue bindings (within bindings levels nesting) fun name part =>
      if nesting ≥ maxNesting then .error (.nestingTooDeep name maxNesting)
      else within bindings levels (nesting + 1) part

/-! ## Steps that keep the counters -/

namespace Walk

/-- Whether a step yields a result and leaves the counters as they are. -/
def Returns {α : Type} (step : Walk α) (counters : Counters) (result : Except EvalError α) : Prop :=
  step.run counters = (result, counters)

variable {α β : Type} {counters : Counters}

/-- A value is returned as it is. -/
theorem returns_pure (a : α) : Returns (pure a) counters (.ok a) := rfl

/-- An error is returned as it is. -/
theorem returns_throw (e : EvalError) : Returns (throw e : Walk α) counters (.error e) := rfl

/-- Reading the counters changes nothing. -/
theorem returns_get_bind {next : Counters → Walk β} {result : Except EvalError β}
    (h : Returns (next counters) counters result) : Returns (get >>= next) counters result := h

/-- A result is returned as it is. -/
theorem returns_ofExcept (result : Except EvalError α) :
    Returns (ofExcept result) counters result := rfl

/-- Steps return one after the other, each from the same counters. -/
theorem returns_bind {step : Walk α} {next : α → Walk β} {result : Except EvalError α}
    {results : α → Except EvalError β} (hstep : Returns step counters result)
    (hnext : ∀ a, Returns (next a) counters (results a)) :
    Returns (step >>= next) counters (result >>= results) := by
  have hrun : (step >>= next).run counters =
      ExceptT.bindCont (m := StateM Counters) next (step.run counters).1 (step.run counters).2 :=
    rfl
  rw [Returns, hrun, show step.run counters = _ from hstep]
  cases result with
  | error e => rfl
  | ok a => exact hnext a

/-- A level is counted while the body runs, and not after it. -/
theorem returns_deeper {body : Walk α} {result : Except EvalError α}
    (h : Returns body { counters with depth := counters.depth + 1 } result) :
    Returns (deeper body) counters result := by
  have hrun : (deeper body).run counters =
      let entered := body.run { counters with depth := counters.depth + 1 }
      (entered.1, { entered.2 with depth := counters.depth }) := rfl
  rw [Returns, hrun, show body.run _ = _ from h]

/-- A nested expression is counted while the body runs, and not after it. -/
theorem returns_nested {body : Walk α} {result : Except EvalError α}
    (h : Returns body { counters with nesting := counters.nesting + 1 } result) :
    Returns (nested body) counters result := by
  have hrun : (nested body).run counters =
      let entered := body.run { counters with nesting := counters.nesting + 1 }
      (entered.1, { entered.2 with nesting := counters.nesting }) := rfl
  rw [Returns, hrun, show body.run _ = _ from h]

/-- Steps on several parts all return to the same counters. -/
theorem returns_mapM {step : α → Walk β} {result : α → Except EvalError β} (parts : List α)
    (h : ∀ part, Returns (step part) counters (result part)) :
    Returns (parts.mapM step) counters (parts.mapM result) := by
  induction parts with
  | nil => exact returns_pure []
  | cons part rest ih =>
    rw [List.mapM_cons, List.mapM_cons]
    exact returns_bind (h part) fun value =>
      returns_bind ih fun values => returns_pure (value :: values)

variable {bindings : Bindings} {inner : Tree → Walk Value}
  {value : Tree → Except EvalError Value}

/-- A name is resolved to its value, or to that of its expression one nesting deeper. -/
theorem returns_resolve {name : String} {enter : Tree → Except EvalError Value}
    (henter : ∀ tree, Returns (inner tree) { counters with nesting := counters.nesting + 1 }
      (enter tree)) :
    Returns (resolve bindings inner name) counters
      (Tree.nodeValue bindings value (fun name part =>
        if counters.nesting ≥ maxNesting then .error (.nestingTooDeep name maxNesting)
        else enter part) (.reference name)) := by
  simp only [resolve, Tree.nodeValue]
  rcases bindings.get? name with _ | bound
  · exact returns_throw _
  cases bound with
  | expression e =>
    apply returns_get_bind
    by_cases hdeep : counters.nesting ≥ maxNesting
    · rw [if_pos hdeep]
      simp only [if_pos hdeep]
      exact returns_throw _
    · rw [if_neg hdeep]
      simp only [if_neg hdeep]
      exact returns_nested (henter e.tree)
  | _ => exact returns_pure _

/-- A condition is the truth value of what its tree returns. -/
theorem returns_condition {op : BinaryOp} {tree : Tree}
    (h : Returns (inner tree) counters (value tree)) :
    Returns (condition inner op tree) counters (tree.truth value op) := by
  refine returns_bind h fun operand => ?_
  cases operand.toBoolean? with
  | none => exact returns_throw _
  | some b => exact returns_pure b

/-- A node keeps the counters if the trees below it do, and those of expressions that variables are
bound to do one nesting further in. -/
theorem returns_node {enter : Tree → Except EvalError Value}
    (hinner : ∀ tree, Returns (inner tree) counters (value tree))
    (henter : ∀ tree, Returns (inner tree) { counters with nesting := counters.nesting + 1 }
      (enter tree)) (tree : Tree) :
    Returns (node bindings inner tree) counters
      (tree.nodeValue bindings value fun name part =>
        if counters.nesting ≥ maxNesting then .error (.nestingTooDeep name maxNesting)
        else enter part) := by
  cases tree with
  | literal v => exact returns_pure v
  | reference name => exact returns_resolve henter
  | unary op operand => exact returns_bind (hinner operand) fun v => returns_ofExcept (op.apply v)
  | binary op left right =>
    cases op with
    | and =>
      refine returns_bind (returns_condition (hinner left)) fun decided => ?_
      cases decided with
      | false => exact returns_pure _
      | true =>
        exact returns_bind (returns_condition (hinner right)) fun b => returns_pure (Value.boolean b)
    | or =>
      refine returns_bind (returns_condition (hinner left)) fun decided => ?_
      cases decided with
      | false =>
        exact returns_bind (returns_condition (hinner right)) fun b => returns_pure (Value.boolean b)
      | true => exact returns_pure _
    | _ =>
      exact returns_bind (hinner left) fun a => returns_bind (hinner right) fun b =>
        returns_ofExcept _
  | call function arguments =>
    exact returns_bind (returns_mapM arguments hinner) fun values =>
      returns_ofExcept (function.call values)

/-- The counters come back from a descent as they were, whatever it ends with, and count for nothing
but the levels and the nesting that they leave. -/
theorem returns_descend {levels : Nat} (tree : Tree)
    (hlevels : counters.depth + levels ≤ maxEvaluationDepth) :
    Returns (descend bindings levels tree) counters
      (tree.within bindings levels counters.nesting) := by
  induction levels generalizing counters tree with
  | zero => exact returns_throw _
  | succ levels ih =>
    apply returns_get_bind
    rw [if_neg (by omega)]
    -- the depth goes up where the levels go down, so their sum stays within the limit
    exact returns_deeper (returns_node (fun part => ih part (by dsimp only; omega))
      (fun part => ih part (by dsimp only; omega)) tree)

end Walk

/-- An evaluation yields the value of its tree in all the levels there are, outside of every
expression. -/
theorem Tree.evaluate_eq_within (tree : Tree) (bindings : Bindings) :
    tree.evaluate bindings = tree.within bindings maxEvaluationDepth 0 := by
  have h : Walk.Returns (Walk.descend bindings maxEvaluationDepth tree) ⟨0, 0⟩
      (tree.within bindings maxEvaluationDepth 0) :=
    Walk.returns_descend tree (Nat.le_of_eq (Nat.zero_add maxEvaluationDepth))
  exact congrArg Prod.fst h

/-! ## One evaluator for several trees -/

namespace Evaluator

/-- The outcomes of trees that one evaluator is given one after the other, each with the evaluator
as it is left behind. -/
def evaluateAll (evaluator : Evaluator) : List Tree → List (Except EvalError Value × Evaluator)
  | [] => []
  | tree :: rest =>
    let (outcome, after) := evaluator.evaluate tree
    (outcome, after) :: after.evaluateAll rest

/-- Whatever its counters are, an evaluator is the same after an evaluation. -/
theorem evaluate_snd (evaluator : Evaluator) (tree : Tree) :
    (evaluator.evaluate tree).2 = evaluator := by
  obtain ⟨bindings, counters⟩ := evaluator
  have hreturns : Walk.Returns
      (Walk.descend bindings (maxEvaluationDepth - counters.depth) tree) counters
      (tree.within bindings (maxEvaluationDepth - counters.depth) counters.nesting) := by
    by_cases hdepth : counters.depth ≤ maxEvaluationDepth
    · exact Walk.returns_descend tree (Nat.le_of_eq (Nat.add_sub_of_le hdepth))
    · -- below the limit there are no levels left, and the walk ends where it starts
      rw [Nat.sub_eq_zero_of_le (Nat.le_of_not_le hdepth)]
      exact Walk.returns_throw _
  exact congrArg (fun run => Evaluator.mk bindings run.2) hreturns

/-- One evaluator does for any number of trees: after each of them, be the outcome a value or an
error, both counters are at zero again, and every outcome is that of an evaluator of its own. -/
theorem evaluateAll_ofBindings (bindings : Bindings) (trees : List Tree) :
    (ofBindings bindings).evaluateAll trees =
      trees.map fun tree => (tree.evaluate bindings, ⟨bindings, ⟨0, 0⟩⟩) := by
  induction trees with
  | nil => rfl
  | cons tree rest ih =>
    have hfirst : (ofBindings bindings).evaluate tree =
        (tree.evaluate bindings, ofBindings bindings) :=
      Prod.ext rfl ((ofBindings bindings).evaluate_snd tree)
    rw [evaluateAll, hfirst, List.map_cons, ← ih]
    rfl

end Evaluator

end Formula
