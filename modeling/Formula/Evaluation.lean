import Formula.Bindings
import Formula.Function.Call

/-!
# Evaluation

An evaluation walks down a tree with two counters: how deep it is in the tree, nested expressions
included, and how many variables that stand for expressions it is inside of. Both are limited, and
both are counted up around a part of the walk and set back to what they were behind it, whether that
part yields a value or fails. Nothing else is remembered, so an `Evaluator` can be used again.

`node` evaluates one node of a tree, given the evaluation of trees one level further down;
`descend` bounds the recursion by a number of levels, of which `maxEvaluationDepth` are enough.
-/

namespace Formula

/-- How deep variables bound to expressions may lead into each other. -/
def maxNesting : Nat := 64

/-- How many levels of trees an evaluation may descend, nested expressions included. -/
def maxEvaluationDepth : Nat := 512

/-- The counters of an evaluation. -/
structure Counters where
  depth : Nat
  nesting : Nat
  deriving DecidableEq

/-- A step of an evaluation: it yields a value or fails, and leaves the counters in either case. -/
abbrev Walk := ExceptT EvalError (StateM Counters)

namespace Walk

/-- The walk that yields a result or fails. -/
def ofExcept {α : Type} (result : Except EvalError α) : Walk α := ExceptT.mk (pure result)

/-- Runs a part of the walk one level deeper, and sets the depth back behind it. -/
def deeper {α : Type} (body : Walk α) : Walk α :=
  ExceptT.mk fun counters =>
    let (result, after) := body.run { counters with depth := counters.depth + 1 }
    (result, { after with depth := counters.depth })

/-- Runs a part of the walk inside one more expression, and sets the nesting back behind it. -/
def nested {α : Type} (body : Walk α) : Walk α :=
  ExceptT.mk fun counters =>
    let (result, after) := body.run { counters with nesting := counters.nesting + 1 }
    (result, { after with nesting := counters.nesting })

/-- The value of a variable. An expression bound to it is evaluated anew. -/
def resolve (bindings : Bindings) (inner : Tree → Walk Value) (name : String) : Walk Value := do
  match bindings.get? name with
  | none => throw (.unresolvedVariable name)
  | some (.expression e) =>
    if (← get).nesting ≥ maxNesting then throw (.nestingTooDeep name maxNesting)
    else nested (inner e.tree)
  | some value => return value

/-- The truth value of an operand of a logical operator. -/
def condition (inner : Tree → Walk Value) (op : BinaryOp) (tree : Tree) : Walk Bool := do
  let value ← inner tree
  match value.toBoolean? with
  | some b => return b
  | none => throw (.invalidOperand op.symbol value.kind)

/-- The value of one node, given the values of trees below it. The right operand of a logical
operator is left alone if the left one decides. -/
def node (bindings : Bindings) (inner : Tree → Walk Value) : Tree → Walk Value
  | .literal value => return value
  | .reference name => resolve bindings inner name
  | .unary op operand => do ofExcept (op.apply (← inner operand))
  | .binary .and left right => do
    if ← condition inner .and left then return .boolean (← condition inner .and right)
    else return .boolean false
  | .binary .or left right => do
    if ← condition inner .or left then return .boolean true
    else return .boolean (← condition inner .or right)
  | .binary op left right => do
    let left ← inner left
    let right ← inner right
    ofExcept (op.apply left right)
  | .call function arguments => do ofExcept (function.call (← arguments.mapM inner))

/-- The value of a tree, in at most the given number of levels. -/
def descend (bindings : Bindings) : (levels : Nat) → Tree → Walk Value
  | 0, _ => throw (.tooDeep maxEvaluationDepth)
  | levels + 1, tree => do
    if (← get).depth ≥ maxEvaluationDepth then throw (.tooDeep maxEvaluationDepth)
    else deeper (node bindings (descend bindings levels) tree)

end Walk

/-- The variables that trees are evaluated against, and the counters of the evaluation. -/
structure Evaluator where
  bindings : Bindings
  counters : Counters

namespace Evaluator

/-- An evaluator at the start of an evaluation. -/
def ofBindings (bindings : Bindings) : Evaluator := ⟨bindings, ⟨0, 0⟩⟩

/-- The value of a tree, and the evaluator afterwards. -/
def evaluate (evaluator : Evaluator) (tree : Tree) : Except EvalError Value × Evaluator :=
  let levels := maxEvaluationDepth - evaluator.counters.depth
  let (result, counters) := (Walk.descend evaluator.bindings levels tree).run evaluator.counters
  (result, { evaluator with counters })

end Evaluator

/-- The value of a tree against variables. -/
def Tree.evaluate (tree : Tree) (bindings : Bindings) : Except EvalError Value :=
  ((Evaluator.ofBindings bindings).evaluate tree).1

end Formula
