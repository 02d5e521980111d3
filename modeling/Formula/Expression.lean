import Formula.Evaluation
import Formula.Token.Lexer
import Formula.Tree.Parser

/-!
# Formulas from source to value

The whole way of a formula: its source is split into tokens, the tokens form a tree, and the tree is
evaluated. A lexical error anywhere in the source comes before any error in the order of the tokens.
-/

namespace Formula

/-- The ways in which a formula fails. -/
inductive ExpressionError where
  | lexical (e : LexError)
  | parsing (e : ParseError)
  | evaluation (e : EvalError)

/-- The message of an error. -/
def ExpressionError.message : ExpressionError → String
  | lexical e => e.message
  | parsing e => e.message
  | evaluation e => e.message

/-- The tree of a source. -/
def Tree.ofSource (source : String) : Except ExpressionError Tree := do
  let tokens ← (tokenize source).mapError .lexical
  (Tree.ofTokens tokens).mapError .parsing

namespace Expression

/-- The expression with a given source, under the serial number `serial`. -/
def ofSource (source : String) (serial : Nat) : Except ExpressionError Expression :=
  (Tree.ofSource source).map fun tree => .mk source tree serial

/-- The value of an expression against variables. -/
def evaluate (e : Expression) (bindings : Bindings) : Except ExpressionError Value :=
  (e.tree.evaluate bindings).mapError .evaluation

end Expression

/-- What a background evaluation hands out: one result to each call of the callback, and one to
whoever waits for it. -/
structure BackgroundRun where
  callbacks : List (Except ExpressionError Value)
  joined : Except ExpressionError Value

/-- An evaluation in the background: the callback is called once, with the result that is returned
to whoever waits. -/
def Expression.evaluateInBackground (e : Expression) (bindings : Bindings) : BackgroundRun :=
  let result := e.evaluate bindings
  ⟨[result], result⟩

end Formula
