import Formula.Main
import Formula.Proofs.Bindings.Order
import Formula.Proofs.Command.Binding
import Formula.Proofs.Command.Evaluation
import Formula.Proofs.Evaluation.Cycle
import Formula.Proofs.Evaluation.Integers
import Formula.Proofs.Evaluation.Logic
import Formula.Proofs.Evaluation.Order
import Formula.Proofs.Evaluation.Remainder
import Formula.Proofs.Evaluation.Transitivity
import Formula.Proofs.Evaluation.Typing
import Formula.Proofs.Evaluation.Unfolding
import Formula.Proofs.Expression.Inlining
import Formula.Proofs.Expression.Places
import Formula.Proofs.Expression.WellFormed
import Formula.Proofs.Function.Aggregates
import Formula.Proofs.Function.Extremes
import Formula.Proofs.Function.Strings
import Formula.Proofs.Json.Rounding
import Formula.Proofs.Token.Calls
import Formula.Proofs.Tree.Fixity
import Formula.Proofs.Tree.Machine
import Formula.Proofs.Tree.Spelling
import Formula.Proofs.Value.Json
