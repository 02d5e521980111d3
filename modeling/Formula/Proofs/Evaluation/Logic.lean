import Formula.Proofs.Evaluation.Limits

/-!
# Laws of the logical operators

The logical operators leave their right operand alone if the left one decides, and either operand may
fail or be no truth value. Still they obey the laws of truth values, errors included. The laws are
those of `Decision`, a truth value that may fail to be there. An operand becomes one where an operator
asks for its truth value, and a decision becomes an outcome again by `Decision.outcome`.

Two things keep the laws from being equations between trees. An error about an operand names the
operator that asked, so most laws hold for outcomes that are `unnamed`. And an operand may come to lie
at another depth, where a limit is reached or is not, so that two outcomes only `Coincide`.
-/

namespace Formula

/-- A truth value that an evaluation may fail to yield. -/
abbrev Decision := Except EvalError Bool

/-! ## Decisions -/

namespace Decision

/-- Whether both hold, where the second is not looked at if the first does not hold. -/
def both (p q : Decision) : Decision := do if ← p then q else return false

/-- Whether one of two holds, where the second is not looked at if the first holds. -/
def either (p q : Decision) : Decision := do if ← p then return true else q

/-- Whether a decision does not hold. -/
def negated (p : Decision) : Decision := p.map (!·)

variable (p q r : Decision)

/-- Conjunctions of decisions may be grouped either way, with all their errors. -/
theorem both_assoc : both (both p q) r = both p (both q r) := by
  cases p with
  | error e => rfl
  | ok b => cases b <;> rfl

/-- So may disjunctions. -/
theorem either_assoc : either (either p q) r = either p (either q r) := by
  cases p with
  | error e => rfl
  | ok b => cases b <;> rfl

/-- A conjunction is negated by the disjunction of the negated decisions. -/
theorem negated_both : negated (both p q) = either (negated p) (negated q) := by
  cases p with
  | error e => rfl
  | ok b => cases b <;> rfl

/-- A disjunction is negated by the conjunction of the negated decisions. -/
theorem negated_either : negated (either p q) = both (negated p) (negated q) := by
  cases p with
  | error e => rfl
  | ok b => cases b <;> rfl

/-- The first decision is made twice on the right, and made the same way. -/
theorem both_either : both p (either q r) = either (both p q) (both p r) := by
  cases p with
  | error e => rfl
  | ok b => cases b <;> rfl

/-- The decision as a value. -/
def outcome (p : Decision) : Except EvalError Value := p.map .boolean

end Decision

/-! ## Operands -/

/-- The truth value of an operand, as an operator asks for it. -/
def Decision.ofOperand (operator : String) (operand : Except EvalError Value) : Decision := do
  let value ← operand
  match value.toBoolean? with
  | some b => return b
  | none => throw (.invalidOperand operator value.kind)

/-- The error without the operator that it names, if it is about one operand. -/
def EvalError.unnamed : EvalError → EvalError
  | invalidOperand _ kind => invalidOperand "" kind
  | e => e

/-- The result without the operator that an error about one operand names. -/
def unnamed {α : Type} (result : Except EvalError α) : Except EvalError α :=
  result.mapError EvalError.unnamed

/-- The names in errors do not matter to a conjunction. -/
theorem unnamed_both (p q : Decision) :
    unnamed (p.both q) = Decision.both (unnamed p) (unnamed q) := by
  cases p with
  | error e => rfl
  | ok b => cases b <;> rfl

/-- Nor do they to a disjunction. -/
theorem unnamed_either (p q : Decision) :
    unnamed (p.either q) = Decision.either (unnamed p) (unnamed q) := by
  cases p with
  | error e => rfl
  | ok b => cases b <;> rfl

/-- Nor to a negation. -/
theorem unnamed_negated (p : Decision) : unnamed p.negated = Decision.negated (unnamed p) := by
  cases p <;> rfl

/-- Nor to the value of a decision. -/
theorem unnamed_outcome (p : Decision) : unnamed p.outcome = Decision.outcome (unnamed p) := by
  cases p <;> rfl

/-- A decision that is asked for as an operand is itself. -/
theorem Decision.ofOperand_outcome (operator : String) (p : Decision) :
    ofOperand operator p.outcome = p := by
  cases p <;> rfl

/-- Without the name, it does not matter which operator asks. -/
theorem unnamed_ofOperand (operator operator' : String) (operand : Except EvalError Value) :
    unnamed (Decision.ofOperand operator operand) =
      unnamed (Decision.ofOperand operator' operand) := by
  cases operand with
  | error e => rfl
  | ok value => cases value <;> rfl

/-! ## Outcomes that coincide -/

/-- Whether two results are the same unless one of them is an error about a limit. -/
def Coincide {α : Type} (result other : Except EvalError α) : Prop :=
  Settled result → Settled other → result = other

section

variable {α β : Type} {result other : Except EvalError α}

/-- A result coincides with itself. -/
theorem Coincide.refl (result : Except EvalError α) : Coincide result result := fun _ _ => rfl

/-- Steps coincide if the first ones do and so do those that go on from the same value. -/
theorem Coincide.bind {next next' : α → Except EvalError β} (h : Coincide result other)
    (hnext : ∀ a, Coincide (next a) (next' a)) :
    Coincide (result >>= next) (other >>= next') := by
  intro hsettled hsettled'
  -- an error of a step is one of the whole, so neither step ends at a limit
  have hresult : Settled result := fun e he => hsettled e (by rw [he]; rfl)
  have hother : Settled other := fun e he => hsettled' e (by rw [he]; rfl)
  have heq := h hresult hother
  subst heq
  cases result with
  | error e => rfl
  | ok a => exact hnext a hsettled hsettled'

/-- Results that coincide do so without names as well. -/
theorem Coincide.unnamed (h : Coincide result other) :
    Coincide (unnamed result) (unnamed other) := by
  have hlimit (e : EvalError) : e.unnamed.isLimit = e.isLimit := by cases e <;> rfl
  intro hsettled hsettled'
  have hresult : Settled result := fun e he => (hlimit e).symm.trans (hsettled _ (by rw [he]; rfl))
  have hother : Settled other := fun e he => (hlimit e).symm.trans (hsettled' _ (by rw [he]; rfl))
  rw [h hresult hother]

/-- Operands that coincide are the same decision up to limits. -/
theorem Coincide.ofOperand {operand operand' : Except EvalError Value}
    (h : Coincide operand operand') (operator : String) :
    Coincide (Decision.ofOperand operator operand) (Decision.ofOperand operator operand') :=
  h.bind fun _ => .refl _

/-- Conjunctions coincide if their sides do. -/
theorem Coincide.both {p q p' q' : Decision} (hp : Coincide p p') (hq : Coincide q q') :
    Coincide (p.both q) (p'.both q') := by
  apply hp.bind
  intro b
  cases b with
  | false => exact .refl _
  | true => exact hq

/-- Disjunctions coincide if their sides do. -/
theorem Coincide.either {p q p' q' : Decision} (hp : Coincide p p') (hq : Coincide q q') :
    Coincide (p.either q) (p'.either q') := by
  apply hp.bind
  intro b
  cases b with
  | false => exact hq
  | true => exact .refl _

/-- Decisions that coincide have values that do. -/
theorem Coincide.outcome {p p' : Decision} (h : Coincide p p') :
    Coincide p.outcome p'.outcome :=
  h.bind fun _ => .refl _

end

variable {bindings : Bindings}

/-- A tree has the same outcome at any two depths, but for the limits. -/
theorem coincide_within (tree : Tree) (levels levels' nesting : Nat) :
    Coincide (tree.within bindings levels nesting) (tree.within bindings levels' nesting) := by
  intro hsettled hsettled'
  rcases Nat.le_total levels levels' with hle | hle
  · exact (tree.within_mono hle (Nat.le_refl nesting) hsettled).symm
  · exact tree.within_mono hle (Nat.le_refl nesting) hsettled'

/-! ## Trees -/

/-- The truth value of a tree in a number of levels, as an operator asks for it. -/
def Tree.decision (bindings : Bindings) (levels nesting : Nat) (operator : String) (tree : Tree) :
    Decision :=
  Decision.ofOperand operator (tree.within bindings levels nesting)

section

variable {levels nesting : Nat}

/-- More levels only matter to a decision that meets a limit. -/
theorem coincide_decision (tree : Tree) (levels levels' nesting : Nat) (operator : String) :
    Coincide (tree.decision bindings levels nesting operator)
      (tree.decision bindings levels' nesting operator) :=
  (coincide_within tree levels levels' nesting).ofOperand operator

/-- It does not matter to a decision which operator asks for it, except for the name in its error.
-/
theorem unnamed_decision (tree : Tree) (operator operator' : String) :
    unnamed (tree.decision bindings levels nesting operator) =
      unnamed (tree.decision bindings levels nesting operator') :=
  unnamed_ofOperand operator operator' _

/-- A conjunction is evaluated by deciding both sides. -/
theorem within_and (left right : Tree) :
    (Tree.binary .and left right).within bindings (levels + 1) nesting =
      ((left.decision bindings levels nesting "&&").both
        (right.decision bindings levels nesting "&&")).outcome := by
  show (do
    if ← left.decision bindings levels nesting "&&" then
      return Value.boolean (← right.decision bindings levels nesting "&&")
    else return Value.boolean false) = _
  cases left.decision bindings levels nesting "&&" with
  | error e => rfl
  | ok b =>
    cases b with
    | false => rfl
    | true => cases right.decision bindings levels nesting "&&" <;> rfl

/-- A disjunction is evaluated by deciding either side. -/
theorem within_or (left right : Tree) :
    (Tree.binary .or left right).within bindings (levels + 1) nesting =
      ((left.decision bindings levels nesting "||").either
        (right.decision bindings levels nesting "||")).outcome := by
  show (do
    if ← left.decision bindings levels nesting "||" then return Value.boolean true
    else return Value.boolean (← right.decision bindings levels nesting "||")) = _
  cases left.decision bindings levels nesting "||" with
  | error e => rfl
  | ok b =>
    cases b with
    | false => cases right.decision bindings levels nesting "||" <;> rfl
    | true => rfl

/-- A negation is evaluated by deciding its operand. -/
theorem within_not (operand : Tree) :
    (Tree.unary .not operand).within bindings (levels + 1) nesting =
      (operand.decision bindings levels nesting "!").negated.outcome := by
  show (operand.within bindings levels nesting >>= UnaryOp.not.apply) = _
  unfold Tree.decision
  cases operand.within bindings levels nesting with
  | error e => rfl
  | ok value => cases value <;> rfl

/-- A conjunction is decided by what its sides are. -/
theorem decision_and (left right : Tree) (operator : String) :
    (Tree.binary .and left right).decision bindings (levels + 1) nesting operator =
      (left.decision bindings levels nesting "&&").both
        (right.decision bindings levels nesting "&&") := by
  rw [Tree.decision, within_and, Decision.ofOperand_outcome]

/-- A disjunction is decided by what its sides are. -/
theorem decision_or (left right : Tree) (operator : String) :
    (Tree.binary .or left right).decision bindings (levels + 1) nesting operator =
      (left.decision bindings levels nesting "||").either
        (right.decision bindings levels nesting "||") := by
  rw [Tree.decision, within_or, Decision.ofOperand_outcome]

/-- A negation is decided by what its operand is. -/
theorem decision_not (operand : Tree) (operator : String) :
    (Tree.unary .not operand).decision bindings (levels + 1) nesting operator =
      (operand.decision bindings levels nesting "!").negated := by
  rw [Tree.decision, within_not, Decision.ofOperand_outcome]

variable (a b c : Tree)

/-- Conjunctions may be grouped either way, up to limits. -/
theorem coincide_and_assoc :
    Coincide ((Tree.binary .and (.binary .and a b) c).within bindings (levels + 2) nesting)
      ((Tree.binary .and a (.binary .and b c)).within bindings (levels + 2) nesting) := by
  rw [within_and, within_and, decision_and, decision_and, Decision.both_assoc]
  exact ((coincide_decision a _ _ _ _).both
    ((Coincide.refl _).both (coincide_decision c _ _ _ _))).outcome

/-- So may disjunctions. -/
theorem coincide_or_assoc :
    Coincide ((Tree.binary .or (.binary .or a b) c).within bindings (levels + 2) nesting)
      ((Tree.binary .or a (.binary .or b c)).within bindings (levels + 2) nesting) := by
  rw [within_or, within_or, decision_or, decision_or, Decision.either_assoc]
  exact ((coincide_decision a _ _ _ _).either
    ((Coincide.refl _).either (coincide_decision c _ _ _ _))).outcome

/-- A negated conjunction is the disjunction of the negations, except for the names in errors. -/
theorem unnamed_not_and :
    unnamed ((Tree.unary .not (.binary .and a b)).within bindings (levels + 2) nesting) =
      unnamed ((Tree.binary .or (.unary .not a) (.unary .not b)).within bindings (levels + 2)
        nesting) := by
  rw [within_not, within_or, decision_and, decision_not, decision_not, Decision.negated_both]
  simp only [unnamed_outcome, unnamed_either, unnamed_negated]
  rw [unnamed_decision a "&&" "!", unnamed_decision b "&&" "!"]

/-- A negated disjunction is the conjunction of the negations, except for the names in errors. -/
theorem unnamed_not_or :
    unnamed ((Tree.unary .not (.binary .or a b)).within bindings (levels + 2) nesting) =
      unnamed ((Tree.binary .and (.unary .not a) (.unary .not b)).within bindings (levels + 2)
        nesting) := by
  rw [within_not, within_and, decision_or, decision_not, decision_not, Decision.negated_either]
  simp only [unnamed_outcome, unnamed_both, unnamed_negated]
  rw [unnamed_decision a "||" "!", unnamed_decision b "||" "!"]

/-- The first operand is evaluated twice on the right, and one level further down. -/
theorem coincide_and_or :
    Coincide (unnamed ((Tree.binary .and a (.binary .or b c)).within bindings (levels + 2) nesting))
      (unnamed ((Tree.binary .or (.binary .and a b) (.binary .and a c)).within bindings (levels + 2)
        nesting)) := by
  rw [within_and, within_or, decision_or, decision_and, decision_and]
  simp only [unnamed_outcome, unnamed_both, unnamed_either]
  rw [← Decision.both_either, unnamed_decision b "||" "&&", unnamed_decision c "||" "&&"]
  exact ((coincide_decision a _ _ _ _).unnamed.both (Coincide.refl _)).outcome

end

/-- The logical operators obey the laws of truth values, errors included. Unless a limit of the
evaluation is reached, `and` and `or` may be regrouped, and `and` may be distributed over `or` up to
the operator that an error about an operand names. Up to that, a negation may be moved to the operands
whatever happens. -/
theorem evaluate_logical (a b c : Tree) (bindings : Bindings) :
    Coincide ((Tree.binary .and (.binary .and a b) c).evaluate bindings)
      ((Tree.binary .and a (.binary .and b c)).evaluate bindings) ∧
    Coincide ((Tree.binary .or (.binary .or a b) c).evaluate bindings)
      ((Tree.binary .or a (.binary .or b c)).evaluate bindings) ∧
    unnamed ((Tree.unary .not (.binary .and a b)).evaluate bindings) =
      unnamed ((Tree.binary .or (.unary .not a) (.unary .not b)).evaluate bindings) ∧
    unnamed ((Tree.unary .not (.binary .or a b)).evaluate bindings) =
      unnamed ((Tree.binary .and (.unary .not a) (.unary .not b)).evaluate bindings) ∧
    Coincide (unnamed ((Tree.binary .and a (.binary .or b c)).evaluate bindings))
      (unnamed ((Tree.binary .or (.binary .and a b) (.binary .and a c)).evaluate bindings)) := by
  simp only [Tree.evaluate_eq_within]
  exact ⟨@coincide_and_assoc bindings 510 0 a b c, @coincide_or_assoc bindings 510 0 a b c,
    @unnamed_not_and bindings 510 0 a b, @unnamed_not_or bindings 510 0 a b,
    @coincide_and_or bindings 510 0 a b c⟩

end Formula
