import Formula.Proofs.Evaluation.Outcome
import Mathlib.Data.Finset.Union

/-!
# Kinds of results

The kinds of the operands of an operator tell which kinds its result may have, and whether it
accepts them at all. `Kind.promoted` and `Kind.widened` are the two tables of numbers that meet, and
everything else is put together from them: `UnaryOp.kinds` and `BinaryOp.kinds` work on sets of
kinds, `accepts` on single ones.

`UnaryOp.meets_apply` and `BinaryOp.meets_apply` tie the tables to the operators. A result has a
kind of the table, and an error is about the kinds only where the operator does not accept them.
-/

namespace Formula

/-! ## Tables -/

namespace Kind

/-- The kinds of results where only integers change their kind; a decimal does not meet a double. -/
def promoted : Kind → Kind → Finset Kind
  | integer, integer => {integer}
  | integer, decimal | decimal, integer | decimal, decimal => {decimal}
  | integer, double | double, integer | double, double => {double}
  | _, _ => ∅

/-- The kinds of results where a double that meets a decimal becomes one, if one is near it. -/
def widened : Kind → Kind → Finset Kind
  | decimal, double | double, decimal => {decimal, double}
  | left, right => promoted left right

/-- The kinds of sums: a string if one side is a string, and otherwise a number. -/
def summed (left right : Kind) : Finset Kind :=
  if left = string ∨ right = string then {string} else widened left right

/-- The kinds of quotients. Two integers have a double. -/
def divided : Kind → Kind → Finset Kind
  | integer, integer => {double}
  | left, right => promoted left right

/-- Whether values of two kinds can be compared. -/
def comparable : Kind → Kind → Bool
  | string, string | boolean, boolean | dateTime, dateTime => true
  | left, right => left.isNumeric && right.isNumeric

/-- The kinds of results of which one operand is of a kind of `left` and the other of `right`. -/
def pairwise (results : Kind → Kind → Finset Kind) (left right : Finset Kind) : Finset Kind :=
  left.biUnion fun a => right.biUnion (results a)

/-- A kind that two operands may have together is one of the pairwise kinds. -/
theorem mem_pairwise {results : Kind → Kind → Finset Kind} {left right : Finset Kind}
    {a b kind : Kind} (ha : a ∈ left) (hb : b ∈ right) (h : kind ∈ results a b) :
    kind ∈ pairwise results left right :=
  Finset.mem_biUnion.mpr ⟨a, ha, Finset.mem_biUnion.mpr ⟨b, hb, h⟩⟩

/-- Sums and comparisons bring numbers to at least the kinds that products do. -/
theorem promoted_subset_widened (left right : Kind) :
    promoted left right ⊆ widened left right := by
  cases left <;> cases right <;> decide

/-- Numbers have a sum, and it is a number. -/
theorem summed_of_isNumeric {left right : Kind} (hleft : left.isNumeric = true)
    (hright : right.isNumeric = true) :
    summed left right ≠ ∅ ∧ ∀ kind ∈ summed left right, kind.isNumeric = true := by
  cases left <;> cases right <;> first | contradiction | decide

/-- Being comparable goes both ways. -/
theorem comparable_symm (left right : Kind) : left.comparable right = right.comparable left := by
  cases left <;> cases right <;> rfl

end Kind

namespace UnaryOp

/-- The kinds of results over an operand of one of the given kinds. -/
def kinds (op : UnaryOp) (operand : Finset Kind) : Finset Kind :=
  match op with
  | negate | plus => operand.filter fun kind => kind.isNumeric = true
  | not => {.boolean}

/-- Whether an operand of a kind is accepted. -/
def accepts (op : UnaryOp) (operand : Kind) : Bool :=
  match op with
  | negate | plus => operand.isNumeric
  | not => operand = .boolean

end UnaryOp

namespace BinaryOp

/-- The kinds of results over operands of one of the given kinds each. -/
def kinds (op : BinaryOp) (left right : Finset Kind) : Finset Kind :=
  match op with
  | add => Kind.pairwise Kind.summed left right
  | subtract | multiply | modulus => Kind.pairwise Kind.promoted left right
  | divide => Kind.pairwise Kind.divided left right
  | equal | notEqual | lessThan | greaterThan | lessEqual | greaterEqual | and | or => {.boolean}
  | bitAnd | bitOr | bitXor | shiftLeft | shiftRight => {.integer}

/-- Whether operands of two kinds are accepted together. -/
def accepts (op : BinaryOp) (left right : Kind) : Bool :=
  match op with
  | add => Kind.summed left right ≠ ∅
  | subtract | multiply | divide | modulus => Kind.promoted left right ≠ ∅
  | equal | notEqual | lessThan | greaterThan | lessEqual | greaterEqual => left.comparable right
  | and | or => left = .boolean ∧ right = .boolean
  | bitAnd | bitOr | bitXor | shiftLeft | shiftRight => left = .integer ∧ right = .integer

end BinaryOp

/-- The kind of the numbers in a pair. -/
def NumericPair.kind : NumericPair → Kind
  | integers _ _ => .integer
  | decimals _ _ => .decimal
  | doubles _ _ => .double

/-! ## Numbers that meet -/

namespace Value

variable {left right : Value} {pair : NumericPair} {accepted : Bool}

/-- Two numbers are brought to the kind that their kinds say. -/
theorem mem_promoted_of_promote? (h : promote? left right = some pair) :
    pair.kind ∈ Kind.promoted left.kind right.kind := by
  unfold promote? at h
  split at h <;> cases h <;> exact Finset.mem_singleton_self _

/-- Two values that are not both numbers are brought to no kind. -/
theorem promoted_eq_empty (h : promote? left right = none) :
    Kind.promoted left.kind right.kind = ∅ := by
  cases left <;> cases right <;> first | rfl | cases h

/-- A quotient is of the kind that the kinds of the operands say; that of integers is a double. -/
theorem mem_divided_of_promote? (h : promote? left right = some pair) :
    (if pair.kind = .integer then .double else pair.kind) ∈ Kind.divided left.kind right.kind := by
  unfold promote? at h
  split at h <;> cases h <;> exact Finset.mem_singleton_self _

/-- Two numbers are widened to one of the kinds that their kinds allow. -/
theorem mem_widened_of_widen? (h : widen? left right = some pair) :
    pair.kind ∈ Kind.widened left.kind right.kind := by
  unfold widen? at h
  split at h
  · rename_i d x
    cases h
    cases Decimal.ofDouble? x with
    | none => exact Finset.mem_insert_of_mem (Finset.mem_singleton_self _)
    | some _ => exact Finset.mem_insert_self _ _
  · rename_i x d
    cases h
    cases Decimal.ofDouble? x with
    | none => exact Finset.mem_insert_of_mem (Finset.mem_singleton_self _)
    | some _ => exact Finset.mem_insert_self _ _
  · -- what is left is promoted, and no pair of kinds is widened further
    exact Kind.promoted_subset_widened _ _ (mem_promoted_of_promote? h)

/-- Two values that are not both numbers are widened to no kind. -/
theorem widened_eq_empty (h : widen? left right = none) :
    Kind.widened left.kind right.kind = ∅ := by
  cases left <;> cases right <;> first | rfl | cases h

/-- Values that have no order are of kinds that cannot be compared. -/
theorem compare?_eq_none (h : compare? left right = none) :
    left.kind.comparable right.kind = false := by
  cases left <;> cases right <;> first | rfl | cases h

/-! ## Results of operators -/

/-- A result that may overflow is of its kind or an error about the operands. -/
theorem meets_orOverflow {α : Type} {operator : String} {make : α → Value} {kind : Kind}
    {kinds : Finset Kind} (result : Option α) (hmem : kind ∈ kinds)
    (hmake : ∀ a, (make a).kind = kind) :
    Meets (·.kind ∈ kinds) (·.OfOperation accepted) (orOverflow operator make result) := by
  cases result with
  | none => exact .inl rfl
  | some a =>
    show (make a).kind ∈ kinds
    rw [hmake a]
    exact hmem

/-- An operation may refuse kinds that it does not accept. -/
theorem meets_mismatch {values : Value → Prop} {op : BinaryOp} (h : accepted = false) :
    Meets values (·.OfOperation accepted) (.error (mismatch op left right)) :=
  .inr ⟨rfl, h⟩

/-- It may refuse to divide by zero. -/
theorem meets_unlessZero {zero : Prop} [Decidable zero] {values : Value → Prop}
    {result : Except EvalError Value} (h : Meets values (·.OfOperation accepted) result) :
    Meets values (·.OfOperation accepted) (if zero then .error .divisionByZero else result) := by
  split
  · exact .inl rfl
  · exact h

/-- An operation that has no kind of result accepts nothing. -/
theorem decide_ne_empty {kinds : Finset Kind} (h : kinds = ∅) : decide (kinds ≠ ∅) = false :=
  decide_eq_false (not_not.mpr h)

/-- A sum is of one of the kinds of sums. -/
theorem meets_add (left right : Value) :
    Meets (·.kind ∈ Kind.summed left.kind right.kind)
      (·.OfOperation (Kind.summed left.kind right.kind ≠ ∅)) (left.add right) := by
  unfold add isString
  by_cases hstring : left.kind = .string ∨ right.kind = .string
  · have htext : (decide (left.kind = .string) || decide (right.kind = .string)) = true := by
      simpa using hstring
    rw [if_pos htext, Kind.summed, if_pos hstring]
    exact Finset.mem_singleton_self _
  · have hnumber : ¬ (decide (left.kind = .string) || decide (right.kind = .string)) = true := by
      simpa using hstring
    rw [if_neg hnumber, Kind.summed, if_neg hstring]
    cases h : widen? left right with
    | none => exact meets_mismatch (decide_ne_empty (widened_eq_empty h))
    | some pair =>
      have hkind := mem_widened_of_widen? h
      cases pair with
      | integers a b => exact meets_orOverflow _ hkind fun _ => rfl
      | decimals a b => exact meets_orOverflow _ hkind fun _ => rfl
      | doubles a b => exact hkind

/-- Whether a result is one of an operation that brings two numbers to one kind and keeps it. -/
def OfPromoted (left right : Value) (result : Except EvalError Value) : Prop :=
  Meets (·.kind ∈ Kind.promoted left.kind right.kind)
    (·.OfOperation (Kind.promoted left.kind right.kind ≠ ∅)) result

/-- An operation keeps the kind that its operands are brought to if it does so for each kind. -/
theorem ofPromoted_promote? {op : BinaryOp} {integers : Int64 → Int64 → Except EvalError Value}
    {decimals : Decimal → Decimal → Except EvalError Value}
    {doubles : Double → Double → Except EvalError Value}
    (hintegers : ∀ a b, .integer ∈ Kind.promoted left.kind right.kind →
      OfPromoted left right (integers a b))
    (hdecimals : ∀ a b, .decimal ∈ Kind.promoted left.kind right.kind →
      OfPromoted left right (decimals a b))
    (hdoubles : ∀ a b, .double ∈ Kind.promoted left.kind right.kind →
      OfPromoted left right (doubles a b)) :
    OfPromoted left right
      (match promote? left right with
      | some (.integers a b) => integers a b
      | some (.decimals a b) => decimals a b
      | some (.doubles a b) => doubles a b
      | none => .error (mismatch op left right)) := by
  cases h : promote? left right with
  | none => exact meets_mismatch (decide_ne_empty (promoted_eq_empty h))
  | some pair =>
    have hkind := mem_promoted_of_promote? h
    cases pair with
    | integers a b => exact hintegers a b hkind
    | decimals a b => exact hdecimals a b hkind
    | doubles a b => exact hdoubles a b hkind

/-- A difference is of the kind that the operands are brought to. -/
theorem ofPromoted_subtract (left right : Value) : OfPromoted left right (left.subtract right) :=
  ofPromoted_promote? (fun _ _ h => meets_orOverflow _ h fun _ => rfl)
    (fun _ _ h => meets_orOverflow _ h fun _ => rfl) fun _ _ h => h

/-- So is a product. -/
theorem ofPromoted_multiply (left right : Value) : OfPromoted left right (left.multiply right) :=
  ofPromoted_promote? (fun _ _ h => meets_orOverflow _ h fun _ => rfl)
    (fun _ _ h => meets_orOverflow _ h fun _ => rfl) fun _ _ h => h

/-- So is a remainder. -/
theorem ofPromoted_modulus (left right : Value) : OfPromoted left right (left.modulus right) :=
  ofPromoted_promote? (fun _ _ h => meets_unlessZero (meets_orOverflow _ h fun _ => rfl))
    (fun _ _ h => meets_unlessZero (meets_orOverflow _ h fun _ => rfl)) fun _ _ h => h

/-- A quotient is of that kind too, except that it is a double for integers. -/
theorem meets_divide (left right : Value) :
    Meets (·.kind ∈ Kind.divided left.kind right.kind)
      (·.OfOperation (Kind.promoted left.kind right.kind ≠ ∅)) (left.divide right) := by
  unfold divide
  cases h : promote? left right with
  | none => exact meets_mismatch (decide_ne_empty (promoted_eq_empty h))
  | some pair =>
    have hkind := mem_divided_of_promote? h
    cases pair with
    | integers a b => exact hkind
    | decimals a b => exact meets_unlessZero (meets_orOverflow _ hkind fun _ => rfl)
    | doubles a b => exact hkind

/-- Values that cannot be compared are refused for their kinds. -/
theorem meets_compare (op : BinaryOp) (left right : Value) :
    Meets (fun _ => True) (·.OfOperation (left.kind.comparable right.kind))
      (compare op left right) := by
  unfold compare
  cases h : compare? left right with
  | none => exact .inr ⟨rfl, compare?_eq_none h⟩
  | some ordering => exact trivial

/-- The result of a comparison is a truth value. -/
theorem meets_relate (op : BinaryOp) (left right : Value) :
    Meets (·.kind ∈ ({.boolean} : Finset Kind))
      (·.OfOperation (left.kind.comparable right.kind)) (relate op left right) :=
  (meets_compare op left right).map fun _ _ => Finset.mem_singleton_self _

/-- An operation on bits is one on integers. -/
theorem meets_onBits (op : BinaryOp) (f : Int64 → Int64 → Option Int64) (left right : Value) :
    Meets (·.kind ∈ ({.integer} : Finset Kind))
      (·.OfOperation (left.kind = .integer ∧ right.kind = .integer)) (onBits op f left right) := by
  cases left with
  | integer a =>
    cases right with
    | integer b => exact meets_orOverflow _ (Finset.mem_singleton_self _) fun _ => rfl
    | _ => exact meets_mismatch rfl
  | _ => exact meets_mismatch (by simp [kind])

/-- A logical operation is one on truth values. -/
theorem meets_onTruth (op : BinaryOp) (f : Bool → Bool → Bool) (left right : Value) :
    Meets (·.kind ∈ ({.boolean} : Finset Kind))
      (·.OfOperation (left.kind = .boolean ∧ right.kind = .boolean)) (onTruth op f left right) := by
  cases left with
  | boolean a =>
    cases right with
    | boolean b => exact Finset.mem_singleton_self _
    | _ => exact meets_mismatch rfl
  | _ => exact meets_mismatch (by simp [kind])

end Value

/-! ## Operators -/

/-- The result of a unary operator has a kind of its table. -/
theorem UnaryOp.meets_apply (op : UnaryOp) {operand : Value} {kinds : Finset Kind}
    (h : operand.kind ∈ kinds) :
    Meets (·.kind ∈ op.kinds kinds) (·.OfOperation (op.accepts operand.kind))
      (op.apply operand) := by
  have hrefused : ∀ {accepted : Bool}, accepted = false →
      Meets (fun v : Value => v.kind ∈ op.kinds kinds) (·.OfOperation accepted)
        (.error (.invalidOperand op.symbol operand.kind)) := fun h => .inr ⟨rfl, h⟩
  cases op with
  | negate =>
    cases operand with
    | integer n =>
      exact Value.meets_orOverflow _ (Finset.mem_filter.mpr ⟨h, rfl⟩) fun _ => rfl
    | decimal d => exact Finset.mem_filter.mpr ⟨h, rfl⟩
    | double x => exact Finset.mem_filter.mpr ⟨h, rfl⟩
    | _ => exact hrefused rfl
  | plus =>
    cases operand with
    | integer n => exact Finset.mem_filter.mpr ⟨h, rfl⟩
    | decimal d => exact Finset.mem_filter.mpr ⟨h, rfl⟩
    | double x => exact Finset.mem_filter.mpr ⟨h, rfl⟩
    | _ => exact hrefused rfl
  | not =>
    cases operand with
    | boolean b => exact Finset.mem_singleton_self _
    | _ => exact hrefused rfl

/-- The result of a binary operator has a kind of its table. -/
theorem BinaryOp.meets_apply (op : BinaryOp) {left right : Value} {first second : Finset Kind}
    (hleft : left.kind ∈ first) (hright : right.kind ∈ second) :
    Meets (·.kind ∈ op.kinds first second) (·.OfOperation (op.accepts left.kind right.kind))
      (op.apply left right) := by
  have hpairwise : ∀ {results : Kind → Kind → Finset Kind} {kind : Kind},
      kind ∈ results left.kind right.kind → kind ∈ Kind.pairwise results first second :=
    fun h => Kind.mem_pairwise hleft hright h
  cases op with
  | add => exact (Value.meets_add left right).mono (fun _ => hpairwise) fun _ => id
  | subtract => exact (Value.ofPromoted_subtract left right).mono (fun _ => hpairwise) fun _ => id
  | multiply => exact (Value.ofPromoted_multiply left right).mono (fun _ => hpairwise) fun _ => id
  | modulus => exact (Value.ofPromoted_modulus left right).mono (fun _ => hpairwise) fun _ => id
  | divide => exact (Value.meets_divide left right).mono (fun _ => hpairwise) fun _ => id
  | and | or => exact Value.meets_onTruth _ _ left right
  | bitAnd | bitOr | bitXor | shiftLeft | shiftRight => exact Value.meets_onBits _ _ left right
  | _ => exact Value.meets_relate _ left right

end Formula
