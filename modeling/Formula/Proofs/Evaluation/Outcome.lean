import Formula.Proofs.Evaluation.Limits
import Mathlib.Data.List.Forall2

/-!
# Outcomes of evaluations

`Meets values errors result` says of a result that its value has one property if it is a value, and
that its error has another if it is an error. Such a statement goes through the steps of an
evaluation: a step is followed by what is done with each value that it may have, and an error of it
is an error of the whole. So an invariant of evaluations need only be checked at the nodes, and
there is one rule for each kind of node.

An error has a `Cause`, which is all that the invariants look at: a name, the kinds of operands, the
operands themselves, a number of arguments, or a limit.
-/

namespace Formula

/-- Whether a result is a value with one property or an error with another. -/
def Meets {α : Type} (values : α → Prop) (errors : EvalError → Prop) : Except EvalError α → Prop
  | .ok a => values a
  | .error e => errors e

section Steps

variable {α β : Type} {values : α → Prop} {errors errors' : EvalError → Prop}
  {result : Except EvalError α}

/-- A result that meets conditions meets weaker ones. -/
theorem Meets.mono {values' : α → Prop} (h : Meets values errors result)
    (hvalues : ∀ a, values a → values' a) (herrors : ∀ e, errors e → errors' e) :
    Meets values' errors' result := by
  cases result with
  | ok a => exact hvalues a h
  | error e => exact herrors e h

/-- A step that goes on from values as allowed meets what the next one does. -/
theorem Meets.bind {values' : β → Prop} {next : α → Except EvalError β}
    (h : Meets values errors result) (hnext : ∀ a, values a → Meets values' errors (next a)) :
    Meets values' errors (result >>= next) := by
  cases result with
  | ok a => exact hnext a h
  | error e => exact h

/-- A value that is changed meets what the change makes of it. -/
theorem Meets.map {values' : β → Prop} {f : α → β} (h : Meets values errors result)
    (hf : ∀ a, values a → values' (f a)) : Meets values' errors (result.map f) := by
  cases result with
  | ok a => exact hf a h
  | error e => exact h

/-- The values of several parts meet what the values of each part do, in order. -/
theorem Meets.mapM {property : α → β → Prop} {step : α → Except EvalError β} (parts : List α)
    (h : ∀ part ∈ parts, Meets (property part) errors (step part)) :
    Meets (List.Forall₂ property parts) errors (parts.mapM step) := by
  induction parts with
  | nil => exact List.Forall₂.nil
  | cons part rest ih =>
    rw [List.mapM_cons]
    apply (h part List.mem_cons_self).bind
    intro b hb
    apply (ih fun other hother => h other (List.mem_cons_of_mem part hother)).bind
    intro bs hbs
    exact List.Forall₂.cons hb hbs

/-- Each element of the first list has a partner in the second one. -/
theorem exists_of_forall₂ {relation : α → β → Prop} {as : List α} {bs : List β}
    (h : List.Forall₂ relation as bs) {a : α} (ha : a ∈ as) : ∃ b ∈ bs, relation a b := by
  induction h with
  | nil => exact nomatch ha
  | cons hab _ ih =>
    rcases List.mem_cons.mp ha with rfl | ha
    · exact ⟨_, List.mem_cons_self, hab⟩
    · obtain ⟨b, hb, hrelated⟩ := ih ha
      exact ⟨b, List.mem_cons_of_mem _ hb, hrelated⟩

/-- A fold keeps an invariant of what it has gathered and of the parts that are left. -/
theorem Meets.foldlM (invariant : List α → β → Prop) {step : β → α → Except EvalError β}
    (hstep : ∀ part rest b, invariant (part :: rest) b →
      Meets (invariant rest) errors (step b part))
    {parts : List α} {start : β} (h : invariant parts start) :
    Meets (invariant []) errors (parts.foldlM step start) := by
  induction parts generalizing start with
  | nil => exact h
  | cons part rest ih =>
    rw [List.foldlM_cons]
    apply (hstep part rest start h).bind
    intro b hb
    exact ih hb

end Steps

/-! ## Causes of errors -/

/-- What an error is about. -/
inductive EvalError.Cause where
  /-- A variable that is not bound. -/
  | name
  /-- Operands or arguments of kinds that an operation does not accept. -/
  | kinds
  /-- Operands or arguments of accepted kinds for which there is no result. -/
  | operands
  /-- A number of arguments that a function does not accept. -/
  | count
  /-- A limit of the evaluation. -/
  | limit
  deriving DecidableEq

/-- What a fault of arguments is about. Numbers of places, starts and lengths have to be integers,
and are at fault by their kind if they are not. -/
def ArgumentFault.cause : ArgumentFault → EvalError.Cause
  | count _ => .count
  | notNumeric _ | notString _ => .kinds
  | places given => if given.kind = .integer then .operands else .kinds
  | bounds start length =>
    if start.kind = .integer ∧ length.kind = .integer then .operands else .kinds
  | range _ _ _ => .operands

/-- What an error is about. -/
def EvalError.cause : EvalError → Cause
  | unresolvedVariable _ => .name
  | typeMismatch _ _ _ | invalidOperand _ _ => .kinds
  | invalidArgument _ fault => fault.cause
  | domain _ _ _ | divisionByZero | overflow _ => .operands
  | nestingTooDeep _ _ | tooDeep _ => .limit

/-- No fault of an argument is about a limit. -/
theorem ArgumentFault.cause_ne_limit (fault : ArgumentFault) : fault.cause ≠ .limit := by
  cases fault with
  | places given => simp only [cause]; split <;> decide
  | bounds start length => simp only [cause]; split <;> decide
  | _ => exact nofun

/-- The errors about a limit are those with that cause. -/
theorem EvalError.cause_eq_limit_iff {e : EvalError} : e.cause = .limit ↔ e.isLimit = true := by
  cases e with
  | invalidArgument f fault => simp [cause, isLimit, fault.cause_ne_limit]
  | _ => simp [cause, isLimit]

/-- Whether an operation may fail with an error, given whether it accepts the kinds of its operands:
about their kinds only if it does not accept them. -/
def EvalError.OfOperation (accepted : Bool) (e : EvalError) : Prop :=
  e.cause = .operands ∨ (e.cause = .kinds ∧ accepted = false)

/-- An operation fails for nothing but its operands. -/
theorem EvalError.OfOperation.cause_ne {accepted : Bool} {e : EvalError}
    (h : e.OfOperation accepted) {cause : EvalError.Cause} (hoperands : cause ≠ .operands)
    (hkinds : cause ≠ .kinds) : e.cause ≠ cause := by
  rcases h with h | ⟨h, -⟩
  · rw [h]
    exact hoperands.symm
  · rw [h]
    exact hkinds.symm

/-- An operation that accepts less may fail with more. -/
theorem EvalError.OfOperation.weaken {accepted accepted' : Bool} {e : EvalError}
    (h : e.OfOperation accepted) (hle : accepted' = true → accepted = true) :
    e.OfOperation accepted' := by
  rcases h with h | ⟨h, hfalse⟩
  · exact .inl h
  · refine .inr ⟨h, ?_⟩
    rw [Bool.eq_false_iff]
    intro htrue
    rw [hle htrue] at hfalse
    contradiction

/-- So may its result. -/
theorem Meets.weaken {α : Type} {values : α → Prop} {accepted accepted' : Bool}
    {result : Except EvalError α} (h : Meets values (·.OfOperation accepted) result)
    (hle : accepted' = true → accepted = true) :
    Meets values (·.OfOperation accepted') result :=
  h.mono (fun _ => id) fun _ he => he.weaken hle

/-! ## Nodes -/

section Nodes

variable {bindings : Bindings} {inner : Tree → Except EvalError Value}
  {enter : String → Tree → Except EvalError Value} {values first second : Value → Prop}
  {errors : EvalError → Prop}

/-- Only values of the kind of truth values are some. -/
theorem Value.toBoolean?_eq_none_iff {v : Value} : v.toBoolean? = none ↔ v.kind ≠ .boolean := by
  cases v <;> simp [toBoolean?, kind]

/-- A variable has the value it is bound to, or that of the tree of its expression. -/
theorem meets_reference {name : String}
    (hunbound : bindings.get? name = none → errors (.unresolvedVariable name))
    (hentered : ∀ e, bindings.get? name = some (.expression e) →
      Meets values errors (enter name e.tree))
    (hbound : ∀ v, bindings.get? name = some v → v.kind ≠ .expression → values v) :
    Meets values errors ((Tree.reference name).nodeValue bindings inner enter) := by
  cases hget : bindings.get? name with
  | none =>
    simp only [Tree.nodeValue, hget]
    exact hunbound hget
  | some v =>
    cases v with
    | expression e =>
      simp only [Tree.nodeValue, hget]
      exact hentered e hget
    | _ =>
      simp only [Tree.nodeValue, hget]
      exact hbound _ hget (by simp [Value.kind])

/-- The truth value of a tree fails as the tree does, or for its kind. -/
theorem meets_truth {op : BinaryOp} {tree : Tree} (h : Meets values errors (inner tree))
    (hkind : ∀ v, values v → v.kind ≠ .boolean → errors (.invalidOperand op.symbol v.kind)) :
    Meets (fun _ => True) errors (tree.truth inner op) := by
  unfold Tree.truth
  apply h.bind
  intro v hv
  cases htruth : v.toBoolean? with
  | none => exact hkind v hv (Value.toBoolean?_eq_none_iff.mp htruth)
  | some b => exact trivial

/-- A logical operator yields a truth value, and fails on an operand that is none. -/
theorem meets_logical {op : BinaryOp} (hop : op = .and ∨ op = .or) {left right : Tree}
    (hleft : Meets first errors (inner left)) (hright : Meets second errors (inner right))
    (hvalues : ∀ b, values (.boolean b))
    (hkind : ∀ v, first v ∨ second v → v.kind ≠ .boolean →
      errors (.invalidOperand op.symbol v.kind)) :
    Meets values errors ((Tree.binary op left right).nodeValue bindings inner enter) := by
  have hleft : Meets (fun _ => True) errors (left.truth inner op) :=
    meets_truth hleft fun v hv => hkind v (.inl hv)
  have hright : Meets values errors (right.truth inner op >>= fun b => .ok (.boolean b)) :=
    (meets_truth hright fun v hv => hkind v (.inr hv)).bind fun b _ => hvalues b
  rcases hop with rfl | rfl
  · apply hleft.bind
    intro b _
    cases b with
    | false => exact hvalues false
    | true => exact hright
  · apply hleft.bind
    intro b _
    cases b with
    | false => exact hright
    | true => exact hvalues true

/-- An operation on two operands meets what it does for all values that these may have. -/
theorem meets_binary {op : BinaryOp} (hand : op ≠ .and) (hor : op ≠ .or) {left right : Tree}
    (hleft : Meets first errors (inner left)) (hright : Meets second errors (inner right))
    (happly : ∀ a b, first a → second b → Meets values errors (op.apply a b)) :
    Meets values errors ((Tree.binary op left right).nodeValue bindings inner enter) := by
  have hstep :
      Meets values errors (inner left >>= fun a => inner right >>= fun b => op.apply a b) :=
    hleft.bind fun a ha => hright.bind fun b hb => happly a b ha hb
  cases op with
  | and => exact absurd rfl hand
  | or => exact absurd rfl hor
  | _ => exact hstep

/-- So does an operation on one operand. -/
theorem meets_unary {op : UnaryOp} {operand : Tree} (hoperand : Meets first errors (inner operand))
    (happly : ∀ a, first a → Meets values errors (op.apply a)) :
    Meets values errors ((Tree.unary op operand).nodeValue bindings inner enter) :=
  hoperand.bind happly

/-- So does a call, for all values that its arguments may have. -/
theorem meets_call {f : Function} {arguments : List Tree} {property : Tree → Value → Prop}
    (harguments : ∀ tree ∈ arguments, Meets (property tree) errors (inner tree))
    (hcall : ∀ args, List.Forall₂ property arguments args → Meets values errors (f.call args)) :
    Meets values errors ((Tree.call f arguments).nodeValue bindings inner enter) :=
  (Meets.mapM arguments harguments).bind hcall

end Nodes

end Formula
