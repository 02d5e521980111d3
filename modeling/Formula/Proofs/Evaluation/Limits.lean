import Formula.Proofs.Evaluation.Within

/-!
# Limits of an evaluation

The limits on depth and nesting change a result in one way only: they put an error of their own in
its place. `Tree.within_mono` says so. What a tree comes to in a number of levels, other than such
an error, it also comes to in more levels and inside of fewer expressions.

Two results are compared by `Agrees`: the second is the first one, unless that is an error about a
limit. Such an error goes through every step of an evaluation, so results that agree below a node
agree at the node.
-/

namespace Formula

/-- Whether an error says that a limit of the evaluation is reached. -/
def EvalError.isLimit : EvalError → Bool
  | nestingTooDeep _ _ | tooDeep _ => true
  | _ => false

/-- Whether a result is anything but an error about a limit. -/
def Settled {α : Type} (result : Except EvalError α) : Prop :=
  ∀ e, result = .error e → e.isLimit = false

/-- A value is settled. -/
theorem settled_ok {α : Type} (a : α) : Settled (.ok a) := fun _ he => nomatch he

/-- Whether a settled result stays the same in another evaluation. -/
def Agrees {α : Type} (result other : Except EvalError α) : Prop :=
  Settled result → other = result

/-! ## Agreement through the steps of an evaluation -/

section Agreement

variable {α β : Type}

/-- A result agrees with itself. -/
theorem Agrees.refl (result : Except EvalError α) : Agrees result result := fun _ => rfl

/-- An error about a limit agrees with everything. -/
theorem agrees_of_isLimit {e : EvalError} (h : e.isLimit = true) (other : Except EvalError α) :
    Agrees (.error e) other := by
  intro hsettled
  have hnot := hsettled e rfl
  rw [h] at hnot
  contradiction

/-- Steps agree if the first ones do and so do those that go on from the same value. -/
theorem Agrees.bind {result other : Except EvalError α} {next next' : α → Except EvalError β}
    (h : Agrees result other) (hnext : ∀ a, Agrees (next a) (next' a)) :
    Agrees (result >>= next) (other >>= next') := by
  intro hsettled
  cases result with
  | error e =>
    -- the error is the result of the whole step, so it is not about a limit
    have hother : other = .error e := h fun e' he => hsettled e' (by cases he; rfl)
    rw [hother]
    rfl
  | ok a =>
    have hother : other = .ok a := h (settled_ok a)
    rw [hother]
    exact hnext a hsettled

/-- Evaluations of several parts agree if they do so part by part. -/
theorem Agrees.mapM {step step' : α → Except EvalError β} {change : α → α} (parts : List α)
    (h : ∀ part, Agrees (step part) (step' (change part))) :
    Agrees (parts.mapM step) ((parts.map change).mapM step') := by
  induction parts with
  | nil => exact Agrees.refl _
  | cons part rest ih =>
    rw [List.map_cons, List.mapM_cons, List.mapM_cons]
    exact (h part).bind fun value => ih.bind fun values => Agrees.refl _

end Agreement

/-! ## Agreement at a node -/

/-- A tree with a change made to each of the trees right below its root. -/
def Tree.mapParts (change : Tree → Tree) : Tree → Tree
  | literal value => .literal value
  | reference name => .reference name
  | unary op operand => .unary op (change operand)
  | binary op left right => .binary op (change left) (change right)
  | call function arguments => .call function (arguments.map change)

/-- A tree is not changed if its parts are not. -/
theorem Tree.mapParts_id (tree : Tree) : tree.mapParts id = tree := by
  cases tree <;> simp [mapParts]

variable {bindings : Bindings} {inner inner' : Tree → Except EvalError Value}
  {enter enter' : String → Tree → Except EvalError Value} {change : Tree → Tree}

/-- Agreement on a tree is agreement on its truth value. -/
theorem agrees_truth {op : BinaryOp} {tree : Tree} (h : Agrees (inner tree) (inner' (change tree))) :
    Agrees (tree.truth inner op) ((change tree).truth inner' op) :=
  h.bind fun _ => Agrees.refl _

/-- Results that agree below a node agree at the node. -/
theorem agrees_nodeValue (hinner : ∀ part, Agrees (inner part) (inner' (change part)))
    (henter : ∀ name part, Agrees (enter name part) (enter' name part)) (tree : Tree) :
    Agrees (tree.nodeValue bindings inner enter)
      ((tree.mapParts change).nodeValue bindings inner' enter') := by
  cases tree with
  | literal value => exact Agrees.refl _
  | reference name =>
    simp only [Tree.mapParts, Tree.nodeValue]
    split
    · exact Agrees.refl _
    · exact henter name _
    · exact Agrees.refl _
  | unary op operand => exact (hinner operand).bind fun value => Agrees.refl _
  | binary op left right =>
    cases op with
    | and =>
      refine (agrees_truth (hinner left)).bind fun decided => ?_
      cases decided with
      | false => exact Agrees.refl _
      | true => exact (agrees_truth (hinner right)).bind fun _ => Agrees.refl _
    | or =>
      refine (agrees_truth (hinner left)).bind fun decided => ?_
      cases decided with
      | false => exact (agrees_truth (hinner right)).bind fun _ => Agrees.refl _
      | true => exact Agrees.refl _
    | _ => exact (hinner left).bind fun a => (hinner right).bind fun b => Agrees.refl _
  | call function arguments =>
    exact (Agrees.mapM arguments hinner).bind fun values => Agrees.refl _

/-! ## More levels and less nesting -/

/-- What a tree comes to, other than an error about a limit, it comes to in more levels and inside of
fewer expressions as well. -/
theorem Tree.within_mono {levels levels' nesting nesting' : Nat} (hlevels : levels ≤ levels')
    (hnesting : nesting' ≤ nesting) (tree : Tree) :
    Agrees (tree.within bindings levels nesting) (tree.within bindings levels' nesting') := by
  induction levels generalizing levels' nesting nesting' tree with
  | zero => exact agrees_of_isLimit rfl _
  | succ levels ih =>
    obtain ⟨levels', rfl⟩ : ∃ n, levels' = n + 1 := ⟨levels' - 1, by omega⟩
    have hnode : Agrees (tree.within bindings (levels + 1) nesting)
        ((tree.mapParts id).within bindings (levels' + 1) nesting') := by
      refine agrees_nodeValue (fun part => ih (by omega) hnesting part) (fun name part => ?_) tree
      by_cases hdeep : nesting ≥ maxNesting
      · rw [if_pos hdeep]
        exact agrees_of_isLimit rfl _
      · -- the other evaluation is inside of no more expressions, so it enters this one too
        rw [if_neg hdeep, if_neg (by omega)]
        exact ih (by omega) (by omega) part
    rwa [mapParts_id] at hnode

end Formula
