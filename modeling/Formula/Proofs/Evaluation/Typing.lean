import Formula.Proofs.Function.Kinds
import Formula.Proofs.Tree.Nodes
import Formula.Proofs.Tree.Parsing

/-!
# Kinds of trees

The tables of `Formula.Proofs.Evaluation.Kinds` and `Formula.Proofs.Function.Kinds` put together
along a tree: `Tree.kinds` has the kinds that a tree may have where no variable stands for an
expression. `Tree.Accepting` says that no operation of the tree refuses operands for their kinds,
whichever of these kinds they have.

One induction proves both halves of `evaluate_kind`. What is known of a part is the kind of its
value, and the tables say what that means at the node.
-/

namespace Formula

/-- The kinds of a variable: that of the value it is bound to. -/
def Bindings.kinds (bindings : Bindings) (name : String) : Finset Kind :=
  match bindings.get? name with
  | none => ∅
  | some v => {v.kind}

/-- Whether an operator accepts all operands of the given kinds. A logical operator looks at each
operand on its own, since it may not get to the right one; that makes a difference only where an
operand has no kind, as `acceptsAll_iff` says. -/
def BinaryOp.AcceptsAll (op : BinaryOp) (left right : Finset Kind) : Prop :=
  match op with
  | and | or => left ⊆ {.boolean} ∧ right ⊆ {.boolean}
  | op => ∀ a ∈ left, ∀ b ∈ right, op.accepts a b = true

namespace Tree

/-- The kinds that the value of a tree may have. -/
def kinds (bindings : Bindings) : Tree → Finset Kind
  | literal v => {v.kind}
  | reference name => bindings.kinds name
  | unary op operand => op.kinds (operand.kinds bindings)
  | binary op left right => op.kinds (left.kinds bindings) (right.kinds bindings)
  | call f arguments => f.kinds (kindsOfAll arguments)
where
  /-- The kinds of each of several trees. -/
  kindsOfAll : List Tree → List (Finset Kind)
    | [] => []
    | tree :: rest => tree.kinds bindings :: kindsOfAll rest

/-- Whether the operation at the root accepts all operands of the kinds that its parts may have. -/
def AcceptsParts (bindings : Bindings) : Tree → Prop
  | literal _ | reference _ => True
  | unary op operand => ∀ kind ∈ operand.kinds bindings, op.accepts kind = true
  | binary op left right => op.AcceptsAll (left.kinds bindings) (right.kinds bindings)
  | call f arguments => ∀ given, List.Forall₂ (· ∈ ·) given (kinds.kindsOfAll bindings arguments) →
      f.accepts given = true

/-- Whether every operation in the tree accepts all operands of the kinds that they may have. -/
def Accepting (bindings : Bindings) (tree : Tree) : Prop :=
  ∀ node, tree.Contains node → node.AcceptsParts bindings

variable {bindings : Bindings} {tree part : Tree}

/-- The kinds of several trees are those of each of them. -/
theorem kindsOfAll_eq_map (trees : List Tree) :
    kinds.kindsOfAll bindings trees = trees.map (·.kinds bindings) := by
  induction trees with
  | nil => rfl
  | cons tree rest ih => rw [kinds.kindsOfAll, ih]; rfl

/-- A tree that is accepting accepts the kinds of its own parts. -/
theorem Accepting.acceptsParts (h : tree.Accepting bindings) : tree.AcceptsParts bindings :=
  h tree (.self tree)

/-- If a tree is accepting, so are its parts. -/
theorem Accepting.of_mem_parts (h : tree.Accepting bindings) (hpart : part ∈ tree.parts) :
    part.Accepting bindings :=
  fun node hnode => h node (.inside hpart hnode)

end Tree

/-- Where both operands have kinds at all, an operator accepts all operands exactly if it accepts
those of every two kinds. -/
theorem BinaryOp.acceptsAll_iff {op : BinaryOp} {left right : Finset Kind} (hleft : left.Nonempty)
    (hright : right.Nonempty) :
    op.AcceptsAll left right ↔ ∀ a ∈ left, ∀ b ∈ right, op.accepts a b = true := by
  have hlogical : (left ⊆ {.boolean} ∧ right ⊆ {.boolean}) ↔
      ∀ a ∈ left, ∀ b ∈ right, decide (a = .boolean ∧ b = .boolean) = true := by
    obtain ⟨a, ha⟩ := hleft
    obtain ⟨b, hb⟩ := hright
    constructor
    · intro h a ha b hb
      exact decide_eq_true ⟨Finset.mem_singleton.mp (h.1 ha), Finset.mem_singleton.mp (h.2 hb)⟩
    · intro h
      exact ⟨fun c hc => Finset.mem_singleton.mpr (of_decide_eq_true (h c hc b hb)).1,
        fun c hc => Finset.mem_singleton.mpr (of_decide_eq_true (h a ha c hc)).2⟩
  cases op with
  | and => exact hlogical
  | or => exact hlogical
  | _ => exact Iff.rfl

/-- An operator that accepts all kinds of its sides accepts each pair of them. -/
theorem BinaryOp.AcceptsAll.accepts {op : BinaryOp} {left right : Finset Kind}
    (h : op.AcceptsAll left right) (hand : op ≠ .and) (hor : op ≠ .or) {a b : Kind} (ha : a ∈ left)
    (hb : b ∈ right) : op.accepts a b = true := by
  cases op with
  | and => exact absurd rfl hand
  | or => exact absurd rfl hor
  | _ => exact h a ha b hb

/-- A logical operator only accepts truth values on both sides. -/
theorem BinaryOp.AcceptsAll.eq_boolean {op : BinaryOp} {left right : Finset Kind}
    (h : op.AcceptsAll left right) (hop : op = .and ∨ op = .or) {kind : Kind}
    (hkind : kind ∈ left ∨ kind ∈ right) : kind = .boolean := by
  have hboth : left ⊆ {.boolean} ∧ right ⊆ {.boolean} := by
    rcases hop with rfl | rfl
    · exact h
    · exact h
  rcases hkind with hkind | hkind
  · exact Finset.mem_singleton.mp (hboth.1 hkind)
  · exact Finset.mem_singleton.mp (hboth.2 hkind)

/-- Whether an error has nothing to do with kinds: there is no result for operands of accepted
kinds, or a variable is not bound. -/
def EvalError.OfValues (bindings : Bindings) (e : EvalError) : Prop :=
  e.cause = .operands ∨ ∃ name, e = .unresolvedVariable name ∧ bindings.get? name = none

variable {bindings : Bindings}

/-- An error of an operation that accepts its operands has nothing to do with their kinds. -/
theorem EvalError.OfOperation.ofValues {accepted : Bool} {e : EvalError}
    (h : e.OfOperation accepted) (haccepted : accepted = true) : e.OfValues bindings := by
  rcases h with h | ⟨-, hfalse⟩
  · exact .inl h
  · rw [haccepted] at hfalse
    contradiction

/-- In as many levels as a tree has, its value has one of its kinds, and it fails for a kind only if
some operation of it may refuse its operands. -/
theorem Tree.meets_kinds (hplain : ∀ name e, bindings.get? name ≠ some (.expression e))
    {tree : Tree} {levels : Nat} (hheight : tree.height ≤ levels)
    (hcalls : tree.callsAccepted = true) (nesting : Nat) :
    Meets (·.kind ∈ tree.kinds bindings) (fun e => tree.Accepting bindings → e.OfValues bindings)
      (tree.within bindings levels nesting) := by
  induction levels generalizing tree with
  | zero =>
    rw [tree.height_eq] at hheight
    exact absurd hheight (Nat.not_succ_le_zero _)
  | succ levels ih =>
    have hparts : ∀ part ∈ tree.parts, Meets (·.kind ∈ part.kinds bindings)
        (fun e => tree.Accepting bindings → e.OfValues bindings)
        (part.within bindings levels nesting) := by
      intro part hpart
      have hlower := Tree.height_lt_of_mem_parts hpart
      refine (ih (by omega) (Tree.callsAccepted_of_mem_parts hcalls hpart)).mono (fun _ => id) ?_
      exact fun e he haccepting => he (haccepting.of_mem_parts hpart)
    cases tree with
    | literal v => exact Finset.mem_singleton_self _
    | reference name =>
      apply meets_reference
      · exact fun hunbound _ => .inr ⟨name, rfl, hunbound⟩
      · exact fun e hbound => absurd hbound (hplain name e)
      · intro v hbound _
        rw [Tree.kinds, Bindings.kinds, hbound]
        exact Finset.mem_singleton_self _
    | unary op operand =>
      apply meets_unary (hparts operand List.mem_cons_self)
      intro v hv
      refine (op.meets_apply hv).mono (fun _ => id) fun e he haccepting => ?_
      exact he.ofValues (haccepting.acceptsParts v.kind hv)
    | binary op left right =>
      have hleft := hparts left List.mem_cons_self
      have hright := hparts right (List.mem_cons_of_mem _ List.mem_cons_self)
      by_cases hlogical : op = .and ∨ op = .or
      · apply meets_logical hlogical hleft hright
        · intro b
          rcases hlogical with rfl | rfl <;> exact Finset.mem_singleton_self _
        · intro v hv hkind haccepting
          exact absurd (haccepting.acceptsParts.eq_boolean hlogical hv) hkind
      · rw [not_or] at hlogical
        apply meets_binary hlogical.1 hlogical.2 hleft hright
        intro a b ha hb
        refine (op.meets_apply ha hb).mono (fun _ => id) fun e he haccepting => ?_
        exact he.ofValues (haccepting.acceptsParts.accepts hlogical.1 hlogical.2 ha hb)
    | call f arguments =>
      apply meets_call hparts
      intro args hargs
      have hkinds : List.Forall₂ (fun kinds v => v.kind ∈ kinds)
          (Tree.kinds.kindsOfAll bindings arguments) args := by
        rw [Tree.kindsOfAll_eq_map]
        exact List.forall₂_map_left_iff.mpr hargs
      have harity : f.arity.accepts args.length = true := by
        rw [← hargs.length_eq]
        exact Tree.accepts_of_contains hcalls (.self _)
      refine (f.meets_call hkinds harity).mono (fun _ => id) fun e he haccepting => ?_
      exact he.ofValues
        (haccepting.acceptsParts _ (List.forall₂_map_left_iff.mpr hkinds.flip))

/-- Where no variable stands for an expression, the value of a tree that was parsed has one of the
kinds of the tree. If no operation of the tree may refuse its operands for their kinds, the tree
fails only where an operation has no result for the operands themselves, or a variable is not bound.
-/
theorem evaluate_kind (tokens : List Token) (tree : Tree) (bindings : Bindings)
    (hparsed : Tree.ofTokens tokens = .ok tree)
    (hplain : ∀ name e, bindings.get? name ≠ some (.expression e)) :
    (∀ v, tree.evaluate bindings = .ok v → v.kind ∈ tree.kinds bindings) ∧
    (tree.Accepting bindings → ∀ e, tree.evaluate bindings = .error e →
      e.cause = .operands ∨ ∃ name, e = .unresolvedVariable name ∧ bindings.get? name = none) := by
  obtain ⟨-, -, -, -, -, -, -, -, hadmitted⟩ := exists_derives_of_ofTokens hparsed
  have hheight : tree.height ≤ maxEvaluationDepth := hadmitted.height.trans (by decide)
  have hmeets := Tree.meets_kinds hplain hheight hadmitted.calls 0
  rw [← Tree.evaluate_eq_within] at hmeets
  constructor
  · intro v hv
    rw [hv] at hmeets
    exact hmeets
  · intro haccepting e he
    rw [he] at hmeets
    exact hmeets haccepting

set_option maxRecDepth 2000 in
/-- `Max([x], 1)` is a double or an integer where `x` is a double, and `Max` accepts both. -/
theorem evaluate_kind_max :
    let bindings := Bindings.empty.insert "x" (.double (Double.ofInt 2))
    let tree := Tree.call .max [.reference "x", .literal (.integer 1)]
    (∀ v, tree.evaluate bindings = .ok v → v.kind = .double ∨ v.kind = .integer) ∧
    ∀ e, tree.evaluate bindings = .error e →
      e.cause = .operands ∨ ∃ name, e = .unresolvedVariable name ∧ bindings.get? name = none := by
  intro bindings tree
  have hparsed : Tree.ofTokens [⟨.identifier, "Max", 0⟩, ⟨.leftParen, "(", 3⟩, ⟨.reference, "x", 4⟩,
      ⟨.comma, ",", 7⟩, ⟨.number, "1", 9⟩, ⟨.rightParen, ")", 10⟩, Token.eof 11] = .ok tree := rfl
  have hbound : bindings.get? "x" = some (.double (Double.ofInt 2)) := by
    rw [Bindings.get?_insert, if_pos rfl]
  have hplain : ∀ name e, bindings.get? name ≠ some (.expression e) := by
    intro name e h
    rw [Bindings.get?_insert] at h
    split at h
    · cases h
    · exact nomatch h.symm.trans (Bindings.get?_empty name)
  have hx : bindings.kinds "x" = {.double} := by
    rw [Bindings.kinds, hbound]
    rfl
  have hkinds : Tree.kinds.kindsOfAll bindings [.reference "x", .literal (.integer 1)] =
      [{.double}, {.integer}] := by
    rw [← hx]
    rfl
  have haccepting : tree.Accepting bindings := by
    intro node hnode
    cases hnode with
    | self =>
      intro given hgiven
      rw [hkinds] at hgiven
      cases hgiven with
      | cons ha hrest =>
        cases hrest with
        | cons hb hrest =>
          cases hrest
          rw [Finset.mem_singleton.mp ha, Finset.mem_singleton.mp hb]
          rfl
    | inside hpart h =>
      rcases List.mem_pair.mp hpart with rfl | rfl
      · cases h with
        | self => exact trivial
        | inside hpart _ => exact nomatch hpart
      · cases h with
        | self => exact trivial
        | inside hpart _ => exact nomatch hpart
  obtain ⟨hvalue, herror⟩ := evaluate_kind _ tree bindings hparsed hplain
  refine ⟨fun v hv => ?_, herror haccepting⟩
  have hmem : v.kind ∈ Function.max.kinds (Tree.kinds.kindsOfAll bindings
      [.reference "x", .literal (.integer 1)]) := hvalue v hv
  have hset : Function.max.kinds [{.double}, {.integer}] = {.double, .integer} := by decide
  rw [hkinds, hset, Finset.mem_insert, Finset.mem_singleton] at hmem
  exact hmem

end Formula
