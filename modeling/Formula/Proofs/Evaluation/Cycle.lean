import Formula.Proofs.Evaluation.Outcome
import Formula.Proofs.Evaluation.Substitution
import Formula.Proofs.Tree.Nodes

/-!
# Variables that lead back to themselves

An evaluation of a node evaluates all of its parts, except for the right operand of a logical
operator, which may be skipped. A variable is demanded by a tree if it occurs in a place that is not
inside such an operand. If every variable of a set stands for an expression that demands a variable
of the set again, no tree that demands one of them has a value: whatever the number of levels is,
the value would have to come from below.
-/

namespace Formula

namespace Tree

/-- The parts without which a tree has no value. -/
def strictParts : Tree → List Tree
  | binary .and left _ | binary .or left _ => [left]
  | tree => tree.parts

/-- An operator that is not a logical one needs both operands. -/
theorem strictParts_binary {op : BinaryOp} (hand : op ≠ .and) (hor : op ≠ .or) (left right : Tree) :
    (binary op left right).strictParts = [left, right] := by
  cases op with
  | and => exact absurd rfl hand
  | or => exact absurd rfl hor
  | _ => rfl

/-- Whether a variable of the name, in any letter case, occurs in the tree outside of all right
operands of logical operators. -/
inductive Demands : Tree → String → Prop where
  | reference {name other : String} (h : Bindings.fold other = Bindings.fold name) :
      Demands (.reference other) name
  | inside {tree part : Tree} {name : String} (hpart : part ∈ tree.strictParts)
      (h : Demands part name) : Demands tree name

end Tree

/-- Whether a result is an error. -/
def Fails {α : Type} (result : Except EvalError α) : Prop :=
  Meets (fun _ => False) (fun _ => True) result

variable {bindings : Bindings} {inner : Tree → Except EvalError Value}
  {enter : String → Tree → Except EvalError Value}

section

variable {α β : Type} {result : Except EvalError α}

/-- A result that fails is some error. -/
theorem Fails.exists_error (h : Fails result) : ∃ e, result = .error e := by
  cases result with
  | ok a => exact h.elim
  | error e => exact ⟨e, rfl⟩

/-- Once a step has failed, so has what is built on it. -/
theorem Fails.bind (h : Fails result) (next : α → Except EvalError β) : Fails (result >>= next) :=
  Meets.bind h fun _ => False.elim

/-- Any result is a value or an error. -/
theorem meets_any (result : Except EvalError α) : Meets (fun _ => True) (fun _ => True) result := by
  cases result with
  | ok a => exact trivial
  | error e => exact trivial

end

/-- A node fails if one of its strict parts does. -/
theorem fails_nodeValue {tree part : Tree} (hpart : part ∈ tree.strictParts)
    (h : Fails (inner part)) : Fails (tree.nodeValue bindings inner enter) := by
  cases tree with
  | literal v => exact nomatch hpart
  | reference name => exact nomatch hpart
  | unary op operand =>
    rw [List.mem_singleton.mp hpart] at h
    exact h.bind op.apply
  | binary op left right =>
    by_cases hlogical : op = .and ∨ op = .or
    · have hleft : part = left := by
        rcases hlogical with rfl | rfl <;> exact List.mem_singleton.mp hpart
      rw [hleft] at h
      -- the error comes out of the reading of the truth value, and so out of the node
      rcases hlogical with rfl | rfl
      · exact (h.bind _).bind _
      · exact (h.bind _).bind _
    · rw [not_or] at hlogical
      rw [Tree.strictParts_binary hlogical.1 hlogical.2] at hpart
      rcases List.mem_pair.mp hpart with rfl | rfl
      · exact meets_binary hlogical.1 hlogical.2 h (meets_any _) fun _ _ => False.elim
      · exact meets_binary hlogical.1 hlogical.2 (meets_any _) h fun _ _ _ => False.elim
  | call f arguments =>
    have hothers : ∀ other ∈ arguments,
        Meets (fun _ => other ≠ part) (fun _ => True) (inner other) := by
      intro other _
      by_cases hother : other = part
      · rw [hother]
        exact h.mono (fun _ => False.elim) fun _ => id
      · exact (meets_any _).mono (fun _ _ => hother) fun _ => id
    apply meets_call hothers
    intro args hargs
    -- all arguments have values, and the part is among them
    obtain ⟨_, -, hother⟩ := exists_of_forall₂ hargs hpart
    exact absurd rfl hother

/-- No number of levels is enough for a tree that demands a variable of a set, if every variable of
the set stands for an expression that demands one again. -/
theorem fails_within {names : Set String}
    (hnames : ∀ name ∈ names, ∃ e, bindings.get? name = some (.expression e) ∧
      ∃ next ∈ names, e.tree.Demands next)
    {tree : Tree} {name : String} (hname : name ∈ names) (h : tree.Demands name)
    (levels nesting : Nat) : Fails (tree.within bindings levels nesting) := by
  induction levels generalizing tree name nesting with
  | zero => exact trivial
  | succ levels ih =>
    cases h with
    | @reference _ other hfold =>
      obtain ⟨e, hbound, next, hnext, hdemands⟩ := hnames name hname
      rw [← Bindings.get?_congr hfold] at hbound
      apply meets_reference
      · intro hnone
        cases hbound.symm.trans hnone
      · intro e' hbound'
        cases hbound.symm.trans hbound'
        by_cases hdeep : nesting ≥ maxNesting
        · rw [if_pos hdeep]
          exact trivial
        · rw [if_neg hdeep]
          exact ih hnext hdemands (nesting + 1)
      · intro v hbound' hkind
        cases hbound.symm.trans hbound'
        exact hkind rfl
    | inside hpart h => exact fails_nodeValue hpart (ih hname h nesting)

/-- A tree that demands a variable on a cycle fails: each variable of the cycle is bound to an
expression that demands the next one, and the last one is the first. -/
theorem evaluate_cycle (bindings : Bindings) (x : Nat → String) (k : Nat) (hk : 1 ≤ k)
    (hclosed : Bindings.fold (x k) = Bindings.fold (x 0))
    (hbound : ∀ i < k, ∃ e, bindings.get? (x i) = some (.expression e) ∧ e.tree.Demands (x (i + 1)))
    (tree : Tree) (h : tree.Demands (x 0)) : ∃ e, tree.evaluate bindings = .error e := by
  have hcycle : ∀ name ∈ {name | ∃ i < k, Bindings.fold name = Bindings.fold (x i)},
      ∃ e, bindings.get? name = some (.expression e) ∧
        ∃ next ∈ {name | ∃ i < k, Bindings.fold name = Bindings.fold (x i)},
          e.tree.Demands next := by
    rintro name ⟨i, hi, hfold⟩
    obtain ⟨e, he, hdemands⟩ := hbound i hi
    refine ⟨e, (Bindings.get?_congr hfold).trans he, x (i + 1), ?_, hdemands⟩
    by_cases hlast : i + 1 = k
    · rw [hlast]
      exact ⟨0, hk, hclosed⟩
    · exact ⟨i + 1, by omega, rfl⟩
  rw [Tree.evaluate_eq_within]
  exact (fails_within hcycle ⟨0, hk, rfl⟩ h maxEvaluationDepth 0).exists_error

/-- Two formulas that are bound to `a` and `b` and mention each other. -/
theorem evaluate_cycle_pair :
    let first := Expression.mk "[B] + 1" (.binary .add (.reference "B") (.literal (.integer 1))) 0
    let second := Expression.mk "not [A]" (.unary .not (.reference "A")) 1
    let bindings := (Bindings.empty.insert "a" (.expression first)).insert "b" (.expression second)
    ∃ e, (Tree.call .sum [.literal (.integer 1), .reference "A"]).evaluate bindings = .error e := by
  intro first second bindings
  have ha : Bindings.fold "A" = Bindings.fold "a" := by decide +kernel
  have hb : Bindings.fold "B" = Bindings.fold "b" := by decide +kernel
  have hab : Bindings.fold "b" ≠ Bindings.fold "a" := by decide +kernel
  have hfirst : bindings.get? "a" = some (.expression first) := by
    rw [Bindings.get?_insert, if_neg hab, Bindings.get?_insert, if_pos rfl]
  have hsecond : bindings.get? "b" = some (.expression second) := by
    rw [Bindings.get?_insert, if_pos rfl]
  apply evaluate_cycle bindings (fun i => if i = 1 then "b" else "a") 2 (by decide) rfl
  · intro i hi
    by_cases hone : i = 1
    · subst hone
      exact ⟨second, hsecond, .inside List.mem_cons_self (.reference ha)⟩
    · obtain rfl : i = 0 := by omega
      exact ⟨first, hfirst, .inside List.mem_cons_self (.reference hb)⟩
  · exact .inside (List.mem_cons_of_mem _ List.mem_cons_self) (.reference ha)

end Formula
