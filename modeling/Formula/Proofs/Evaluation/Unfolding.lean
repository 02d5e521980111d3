import Formula.Proofs.Expression.Source
import Formula.Proofs.Function.Kinds
import Formula.Proofs.Tree.Nodes

/-!
# Evaluations that stay within the limits

Putting the trees of expressions in the place of the variables they are bound to, over and over,
unfolds a tree. `Unfolds` says how many levels the unfolded tree has, a variable keeping a level of
its own above what it stands for, and how many expressions are nested inside each other on a path of
it. There are such numbers where no expression leads back to itself (`exists_unfolds_of_acc`), and
only one pair of them (`Unfolds.unique`).

An evaluation visits nothing but nodes of the unfolded tree, so it keeps within limits that the
unfolded tree keeps within.
-/

namespace Formula

/-- Whether a tree unfolds to so many levels, with so many expressions nested inside each other. -/
inductive Unfolds (bindings : Bindings) : Tree → (levels nesting : Nat) → Prop where
  /-- A variable stands a level above the tree of the expression it is bound to. -/
  | entered {name : String} {e : Expression} {levels nesting : Nat}
      (hbound : bindings.get? name = some (.expression e))
      (h : Unfolds bindings e.tree levels nesting) :
      Unfolds bindings (.reference name) (levels + 1) (nesting + 1)
  /-- Any other node stands a level above its parts. -/
  | node {tree : Tree} (levels nesting : Tree → Nat)
      (hnot : ∀ name e, tree = .reference name → bindings.get? name ≠ some (.expression e))
      (hparts : ∀ part ∈ tree.parts, Unfolds bindings part (levels part) (nesting part)) :
      Unfolds bindings tree (tree.overParts levels + 1) (tree.overParts nesting)

variable {bindings : Bindings} {tree : Tree} {levels nesting : Nat}

/-- A tree unfolds to one number of levels and one nesting only. -/
theorem Unfolds.unique (h : Unfolds bindings tree levels nesting) {levels' nesting' : Nat}
    (h' : Unfolds bindings tree levels' nesting') : levels = levels' ∧ nesting = nesting' := by
  induction h generalizing levels' nesting' with
  | entered hbound _ ih =>
    cases h' with
    | entered hbound' h' =>
      cases hbound.symm.trans hbound'
      obtain ⟨rfl, rfl⟩ := ih h'
      exact ⟨rfl, rfl⟩
    | node _ _ hnot _ => exact absurd hbound (hnot _ _ rfl)
  | node levels nesting hnot _ ih =>
    cases h' with
    | entered hbound' _ => exact absurd hbound' (hnot _ _ rfl)
    | node levels' nesting' _ hparts' =>
      have hsame := fun part hpart => ih part hpart (hparts' part hpart)
      exact ⟨congrArg (· + 1) (Tree.overParts_congr fun part hpart => (hsame part hpart).1),
        Tree.overParts_congr fun part hpart => (hsame part hpart).2⟩

/-! ## Which trees unfold -/

/-- Whether a tree mentions a variable that is bound to the expression. -/
def Bindings.Enters (bindings : Bindings) (tree : Tree) (e : Expression) : Prop :=
  ∃ name, tree.Contains (.reference name) ∧ bindings.get? name = some (.expression e)

/-- A tree enters what its parts enter. -/
theorem Bindings.Enters.of_mem_parts {part : Tree} {e : Expression} (hpart : part ∈ tree.parts)
    (h : bindings.Enters part e) : bindings.Enters tree e := by
  obtain ⟨name, hcontains, hbound⟩ := h
  exact ⟨name, .inside hpart hcontains, hbound⟩

/-- A tree unfolds if all the expressions it enters do. -/
theorem exists_unfolds_of_enters
    (h : ∀ e, bindings.Enters tree e → ∃ levels nesting, Unfolds bindings e.tree levels nesting) :
    ∃ levels nesting, Unfolds bindings tree levels nesting := by
  induction tree using Tree.induction_parts with
  | h tree ih =>
    by_cases hentered : ∃ name e, tree = .reference name ∧ bindings.get? name = some (.expression e)
    · obtain ⟨name, e, rfl, hbound⟩ := hentered
      obtain ⟨levels, nesting, hunfolds⟩ := h e ⟨name, .self _, hbound⟩
      exact ⟨levels + 1, nesting + 1, .entered hbound hunfolds⟩
    · classical
      have hparts : ∀ part ∈ tree.parts, ∃ levels nesting, Unfolds bindings part levels nesting :=
        fun part hpart => ih part hpart fun e he => h e (he.of_mem_parts hpart)
      choose! levels nesting hparts using hparts
      exact ⟨_, _, .node levels nesting
        (fun name e htree hbound => hentered ⟨name, e, htree, hbound⟩) hparts⟩

/-- A tree unfolds if no expression it enters leads back to itself. -/
theorem exists_unfolds_of_acc
    (h : ∀ e, bindings.Enters tree e → Acc (fun next e => bindings.Enters e.tree next) e) :
    ∃ levels nesting, Unfolds bindings tree levels nesting := by
  apply exists_unfolds_of_enters
  intro e he
  have hacc := h e he
  clear he
  induction hacc with
  | intro e _ ih =>
    apply exists_unfolds_of_enters
    intro next hnext
    exact ih next hnext

/-- Where the expressions that a tree enters are low, the tree unfolds to few levels more than it
has. -/
theorem Unfolds.le_of_enters (h : Unfolds bindings tree levels nesting) {bound limit : Nat}
    (hentered : ∀ e, bindings.Enters tree e → ∀ levels nesting,
      Unfolds bindings e.tree levels nesting → levels ≤ bound ∧ nesting < limit) :
    levels ≤ tree.height + bound ∧ nesting ≤ limit := by
  induction h with
  | @entered name e levels nesting hbound hunfolds _ =>
    obtain ⟨hlevels, hnesting⟩ := hentered e ⟨name, .self _, hbound⟩ levels nesting hunfolds
    rw [Tree.height]
    omega
  | @node tree levels nesting hnot hparts ih =>
    have hbelow := fun part hpart => ih part hpart fun e he => hentered e (he.of_mem_parts hpart)
    have hlevels : tree.overParts levels ≤ tree.overParts Tree.height + bound := by
      apply Tree.overParts_le
      intro part hpart
      exact (hbelow part hpart).1.trans (Nat.add_le_add_right (Tree.le_overParts _ hpart) bound)
    rw [tree.height_eq]
    exact ⟨by omega, Tree.overParts_le fun part hpart => (hbelow part hpart).2⟩

/-! ## Limits -/

/-- An operation has nothing to do with the limits. -/
theorem meets_ne_limit {values : Value → Prop} {accepted : Bool} {result : Except EvalError Value}
    (h : Meets values (·.OfOperation accepted) result) :
    Meets (fun _ => True) (·.cause ≠ .limit) result :=
  h.mono (fun _ _ => trivial) fun _ he => he.cause_ne nofun nofun

/-- No function fails for a limit of the evaluation. -/
theorem Function.meets_call_ne_limit (f : Function) (args : List Value) :
    Meets (fun _ => True) (·.cause ≠ .limit) (f.call args) := by
  by_cases harity : f.arity.accepts args.length = true
  · exact meets_ne_limit (f.meets_call_values harity)
  · rw [Function.call, if_neg harity]
    intro h
    cases h

/-- An evaluation visits nothing but nodes of the unfolded tree. -/
theorem Unfolds.meets_within (h : Unfolds bindings tree levels nesting) {room depth : Nat}
    (hroom : levels ≤ room) (hdepth : nesting + depth ≤ maxNesting) :
    Meets (fun _ => True) (·.cause ≠ .limit) (tree.within bindings room depth) := by
  induction h generalizing room depth with
  | @entered name e levels nesting hbound _ ih =>
    obtain ⟨room, rfl⟩ : ∃ n, room = n + 1 := ⟨room - 1, by omega⟩
    apply meets_reference
    · exact fun _ => nofun
    · intro e' hbound'
      cases hbound.symm.trans hbound'
      -- one expression more is entered here, so the limit is not reached yet
      rw [if_neg (by omega)]
      exact ih (by omega) (by omega)
    · exact fun _ _ _ => trivial
  | @node tree levels nesting hnot hparts ih =>
    obtain ⟨room, rfl⟩ : ∃ n, room = n + 1 := ⟨room - 1, by omega⟩
    have hbelow : ∀ part ∈ tree.parts,
        Meets (fun _ => True) (·.cause ≠ .limit) (part.within bindings room depth) := by
      intro part hpart
      have hlevels := Tree.le_overParts levels hpart
      have hnesting := Tree.le_overParts nesting hpart
      exact ih part hpart (by omega) (by omega)
    cases tree with
    | literal v => exact trivial
    | reference name =>
      apply meets_reference
      · exact fun _ => nofun
      · exact fun e hbound => absurd hbound (hnot name e rfl)
      · exact fun _ _ _ => trivial
    | unary op operand =>
      apply meets_unary (hbelow operand List.mem_cons_self)
      intro v _
      exact meets_ne_limit (op.meets_apply (Finset.mem_singleton_self v.kind))
    | binary op left right =>
      have hleft := hbelow left List.mem_cons_self
      have hright := hbelow right (List.mem_cons_of_mem _ List.mem_cons_self)
      by_cases hlogical : op = .and ∨ op = .or
      · exact meets_logical hlogical hleft hright (fun _ => trivial) fun _ _ _ => nofun
      · rw [not_or] at hlogical
        apply meets_binary hlogical.1 hlogical.2 hleft hright
        intro a b _ _
        exact meets_ne_limit
          (op.meets_apply (Finset.mem_singleton_self a.kind) (Finset.mem_singleton_self b.kind))
    | call f arguments =>
      exact meets_call hbelow fun args _ => f.meets_call_ne_limit args

/-- A tree that unfolds within the limits does not meet them. -/
theorem Unfolds.settled (h : Unfolds bindings tree levels nesting)
    (hlevels : levels ≤ maxEvaluationDepth) (hnesting : nesting ≤ maxNesting) :
    Settled (tree.evaluate bindings) := by
  have hwithin : Meets (fun _ => True) (·.cause ≠ .limit)
      (tree.within bindings maxEvaluationDepth 0) := h.meets_within hlevels hnesting
  intro e he
  rw [Tree.evaluate_eq_within] at he
  rw [he] at hwithin
  exact Bool.eq_false_iff.mpr fun hlimit => hwithin (EvalError.cause_eq_limit_iff.mpr hlimit)

/-- An evaluation does not reach its limits on a tree that unfolds to at most 512 levels with at
most 64 expressions nested inside each other. In particular it does not on a tree that was read from
a source, if the expressions among the bound values were read from sources and enter no further
ones. -/
theorem settled_evaluate (bindings : Bindings) :
    (∀ tree levels nesting, Unfolds bindings tree levels nesting → levels ≤ 512 → nesting ≤ 64 →
      Settled (tree.evaluate bindings)) ∧
    (bindings.FromSources →
      (∀ name e, bindings.get? name = some (.expression e) →
        ∀ next, ¬ bindings.Enters e.tree next) →
      ∀ e : Expression, e.IsRead → Settled (e.tree.evaluate bindings)) := by
  constructor
  · intro tree levels nesting h hlevels hnesting
    exact h.settled hlevels hnesting
  · intro hsources hflat e hread
    have hentered : ∀ e', bindings.Enters e.tree e' →
        e'.tree.height ≤ maxDepth ∧ ∀ next, ¬ bindings.Enters e'.tree next := by
      rintro e' ⟨name, -, hbound⟩
      exact ⟨(hsources name e' hbound).admitted.height, hflat name e' hbound⟩
    obtain ⟨levels, nesting, hunfolds⟩ : ∃ levels nesting, Unfolds bindings e.tree levels nesting :=
      exists_unfolds_of_enters fun e' he' => exists_unfolds_of_enters fun next hnext =>
        absurd hnext ((hentered e' he').2 next)
    obtain ⟨hlevels, hnesting⟩ : levels ≤ e.tree.height + maxDepth ∧ nesting ≤ 1 := by
      apply hunfolds.le_of_enters
      intro e' he' levels' nesting' hunfolds'
      obtain ⟨hheight, hplain⟩ := hentered e' he'
      have hle : levels' ≤ e'.tree.height + 0 ∧ nesting' ≤ 0 :=
        hunfolds'.le_of_enters fun next hnext => absurd hnext (hplain next)
      omega
    -- as many levels as a tree may have, over as many again
    have hheight : e.tree.height ≤ maxDepth := hread.admitted.height
    exact hunfolds.settled (hlevels.trans (Nat.add_le_add_right hheight maxDepth))
      (hnesting.trans (by decide))

/-- Every operator on top of a tree is a level more. -/
theorem Unfolds.iterate_unary (h : Unfolds bindings tree levels nesting) (op : UnaryOp)
    (count : Nat) : Unfolds bindings ((Tree.unary op)^[count] tree) (levels + count) nesting := by
  induction count with
  | zero => exact h
  | succ count ih =>
    rw [Function.iterate_succ_apply']
    have hnode : Unfolds bindings (Tree.unary op ((Tree.unary op)^[count] tree))
        (max (levels + count) 0 + 1) (max nesting 0) :=
      .node (fun _ => levels + count) (fun _ => nesting) (fun _ _ => nofun) <| by
        intro part hpart
        rw [List.mem_singleton.mp hpart]
        exact ih
    rwa [Nat.max_zero, Nat.max_zero] at hnode

set_option maxRecDepth 4000 in
/-- A tree of 256 levels over another one is admitted, and so is the formula `+[x]` that enters a
formula `[y]`. -/
theorem settled_evaluate_signs :
    (let e := Expression.mk "" ((Tree.unary .plus)^[255] (.literal (.integer 1))) 0
     let bindings := Bindings.empty.insert "x" (.expression e)
     Unfolds bindings ((Tree.unary .plus)^[255] (.reference "x")) 512 1 ∧
       Settled (((Tree.unary .plus)^[255] (.reference "x")).evaluate bindings)) ∧
    (let inner := Expression.mk "[y]" (.reference "y") 0
     let bindings := Bindings.empty.insert "x" (.expression inner)
     Settled ((Tree.unary .plus (.reference "x")).evaluate bindings)) := by
  have hbound {e : Expression} : (Bindings.empty.insert "x" (.expression e)).get? "x" =
      some (.expression e) := by
    rw [Bindings.get?_insert, if_pos rfl]
  constructor
  · intro e bindings
    have hleaf : Unfolds bindings (.literal (.integer 1)) 1 0 :=
      .node (fun _ => 0) (fun _ => 0) (fun _ _ => nofun) nofun
    have hinner : Unfolds bindings e.tree 256 0 := hleaf.iterate_unary .plus 255
    have hentered : Unfolds bindings (.reference "x") 257 1 := .entered hbound hinner
    have htop : Unfolds bindings ((Tree.unary .plus)^[255] (.reference "x")) 512 1 :=
      hentered.iterate_unary .plus 255
    exact ⟨htop, (settled_evaluate bindings).1 _ 512 1 htop (Nat.le_refl _) (by decide)⟩
  · intro inner bindings
    have hentered : ∀ name e, bindings.get? name = some (.expression e) →
        e = inner ∧ Bindings.fold name = Bindings.fold "x" := by
      intro name e h
      rw [Bindings.get?_insert] at h
      split at h
      · rename_i hfold
        cases h
        exact ⟨rfl, hfold.symm⟩
      · exact nomatch h.symm.trans (Bindings.get?_empty name)
    have hread : Expression.IsRead (.mk "+[x]" (.unary .plus (.reference "x")) 1) :=
      ⟨"+[x]", 1, rfl⟩
    refine (settled_evaluate bindings).2 ?_ ?_ _ hread
    · intro name e h
      rw [(hentered name e h).1]
      exact ⟨"[y]", 0, rfl⟩
    · rintro name e h next ⟨other, hcontains, hnext⟩
      rw [(hentered name e h).1] at hcontains
      cases hcontains with
      | self =>
        have hfold := (hentered "y" next hnext).2
        exact absurd hfold (by decide +kernel)
      | inside hpart _ => exact nomatch hpart

end Formula
