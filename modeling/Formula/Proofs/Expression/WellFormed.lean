import Formula.Proofs.Expression.Source
import Formula.Proofs.Function.Kinds
import Formula.Proofs.Token.Literals
import Formula.Proofs.Tree.Nodes

/-!
# Expressions that were read are well-formed

What the lexer and the parser check need not be checked again when an expression is evaluated.
`Tree.WellFormed` has it all: the calls have as many arguments as their functions take, the literals
are values that a source can spell out, and the tree is not too high. Each of the three comes from
another place, the calls and the height from the parser and the literals from the lexer, through the
derivation of the tree.

An evaluation of such trees, and of those that variables stand for, never yields an expression, and
no function of it refuses the number of its arguments.
-/

namespace Formula

/-- Whether a tree is one that can be read from a source. -/
structure Tree.WellFormed (tree : Tree) : Prop where
  calls : ∀ f arguments, tree.Contains (.call f arguments) →
    f.arity.accepts arguments.length = true
  literals : ∀ v, tree.Contains (.literal v) → v.IsWritten
  height : tree.height ≤ 256

/-- If a tree is well-formed, so are its parts. -/
theorem Tree.WellFormed.of_mem_parts {tree part : Tree} (h : tree.WellFormed)
    (hpart : part ∈ tree.parts) : part.WellFormed where
  calls f arguments hcall := h.calls f arguments (.inside hpart hcall)
  literals v hliteral := h.literals v (.inside hpart hliteral)
  height := (Nat.le_of_lt (Tree.height_lt_of_mem_parts hpart)).trans h.height

/-! ## Trees of sources -/

/-- Whether every literal of a tree is the value of one of the tokens. -/
def Tree.DrawnFrom (tree : Tree) (tokens : List Token) : Prop :=
  ∀ v, tree.Contains (.literal v) → ∃ token ∈ tokens, token.value? = some v

namespace Tree.DrawnFrom

variable {tree : Tree} {tokens tokens' : List Token}

/-- Literals that are drawn from some tokens are drawn from more of them. -/
theorem mono (h : tree.DrawnFrom tokens) (hsub : ∀ token ∈ tokens, token ∈ tokens') :
    tree.DrawnFrom tokens' := by
  intro v hv
  obtain ⟨token, htoken, hvalue⟩ := h v hv
  exact ⟨token, hsub token htoken, hvalue⟩

/-- The literals of a tree that is none itself are those of its parts. -/
theorem of_parts (hnot : ∀ v, tree ≠ .literal v) (h : ∀ part ∈ tree.parts, part.DrawnFrom tokens) :
    tree.DrawnFrom tokens := by
  intro v hv
  cases hv with
  | self => exact absurd rfl (hnot v)
  | inside hpart hv => exact h _ hpart v hv

/-- A literal is drawn from its own token. -/
theorem literal {token : Token} {v : Value} (hvalue : token.value? = some v) :
    (Tree.literal v).DrawnFrom [token] := by
  intro w hw
  cases hw with
  | self => exact ⟨token, List.mem_cons_self, hvalue⟩
  | inside hpart _ => exact nomatch hpart

end Tree.DrawnFrom

mutual

/-- The literals of a tree are drawn from the tokens that derive it. -/
theorem Derives.drawnFrom {level : Precedence} {tokens : List Token} {tree : Tree} {n : Nat} :
    Derives level tokens tree n → tree.DrawnFrom tokens
  | .tighter h => h.drawnFrom
  | .between _ _ hleft hright =>
    .of_parts (fun _ => nofun) (List.forall_mem_cons.mpr
      ⟨hleft.drawnFrom.mono fun _ h => List.mem_append_left _ h,
        List.forall_mem_singleton.mpr (hright.drawnFrom.mono fun _ h =>
          List.mem_append_right _ (List.mem_cons_of_mem _ h))⟩)
  | .before _ hoperand =>
    .of_parts (fun _ => nofun)
      (List.forall_mem_singleton.mpr (hoperand.drawnFrom.mono fun _ h => List.mem_cons_of_mem _ h))
  | .literal hvalue => .literal hvalue
  | .reference _ => .of_parts (fun _ => nofun) nofun
  | .group _ h _ => h.drawnFrom.mono fun _ h => List.mem_append_left _ (List.mem_cons_of_mem _ h)
  | .emptyCall _ _ _ _ => .of_parts (fun _ => nofun) nofun
  | .call _ _ _ harguments _ =>
    .of_parts (fun _ => nofun) fun part hpart => (harguments.drawnFrom part hpart).mono fun _ h =>
      List.mem_append_left _ (List.mem_cons_of_mem _ (List.mem_cons_of_mem _ h))

/-- So are those of all arguments of a call. -/
theorem DerivesArguments.drawnFrom {tokens : List Token} {trees : List Tree} {n : Nat} :
    DerivesArguments tokens trees n → ∀ tree ∈ trees, tree.DrawnFrom tokens
  | .last h => List.forall_mem_singleton.mpr h.drawnFrom
  | .more hfirst _ hrest =>
    List.forall_mem_cons.mpr ⟨hfirst.drawnFrom.mono fun _ h => List.mem_append_left _ h,
      fun tree htree => (hrest.drawnFrom tree htree).mono fun _ h =>
        List.mem_append_right _ (List.mem_cons_of_mem _ h)⟩

end

/-- The tree of an expression that was read is well-formed. -/
theorem Expression.IsRead.wellFormed {e : Expression} (h : e.IsRead) : e.tree.WellFormed := by
  obtain ⟨source, tokens, htokens, htree⟩ := h.exists_tokens
  obtain ⟨read, stop, rest, n, hread, -, hderives, -, hadmitted⟩ := exists_derives_of_ofTokens htree
  refine ⟨fun f arguments => Tree.accepts_of_contains hadmitted.calls, fun v hv => ?_,
    hadmitted.height⟩
  obtain ⟨token, htoken, hvalue⟩ := hderives.drawnFrom v hv
  have hmem : token ∈ Parser.withEnd tokens := by
    rw [hread]
    exact List.mem_append_left _ htoken
  obtain ⟨w, hw, hwritten⟩ := exists_value_of_tokenize htokens
    (Parser.mem_of_mem_withEnd hmem (Token.ne_eof_of_value? hvalue)) (Token.kind_of_value? hvalue)
  cases hvalue.symm.trans hw
  exact hwritten

/-- A literal that the lexer lets through is one that the parser accepts. -/
theorem ofTokens_ne_invalidLiteral {source : String} {tokens : List Token}
    (h : tokenize source = .ok tokens) (text : String) (position : Nat) :
    Tree.ofTokens tokens ≠ .error (.structural (.invalidLiteral text position)) := by
  intro herror
  obtain ⟨token, htoken, -, hliteral, hnone⟩ := blames_of_ofTokens herror
  have hkind : token.kind ≠ .eof := by
    intro heof
    rw [Token.IsLiteral, heof] at hliteral
    exact absurd hliteral (by decide)
  obtain ⟨v, hv, -⟩ := exists_value_of_tokenize h (Parser.mem_of_mem_withEnd htoken hkind) hliteral
  cases hnone.symm.trans hv

/-! ## Results of well-formed trees -/

namespace Kind

/-- If no pair of kinds yields expressions, no pair of sets does. -/
theorem expression_notMem_pairwise {results : Kind → Kind → Finset Kind}
    (h : ∀ a b, expression ∉ results a b) (left right : Finset Kind) :
    expression ∉ pairwise results left right := by
  intro hmem
  obtain ⟨a, -, ha⟩ := Finset.mem_biUnion.mp hmem
  obtain ⟨b, -, hb⟩ := Finset.mem_biUnion.mp ha
  exact h a b hb

/-- No arithmetic yields an expression. -/
theorem expression_notMem_promoted (left right : Kind) : expression ∉ promoted left right := by
  cases left <;> cases right <;> decide

/-- No division yields one. -/
theorem expression_notMem_divided (left right : Kind) : expression ∉ divided left right := by
  cases left <;> cases right <;> decide

/-- No sum yields one. -/
theorem expression_notMem_summed (left right : Kind) : expression ∉ summed left right := by
  cases left <;> cases right <;> decide

end Kind

/-- No prefix operator yields an expression. -/
theorem UnaryOp.expression_notMem_kinds (op : UnaryOp) (operand : Finset Kind) :
    .expression ∉ op.kinds operand := by
  intro hmem
  cases op with
  | not => exact nomatch Finset.mem_singleton.mp hmem
  | _ => exact nomatch (Finset.mem_filter.mp hmem).2

/-- No infix operator yields an expression. -/
theorem BinaryOp.expression_notMem_kinds (op : BinaryOp) (left right : Finset Kind) :
    .expression ∉ op.kinds left right := by
  cases op with
  | add => exact Kind.expression_notMem_pairwise Kind.expression_notMem_summed left right
  | subtract | multiply | modulus =>
    exact Kind.expression_notMem_pairwise Kind.expression_notMem_promoted left right
  | divide => exact Kind.expression_notMem_pairwise Kind.expression_notMem_divided left right
  | _ => exact fun hmem => nomatch Finset.mem_singleton.mp hmem

/-- A function hands out an expression only if it is given one. -/
theorem Function.expression_notMem_kinds (f : Function) {sets : List (Finset Kind)}
    (h : ∀ kinds ∈ sets, .expression ∉ kinds) : .expression ∉ f.kinds sets := by
  cases f with
  | abs | ceiling | floor | truncate | round =>
    cases sets with
    | nil => exact Finset.notMem_empty _
    | cons first rest => exact h first List.mem_cons_self
  | sum =>
    have hsum : ∀ (kinds : Finset Kind), .expression ∉ kinds →
        .expression ∉ sets.foldl (Kind.pairwise Kind.summed) kinds := by
      clear h
      induction sets with
      | nil => exact fun _ => id
      | cons first rest ih =>
        intro kinds _
        exact ih _ (Kind.expression_notMem_pairwise Kind.expression_notMem_summed kinds first)
    exact hsum _ (by decide)
  | max | min =>
    show Kind.expression ∉ sets.foldr (· ∪ ·) ∅
    induction sets with
    | nil => exact Finset.notMem_empty _
    | cons first rest ih =>
      rw [List.forall_mem_cons] at h
      rw [List.foldr_cons, Finset.mem_union, not_or]
      exact ⟨h.1, ih h.2⟩
  | _ => exact fun hmem => nomatch Finset.mem_singleton.mp hmem

/-- Whatever the operands are, the result of an operation whose table has no expressions is none. -/
theorem meets_proper {result : Except EvalError Value} {kinds : Finset Kind} {accepted : Bool}
    (h : Meets (·.kind ∈ kinds) (·.OfOperation accepted) result) (hkinds : .expression ∉ kinds) :
    Meets (·.kind ≠ .expression) (·.cause ≠ .count) result := by
  refine h.mono (fun v hv hkind => ?_) fun e he => he.cause_ne nofun nofun
  rw [hkind] at hv
  exact hkinds hv

/-- A well-formed tree does not come to an expression, and calls no function with a number of
arguments that it refuses, if the variables stand for well-formed trees. -/
theorem Tree.WellFormed.meets_within {bindings : Bindings}
    (hbindings : ∀ name e, bindings.get? name = some (.expression e) → e.tree.WellFormed)
    {tree : Tree} (h : tree.WellFormed) (levels nesting : Nat) :
    Meets (·.kind ≠ .expression) (·.cause ≠ .count) (tree.within bindings levels nesting) := by
  induction levels generalizing tree nesting with
  | zero => exact nofun
  | succ levels ih =>
    have hparts : ∀ part ∈ tree.parts, Meets (·.kind ≠ .expression) (·.cause ≠ .count)
        (part.within bindings levels nesting) :=
      fun part hpart => ih (h.of_mem_parts hpart) nesting
    cases tree with
    | literal v => exact (h.literals v (.self _)).kind_ne_expression
    | reference name =>
      apply meets_reference
      · exact fun _ => nofun
      · intro e hbound
        by_cases hdeep : nesting ≥ maxNesting
        · rw [if_pos hdeep]
          exact nofun
        · rw [if_neg hdeep]
          exact ih (hbindings name e hbound) (nesting + 1)
      · exact fun _ _ hkind => hkind
    | unary op operand =>
      apply meets_unary (hparts operand List.mem_cons_self)
      intro v _
      exact meets_proper (op.meets_apply (Finset.mem_singleton_self v.kind))
        (op.expression_notMem_kinds _)
    | binary op left right =>
      have hleft := hparts left List.mem_cons_self
      have hright := hparts right (List.mem_cons_of_mem _ List.mem_cons_self)
      by_cases hlogical : op = .and ∨ op = .or
      · exact meets_logical hlogical hleft hright (fun _ => nofun) fun _ _ _ => nofun
      · rw [not_or] at hlogical
        apply meets_binary hlogical.1 hlogical.2 hleft hright
        intro a b _ _
        exact meets_proper (op.meets_apply (Finset.mem_singleton_self a.kind)
          (Finset.mem_singleton_self b.kind)) (op.expression_notMem_kinds _ _)
    | call f arguments =>
      apply meets_call hparts
      intro args hargs
      have harity : f.arity.accepts args.length = true := by
        rw [← hargs.length_eq]
        exact h.calls f arguments (.self _)
      refine meets_proper (f.meets_call_values harity)
        (f.expression_notMem_kinds fun kinds hkinds => ?_)
      obtain ⟨v, hv, rfl⟩ := List.mem_map.mp hkinds
      obtain ⟨_, -, hkind⟩ := exists_of_forall₂ hargs.flip hv
      exact fun hmem => hkind (Finset.mem_singleton.mp hmem).symm

/-- No source is refused for an invalid literal, and a tree that is read from one is well-formed. So
an evaluation against values of which the expressions were read yields no expression and finds no
number of arguments wrong. -/
theorem ofSource_wellFormed (source : String) (serial : Nat) :
    (∀ text position, Expression.ofSource source serial ≠
      .error (.parsing (.structural (.invalidLiteral text position)))) ∧
    ∀ e, Expression.ofSource source serial = .ok e → e.tree.WellFormed ∧
      ∀ bindings : Bindings, bindings.FromSources →
        (∀ f found,
          e.evaluate bindings ≠ .error (.evaluation (.invalidArgument f (.count found)))) ∧
        ∀ inner, e.evaluate bindings ≠ .ok (.expression inner) := by
  constructor
  · intro text position herror
    obtain ⟨tokens, htokens, htree⟩ := Expression.exists_tokens_of_parsing herror
    exact ofTokens_ne_invalidLiteral htokens text position htree
  · intro e he
    have hwellFormed : e.tree.WellFormed := Expression.IsRead.wellFormed ⟨source, serial, he⟩
    refine ⟨hwellFormed, fun bindings hsources => ?_⟩
    have hbindings : ∀ name e, bindings.get? name = some (.expression e) → e.tree.WellFormed :=
      fun name e hbound => (hsources name e hbound).wellFormed
    have hmeets := hwellFormed.meets_within hbindings maxEvaluationDepth 0
    rw [← Tree.evaluate_eq_within] at hmeets
    unfold Expression.evaluate
    constructor
    · intro f found h
      cases hvalue : e.tree.evaluate bindings with
      | error error =>
        rw [hvalue] at h hmeets
        cases h
        exact hmeets rfl
      | ok v => rw [hvalue] at h; cases h
    · intro inner h
      cases hvalue : e.tree.evaluate bindings with
      | error error => rw [hvalue] at h; cases h
      | ok v =>
        rw [hvalue] at h hmeets
        cases h
        exact hmeets rfl

set_option maxRecDepth 2000 in
/-- The formula `Max([x])`, where `x` stands for the formula `2`. -/
theorem ofSource_wellFormed_max :
    let e := Expression.mk "Max([x])" (.call .max [.reference "x"]) 1
    let bindings := Bindings.empty.insert "x" (.expression (.mk "2" (.literal (.integer 2)) 0))
    e.tree.WellFormed ∧
      (∀ f found, e.evaluate bindings ≠ .error (.evaluation (.invalidArgument f (.count found)))) ∧
      ∀ inner, e.evaluate bindings ≠ .ok (.expression inner) := by
  intro e bindings
  have hsources : bindings.FromSources := by
    intro name e h
    rw [Bindings.get?_insert] at h
    split at h
    · cases h
      exact ⟨"2", 0, rfl⟩
    · exact nomatch h.symm.trans (Bindings.get?_empty name)
  have htokens : tokenize "Max([x])" = .ok [⟨.identifier, "Max", 0⟩, ⟨.leftParen, "(", 3⟩,
      ⟨.reference, "x", 4⟩, ⟨.rightParen, ")", 7⟩, Token.eof 8] := by decide +kernel
  have hread : Expression.ofSource "Max([x])" 1 = .ok e := by
    rw [Expression.ofSource_eq, htokens]
    rfl
  obtain ⟨hwellFormed, hevaluate⟩ := (ofSource_wellFormed "Max([x])" 1).2 e hread
  exact ⟨hwellFormed, hevaluate bindings hsources⟩

end Formula
