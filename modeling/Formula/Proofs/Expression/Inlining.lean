import Formula.Proofs.Evaluation.Substitution
import Formula.Proofs.Expression.Numerals
import Formula.Proofs.Token.Inlining
import Formula.Proofs.Token.Literals
import Formula.Proofs.Tree.Nodes

/-!
# Values written in place of variables

A variable that is bound to an integer means the integer written in its place: put into parentheses,
with its sign, it stands wherever the variable stood (`evaluate_inlineInteger`). The edit is made in
the source, so it is followed through the tokens, the derivation and the evaluation.

`Inlines` collects what is needed of a text for that, one item for each of these. The tokens of the
text derive a tree at the tightest level, as a reference does, so the derivation stays what it is
everywhere else. It nests deeper and may be higher than before, which only matters to the limits.
-/

namespace Formula

/-! ## Derivations -/

section Derivations

variable {name : String} {forms : List Shape} {part : Tree}

/-- Whether tokens derive the tree with a part in place of the references to a name, wherever the
tokens of the part stand in their place. -/
def Replaceable (name : String) (forms : List Shape) (part : Tree) (level : Precedence)
    (tokens : List Token) (tree : Tree) : Prop :=
  ∀ edited, shapes edited = tokens.flatMap (Token.replaced name forms) →
    ∃ n, Derives level edited (tree.substitute name part) n

/-- Whether that holds of the arguments of a call. -/
def ReplaceableArguments (name : String) (forms : List Shape) (part : Tree) (tokens : List Token)
    (trees : List Tree) : Prop :=
  ∀ edited, shapes edited = tokens.flatMap (Token.replaced name forms) →
    ∃ n, DerivesArguments edited (trees.map (·.substitute name part)) n

/-- Only references are replaced. -/
theorem Token.replaced_of_kind {token : Token} (h : token.kind ≠ .reference) :
    token.replaced name forms = [(token.kind, token.text)] := by
  have hname : token.refersTo name = false := by
    rw [refersTo, beq_eq_false_iff_ne.mpr h]
    rfl
  rw [replaced, hname]
  rfl

/-- A token that spells an operator is no reference. -/
theorem Token.ne_reference_of_operator? {token : Token} {fixity : Fixity} {op : Operator}
    (h : token.operator? fixity = some op) : token.kind ≠ .reference := by
  intro hkind
  rw [operator?, hkind] at h
  cases h

/-- A token that is a literal is no reference. -/
theorem Token.ne_reference_of_value? {token : Token} {value : Value}
    (h : token.value? = some value) : token.kind ≠ .reference := by
  intro hkind
  rw [value?, hkind] at h
  cases h

/-- A token that is no reference stays what it is, at another place. -/
theorem exists_of_shapes_cons {token : Token} {edited tokens : List Token}
    (hkind : token.kind ≠ .reference)
    (h : shapes edited = (token :: tokens).flatMap (Token.replaced name forms)) :
    ∃ place others, edited = ⟨token.kind, token.text, place⟩ :: others ∧
      shapes others = tokens.flatMap (Token.replaced name forms) := by
  rw [List.flatMap_cons, Token.replaced_of_kind hkind] at h
  exact shapes_eq_cons_iff.mp h

/-- What stands in the place of two runs of tokens is a run for each of them. -/
theorem exists_of_shapes_append {edited first second : List Token}
    (h : shapes edited = (first ++ second).flatMap (Token.replaced name forms)) :
    ∃ front back, edited = front ++ back ∧
      shapes front = first.flatMap (Token.replaced name forms) ∧
      shapes back = second.flatMap (Token.replaced name forms) := by
  rw [List.flatMap_append] at h
  exact shapes_eq_append_iff.mp h

namespace Replaceable

variable {level : Precedence} {tokens first second : List Token} {token left right : Token}
  {tree leftTree rightTree : Tree} {trees : List Tree}

/-- What may be replaced at a tighter level may be so at a looser one. -/
theorem tighter (h : Replaceable name forms part level.tighter tokens tree) :
    Replaceable name forms part level tokens tree := by
  intro edited hedited
  obtain ⟨n, hn⟩ := h edited hedited
  exact ⟨n, .tighter hn⟩

/-- A part may be replaced in both operands of an infix operator. -/
theorem between {op : BinaryOp} (hop : token.operator? .between = some (.binary op))
    (hlevel : op.precedence = level) (hleft : Replaceable name forms part level first leftTree)
    (hright : Replaceable name forms part level.tighter second rightTree) :
    Replaceable name forms part level (first ++ token :: second)
      (.binary op leftTree rightTree) := by
  intro edited hedited
  obtain ⟨front, back, rfl, hfront, hback⟩ := exists_of_shapes_append hedited
  obtain ⟨place, others, rfl, hothers⟩ :=
    exists_of_shapes_cons (Token.ne_reference_of_operator? hop) hback
  obtain ⟨m, hm⟩ := hleft front hfront
  obtain ⟨n, hn⟩ := hright others hothers
  exact ⟨_, .between hop hlevel hm hn⟩

/-- A part may be replaced in the operand of a prefix operator. -/
theorem before {op : UnaryOp} (hop : token.operator? .before = some (.unary op))
    (h : Replaceable name forms part .unary tokens tree) :
    Replaceable name forms part .unary (token :: tokens) (.unary op tree) := by
  intro edited hedited
  obtain ⟨place, others, rfl, hothers⟩ :=
    exists_of_shapes_cons (Token.ne_reference_of_operator? hop) hedited
  obtain ⟨n, hn⟩ := h others hothers
  exact ⟨_, .before hop hn⟩

/-- In a literal there is nothing to be replaced. -/
theorem literal {value : Value} (hvalue : token.value? = some value) :
    Replaceable name forms part .unary [token] (.literal value) := by
  intro edited hedited
  obtain ⟨place, others, rfl, hothers⟩ :=
    exists_of_shapes_cons (Token.ne_reference_of_value? hvalue) hedited
  cases List.map_eq_nil_iff.mp hothers
  exact ⟨1, .literal hvalue⟩

/-- Either the part stands in the place of a reference, or the reference is to another name. -/
theorem reference (hpart : ∀ tokens, shapes tokens = forms → ∃ n, Derives .unary tokens part n)
    (hkind : token.kind = .reference) :
    Replaceable name forms part .unary [token] (.reference token.text) := by
  intro edited hedited
  rw [List.flatMap_singleton] at hedited
  by_cases hname : Bindings.fold token.text = Bindings.fold name
  · have hrefers : token.refersTo name = true := by
      rw [Token.refersTo, hkind, hname, Bool.and_eq_true_iff]
      exact ⟨beq_self_eq_true _, beq_self_eq_true _⟩
    rw [Token.replaced, if_pos hrefers] at hedited
    rw [Tree.substitute, if_pos hname]
    exact hpart edited hedited
  · have hrefers : token.refersTo name = false := by
      rw [Token.refersTo, beq_eq_false_iff_ne.mpr hname, Bool.and_false]
    rw [Token.replaced, if_neg (Bool.eq_false_iff.mp hrefers)] at hedited
    obtain ⟨place, others, rfl, hothers⟩ := shapes_eq_cons_iff.mp hedited
    cases List.map_eq_nil_iff.mp hothers
    rw [Tree.substitute, if_neg hname]
    exact ⟨1, .reference hkind⟩

/-- A part may be replaced in a group. -/
theorem group (hleft : left.kind = .leftParen) (hright : right.kind = .rightParen)
    (h : Replaceable name forms part .or tokens tree) :
    Replaceable name forms part .unary (left :: tokens ++ [right]) tree := by
  intro edited hedited
  obtain ⟨place, others, rfl, hothers⟩ := exists_of_shapes_cons (by simp [hleft]) hedited
  obtain ⟨inside, close, rfl, hinside, hclose⟩ := exists_of_shapes_append hothers
  obtain ⟨place', rest, rfl, hrest⟩ := exists_of_shapes_cons (by simp [hright]) hclose
  cases List.map_eq_nil_iff.mp hrest
  obtain ⟨n, hn⟩ := h inside hinside
  exact ⟨n + 1, .group hleft hn hright⟩

/-- In a call without arguments there is nothing to be replaced. -/
theorem emptyCall {function : Function} (hname : token.kind = .identifier)
    (hfunction : Function.find? token.text = some function) (hleft : left.kind = .leftParen)
    (hright : right.kind = .rightParen) :
    Replaceable name forms part .unary [token, left, right] (.call function []) := by
  intro edited hedited
  obtain ⟨place, others, rfl, hothers⟩ := exists_of_shapes_cons (by simp [hname]) hedited
  obtain ⟨place', rest, rfl, hrest⟩ := exists_of_shapes_cons (by simp [hleft]) hothers
  obtain ⟨place'', none, rfl, hnone⟩ := exists_of_shapes_cons (by simp [hright]) hrest
  cases List.map_eq_nil_iff.mp hnone
  exact ⟨1, .emptyCall hname hfunction hleft hright⟩

/-- A part may be replaced in the arguments of a call. -/
theorem call {function : Function} (hname : token.kind = .identifier)
    (hfunction : Function.find? token.text = some function) (hleft : left.kind = .leftParen)
    (hright : right.kind = .rightParen)
    (h : ReplaceableArguments name forms part tokens trees) :
    Replaceable name forms part .unary (token :: left :: tokens ++ [right])
      (.call function trees) := by
  intro edited hedited
  obtain ⟨place, others, rfl, hothers⟩ := exists_of_shapes_cons (by simp [hname]) hedited
  obtain ⟨place', behind, rfl, hbehind⟩ := exists_of_shapes_cons (by simp [hleft]) hothers
  obtain ⟨inside, close, rfl, hinside, hclose⟩ := exists_of_shapes_append hbehind
  obtain ⟨place'', rest, rfl, hrest⟩ := exists_of_shapes_cons (by simp [hright]) hclose
  cases List.map_eq_nil_iff.mp hrest
  obtain ⟨n, hn⟩ := h inside hinside
  rw [Tree.substitute, inAll_eq_map]
  exact ⟨n + 1, .call hname hfunction hleft hn hright⟩

/-- A part may be replaced in the last argument. -/
theorem last (h : Replaceable name forms part .or tokens tree) :
    ReplaceableArguments name forms part tokens [tree] := by
  intro edited hedited
  obtain ⟨n, hn⟩ := h edited hedited
  exact ⟨n, .last hn⟩

/-- And in an argument with more of them behind it. -/
theorem more {comma : Token} (hcomma : comma.kind = .comma)
    (hfirst : Replaceable name forms part .or first tree)
    (hrest : ReplaceableArguments name forms part second trees) :
    ReplaceableArguments name forms part (first ++ comma :: second) (tree :: trees) := by
  intro edited hedited
  obtain ⟨front, back, rfl, hfront, hback⟩ := exists_of_shapes_append hedited
  obtain ⟨place, others, rfl, hothers⟩ := exists_of_shapes_cons (by simp [hcomma]) hback
  obtain ⟨m, hm⟩ := hfirst front hfront
  obtain ⟨n, hn⟩ := hrest others hothers
  exact ⟨max m n, .more hm hcomma hn⟩

end Replaceable

mutual

/-- Whatever the tokens derive, a part may be replaced in them. -/
theorem Derives.replaceable
    (hpart : ∀ tokens, shapes tokens = forms → ∃ n, Derives .unary tokens part n)
    {level : Precedence} {tokens : List Token} {tree : Tree} {n : Nat} :
    Derives level tokens tree n → Replaceable name forms part level tokens tree
  | .tighter h => (h.replaceable hpart).tighter
  | .between hop hlevel hleft hright =>
    .between hop hlevel (hleft.replaceable hpart) (hright.replaceable hpart)
  | .before hop hoperand => .before hop (hoperand.replaceable hpart)
  | .literal hvalue => .literal hvalue
  | .reference hkind => .reference hpart hkind
  | .group hleft h hright => .group hleft hright (h.replaceable hpart)
  | .emptyCall hname hfunction hleft hright => .emptyCall hname hfunction hleft hright
  | .call hname hfunction hleft harguments hright =>
    .call hname hfunction hleft hright (harguments.replaceable hpart)

/-- So it may in all arguments of a call. -/
theorem DerivesArguments.replaceable
    (hpart : ∀ tokens, shapes tokens = forms → ∃ n, Derives .unary tokens part n)
    {tokens : List Token} {trees : List Tree} {n : Nat} :
    DerivesArguments tokens trees n → ReplaceableArguments name forms part tokens trees
  | .last h => Replaceable.last (h.replaceable hpart)
  | .more hfirst hcomma hrest =>
    Replaceable.more hcomma (hfirst.replaceable hpart) (hrest.replaceable hpart)

end

end Derivations

/-- Calls stay accepted, as they keep the numbers of their arguments. -/
theorem Tree.callsAccepted_substitute {name : String} {part : Tree}
    (hpart : part.callsAccepted = true) (tree : Tree) (h : tree.callsAccepted = true) :
    (tree.substitute name part).callsAccepted = true := by
  induction tree using Tree.induction_parts with
  | h tree ih =>
    have hparts : ∀ below ∈ tree.parts, (below.substitute name part).callsAccepted = true :=
      fun below hbelow => ih below hbelow (callsAccepted_of_mem_parts h hbelow)
    cases tree with
    | literal value => rfl
    | reference other =>
      rw [substitute]
      split
      · exact hpart
      · rfl
    | unary op operand => exact hparts operand List.mem_cons_self
    | binary op left right =>
      exact Bool.and_eq_true_iff.mpr ⟨hparts left List.mem_cons_self,
        hparts right (List.mem_cons_of_mem _ List.mem_cons_self)⟩
    | call f arguments =>
      rw [substitute, inAll_eq_map, callsAccepted, List.length_map, Bool.and_eq_true_iff]
      refine ⟨(Bool.and_eq_true_iff.mp h).1, (allAccepted_iff _).mpr fun below hbelow => ?_⟩
      obtain ⟨argument, hargument, rfl⟩ := List.mem_map.mp hbelow
      exact hparts argument hargument

/-! ## Texts in place of variables -/

/-- Whether a text is read as a part that comes to a value, whatever stands around it and whatever
the variables are. -/
structure Inlines (text : List Char) (forms : List Shape) (part : Tree) (value : Value) : Prop where
  splits : Parenthesized text forms
  derives : ∀ tokens, shapes tokens = forms → ∃ n, Derives .unary tokens part n
  calls : part.callsAccepted = true
  value : ∀ bindings levels nesting, part.within bindings (levels + 2) nesting = .ok value

section Inlines

variable {text : List Char} {forms : List Shape} {part : Tree} {value : Value} {name : String}

/-- The edited source is read as the tree with the part in place of the variable, or is too deep. -/
theorem Inlines.ofSource (h : Inlines text forms part value) {source : String} {tokens : List Token}
    {tree : Tree} (htokens : tokenize source = .ok tokens) (htree : Tree.ofTokens tokens = .ok tree)
    {edited : String}
    (hedited : edited = String.ofList (replaceReferences name text tokens source.toList))
    (serial : Nat) :
    Expression.ofSource edited serial = .ok (.mk edited (tree.substitute name part) serial) ∨
      Expression.ofSource edited serial =
        .error (.parsing (.structural (.tooDeep maxDepth))) := by
  obtain ⟨pieces, hpieces, rfl⟩ := tokenize_iff_segmentation.mp htokens
  have hfront : ∀ token ∈ pieces.map Piece.token, token.kind ≠ .eof := by
    intro token htoken
    obtain ⟨piece, hpiece, rfl⟩ := List.mem_map.mp htoken
    exact (hpieces.fits piece hpiece).spelled.kind_ne_eof
  obtain ⟨n, hderives, hcalls, -, -⟩ :=
    derives_of_ofTokens (Parser.withEnd_concat_eof _ _) rfl hfront htree
  obtain ⟨tokens', place, htokens', hshapes⟩ := tokenize_replaceReferences h.splits htokens
  obtain ⟨n', hderives'⟩ := hderives.replaceable h.derives tokens' hshapes
  rw [← hedited] at htokens'
  rw [Expression.ofSource_eq, htokens']
  dsimp only
  rcases ofTokens_of_derives_or (Parser.withEnd_concat_eof tokens' place) rfl rfl hderives'
    (Tree.callsAccepted_substitute h.calls tree hcalls) with hread | ⟨hdeep, -⟩
  · rw [hread]
    exact .inl rfl
  · rw [hdeep]
    exact .inr rfl

/-- The part comes to the same as the variable, one level further down at most. -/
theorem Inlines.evaluate (h : Inlines text forms part value) {bindings : Bindings}
    (hbound : bindings.get? name = some value) (hkind : value.kind ≠ .expression) {tree : Tree}
    (hsettled : Settled (tree.evaluate bindings))
    (hsettled' : Settled ((tree.substitute name part).evaluate bindings)) :
    (tree.substitute name part).evaluate bindings = tree.evaluate bindings := by
  have hpart : ∀ other, Bindings.fold other = Bindings.fold name → ∀ levels nesting,
      Agrees ((Tree.reference other).within bindings levels nesting)
        (part.within bindings (levels + 1) nesting) := by
    intro other hfold levels nesting
    cases levels with
    | zero => exact agrees_of_isLimit rfl _
    | succ levels =>
      have hreference : (Tree.reference other).within bindings (levels + 1) nesting = .ok value := by
        cases value with
        | expression e => exact absurd rfl hkind
        | _ => simp only [Tree.within, Tree.nodeValue, Bindings.get?_congr hfold, hbound]
      rw [hreference, h.value bindings levels nesting]
      exact Agrees.refl _
  rw [Tree.evaluate_eq_within] at hsettled hsettled' ⊢
  rw [Tree.evaluate_eq_within]
  -- both evaluations agree with one that has a level to spare
  have hspare := agrees_substitute_of hpart maxEvaluationDepth 0 tree hsettled
  have hsame := Tree.within_mono (Nat.le_add_right maxEvaluationDepth 1) (Nat.le_refl 0)
    (tree.substitute name part) hsettled'
  exact hsame.symm.trans hspare

end Inlines

/-! ## Integers in parentheses -/

/-- An integer as it is written in parentheses, with its sign. -/
def Integer.inParentheses (n : Int64) : List Char := '(' :: (Integer.text n).toList ++ [')']

/-- The source with an integer in parentheses in place of each reference to a name, in any letter
case. What stands between quotes is no reference. -/
def inlineInteger (name : String) (n : Int64) (source : String) : String :=
  match tokenize source with
  | .ok tokens =>
    String.ofList (replaceReferences name (Integer.inParentheses n) tokens source.toList)
  | .error _ => source

/-- A text between parentheses is read as its part wherever a variable stands, if it is read as the
part in front of a closing parenthesis. -/
theorem Inlines.parenthesized {text : List Char} {forms : List Shape} {part : Tree} {value : Value}
    (hsplits : ∀ {rest others}, Splits (')' :: rest) others →
      Splits (text ++ ')' :: rest) (forms ++ others))
    (hderives : ∀ tokens, shapes tokens = forms → ∃ n, Derives .or tokens part n)
    (hcalls : part.callsAccepted = true)
    (hvalue : ∀ bindings levels nesting, part.within bindings (levels + 2) nesting = .ok value) :
    Inlines ('(' :: text ++ [')'])
      (Word.leftParen.shape :: (forms ++ [Word.rightParen.shape])) part value := by
  refine ⟨⟨⟨text ++ [')'], rfl⟩, fun {rest others} hrest => ?_⟩, fun tokens htokens => ?_, hcalls,
    hvalue⟩
  · have hclose : Splits (')' :: rest) (Word.rightParen.shape :: others) :=
      Word.rightParen.splits trivial hrest
    have hopen : Splits ('(' :: (text ++ ')' :: rest))
        (Word.leftParen.shape :: (forms ++ Word.rightParen.shape :: others)) :=
      Word.leftParen.splits trivial (hsplits hclose)
    simpa only [List.cons_append, List.append_assoc, List.nil_append] using hopen
  · obtain ⟨place, others, rfl, hothers⟩ := shapes_eq_cons_iff.mp htokens
    obtain ⟨inside, close, rfl, hinside, hclose⟩ := shapes_eq_append_iff.mp hothers
    obtain ⟨place', rest, rfl, hrest⟩ := shapes_eq_cons_iff.mp hclose
    cases List.map_eq_nil_iff.mp hrest
    obtain ⟨n, hn⟩ := hderives inside hinside
    exact ⟨n + 1, .group rfl hn rfl⟩

/-- Every integer but the least one has a text that may stand in parentheses for it. -/
theorem Integer.exists_inlines {n : Int64} (hmin : n ≠ Int64.minValue) :
    ∃ forms part, Inlines (inParentheses n) forms part (.integer n) := by
  obtain ⟨forms, part, hspelled⟩ := exists_spelled hmin
  have hsplits : ∀ {rest others}, Splits (')' :: rest) others →
      Splits ((text n).toList ++ ')' :: rest) (forms ++ others) :=
    hspelled.splits fun _ _ => Lexeme.ends_of_mem_openers (by decide)
  have hderives : ∀ tokens, shapes tokens = forms → ∃ k, Derives .or tokens part k := by
    intro tokens htokens
    obtain ⟨k, hk, -⟩ := hspelled.derives tokens htokens
    exact ⟨k, hk⟩
  exact ⟨_, _, .parenthesized hsplits hderives hspelled.admitted.calls hspelled.value⟩

/-- An integer in parentheses means what a variable bound to it means. With the integer in place of
the variable, a source that is read is still read, unless it gets too deep for that; and it comes to
the same value or error, unless one of both evaluations reaches a limit. -/
theorem evaluate_inlineInteger (source : String) (serial serial' : Nat) (e : Expression)
    (bindings : Bindings) (name : String) (n : Int64)
    (hread : Expression.ofSource source serial = .ok e)
    (hbound : bindings.get? name = some (.integer n)) (hmin : n ≠ Int64.minValue) :
    let edited := inlineInteger name n source
    Expression.ofSource edited serial' = .error (.parsing (.structural (.tooDeep maxDepth))) ∨
      ∃ e', Expression.ofSource edited serial' = .ok e' ∧
        (Settled (e.tree.evaluate bindings) → Settled (e'.tree.evaluate bindings) →
          e'.evaluate bindings = e.evaluate bindings) := by
  intro edited
  obtain ⟨forms, part, hinlines⟩ := Integer.exists_inlines hmin
  obtain ⟨tokens, htokens, htree⟩ := Expression.exists_tokens_of_ok hread
  have hedited : edited = String.ofList
      (replaceReferences name (Integer.inParentheses n) tokens source.toList) := by
    show inlineInteger name n source = _
    rw [inlineInteger, htokens]
  rcases hinlines.ofSource htokens htree hedited serial' with hok | hdeep
  · refine .inr ⟨_, hok, fun hsettled hsettled' => ?_⟩
    have hsame : (e.tree.substitute name part).evaluate bindings = e.tree.evaluate bindings :=
      hinlines.evaluate hbound nofun hsettled hsettled'
    unfold Expression.evaluate
    exact congrArg (Except.mapError ExpressionError.evaluation) hsame
  · exact .inl hdeep

/-- The formula `7 mod[x]`, where `x` is -5: with the parentheses, the name of the operator stands
right in front of what could be arguments. -/
theorem evaluate_inlineInteger_mod :
    let bindings := Bindings.empty.insert "X" (.integer (-5))
    let e := Expression.mk "7 mod[x]" (.binary .modulus (.literal (.integer 7)) (.reference "x")) 0
    inlineInteger "X" (-5) "7 mod[x]" = "7 mod(-5)" ∧
      ∃ e', Expression.ofSource "7 mod(-5)" 1 = .ok e' ∧
        e'.evaluate bindings = e.evaluate bindings := by
  intro bindings e
  have htokens : tokenize "7 mod[x]" = .ok [⟨.number, "7", 0⟩, ⟨.identifier, "mod", 2⟩,
      ⟨.reference, "x", 5⟩, Token.eof 8] := by decide +kernel
  have hread : Expression.ofSource "7 mod[x]" 0 = .ok e := by
    rw [Expression.ofSource_eq, htokens]
    rfl
  have hbound : bindings.get? "X" = some (.integer (-5)) := by
    rw [Bindings.get?_insert, if_pos rfl]
  have hedited : inlineInteger "X" (-5) "7 mod[x]" = "7 mod(-5)" := by
    rw [inlineInteger, htokens]
    decide +kernel
  have htokens' : tokenize "7 mod(-5)" = .ok [⟨.number, "7", 0⟩, ⟨.identifier, "mod", 2⟩,
      ⟨.leftParen, "(", 5⟩, ⟨.operator, "-", 6⟩, ⟨.number, "5", 7⟩, ⟨.rightParen, ")", 8⟩,
      Token.eof 9] := by decide +kernel
  let tree' := Tree.binary .modulus (.literal (.integer 7)) (.unary .negate (.literal (.integer 5)))
  have hread' : Expression.ofSource "7 mod(-5)" 1 = .ok (.mk "7 mod(-5)" tree' 1) := by
    rw [Expression.ofSource_eq, htokens']
    rfl
  have hvalue (levels : Nat) : e.tree.within bindings (levels + 2) 0 = .ok (.integer 2) := by
    have hfold : Bindings.fold "x" = Bindings.fold "X" := by decide +kernel
    simp only [e, Expression.tree, Tree.within, Tree.nodeValue, Bindings.get?_congr hfold, hbound]
    rfl
  have hvalue' (levels : Nat) : tree'.within bindings (levels + 3) 0 = .ok (.integer 2) := rfl
  refine ⟨hedited, ?_⟩
  rcases evaluate_inlineInteger "7 mod[x]" 0 1 e bindings "X" (-5) hread hbound (by decide) with
    hdeep | ⟨e', hok, hsame⟩
  · rw [hedited, hread'] at hdeep
    cases hdeep
  · rw [hedited] at hok
    refine ⟨e', hok, hsame ?_ ?_⟩
    · rw [Tree.evaluate_eq_within, show maxEvaluationDepth = 510 + 2 from rfl, hvalue]
      exact settled_ok _
    · rw [← Except.ok.inj (hread'.symm.trans hok)]
      rw [Expression.tree, Tree.evaluate_eq_within, show maxEvaluationDepth = 509 + 3 from rfl,
        hvalue']
      exact settled_ok _

end Formula
