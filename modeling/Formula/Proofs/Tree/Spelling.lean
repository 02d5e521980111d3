import Formula.Proofs.Text.LetterCase
import Formula.Proofs.Tree.Parsing

/-!
# Spellings of operators and letter case

An operator can be spelled by a sign or by a word, and a word can be in any letter case.
`Token.Respelled` relates tokens that differ in no more than that; where they stand does not matter
either. `ofTokens_respelled` says that such tokens form the same tree, or none.

The parser treats words and signs differently: a word in front of a parenthesis may start a call,
and the two are not reported alike. So its runs on two spellings do not go through the same branches
where they fail. What they succeed with is what the grammar derives, and the grammar asks of a token
only what it spells. The proof is therefore an induction on derivations (`Derives.respellable`).
-/

namespace Formula

/-! ## Tokens -/

/-- Whether a sign or a word spells an operator, in whatever letter case. -/
def Token.SpellsOperator (token : Token) (op : Operator) : Prop :=
  token.kind ∈ [.operator, .identifier] ∧ Text.lowercase token.text ∈ op.spellings

/-- Whether two tokens differ in nothing but their places, the letter case of a word and the
spelling of an operator. -/
inductive Token.Respelled (token token' : Token) : Prop where
  | same (hkind : token'.kind = token.kind) (htext : token'.text = token.text)
  | word (hkind : token.kind = .identifier) (hkind' : token'.kind = .identifier)
      (htext : Text.lowercase token'.text = Text.lowercase token.text)
  | operator {op : Operator} (h : token.SpellsOperator op) (h' : token'.SpellsOperator op)

/-- Whatever place one spelling of an operator is looked up for, the others are found there as
well. -/
theorem Operator.find?_eq_of_mem {op : Operator} {text text' : String}
    (h : Text.lowercase text ∈ op.spellings) (h' : Text.lowercase text' ∈ op.spellings)
    (fixity : Fixity) : find? text' fixity = find? text fixity := by
  have htable : ∀ op ∈ all, ∀ text ∈ op.spellings, ∀ text' ∈ op.spellings,
      ∀ fixity ∈ [Fixity.before, .between],
        (all.find? fun op => op.fixity == fixity && op.spellings.contains text') =
          all.find? fun op => op.fixity == fixity && op.spellings.contains text := by
    decide +kernel
  exact htable op (mem_all op) _ h _ h' fixity (by cases fixity <;> decide)

namespace Token.Respelled

variable {token token' : Token}

/-- Another spelling goes both ways. -/
theorem symm (h : token.Respelled token') : token'.Respelled token := by
  cases h with
  | same hkind htext => exact .same hkind.symm htext.symm
  | word hkind hkind' htext => exact .word hkind' hkind htext.symm
  | operator h h' => exact .operator h' h

/-- Only words and signs are respelled. -/
theorem eq_of_kind (h : token.Respelled token') (hkind : token.kind ∉ [.operator, .identifier]) :
    token'.kind = token.kind ∧ token'.text = token.text := by
  cases h with
  | same hkind' htext => exact ⟨hkind', htext⟩
  | word hname => exact absurd (by simp [hname]) hkind
  | operator h => exact absurd h.1 hkind

/-- Only signs and words have other spellings, so other kinds stay. -/
theorem kind_eq_iff (h : token.Respelled token') {kind : TokenKind}
    (hkind : kind ∉ [TokenKind.operator, .identifier]) : token'.kind = kind ↔ token.kind = kind := by
  constructor
  · rintro rfl
    exact (h.symm.eq_of_kind hkind).1
  · rintro rfl
    exact (h.eq_of_kind hkind).1

/-- Another spelling stands for the same operator. -/
theorem operator?_eq (h : token.Respelled token') (fixity : Fixity) :
    token'.operator? fixity = token.operator? fixity := by
  cases h with
  | same hkind htext => rw [operator?, operator?, hkind, htext]
  | word hkind hkind' htext =>
    rw [operator?, operator?, hkind, hkind']
    simp only [Operator.find?, htext]
  | operator h h' =>
    rw [operator?_of_kind h.1, operator?_of_kind h'.1, Operator.find?_eq_of_mem h.2 h'.2]

/-- Another spelling keeps the value of a literal. -/
theorem value?_eq (h : token.Respelled token') {value : Value}
    (hvalue : token.value? = some value) : token'.value? = some value := by
  have hleaf : ∀ kind ∈ [TokenKind.number, .decimalNumber, .string, .date, .boolean],
      kind ∉ [TokenKind.operator, .identifier] := by decide
  obtain ⟨hkind, htext⟩ := h.eq_of_kind (hleaf _ (kind_of_value? hvalue))
  rw [value?, hkind, htext]
  exact hvalue

/-- The name of a function stays one. -/
theorem function?_eq (h : token.Respelled token') (hkind : token.kind = .identifier)
    {function : Function} (hfunction : Function.find? token.text = some function) :
    token'.kind = .identifier ∧ Function.find? token'.text = some function := by
  cases h with
  | same hkind' htext => exact ⟨hkind'.trans hkind, htext ▸ hfunction⟩
  | word _ hkind' htext =>
    refine ⟨hkind', ?_⟩
    rw [← hfunction]
    simp only [Function.find?, htext]
  | operator h => exact nomatch (Operator.function?_eq_none_of_mem_spellings h.2).symm.trans hfunction

end Token.Respelled

/-! ## Lists of tokens -/

/-- What is related to two lists one behind the other is made of what is related to each. -/
theorem exists_of_forall₂_append {α β : Type} {R : α → β → Prop} {first second : List α}
    {whole : List β} (h : List.Forall₂ R (first ++ second) whole) :
    ∃ front back, whole = front ++ back ∧ List.Forall₂ R first front ∧
      List.Forall₂ R second back := by
  have hfront := List.forall₂_take first.length h
  have hback := List.forall₂_drop first.length h
  rw [List.take_left] at hfront
  rw [List.drop_left] at hback
  exact ⟨_, _, (List.take_append_drop _ _).symm, hfront, hback⟩

/-- What is related to one element is one element. -/
theorem exists_of_forall₂_singleton {α β : Type} {R : α → β → Prop} {a : α} {whole : List β}
    (h : List.Forall₂ R [a] whole) : ∃ b, whole = [b] ∧ R a b := by
  obtain ⟨b, rest, hab, hrest, rfl⟩ := List.forall₂_cons_left_iff.mp h
  rw [List.forall₂_nil_left_iff.mp hrest]
  exact ⟨b, rfl, hab⟩

section Lists

variable {tokens tokens' : List Token}

/-- What is read of the tokens ends at the same one. -/
theorem beforeEnd_respelled (h : List.Forall₂ Token.Respelled tokens tokens') :
    List.Forall₂ Token.Respelled (beforeEnd tokens) (beforeEnd tokens') := by
  induction h with
  | nil => exact .nil
  | @cons token token' rest rest' hfirst hrest ih =>
    have hend : token'.kind = .eof ↔ token.kind = .eof := hfirst.kind_eq_iff (by decide)
    unfold beforeEnd at ih ⊢
    by_cases heof : token.kind = .eof
    · rw [List.takeWhile_cons_of_neg (by simp [heof]),
        List.takeWhile_cons_of_neg (by simp [hend.mpr heof])]
      exact .nil
    · rw [List.takeWhile_cons_of_pos (by simp [heof]),
        List.takeWhile_cons_of_pos (by simp [mt hend.mp heof])]
      exact .cons hfirst ih

/-- Other spellings do not change the number of tokens of other kinds. -/
theorem countKind_respelled (h : List.Forall₂ Token.Respelled tokens tokens') {kind : TokenKind}
    (hkind : kind ∉ [TokenKind.operator, .identifier]) :
    Parse.countKind kind tokens' = Parse.countKind kind tokens := by
  induction h with
  | nil => rfl
  | cons hfirst _ ih => simp only [Parse.countKind_cons, ih, hfirst.kind_eq_iff hkind]

/-- A pair of parentheses stays one, whatever is respelled between them. -/
theorem exists_parens_of_respelled {left right : Token} (hleft : left.kind = .leftParen)
    (hright : right.kind = .rightParen)
    (h : List.Forall₂ Token.Respelled (left :: tokens ++ [right]) tokens') :
    ∃ left' inside right', tokens' = left' :: inside ++ [right'] ∧ left'.kind = .leftParen ∧
      right'.kind = .rightParen ∧ List.Forall₂ Token.Respelled tokens inside := by
  obtain ⟨left', rest, hleft', hrest, rfl⟩ := List.forall₂_cons_left_iff.mp h
  obtain ⟨inside, close, rfl, hinside, hclose⟩ := exists_of_forall₂_append hrest
  obtain ⟨right', rfl, hright'⟩ := exists_of_forall₂_singleton hclose
  exact ⟨left', inside, right', rfl, (hleft'.kind_eq_iff (by decide)).mpr hleft,
    (hright'.kind_eq_iff (by decide)).mpr hright, hinside⟩

end Lists

/-! ## Derivations -/

/-- Whether tokens derive the tree however they are spelled, with the same nesting. -/
def Respellable (level : Precedence) (tokens : List Token) (tree : Tree) (n : Nat) : Prop :=
  ∀ ⦃tokens'⦄, List.Forall₂ Token.Respelled tokens tokens' → Derives level tokens' tree n

/-- Whether that holds of the arguments of a call. -/
def RespellableArguments (tokens : List Token) (trees : List Tree) (n : Nat) : Prop :=
  ∀ ⦃tokens'⦄, List.Forall₂ Token.Respelled tokens tokens' → DerivesArguments tokens' trees n

namespace Respellable

variable {level : Precedence} {tokens first second : List Token} {token left right : Token}
  {tree leftTree rightTree : Tree} {trees : List Tree} {function : Function} {m n : Nat}

/-- What may be spelled otherwise at a tighter level may be so at a looser one. -/
theorem tighter (h : Respellable level.tighter tokens tree n) : Respellable level tokens tree n :=
  fun _ htokens => .tighter (h htokens)

/-- An infix operation may be spelled otherwise. -/
theorem between {op : BinaryOp} (hop : token.operator? .between = some (.binary op))
    (hlevel : op.precedence = level) (hleft : Respellable level first leftTree m)
    (hright : Respellable level.tighter second rightTree n) :
    Respellable level (first ++ token :: second) (.binary op leftTree rightTree)
      (max m (n + 1)) := by
  intro tokens' h
  obtain ⟨front, rest, rfl, hfront, hrest⟩ := exists_of_forall₂_append h
  obtain ⟨token', back, htoken, hback, rfl⟩ := List.forall₂_cons_left_iff.mp hrest
  exact .between ((htoken.operator?_eq _).trans hop) hlevel (hleft hfront) (hright hback)

/-- So may a prefix operation. -/
theorem before {op : UnaryOp} (hop : token.operator? .before = some (.unary op))
    (h : Respellable .unary tokens tree n) :
    Respellable .unary (token :: tokens) (.unary op tree) (n + 1) := by
  intro tokens' hrest
  obtain ⟨token', back, htoken, hback, rfl⟩ := List.forall₂_cons_left_iff.mp hrest
  exact .before ((htoken.operator?_eq _).trans hop) (h hback)

/-- A literal has one spelling. -/
theorem literal {value : Value} (hvalue : token.value? = some value) :
    Respellable .unary [token] (.literal value) 1 := by
  intro tokens' h
  obtain ⟨token', rfl, htoken⟩ := exists_of_forall₂_singleton h
  exact .literal (htoken.value?_eq hvalue)

/-- So has a reference. -/
theorem reference (hkind : token.kind = .reference) :
    Respellable .unary [token] (.reference token.text) 1 := by
  intro tokens' h
  obtain ⟨token', rfl, htoken⟩ := exists_of_forall₂_singleton h
  obtain ⟨hkind', htext⟩ := htoken.eq_of_kind (by simp [hkind])
  rw [← htext]
  exact .reference (hkind'.trans hkind)

/-- A group may be spelled otherwise inside. -/
theorem group (hleft : left.kind = .leftParen) (hright : right.kind = .rightParen)
    (h : Respellable .or tokens tree n) :
    Respellable .unary (left :: tokens ++ [right]) tree (n + 1) := by
  intro tokens' hall
  obtain ⟨left', inside, right', rfl, hleft', hright', hinside⟩ :=
    exists_parens_of_respelled hleft hright hall
  exact .group hleft' (h hinside) hright'

/-- A call without arguments has one spelling. -/
theorem emptyCall (hname : token.kind = .identifier)
    (hfunction : Function.find? token.text = some function) (hleft : left.kind = .leftParen)
    (hright : right.kind = .rightParen) :
    Respellable .unary [token, left, right] (.call function []) 1 := by
  intro tokens' h
  obtain ⟨token', rest, htoken, hrest, rfl⟩ := List.forall₂_cons_left_iff.mp h
  have hparens : List.Forall₂ Token.Respelled (left :: [] ++ [right]) rest := hrest
  obtain ⟨left', inside, right', rfl, hleft', hright', hinside⟩ :=
    exists_parens_of_respelled hleft hright hparens
  obtain ⟨hname', hfunction'⟩ := htoken.function?_eq hname hfunction
  rw [List.forall₂_nil_left_iff.mp hinside]
  exact .emptyCall hname' hfunction' hleft' hright'

/-- A call may be spelled otherwise in its arguments. -/
theorem call (hname : token.kind = .identifier)
    (hfunction : Function.find? token.text = some function) (hleft : left.kind = .leftParen)
    (hright : right.kind = .rightParen) (h : RespellableArguments tokens trees n) :
    Respellable .unary (token :: left :: tokens ++ [right]) (.call function trees) (n + 1) := by
  intro tokens' hall
  obtain ⟨token', rest, htoken, hrest, rfl⟩ := List.forall₂_cons_left_iff.mp hall
  obtain ⟨left', inside, right', rfl, hleft', hright', hinside⟩ :=
    exists_parens_of_respelled hleft hright hrest
  obtain ⟨hname', hfunction'⟩ := htoken.function?_eq hname hfunction
  exact .call hname' hfunction' hleft' (h hinside) hright'

/-- So may the last argument. -/
theorem last (h : Respellable .or tokens tree n) : RespellableArguments tokens [tree] n :=
  fun _ htokens => .last (h htokens)

/-- And an argument with more of them behind it. -/
theorem more {comma : Token} (hcomma : comma.kind = .comma) (hfirst : Respellable .or first tree m)
    (hrest : RespellableArguments second trees n) :
    RespellableArguments (first ++ comma :: second) (tree :: trees) (max m n) := by
  intro tokens' h
  obtain ⟨front, others, rfl, hfront, hothers⟩ := exists_of_forall₂_append h
  obtain ⟨comma', back, hcomma', hback, rfl⟩ := List.forall₂_cons_left_iff.mp hothers
  exact .more (hfirst hfront) ((hcomma'.kind_eq_iff (by decide)).mpr hcomma) (hrest hback)

end Respellable

mutual

/-- Whatever the grammar derives may be spelled otherwise. -/
theorem Derives.respellable {level : Precedence} {tokens : List Token} {tree : Tree} {n : Nat} :
    Derives level tokens tree n → Respellable level tokens tree n
  | .tighter h => h.respellable.tighter
  | .between hop hlevel hleft hright => .between hop hlevel hleft.respellable hright.respellable
  | .before hop hoperand => .before hop hoperand.respellable
  | .literal hvalue => .literal hvalue
  | .reference hkind => .reference hkind
  | .group hleft h hright => .group hleft hright h.respellable
  | .emptyCall hname hfunction hleft hright => .emptyCall hname hfunction hleft hright
  | .call hname hfunction hleft harguments hright =>
    .call hname hfunction hleft hright harguments.respellable

/-- So may the arguments of a call. -/
theorem DerivesArguments.respellable {tokens : List Token} {trees : List Tree} {n : Nat} :
    DerivesArguments tokens trees n → RespellableArguments tokens trees n
  | .last h => h.respellable.last
  | .more hfirst hcomma hrest => Respellable.more hcomma hfirst.respellable hrest.respellable

end

/-! ## Trees -/

/-- Tokens that are spelled otherwise are parsed to the same tree. -/
theorem ofTokens_of_respelled {tokens tokens' : List Token}
    (h : List.Forall₂ Token.Respelled tokens tokens') {tree : Tree}
    (htree : Tree.ofTokens tokens = .ok tree) : Tree.ofTokens tokens' = .ok tree := by
  obtain ⟨hcount, n, hderives, hlimits⟩ := ofTokens_iff_derives.mp htree
  refine ofTokens_iff_derives.mpr ⟨?_, n, hderives.respellable (beforeEnd_respelled h), hlimits⟩
  rw [countKind_respelled h (by decide), countKind_respelled h (by decide), hcount]

/-- The spelling of operators and the letter case of words do not matter to the tree: tokens that
are spelled differently form the same tree, and they form one exactly if the others do. -/
theorem ofTokens_respelled {tokens tokens' : List Token}
    (h : List.Forall₂ Token.Respelled tokens tokens') (tree : Tree) :
    Tree.ofTokens tokens' = .ok tree ↔ Tree.ofTokens tokens = .ok tree :=
  ⟨ofTokens_of_respelled (h.imp fun _ _ hrespelled => hrespelled.symm).flip, ofTokens_of_respelled h⟩

/-- The formula `not (Sum([a]))` and its spelling `!(SUM([a]))`: the first word in front of a
parenthesis is an operator, the second the name of a call. -/
theorem ofTokens_respelled_not :
    let words : List Token := [⟨.identifier, "not", 0⟩, ⟨.leftParen, "(", 4⟩,
      ⟨.identifier, "Sum", 5⟩, ⟨.leftParen, "(", 8⟩, ⟨.reference, "a", 9⟩, ⟨.rightParen, ")", 12⟩,
      ⟨.rightParen, ")", 13⟩, Token.eof 14]
    let signs : List Token := [⟨.operator, "!", 0⟩, ⟨.leftParen, "(", 1⟩,
      ⟨.identifier, "SUM", 2⟩, ⟨.leftParen, "(", 5⟩, ⟨.reference, "a", 6⟩, ⟨.rightParen, ")", 9⟩,
      ⟨.rightParen, ")", 10⟩, Token.eof 11]
    List.Forall₂ Token.Respelled words signs ∧
      Tree.ofTokens signs = .ok (.unary .not (.call .sum [.reference "a"])) := by
  intro words signs
  have hnot : Token.Respelled ⟨.identifier, "not", 0⟩ ⟨.operator, "!", 0⟩ :=
    @Token.Respelled.operator _ _ (.unary .not) ⟨by decide, by decide +kernel⟩
      ⟨by decide, by decide +kernel⟩
  have hsum : Token.Respelled ⟨.identifier, "Sum", 5⟩ ⟨.identifier, "SUM", 2⟩ :=
    .word rfl rfl (by decide +kernel)
  have hsigns : List.Forall₂ Token.Respelled words signs :=
    .cons hnot (.cons (.same rfl rfl) (.cons hsum (.cons (.same rfl rfl) (.cons (.same rfl rfl)
      (.cons (.same rfl rfl) (.cons (.same rfl rfl) (.cons (.same rfl rfl) .nil)))))))
  have hop : Token.operator? ⟨.identifier, "not", 0⟩ .before = some (.unary .not) :=
    @Operator.find?_of_mem_spellings (.unary .not) "not" (by decide)
  have hfind : Function.find? "Sum" = some .sum := Function.find?_name .sum
  have hcall := @Derives.call ⟨.identifier, "Sum", 5⟩ ⟨.leftParen, "(", 8⟩ ⟨.rightParen, ")", 12⟩
    .sum [⟨.reference, "a", 9⟩] _ _ rfl hfind rfl (.last (.loosen (.reference rfl) (by decide))) rfl
  have hgroup := @Derives.group ⟨.leftParen, "(", 4⟩ ⟨.rightParen, ")", 13⟩ _ _ _ rfl
    (hcall.loosen (by decide)) rfl
  have hwords : Tree.ofTokens words = .ok (.unary .not (.call .sum [.reference "a"])) :=
    ofTokens_iff_derives.mpr
      ⟨rfl, 4, (Derives.before hop hgroup).loosen (by decide), by decide, by decide, by decide⟩
  exact ⟨hsigns, (ofTokens_respelled hsigns _).mpr hwords⟩

end Formula
