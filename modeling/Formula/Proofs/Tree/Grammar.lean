import Formula.Tree.Parser

/-!
# The grammar of formulas

`Derives level tokens tree nesting` is the grammar as a relation: at the given level the tokens form
the tree, and at most `nesting` expressions are open at a time while they are read. Every level of
infix operators is a left-associative chain of the next tighter level, the tightest level is that of
the prefix operators, and below it stand the literals, references, groups and calls. The grammar
does not mention the parser.

The nesting grows with every operand that is read as an expression of its own: that of a prefix
operator, the right one of an infix operator, the inside of a group and each argument of a call.
-/

namespace Formula

namespace Token

/-- The operator that a sign or a word spells at a place. -/
def operator? (token : Token) (fixity : Fixity) : Option Operator :=
  match token.kind with
  | .operator | .identifier => Operator.find? token.text fixity
  | _ => none

/-- The value of a literal with a valid text. -/
def value? (token : Token) : Option Value :=
  match token.kind with
  | .number => (Integer.read? token.text.toList).map .integer
  | .decimalNumber => (Decimal.read? token.text.toList).map .decimal
  | .string => some (.string token.text)
  | .date => (Calendar.read? token.text.toList).map .dateTime
  | .boolean => some (.boolean (token.text.toList.map Char.toLower == "true".toList))
  | _ => none

/-- Whether a token can stand where an operand has to begin. -/
def MayBegin (token : Token) : Prop :=
  token.kind ≠ .eof ∧ token.kind ≠ .rightParen ∧ token.kind ≠ .comma

end Token

mutual

/-- Whether tokens form a tree at a level, with a nesting. -/
inductive Derives : Precedence → List Token → Tree → Nat → Prop where
  /-- A level contains the next tighter one. -/
  | tighter {level : Precedence} {tokens : List Token} {tree : Tree} {n : Nat}
      (h : Derives level.tighter tokens tree n) : Derives level tokens tree n
  /-- An infix operator takes everything before it at its own level as its left operand. -/
  | between {level : Precedence} {op : BinaryOp} {token : Token} {first second : List Token}
      {left right : Tree} {m n : Nat} (hop : token.operator? .between = some (.binary op))
      (hlevel : op.precedence = level) (hleft : Derives level first left m)
      (hright : Derives level.tighter second right n) :
      Derives level (first ++ token :: second) (.binary op left right) (max m (n + 1))
  | before {op : UnaryOp} {token : Token} {tokens : List Token} {operand : Tree} {n : Nat}
      (hop : token.operator? .before = some (.unary op))
      (hoperand : Derives .unary tokens operand n) :
      Derives .unary (token :: tokens) (.unary op operand) (n + 1)
  | literal {token : Token} {value : Value} (hvalue : token.value? = some value) :
      Derives .unary [token] (.literal value) 1
  | reference {token : Token} (hkind : token.kind = .reference) :
      Derives .unary [token] (.reference token.text) 1
  | group {left right : Token} {tokens : List Token} {tree : Tree} {n : Nat}
      (hleft : left.kind = .leftParen) (h : Derives .or tokens tree n)
      (hright : right.kind = .rightParen) :
      Derives .unary (left :: tokens ++ [right]) tree (n + 1)
  | emptyCall {name left right : Token} {function : Function} (hname : name.kind = .identifier)
      (hfunction : Function.find? name.text = some function) (hleft : left.kind = .leftParen)
      (hright : right.kind = .rightParen) :
      Derives .unary [name, left, right] (.call function []) 1
  | call {name left right : Token} {function : Function} {tokens : List Token} {trees : List Tree}
      {n : Nat} (hname : name.kind = .identifier)
      (hfunction : Function.find? name.text = some function) (hleft : left.kind = .leftParen)
      (harguments : DerivesArguments tokens trees n) (hright : right.kind = .rightParen) :
      Derives .unary (name :: left :: tokens ++ [right]) (.call function trees) (n + 1)

/-- Whether tokens form one or more trees with commas between them, the deepest with a nesting. -/
inductive DerivesArguments : List Token → List Tree → Nat → Prop where
  | last {tokens : List Token} {tree : Tree} {n : Nat} (h : Derives .or tokens tree n) :
      DerivesArguments tokens [tree] n
  | more {comma : Token} {first rest : List Token} {tree : Tree} {trees : List Tree} {m n : Nat}
      (hfirst : Derives .or first tree m) (hcomma : comma.kind = .comma)
      (hrest : DerivesArguments rest trees n) :
      DerivesArguments (first ++ comma :: rest) (tree :: trees) (max m n)

end

/-- Whether every call in the tree has a number of arguments that its function accepts. -/
def Tree.callsAccepted : Tree → Bool
  | literal _ | reference _ => true
  | unary _ operand => operand.callsAccepted
  | binary _ left right => left.callsAccepted && right.callsAccepted
  | call function arguments => function.arity.accepts arguments.length && allAccepted arguments
where
  /-- Whether that holds in each of several trees. -/
  allAccepted : List Tree → Bool
    | [] => true
    | tree :: rest => tree.callsAccepted && allAccepted rest

/-! ## Levels -/

/-- No level is tighter than that of the prefix operators. -/
theorem Precedence.rank_le_unary (level : Precedence) : level.rank ≤ Precedence.unary.rank := by
  cases level <;> decide

/-- The next tighter level is no looser. -/
theorem Precedence.rank_le_tighter (level : Precedence) : level.rank ≤ level.tighter.rank := by
  cases level <;> decide

/-- Above the level of an infix operator there is a tighter one. -/
theorem BinaryOp.rank_tighter (op : BinaryOp) :
    op.precedence.tighter.rank = op.precedence.rank + 1 := by
  cases op <;> rfl

/-- No level is looser than that of disjunctions. -/
theorem BinaryOp.or_rank_le (op : BinaryOp) : Precedence.or.rank ≤ op.precedence.rank := by
  cases op <;> decide

/-- What stands at a level stands at every looser one as well. -/
theorem Derives.loosen {loose tight : Precedence} {tokens : List Token} {tree : Tree} {n : Nat}
    (h : Derives tight tokens tree n) (hrank : loose.rank ≤ tight.rank) :
    Derives loose tokens tree n := by
  obtain ⟨k, hk⟩ := Nat.exists_eq_add_of_le hrank
  induction k generalizing loose with
  | zero => exact Precedence.rank_injective hk ▸ h
  | succ k ih =>
    -- one level up, unless `loose` is the tightest already, which has nothing above it
    have htighter : loose.tighter.rank = loose.rank + 1 := by
      have := tight.rank_le_unary
      rw [Precedence.rank_tighter]
      omega
    exact .tighter (ih (by omega) (by omega))

/-! ## Tokens of a derivation -/

/-- Only signs and words spell operators. -/
theorem Token.kind_of_operator? {token : Token} {fixity : Fixity} {op : Operator}
    (h : token.operator? fixity = some op) : token.kind ∈ [.operator, .identifier] := by
  unfold operator? at h
  split at h
  case h_3 => exact nomatch h
  all_goals
    rename_i hkind
    rw [hkind]
    decide

/-- The operator of a token is that of its text. -/
theorem Token.find?_of_operator? {token : Token} {fixity : Fixity} {op : Operator}
    (h : token.operator? fixity = some op) : Operator.find? token.text fixity = some op := by
  unfold operator? at h
  split at h
  · exact h
  · exact h
  · exact nomatch h

/-- A sign or a word spells whatever operator its text does. -/
theorem Token.operator?_of_kind {token : Token} (h : token.kind ∈ [.operator, .identifier])
    (fixity : Fixity) : token.operator? fixity = Operator.find? token.text fixity := by
  unfold operator?
  rw [List.mem_cons, List.mem_singleton] at h
  rcases h with h | h <;> rw [h]

/-- Only literals have a value. -/
theorem Token.kind_of_value? {token : Token} {value : Value} (h : token.value? = some value) :
    token.kind ∈ [.number, .decimalNumber, .string, .date, .boolean] := by
  unfold value? at h
  split at h
  case h_6 => exact nomatch h
  all_goals
    rename_i hkind
    rw [hkind]
    decide

/-- An end spells no operator. -/
theorem Token.ne_eof_of_operator? {token : Token} {fixity : Fixity} {op : Operator}
    (h : token.operator? fixity = some op) : token.kind ≠ .eof := by
  intro heof
  rw [operator?, heof] at h
  exact nomatch h

/-- An end has no value. -/
theorem Token.ne_eof_of_value? {token : Token} {value : Value} (h : token.value? = some value) :
    token.kind ≠ .eof := by
  intro heof
  rw [value?, heof] at h
  exact nomatch h

namespace Parse

variable {kind : TokenKind} {token : Token} {tokens first second : List Token}

/-- Tokens of a kind are counted one by one. -/
theorem countKind_cons : countKind kind (token :: tokens) =
    countKind kind tokens + if token.kind = kind then 1 else 0 := by
  simp only [countKind, List.countP_cons, decide_eq_true_eq]

/-- Those of two lists are counted together. -/
theorem countKind_append :
    countKind kind (first ++ second) = countKind kind first + countKind kind second :=
  List.countP_append

end Parse

/-- What the tokens of an operand look like, whatever tree they form. -/
structure IsOperand (tokens : List Token) : Prop where
  begins : ∃ first rest, tokens = first :: rest ∧ first.MayBegin
  ends : ∃ init last, tokens = init ++ [last] ∧ last.endsOperand = true
  not_eof : ∀ token ∈ tokens, token.kind ≠ .eof
  balanced : Parse.countKind .leftParen tokens = Parse.countKind .rightParen tokens

namespace IsOperand

variable {token left right : Token} {tokens first second : List Token}

/-- A literal or a reference is an operand. -/
theorem single
    (hkind : token.kind ∈ [.reference, .number, .decimalNumber, .string, .date, .boolean]) :
    IsOperand [token] := by
  have hleaf : ∀ kind ∈ [TokenKind.reference, .number, .decimalNumber, .string, .date, .boolean],
      kind ≠ .eof ∧ kind ≠ .rightParen ∧ kind ≠ .comma ∧ kind ≠ .leftParen := by decide
  obtain ⟨heof, hright, hcomma, hleft⟩ := hleaf _ hkind
  refine ⟨⟨token, [], rfl, heof, hright, hcomma⟩, ⟨[], token, rfl, ?_⟩, ?_, ?_⟩
  · unfold Token.endsOperand
    split <;> simp_all
  · exact List.forall_mem_singleton.mpr heof
  · rw [Parse.countKind_cons, Parse.countKind_cons, if_neg hleft, if_neg hright]
    rfl

/-- An operand stays one behind a prefix operator or a name. -/
theorem cons (h : IsOperand tokens) (hkind : token.kind ∈ [.operator, .identifier]) :
    IsOperand (token :: tokens) := by
  have hword : ∀ kind ∈ [TokenKind.operator, .identifier],
      kind ≠ .eof ∧ kind ≠ .rightParen ∧ kind ≠ .comma ∧ kind ≠ .leftParen := by decide
  obtain ⟨heof, hright, hcomma, hleft⟩ := hword _ hkind
  obtain ⟨init, last, htokens, hend⟩ := h.ends
  refine ⟨⟨token, tokens, rfl, heof, hright, hcomma⟩,
    ⟨token :: init, last, by rw [htokens]; rfl, hend⟩, ?_, ?_⟩
  · exact List.forall_mem_cons.mpr ⟨heof, h.not_eof⟩
  · rw [Parse.countKind_cons, Parse.countKind_cons, if_neg hleft, if_neg hright, h.balanced]

/-- Two operands with an infix operator or a comma between them look like one operand. -/
theorem join (hfirst : IsOperand first) (hsecond : IsOperand second)
    (hkind : token.kind ∈ [.comma, .operator, .identifier]) :
    IsOperand (first ++ token :: second) := by
  have hword : ∀ kind ∈ [TokenKind.comma, .operator, .identifier],
      kind ≠ .eof ∧ kind ≠ .rightParen ∧ kind ≠ .leftParen := by decide
  obtain ⟨heof, hright, hleft⟩ := hword _ hkind
  obtain ⟨begin, rest, hbegins, hbegin⟩ := hfirst.begins
  obtain ⟨init, last, hends, hend⟩ := hsecond.ends
  refine ⟨⟨begin, rest ++ token :: second, by rw [hbegins]; rfl, hbegin⟩,
    ⟨first ++ token :: init, last, by rw [hends, List.append_assoc]; rfl, hend⟩, ?_, ?_⟩
  · rw [List.forall_mem_append, List.forall_mem_cons]
    exact ⟨hfirst.not_eof, heof, hsecond.not_eof⟩
  · rw [Parse.countKind_append, Parse.countKind_append, Parse.countKind_cons,
      Parse.countKind_cons, if_neg hleft, if_neg hright, hfirst.balanced, hsecond.balanced]

/-- So are parentheses around an operand or around nothing. -/
theorem parens (hleft : left.kind = .leftParen) (hright : right.kind = .rightParen)
    (htokens : tokens = [] ∨ IsOperand tokens) : IsOperand (left :: tokens ++ [right]) := by
  have hinside : (∀ token ∈ tokens, token.kind ≠ .eof) ∧
      Parse.countKind .leftParen tokens = Parse.countKind .rightParen tokens := by
    rcases htokens with rfl | h
    · exact ⟨by simp, rfl⟩
    · exact ⟨h.not_eof, h.balanced⟩
  refine ⟨⟨left, tokens ++ [right], rfl, by rw [Token.MayBegin, hleft]; decide⟩,
    ⟨left :: tokens, right, rfl, by rw [Token.endsOperand, hright]⟩, ?_, ?_⟩
  · rw [List.forall_mem_append, List.forall_mem_cons, List.forall_mem_singleton, hleft, hright]
    exact ⟨⟨by decide, hinside.1⟩, by decide⟩
  · simp only [Parse.countKind_append, Parse.countKind_cons, hleft, hright, hinside.2]
    exact Nat.add_right_comm _ _ _

end IsOperand

mutual

/-- Tokens that derive a tree are an operand. -/
theorem Derives.isOperand {level : Precedence} {tokens : List Token} {tree : Tree} {n : Nat} :
    Derives level tokens tree n → IsOperand tokens
  | .tighter h => h.isOperand
  | .between hop _ hleft hright =>
    hleft.isOperand.join hright.isOperand
      (List.mem_cons_of_mem _ (Token.kind_of_operator? hop))
  | .before hop hoperand => hoperand.isOperand.cons (Token.kind_of_operator? hop)
  | .literal hvalue => .single (List.mem_cons_of_mem _ (Token.kind_of_value? hvalue))
  | .reference hkind => .single (by simp [hkind])
  | .group hleft h hright => .parens hleft hright (.inr h.isOperand)
  | .emptyCall hname _ hleft hright =>
    IsOperand.cons (.parens hleft hright (.inl rfl)) (by simp [hname])
  | .call hname _ hleft harguments hright =>
    IsOperand.cons (.parens hleft hright (.inr harguments.isOperand)) (by simp [hname])

/-- So are the arguments of a call. -/
theorem DerivesArguments.isOperand {tokens : List Token} {trees : List Tree} {n : Nat} :
    DerivesArguments tokens trees n → IsOperand tokens
  | .last h => h.isOperand
  | .more hfirst hcomma hrest =>
    hfirst.isOperand.join hrest.isOperand (by simp [hcomma])

end

end Formula
