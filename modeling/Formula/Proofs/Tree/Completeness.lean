import Formula.Proofs.Tree.Runs
import Formula.Proofs.Text.LetterCase

/-!
# What is derivable the parser reads

Tokens that derive a tree with accepted calls are read as that tree, or the parser says that they are
too deep. The latter only happens if the nesting of the derivation or the height of the tree is
beyond the limits: `Room` says that they are not.

The grammar nests a chain of infix operators to the left, whereas the parser reads its first operand
and then goes round a loop. `Leads` bridges the two: a chain ends with whatever the loop ends with
that starts behind the tokens of a derivation with its tree. It is said in terms of what the loop
ends with, so a limit may stop the chain before it gets there. `Complete` says that a derivation
leads behind its tokens wherever they stand, and each rule of the grammar preserves it.
-/

namespace Formula

/-! ## Places of operands -/

/-- What an operand has to follow does not end one. -/
theorem Token.endsOperand_eq_false {token : Token}
    (h : token.kind ∈ [.leftParen, .comma, .operator, .identifier]) :
    token.endsOperand = false := by
  unfold endsOperand
  split <;> simp_all

/-- The parser stands in front of an operand where one may begin. -/
theorem IsOperand.current_mayBegin {p q : Parser} {tokens : List Token} (h : IsOperand tokens)
    (hreads : p.Reads tokens q) : p.current.MayBegin := by
  obtain ⟨first, rest, rfl, hbegin⟩ := h.begins
  rw [hreads.current_eq]
  exact hbegin

/-- Behind an operand, the token consumed last ends one. -/
theorem IsOperand.previous_endsOperand {p q : Parser} {tokens : List Token} (h : IsOperand tokens)
    (hreads : p.Reads tokens q) : q.previous.any Token.endsOperand = true := by
  obtain ⟨init, last, rfl, hend⟩ := h.ends
  rw [hreads.previous_eq]
  exact hend

/-- Whether the parser stands where an operand has to begin, and has a level left for each
expression inside it. -/
structure Parser.Ready (p : Parser) (levels : Nat) : Prop where
  previous : p.previous.any Token.endsOperand = false
  depth : p.depth + levels ≤ maxDepth

/-- Behind an opening token, a comma or an operator, no operand has ended. -/
theorem Parser.Reads.previous_of_kind {p q : Parser} {token : Token} (h : p.Reads [token] q)
    (hkind : token.kind ∈ [.leftParen, .comma, .operator, .identifier]) :
    q.previous.any Token.endsOperand = false := by
  have hprevious : q.previous = some token := by
    rw [Parser.previous, h.consumed]
    rfl
  rw [hprevious]
  exact Token.endsOperand_eq_false hkind

/-- So the parser is ready for an operand there. -/
theorem Parser.Reads.ready {p q : Parser} {token : Token} {levels : Nat} (h : p.Reads [token] q)
    (hkind : token.kind ∈ [.leftParen, .comma, .operator, .identifier])
    (hdepth : p.depth + levels ≤ maxDepth) : q.Ready levels :=
  ⟨h.previous_of_kind hkind, by rw [h.depth]; exact hdepth⟩

/-- The name of a function in front of a parenthesis starts a call. -/
theorem Parser.Reads.startsCall {p q : Parser} {name left : Token} {tokens : List Token}
    {function : Function} (h : p.Reads (name :: left :: tokens) q)
    (hfunction : Function.find? name.text = some function) (hleft : left.kind = .leftParen) :
    p.startsCall = true := by
  have hremaining := h.remaining
  rw [List.cons_append, List.cons_append, List.cons.injEq] at hremaining
  have hnext : p.nextKind = .leftParen := by
    rw [Parser.nextKind, hremaining.2]
    exact hleft
  rw [Parser.startsCall, hnext, hremaining.1, hfunction]
  rfl

/-- No function has the name of a prefix operator, so such a name is not taken for a call. -/
theorem Parser.startsCall_eq_false_of_operator? {p : Parser} {op : Operator}
    (h : p.current.operator? .before = some op) : p.startsCall = false := by
  have hfind := Token.find?_of_operator? h
  rw [startsCall, hfind, Operator.function?_eq_none hfind]
  exact Bool.and_false _

/-! ## Room for a derivation -/

/-- Whether the limits leave room for a derivation of a nesting, with a tree of a height. -/
structure Room (levels nesting height : Nat) : Prop where
  nesting : nesting ≤ levels
  height : height ≤ maxDepth

namespace Room

variable {levels m n height height' : Nat}

/-- Room for an operation is room for its left operand, at the same level. -/
theorem left (h : Room (levels + 1) (max m (n + 1)) (max height height' + 1)) :
    Room (levels + 1) m height :=
  ⟨by have := h.nesting; omega, by have := h.height; omega⟩

/-- And for its right operand, one level below. -/
theorem right (h : Room (levels + 1) (max m (n + 1)) (max height height' + 1)) :
    Room levels n height' :=
  ⟨by have := h.nesting; omega, by have := h.height; omega⟩

/-- Room for a group, a call or a prefix operation is room for what is inside, one level below. -/
theorem inside (h : Room (levels + 1) (n + 1) height') (hheight : height ≤ height') :
    Room levels n height :=
  ⟨Nat.le_of_succ_le_succ h.nesting, Nat.le_trans hheight h.height⟩

/-- Room for several arguments is room for the first one. -/
theorem first (h : Room levels (max m n) (max height height')) : Room levels m height :=
  ⟨Nat.le_trans (Nat.le_max_left ..) h.nesting, Nat.le_trans (Nat.le_max_left ..) h.height⟩

/-- And for the others. -/
theorem others (h : Room levels (max m n) (max height height')) : Room levels n height' :=
  ⟨Nat.le_trans (Nat.le_max_right ..) h.nesting, Nat.le_trans (Nat.le_max_right ..) h.height⟩

end Room

/-! ## Derivations -/

/-- Whether a chain that starts at `p` ends with whatever the loop ends with that starts at `q` with
the tree. -/
def Leads (room : Prop) (levels : Nat) (min : Precedence) (p : Parser) (tree : Tree) (q : Parser) :
    Prop :=
  ∀ ⦃after⦄, (∀ count, q.following.length < count →
      Runs (Parse.chainTail (Parse.expression levels) min count (tree, tree.height)) q after
        (TooDeep room)) →
    Runs (Parse.chain (Parse.expression levels) min) p after (TooDeep room)

/-- Whether tokens that form a tree lead behind them wherever they stand. -/
def Complete (level : Precedence) (tokens : List Token) (tree : Tree) (n : Nat) : Prop :=
  ∀ ⦃room levels min p q⦄, p.Ready levels → p.Reads tokens q → tree.callsAccepted = true →
    min.rank ≤ level.rank → q.Stops level.tighter →
    (room → Room (levels + 1) n tree.height) → Leads room levels min p tree q

/-- Whether tokens that form the arguments of a call are read as such wherever they stand. -/
def CompleteArguments (tokens : List Token) (trees : List Tree) (n : Nat) : Prop :=
  ∀ ⦃room levels p q count⦄, p.Ready levels → p.Reads tokens q →
    Tree.callsAccepted.allAccepted trees = true → q.current.kind = .rightParen →
    (room → Room levels n (Tree.height.heightAll trees)) → p.following.length < count →
    Arrives room (Parse.arguments (Parse.expression levels) count) p
      (trees, Tree.height.heightAll trees) q

/-- An operand that is read leads behind itself. -/
theorem Leads.of_primary {room : Prop} {levels : Nat} {min : Precedence} {p q : Parser}
    {tree : Tree}
    (h : Arrives room (Parse.primary (Parse.expression levels)) p (tree, tree.height) q) :
    Leads room levels min p tree q := by
  intro after hloop
  apply h.bind
  apply runs_get_bind
  exact hloop _ (Nat.lt_succ_self _)

namespace Complete

variable {level : Precedence} {tokens first second : List Token} {token left right : Token}
  {tree leftTree rightTree : Tree} {trees : List Tree} {room : Prop} {levels m n : Nat}
  {p q : Parser}

/-- The tokens are read as a whole expression, unless that takes more levels than there are. -/
theorem expression (h : Complete level tokens tree n) {min : Precedence} (hp : p.Ready levels)
    (hreads : p.Reads tokens q) (hpos : 0 < n) (hcalls : tree.callsAccepted = true)
    (hmin : min.rank ≤ level.rank) (hstops : q.Stops min)
    (hroom : room → Room levels n tree.height) :
    Arrives room (Parse.expression levels min) p (tree, tree.height) q := by
  cases levels with
  | zero => exact ⟨rfl, fun h => absurd (hroom h).nesting (Nat.not_le_of_gt hpos)⟩
  | succ levels =>
    have hdepth := hp.depth
    apply runs_get_bind
    rw [if_neg (by omega)]
    have hopened : Parser.Ready { p with depth := p.depth + 1 } levels :=
      ⟨hp.previous, by show p.depth + 1 + levels ≤ maxDepth; omega⟩
    have hleads : Leads room levels min { p with depth := p.depth + 1 } tree
        { q with depth := p.depth + 1 } :=
      h hopened (hreads.atDepth (p.depth + 1)) hcalls hmin
        (hstops.tighten (Nat.le_trans hmin level.rank_le_tighter)) hroom
    apply runs_opening
    apply hleads
    intro count hcount
    obtain ⟨count, rfl⟩ := Nat.exists_eq_add_one.mpr (Nat.zero_lt_of_lt hcount)
    have hend : Yields (Parse.chainTail (Parse.expression levels) min (count + 1)
        (tree, tree.height)) { q with depth := p.depth + 1 } (tree, tree.height)
        { q with depth := p.depth + 1 } :=
      Parse.yields_chainTail_succ.mpr (.inl ⟨hstops, rfl, rfl⟩)
    refine hend.runs ⟨rfl, ?_⟩
    show { q with depth := p.depth + 1 - 1 } = q
    rw [Nat.add_sub_cancel, ← hreads.depth]

/-- What is complete at a tighter level is so at a looser one. -/
theorem tighter (h : Complete level.tighter tokens tree n) : Complete level tokens tree n := by
  intro room levels min p q hp hreads hcalls hmin hstops hroom
  exact h hp hreads hcalls (Nat.le_trans hmin level.rank_le_tighter)
    (hstops.tighten level.tighter.rank_le_tighter) hroom

/-- An infix operation is complete if its operands are. -/
theorem between {op : BinaryOp} (hop : token.operator? .between = some (.binary op))
    (hlevel : op.precedence = level) (hfirst : IsOperand first) (hsecond : IsOperand second)
    (hpos : 0 < n) (hleft : Complete level first leftTree m)
    (hright : Complete level.tighter second rightTree n) :
    Complete level (first ++ token :: second) (.binary op leftTree rightTree) (max m (n + 1)) := by
  subst hlevel
  intro room levels min p q hp hreads hcalls hmin hstops hroom after hloop
  obtain ⟨hcallsLeft, hcallsRight⟩ := Bool.and_eq_true_iff.mp hcalls
  obtain ⟨mid, hreads₁, hreads⟩ := hreads.split
  obtain ⟨rfl, hreads₂, hreads₃⟩ := hreads.split_cons (Token.ne_eof_of_operator? hop)
  -- behind the left operand stands its infix operator
  have hinfix : mid.infixOperator? = some (.binary op) := by
    rw [Parser.infixOperator?_eq, if_pos (hfirst.previous_endsOperand hreads₁)]
    exact hop
  have hstops₁ : mid.Stops op.precedence.tighter := by
    intro op' hop'
    cases hinfix.symm.trans hop'
    rw [op.rank_tighter]
    exact Nat.lt_succ_self _
  -- the right operand is an expression of its own
  have hready : mid.advance.Ready levels :=
    hreads₂.ready (List.mem_cons_of_mem _ (List.mem_cons_of_mem _ (Token.kind_of_operator? hop)))
      (by rw [hreads₁.depth]; exact hp.depth)
  have hoperand : Arrives room (Parse.expression levels op.precedence.tighter) mid.advance
      (rightTree, rightTree.height) q :=
    hright.expression hready hreads₃ hpos hcallsRight Nat.le.refl hstops
      fun h => (hroom h).right
  apply hleft hp hreads₁ hcallsLeft hmin hstops₁ fun h => (hroom h).left
  intro count hcount
  obtain ⟨count, rfl⟩ := Nat.exists_eq_add_one.mpr (Nat.zero_lt_of_lt hcount)
  -- each round of the loop leaves fewer tokens, so the bound of the loop is never met
  have hshorter := (hreads₂.trans hreads₃).length_following
  rw [List.length_append, List.length_singleton] at hshorter
  exact Parse.runs_chainTail hinfix hmin (hsecond.current_mayBegin hreads₃) hoperand
    (fun h => (hroom h).height) (hloop count (by omega))

/-- A prefix operation is complete if its operand is. -/
theorem before {op : UnaryOp} (hop : token.operator? .before = some (.unary op))
    (hpos : 0 < n) (htokens : IsOperand tokens) (h : Complete .unary tokens tree n) :
    Complete .unary (token :: tokens) (.unary op tree) (n + 1) := by
  intro room levels min p q hp hreads hcalls hmin hstops hroom
  obtain ⟨rfl, hreads₁, hreads₂⟩ := hreads.split_cons (Token.ne_eof_of_operator? hop)
  have hkind := Token.kind_of_operator? hop
  have hready : p.advance.Ready levels :=
    hreads₁.ready (List.mem_cons_of_mem _ (List.mem_cons_of_mem _ hkind)) hp.depth
  have hoperand : Arrives room (Parse.expression levels .unary) p.advance (tree, tree.height) q :=
    h.expression hready hreads₂ hpos hcalls Nat.le.refl hstops
      fun h => (hroom h).inside (Nat.le_succ _)
  have hmatch : matchToken p.current.text p.previous = some (.unary op) := by
    rw [matchToken, fixityAfter, if_neg (Bool.eq_false_iff.mp hp.previous)]
    exact Token.find?_of_operator? hop
  exact .of_primary (Parse.arrives_prefixOperation hkind
    (fun _ => Parser.startsCall_eq_false_of_operator? hop) hmatch
    (htokens.current_mayBegin hreads₂) hoperand fun h => (hroom h).height)

/-- A literal is complete. -/
theorem literal {value : Value} (hvalue : token.value? = some value) :
    Complete .unary [token] (.literal value) 1 := by
  intro room levels min p q hp hreads hcalls hmin hstops hroom
  obtain ⟨rfl, rfl⟩ := hreads.advance_eq (Token.ne_eof_of_value? hvalue)
  exact .of_primary (Parse.yields_primary.mpr (.inl ⟨value, hvalue, rfl, rfl, rfl⟩)).arrives

/-- So is a reference. -/
theorem reference (hkind : token.kind = .reference) :
    Complete .unary [token] (.reference token.text) 1 := by
  intro room levels min p q hp hreads hcalls hmin hstops hroom
  obtain ⟨rfl, rfl⟩ := hreads.advance_eq (by simp [hkind])
  exact .of_primary (Parse.yields_primary.mpr (.inr (.inl ⟨hkind, rfl, rfl, rfl⟩))).arrives

/-- A group is complete if its inside is. -/
theorem group (hleft : left.kind = .leftParen) (hright : right.kind = .rightParen) (hpos : 0 < n)
    (h : Complete .or tokens tree n) :
    Complete .unary (left :: tokens ++ [right]) tree (n + 1) := by
  intro room levels min p q hp hreads hcalls hmin hstops hroom
  obtain ⟨rfl, hreads₁, hreads⟩ := hreads.split_cons (by simp [hleft])
  obtain ⟨r, hreads₂, hreads₃⟩ := hreads.split
  obtain ⟨rfl, rfl⟩ := hreads₃.advance_eq (by simp [hright])
  have hready : p.advance.Ready levels := hreads₁.ready (by simp [hleft]) hp.depth
  have hinner : Arrives room (Parse.expression levels .lowest) p.advance (tree, tree.height) r :=
    h.expression hready hreads₂ hpos hcalls (by decide) (Parser.stops_of_kind (by simp [hright]))
      fun h => (hroom h).inside (Nat.le_refl _)
  exact .of_primary (Parse.arrives_group hleft hinner hright)

/-- The last argument is complete if its tokens are. -/
theorem last (hpos : 0 < n) (h : Complete .or tokens tree n) :
    CompleteArguments tokens [tree] n := by
  intro room levels p q count hp hreads hcalls hright hroom hcount
  obtain ⟨count, rfl⟩ := Nat.exists_eq_add_one.mpr (Nat.zero_lt_of_lt hcount)
  rw [Tree.height.heightAll, Tree.height.heightAll, Nat.max_zero] at hroom ⊢
  rw [Tree.callsAccepted.allAccepted, Bool.and_eq_true_iff] at hcalls
  have hargument : Arrives room (Parse.expression levels .lowest) p (tree, tree.height) q :=
    h.expression hp hreads hpos hcalls.1 (by decide) (Parser.stops_of_kind (by simp [hright]))
      hroom
  apply hargument.bind
  apply runs_get_bind
  rw [if_neg (by simp [hright])]
  exact ⟨rfl, rfl⟩

/-- Arguments are complete if the first one and the others are. -/
theorem more {comma : Token} (hcomma : comma.kind = .comma) (hpos : 0 < m)
    (hfirst : Complete .or first tree m) (hrest : CompleteArguments second trees n) :
    CompleteArguments (first ++ comma :: second) (tree :: trees) (max m n) := by
  intro room levels p q count hp hreads hcalls hright hroom hcount
  obtain ⟨count, rfl⟩ := Nat.exists_eq_add_one.mpr (Nat.zero_lt_of_lt hcount)
  rw [Tree.height.heightAll] at hroom ⊢
  rw [Tree.callsAccepted.allAccepted, Bool.and_eq_true_iff] at hcalls
  obtain ⟨r, hreads₁, hreads⟩ := hreads.split
  obtain ⟨rfl, hreads₂, hreads₃⟩ := hreads.split_cons (by simp [hcomma])
  have hargument : Arrives room (Parse.expression levels .lowest) p (tree, tree.height) r :=
    hfirst.expression hp hreads₁ hpos hcalls.1 (by decide)
      (Parser.stops_of_kind (by simp [hcomma])) fun h => (hroom h).first
  have hready : r.advance.Ready levels :=
    hreads₂.ready (by simp [hcomma]) (by rw [hreads₁.depth]; exact hp.depth)
  have hlength := (hreads₁.trans hreads₂).length_following
  rw [List.length_append, List.length_singleton] at hlength
  have hothers : Arrives room (Parse.arguments (Parse.expression levels) count) r.advance
      (trees, Tree.height.heightAll trees) q :=
    hrest hready hreads₃ hcalls.2 hright (fun h => (hroom h).others) (by omega)
  apply hargument.bind
  apply runs_get_bind
  rw [if_pos hcomma]
  apply Parse.arrives_advance.bind
  apply hothers.bind
  exact ⟨rfl, rfl⟩

/-- A call without arguments is complete. -/
theorem emptyCall {name : Token} {function : Function} (hname : name.kind = .identifier)
    (hfunction : Function.find? name.text = some function) (hleft : left.kind = .leftParen)
    (hright : right.kind = .rightParen) :
    Complete .unary [name, left, right] (.call function []) 1 := by
  intro room levels min p q hp hreads hcalls hmin hstops hroom
  have hstarts : p.startsCall = true := hreads.startsCall hfunction hleft
  obtain ⟨rfl, hreads₁, hreads⟩ := hreads.split_cons (by simp [hname])
  obtain ⟨rfl, hreads₂, hreads₃⟩ := hreads.split_cons (by simp [hleft])
  obtain ⟨rfl, rfl⟩ := hreads₃.advance_eq (by simp [hright])
  have harity := (Bool.and_eq_true_iff.mp hcalls).1
  exact .of_primary (Parse.arrives_call hname hstarts hfunction hleft
    (.inl ⟨hright, rfl, rfl, rfl⟩) hright harity fun h => (hroom h).height)

/-- A call is complete if its arguments are. -/
theorem call {name : Token} {function : Function} (hname : name.kind = .identifier)
    (hfunction : Function.find? name.text = some function) (hleft : left.kind = .leftParen)
    (hright : right.kind = .rightParen) (htokens : IsOperand tokens)
    (h : CompleteArguments tokens trees n) :
    Complete .unary (name :: left :: tokens ++ [right]) (.call function trees) (n + 1) := by
  intro room levels min p q hp hreads hcalls hmin hstops hroom
  have hstarts : p.startsCall = true := hreads.startsCall hfunction hleft
  obtain ⟨rfl, hreads₁, hreads⟩ := hreads.split_cons (by simp [hname])
  obtain ⟨rfl, hreads₂, hreads⟩ := hreads.split_cons (by simp [hleft])
  obtain ⟨r, hreads₃, hreads₄⟩ := hreads.split
  obtain ⟨rfl, rfl⟩ := hreads₄.advance_eq (by simp [hright])
  obtain ⟨harity, hcalls⟩ := Bool.and_eq_true_iff.mp hcalls
  -- the first argument begins like any operand, so the call is not taken for an empty one
  have hbegin := htokens.current_mayBegin hreads₃
  have hready : p.advance.advance.Ready levels :=
    hreads₂.ready (by simp [hleft]) (by rw [hreads₁.depth]; exact hp.depth)
  have harguments : Arrives room (Parse.arguments (Parse.expression levels)
      (p.advance.advance.following.length + 1)) p.advance.advance
      (trees, Tree.height.heightAll trees) r :=
    h hready hreads₃ hcalls hright (fun h => (hroom h).inside (Nat.le_succ _))
      (Nat.lt_succ_self _)
  exact .of_primary (Parse.arrives_call hname hstarts hfunction hleft
    (.inr ⟨hbegin.2.1, harguments⟩) hright harity fun h => (hroom h).height)

end Complete

mutual

/-- In any derivation some expression is open. -/
theorem Derives.nesting_pos {level : Precedence} {tokens : List Token} {tree : Tree} {n : Nat} :
    Derives level tokens tree n → 0 < n
  | .tighter h => h.nesting_pos
  | .between _ _ hleft _ => Nat.lt_of_lt_of_le hleft.nesting_pos (Nat.le_max_left ..)
  | .before _ _ | .group _ _ _ | .call _ _ _ _ _ => Nat.succ_pos _
  | .literal _ | .reference _ | .emptyCall _ _ _ _ => Nat.one_pos

/-- Whatever the grammar derives is read wherever it stands. -/
theorem Derives.complete {level : Precedence} {tokens : List Token} {tree : Tree} {n : Nat} :
    Derives level tokens tree n → Complete level tokens tree n
  | .tighter h => h.complete.tighter
  | .between hop hlevel hleft hright =>
    .between hop hlevel hleft.isOperand hright.isOperand hright.nesting_pos hleft.complete
      hright.complete
  | .before hop hoperand =>
    .before hop hoperand.nesting_pos hoperand.isOperand hoperand.complete
  | .literal hvalue => .literal hvalue
  | .reference hkind => .reference hkind
  | .group hleft h hright => .group hleft hright h.nesting_pos h.complete
  | .emptyCall hname hfunction hleft hright => .emptyCall hname hfunction hleft hright
  | .call hname hfunction hleft harguments hright =>
    .call hname hfunction hleft hright harguments.isOperand harguments.complete

/-- So are the arguments of a call. -/
theorem DerivesArguments.complete {tokens : List Token} {trees : List Tree} {n : Nat} :
    DerivesArguments tokens trees n → CompleteArguments tokens trees n
  | .last h => Complete.last h.nesting_pos h.complete
  | .more hfirst hcomma hrest =>
    Complete.more hcomma hfirst.nesting_pos hfirst.complete hrest.complete

end

end Formula
