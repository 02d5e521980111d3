import Formula.Proofs.Tree.Yields

/-!
# What the parser reads is derivable

Whenever a reader of the parser succeeds, the tokens it consumed form the tree it returns, within
the levels it was given. The argument follows the readers: `Sound` says it of a reader of whole
expressions, each reader of a part inherits it, and `sound_expression` ties the knot by induction on
the levels.
-/

namespace Formula

/-- Whether the step from `p` to `q` consumed tokens that form a tree of the given height at a level,
with a nesting of at most `bound`. -/
def Forms (bound : Nat) (level : Precedence) (p : Parser) (tree : Tree) (height : Nat)
    (q : Parser) : Prop :=
  ∃ tokens n, p.Reads tokens q ∧ Derives level tokens tree n ∧ n ≤ bound ∧
    height = tree.height ∧ height ≤ maxDepth ∧ tree.callsAccepted = true

/-- Whether every success of a reader of expressions is a derivation with a nesting of at most
`levels`, up to the first infix operator that binds too loosely. -/
def Sound (levels : Nat) (inner : Precedence → Parse Parsed) : Prop :=
  ∀ ⦃min p tree height q⦄, p.Ended → Yields (inner min) p (tree, height) q →
    Forms levels min p tree height q ∧ q.Stops min

/-- No operator stands at the loosest level. -/
theorem Derives.or_of_lowest {tokens : List Token} {tree : Tree} {n : Nat}
    (h : Derives .lowest tokens tree n) : Derives .or tokens tree n := by
  cases h with
  | tighter h => exact h
  | between hop hlevel hleft hright =>
    rename_i op _ _ _ _ _ _ _
    exact absurd hlevel (by cases op <;> decide)

variable {levels : Nat} {inner : Precedence → Parse Parsed} {p q : Parser} {tree : Tree}
  {trees : List Tree} {height : Nat}

/-- Arguments that are read are derived. -/
theorem Sound.arguments (h : Sound levels inner) {count : Nat} (hp : p.Ended)
    (hcount : p.following.length < count)
    (hyields : Yields (Parse.arguments inner count) p (trees, height) q) :
    ∃ tokens n, p.Reads tokens q ∧ DerivesArguments tokens trees n ∧ n ≤ levels ∧
      height = Tree.height.heightAll trees ∧ Tree.callsAccepted.allAccepted trees = true := by
  induction count generalizing p trees height with
  | zero => omega
  | succ count ih =>
    obtain ⟨first, firstHeight, r, hfirst, hrest⟩ := Parse.yields_arguments_succ.mp hyields
    obtain ⟨⟨tokens, n, hreads, hderives, hn, rfl, -, haccepted⟩, -⟩ := h hp hfirst
    rcases hrest with ⟨-, rfl, rfl, rfl⟩ | ⟨hcomma, rest, restHeight, hrest, rfl, rfl⟩
    · refine ⟨tokens, n, hreads, .last hderives.or_of_lowest, hn, ?_, ?_⟩
      · exact (Nat.max_zero _).symm
      · rw [Tree.callsAccepted.allAccepted, haccepted]
        rfl
    · have hadvance := Parser.reads_advance (hreads.ended hp) (by simp [hcomma])
      have hlength := (hreads.trans hadvance).length_following
      rw [List.length_append, List.length_singleton] at hlength
      obtain ⟨tokens', n', hreads', hderives', hn', rfl, haccepted'⟩ :=
        ih ((hreads.trans hadvance).ended hp) (by omega) hrest
      refine ⟨tokens ++ r.current :: tokens', max n n', ?_,
        .more hderives.or_of_lowest hcomma hderives', Nat.max_le.mpr ⟨hn, hn'⟩, rfl, ?_⟩
      · have := hreads.trans (hadvance.trans hreads')
        exact this
      · rw [Tree.callsAccepted.allAccepted, haccepted, haccepted']
        rfl

/-- A call that is read is derived. -/
theorem Sound.call (h : Sound levels inner) (hp : p.Ended) (hname : p.current.kind = .identifier)
    (hyields : Yields (Parse.call inner) p (tree, height) q) :
    Forms (levels + 1) .unary p tree height q := by
  obtain ⟨function, trees, childHeight, r, hfunction, hleft, harguments, hright, harity, hheight,
    rfl, rfl, rfl⟩ := Parse.yields_call.mp hyields
  have hreads₁ := Parser.reads_advance hp (by simp [hname])
  have hreads₂ := Parser.reads_advance (hreads₁.ended hp) (by simp [hleft])
  have hopen := hreads₁.trans hreads₂
  rcases harguments with ⟨-, rfl, rfl, rfl⟩ | ⟨-, harguments⟩
  · have hclose := Parser.reads_advance (hopen.ended hp) (by simp [hright])
    refine ⟨_, 1, hopen.trans hclose, .emptyCall hname hfunction hleft hright, by omega, rfl,
      hheight, ?_⟩
    rw [Tree.callsAccepted, harity]
    rfl
  · obtain ⟨tokens, n, hreads, hderives, hn, rfl, haccepted⟩ :=
      h.arguments (hopen.ended hp) (Nat.lt_succ_self _) harguments
    have hinside := hopen.trans hreads
    have hclose := Parser.reads_advance (hinside.ended hp) (by simp [hright])
    refine ⟨_, n + 1, hinside.trans hclose, .call hname hfunction hleft hderives hright,
      Nat.succ_le_succ hn, rfl, hheight, ?_⟩
    rw [Tree.callsAccepted, harity, haccepted]
    rfl

/-- So is a prefix operation. -/
theorem Sound.prefixOperation (h : Sound levels inner) (hp : p.Ended)
    (hkind : p.current.kind ∈ [.operator, .identifier])
    (hyields : Yields (Parse.prefixOperation inner) p (tree, height) q) :
    Forms (levels + 1) .unary p tree height q := by
  obtain ⟨op, operand, operandHeight, hop, -, hoperand, hheight, rfl, rfl⟩ :=
    Parse.yields_prefixOperation.mp hyields
  have hbefore : p.current.operator? .before = some (.unary op) := by
    have hfixity := Operator.fixity_of_find? hop
    rw [matchToken, ← hfixity] at hop
    rw [Token.operator?_of_kind hkind]
    exact hop
  have hadvance := Parser.reads_advance hp (Token.ne_eof_of_operator? hbefore)
  obtain ⟨⟨tokens, n, hreads, hderives, hn, rfl, -, haccepted⟩, -⟩ :=
    h (hadvance.ended hp) hoperand
  exact ⟨_, n + 1, hadvance.trans hreads, .before hbefore hderives, Nat.succ_le_succ hn, rfl, hheight,
    haccepted⟩

/-- So is every other operand. -/
theorem Sound.primary (h : Sound levels inner) (hp : p.Ended)
    (hyields : Yields (Parse.primary inner) p (tree, height) q) :
    Forms (levels + 1) .unary p tree height q := by
  rcases Parse.yields_primary.mp hyields with ⟨value, hvalue, rfl, rfl, rfl⟩ |
    ⟨hkind, rfl, rfl, rfl⟩ | ⟨hleft, r, hinner, hright, rfl⟩ | ⟨hname, -, hcall⟩ |
    ⟨hkind, -, hoperation⟩
  · exact ⟨_, 1, Parser.reads_advance hp (Token.ne_eof_of_value? hvalue), .literal hvalue,
      by omega, rfl, by decide, rfl⟩
  · exact ⟨_, 1, Parser.reads_advance hp (by simp [hkind]), .reference hkind,
      by omega, rfl, by decide, rfl⟩
  · have hopen := Parser.reads_advance hp (by simp [hleft])
    obtain ⟨⟨tokens, n, hreads, hderives, hn, hresult⟩, -⟩ := h (hopen.ended hp) hinner
    have hinside := hopen.trans hreads
    have hclose := Parser.reads_advance (hinside.ended hp) (by simp [hright])
    exact ⟨_, n + 1, hinside.trans hclose, .group hleft hderives.or_of_lowest hright,
      Nat.succ_le_succ hn, hresult⟩
  · exact h.call hp hname hcall
  · exact h.prefixOperation hp hkind hoperation

/-- The loop keeps that the tree read so far is a derivation at a level at least as tight as any
operator that may follow. -/
theorem Sound.chainTail (h : Sound levels inner) {start : Parser} (hstart : start.Ended)
    {min level : Precedence} {count : Nat} {left : Tree} {leftHeight : Nat}
    (hleft : Forms (levels + 1) level start left leftHeight p) (hmin : min.rank ≤ level.rank)
    (hlevel : ∀ op, p.infixOperator? = some op → op.precedence.rank ≤ level.rank)
    (hcount : p.following.length < count)
    (hyields : Yields (Parse.chainTail inner min count (left, leftHeight)) p (tree, height) q) :
    Forms (levels + 1) min start tree height q ∧ q.Stops min := by
  induction count generalizing p left leftHeight level with
  | zero => omega
  | succ count ih =>
    obtain ⟨tokens, n, hreads, hderives, hn, rfl, hheight, haccepted⟩ := hleft
    have hp := hreads.ended hstart
    rcases Parse.yields_chainTail_succ.mp hyields with ⟨hstops, hresult, rfl⟩ |
      ⟨op, right, rightHeight, r, hop, htight, -, hright, hheight', htail⟩
    · cases hresult
      exact ⟨⟨tokens, n, hreads, hderives.loosen hmin, hn, rfl, hheight, haccepted⟩, hstops⟩
    · have hoperator : p.current.operator? .between = some (.binary op) := by
        rw [Parser.infixOperator?_eq] at hop
        split at hop
        · exact hop
        · exact nomatch hop
      have hadvance := Parser.reads_advance hp (Token.ne_eof_of_operator? hoperator)
      obtain ⟨⟨tokens', n', hreads', hderives', hn', rfl, -, haccepted'⟩, hstops⟩ :=
        h (hadvance.ended hp) hright
      have hoperand := hadvance.trans hreads'
      have hlength := hoperand.length_following
      rw [List.length_append, List.length_singleton] at hlength
      -- the right operand stopped in front of what binds no tighter than its operator
      refine ih ⟨tokens ++ p.current :: tokens', max n (n' + 1), hreads.trans hoperand,
        .between hoperator rfl (hderives.loosen (hlevel _ hop)) hderives', by omega, rfl, hheight',
        ?_⟩ htight ?_ (by omega) htail
      · rw [Tree.callsAccepted, haccepted, haccepted']
        rfl
      · intro next hnext
        have := hstops next hnext
        rw [op.rank_tighter] at this
        exact Nat.le_of_lt_succ this

/-- Whatever is read as an expression is derived, within the levels that were left. -/
theorem sound_expression (levels : Nat) : Sound levels (Parse.expression levels) := by
  induction levels with
  | zero =>
    intro min p tree height q _ hyields
    exact absurd hyields Parse.not_yields_fail
  | succ levels ih =>
    intro min p tree height q hp hyields
    obtain ⟨-, ⟨left, leftHeight⟩, m, r, hleft, htail, rfl⟩ := Parse.yields_expression_succ.mp hyields
    have hp : Parser.Ended { p with depth := p.depth + 1 } := hp
    obtain ⟨⟨tokens, n, hreads, hresult⟩, hstops⟩ :=
      ih.chainTail hp (ih.primary hp hleft) min.rank_le_unary
        (fun op _ => op.precedence.rank_le_unary) (Nat.lt_succ_self _) htail
    -- the depth comes back, and nothing else has changed it
    refine ⟨⟨tokens, n, ?_, hresult⟩, hstops⟩
    have hdepth : r.depth - 1 = p.depth := by
      rw [hreads.depth]
      exact Nat.add_sub_cancel _ _
    rw [hdepth]
    exact hreads.atDepth p.depth

end Formula
