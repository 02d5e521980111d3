import Formula.Proofs.Tree.Yields

/-!
# What the steps of the parser end with

`Runs step p after failed` says what a step that starts in the state `p` ends with, be it a success
or a failure.

The failure that matters to a derivation is that a limit is reached. `Arrives room step p a q` says
that a step succeeds with `a` and leaves the state `q`, or that it says to be too deep, which it only
does if there is no room. So one statement has both what happens within the limits and what happens
beyond them, and the latter is not taken for a refusal of the tokens.
-/

namespace Formula

/-- Whether a step that starts in the state `p` ends in one of two ways: it succeeds and `after`
holds of its result and of the state that it leaves, or it fails and `failed` holds of its error and
of that state. -/
def Runs {α : Type} (step : Parse α) (p : Parser) (after : α → Parser → Prop)
    (failed : ParseError → Parser → Prop) : Prop :=
  match step.run p with
  | (.ok a, q) => after a q
  | (.error e, q) => failed e q

section Rules

variable {α β : Type} {p : Parser} {after : α → Parser → Prop} {failed : ParseError → Parser → Prop}

/-- What holds after a run holds if it follows from what does. -/
theorem Runs.imp {step : Parse α} {after' : α → Parser → Prop} {failed' : ParseError → Parser → Prop}
    (h : Runs step p after failed) (hafter : ∀ a q, after a q → after' a q)
    (hfailed : ∀ e q, failed e q → failed' e q) : Runs step p after' failed' := by
  unfold Runs at h ⊢
  rcases hstep : step.run p with ⟨e | a, q⟩
  · rw [hstep] at h
    exact hfailed e q h
  · rw [hstep] at h
    exact hafter a q h

/-- Steps run one after the other. -/
theorem runs_bind {step : Parse α} {next : α → Parse β} {last : β → Parser → Prop}
    (h : Runs step p after failed) (hnext : ∀ a q, after a q → Runs (next a) q last failed) :
    Runs (step >>= next) p last failed := by
  unfold Runs at h ⊢
  rw [run_bind]
  rcases hstep : step.run p with ⟨e | a, q⟩
  · rw [hstep] at h
    exact h
  · rw [hstep] at h
    exact hnext a q h

/-- Reading the state changes nothing. -/
theorem runs_get_bind {next : Parser → Parse α} (h : Runs (next p) p after failed) :
    Runs (get >>= next) p after failed := h

/-- A step inside of one more expression runs at a depth of one more. -/
theorem runs_opening {body : Parse α}
    (h : Runs body { p with depth := p.depth + 1 }
      (fun a q => after a { q with depth := q.depth - 1 })
      (fun e q => failed e { q with depth := q.depth - 1 })) :
    Runs (Parse.opening body) p after failed := by
  unfold Runs at h ⊢
  rw [Parse.run_opening]
  rcases hbody : body.run { p with depth := p.depth + 1 } with ⟨e | a, q⟩
  · rw [hbody] at h
    exact h
  · rw [hbody] at h
    exact h

end Rules

/-! ## Steps that only a limit stops -/

/-- Whether an error says that a limit of the parser is reached, there being no room. -/
def TooDeep (room : Prop) (e : ParseError) (_ : Parser) : Prop :=
  e = .structural (.tooDeep maxDepth) ∧ ¬ room

/-- Whether a step succeeds with `a` and leaves the state `q`, unless a limit stops it for which
there is no room. -/
def Arrives {α : Type} (room : Prop) (step : Parse α) (p : Parser) (a : α) (q : Parser) : Prop :=
  Runs step p (fun b r => b = a ∧ r = q) (TooDeep room)

section Steps

variable {α β : Type} {room : Prop} {p q : Parser} {a : α}

/-- A step that yields a result runs to it. -/
theorem Yields.runs {step : Parse α} {after : α → Parser → Prop}
    {failed : ParseError → Parser → Prop} (h : Yields step p a q) (hafter : after a q) :
    Runs step p after failed := by
  unfold Runs
  rw [show step.run p = _ from h]
  exact hafter

/-- So it arrives there, whatever room there is. -/
theorem Yields.arrives {step : Parse α} (h : Yields step p a q) : Arrives room step p a q :=
  h.runs ⟨rfl, rfl⟩

/-- A step that arrives may be followed by another one. -/
theorem Arrives.bind {step : Parse α} {next : α → Parse β} {after : β → Parser → Prop}
    (h : Arrives room step p a q) (hnext : Runs (next a) q after (TooDeep room)) :
    Runs (step >>= next) p after (TooDeep room) := by
  apply runs_bind h
  rintro b r ⟨rfl, rfl⟩
  exact hnext

end Steps

namespace Parse

variable {inner : Precedence → Parse Parsed} {min : Precedence} {room : Prop} {p q r : Parser}
  {tree : Tree} {height : Nat}

/-- Advancing arrives behind the current token. -/
theorem arrives_advance : Arrives room advance p p.current p.advance :=
  (yields_advance.mpr ⟨rfl, rfl⟩).arrives

/-- So does expecting a token of the kind that is there. -/
theorem arrives_expect {kind : TokenKind} (h : p.current.kind = kind) :
    Arrives room (expect kind) p p.current p.advance :=
  (yields_expect.mpr ⟨h, rfl, rfl⟩).arrives

/-- A node may be too high, but is nothing else. -/
theorem arrives_nodeHeight {child : Nat} (hroom : room → child + 1 ≤ maxDepth) :
    Arrives room (nodeHeight child) p (child + 1) p := by
  unfold nodeHeight
  split
  · exact ⟨rfl, fun h => absurd (hroom h) (Nat.not_le_of_gt ‹_›)⟩
  · exact ⟨rfl, rfl⟩

/-- An operand is read wherever one may begin. -/
theorem arrives_operand {operator : Token} {result : Parsed} (hbegin : p.current.MayBegin)
    (h : Arrives room (inner min) p result q) :
    Arrives room (operand inner operator min) p result q := by
  obtain ⟨heof, hright, hcomma⟩ := hbegin
  apply runs_get_bind
  split
  · contradiction
  · contradiction
  · contradiction
  · exact h

/-- A group is read if its inside is. -/
theorem arrives_group (hleft : p.current.kind = .leftParen)
    (h : Arrives room (inner .lowest) p.advance (tree, height) r)
    (hright : r.current.kind = .rightParen) :
    Arrives room (primary inner) p (tree, height) r.advance := by
  apply runs_get_bind
  dsimp only
  rw [hleft]
  apply arrives_advance.bind
  apply h.bind
  apply (arrives_expect hright).bind
  exact ⟨rfl, rfl⟩

/-- A prefix operation is read if its operand is, and if there is room for it. -/
theorem arrives_prefixOperation {op : UnaryOp} (hkind : p.current.kind ∈ [.operator, .identifier])
    (hcall : p.current.kind = .identifier → p.startsCall = false)
    (hop : matchToken p.current.text p.previous = some (.unary op))
    (hbegin : p.advance.current.MayBegin)
    (h : Arrives room (inner .unary) p.advance (tree, height) q)
    (hroom : room → height + 1 ≤ maxDepth) :
    Arrives room (primary inner) p (.unary op tree, height + 1) q := by
  have hprefix : Arrives room (prefixOperation inner) p (.unary op tree, height + 1) q := by
    have hfilter : (matchToken p.current.text p.previous).filter (·.fixity = .before) =
        some (.unary op) := by
      rw [hop]
      rfl
    apply runs_get_bind
    rw [hfilter]
    apply arrives_advance.bind
    apply (arrives_operand hbegin h).bind
    apply (arrives_nodeHeight hroom).bind
    exact ⟨rfl, rfl⟩
  apply runs_get_bind
  dsimp only
  rw [List.mem_cons, List.mem_singleton] at hkind
  rcases hkind with hkind | hkind <;> rw [hkind]
  · exact hprefix
  · exact (if_neg (Bool.eq_false_iff.mp (hcall hkind))).symm ▸ hprefix

/-- The end of a call of which the arguments have been read. -/
theorem arrives_closing {function : Function} {trees : List Tree}
    (hright : p.current.kind = .rightParen) (harity : function.arity.accepts trees.length = true)
    (hroom : room → height + 1 ≤ maxDepth) :
    Arrives room (do
      let _ ← expect .rightParen
      match function.checkArity trees.length with
      | .error e => throw (.arity e)
      | .ok () => return (.call function trees, ← nodeHeight height) : Parse Parsed) p
      (.call function trees, height + 1) p.advance := by
  apply (arrives_expect hright).bind
  unfold Function.checkArity
  rw [if_pos harity]
  apply (arrives_nodeHeight hroom).bind
  exact ⟨rfl, rfl⟩

/-- A call is read if its arguments are, and if there is room for it. -/
theorem arrives_call {function : Function} {trees : List Tree}
    (hname : p.current.kind = .identifier) (hstarts : p.startsCall = true)
    (hfunction : Function.find? p.current.text = some function)
    (hleft : p.advance.current.kind = .leftParen)
    (harguments : (p.advance.advance.current.kind = .rightParen ∧ trees = [] ∧ height = 0 ∧
        r = p.advance.advance) ∨
      (p.advance.advance.current.kind ≠ .rightParen ∧
        Arrives room (arguments inner (p.advance.advance.following.length + 1)) p.advance.advance
          (trees, height) r))
    (hright : r.current.kind = .rightParen) (harity : function.arity.accepts trees.length = true)
    (hroom : room → height + 1 ≤ maxDepth) :
    Arrives room (primary inner) p (.call function trees, height + 1) r.advance := by
  apply runs_get_bind
  dsimp only
  rw [hname]
  refine (if_pos hstarts).symm ▸ ?_
  apply arrives_advance.bind
  rw [hfunction]
  apply (arrives_expect hleft).bind
  apply runs_get_bind
  rcases harguments with ⟨hempty, rfl, rfl, rfl⟩ | ⟨hempty, harguments⟩
  · rw [if_pos hempty]
    exact arrives_closing hright harity hroom
  · rw [if_neg hempty]
    exact harguments.bind (arrives_closing hright harity hroom)

/-- The loop goes on behind an infix operator and its right operand. -/
theorem runs_chainTail {op : BinaryOp} {left right : Tree} {leftHeight rightHeight count : Nat}
    {after : Parsed → Parser → Prop} (hop : p.infixOperator? = some (.binary op))
    (hmin : min.rank ≤ op.precedence.rank) (hbegin : p.advance.current.MayBegin)
    (hright : Arrives room (inner op.precedence.tighter) p.advance (right, rightHeight) r)
    (hroom : room → max leftHeight rightHeight + 1 ≤ maxDepth)
    (h : Runs (chainTail inner min count (.binary op left right, max leftHeight rightHeight + 1)) r
      after (TooDeep room)) :
    Runs (chainTail inner min (count + 1) (left, leftHeight)) p after (TooDeep room) := by
  apply runs_get_bind
  rw [hop]
  show Runs (if op.precedence.rank < min.rank then _ else _) p after (TooDeep room)
  rw [if_neg (Nat.not_lt_of_le hmin)]
  apply arrives_advance.bind
  apply (arrives_operand hbegin hright).bind
  exact (arrives_nodeHeight hroom).bind h

end Parse

end Formula
