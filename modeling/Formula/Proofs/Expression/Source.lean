import Formula.Expression
import Formula.Proofs.Tree.Parsing

/-!
# Expressions that were read

An expression is made by reading a source, so what is known of the trees that the parser returns is
known of its tree. `Bindings.FromSources` says that every expression among the bound values was made
that way.
-/

namespace Formula

namespace Expression

/-- Whether the expression was read from a source. -/
def IsRead (e : Expression) : Prop := ∃ source serial, ofSource source serial = .ok e

/-- A source is read by splitting it into tokens first, and parsing them then. -/
theorem ofSource_eq (source : String) (serial : Nat) : ofSource source serial =
    match tokenize source with
    | .error e => .error (.lexical e)
    | .ok tokens =>
      match Tree.ofTokens tokens with
      | .error e => .error (.parsing e)
      | .ok tree => .ok (.mk source tree serial) := by
  unfold ofSource Tree.ofSource
  cases tokenize source with
  | error e => rfl
  | ok tokens =>
    simp only [Except.mapError, bind, Except.bind]
    cases Tree.ofTokens tokens with
    | error e => rfl
    | ok tree => rfl

/-- A formula that is read has tokens, and its tree is that of the tokens. -/
theorem exists_tokens_of_ok {source : String} {serial : Nat} {e : Expression}
    (h : ofSource source serial = .ok e) :
    ∃ tokens, tokenize source = .ok tokens ∧ Tree.ofTokens tokens = .ok e.tree := by
  rw [ofSource_eq] at h
  split at h
  · exact nomatch h
  · rename_i tokens htokens
    split at h
    · exact nomatch h
    · rename_i tree htree
      cases h
      exact ⟨tokens, htokens, htree⟩

/-- So an expression that was read comes from some tokens. -/
theorem IsRead.exists_tokens {e : Expression} (h : e.IsRead) :
    ∃ source tokens, tokenize source = .ok tokens ∧ Tree.ofTokens tokens = .ok e.tree := by
  obtain ⟨source, serial, h⟩ := h
  exact ⟨source, exists_tokens_of_ok h⟩

/-- An error of the parser is about the tokens of the source. -/
theorem exists_tokens_of_parsing {source : String} {serial : Nat} {e : ParseError}
    (h : ofSource source serial = .error (.parsing e)) :
    ∃ tokens, tokenize source = .ok tokens ∧ Tree.ofTokens tokens = .error e := by
  rw [ofSource_eq] at h
  split at h
  · exact nomatch h
  · rename_i tokens htokens
    split at h
    · rename_i e' htree
      cases h
      exact ⟨tokens, htokens, htree⟩
    · exact nomatch h

/-- The tree of an expression that was read is within the limits. -/
theorem IsRead.admitted {e : Expression} (h : e.IsRead) : e.tree.Admitted := by
  obtain ⟨-, tokens, -, htree⟩ := h.exists_tokens
  obtain ⟨-, -, -, -, -, -, -, -, hadmitted⟩ := exists_derives_of_ofTokens htree
  exact hadmitted

end Expression

/-- Whether every expression among the bound values was read from a source. -/
def Bindings.FromSources (bindings : Bindings) : Prop :=
  ∀ name e, bindings.get? name = some (.expression e) → e.IsRead

end Formula
