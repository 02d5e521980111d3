import Formula.Function.Call
import Formula.Proofs.Evaluation.Comparison
import Formula.Proofs.Number.Text

/-!
# Aggregate functions and operators

A sum, a concatenation and a test for membership do for any number of arguments what an operator does
for two. `Value.chain` is a chain of additions, and a sum and a concatenation are such chains. The sum
starts with a zero that the chain does not have, and this zero is neutral beside an integer and beside
a decimal, of any scale (`zero_add`). A concatenation starts with the empty string, which makes every
addition that follows one of texts (`chain_string`).
-/

namespace Formula

namespace Value

/-- The chain `start + v₁ + … + vₙ`, added up from the left. -/
def chain (start : Value) (rest : List Value) : Except EvalError Value :=
  rest.foldlM BinaryOp.add.apply start

/-- The integer zero is neutral on the left of an integer and of a decimal, whatever its scale. -/
theorem zero_add {v : Value} (h : v.kind = .integer ∨ v.kind = .decimal) :
    (integer 0).add v = .ok v := by
  cases v with
  | integer n =>
    show orOverflow "+" integer (Integer.ofInt? (0 + n.toInt)) = _
    rw [Int.zero_add, Integer.ofInt?_toInt]
    rfl
  | decimal d =>
    have hzero : (Decimal.ofInteger 0).isZero = true := rfl
    show orOverflow "+" decimal ((Decimal.ofInteger 0).add? d) = _
    rw [Decimal.add?, if_pos hzero]
    rfl
  | _ => simp [kind] at h

/-- A string that is added to texts collects them. -/
theorem chain_string (s : String) (args : List Value) :
    (string s).chain args = .ok (string (s ++ Function.concatOf args)) := by
  induction args generalizing s with
  | nil =>
    show Except.ok (string s) = _
    rw [Function.concatOf, List.map_nil, String.join_nil, String.append_empty]
  | cons v rest ih =>
    have hadd : (string s).add v = .ok (string (s ++ v.text)) := rfl
    rw [chain, List.foldlM_cons]
    show ((string s).add v >>= fun total => total.chain rest) = _
    rw [hadd]
    show (string (s ++ v.text)).chain rest = _
    rw [ih, Function.concatOf, Function.concatOf, List.map_cons, String.join_cons,
      String.append_assoc]

end Value

namespace Function

/-- Numbers are summed up as the operator adds them. -/
theorem sumFrom_eq_chain {rest : List Value} (h : ∀ v ∈ rest, v.isNumeric = true) (total : Value) :
    rest.foldlM
      (fun total v => if v.isNumeric then total.add v else .error (sum.notNumeric v)) total =
      total.chain rest := by
  induction rest generalizing total with
  | nil => rfl
  | cons v rest ih =>
    rw [Value.chain, List.foldlM_cons, List.foldlM_cons, if_pos (h v List.mem_cons_self)]
    exact congrArg (total.add v >>= ·)
      (funext fun next => ih (fun w hw => h w (List.mem_cons_of_mem v hw)) next)

/-- A sum of numbers that starts with an exact one is the chain of additions. -/
theorem sum_call {first : Value} {rest : List Value}
    (hfirst : first.kind = .integer ∨ first.kind = .decimal)
    (hrest : ∀ v ∈ rest, v.isNumeric = true) : sum.call (first :: rest) = first.chain rest := by
  have hnumeric : first.isNumeric = true := by
    unfold Value.isNumeric
    rcases hfirst with h | h <;> rw [h] <;> rfl
  rw [call_of_atLeast rfl (Nat.le_add_left 1 rest.length)]
  show sumOf (first :: rest) = _
  rw [sumOf, List.foldlM_cons, if_pos hnumeric, Value.zero_add hfirst]
  exact sumFrom_eq_chain hrest first

/-- A concatenation of any values is that of their texts. -/
theorem concat_call {args : List Value} (h : args ≠ []) :
    concat.call args = .ok (.string (concatOf args)) :=
  call_of_atLeast rfl (List.length_pos_iff.mpr h)

/-- The concatenations of several groups make up the concatenation of all their values. -/
theorem concatOf_flatten (groups : List (List Value)) :
    concatOf (groups.map fun group => .string (concatOf group)) = concatOf groups.flatten := by
  induction groups with
  | nil => rfl
  | cons group groups ih =>
    rw [concatOf, concatOf, List.map_cons, List.map_cons, String.join_cons, List.flatten_cons,
      List.map_append, String.join_append]
    exact congrArg (concatOf group ++ ·) ih

/-- Concatenations of several groups are made one by one. -/
theorem mapM_concat_call {groups : List (List Value)} (h : ∀ group ∈ groups, group ≠ []) :
    groups.mapM concat.call = .ok (groups.map fun group => .string (concatOf group)) := by
  induction groups with
  | nil => rfl
  | cons group groups ih =>
    rw [List.mapM_cons, concat_call (h group List.mem_cons_self),
      ih fun other hother => h other (List.mem_cons_of_mem group hother)]
    rfl

/-- A value is one of several if it equals some of them, as the operator has it. -/
theorem isOneOf_eq_true_iff (v : Value) (others : List Value) :
    isOneOf v others = true ↔ ∃ w ∈ others, BinaryOp.equal.apply v w = .ok (.boolean true) := by
  have hequal (w : Value) : (v.compare? w == some (some .eq)) = true ↔
      BinaryOp.equal.apply v w = .ok (.boolean true) := by
    refine Iff.trans ?_ (Value.relate_eq_true_iff .equal v w).symm
    cases v.compare? w <;> rfl
  unfold isOneOf
  rw [List.any_eq_true]
  exact exists_congr fun w => and_congr_right fun _ => hequal w

/-- The aggregate functions do what the operators do that they stand for, for any number of arguments.
A sum of numbers that starts with an integer or a decimal is the chain of its arguments, be it a value
or an overflow. A concatenation is the chain of its arguments behind the empty string, and may be made
of groups first. A value is one of several others exactly if it equals one of them, and the test never
fails. -/
theorem aggregates_eq_operators :
    (∀ (first : Value) (rest : List Value), (first.kind = .integer ∨ first.kind = .decimal) →
      (∀ v ∈ rest, v.isNumeric = true) → sum.call (first :: rest) = first.chain rest) ∧
    (∀ args : List Value, args ≠ [] → ∃ text, concat.call args = .ok (.string text) ∧
      (Value.string "").chain args = .ok (.string text)) ∧
    (∀ groups : List (List Value), groups ≠ [] → (∀ group ∈ groups, group ≠ []) →
      groups.mapM concat.call >>= concat.call = concat.call groups.flatten) ∧
    (∀ (v first : Value) (rest : List Value), ∃ found : Bool,
      oneOf.call (v :: first :: rest) = .ok (.boolean found) ∧
        (found = true ↔
          ∃ w ∈ first :: rest, BinaryOp.equal.apply v w = .ok (.boolean true))) := by
  refine ⟨fun first rest => sum_call, fun args hargs => ?_, fun groups hgroups hall => ?_,
    fun v first rest => ?_⟩
  · refine ⟨concatOf args, concat_call hargs, ?_⟩
    rw [Value.chain_string, String.empty_append]
  · have hnonempty : (groups.map fun group => Value.string (concatOf group)) ≠ [] := by
      simpa using hgroups
    have hflatten : groups.flatten ≠ [] := by
      obtain ⟨group, hgroup⟩ := List.exists_mem_of_ne_nil groups hgroups
      exact fun hnil => hall group hgroup (List.flatten_eq_nil_iff.mp hnil group hgroup)
    rw [mapM_concat_call hall, concat_call hflatten, ← concatOf_flatten]
    exact concat_call hnonempty
  · exact ⟨isOneOf v (first :: rest), call_of_atLeast rfl (Nat.le_add_left 2 rest.length),
      isOneOf_eq_true_iff v (first :: rest)⟩

end Function

end Formula
