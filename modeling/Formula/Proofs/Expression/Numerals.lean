import Formula.Proofs.Evaluation.Within
import Formula.Proofs.Expression.Source
import Formula.Proofs.Tree.Writing

/-!
# Integers written in formulas

The language has no literals with a sign: a negative integer is written as the negation of a positive
one. `Integer.Spelled` says of an integer how its text is read, one item for each stage: the lexemes
that it is made of, the tree that they derive and the value that the tree comes to. Every integer
is spelled that way but the least one, whose magnitude is no integer (`exists_spelled`). So the text
of any other integer is a formula for it (`ofSource_integer`).
-/

namespace Formula

open NaturalPower

/-- At the end of the source every lexeme ends. -/
theorem Lexeme.ends_nil (kind : TokenKind) (lexeme : List Char) : Ends kind lexeme [] := by
  unfold Ends
  split
  · exact stops_nil _
  · exact stops_nil _
  · exact ⟨stops_nil _, nofun⟩
  · exact stops_nil _
  · nofun
  · trivial

namespace Integer

/-- Whether the text of an integer is made of lexemes of the given shapes, from which a tree with the
value of the integer derives. -/
structure Spelled (n : Int64) (forms : List Shape) (part : Tree) : Prop where
  splits : ∀ {rest others}, (∀ kind lexeme, Lexeme.Ends kind lexeme rest) → Splits rest others →
    Splits ((text n).toList ++ rest) (forms ++ others)
  derives : ∀ tokens, shapes tokens = forms → ∃ k, Derives .or tokens part k ∧ k ≤ maxDepth
  admitted : part.Admitted
  value : ∀ bindings levels nesting, part.within bindings (levels + 2) nesting = .ok (.integer n)

variable {n : Int64}

/-- An integer that is not negative is a literal. -/
theorem exists_spelled_of_nonneg (h : 0 ≤ n.toInt) : ∃ forms part, Spelled n forms part := by
  obtain ⟨word, hlexeme, hvalue⟩ := Word.exists_number h
  refine ⟨[word.shape], .literal (.integer n), ?_, ?_, ⟨show 1 ≤ maxDepth by decide, rfl⟩,
    fun _ _ _ => rfl⟩
  · intro rest others hends hrest
    rw [← hlexeme]
    exact word.splits (hends _ _) hrest
  · intro tokens htokens
    obtain ⟨place, others, rfl, hothers⟩ := shapes_eq_cons_iff.mp htokens
    cases List.map_eq_nil_iff.mp hothers
    exact ⟨1, Derives.loosen (.literal (hvalue place)) (by decide), by decide⟩

/-- The word of the operator in front of a negative integer. -/
def minus : Word := ⟨.operator, "-", "-", .operator (.one (by decide))⟩

/-- A negative integer other than the least one is the negation of one that can be written. -/
theorem exists_neg (hneg : n.toInt < 0) (hmin : n ≠ Int64.minValue) :
    ∃ m : Int64, 0 ≤ m.toInt ∧ neg? m = some n ∧ text n = "-" ++ text m := by
  have hlo := n.minValue_le_toInt
  have hne : n.toInt ≠ Int64.minValue.toInt := fun h => hmin (Int64.toInt_inj.mp h)
  obtain ⟨m, hm⟩ : ∃ m : Int64, m.toInt = -n.toInt := by
    have hleast : Int64.minValue.toInt = -2 ^ (63 : Nat) := by decide
    exact ⟨.ofInt (-n.toInt), Int64.toInt_ofInt_of_le (by omega) (by omega)⟩
  refine ⟨m, by omega, ?_, ?_⟩
  · rw [neg?, hm, Int.neg_neg, ofInt?_toInt]
  · obtain ⟨k, hk⟩ := Int.eq_negSucc_of_lt_zero hneg
    have hm : m.toInt = Int.ofNat (k + 1) := by rw [hm, hk]; rfl
    rw [text, text, hk, hm]
    rfl

/-- A negative integer is spelled with a sign in front of its digits. -/
theorem exists_spelled_of_neg (hneg : n.toInt < 0) (hmin : n ≠ Int64.minValue) :
    ∃ forms part, Spelled n forms part := by
  obtain ⟨m, hm, hn, htext⟩ := exists_neg hneg hmin
  obtain ⟨word, hlexeme, hvalue⟩ := Word.exists_number hm
  have hnegate : UnaryOp.negate.apply (.integer m) = .ok (.integer n) := by
    rw [UnaryOp.apply, hn]
    rfl
  refine ⟨[minus.shape, word.shape], .unary .negate (.literal (.integer m)), ?_, ?_,
    ⟨show 2 ≤ maxDepth by decide, rfl⟩, fun _ _ _ => hnegate⟩
  · intro rest others hends hrest
    have hdigits : Splits (word.lexeme.toList ++ rest) (word.shape :: others) :=
      word.splits (hends _ _) hrest
    have hminus : Lexeme.Ends .operator ['-'] (word.lexeme.toList ++ rest) := by
      intro b _ hsign
      simp [Lexeme.twoCharSigns] at hsign
    rw [htext, String.toList_append, ← hlexeme, List.append_assoc]
    exact minus.splits hminus hdigits
  · intro tokens htokens
    obtain ⟨place, others, rfl, hothers⟩ := shapes_eq_cons_iff.mp htokens
    obtain ⟨place', rest, rfl, hrest⟩ := shapes_eq_cons_iff.mp hothers
    cases List.map_eq_nil_iff.mp hrest
    have hop : Token.operator? ⟨.operator, "-", place⟩ .before = some (.unary .negate) :=
      @Operator.find?_of_mem_spellings (.unary .negate) "-" List.mem_cons_self
    exact ⟨2, Derives.loosen (.before hop (.literal (hvalue place'))) (by decide), by decide⟩

/-- Every integer but the least one can be spelled. -/
theorem exists_spelled (hmin : n ≠ Int64.minValue) : ∃ forms part, Spelled n forms part := by
  by_cases hneg : n.toInt < 0
  · exact exists_spelled_of_neg hneg hmin
  · exact exists_spelled_of_nonneg (Int.not_lt.mp hneg)

end Integer

/-- The text of an integer, other than the least one, is read as an expression whose value is the
integer, whatever the variables are. -/
theorem ofSource_integer (n : Int64) (serial : Nat) (hmin : n ≠ Int64.minValue) :
    ∃ e, Expression.ofSource (Value.integer n).text serial = .ok e ∧
      ∀ bindings, e.evaluate bindings = .ok (.integer n) := by
  obtain ⟨forms, part, hspelled⟩ := Integer.exists_spelled hmin
  have hsplits : Splits (Value.integer n).text.toList forms := by
    have hnil := hspelled.splits Lexeme.ends_nil (.nil nofun)
    rwa [List.append_nil, List.append_nil] at hnil
  obtain ⟨tokens, place, htokens, hshapes⟩ := tokenize_of_splits hsplits
  obtain ⟨k, hderives, hk⟩ := hspelled.derives tokens hshapes
  have htree : Tree.ofTokens (tokens ++ [Token.eof place]) = .ok part :=
    ofTokens_of_derives (Parser.withEnd_concat_eof tokens place) rfl hderives hspelled.admitted hk
  refine ⟨.mk (Value.integer n).text part serial, ?_, fun bindings => ?_⟩
  · rw [Expression.ofSource_eq, htokens]
    dsimp only
    rw [htree]
  · rw [Expression.evaluate, Expression.tree, Tree.evaluate_eq_within,
      show maxEvaluationDepth = 510 + 2 from rfl, hspelled.value]
    rfl

/-- The integer one above the least is read back with its sign. -/
theorem ofSource_integer_negative :
    (Value.integer (-9223372036854775807)).text = "-9223372036854775807" ∧
      ∃ e, Expression.ofSource "-9223372036854775807" 0 = .ok e ∧
        e.evaluate Bindings.empty = .ok (.integer (-9223372036854775807)) := by
  have htext : (Value.integer (-9223372036854775807)).text = "-9223372036854775807" := by
    decide +kernel
  obtain ⟨e, hread, hvalue⟩ := ofSource_integer (-9223372036854775807) 0 (by decide)
  rw [htext] at hread
  exact ⟨htext, e, hread, hvalue Bindings.empty⟩

/-- The digits of the least integer are no literal, since they are read without their sign. -/
theorem ofSource_least_integer :
    Expression.ofSource (Value.integer Int64.minValue).text 0 =
      .error (.lexical (.invalidNumber "9223372036854775808" 1)) := by
  have htokens : tokenize (Value.integer Int64.minValue).text =
      .error (.invalidNumber "9223372036854775808" 1) := by decide +kernel
  rw [Expression.ofSource_eq, htokens]

end Formula
