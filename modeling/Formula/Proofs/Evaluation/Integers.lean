import Formula.Proofs.Evaluation.Within
import Formula.Proofs.Expression.WellFormed

/-!
# Arithmetic of integers

`Tree.number?` is what a formula of integers means in whole numbers, without a thought about the size
of a word. An evaluation comes to that number or reports an overflow, and it does the first exactly
if the number at every node fits into a word (`evaluate_integral`).

Each operator is a checked one: it works out the exact number and then looks for the word that holds
it (`apply_integers`). For the operators on bits that is so because their exact numbers are those of
words in the first place.
-/

namespace Formula

open NaturalPower

/-! ## Exact numbers -/

/-- Whether a whole number fits into a word. -/
def Integer.Fits (z : Int) : Prop := -2 ^ (63 : Nat) ≤ z ∧ z < 2 ^ (63 : Nat)

/-- The number of an operator with one operand. -/
def UnaryOp.number? (op : UnaryOp) (z : Int) : Option Int :=
  match op with
  | negate => some (-z)
  | plus => some z
  | not => none

/-- The number of an operator with two operands. Bits are those of the two's complement in 64 places.
A shift needs a count between 0 and 63; upward, the number is brought back into the range of a word,
and downward it is rounded down. -/
def BinaryOp.number? (op : BinaryOp) (y z : Int) : Option Int :=
  match op with
  | add => some (y + z)
  | subtract => some (y - z)
  | multiply => some (y * z)
  | bitAnd => some (BitVec.ofInt 64 y &&& BitVec.ofInt 64 z).toInt
  | bitOr => some (BitVec.ofInt 64 y ||| BitVec.ofInt 64 z).toInt
  | bitXor => some (BitVec.ofInt 64 y ^^^ BitVec.ofInt 64 z).toInt
  | shiftLeft => if 0 ≤ z ∧ z ≤ 63 then some ((y * 2 ^ z.toNat).bmod (2 ^ (64 : Nat))) else none
  | shiftRight => if 0 ≤ z ∧ z ≤ 63 then some (y.fdiv (2 ^ z.toNat)) else none
  | _ => none

/-- The operators that take two integers to an integer, but for the remainder. -/
def BinaryOp.integral : List BinaryOp :=
  [add, subtract, multiply, bitAnd, bitOr, bitXor, shiftLeft, shiftRight]

/-- Whether a tree is made of integers, and of operators that take integers to an integer. -/
inductive Tree.IsIntegral (bindings : Bindings) : Tree → Prop where
  | literal (n : Int64) : IsIntegral bindings (.literal (.integer n))
  | reference {name : String} {n : Int64} (hbound : bindings.get? name = some (.integer n)) :
      IsIntegral bindings (.reference name)
  | unary {op : UnaryOp} {operand : Tree} (hop : op = .negate ∨ op = .plus)
      (h : IsIntegral bindings operand) : IsIntegral bindings (.unary op operand)
  | binary {op : BinaryOp} {left right : Tree} (hop : op ∈ BinaryOp.integral)
      (hleft : IsIntegral bindings left) (hright : IsIntegral bindings right) :
      IsIntegral bindings (.binary op left right)

/-- The number that a tree of integers stands for, if it stands for one. -/
def Tree.number? (bindings : Bindings) : Tree → Option Int
  | literal (.integer n) => some n.toInt
  | reference name =>
    match bindings.get? name with
    | some (.integer n) => some n.toInt
    | _ => none
  | unary op operand => do op.number? (← operand.number? bindings)
  | binary op left right => do op.number? (← left.number? bindings) (← right.number? bindings)
  | _ => none

/-- Whether every node of a tree stands for a number that fits into a word. -/
def Tree.Exact (bindings : Bindings) (tree : Tree) : Prop :=
  ∀ node, tree.Contains node → ∃ z, node.number? bindings = some z ∧ Integer.Fits z

/-! ## Words and whole numbers -/

namespace Integer

/-- What an integer denotes fits its range. -/
theorem fits_toInt (n : Int64) : Fits n.toInt := ⟨n.le_toInt, n.toInt_lt⟩

/-- Only a number outside of the range is refused. -/
theorem ofInt?_eq_none_iff {z : Int} : ofInt? z = none ↔ ¬ Fits z := by
  have hmin : Int64.minValue.toInt = -2 ^ (63 : Nat) := by decide
  have hmax : Int64.maxValue.toInt = 2 ^ (63 : Nat) - 1 := by decide
  unfold ofInt? Fits
  rw [ite_eq_right_iff]
  constructor
  · intro h hfits
    exact nomatch h ⟨by omega, by omega⟩
  · intro h hrange
    exact absurd ⟨by omega, by omega⟩ h

variable {a count : Int64}

/-- The count of a shift, as a word of bits. -/
theorem smod_count (hlo : 0 ≤ count.toInt) (hhi : count.toInt ≤ 63) :
    count.toBitVec.smod 64 = count.toBitVec := by
  apply BitVec.eq_of_toInt_eq
  rw [BitVec.toInt_smod, Int64.toInt_toBitVec, show (64 : BitVec 64).toInt = 64 by decide,
    Int.fmod_eq_emod_of_nonneg _ (by omega), Int.emod_eq_of_lt hlo (by omega)]

/-- A count that is not negative is the same number without a sign. -/
theorem toNat_count (hlo : 0 ≤ count.toInt) : count.toBitVec.toNat = count.toInt.toNat := by
  have htoInt := BitVec.toInt_eq_toNat_cond count.toBitVec
  rw [Int64.toInt_toBitVec] at htoInt
  split at htoInt
  · omega
  · have hlt := count.toBitVec.isLt
    omega

/-- Shifting to the left multiplies by a power of two and wraps around. -/
theorem toInt_shiftLeft (hlo : 0 ≤ count.toInt) (hhi : count.toInt ≤ 63) :
    (a <<< count).toInt = (a.toInt * 2 ^ count.toInt.toNat).bmod (2 ^ (64 : Nat)) := by
  rw [← Int64.toInt_toBitVec, Int64.toBitVec_shiftLeft, smod_count hlo hhi, BitVec.shiftLeft_eq',
    toNat_count hlo, BitVec.toInt_shiftLeft, ← Int64.toInt_toBitVec a,
    BitVec.toInt_eq_toNat_bmod a.toBitVec, Int.bmod_mul_bmod, Nat.shiftLeft_eq]
  push_cast
  rfl

/-- Shifting to the right divides by a power of two and rounds down. -/
theorem toInt_shiftRight (hlo : 0 ≤ count.toInt) (hhi : count.toInt ≤ 63) :
    (a >>> count).toInt = a.toInt.fdiv (2 ^ count.toInt.toNat) := by
  rw [← Int64.toInt_toBitVec, Int64.toBitVec_shiftRight, smod_count hlo hhi,
    BitVec.toInt_sshiftRight', toNat_count hlo, Int.shiftRight_eq_div_pow, Int64.toInt_toBitVec,
    Int.fdiv_eq_ediv_of_nonneg _ (Int.pow_nonneg (by decide))]
  push_cast
  rfl

/-- The counts that are allowed are those from 0 to 63. -/
theorem count_iff : (0 ≤ count ∧ count < 64) ↔ 0 ≤ count.toInt ∧ count.toInt ≤ 63 := by
  rw [Int64.le_iff_toInt_le, Int64.lt_iff_toInt_lt, show (64 : Int64).toInt = 64 by decide,
    show (0 : Int64).toInt = 0 by decide]
  omega

/-- A shift to the left has the exact result wherever that is defined and fits. -/
theorem shiftLeft?_eq (a count : Int64) :
    shiftLeft? a count = (BinaryOp.shiftLeft.number? a.toInt count.toInt).bind ofInt? := by
  by_cases h : 0 ≤ count.toInt ∧ count.toInt ≤ 63
  · rw [shiftLeft?, if_pos (count_iff.mpr h), BinaryOp.number?, if_pos h, Option.bind_some,
      ← toInt_shiftLeft h.1 h.2, ofInt?_toInt]
  · rw [shiftLeft?, if_neg (h ∘ count_iff.mp), BinaryOp.number?, if_neg h, Option.bind_none]

/-- So has a shift to the right. -/
theorem shiftRight?_eq (a count : Int64) :
    shiftRight? a count = (BinaryOp.shiftRight.number? a.toInt count.toInt).bind ofInt? := by
  by_cases h : 0 ≤ count.toInt ∧ count.toInt ≤ 63
  · rw [shiftRight?, if_pos (count_iff.mpr h), BinaryOp.number?, if_pos h, Option.bind_some,
      ← toInt_shiftRight h.1 h.2, ofInt?_toInt]
  · rw [shiftRight?, if_neg (h ∘ count_iff.mp), BinaryOp.number?, if_neg h, Option.bind_none]

/-- An operation on the bits of words is one on the bits of their numbers. -/
theorem some_eq_ofInt?_bits {a b c : Int64} (f : BitVec 64 → BitVec 64 → BitVec 64)
    (hc : c.toBitVec = f a.toBitVec b.toBitVec) :
    some c = ofInt? (f (.ofInt 64 a.toInt) (.ofInt 64 b.toInt)).toInt := by
  rw [← Int64.toInt_toBitVec a, ← Int64.toInt_toBitVec b, BitVec.ofInt_toInt, BitVec.ofInt_toInt,
    ← hc, Int64.toInt_toBitVec, ofInt?_toInt]

end Integer

/-! ## Operators -/

/-- A sign of an integer comes to the word of its exact number. -/
theorem UnaryOp.apply_integer {op : UnaryOp} (hop : op = .negate ∨ op = .plus) (n : Int64) :
    op.apply (.integer n) =
      Value.orOverflow op.symbol .integer ((op.number? n.toInt).bind Integer.ofInt?) := by
  rcases hop with rfl | rfl
  · rfl
  · show _ = Value.orOverflow "+" .integer (Integer.ofInt? n.toInt)
    rw [Integer.ofInt?_toInt]
    rfl

/-- An operator on integers comes to the word of its exact number. -/
theorem BinaryOp.apply_integers {op : BinaryOp} (hop : op ∈ BinaryOp.integral) (a b : Int64) :
    op.apply (.integer a) (.integer b) =
      Value.orOverflow op.symbol .integer ((op.number? a.toInt b.toInt).bind Integer.ofInt?) := by
  simp only [integral, List.mem_cons, List.not_mem_nil, or_false] at hop
  rcases hop with rfl | rfl | rfl | rfl | rfl | rfl | rfl | rfl
  · rfl
  · rfl
  · rfl
  · exact congrArg (Value.orOverflow "&" .integer)
      (Integer.some_eq_ofInt?_bits (· &&& ·) (Int64.toBitVec_and a b))
  · exact congrArg (Value.orOverflow "|" .integer)
      (Integer.some_eq_ofInt?_bits (· ||| ·) (Int64.toBitVec_or a b))
  · exact congrArg (Value.orOverflow "^" .integer)
      (Integer.some_eq_ofInt?_bits (· ^^^ ·) (Int64.toBitVec_xor a b))
  · exact congrArg (Value.orOverflow "<<" .integer) (Integer.shiftLeft?_eq a b)
  · exact congrArg (Value.orOverflow ">>" .integer) (Integer.shiftRight?_eq a b)

/-! ## Trees -/

variable {bindings : Bindings} {tree : Tree}

/-- If a tree is exact, so are its parts. -/
theorem Tree.Exact.of_mem_parts {part : Tree} (h : tree.Exact bindings) (hpart : part ∈ tree.parts) :
    part.Exact bindings :=
  fun node hnode => h node (.inside hpart hnode)

/-- A tree is exact if its parts are and its own number is defined and fits. -/
theorem Tree.exact_of_parts {z : Int} (hparts : ∀ part ∈ tree.parts, part.Exact bindings)
    (hexact : tree.number? bindings = some z) (hfits : Integer.Fits z) : tree.Exact bindings := by
  intro node hnode
  cases hnode with
  | self => exact ⟨z, hexact, hfits⟩
  | inside hpart hnode => exact hparts _ hpart node hnode

/-- Whether a result is the exact value of a tree, or reports that there is none in range. -/
inductive Tree.Reports (bindings : Bindings) (tree : Tree) : Except EvalError Value → Prop where
  | value {n : Int64} (h : tree.Exact bindings) (hexact : tree.number? bindings = some n.toInt) :
      Reports bindings tree (.ok (.integer n))
  | overflow (op : String) (h : ¬ tree.Exact bindings) :
      Reports bindings tree (.error (.overflow op))

/-- A node reports what it reports of the number of a part, as it is not exact if the part is not. -/
theorem Tree.Reports.bind {part : Tree} {result : Except EvalError Value}
    {next : Value → Except EvalError Value} (h : part.Reports bindings result)
    (hpart : part ∈ tree.parts)
    (hnext : ∀ n : Int64, part.Exact bindings → part.number? bindings = some n.toInt →
      tree.Reports bindings (next (.integer n))) :
    tree.Reports bindings (result >>= next) := by
  cases h with
  | value hexact hnumber => exact hnext _ hexact hnumber
  | overflow op hnot => exact .overflow op fun h => hnot (h.of_mem_parts hpart)

/-- A node whose parts are exact reports its number if it looks for the word that holds it. -/
theorem Tree.reports_orOverflow (hparts : ∀ part ∈ tree.parts, part.Exact bindings) (op : String) :
    tree.Reports bindings
      (Value.orOverflow op .integer ((tree.number? bindings).bind Integer.ofInt?)) := by
  cases hexact : tree.number? bindings with
  | none =>
    apply Reports.overflow
    intro h
    obtain ⟨z, hz, -⟩ := h tree (.self tree)
    exact nomatch hexact.symm.trans hz
  | some z =>
    rw [Option.bind_some]
    cases hword : Integer.ofInt? z with
    | none =>
      apply Reports.overflow
      intro h
      obtain ⟨z', hz', hfits⟩ := h tree (.self tree)
      cases hexact.symm.trans hz'
      exact Integer.ofInt?_eq_none_iff.mp hword hfits
    | some n =>
      have hn : n.toInt = z := Integer.toInt_of_ofInt? hword
      subst hn
      exact .value (exact_of_parts hparts hexact (Integer.fits_toInt n)) hexact

/-- An operator on integers evaluates both of its operands, the left one first. -/
theorem Tree.within_binary {op : BinaryOp} (hop : op ∈ BinaryOp.integral) {left right : Tree}
    {levels nesting : Nat} :
    (Tree.binary op left right).within bindings (levels + 1) nesting =
      left.within bindings levels nesting >>= fun a =>
        right.within bindings levels nesting >>= fun b => op.apply a b := by
  cases op with
  | and => exact absurd hop (by decide)
  | or => exact absurd hop (by decide)
  | _ => rfl

/-- An evaluation with enough levels reports the number of a tree of integers, whatever it is inside
of. -/
theorem Tree.IsIntegral.reports_within (h : tree.IsIntegral bindings) {levels : Nat}
    (hlevels : tree.height ≤ levels) (nesting : Nat) :
    tree.Reports bindings (tree.within bindings levels nesting) := by
  induction h generalizing levels with
  | literal n =>
    obtain ⟨levels, rfl⟩ := Nat.exists_eq_add_one.mpr hlevels
    exact .value (exact_of_parts (List.forall_mem_nil _) rfl (Integer.fits_toInt n)) rfl
  | @reference name n hbound =>
    obtain ⟨levels, rfl⟩ := Nat.exists_eq_add_one.mpr hlevels
    have hexact : (Tree.reference name).number? bindings = some n.toInt := by
      simp only [number?, hbound]
    have hvalue : (Tree.reference name).within bindings (levels + 1) nesting = .ok (.integer n) := by
      simp only [within, nodeValue, hbound]
    rw [hvalue]
    exact .value (exact_of_parts (List.forall_mem_nil _) hexact (Integer.fits_toInt n)) hexact
  | @unary op operand hop h ih =>
    rw [height] at hlevels
    obtain ⟨levels, rfl⟩ := Nat.exists_eq_add_one.mpr (Nat.zero_lt_of_lt hlevels)
    refine (ih (Nat.le_of_succ_le_succ hlevels)).bind List.mem_cons_self fun n hoperand hn => ?_
    have hexact : (Tree.unary op operand).number? bindings = op.number? n.toInt := by
      rw [number?, hn]
      rfl
    have hparts : ∀ part ∈ (Tree.unary op operand).parts, part.Exact bindings :=
      List.forall_mem_singleton.mpr hoperand
    rw [op.apply_integer hop, ← hexact]
    exact reports_orOverflow hparts op.symbol
  | @binary op left right hop hleft hright ihleft ihright =>
    rw [height] at hlevels
    obtain ⟨levels, rfl⟩ := Nat.exists_eq_add_one.mpr (Nat.zero_lt_of_lt hlevels)
    have hmem : right ∈ (Tree.binary op left right).parts :=
      List.mem_cons_of_mem left List.mem_cons_self
    rw [within_binary hop]
    refine (ihleft (by omega)).bind List.mem_cons_self fun m hleft hm => ?_
    refine (ihright (by omega)).bind hmem fun n hright hn => ?_
    have hexact : (Tree.binary op left right).number? bindings = op.number? m.toInt n.toInt := by
      rw [number?, hm, hn]
      rfl
    have hparts : ∀ part ∈ (Tree.binary op left right).parts, part.Exact bindings :=
      List.forall_mem_cons.mpr ⟨hleft, List.forall_mem_singleton.mpr hright⟩
    rw [op.apply_integers hop, ← hexact]
    exact reports_orOverflow hparts op.symbol

/-- A formula of integers comes to its exact number if there is one in range at every node of it, and
reports an overflow otherwise: nothing wraps around, and there is no other error. -/
theorem evaluate_integral (e : Expression) (bindings : Bindings) (hread : e.IsRead)
    (h : e.tree.IsIntegral bindings) :
    (e.tree.Exact bindings → ∃ n : Int64, e.evaluate bindings = .ok (.integer n) ∧
      e.tree.number? bindings = some n.toInt) ∧
    (¬ e.tree.Exact bindings →
      ∃ op, e.evaluate bindings = .error (.evaluation (.overflow op))) := by
  have hlevels : e.tree.height ≤ maxEvaluationDepth := hread.admitted.height.trans (by decide)
  have hreports := h.reports_within hlevels 0
  rw [← Tree.evaluate_eq_within] at hreports
  unfold Expression.evaluate
  generalize e.tree.evaluate bindings = result at hreports
  cases hreports with
  | value hexact hn => exact ⟨fun _ => ⟨_, rfl, hn⟩, absurd hexact⟩
  | overflow op hnot => exact ⟨fun hexact => absurd hexact hnot, fun _ => ⟨op, rfl⟩⟩

/-- The formula `9223372036854775807 + [x] - 1` has a number in range, but where `x` is 1 its sum has
none. -/
theorem evaluate_integral_max :
    let greatest := Tree.literal (.integer 9223372036854775807)
    let sum := Tree.binary .add greatest (.reference "x")
    let e := Expression.mk "9223372036854775807 + [x] - 1"
      (.binary .subtract sum (.literal (.integer 1))) 0
    let bindings := Bindings.empty.insert "x" (.integer 1)
    e.IsRead ∧ e.tree.IsIntegral bindings ∧ ¬ e.tree.Exact bindings ∧
      ∃ op, e.evaluate bindings = .error (.evaluation (.overflow op)) := by
  intro greatest sum e bindings
  have hbound : bindings.get? "x" = some (.integer 1) := by
    rw [Bindings.get?_insert, if_pos rfl]
  have htokens : tokenize "9223372036854775807 + [x] - 1" =
      .ok [⟨.number, "9223372036854775807", 0⟩, ⟨.operator, "+", 20⟩, ⟨.reference, "x", 22⟩,
        ⟨.operator, "-", 26⟩, ⟨.number, "1", 28⟩, Token.eof 29] := by decide +kernel
  have hread : e.IsRead := by
    refine ⟨"9223372036854775807 + [x] - 1", 0, ?_⟩
    rw [Expression.ofSource_eq, htokens]
    rfl
  have hintegral : e.tree.IsIntegral bindings :=
    .binary (by decide) (.binary (by decide) (.literal _) (.reference hbound)) (.literal 1)
  have hnot : ¬ e.tree.Exact bindings := by
    intro h
    obtain ⟨z, hz, -, hlt⟩ := h sum (.inside List.mem_cons_self (.self sum))
    have hsum : sum.number? bindings = some 9223372036854775808 := by
      simp only [sum, greatest, Tree.number?, hbound]
      rfl
    cases hsum.symm.trans hz
    exact absurd hlt (by decide)
  exact ⟨hread, hintegral, hnot, (evaluate_integral e bindings hread hintegral).2 hnot⟩

end Formula
