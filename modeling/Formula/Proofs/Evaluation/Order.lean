import Formula.Proofs.Evaluation.Comparison
import Formula.Proofs.Evaluation.Kinds
import Mathlib.Data.Prod.Lex
import Mathlib.Data.String.Basic

/-!
# The six comparisons as one relation

Each of the six operators asks for the order of its operands and looks at nothing else, so what they
have in common is a matter of `compare?`. Whatever two values are compared, they are compared the other
way round as well, and then their order is the opposite one: `compares` says so, and which values have
an order at all. The laws of the operators (`comparisons_consistent`) are read off from there, one
order at a time.

The order itself is that of a linear order wherever there is one: of the rational numbers, of the
texts, of the truth values, or of the fields of a time.
-/

namespace Formula

/-! ## Times -/

/-- The fields of a day, which count in this order. -/
def Date.fields (a : Date) : ℤ ×ₗ ℕ ×ₗ ℕ := toLex (a.year, toLex (a.month, a.day))

/-- The fields of a time of day, which count in this order. -/
def TimeOfDay.fields (a : TimeOfDay) : ℕ ×ₗ ℕ ×ₗ ℕ ×ₗ ℕ :=
  toLex (a.hour, toLex (a.minute, toLex (a.second, a.nanosecond)))

/-- The fields of a point in time, those of the day before those of the time. -/
def DateTime.fields (a : DateTime) : (ℤ ×ₗ ℕ ×ₗ ℕ) ×ₗ ℕ ×ₗ ℕ ×ₗ ℕ ×ₗ ℕ :=
  toLex (a.date.fields, a.time.fields)

/-- Points in time are compared field by field. -/
theorem DateTime.compare_eq (a b : DateTime) : a.compare b = cmp a.fields b.fields := by
  rw [cmp_eq_compare]
  rfl

/-- A point in time is told by its fields. -/
theorem DateTime.fields_injective : Function.Injective DateTime.fields := by
  rintro ⟨⟨year, month, day, _⟩, ⟨hour, minute, second, nanosecond, _⟩⟩
    ⟨⟨year', month', day', _⟩, ⟨hour', minute', second', nanosecond', _⟩⟩ h
  cases h
  rfl

/-! ## Kinds that can be compared -/

namespace Kind

/-- Numbers of any kinds can be compared. -/
theorem comparable_of_isNumeric {left right : Kind} (h : left.isNumeric = true)
    (h' : right.isNumeric = true) : left.comparable right = true := by
  cases left <;> cases right <;> first | contradiction | rfl

/-- Two kinds that can be compared can be compared with the same kinds. -/
theorem comparable_congr {left middle : Kind} (h : left.comparable middle = true) (right : Kind) :
    left.comparable right = middle.comparable right := by
  cases left <;> cases middle <;> first | contradiction | rfl

end Kind

/-! ## Operators on orders -/

namespace BinaryOp

/-- The operators that compare their operands. -/
def comparisons : List BinaryOp :=
  [equal, notEqual, lessThan, greaterThan, lessEqual, greaterEqual]

/-- The comparisons of which one holds and two do not, for values that have an order. -/
def trichotomy : List BinaryOp := [lessThan, equal, greaterThan]

/-- Less, equal and greater are comparisons. -/
theorem mem_comparisons_of_mem_trichotomy :
    ∀ {op : BinaryOp}, op ∈ trichotomy → op ∈ comparisons := by decide

/-- Where there is an order, exactly one of less, equal and greater holds. -/
theorem exists_holds_some (order : Ordering) : ∃ op ∈ trichotomy,
    ∀ other ∈ trichotomy, other.holds (some order) = decide (other = op) := by
  cases order <;> decide

/-- Where there is none, only being unequal holds. -/
theorem holds_none : ∀ op ∈ comparisons, op.holds none = decide (op = notEqual) := by decide

/-- Greater is less with the sides swapped. -/
theorem greaterThan_holds_swap (order : Option Ordering) :
    greaterThan.holds (order.map Ordering.swap) = lessThan.holds order := by
  rcases order with _ | _ | _ | _ <;> rfl

/-- At least is at most with the sides swapped. -/
theorem greaterEqual_holds_swap (order : Option Ordering) :
    greaterEqual.holds (order.map Ordering.swap) = lessEqual.holds order := by
  rcases order with _ | _ | _ | _ <;> rfl

/-- Equality does not change if the sides are swapped. -/
theorem equal_holds_swap (order : Option Ordering) :
    equal.holds (order.map Ordering.swap) = equal.holds order := by
  rcases order with _ | _ | _ | _ <;> rfl

variable {α : Type} [LinearOrder α]

/-- In a linear order, less is that of the order. -/
theorem lessThan_holds_cmp (s t : α) : lessThan.holds (some (cmp s t)) = decide (s < t) := by
  rw [Bool.eq_iff_iff, decide_eq_true_iff, ← cmp_eq_lt_iff s t]
  show (some (cmp s t) == some .lt) = true ↔ _
  rw [beq_iff_eq, Option.some_inj]

/-- In a linear order, greater is that of the order. -/
theorem greaterThan_holds_cmp (s t : α) : greaterThan.holds (some (cmp s t)) = decide (t < s) := by
  rw [← cmp_swap t s, ← Option.map_some, greaterThan_holds_swap, lessThan_holds_cmp]

/-- In a linear order, equality is that of the elements. -/
theorem equal_holds_cmp (s t : α) :
    equal.holds (some (cmp s t)) = decide (s = t) := by
  rw [Bool.eq_iff_iff, decide_eq_true_iff, ← cmp_eq_eq_iff s t]
  show (some (cmp s t) == some .eq) = true ↔ _
  rw [beq_iff_eq, Option.some_inj]

end BinaryOp

namespace Value

variable {a b : Value} {op : BinaryOp}

/-! ## The order of two values -/

/-- Two values have no order exactly if their kinds cannot be compared. -/
theorem compare?_eq_none_iff : compare? a b = none ↔ a.kind.comparable b.kind = false := by
  refine ⟨compare?_eq_none, fun h => ?_⟩
  cases a <;> cases b <;> first | rfl | cases h

/-- Strings are in the order of strings. -/
theorem compare?_strings (s t : String) :
    compare? (.string s) (.string t) = some (some (cmp s t)) := by
  rw [cmp_eq_compare]
  rfl

/-- Truth values are in their order, with false before true. -/
theorem compare?_booleans (s t : Bool) :
    compare? (.boolean s) (.boolean t) = some (some (cmp s t)) := by
  rw [cmp_eq_compare]
  rfl

/-- Points in time are in the order of their fields. -/
theorem compare?_dateTimes (s t : DateTime) :
    compare? (.dateTime s) (.dateTime t) = some (some (cmp s.fields t.fields)) := by
  rw [← DateTime.compare_eq]
  rfl

/-- A number has no order beside a NaN. -/
theorem compare?_nan (h : a.isNumeric = true) :
    compare? a (.double .nan) = some none ∧ compare? (.double .nan) a = some none := by
  have hnone (x : Double) : x.compare? .nan = none := by
    unfold Double.compare?
    cases x.rank <;> rfl
  cases a with
  | integer n => exact ⟨congrArg some (hnone (.ofInteger n)), rfl⟩
  | decimal d => exact ⟨congrArg some (hnone d.toDouble), rfl⟩
  | double x => exact ⟨congrArg some (hnone x), rfl⟩
  | _ => exact nomatch h

/-- Whether one of two values is NaN. -/
def InvolveNaN (a b : Value) : Prop := a = .double .nan ∨ b = .double .nan

/-- What two values have for an order, and what they have the other way round: nothing if they
cannot be compared, none because of a NaN, or two opposite orders. -/
inductive Compares (a b : Value) : (there back : Option (Option Ordering)) → Prop where
  | apart (h : a.kind.comparable b.kind = false) : Compares a b none none
  | unordered (h : a.kind.comparable b.kind = true) (hnan : InvolveNaN a b) :
      Compares a b (some none) (some none)
  | ordered (order : Ordering) (h : a.kind.comparable b.kind = true) (hnan : ¬ InvolveNaN a b) :
      Compares a b (some (some order)) (some (some order.swap))

/-- Values that are compared by their places in a linear order have opposite orders. -/
theorem Compares.of_cmp {α : Type} [LinearOrder α] {s t : α} {there back : Option (Option Ordering)}
    (h : a.kind.comparable b.kind = true) (hnan : ¬ InvolveNaN a b)
    (hthere : there = some (some (cmp s t))) (hback : back = some (some (cmp t s))) :
    Compares a b there back := by
  rw [hthere, hback, ← cmp_swap s t]
  exact .ordered _ h hnan

/-- Two numbers are compared in both directions, at the same places. -/
theorem compares_of_isNumeric (ha : a.isNumeric = true) (hb : b.isNumeric = true) :
    Compares a b (compare? a b) (compare? b a) := by
  have h : a.kind.comparable b.kind = true := Kind.comparable_of_isNumeric ha hb
  by_cases hnan : InvolveNaN a b
  · rcases hnan with rfl | rfl
    · obtain ⟨hthere, hback⟩ := compare?_nan hb
      rw [hthere, hback]
      exact .unordered h (.inl rfl)
    · obtain ⟨hthere, hback⟩ := compare?_nan ha
      rw [hthere, hback]
      exact .unordered h (.inr rfl)
  · obtain ⟨p, hp⟩ := IsNumber.exists_liesAt (a := a) ⟨ha, fun h => hnan (.inl h)⟩
    obtain ⟨q, hq⟩ := IsNumber.exists_liesAt (a := b) ⟨hb, fun h => hnan (.inr h)⟩
    obtain ⟨r, s, hthere, hback⟩ := exists_compare? hp hq
    exact .of_cmp h hnan hthere hback

/-- Two values are compared the other way round if they are compared, and have the opposite order if
they have one. -/
theorem compares (a b : Value) : Compares a b (compare? a b) (compare? b a) := by
  cases h : a.kind.comparable b.kind with
  | false =>
    have hback : b.kind.comparable a.kind = false := (Kind.comparable_symm _ _).trans h
    rw [compare?_eq_none_iff.mpr h, compare?_eq_none_iff.mpr hback]
    exact .apart h
  | true =>
    cases a with
    | integer n | decimal d | double x => exact compares_of_isNumeric rfl h
    | string s =>
      cases b with
      | string t => exact .of_cmp h nofun (compare?_strings s t) (compare?_strings t s)
      | _ => exact nomatch h
    | boolean s =>
      cases b with
      | boolean t => exact .of_cmp h nofun (compare?_booleans s t) (compare?_booleans t s)
      | _ => exact nomatch h
    | dateTime s =>
      cases b with
      | dateTime t => exact .of_cmp h nofun (compare?_dateTimes s t) (compare?_dateTimes t s)
      | _ => exact nomatch h
    | expression e => exact nomatch h

/-! ## Laws of the comparisons -/

/-- A comparison operator asks for the order of its operands. -/
theorem apply_of_mem_comparisons (hop : op ∈ BinaryOp.comparisons) (a b : Value) :
    op.apply a b = relate op a b := by
  simp only [BinaryOp.comparisons, List.mem_cons, List.not_mem_nil, or_false] at hop
  rcases hop with rfl | rfl | rfl | rfl | rfl | rfl <;> rfl

/-- Where there is an order, the operator says whether it holds. -/
theorem relate_eq_ok {order : Option Ordering} (h : compare? a b = some order) (op : BinaryOp) :
    relate op a b = .ok (.boolean (op.holds order)) := by
  simp only [relate, compare, h, Except.map]

/-- Where there is none, the kinds are refused. -/
theorem relate_eq_error (h : compare? a b = none) (op : BinaryOp) :
    relate op a b = .error (mismatch op a b) := by
  simp only [relate, compare, h, Except.map]

/-- A comparison fails exactly if its operands cannot be compared. -/
theorem exists_relate_eq_error_iff (op : BinaryOp) :
    (∃ e, relate op a b = .error e) ↔ a.kind.comparable b.kind = false := by
  rw [← compare?_eq_none_iff]
  cases h : compare? a b with
  | none => exact iff_of_true ⟨_, relate_eq_error h op⟩ rfl
  | some order =>
    refine iff_of_false ?_ nofun
    rintro ⟨e, he⟩
    exact nomatch (relate_eq_ok h op).symm.trans he

/-- The laws of the comparisons of two values that can be compared. -/
structure Consistent (a b : Value) : Prop where
  less_swap : BinaryOp.lessThan.apply a b = BinaryOp.greaterThan.apply b a
  lessEqual_swap : BinaryOp.lessEqual.apply a b = BinaryOp.greaterEqual.apply b a
  equal_swap : BinaryOp.equal.apply a b = BinaryOp.equal.apply b a
  notEqual_eq_not : BinaryOp.notEqual.apply a b = BinaryOp.equal.apply a b >>= UnaryOp.not.apply
  lessEqual_eq_or : BinaryOp.lessEqual.apply a b = do
    BinaryOp.or.apply (← BinaryOp.lessThan.apply a b) (← BinaryOp.equal.apply a b)
  /-- Without a NaN, one of three operators yields true, and the others yield false. -/
  one_of_three : ¬ InvolveNaN a b →
    ∃ op ∈ BinaryOp.trichotomy, ∀ other ∈ BinaryOp.trichotomy,
      other.apply a b = .ok (.boolean (other = op))
  /-- With a NaN, the values are different, and that is all that can be said of them. -/
  only_notEqual : InvolveNaN a b →
    ∀ op ∈ BinaryOp.comparisons, op.apply a b = .ok (.boolean (op = .notEqual))

/-- The laws hold as soon as the two orders are opposite ones, and missing only beside a NaN. -/
theorem Consistent.of_compare? {order : Option Ordering} (hthere : compare? a b = some order)
    (hback : compare? b a = some (order.map Ordering.swap))
    (hnan : InvolveNaN a b ↔ order = none) : Consistent a b := by
  have there := relate_eq_ok hthere
  have back := relate_eq_ok hback
  have hcomparisons (op : BinaryOp) (hop : op ∈ BinaryOp.comparisons) :
      op.apply a b = .ok (.boolean (op.holds order)) :=
    (apply_of_mem_comparisons hop a b).trans (there op)
  constructor
  case less_swap =>
    show relate .lessThan a b = relate .greaterThan b a
    rw [there, back, BinaryOp.greaterThan_holds_swap]
  case lessEqual_swap =>
    show relate .lessEqual a b = relate .greaterEqual b a
    rw [there, back, BinaryOp.greaterEqual_holds_swap]
  case equal_swap =>
    show relate .equal a b = relate .equal b a
    rw [there, back, BinaryOp.equal_holds_swap]
  case notEqual_eq_not =>
    show relate .notEqual a b = relate .equal a b >>= UnaryOp.not.apply
    rw [there, there]
    rfl
  case lessEqual_eq_or =>
    show relate .lessEqual a b = do BinaryOp.or.apply (← relate .lessThan a b) (← relate .equal a b)
    rw [there, there, there]
    rfl
  case one_of_three =>
    intro hordered
    rw [hnan] at hordered
    obtain ⟨order, rfl⟩ := Option.ne_none_iff_exists'.mp hordered
    obtain ⟨op, hop, hholds⟩ := BinaryOp.exists_holds_some order
    refine ⟨op, hop, fun other hother => ?_⟩
    rw [hcomparisons other (BinaryOp.mem_comparisons_of_mem_trichotomy hother), hholds other hother]
  case only_notEqual =>
    intro hunordered op hop
    rw [hnan] at hunordered
    rw [hcomparisons op hop, hunordered, BinaryOp.holds_none op hop]

/-- Values whose kinds can be compared are compared consistently. -/
theorem consistent_of_comparable (h : a.kind.comparable b.kind = true) : Consistent a b := by
  have hcompares := compares a b
  generalize hthere : compare? a b = there at hcompares
  generalize hback : compare? b a = back at hcompares
  cases hcompares with
  | apart hapart => exact absurd (h.symm.trans hapart) (by decide)
  | unordered _ hnan => exact .of_compare? hthere hback (iff_of_true hnan rfl)
  | ordered order _ hnan => exact .of_compare? hthere hback (iff_of_false hnan nofun)

/-- Where the order is that of a linear order, equality of values is that of its elements. -/
theorem equal_apply_of_cmp {α : Type} [LinearOrder α] {s t : α}
    (h : compare? a b = some (some (cmp s t))) :
    BinaryOp.equal.apply a b = .ok (.boolean (s = t)) := by
  refine (relate_eq_ok h .equal).trans ?_
  rw [BinaryOp.equal_holds_cmp]

/-- Values of one kind other than expressions compare as equal if they are. -/
theorem equal_apply_of_kind (h : a.kind = b.kind) (hkind : a.kind ≠ .expression) :
    BinaryOp.equal.apply a b = .ok (.boolean (a == b)) := by
  cases a with
  | integer m =>
    cases b with
    | integer n =>
      have hcast : (m.toInt : ℚ) = n.toInt ↔ m = n := by rw [Int.cast_inj, Int64.toInt_inj]
      rw [equal_apply_of_cmp (compare?_integers m n), decide_eq_decide.mpr hcast]
      rfl
    | _ => exact nomatch h
  | decimal d =>
    cases b with
    | decimal e => rfl
    | _ => exact nomatch h
  | double x =>
    cases b with
    | double y => rfl
    | _ => exact nomatch h
  | string s =>
    cases b with
    | string t => exact equal_apply_of_cmp (compare?_strings s t)
    | _ => exact nomatch h
  | boolean s =>
    cases b with
    | boolean t => exact equal_apply_of_cmp (compare?_booleans s t)
    | _ => exact nomatch h
  | dateTime s =>
    cases b with
    | dateTime t =>
      rw [equal_apply_of_cmp (compare?_dateTimes s t),
        decide_eq_decide.mpr DateTime.fields_injective.eq_iff]
      rfl
    | _ => exact nomatch h
  | expression e => exact absurd rfl hkind

/-- The six comparisons are one relation. They fail for the same values, in either order of the
operands: those that are not two numbers, two strings, two truth values or two times. For all others
each comparison is what the order of the operands says, and the operands in the opposite order have the
opposite order. Values of one kind compare as equal if they are, but for expressions. -/
theorem comparisons_consistent (a b : Value) :
    (∀ op ∈ BinaryOp.comparisons,
      ((∃ e, op.apply a b = .error e) ↔ ∃ e, op.apply b a = .error e) ∧
        ((∃ e, op.apply a b = .error e) ↔ a.kind.comparable b.kind = false)) ∧
    (a.kind.comparable b.kind = true → Consistent a b) ∧
    (a.kind = b.kind → a.kind ≠ .expression →
      BinaryOp.equal.apply a b = .ok (.boolean (a == b))) := by
  refine ⟨fun op hop => ?_, consistent_of_comparable, equal_apply_of_kind⟩
  rw [apply_of_mem_comparisons hop, apply_of_mem_comparisons hop, exists_relate_eq_error_iff,
    exists_relate_eq_error_iff, Kind.comparable_symm b.kind a.kind]
  exact ⟨Iff.rfl, Iff.rfl⟩

end Value

end Formula
