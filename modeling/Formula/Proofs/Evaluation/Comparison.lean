import Formula.Evaluation.Operation
import Formula.Proofs.Number.Conversion

/-!
# Comparisons of numbers of different kinds

Two numbers are compared in a kind that both are brought to, and which one that is depends on both of
them. An integer beside a double is rounded to a double, and a double beside a decimal is taken for
the decimal of its leading digits. `LiesAt` says where a number is before any of that, and the lemmas
on `AtMost` say for any two kinds what the comparison makes of these places.

What all pairs of kinds have in common is monotonicity: in any comparison, a number may be replaced
by another one of its kind that lies further on its side (`atMost_mono`). And an integer is not moved
past a double by its rounding, nor a double past an integer (`atMost_double_of_le`).
-/

namespace Formula

open NaturalPower

namespace Value

/-! ## Numbers and their places -/

/-- Whether a value is a number. NaN is none. -/
def IsNumber (v : Value) : Prop := v.isNumeric = true ∧ v ≠ .double .nan

/-- Whether a value is the number at a place of the number line. -/
inductive LiesAt : Value → ℚ → Prop where
  | integer (n : Int64) : LiesAt (.integer n) n.toInt
  | decimal (d : Decimal) : LiesAt (.decimal d) d.value
  | double {x : Double} {p : ℚ} (h : x.place? = some p) : LiesAt (.double x) p

/-- Whether one value is at most another. -/
def AtMost (a b : Value) : Prop := BinaryOp.lessEqual.apply a b = .ok (.boolean true)

/-- Whether one value equals another. -/
def Equals (a b : Value) : Prop := BinaryOp.equal.apply a b = .ok (.boolean true)

variable {a b c : Value} {p q r : ℚ}

/-- Every number is somewhere on the number line. -/
theorem IsNumber.exists_liesAt (h : a.IsNumber) : ∃ p, a.LiesAt p := by
  obtain ⟨hnumeric, hnan⟩ := h
  cases a with
  | integer n => exact ⟨_, .integer n⟩
  | decimal d => exact ⟨_, .decimal d⟩
  | double x =>
    cases x with
    | nan => exact absurd rfl hnan
    | infinity negative => exact ⟨_, .double (Double.place?_infinity negative)⟩
    | finite negative units h => exact ⟨_, .double (Double.place?_finite negative units h)⟩
  | string s => exact nomatch hnumeric
  | boolean b => exact nomatch hnumeric
  | dateTime t => exact nomatch hnumeric
  | expression e => exact nomatch hnumeric

/-- A number is at one place. -/
theorem LiesAt.unique (h : a.LiesAt p) (h' : a.LiesAt q) : p = q := by
  cases h with
  | integer n => cases h'; rfl
  | decimal d => cases h'; rfl
  | double h =>
    cases h' with
    | double h' => exact Option.some.inj (h.symm.trans h')

/-- A comparison is true if the order of the values is one for which it holds. -/
theorem relate_eq_true_iff (op : BinaryOp) (a b : Value) :
    relate op a b = .ok (.boolean true) ↔ (compare? a b).any op.holds = true := by
  unfold relate compare
  cases compare? a b with
  | none => exact ⟨nofun, nofun⟩
  | some ordering =>
    show Except.ok (boolean (op.holds ordering)) = .ok (.boolean true) ↔ op.holds ordering = true
    rw [Except.ok.injEq, boolean.injEq]

instance : Decidable (AtMost a b) := decidable_of_iff _ (relate_eq_true_iff .lessEqual a b).symm

instance : Decidable (Equals a b) := decidable_of_iff _ (relate_eq_true_iff .equal a b).symm

/-- Where the outcome of a comparison is the order of two places, at most means that of the places.
-/
theorem atMost_iff_le (h : compare? a b = some (some (cmp p q))) : AtMost a b ↔ p ≤ q := by
  refine (relate_eq_true_iff .lessEqual a b).trans ?_
  rw [h, Option.any_some]
  rcases lt_trichotomy p q with hlt | heq | hgt
  · rw [(cmp_eq_lt_iff p q).mpr hlt]
    exact iff_of_true rfl hlt.le
  · rw [(cmp_eq_eq_iff p q).mpr heq]
    exact iff_of_true rfl heq.le
  · rw [(cmp_eq_gt_iff p q).mpr hgt]
    exact iff_of_false nofun (not_le.mpr hgt)

/-- Where the outcome of a comparison is the order of two places, equality is that of the places. -/
theorem equals_iff_eq (h : compare? a b = some (some (cmp p q))) : Equals a b ↔ p = q := by
  refine (relate_eq_true_iff .equal a b).trans ?_
  rw [h, Option.any_some]
  rcases lt_trichotomy p q with hlt | heq | hgt
  · rw [(cmp_eq_lt_iff p q).mpr hlt]
    exact iff_of_false nofun hlt.ne
  · rw [(cmp_eq_eq_iff p q).mpr heq]
    exact iff_of_true rfl heq
  · rw [(cmp_eq_gt_iff p q).mpr hgt]
    exact iff_of_false nofun hgt.ne'

/-! ## Comparisons by kinds -/

section

variable {m n : Int64} {d e : Decimal} {x y : Double}

/-- Integers are compared where they lie. -/
theorem compare?_integers (m n : Int64) :
    compare? (.integer m) (.integer n) = some (some (cmp (m.toInt : ℚ) n.toInt)) := by
  show some (some (Ord.compare m.toInt n.toInt)) = _
  rw [(Int.cast_strictMono (R := ℚ)).cmp_map_eq, cmp_eq_compare]

/-- Decimals are compared by their numbers. -/
theorem compare?_decimals (d e : Decimal) :
    compare? (.decimal d) (.decimal e) = some (some (cmp d.value e.value)) := by
  show some (some (d.compare e)) = _
  rw [Decimal.compare_eq]

/-- Doubles other than NaN are compared by their places. -/
theorem compare?_doubles (hp : x.place? = some p) (hq : y.place? = some q) :
    compare? (.double x) (.double y) = some (some (cmp p q)) := by
  show some (x.compare? y) = _
  rw [Double.compare?_eq, hp, hq]
  rfl

/-- A double that has a decimal is compared as that decimal. -/
theorem compare?_decimal_double_of_some (h : Decimal.ofDouble? x = some e) :
    compare? (.decimal d) (.double x) = some (some (cmp d.value e.value)) := by
  rw [← compare?_decimals]
  simp only [compare?, widen?, h, promote?]

/-- Where the double has no decimal, the decimal is compared as the double next to it. -/
theorem compare?_decimal_double_of_none (h : Decimal.ofDouble? x = none)
    (hp : d.toDouble.place? = some p) (hq : x.place? = some q) :
    compare? (.decimal d) (.double x) = some (some (cmp p q)) := by
  rw [← compare?_doubles hp hq]
  simp only [compare?, widen?, h, promote?]

/-- The same holds of a double on the left. -/
theorem compare?_double_decimal_of_some (h : Decimal.ofDouble? x = some e) :
    compare? (.double x) (.decimal d) = some (some (cmp e.value d.value)) := by
  rw [← compare?_decimals]
  simp only [compare?, widen?, h, promote?]

/-- And of one that has no decimal. -/
theorem compare?_double_decimal_of_none (h : Decimal.ofDouble? x = none)
    (hp : x.place? = some p) (hq : d.toDouble.place? = some q) :
    compare? (.double x) (.decimal d) = some (some (cmp p q)) := by
  rw [← compare?_doubles hp hq]
  simp only [compare?, widen?, h, promote?]

/-- An integer as a decimal is the same number. -/
theorem value_ofInteger (n : Int64) : (Decimal.ofInteger n).value = n.toInt := by
  unfold Decimal.value Decimal.ofInteger
  rw [pow_zero, div_one, signed_natAbs]

/-- An integer is rounded to a double with a place. -/
theorem exists_place_ofInteger (n : Int64) : ∃ p, (Double.ofInteger n).place? = some p :=
  (Double.isNearest_ofInt n.toInt).exists_place

/-- Two numbers are compared at some places, and the other way round at the same places. -/
theorem exists_compare? (ha : a.LiesAt p) (hb : b.LiesAt q) : ∃ r s : ℚ,
    compare? a b = some (some (cmp r s)) ∧ compare? b a = some (some (cmp s r)) := by
  cases ha with
  | integer m =>
    cases hb with
    | integer n => exact ⟨_, _, compare?_integers m n, compare?_integers n m⟩
    | decimal d =>
      exact ⟨_, _, compare?_decimals (.ofInteger m) d, compare?_decimals d (.ofInteger m)⟩
    | double hy =>
      obtain ⟨t, ht⟩ := exists_place_ofInteger m
      exact ⟨_, _, compare?_doubles ht hy, compare?_doubles hy ht⟩
  | decimal d =>
    cases hb with
    | integer n =>
      exact ⟨_, _, compare?_decimals d (.ofInteger n), compare?_decimals (.ofInteger n) d⟩
    | decimal e => exact ⟨_, _, compare?_decimals d e, compare?_decimals e d⟩
    | @double y _ hy =>
      cases h : Decimal.ofDouble? y with
      | some e =>
        exact ⟨_, _, compare?_decimal_double_of_some h, compare?_double_decimal_of_some h⟩
      | none =>
        obtain ⟨t, ht⟩ := d.isNearest_toDouble.exists_place
        exact ⟨_, _, compare?_decimal_double_of_none h ht hy,
          compare?_double_decimal_of_none h hy ht⟩
  | @double x _ hx =>
    cases hb with
    | integer n =>
      obtain ⟨t, ht⟩ := exists_place_ofInteger n
      exact ⟨_, _, compare?_doubles hx ht, compare?_doubles ht hx⟩
    | decimal e =>
      cases h : Decimal.ofDouble? x with
      | some d =>
        exact ⟨_, _, compare?_double_decimal_of_some h, compare?_decimal_double_of_some h⟩
      | none =>
        obtain ⟨t, ht⟩ := e.isNearest_toDouble.exists_place
        exact ⟨_, _, compare?_double_decimal_of_none h hx ht,
          compare?_decimal_double_of_none h ht hx⟩
    | double hy => exact ⟨_, _, compare?_doubles hx hy, compare?_doubles hy hx⟩

/-- Two numbers are equal exactly if each one is at most the other. -/
theorem equals_iff_atMost (ha : a.LiesAt p) (hb : b.LiesAt q) :
    Equals a b ↔ AtMost a b ∧ AtMost b a := by
  obtain ⟨r, s, h, h'⟩ := exists_compare? ha hb
  rw [equals_iff_eq h, atMost_iff_le h, atMost_iff_le h']
  exact le_antisymm_iff

/-! ## At most, by kinds -/

/-- Integers keep their order. -/
theorem atMost_integers : AtMost (.integer m) (.integer n) ↔ (m.toInt : ℚ) ≤ n.toInt :=
  atMost_iff_le (compare?_integers m n)

/-- Decimals keep their order. -/
theorem atMost_decimals : AtMost (.decimal d) (.decimal e) ↔ d.value ≤ e.value :=
  atMost_iff_le (compare?_decimals d e)

/-- Doubles keep the order of their places. -/
theorem atMost_doubles (hx : x.place? = some p) (hy : y.place? = some q) :
    AtMost (.double x) (.double y) ↔ p ≤ q :=
  atMost_iff_le (compare?_doubles hx hy)

/-- Beside a decimal, an integer counts as itself. -/
theorem atMost_integer_decimal : AtMost (.integer n) (.decimal d) ↔ (n.toInt : ℚ) ≤ d.value := by
  rw [← value_ofInteger]
  exact atMost_iff_le (compare?_decimals (.ofInteger n) d)

/-- So it does on the right. -/
theorem atMost_decimal_integer : AtMost (.decimal d) (.integer n) ↔ d.value ≤ n.toInt := by
  rw [← value_ofInteger]
  exact atMost_iff_le (compare?_decimals d (.ofInteger n))

/-- Beside a double, an integer counts as the double next to it. -/
theorem atMost_integer_double :
    AtMost (.integer n) (.double x) ↔ AtMost (.double (.ofInteger n)) (.double x) :=
  Iff.rfl

/-- The integer may as well be on the right. -/
theorem atMost_double_integer :
    AtMost (.double x) (.integer n) ↔ AtMost (.double x) (.double (.ofInteger n)) :=
  Iff.rfl

/-- Beside a double, a decimal counts as `Decimal.AtMost` says. -/
theorem atMost_decimal_double (hx : x.place? = some p) :
    AtMost (.decimal d) (.double x) ↔ d.AtMost x := by
  cases h : Decimal.ofDouble? x with
  | some e => rw [atMost_iff_le (compare?_decimal_double_of_some h), Decimal.atMost_iff_value_le h]
  | none =>
    obtain ⟨t, ht⟩ := d.isNearest_toDouble.exists_place
    rw [atMost_iff_le (compare?_decimal_double_of_none h ht hx), Decimal.atMost_iff_place_le h ht hx]

/-- On the right, a decimal counts as `Decimal.AtLeast` says. -/
theorem atMost_double_decimal (hx : x.place? = some p) :
    AtMost (.double x) (.decimal d) ↔ d.AtLeast x := by
  cases h : Decimal.ofDouble? x with
  | some e => rw [atMost_iff_le (compare?_double_decimal_of_some h), Decimal.atLeast_iff_value_le h]
  | none =>
    obtain ⟨t, ht⟩ := d.isNearest_toDouble.exists_place
    rw [atMost_iff_le (compare?_double_decimal_of_none h hx ht),
      Decimal.atLeast_iff_place_le h ht hx]

end

/-! ## Comparisons and the order of the numbers -/

/-- Numbers of one kind are compared as they lie. -/
theorem atMost_iff_of_kind (ha : a.LiesAt p) (hb : b.LiesAt q) (h : a.kind = b.kind) :
    AtMost a b ↔ p ≤ q := by
  cases ha with
  | integer m =>
    cases hb with
    | integer n => exact atMost_integers
    | decimal d => exact nomatch h
    | double hy => exact nomatch h
  | decimal d =>
    cases hb with
    | integer n => exact nomatch h
    | decimal e => exact atMost_decimals
    | double hy => exact nomatch h
  | double hx =>
    cases hb with
    | integer n => exact nomatch h
    | decimal e => exact nomatch h
    | double hy => exact atMost_doubles hx hy

/-- Of two numbers of one kind, the smaller one is at most whatever the larger one is at most, and
the larger one is at least whatever the smaller one is. -/
theorem atMost_mono (ha : a.LiesAt p) (hb : b.LiesAt q) (hc : c.LiesAt r) (hkind : a.kind = b.kind)
    (hle : p ≤ q) : (AtMost b c → AtMost a c) ∧ (AtMost c a → AtMost c b) := by
  cases ha with
  | integer m =>
    cases hb with
    | decimal d => exact nomatch hkind
    | double hy => exact nomatch hkind
    | integer n =>
      cases hc with
      | integer k =>
        simp only [atMost_integers]
        exact ⟨hle.trans, (le_trans · hle)⟩
      | decimal d =>
        simp only [atMost_integer_decimal, atMost_decimal_integer]
        exact ⟨hle.trans, (le_trans · hle)⟩
      | double hz =>
        obtain ⟨t, ht⟩ := exists_place_ofInteger m
        obtain ⟨t', ht'⟩ := exists_place_ofInteger n
        have hround : t ≤ t' := (Double.isNearest_ofInt m.toInt).place_le
          (Double.isNearest_ofInt n.toInt) ht ht' hle
        rw [atMost_integer_double, atMost_integer_double, atMost_double_integer,
          atMost_double_integer, atMost_doubles ht hz, atMost_doubles ht' hz, atMost_doubles hz ht,
          atMost_doubles hz ht']
        exact ⟨hround.trans, (le_trans · hround)⟩
  | decimal d =>
    cases hb with
    | integer n => exact nomatch hkind
    | double hy => exact nomatch hkind
    | decimal e =>
      cases hc with
      | integer k =>
        simp only [atMost_integer_decimal, atMost_decimal_integer]
        exact ⟨hle.trans, (le_trans · hle)⟩
      | decimal f =>
        simp only [atMost_decimals]
        exact ⟨hle.trans, (le_trans · hle)⟩
      | double hz =>
        simp only [atMost_decimal_double hz, atMost_double_decimal hz]
        exact ⟨fun h => h.mono hle hz hz le_rfl, fun h => h.mono hle hz hz le_rfl⟩
  | double hx =>
    cases hb with
    | integer n => exact nomatch hkind
    | decimal e => exact nomatch hkind
    | double hy =>
      cases hc with
      | integer k =>
        obtain ⟨t, ht⟩ := exists_place_ofInteger k
        rw [atMost_integer_double, atMost_integer_double, atMost_double_integer,
          atMost_double_integer, atMost_doubles ht hx, atMost_doubles ht hy, atMost_doubles hx ht,
          atMost_doubles hy ht]
        exact ⟨hle.trans, (le_trans · hle)⟩
      | decimal f =>
        simp only [atMost_decimal_double hx, atMost_decimal_double hy, atMost_double_decimal hx,
          atMost_double_decimal hy]
        exact ⟨fun h => h.mono le_rfl hy hx hle, fun h => h.mono le_rfl hx hy hle⟩
      | double hz =>
        simp only [atMost_doubles hx hz, atMost_doubles hy hz, atMost_doubles hz hx,
          atMost_doubles hz hy]
        exact ⟨hle.trans, (le_trans · hle)⟩

/-- An integer that is at most a double is not rounded above it. -/
theorem atMost_double_of_le {n : Int64} {x : Double} (hx : x.place? = some p) (h : n.toInt ≤ p) :
    AtMost (.integer n) (.double x) := by
  obtain ⟨t, ht⟩ := exists_place_ofInteger n
  rw [atMost_integer_double, atMost_doubles ht hx]
  exact (Double.isNearest_ofInt n.toInt).place_le_of_le ht hx h

/-- Nor is an integer that is at least a double rounded below it. -/
theorem atMost_integer_of_le {n : Int64} {x : Double} (hx : x.place? = some p) (h : p ≤ n.toInt) :
    AtMost (.double x) (.integer n) := by
  obtain ⟨t, ht⟩ := exists_place_ofInteger n
  rw [atMost_double_integer, atMost_doubles hx ht]
  exact (Double.isNearest_ofInt n.toInt).le_place_of_le ht hx h

end Value

end Formula
