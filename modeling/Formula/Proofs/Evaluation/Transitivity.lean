import Formula.Proofs.Evaluation.Comparison

/-!
# Transitivity of comparisons

Two comparisons of three numbers imply the third one unless rounding gets in the way. An integer is
rounded beside a double and a double beside a decimal, so different numbers may compare as equal, and
the third comparison may tell apart what the other two do not. `Breaks` lists how that happens, and
`comparison_transitive` is that it happens there and nowhere else.

Two facts are behind the list. Where the outer numbers are of one kind, or a decimal is between them,
the order breaks only if both comparisons are equalities (`equals_of_not_atMost`). And an integer and
a double that are equal without being the same number are both whole (`whole_of_equals`), and a
decimal is compared with whole numbers where it lies. So if the decimal is one of the outer numbers,
the order breaks only if it lies between the other two, and equality only if it is the middle one.
-/

namespace Formula

open NaturalPower

namespace Value

variable {a b c : Value} {p q r : ℚ}

/-- Whether two values are the same number, whatever their kinds. -/
def Same (a b : Value) : Prop := ∃ p, a.LiesAt p ∧ b.LiesAt p

/-- Whether one number lies below another one, whatever their kinds. -/
def Below (a b : Value) : Prop := ∃ p q, a.LiesAt p ∧ b.LiesAt q ∧ p < q

/-- How comparisons of three numbers, the second one being in the middle, fail to be transitive. -/
inductive Breaks (a b c : Value) : Prop where
  /-- The middle one is of a kind of its own and equals both others, which are different numbers, and
  these are of one kind or the middle one is a decimal. -/
  | ends (hab : b.kind ≠ a.kind) (hbc : b.kind ≠ c.kind) (hkind : a.kind = c.kind ∨ b.kind = .decimal)
      (heq : Equals a b) (heq' : Equals b c) (h : ¬ Same a c)
  /-- The first two are an integer and a double that are equal, but different numbers, and the last one
  is a decimal that is the middle one, or that lies above the middle one and below the first one. -/
  | decimalLast (ha : a.kind ≠ .decimal) (hb : b.kind ≠ .decimal) (hc : c.kind = .decimal)
      (heq : Equals a b) (hne : ¬ Same a b) (h : Same b c ∨ (Below b c ∧ Below c a))
  /-- The last two are an integer and a double that are equal, but different numbers, and the first one
  is a decimal that is the middle one, or that lies above the last one and below the middle one. -/
  | decimalFirst (ha : a.kind = .decimal) (hb : b.kind ≠ .decimal) (hc : c.kind ≠ .decimal)
      (heq : Equals b c) (hne : ¬ Same b c) (h : Same a b ∨ (Below c a ∧ Below a b))

/-! ## Kinds -/

/-- A number of this kind is a decimal. -/
theorem LiesAt.exists_decimal (h : a.LiesAt p) (hkind : a.kind = .decimal) :
    ∃ d, a = .decimal d := by
  cases h with
  | integer n => exact nomatch hkind
  | decimal d => exact ⟨d, rfl⟩
  | double hx => exact nomatch hkind

/-- Of three numbers of different kinds one is a decimal. -/
theorem kind_eq_decimal (ha : a.LiesAt p) (hb : b.LiesAt q) (hc : c.LiesAt r)
    (hba : b.kind ≠ a.kind) (hbc : b.kind ≠ c.kind) (hac : a.kind ≠ c.kind) (hkb : b.kind ≠ .decimal)
    (hkc : c.kind ≠ .decimal) : a.kind = .decimal := by
  cases ha with
  | decimal d => rfl
  | integer n =>
    cases hb with
    | integer m => exact absurd rfl hba
    | decimal d => exact absurd rfl hkb
    | double hx => cases hc <;> contradiction
  | double hx =>
    cases hb with
    | integer m => cases hc <;> contradiction
    | decimal d => exact absurd rfl hkb
    | double hy => exact absurd rfl hba

/-! ## The same number -/

/-- Being the same number does not depend on which one is asked about. -/
theorem Same.symm (h : Same a b) : Same b a := by
  obtain ⟨p, ha, hb⟩ := h
  exact ⟨p, hb, ha⟩

/-- Two numbers are the same exactly if they are at one place. -/
theorem same_iff (ha : a.LiesAt p) (hb : b.LiesAt q) : Same a b ↔ p = q := by
  constructor
  · rintro ⟨r, har, hbr⟩
    rw [ha.unique har, hb.unique hbr]
  · rintro rfl
    exact ⟨p, ha, hb⟩

/-- A number is below another one exactly if its place is. -/
theorem below_iff (ha : a.LiesAt p) (hb : b.LiesAt q) : Below a b ↔ p < q := by
  constructor
  · rintro ⟨p', q', ha', hb', hlt⟩
    rwa [ha.unique ha', hb.unique hb']
  · exact fun hlt => ⟨p, q, ha, hb, hlt⟩

/-- Which of two numbers comes first makes no difference to their being equal. -/
theorem equals_comm (ha : a.LiesAt p) (hb : b.LiesAt q) : Equals a b ↔ Equals b a := by
  rw [equals_iff_atMost ha hb, equals_iff_atMost hb ha, and_comm]

/-- Numbers of one kind are equal exactly if they are at one place. -/
theorem equals_iff_of_kind (ha : a.LiesAt p) (hb : b.LiesAt q) (h : a.kind = b.kind) :
    Equals a b ↔ p = q := by
  rw [equals_iff_atMost ha hb, atMost_iff_of_kind ha hb h, atMost_iff_of_kind hb ha h.symm,
    le_antisymm_iff]

/-! ## Whole numbers -/

/-- Whether a number is whole, and not beyond the doubles that have a decimal. -/
def Whole (q : ℚ) : Prop := ∃ k : Int, q = k ∧ |(k : ℚ)| ≤ Decimal.lastWhole

/-- No integer lies beyond the doubles that have a decimal. -/
theorem abs_toInt_le (n : Int64) : |(n.toInt : ℚ)| ≤ Decimal.lastWhole := by
  have hlower := n.le_toInt
  have hupper := n.toInt_lt
  have hlast : (2 ^ (63 : Nat) : Int) ≤ Decimal.lastWhole := by decide
  rw [abs_le]
  constructor
  · exact_mod_cast show -(Decimal.lastWhole : Int) ≤ n.toInt by omega
  · exact_mod_cast show n.toInt ≤ (Decimal.lastWhole : Int) by omega

/-- An integer is whole, and so is the double that it is rounded to. -/
theorem exists_place_whole (n : Int64) :
    ∃ q, (Double.ofInteger n).place? = some q ∧ Whole q := by
  obtain ⟨k, hk⟩ := Double.exists_place_ofInt n.toInt
  obtain ⟨hlower, hupper⟩ := abs_le.mp (abs_toInt_le n)
  have hnearest := Double.isNearest_ofInt n.toInt
  obtain ⟨low, hlow⟩ := Decimal.exists_place_lastWhole true
  obtain ⟨high, hhigh⟩ := Decimal.exists_place_lastWhole false
  refine ⟨k, hk, k, rfl, abs_le.mpr ⟨?_, ?_⟩⟩
  · exact hnearest.le_place_of_le hk hlow hlower
  · exact hnearest.place_le_of_le hk hhigh hupper

/-- A double that equals an integer is whole. -/
theorem whole_of_equals_integer {n : Int64} {x : Double} (hx : x.place? = some q)
    (heq : Equals (.integer n) (.double x)) : Whole q := by
  obtain ⟨t, ht, hwhole⟩ := exists_place_whole n
  rw [equals_iff_atMost (.integer n) (.double hx), atMost_integer_double, atMost_double_integer,
    atMost_doubles ht hx, atMost_doubles hx ht] at heq
  rwa [← le_antisymm heq.1 heq.2]

/-- Different numbers that are equal are both whole if neither is a decimal. -/
theorem whole_of_equals (ha : a.LiesAt p) (hb : b.LiesAt q) (hka : a.kind ≠ .decimal)
    (hkb : b.kind ≠ .decimal) (heq : Equals a b) (hne : p ≠ q) : Whole p ∧ Whole q := by
  have hkind : a.kind ≠ b.kind := fun hkind => hne ((equals_iff_of_kind ha hb hkind).mp heq)
  cases ha with
  | decimal d => exact absurd rfl hka
  | integer n =>
    cases hb with
    | integer m => exact absurd rfl hkind
    | decimal d => exact absurd rfl hkb
    | double hx => exact ⟨⟨n.toInt, rfl, abs_toInt_le n⟩, whole_of_equals_integer hx heq⟩
  | double hx =>
    cases hb with
    | integer n =>
      have heq' := (equals_comm (.double hx) (.integer n)).mp heq
      exact ⟨whole_of_equals_integer hx heq', n.toInt, rfl, abs_toInt_le n⟩
    | decimal d => exact absurd rfl hkb
    | double hy => exact absurd rfl hkind

/-! ## Integers and doubles beside a decimal -/

/-- Integers and doubles are not moved past each other. -/
theorem atMost_of_le (ha : a.LiesAt p) (hb : b.LiesAt q) (hka : a.kind ≠ .decimal)
    (hkb : b.kind ≠ .decimal) (hle : p ≤ q) : AtMost a b := by
  cases ha with
  | decimal d => exact absurd rfl hka
  | integer n =>
    cases hb with
    | integer m => exact atMost_integers.mpr hle
    | decimal d => exact absurd rfl hkb
    | double hx => exact atMost_double_of_le hx hle
  | double hx =>
    cases hb with
    | integer n => exact atMost_integer_of_le hx hle
    | decimal d => exact absurd rfl hkb
    | double hy => exact (atMost_doubles hx hy).mpr hle

/-- Integers and doubles that are put out of order are equal. -/
theorem equals_of_atMost_of_lt (ha : a.LiesAt p) (hb : b.LiesAt q) (hka : a.kind ≠ .decimal)
    (hkb : b.kind ≠ .decimal) (hab : AtMost a b) (hlt : q < p) : Equals a b :=
  (equals_iff_atMost ha hb).mpr ⟨hab, atMost_of_le hb ha hkb hka hlt.le⟩

/-- Of an integer and a double, or of two of either, the smaller one is at most every decimal that the
larger one is at most, and the larger one is at least every decimal that the smaller one is. -/
theorem atMost_decimal_mono (ha : a.LiesAt p) (hb : b.LiesAt q) (hka : a.kind ≠ .decimal)
    (hkb : b.kind ≠ .decimal) (hle : p ≤ q) (d : Decimal) :
    (AtMost b (.decimal d) → AtMost a (.decimal d)) ∧
      (AtMost (.decimal d) a → AtMost (.decimal d) b) := by
  by_cases hkind : a.kind = b.kind
  · exact atMost_mono ha hb (.decimal d) hkind hle
  cases ha with
  | decimal e => exact absurd rfl hka
  | integer n =>
    cases hb with
    | integer m => exact absurd rfl hkind
    | decimal e => exact absurd rfl hkb
    | double hx =>
      rw [atMost_double_decimal hx, atMost_integer_decimal, atMost_decimal_integer,
        atMost_decimal_double hx]
      exact ⟨fun h => h.le_value (abs_toInt_le n) hx hle, fun h => Decimal.atMost_of_le h hx hle⟩
  | double hx =>
    cases hb with
    | integer n =>
      rw [atMost_double_decimal hx, atMost_integer_decimal, atMost_decimal_integer,
        atMost_decimal_double hx]
      exact ⟨fun h => Decimal.atLeast_of_le h hx hle, fun h => h.value_le (abs_toInt_le n) hx hle⟩
    | decimal e => exact absurd rfl hkb
    | double hy => exact absurd rfl hkind

/-- A decimal and a whole number are compared where they lie. -/
theorem atMost_decimal_iff_of_whole (hb : b.LiesAt q) (hkb : b.kind ≠ .decimal) (hwhole : Whole q)
    (d : Decimal) :
    (AtMost b (.decimal d) ↔ q ≤ d.value) ∧ (AtMost (.decimal d) b ↔ d.value ≤ q) := by
  obtain ⟨k, hk, hlast⟩ := hwhole
  cases hb with
  | integer n => exact ⟨atMost_integer_decimal, atMost_decimal_integer⟩
  | decimal e => exact absurd rfl hkb
  | double hx =>
    subst hk
    rw [atMost_double_decimal hx, atMost_decimal_double hx]
    exact ⟨⟨fun h => h.le_value hlast hx le_rfl, fun h => Decimal.atLeast_of_le h hx le_rfl⟩,
      ⟨fun h => h.value_le hlast hx le_rfl, fun h => Decimal.atMost_of_le h hx le_rfl⟩⟩

/-- A decimal equals a whole number exactly if it is the same number. -/
theorem equals_decimal_iff_of_whole (hb : b.LiesAt q) (hkb : b.kind ≠ .decimal) (hwhole : Whole q)
    (d : Decimal) : Equals b (.decimal d) ↔ q = d.value := by
  obtain ⟨hfrom, hto⟩ := atMost_decimal_iff_of_whole hb hkb hwhole d
  rw [equals_iff_atMost hb (.decimal d), hfrom, hto, le_antisymm_iff]

/-! ## What keeps the order -/

/-- A number in the middle that is of the kind of one of the others may be replaced by it. -/
theorem atMost_trans_of_alike (ha : a.LiesAt p) (hb : b.LiesAt q) (hc : c.LiesAt r)
    (h : b.kind = a.kind ∨ b.kind = c.kind) (hab : AtMost a b) (hbc : AtMost b c) :
    AtMost a c := by
  rcases h with h | h
  · exact (atMost_mono ha hb hc h.symm ((atMost_iff_of_kind ha hb h.symm).mp hab)).1 hbc
  · exact (atMost_mono hb hc ha h ((atMost_iff_of_kind hb hc h).mp hbc)).2 hab

/-- Outer numbers of one kind are only out of order if both comparisons are equalities. -/
theorem equals_of_not_atMost_of_kind (ha : a.LiesAt p) (hb : b.LiesAt q) (hc : c.LiesAt r)
    (h : a.kind = c.kind) (hab : AtMost a b) (hbc : AtMost b c) (hac : ¬ AtMost a c) :
    (Equals a b ∧ Equals b c) ∧ r < p := by
  rw [atMost_iff_of_kind ha hc h, not_le] at hac
  have hcb : AtMost c b := (atMost_mono hc ha hb h.symm hac.le).1 hab
  have hba : AtMost b a := (atMost_mono hc ha hb h.symm hac.le).2 hbc
  exact ⟨⟨(equals_iff_atMost ha hb).mpr ⟨hab, hba⟩, (equals_iff_atMost hb hc).mpr ⟨hbc, hcb⟩⟩, hac⟩

/-- So are an integer and a double with a decimal between them. -/
theorem equals_of_not_atMost_of_decimal {d : Decimal} (ha : a.LiesAt p) (hc : c.LiesAt r)
    (hka : a.kind ≠ .decimal) (hkc : c.kind ≠ .decimal) (hab : AtMost a (.decimal d))
    (hbc : AtMost (.decimal d) c) (hac : ¬ AtMost a c) :
    (Equals a (.decimal d) ∧ Equals (.decimal d) c) ∧ r < p := by
  have hlt : r < p := not_le.mp fun hle => hac (atMost_of_le ha hc hka hkc hle)
  obtain ⟨hto, hfrom⟩ := atMost_decimal_mono hc ha hkc hka hlt.le d
  exact ⟨⟨(equals_iff_atMost ha (.decimal d)).mpr ⟨hab, hfrom hbc⟩,
    (equals_iff_atMost (.decimal d) hc).mpr ⟨hbc, hto hab⟩⟩, hlt⟩

/-- Outer numbers of one kind, or with a decimal between them, are only out of order if both
comparisons are equalities. -/
theorem equals_of_not_atMost (ha : a.LiesAt p) (hb : b.LiesAt q) (hc : c.LiesAt r)
    (hkind : a.kind = c.kind ∨ b.kind = .decimal) (hka : b.kind ≠ a.kind) (hkc : b.kind ≠ c.kind)
    (hab : AtMost a b) (hbc : AtMost b c) (hac : ¬ AtMost a c) :
    (Equals a b ∧ Equals b c) ∧ r < p := by
  rcases hkind with hkind | hkind
  · exact equals_of_not_atMost_of_kind ha hb hc hkind hab hbc hac
  · rw [hkind] at hka hkc
    obtain ⟨d, rfl⟩ := hb.exists_decimal hkind
    exact equals_of_not_atMost_of_decimal ha hc hka.symm hkc.symm hab hbc hac

/-- A decimal at the end that is out of order lies between the other two or is the middle one, and
these are equal. -/
theorem breaks_of_not_atMost_last {d : Decimal} (ha : a.LiesAt p) (hb : b.LiesAt q)
    (hka : a.kind ≠ .decimal) (hkb : b.kind ≠ .decimal) (hab : AtMost a b)
    (hbc : AtMost b (.decimal d)) (hac : ¬ AtMost a (.decimal d)) : Breaks a b (.decimal d) := by
  have hlt : q < p :=
    not_le.mp fun hle => hac ((atMost_decimal_mono ha hb hka hkb hle d).1 hbc)
  have heq : Equals a b := equals_of_atMost_of_lt ha hb hka hkb hab hlt
  obtain ⟨hwholeA, hwholeB⟩ := whole_of_equals ha hb hka hkb heq hlt.ne'
  rw [(atMost_decimal_iff_of_whole hb hkb hwholeB d).1] at hbc
  rw [(atMost_decimal_iff_of_whole ha hka hwholeA d).1, not_le] at hac
  refine .decimalLast hka hkb rfl heq (mt (same_iff ha hb).mp hlt.ne') ?_
  rw [same_iff hb (.decimal d), below_iff hb (.decimal d), below_iff (.decimal d) ha]
  exact hbc.eq_or_lt.imp_right fun hlt => ⟨hlt, hac⟩

/-- A decimal at the start that is out of order lies between the other two or is the middle one, and
these are equal. -/
theorem breaks_of_not_atMost_first {d : Decimal} (hb : b.LiesAt q) (hc : c.LiesAt r)
    (hkb : b.kind ≠ .decimal) (hkc : c.kind ≠ .decimal) (hab : AtMost (.decimal d) b)
    (hbc : AtMost b c) (hac : ¬ AtMost (.decimal d) c) : Breaks (.decimal d) b c := by
  have hlt : r < q :=
    not_le.mp fun hle => hac ((atMost_decimal_mono hb hc hkb hkc hle d).2 hab)
  have heq : Equals b c := equals_of_atMost_of_lt hb hc hkb hkc hbc hlt
  obtain ⟨hwholeB, hwholeC⟩ := whole_of_equals hb hc hkb hkc heq hlt.ne'
  rw [(atMost_decimal_iff_of_whole hb hkb hwholeB d).2] at hab
  rw [(atMost_decimal_iff_of_whole hc hkc hwholeC d).2, not_le] at hac
  refine .decimalFirst rfl hkb hkc heq (mt (same_iff hb hc).mp hlt.ne') ?_
  rw [same_iff (.decimal d) hb, below_iff hc (.decimal d), below_iff (.decimal d) hb]
  exact hab.eq_or_lt.imp_right fun hlt => ⟨hac, hlt⟩

/-- Numbers that are out of order break. -/
theorem breaks_of_not_atMost (ha : a.LiesAt p) (hb : b.LiesAt q) (hc : c.LiesAt r)
    (hab : AtMost a b) (hbc : AtMost b c) (hac : ¬ AtMost a c) : Breaks a b c := by
  have halike : ¬ (b.kind = a.kind ∨ b.kind = c.kind) :=
    fun halike => hac (atMost_trans_of_alike ha hb hc halike hab hbc)
  rw [not_or] at halike
  obtain ⟨hka, hkc⟩ := halike
  by_cases hkind : a.kind = c.kind ∨ b.kind = .decimal
  · obtain ⟨⟨heq, heq'⟩, hlt⟩ := equals_of_not_atMost ha hb hc hkind hka hkc hab hbc hac
    exact .ends hka hkc hkind heq heq' fun hsame => hlt.ne' ((same_iff ha hc).mp hsame)
  · -- all kinds are different, and the decimal is not in the middle
    rw [not_or] at hkind
    obtain ⟨hends, hkb⟩ := hkind
    by_cases hlast : c.kind = .decimal
    · have hkaDecimal : a.kind ≠ .decimal := fun hfirst => hends (hfirst.trans hlast.symm)
      obtain ⟨d, rfl⟩ := hc.exists_decimal hlast
      exact breaks_of_not_atMost_last ha hb hkaDecimal hkb hab hbc hac
    · have hfirst : a.kind = .decimal := kind_eq_decimal ha hb hc hka hkc hends hkb hlast
      obtain ⟨d, rfl⟩ := ha.exists_decimal hfirst
      exact breaks_of_not_atMost_first hb hc hkb hlast hab hbc hac

/-- A decimal that equals one of an integer and a double is the same number as that one, if these are
equal, but different numbers. -/
theorem same_of_equals_decimal (ha : a.LiesAt p) (hb : b.LiesAt q) (hc : c.LiesAt r)
    (hka : a.kind ≠ .decimal) (hkb : b.kind ≠ .decimal) (hkc : c.kind = .decimal)
    (heq : Equals a b) (hne : ¬ Same a b) (hbc : Equals b c) : Same b c := by
  obtain ⟨d, rfl⟩ := hc.exists_decimal hkc
  have hwhole := (whole_of_equals ha hb hka hkb heq (mt (same_iff ha hb).mpr hne)).2
  exact (same_iff hb (.decimal d)).mpr ((equals_decimal_iff_of_whole hb hkb hwhole d).mp hbc)

/-- If the middle one equals both others, the numbers break from either end. -/
theorem Breaks.symm (h : Breaks a b c) (ha : a.LiesAt p) (hb : b.LiesAt q) (hc : c.LiesAt r)
    (hab : Equals a b) (hbc : Equals b c) : Breaks c b a := by
  have hba := (equals_comm ha hb).mp hab
  have hcb := (equals_comm hb hc).mp hbc
  cases h with
  | ends hka hkc hkind heq heq' hne =>
    exact .ends hkc hka (hkind.imp_left Eq.symm) hcb hba (mt Same.symm hne)
  | decimalLast hka hkb hkc heq hne h =>
    have hsame := same_of_equals_decimal ha hb hc hka hkb hkc heq hne hbc
    exact .decimalFirst hkc hkb hka hba (mt Same.symm hne) (.inl hsame.symm)
  | decimalFirst hka hkb hkc heq hne h =>
    have hsame := same_of_equals_decimal hc hb ha hkc hkb hka hcb (mt Same.symm hne) hba
    exact .decimalLast hkc hkb hka hcb (mt Same.symm hne) (.inl hsame)

/-- Numbers that equal the middle one, but not each other, break. -/
theorem breaks_of_not_equals (ha : a.LiesAt p) (hb : b.LiesAt q) (hc : c.LiesAt r)
    (hab : Equals a b) (hbc : Equals b c) (hac : ¬ Equals a c) : Breaks a b c := by
  obtain ⟨hle, hge⟩ := (equals_iff_atMost ha hb).mp hab
  obtain ⟨hle', hge'⟩ := (equals_iff_atMost hb hc).mp hbc
  rw [equals_iff_atMost ha hc, not_and_or] at hac
  rcases hac with hac | hca
  · exact breaks_of_not_atMost ha hb hc hle hle' hac
  · have hcb := (equals_comm hb hc).mp hbc
    have hba := (equals_comm ha hb).mp hab
    exact (breaks_of_not_atMost hc hb ha hge' hge hca).symm hc hb ha hcb hba

/-! ## What breaks it -/

/-- Different numbers of one kind are not equal, and neither are an integer and a double that are both
equal to a decimal. -/
theorem not_equals_of_ends (ha : a.LiesAt p) (hb : b.LiesAt q) (hc : c.LiesAt r)
    (hka : b.kind ≠ a.kind) (hkc : b.kind ≠ c.kind) (hkind : a.kind = c.kind ∨ b.kind = .decimal)
    (heq : Equals a b) (heq' : Equals b c) (hne : p ≠ r) : ¬ Equals a c := by
  intro hends
  rcases hkind with hkind | hkind
  · exact hne ((equals_iff_of_kind ha hc hkind).mp hends)
  · rw [hkind] at hka hkc
    obtain ⟨d, rfl⟩ := hb.exists_decimal hkind
    -- the outer ones are whole, so both are where the decimal is
    obtain ⟨hwholeA, hwholeC⟩ := whole_of_equals ha hc hka.symm hkc.symm hends hne
    rw [equals_decimal_iff_of_whole ha hka.symm hwholeA d] at heq
    rw [equals_comm hb hc, equals_decimal_iff_of_whole hc hkc.symm hwholeC d] at heq'
    exact hne (heq.trans heq'.symm)

/-- Numbers that break are out of order, or equal the middle one, but not each other. -/
theorem Breaks.not_transitive (h : Breaks a b c) (ha : a.LiesAt p) (hb : b.LiesAt q)
    (hc : c.LiesAt r) :
    (AtMost a b ∧ AtMost b c ∧ ¬ AtMost a c) ∨ (Equals a b ∧ Equals b c ∧ ¬ Equals a c) := by
  cases h with
  | ends hka hkc hkind heq heq' hne =>
    exact .inr ⟨heq, heq', not_equals_of_ends ha hb hc hka hkc hkind heq heq'
      (mt (same_iff ha hc).mpr hne)⟩
  | decimalLast hka hkb hkc heq hne h =>
    rw [same_iff ha hb] at hne
    obtain ⟨hwholeA, hwholeB⟩ := whole_of_equals ha hb hka hkb heq hne
    obtain ⟨d, rfl⟩ := hc.exists_decimal hkc
    obtain rfl := hc.unique (.decimal d)
    rw [same_iff hb hc, below_iff hb hc, below_iff hc ha] at h
    rcases h with hsame | ⟨hlower, hupper⟩
    · rw [equals_decimal_iff_of_whole ha hka hwholeA d, equals_decimal_iff_of_whole hb hkb hwholeB d]
      exact .inr ⟨heq, hsame, fun h => hne (h.trans hsame.symm)⟩
    · rw [(atMost_decimal_iff_of_whole ha hka hwholeA d).1,
        (atMost_decimal_iff_of_whole hb hkb hwholeB d).1]
      exact .inl ⟨((equals_iff_atMost ha hb).mp heq).1, hlower.le, not_le.mpr hupper⟩
  | decimalFirst hka hkb hkc heq hne h =>
    rw [same_iff hb hc] at hne
    obtain ⟨hwholeB, hwholeC⟩ := whole_of_equals hb hc hkb hkc heq hne
    obtain ⟨d, rfl⟩ := ha.exists_decimal hka
    obtain rfl := ha.unique (.decimal d)
    rw [same_iff ha hb, below_iff hc ha, below_iff ha hb] at h
    rcases h with hsame | ⟨hlower, hupper⟩
    · rw [equals_comm ha hb, equals_comm ha hc, equals_decimal_iff_of_whole hb hkb hwholeB d,
        equals_decimal_iff_of_whole hc hkc hwholeC d]
      exact .inr ⟨hsame.symm, heq, fun h => hne (hsame.symm.trans h.symm)⟩
    · rw [(atMost_decimal_iff_of_whole hb hkb hwholeB d).2,
        (atMost_decimal_iff_of_whole hc hkc hwholeC d).2]
      exact .inl ⟨hupper.le, ((equals_iff_atMost hb hc).mp heq).1, not_le.mpr hlower⟩

/-- Comparisons of three numbers are transitive exactly unless the numbers break. -/
theorem comparison_transitive {a b c : Value} (ha : a.IsNumber) (hb : b.IsNumber)
    (hc : c.IsNumber) :
    ((AtMost a b → AtMost b c → AtMost a c) ∧ (Equals a b → Equals b c → Equals a c)) ↔
      ¬ Breaks a b c := by
  obtain ⟨p, hp⟩ := ha.exists_liesAt
  obtain ⟨q, hq⟩ := hb.exists_liesAt
  obtain ⟨r, hr⟩ := hc.exists_liesAt
  constructor
  · rintro ⟨horder, hequal⟩ hbreaks
    rcases hbreaks.not_transitive hp hq hr with ⟨hab, hbc, hac⟩ | ⟨hab, hbc, hac⟩
    · exact hac (horder hab hbc)
    · exact hac (hequal hab hbc)
  · intro h
    constructor
    · exact fun hab hbc => by_contra fun hac => h (breaks_of_not_atMost hp hq hr hab hbc hac)
    · exact fun hab hbc => by_contra fun hac => h (breaks_of_not_equals hp hq hr hab hbc hac)

/-- The double 0.25, the decimal 0.5 and the integer 1: no two of them compare as equal. The integers 1
and 9007199254740993 with a double between them that equals the second one, but not the first. And
the integers 9007199254740993 and 9007199254740992 with the same double between them, which break. -/
theorem comparison_transitive_kinds :
    (AtMost (.double (.ofScientific false 25 (-2))) (.decimal ⟨false, 5, 1, by decide, by decide⟩) ∧
      AtMost (.decimal ⟨false, 5, 1, by decide, by decide⟩) (.integer 1) ∧
      AtMost (.double (.ofScientific false 25 (-2))) (.integer 1)) ∧
    (AtMost (.integer 1) (.double (.ofInt 9007199254740992)) ∧
      AtMost (.double (.ofInt 9007199254740992)) (.integer 9007199254740993) ∧
      AtMost (.integer 1) (.integer 9007199254740993)) ∧
    Breaks (.integer 9007199254740993) (.double (.ofInt 9007199254740992))
      (.integer 9007199254740992) := by
  have hnan : Double.ofInt 9007199254740992 ≠ .nan := by decide +kernel
  refine ⟨?_, ?_, ?_⟩
  · have hquarter : Double.ofScientific false 25 (-2) ≠ .nan := by decide +kernel
    generalize hx : Double.ofScientific false 25 (-2) = x at hquarter
    generalize hd : (⟨false, 5, 1, by decide, by decide⟩ : Decimal) = d
    have hab : AtMost (.double x) (.decimal d) ∧ ¬ Equals (.double x) (.decimal d) := by
      rw [← hx, ← hd]
      decide +kernel
    have hbc : AtMost (.decimal d) (.integer 1) := by
      rw [← hd]
      decide +kernel
    have ha : IsNumber (.double x) := ⟨rfl, fun h => hquarter (Value.double.inj h)⟩
    have hb : IsNumber (.decimal d) := ⟨rfl, nofun⟩
    have hc : IsNumber (.integer 1) := ⟨rfl, nofun⟩
    have hbreaks : ¬ Breaks (.double x) (.decimal d) (.integer 1) := by
      rintro (⟨-, -, -, heq, -, -⟩ | ⟨-, hkb, -, -, -, -⟩ | ⟨-, hkb, -, -, -, -⟩)
      · exact hab.2 heq
      · exact hkb rfl
      · exact hkb rfl
    exact ⟨hab.1, hbc, ((comparison_transitive ha hb hc).mpr hbreaks).1 hab.1 hbc⟩
  · generalize hx : Double.ofInt 9007199254740992 = x at hnan
    have hab : AtMost (.integer 1) (.double x) ∧ ¬ Equals (.integer 1) (.double x) := by
      rw [← hx]
      decide +kernel
    have hbc : AtMost (.double x) (.integer 9007199254740993) := by
      rw [← hx]
      decide +kernel
    have ha : IsNumber (.integer 1) := ⟨rfl, nofun⟩
    have hb : IsNumber (.double x) := ⟨rfl, fun h => hnan (Value.double.inj h)⟩
    have hc : IsNumber (.integer 9007199254740993) := ⟨rfl, nofun⟩
    have hbreaks : ¬ Breaks (.integer 1) (.double x) (.integer 9007199254740993) := by
      rintro (⟨-, -, -, heq, -, -⟩ | ⟨-, -, hkc, -, -, -⟩ | ⟨hka, -, -, -, -, -⟩)
      · exact hab.2 heq
      · exact nomatch hkc
      · exact nomatch hka
    exact ⟨hab.1, hbc, ((comparison_transitive ha hb hc).mpr hbreaks).1 hab.1 hbc⟩
  · generalize hx : Double.ofInt 9007199254740992 = x at hnan
    have horder : AtMost (.integer 9007199254740993) (.double x) ∧
        AtMost (.double x) (.integer 9007199254740992) ∧
        ¬ AtMost (.integer 9007199254740993) (.integer 9007199254740992) := by
      rw [← hx]
      decide +kernel
    have ha : IsNumber (.integer 9007199254740993) := ⟨rfl, nofun⟩
    have hb : IsNumber (.double x) := ⟨rfl, fun h => hnan (Value.double.inj h)⟩
    have hc : IsNumber (.integer 9007199254740992) := ⟨rfl, nofun⟩
    by_contra hbreaks
    exact horder.2.2
      (((comparison_transitive ha hb hc).mpr hbreaks).1 horder.1 horder.2.1)

/-- Without a condition, comparisons are not transitive: the double 9007199254740992 equals the
integer 9007199254740993, which is rounded to it, and also the integer 9007199254740992. -/
theorem comparison_not_transitive :
    (AtMost (.integer 9007199254740993) (.double (.ofInt 9007199254740992)) ∧
      AtMost (.double (.ofInt 9007199254740992)) (.integer 9007199254740992) ∧
      ¬ AtMost (.integer 9007199254740993) (.integer 9007199254740992)) ∧
    Equals (.integer 9007199254740993) (.double (.ofInt 9007199254740992)) ∧
      Equals (.double (.ofInt 9007199254740992)) (.integer 9007199254740992) ∧
      ¬ Equals (.integer 9007199254740993) (.integer 9007199254740992) := by
  decide +kernel

end Value

end Formula
