import Formula.Number.Double

/-!
# The fewest digits that read back

The text of a double shows the shortest decimal that rounds to it. From the power of ten above the
double on, and then for one, two, and up to seventeen digits, the two neighbours of the double on
that decimal grid are read back by `Double.ofScientific`; the first grid with a hit gives the
digits, of two hits the nearer one, and `Tie` says what happens half way. A hit never ends in a
zero, because the grid before it would have had it too. Since a candidate is accepted only after it
was read back, the digits name the double they were made from: see `reads_shortest`.
-/

namespace Formula.Double

open NaturalPower

/-- Which of two equally near decimals is shown: the larger one, or the one with an even last
digit. -/
inductive Tie where
  | up
  | even

/-- The number `digits · 10 ^ exponent`. -/
structure Scientific where
  digits : Nat
  exponent : Int
  deriving DecidableEq

/-- Whether a decimal rounds to the magnitude of `units` units. -/
def Scientific.Reads (a : Scientific) (units : Nat) : Prop :=
  ∃ h, ofScientific false a.digits a.exponent = finite false units h

instance (a : Scientific) (units : Nat) : Decidable (a.Reads units) :=
  if h : Representable units then
    decidable_of_iff (ofScientific false a.digits a.exponent = finite false units h)
      ⟨fun heq => ⟨h, heq⟩, fun ⟨_, heq⟩ => heq⟩
  else .isFalse fun ⟨h', _⟩ => h h'

/-- The number of decimal digits of `n`. -/
def digitCount (n : Nat) : Nat := n.repr.length

/-- The exponent `k` with `10 ^ (k - 1) ≤ units · 2 ^ -1074 < 10 ^ k`, for a positive magnitude. -/
def decimalExponent (units : Nat) : Int :=
  if one ≤ units then digitCount (units / one) else 1 - digitCount ((one - 1) / units)

/-- A positive magnitude measured by the grid of the multiples of `10 ^ exponent`, as a quotient. -/
def onGrid (units : Nat) : Int → Nat × Nat
  | .ofNat e => (units, one * 10 ^ e)
  | .negSucc e => (units * 10 ^ (e + 1), one)

/-- Whether the neighbour above `num / den` is the one to show, both neighbours being shortest. -/
def Tie.takesAbove (tie : Tie) (num den : Nat) : Bool :=
  match compare (2 * (num % den)) den, tie with
  | .lt, _ => false
  | .gt, _ | .eq, .up => true
  | .eq, .even => num / den % 2 == 1

/-- The multiple of `10 ^ exponent` that is shown for a magnitude, if one of its two neighbours
reads back. -/
def neighbour? (tie : Tie) (units : Nat) (exponent : Int) : Option Scientific :=
  let (num, den) := onGrid units exponent
  let below : Scientific := ⟨num / den, exponent⟩
  let above : Scientific := ⟨num / den + 1, exponent⟩
  if below.Reads units then
    if above.Reads units ∧ tie.takesAbove num den then some above else some below
  else if above.Reads units then some above
  else none

/-- The exact decimal expansion of a magnitude. -/
def expansion (units : Nat) : Scientific := ⟨units * 5 ^ (1074 : Nat), .negSucc 1073⟩

/-- The first grid on which a neighbour reads back, `count` digits being left to try. -/
def shortestFrom (tie : Tie) (units : Nat) : (count : Nat) → (exponent : Int) → Scientific
  | 0, _ => expansion units
  | count + 1, exponent =>
    match neighbour? tie units exponent with
    | some a => a
    | none => shortestFrom tie units count (exponent - 1)

/-- The shortest decimal that rounds to a positive magnitude. -/
def shortest (tie : Tie) (units : Nat) : Scientific :=
  shortestFrom tie units 18 (decimalExponent units)

/-- A neighbour that is accepted is read back as the double it was made for. -/
theorem reads_of_neighbour? {tie : Tie} {units : Nat} {exponent : Int} {a : Scientific}
    (h : neighbour? tie units exponent = some a) : a.Reads units := by
  simp only [neighbour?] at h
  split at h
  · next hbelow =>
    split at h
    · next habove => exact Option.some.inj h ▸ habove.1
    · exact Option.some.inj h ▸ hbelow
  · split at h
    · next habove => exact Option.some.inj h ▸ habove
    · simp at h

/-- Tens are fives and twos. -/
theorem mul_five_pow_mul_two_pow (n k : Nat) : n * 5 ^ k * 2 ^ k = n * 10 ^ k := by
  rw [Nat.mul_assoc, ← Nat.mul_pow]

/-- Read with all of its decimal places, a double is itself. -/
theorem ofScientific_of_one_eq {units e k : Nat} (hk : k = e + 1) (hone : one = 2 ^ k)
    (h : Representable units) :
    ofScientific false (units * 5 ^ k) (.negSucc e) = finite false units h := by
  subst hk
  simp only [ofScientific]
  rw [hone, mul_five_pow_mul_two_pow]
  exact round_of_representable false (Nat.pow_pos (by decide)) h

/-- The exact expansion of a magnitude rounds to it. -/
theorem reads_expansion {units : Nat} (h : Representable units) : (expansion units).Reads units :=
  ⟨h, ofScientific_of_one_eq (show 1074 = 1073 + 1 from rfl) one_eq h⟩

/-- The shortest digits of a magnitude round to it. -/
theorem reads_shortest (tie : Tie) {units : Nat} (h : Representable units) :
    (shortest tie units).Reads units := by
  have hfrom : ∀ count exponent, (shortestFrom tie units count exponent).Reads units := by
    intro count
    induction count with
    | zero => exact fun _ => reads_expansion h
    | succ count ih =>
      intro exponent
      unfold shortestFrom
      split
      · next hn => exact reads_of_neighbour? hn
      · exact ih _
  exact hfrom _ _

end Formula.Double
