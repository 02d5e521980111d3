import Formula.Token.Lexer
import Mathlib.Data.List.TakeWhile

/-!
# Which classes of characters are apart

The lexer tells lexemes apart by their first character. That works because the classes it asks for
do not overlap: no blank starts a name, no digit starts a name, and neither is a delimiter or a sign.
The tables of the character database are compared range by range (`Ranges.apart`), never character
by character.

`takeWhile_append_of_stops` and `dropWhile_append_of_stops` say that a run of characters of a class
is read up to its end, wherever it stands in a text.
-/

namespace Formula.Text

/-! ## Ranges -/

/-- Whether no range of the one set meets a range of the other. -/
def Ranges.apart (first second : Ranges) : Bool :=
  first.all fun r => second.all fun s => decide (r.2 < s.1) || decide (s.2 < r.1)

/-- No character is in two classes of which the ranges lie apart. -/
theorem Ranges.not_contains_of_apart (first second : Ranges) (h : first.apart second = true)
    {c : Char} (hc : first.contains c = true) : second.contains c = false := by
  rw [Bool.eq_false_iff]
  intro hc'
  obtain ⟨r, hr, hlow, hhigh⟩ := Ranges.contains_iff.mp hc
  obtain ⟨s, hs, hlow', hhigh'⟩ := Ranges.contains_iff.mp hc'
  have hrs := List.all_eq_true.mp (List.all_eq_true.mp h r hr) s hs
  simp only [Bool.or_eq_true, decide_eq_true_eq] at hrs
  omega

/-- The digits are one range. -/
theorem isDigit_eq_contains (c : Char) : isDigit c = Ranges.contains [(0x30, 0x39)] c := by
  simp only [isDigit, Ranges.contains, List.any_cons, List.any_nil, Bool.or_false]
  rfl

/-! ## Classes that the lexer tells apart -/

/-- No letter is a blank. -/
theorem isBlank_eq_false_of_isAlphabetic {c : Char} (h : isAlphabetic c = true) :
    isBlank c = false :=
  Ranges.not_contains_of_apart alphabeticRanges blankRanges (by decide +kernel) h

/-- No digit is a letter. -/
theorem isAlphabetic_eq_false_of_isDigit {c : Char} (h : isDigit c = true) :
    isAlphabetic c = false :=
  Ranges.not_contains_of_apart [(0x30, 0x39)] alphabeticRanges (by decide +kernel)
    (isDigit_eq_contains c ▸ h)

/-- No digit is a blank. -/
theorem isBlank_eq_false_of_isDigit {c : Char} (h : isDigit c = true) : isBlank c = false :=
  Ranges.not_contains_of_apart [(0x30, 0x39)] blankRanges (by decide +kernel)
    (isDigit_eq_contains c ▸ h)

/-- No blank is a digit. -/
theorem isDigit_eq_false_of_isBlank {c : Char} (h : isBlank c = true) : isDigit c = false := by
  rw [Bool.eq_false_iff]
  intro hdigit
  rw [isBlank_eq_false_of_isDigit hdigit] at h
  exact nomatch h

/-- The small letters of ASCII, and the capitals that they are written for. -/
theorem isAlphabetic_of_toLower {c : Char} (h : 'a' ≤ c.toLower ∧ c.toLower ≤ 'z') :
    isAlphabetic c = true := by
  have hletter : 65 ≤ c.toNat ∧ c.toNat ≤ 90 ∨ 97 ≤ c.toNat ∧ c.toNat ≤ 122 := by
    unfold Char.toLower at h
    split at h
    · rename_i hupper
      exact .inl hupper
    · exact .inr h
  rcases hletter with hupper | hlower
  · exact Ranges.contains_iff.mpr ⟨(0x41, 0x5A), by decide +kernel, hupper⟩
  · exact Ranges.contains_iff.mpr ⟨(0x61, 0x7A), by decide +kernel, hlower⟩

/-- Nothing is left without blanks exactly if there is nothing else. -/
theorem dropBlanks_eq_nil_iff {text : List Char} :
    dropBlanks text = [] ↔ ∀ c ∈ text, isBlank c = true :=
  List.dropWhile_eq_nil_iff

end Formula.Text

namespace Formula

/-! ## Runs of characters -/

/-- Whether a text does not begin with a character of the class `p`. -/
def Stops (p : Char → Bool) (rest : List Char) : Prop := ∀ c ∈ rest.head?, p c = false

/-- Every run stops at the end of a text. -/
theorem stops_nil (p : Char → Bool) : Stops p [] := nofun

/-- A run stops in front of a character that does not belong to it. -/
theorem stops_cons {p : Char → Bool} {c : Char} {rest : List Char} :
    Stops p (c :: rest) ↔ p c = false := by
  simp [Stops]

/-- A run that stops in front of a text stops there whatever comes behind it. -/
theorem Stops.append {p : Char → Bool} {rest more : List Char} (h : Stops p rest)
    (hmore : Stops p more) : Stops p (rest ++ more) := by
  cases rest with
  | nil => exact hmore
  | cons c rest => exact stops_cons.mpr (stops_cons.mp h)

/-- What is left behind a whole run does not go on with it. -/
theorem stops_dropWhile (p : Char → Bool) (text : List Char) : Stops p (text.dropWhile p) := by
  intro c hc
  have hnot := List.head?_dropWhile_not p text
  rwa [Option.mem_def.mp hc] at hnot

/-- A run is taken as far as it goes. -/
theorem takeWhile_append_of_stops {p : Char → Bool} {run rest : List Char}
    (hrun : ∀ c ∈ run, p c = true) (hrest : Stops p rest) :
    (run ++ rest).takeWhile p = run := by
  rw [List.takeWhile_append_of_pos hrun]
  cases rest with
  | nil => simp
  | cons c rest => rw [List.takeWhile_cons_of_neg (by simp [stops_cons.mp hrest]), List.append_nil]

/-- And nothing behind it is dropped. -/
theorem dropWhile_append_of_stops {p : Char → Bool} {run rest : List Char}
    (hrun : ∀ c ∈ run, p c = true) (hrest : Stops p rest) :
    (run ++ rest).dropWhile p = rest := by
  rw [List.dropWhile_append_of_pos hrun]
  cases rest with
  | nil => rfl
  | cons c rest => rw [List.dropWhile_cons_of_neg (by simp [stops_cons.mp hrest])]

end Formula
