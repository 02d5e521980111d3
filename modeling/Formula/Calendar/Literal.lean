import Formula.Calendar.DateTime
import Formula.Text.Blank

/-!
# Dates as they are written

A date is written as `M/D/YYYY` or as `YYYY-M-D`, with one or two digits for month and day and
exactly four for the year, and may be followed by a time `H:MM` or `H:MM:SS`. Blanks separate the
time from the first form; from the second it is separated by blanks and letters `T` in any mix.
Blanks around the whole are ignored.

Every number ends where its digits end, so the text is read number by number without looking back.
-/

namespace Formula.Calendar

/-- A number of at least `least` and at most `most` digits, and what follows its digits. -/
def number? (least most : Nat) (text : List Char) : Option (Nat × List Char) :=
  let digits := text.takeWhile Text.isDigit
  if least ≤ digits.length ∧ digits.length ≤ most then
    some (Text.natOfDigits digits, text.dropWhile Text.isDigit)
  else none

/-- What follows a given character. -/
def after? (c : Char) : List Char → Option (List Char)
  | d :: rest => if d = c then some rest else none
  | [] => none

/-- The end of a text, before which only blanks may stand. -/
def finish? (text : List Char) : Option Unit := if Text.dropBlanks text = [] then some () else none

/-- The optional seconds of a time. -/
def seconds? : List Char → Option (Nat × List Char)
  | ':' :: rest => number? 2 2 rest
  | rest => some (0, rest)

/-- A time of day that takes up the rest of a text. -/
def time? (text : List Char) : Option TimeOfDay := do
  let (hour, rest) ← number? 1 2 text
  let (minute, rest) ← number? 2 2 (← after? ':' rest)
  let (second, rest) ← seconds? rest
  finish? rest
  TimeOfDay.ofFields? hour minute second 0

/-- What follows a day: nothing, or a separator and a time. -/
def timePart? (separates : Char → Bool) (text : List Char) : Option TimeOfDay :=
  if Text.dropBlanks text = [] then some .midnight
  else
    match text with
    | c :: _ => if separates c then time? (text.dropWhile separates) else none
    | [] => none

/-- A date in the form `M/D/YYYY`, with its time. -/
def monthFirst? (text : List Char) : Option DateTime := do
  let (month, rest) ← number? 1 2 text
  let (day, rest) ← number? 1 2 (← after? '/' rest)
  let (year, rest) ← number? 4 4 (← after? '/' rest)
  let time ← timePart? Text.isBlank rest
  return ⟨← Date.ofFields? year month day, time⟩

/-- A date in the form `YYYY-M-D`, with its time. -/
def yearFirst? (text : List Char) : Option DateTime := do
  let (year, rest) ← number? 4 4 text
  let (month, rest) ← number? 1 2 (← after? '-' rest)
  let (day, rest) ← number? 1 2 (← after? '-' rest)
  let time ← timePart? (fun c => Text.isBlank c || c == 'T') rest
  return ⟨← Date.ofFields? year month day, time⟩

/-- The date that a text denotes. -/
def read? (text : List Char) : Option DateTime :=
  let text := Text.dropBlanks text
  (monthFirst? text).or (yearFirst? text)

end Formula.Calendar
