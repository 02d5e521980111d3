import Formula.Proofs.Calendar.Form
import Formula.Proofs.Text.Digits
import Formula.Value.Json

/-!
# Dates read back from their texts

A date and time is shown in two ways: with the month in front and without padding, and in the ISO
form. Both leave out the time at midnight, but a time in the first second of a day is midnight to the
second one only. Still both are forms of the same date and time in whole seconds (`writes_text`,
`writes_isoText`): the first shows such a time as `0:00:00`, and a text without a time denotes the
start of the day. `read?_texts` says that both texts of a value are read back, for the years that
are written with four digits and no sign.
-/

namespace Formula

open NaturalPower

/-- A time of day without its fraction of a second. -/
def TimeOfDay.wholeSeconds (time : TimeOfDay) : TimeOfDay :=
  ⟨time.hour, time.minute, time.second, 0,
    time.valid.1, time.valid.2.1, time.valid.2.2.1, .inl (by decide)⟩

/-- A time without nanoseconds is one of whole seconds. -/
theorem TimeOfDay.wholeSeconds_eq {time : TimeOfDay} (h : time.nanosecond = 0) :
    time.wholeSeconds = time := by
  cases time
  cases h
  rfl

/-- A time in the first second of a day is midnight in whole seconds. -/
theorem TimeOfDay.wholeSeconds_eq_midnight {time : TimeOfDay}
    (h : time.hour = 0 ∧ time.minute = 0 ∧ time.second = 0) : time.wholeSeconds = .midnight := by
  obtain ⟨hour, minute, second, nanosecond, hvalid⟩ := time
  obtain ⟨rfl, rfl, rfl⟩ := h
  rfl

/-- Outside of a leap second the clock shows the second of the time. -/
theorem TimeOfDay.shownSecond_eq {time : TimeOfDay} (h : time.nanosecond < 10 ^ (9 : Nat)) :
    time.shownSecond = time.second := by
  rw [shownSecond, Nat.div_eq_of_lt h, Nat.add_zero]

/-- No month has more than 31 days. -/
theorem Date.day_le (date : Date) : date.day ≤ 31 := by
  obtain ⟨-, -, -, hday⟩ := date.valid
  have hdays : daysInMonth date.year date.month ≤ 31 := by
    unfold daysInMonth
    split_ifs <;> decide
  exact Nat.le_trans hday hdays

namespace Calendar

/-! ## Numbers -/

variable {n width : Nat}

/-- A number without zeros in front. -/
theorem isNumeral_digitsOfNat (hwidth : 0 < width) (hn : n < 10 ^ width) :
    IsNumeral 1 width (Text.digitsOfNat n) n where
  isDigit _ := Text.isDigit_of_mem_digitsOfNat
  least_le := List.length_pos_iff.mpr (Text.digitsOfNat_ne_nil n)
  le_most := Text.length_digitsOfNat_le hwidth hn
  value := Text.natOfDigits_digitsOfNat n

/-- A number with zeros in front. -/
theorem isNumeral_padLeft (hwidth : 0 < width) (hn : n < 10 ^ width) :
    IsNumeral width width (Text.padLeft width (Text.digitsOfNat n)) n := by
  have hlength : (Text.padLeft width (Text.digitsOfNat n)).length = width := by
    rw [Text.length_padLeft, Nat.max_eq_left (Text.length_digitsOfNat_le hwidth hn)]
  exact ⟨Text.isDigit_of_mem_padLeft fun c => Text.isDigit_of_mem_digitsOfNat,
    Nat.le_of_eq hlength.symm, Nat.le_of_eq hlength,
    Text.natOfDigits_padLeft.trans (Text.natOfDigits_digitsOfNat n)⟩

/-- A number with zeros in front has at least one digit. -/
theorem IsNumeral.least_one {digits : List Char} (h : IsNumeral width width digits n)
    (hwidth : 0 < width) : IsNumeral 1 width digits n :=
  ⟨h.isDigit, Nat.le_trans hwidth h.least_le, h.le_most, h.value⟩

/-! ## Texts as characters -/

/-- The clock part of a text, as characters. -/
def clockChars (time : TimeOfDay) : List Char :=
  Text.digitsOfNat time.hour ++ ':' :: (Text.padLeft 2 (Text.digitsOfNat time.minute) ++
    ':' :: Text.padLeft 2 (Text.digitsOfNat time.shownSecond))

/-- What follows the day in a text, as characters. -/
def timeChars (time : TimeOfDay) : List Char :=
  if time = .midnight then [] else ' ' :: clockChars time

/-- What follows the day in an ISO text, as characters. -/
def isoTimeChars (time : TimeOfDay) : List Char :=
  if time.hour = 0 ∧ time.minute = 0 ∧ time.second = 0 then []
  else 'T' :: (Text.padLeft 2 (Text.digitsOfNat time.hour) ++
    ':' :: (Text.padLeft 2 (Text.digitsOfNat time.minute) ++
      ':' :: Text.padLeft 2 (Text.digitsOfNat time.shownSecond)))

/-- A year of at most four digits is written with four. -/
theorem yearText_eq {year : Int} (hyear : 0 ≤ year) (hyear' : year ≤ 9999) :
    yearText year = String.ofList (Text.padLeft 4 (Text.digitsOfNat year.toNat)) := by
  have hnat : year.natAbs = year.toNat := by omega
  rw [yearText, if_neg (by omega), if_neg (by omega), hnat, String.empty_append]

/-- The text of a date and time, as characters. -/
theorem toList_text {a : DateTime} (hyear : 0 ≤ a.date.year) (hyear' : a.date.year ≤ 9999) :
    a.text.toList = Text.digitsOfNat a.date.month ++ '/' :: (Text.digitsOfNat a.date.day ++
      '/' :: (Text.padLeft 4 (Text.digitsOfNat a.date.year.toNat) ++ timeChars a.time)) := by
  have htext := yearText_eq hyear hyear'
  unfold DateTime.text timeChars clockChars TimeOfDay.minuteText twoDigits
  split
  · simp [htext, Text.digitsOfNat]
  · simp [htext, Text.digitsOfNat]

/-- The ISO text of a date and time, as characters. -/
theorem toList_isoText {a : DateTime} (hyear : 0 ≤ a.date.year) (hyear' : a.date.year ≤ 9999) :
    a.isoText.toList = Text.padLeft 4 (Text.digitsOfNat a.date.year.toNat) ++
      '-' :: (Text.padLeft 2 (Text.digitsOfNat a.date.month) ++
        '-' :: (Text.padLeft 2 (Text.digitsOfNat a.date.day) ++ isoTimeChars a.time)) := by
  have htext := yearText_eq hyear hyear'
  unfold DateTime.isoText isoTimeChars TimeOfDay.minuteText twoDigits
  split
  · simp [htext]
  · simp [htext]

/-- Neither the digits nor the delimiters of a text are the sign that encloses dates. -/
theorem hash_notMem_text {a : DateTime} (hyear : 0 ≤ a.date.year) (hyear' : a.date.year ≤ 9999) :
    '#' ∉ a.text.toList := by
  have hnumber : ∀ n, '#' ∉ Text.digitsOfNat n :=
    fun n h => absurd (Text.isDigit_of_mem_digitsOfNat h) (by decide)
  have hpadded : ∀ width n, '#' ∉ Text.padLeft width (Text.digitsOfNat n) := by
    intro width n h
    have hdigit := Text.isDigit_of_mem_padLeft (fun c => Text.isDigit_of_mem_digitsOfNat) '#' h
    exact absurd hdigit (by decide)
  rw [toList_text hyear hyear']
  unfold timeChars clockChars
  split <;> simp [hnumber, hpadded]

/-! ## Texts as forms -/

/-- The clock is shown with its seconds, whether the hour is padded or not. -/
theorem writesClock_shown {time : TimeOfDay} (h : time.nanosecond < 10 ^ (9 : Nat))
    {hour : List Char} (hhour : IsNumeral 1 2 hour time.hour) :
    WritesClock (hour ++ ':' :: (Text.padLeft 2 (Text.digitsOfNat time.minute) ++
      ':' :: Text.padLeft 2 (Text.digitsOfNat time.shownSecond))) time.wholeSeconds := by
  obtain ⟨-, hminute, hsecond, -⟩ := time.valid
  have hminutes : IsNumeral 2 2 (Text.padLeft 2 (Text.digitsOfNat time.minute)) time.minute :=
    isNumeral_padLeft (by decide) (by omega)
  have hseconds : IsNumeral 2 2 (Text.padLeft 2 (Text.digitsOfNat time.second)) time.second :=
    isNumeral_padLeft (by decide) (by omega)
  rw [TimeOfDay.shownSecond_eq h]
  exact @WritesClock.seconds _ _ _ time.wholeSeconds hhour hminutes hseconds rfl

/-- What is shown behind a day is read as the time in whole seconds. -/
theorem writesTime_timeChars {time : TimeOfDay} (h : time.nanosecond < 10 ^ (9 : Nat)) :
    WritesTime Text.isBlank (timeChars time) time.wholeSeconds := by
  have hhour : IsNumeral 1 2 (Text.digitsOfNat time.hour) time.hour :=
    isNumeral_digitsOfNat (by decide) (Nat.lt_trans time.valid.1 (by decide))
  have hgap : ∀ c ∈ [' '], Text.isBlank c = true := List.forall_mem_singleton.mpr rfl
  unfold timeChars
  split
  · rename_i hmidnight
    rw [hmidnight]
    exact .midnight nofun
  · have htime := WritesTime.clock (List.cons_ne_nil _ _) hgap (writesClock_shown h hhour)
      (List.forall_mem_nil _)
    rwa [List.append_nil] at htime

/-- So is what stands behind a day in a document. -/
theorem writesTime_isoTimeChars {time : TimeOfDay} (h : time.nanosecond < 10 ^ (9 : Nat)) :
    WritesTime (fun c => Text.isBlank c || c == 'T') (isoTimeChars time) time.wholeSeconds := by
  have hhour : IsNumeral 2 2 (Text.padLeft 2 (Text.digitsOfNat time.hour)) time.hour :=
    isNumeral_padLeft (by decide) (Nat.lt_trans time.valid.1 (by decide))
  have hgap : ∀ c ∈ ['T'], (Text.isBlank c || c == 'T') = true :=
    List.forall_mem_singleton.mpr (by decide)
  unfold isoTimeChars
  split
  · rename_i hzero
    rw [TimeOfDay.wholeSeconds_eq_midnight hzero]
    exact .midnight nofun
  · have htime := WritesTime.clock (List.cons_ne_nil _ _) hgap
      (writesClock_shown h (hhour.least_one (by decide))) (List.forall_mem_nil _)
    rwa [List.append_nil] at htime

variable {a : DateTime}

/-- The text of a date and time denotes it in whole seconds. -/
theorem writes_text (hyear : 0 ≤ a.date.year) (hyear' : a.date.year ≤ 9999)
    (h : a.time.nanosecond < 10 ^ (9 : Nat)) :
    Writes a.text.toList ⟨a.date, a.time.wholeSeconds⟩ := by
  have hmonth : IsNumeral 1 2 (Text.digitsOfNat a.date.month) a.date.month :=
    isNumeral_digitsOfNat (by decide) (Nat.lt_of_le_of_lt a.date.valid.2.1 (by decide))
  have hday : IsNumeral 1 2 (Text.digitsOfNat a.date.day) a.date.day :=
    isNumeral_digitsOfNat (by decide) (Nat.lt_of_le_of_lt a.date.day_le (by decide))
  have hyears : IsNumeral 4 4 (Text.padLeft 4 (Text.digitsOfNat a.date.year.toNat)) _ :=
    isNumeral_padLeft (by decide) (by omega)
  have hform := WritesDay.monthFirst hmonth hday hyears (Int.toNat_of_nonneg hyear).symm
  have hwrites := @Writes.intro _ [] _ _ ⟨a.date, a.time.wholeSeconds⟩ nofun hform
    (writesTime_timeChars h)
  rw [toList_text hyear hyear']
  simpa only [List.nil_append, List.append_assoc, List.cons_append] using hwrites

/-- The ISO text of a date and time denotes it in whole seconds. -/
theorem writes_isoText (hyear : 0 ≤ a.date.year) (hyear' : a.date.year ≤ 9999)
    (h : a.time.nanosecond < 10 ^ (9 : Nat)) :
    Writes a.isoText.toList ⟨a.date, a.time.wholeSeconds⟩ := by
  have hmonth : IsNumeral 2 2 (Text.padLeft 2 (Text.digitsOfNat a.date.month)) a.date.month :=
    isNumeral_padLeft (by decide) (Nat.lt_of_le_of_lt a.date.valid.2.1 (by decide))
  have hday : IsNumeral 2 2 (Text.padLeft 2 (Text.digitsOfNat a.date.day)) a.date.day :=
    isNumeral_padLeft (by decide) (Nat.lt_of_le_of_lt a.date.day_le (by decide))
  have hyears : IsNumeral 4 4 (Text.padLeft 4 (Text.digitsOfNat a.date.year.toNat)) _ :=
    isNumeral_padLeft (by decide) (by omega)
  have hform := WritesDay.yearFirst hyears (Int.toNat_of_nonneg hyear).symm
    (hmonth.least_one (by decide)) (hday.least_one (by decide))
  have hwrites := @Writes.intro _ [] _ _ ⟨a.date, a.time.wholeSeconds⟩ nofun hform
    (writesTime_isoTimeChars h)
  rw [toList_isoText hyear hyear']
  simpa only [List.nil_append, List.append_assoc, List.cons_append] using hwrites

/-- A date and time is read back from its text, without the fraction of a second. -/
theorem read?_text (hyear : 0 ≤ a.date.year) (hyear' : a.date.year ≤ 9999)
    (h : a.time.nanosecond < 10 ^ (9 : Nat)) :
    read? a.text.toList = some ⟨a.date, a.time.wholeSeconds⟩ :=
  (writes_text hyear hyear' h).read?

/-- Both texts of a date and time are read back without the fraction of a second: the one that is
concatenated, and the one that stands for it in JSON. -/
theorem read?_texts (a : DateTime) (hyear : 0 ≤ a.date.year ∧ a.date.year ≤ 9999)
    (h : a.time.nanosecond < 10 ^ (9 : Nat)) :
    read? (Value.dateTime a).text.toList = some ⟨a.date, a.time.wholeSeconds⟩ ∧
      ∃ json, (Value.dateTime a).toJson = .string json ∧
        read? json.toList = some ⟨a.date, a.time.wholeSeconds⟩ :=
  ⟨read?_text hyear.1 hyear.2 h, a.isoText, rfl, (writes_isoText hyear.1 hyear.2 h).read?⟩

/-- A quarter of a second after midnight, which only the first text shows as a time. -/
theorem read?_texts_past_midnight :
    let a : DateTime := ⟨⟨0, 2, 29, by decide⟩, ⟨0, 0, 0, 250000000, by decide⟩⟩
    (a.text = "2/29/0000 0:00:00" ∧ a.isoText = "0000-02-29") ∧
    ((0 ≤ a.date.year ∧ a.date.year ≤ 9999) ∧ a.time.nanosecond < 10 ^ (9 : Nat)) ∧
    read? (Value.dateTime a).text.toList = some ⟨a.date, .midnight⟩ ∧
      ∃ json, (Value.dateTime a).toJson = .string json ∧
        read? json.toList = some ⟨a.date, .midnight⟩ := by
  intro a
  have hyear : 0 ≤ a.date.year ∧ a.date.year ≤ 9999 := by decide
  have h : a.time.nanosecond < 10 ^ (9 : Nat) := by decide
  exact ⟨⟨by decide +kernel, by decide +kernel⟩, ⟨hyear, h⟩, read?_texts a hyear h⟩

end Calendar

end Formula
