import Formula.Proofs.Text.Classes

/-!
# The forms of dates

`Writes text t` says which texts denote the date and time `t`: blanks, a day in one of its two forms
(`WritesDay`), and behind it either nothing or a separator and a time of the clock (`WritesTime`),
with blanks at the end. It speaks of characters and of the fields of `t` only; that the fields are
those of a day of the calendar and of a time that the clock shows is part of the type of `t`.

`read?_eq_some_iff` says that the reader accepts exactly these texts and finds their fields.

## Shape of the proof

Every reader takes a piece off the front of a text, and its lemma says which piece that is, in both
directions: `number?_eq_some_iff` for a run of digits, `numbers_eq_some_iff` for the three numbers of
a day, `time?_eq_some_iff` for a time of the clock. A run of digits ends where the digits end, so
the pieces are determined by the text, and the two forms of a day exclude each other by the number
of digits in front.
-/

namespace Formula

/-! ## Fields -/

/-- A date is made of its own fields and of no others. -/
theorem Date.ofFields?_eq_some_iff {year : Int} {month day : Nat} {date : Date} :
    Date.ofFields? year month day = some date ↔
      date.year = year ∧ date.month = month ∧ date.day = day := by
  constructor
  · intro h
    unfold Date.ofFields? at h
    split at h
    · cases h
      exact ⟨rfl, rfl, rfl⟩
    · exact nomatch h
  · rintro ⟨rfl, rfl, rfl⟩
    exact dif_pos date.valid

/-- A time is made of its own fields and of no others. -/
theorem TimeOfDay.ofFields?_eq_some_iff {hour minute second nanosecond : Nat} {time : TimeOfDay} :
    TimeOfDay.ofFields? hour minute second nanosecond = some time ↔
      time.hour = hour ∧ time.minute = minute ∧ time.second = second ∧
        time.nanosecond = nanosecond := by
  constructor
  · intro h
    unfold TimeOfDay.ofFields? at h
    split at h
    · cases h
      exact ⟨rfl, rfl, rfl, rfl⟩
    · exact nomatch h
  · rintro ⟨rfl, rfl, rfl, rfl⟩
    exact dif_pos time.valid

namespace Calendar

/-! ## Forms -/

/-- Whether some characters are digits, at least `least` and at most `most` of them, and denote the
number `n`. -/
structure IsNumeral (least most : Nat) (digits : List Char) (n : Nat) : Prop where
  isDigit : ∀ c ∈ digits, Text.isDigit c = true
  least_le : least ≤ digits.length
  le_most : digits.length ≤ most
  value : Text.natOfDigits digits = n

/-- The forms of a day, each with the characters that can separate a time from it. -/
inductive WritesDay : (separates : Char → Bool) → (text : List Char) → (date : Date) → Prop where
  | monthFirst {month day year : List Char} {n : Nat} {date : Date}
      (hmonth : IsNumeral 1 2 month date.month) (hday : IsNumeral 1 2 day date.day)
      (hyear : IsNumeral 4 4 year n) (hn : date.year = n) :
      WritesDay Text.isBlank (month ++ '/' :: (day ++ '/' :: year)) date
  | yearFirst {year month day : List Char} {n : Nat} {date : Date}
      (hyear : IsNumeral 4 4 year n) (hn : date.year = n)
      (hmonth : IsNumeral 1 2 month date.month) (hday : IsNumeral 1 2 day date.day) :
      WritesDay (fun c => Text.isBlank c || c == 'T') (year ++ '-' :: (month ++ '-' :: day)) date

/-- The forms of a time of the clock, without and with its seconds. -/
inductive WritesClock : (text : List Char) → (time : TimeOfDay) → Prop where
  | minutes {hour minute : List Char} {time : TimeOfDay} (hhour : IsNumeral 1 2 hour time.hour)
      (hminute : IsNumeral 2 2 minute time.minute) (hsecond : time.second = 0)
      (hnanosecond : time.nanosecond = 0) : WritesClock (hour ++ ':' :: minute) time
  | seconds {hour minute second : List Char} {time : TimeOfDay}
      (hhour : IsNumeral 1 2 hour time.hour) (hminute : IsNumeral 2 2 minute time.minute)
      (hsecond : IsNumeral 2 2 second time.second) (hnanosecond : time.nanosecond = 0) :
      WritesClock (hour ++ ':' :: (minute ++ ':' :: second)) time

/-- What stands behind a day: nothing for the start of the day, or a time with a separator in front,
and blanks. -/
inductive WritesTime (separates : Char → Bool) : (text : List Char) → (time : TimeOfDay) → Prop where
  | midnight {after : List Char} (hafter : ∀ c ∈ after, Text.isBlank c = true) :
      WritesTime separates after .midnight
  | clock {gap clock after : List Char} {time : TimeOfDay} (hne : gap ≠ [])
      (hgap : ∀ c ∈ gap, separates c = true) (hclock : WritesClock clock time)
      (hafter : ∀ c ∈ after, Text.isBlank c = true) :
      WritesTime separates (gap ++ (clock ++ after)) time

/-- The texts that denote a date and time. -/
inductive Writes : (text : List Char) → (t : DateTime) → Prop where
  | intro {separates : Char → Bool} {before day rest : List Char} {t : DateTime}
      (hbefore : ∀ c ∈ before, Text.isBlank c = true) (hday : WritesDay separates day t.date)
      (htime : WritesTime separates rest t.time) : Writes (before ++ (day ++ rest)) t

/-! ## Numbers -/

variable {text rest : List Char} {least most n : Nat}

/-- A numeral that needs a digit starts with one. -/
theorem IsNumeral.exists_cons {digits : List Char} (h : IsNumeral (least + 1) most digits n) :
    ∃ c rest, digits = c :: rest ∧ Text.isDigit c = true := by
  have hne : digits ≠ [] := List.length_pos_iff.mp (Nat.lt_of_lt_of_le least.succ_pos h.least_le)
  obtain ⟨c, rest, rfl⟩ := List.exists_cons_of_ne_nil hne
  exact ⟨c, rest, rfl, h.isDigit c List.mem_cons_self⟩

/-- Reading a number takes the whole run of digits, which has to be as long as is asked for. -/
theorem number?_eq_some_iff : number? least most text = some (n, rest) ↔
    ∃ digits, IsNumeral least most digits n ∧ Stops Text.isDigit rest ∧ text = digits ++ rest := by
  constructor
  · intro h
    simp only [number?] at h
    split at h
    · rename_i hlength
      cases h
      have hdigits : ∀ c ∈ text.takeWhile Text.isDigit, Text.isDigit c = true :=
        fun c hc => List.mem_takeWhile_imp hc
      exact ⟨text.takeWhile Text.isDigit, ⟨hdigits, hlength.1, hlength.2, rfl⟩,
        stops_dropWhile _ _, List.takeWhile_append_dropWhile.symm⟩
    · exact nomatch h
  · rintro ⟨digits, hdigits, hrest, rfl⟩
    rw [number?, takeWhile_append_of_stops hdigits.isDigit hrest,
      dropWhile_append_of_stops hdigits.isDigit hrest, if_pos ⟨hdigits.least_le, hdigits.le_most⟩,
      hdigits.value]

/-- Reading behind a character takes that character and nothing else. -/
theorem after?_eq_some_iff {c : Char} : after? c text = some rest ↔ text = c :: rest := by
  cases text with
  | nil => exact ⟨nofun, nofun⟩
  | cons d text =>
    rw [after?]
    split
    · rename_i hd
      rw [hd, Option.some.injEq, List.cons.injEq, and_iff_right rfl]
    · rename_i hd
      exact ⟨nofun, fun heq => absurd (List.cons.inj heq).1 hd⟩

/-- Only blanks may be left over. -/
theorem finish?_eq_some_iff {done : Unit} :
    finish? text = some done ↔ ∀ c ∈ text, Text.isBlank c = true := by
  rw [← Text.dropBlanks_eq_nil_iff, finish?]
  split
  · rename_i hnil
    exact ⟨fun _ => hnil, fun _ => rfl⟩
  · rename_i hne
    exact ⟨nofun, fun hnil => absurd hnil hne⟩

/-- Three numbers with a delimiter between them are read one by one, and then what follows them. -/
theorem numbers_eq_some_iff {α : Type} {delimiter : Char}
    (hdelimiter : Text.isDigit delimiter = false) {least₁ most₁ least₂ most₂ least₃ most₃ : Nat}
    (goOn : Nat → Nat → Nat → List Char → Option α) {result : α} :
    (do
      let (i, rest) ← number? least₁ most₁ text
      let (j, rest) ← number? least₂ most₂ (← after? delimiter rest)
      let (k, rest) ← number? least₃ most₃ (← after? delimiter rest)
      goOn i j k rest) = some result ↔
      ∃ i j k first second third rest, IsNumeral least₁ most₁ first i ∧
        IsNumeral least₂ most₂ second j ∧ IsNumeral least₃ most₃ third k ∧
        Stops Text.isDigit rest ∧ goOn i j k rest = some result ∧
        text = first ++ delimiter :: (second ++ delimiter :: (third ++ rest)) := by
  have hstops : ∀ rest, Stops Text.isDigit (delimiter :: rest) :=
    fun rest => stops_cons.mpr hdelimiter
  simp only [Option.bind_eq_bind, Option.bind_eq_some_iff, Prod.exists, number?_eq_some_iff,
    after?_eq_some_iff]
  constructor
  · rintro ⟨i, _, ⟨first, hfirst, -, rfl⟩, _, rfl, j, _, ⟨second, hsecond, -, rfl⟩, _, rfl, k, rest,
      ⟨third, hthird, hrest, rfl⟩, hresult⟩
    exact ⟨i, j, k, first, second, third, rest, hfirst, hsecond, hthird, hrest, hresult, rfl⟩
  · rintro ⟨i, j, k, first, second, third, rest, hfirst, hsecond, hthird, hrest, hresult, rfl⟩
    exact ⟨i, _, ⟨first, hfirst, hstops _, rfl⟩, _, rfl, j, _, ⟨second, hsecond, hstops _, rfl⟩, _,
      rfl, k, rest, ⟨third, hthird, hrest, rfl⟩, hresult⟩

/-! ## Times -/

/-- The seconds are read if a colon follows, and are zero otherwise. -/
theorem seconds?_eq_some_iff : seconds? text = some (n, rest) ↔
    (∃ second, IsNumeral 2 2 second n ∧ Stops Text.isDigit rest ∧ text = ':' :: (second ++ rest)) ∨
      Stops (· == ':') text ∧ n = 0 ∧ rest = text := by
  fun_cases seconds? text with
  | case1 text =>
    have hcolon : ¬ Stops (· == ':') (':' :: text) := fun h => nomatch stops_cons.mp h
    simp only [number?_eq_some_iff, hcolon, false_and, or_false, List.cons.injEq, true_and]
  | case2 text hcolon =>
    have hstops : Stops (· == ':') text := by
      cases text with
      | nil => exact stops_nil _
      | cons c text =>
        rw [stops_cons, beq_eq_false_iff_ne]
        rintro rfl
        exact hcolon text rfl
    rw [Option.some.injEq, Prod.mk.injEq]
    constructor
    · rintro ⟨rfl, rfl⟩
      exact .inr ⟨hstops, rfl, rfl⟩
    · rintro (⟨second, -, -, rfl⟩ | ⟨-, rfl, rfl⟩)
      · exact absurd rfl (hcolon _)
      · exact ⟨rfl, rfl⟩

/-- Blanks end a run of characters that are none. -/
theorem stops_of_blank {p : Char → Bool} (hp : ∀ c, Text.isBlank c = true → p c = false)
    (h : ∀ c ∈ text, Text.isBlank c = true) : Stops p text := by
  cases text with
  | nil => exact stops_nil p
  | cons c text => exact stops_cons.mpr (hp c (h c List.mem_cons_self))

/-- A time is read exactly from a clock with nothing but blanks behind it. -/
theorem time?_eq_some_iff {time : TimeOfDay} : time? text = some time ↔
    ∃ clock after, WritesClock clock time ∧ (∀ c ∈ after, Text.isBlank c = true) ∧
      text = clock ++ after := by
  have hcolon : ∀ rest, Stops Text.isDigit (':' :: rest) := fun rest => stops_cons.mpr rfl
  simp only [time?, Option.bind_eq_bind, Option.bind_eq_some_iff, Prod.exists, number?_eq_some_iff,
    after?_eq_some_iff, seconds?_eq_some_iff, finish?_eq_some_iff, TimeOfDay.ofFields?_eq_some_iff]
  constructor
  · rintro ⟨_, _, ⟨hour, hhour, -, rfl⟩, _, rfl, _, _, ⟨minute, hminute, -, rfl⟩, _, after, hsecond,
      -, hafter, rfl, rfl, rfl, hnanosecond⟩
    rcases hsecond with ⟨second, hsecond, -, rfl⟩ | ⟨-, hzero, rfl⟩
    · refine ⟨_, after, .seconds hhour hminute hsecond hnanosecond, hafter, ?_⟩
      simp only [List.append_assoc, List.cons_append]
    · refine ⟨_, after, .minutes hhour hminute hzero hnanosecond, hafter, ?_⟩
      simp only [List.append_assoc, List.cons_append]
  · rintro ⟨clock, after, hclock, hafter, rfl⟩
    have hstops := stops_of_blank (fun c => Text.isDigit_eq_false_of_isBlank) hafter
    cases hclock with
    | @minutes hour minute _ hhour hminute hsecond hnanosecond =>
      have hplain : Stops (· == ':') after := by
        refine stops_of_blank (fun c hc => ?_) hafter
        rw [beq_eq_false_iff_ne]
        rintro rfl
        exact absurd hc (by decide)
      rw [List.append_assoc, List.cons_append]
      exact ⟨_, ':' :: (minute ++ after), ⟨hour, hhour, hcolon _, rfl⟩, _, rfl, _, after,
        ⟨minute, hminute, hstops, rfl⟩, 0, after, .inr ⟨hplain, rfl, rfl⟩, (), hafter, rfl, rfl,
        hsecond, hnanosecond⟩
    | @seconds hour minute second _ hhour hminute hsecond hnanosecond =>
      rw [List.append_assoc, List.cons_append, List.append_assoc, List.cons_append]
      exact ⟨_, ':' :: (minute ++ ':' :: (second ++ after)), ⟨hour, hhour, hcolon _, rfl⟩, _, rfl,
        _, ':' :: (second ++ after), ⟨minute, hminute, hcolon _, rfl⟩, _, after,
        .inl ⟨second, hsecond, hstops, rfl⟩, (), hafter, rfl, rfl, rfl, hnanosecond⟩

/-- A clock starts with a digit. -/
theorem WritesClock.exists_cons {clock : List Char} {time : TimeOfDay} (h : WritesClock clock time) :
    ∃ c rest, clock = c :: rest ∧ Text.isDigit c = true := by
  cases h with
  | minutes hhour =>
    obtain ⟨c, rest, rfl, hc⟩ := hhour.exists_cons
    exact ⟨c, _, rfl, hc⟩
  | seconds hhour =>
    obtain ⟨c, rest, rfl, hc⟩ := hhour.exists_cons
    exact ⟨c, _, rfl, hc⟩

/-- Where nothing but blanks follows the day, the time is midnight. -/
theorem timePart?_of_blank {separates : Char → Bool} (h : Text.dropBlanks text = []) :
    timePart? separates text = some .midnight := by
  unfold timePart?
  exact if_pos h

/-- Where something else follows, it is a time behind separators. -/
theorem timePart?_cons {separates : Char → Bool} {c : Char}
    (h : Text.dropBlanks (c :: rest) ≠ []) : timePart? separates (c :: rest) =
      if separates c then time? ((c :: rest).dropWhile separates) else none := by
  unfold timePart?
  exact if_neg h

/-- What stands behind a day is read, if no digit separates. -/
theorem timePart?_eq_some_iff {separates : Char → Bool}
    (hdigit : ∀ c, Text.isDigit c = true → separates c = false) {time : TimeOfDay} :
    timePart? separates text = some time ↔ WritesTime separates text time := by
  constructor
  · intro h
    by_cases hnil : Text.dropBlanks text = []
    · rw [timePart?_of_blank hnil, Option.some.injEq] at h
      subst h
      exact .midnight (Text.dropBlanks_eq_nil_iff.mp hnil)
    · cases text with
      | nil => exact absurd rfl hnil
      | cons c rest =>
        rw [timePart?_cons hnil] at h
        split at h
        · rename_i hc
          obtain ⟨clock, after, hclock, hafter, hdrop⟩ := time?_eq_some_iff.mp h
          have hgap : ∀ d ∈ (c :: rest).takeWhile separates, separates d = true :=
            fun d hd => List.mem_takeWhile_imp hd
          have hne : (c :: rest).takeWhile separates ≠ [] := by
            rw [List.takeWhile_cons_of_pos hc]
            exact List.cons_ne_nil _ _
          rw [← List.takeWhile_append_dropWhile (p := separates) (l := c :: rest), hdrop]
          exact .clock hne hgap hclock hafter
        · exact nomatch h
  · intro h
    cases h with
    | midnight hafter => exact timePart?_of_blank (Text.dropBlanks_eq_nil_iff.mpr hafter)
    | @clock gap clock after _ hne hgap hclock hafter =>
      have htime : time? (clock ++ after) = some time :=
        time?_eq_some_iff.mpr ⟨clock, after, hclock, hafter, rfl⟩
      obtain ⟨d, digits, rfl, hd⟩ := hclock.exists_cons
      obtain ⟨c, gap, rfl⟩ := List.exists_cons_of_ne_nil hne
      -- the first digit of the time is no blank, so there is something to read
      have hnotBlank : Text.dropBlanks (c :: (gap ++ (d :: digits ++ after))) ≠ [] := by
        rw [ne_eq, Text.dropBlanks_eq_nil_iff]
        intro hall
        have hd' := hall d (List.mem_cons_of_mem _ (List.mem_append_right _ List.mem_cons_self))
        rw [Text.isBlank_eq_false_of_isDigit hd] at hd'
        exact nomatch hd'
      have hdrop : (c :: gap ++ (d :: digits ++ after)).dropWhile separates = d :: digits ++ after :=
        dropWhile_append_of_stops hgap (stops_cons.mpr (hdigit d hd))
      rw [List.cons_append, timePart?_cons hnotBlank, if_pos (hgap c List.mem_cons_self),
        ← List.cons_append, hdrop, htime]

/-! ## Days -/

variable {t : DateTime}

/-- The last step of both forms: the time is read, and the fields of the day are put together. -/
def dated (separates : Char → Bool) (year month day : Nat) (rest : List Char) : Option DateTime := do
  let time ← timePart? separates rest
  return ⟨← Date.ofFields? year month day, time⟩

/-- A day and what follows it are read as a time exactly if they write its day and its clock. -/
theorem dated_eq_some_iff {separates : Char → Bool}
    (hdigit : ∀ c, Text.isDigit c = true → separates c = false) {year month day : Nat} :
    dated separates year month day rest = some t ↔
      WritesTime separates rest t.time ∧ t.date.year = year ∧ t.date.month = month ∧
        t.date.day = day := by
  simp only [dated, Option.bind_eq_bind, Option.bind_eq_some_iff, timePart?_eq_some_iff hdigit,
    Date.ofFields?_eq_some_iff]
  constructor
  · rintro ⟨time, htime, date, hdate, hpure⟩
    cases hpure
    exact ⟨htime, hdate⟩
  · rintro ⟨htime, hdate⟩
    exact ⟨t.time, htime, t.date, hdate, rfl⟩

/-- No digit separates a day from a clock. -/
theorem isDigit_not_separates {c : Char} (h : Text.isDigit c = true) :
    (Text.isBlank c || c == 'T') = false := by
  rw [Text.isBlank_eq_false_of_isDigit h, Bool.false_or, beq_eq_false_iff_ne]
  rintro rfl
  exact nomatch h

/-- What follows a day does not go on with a digit. -/
theorem WritesTime.stops {separates : Char → Bool}
    (hblank : ∀ c, Text.isBlank c = true → separates c = true)
    (hdigit : ∀ c, Text.isDigit c = true → separates c = false) {time : TimeOfDay}
    (h : WritesTime separates text time) : Stops Text.isDigit text := by
  have hnot : ∀ c, separates c = true → Text.isDigit c = false := by
    intro c hc
    rw [Bool.eq_false_iff]
    intro hd
    rw [hdigit c hd] at hc
    exact nomatch hc
  cases h with
  | midnight hafter => exact stops_of_blank (fun c hc => hnot c (hblank c hc)) hafter
  | clock hne hgap =>
    obtain ⟨c, gap, rfl⟩ := List.exists_cons_of_ne_nil hne
    exact stops_cons.mpr (hnot c (hgap c List.mem_cons_self))

/-- The reader of the form with slashes accepts exactly what that form writes. -/
theorem monthFirst?_eq_some_iff : monthFirst? text = some t ↔
    ∃ month day year rest n, IsNumeral 1 2 month t.date.month ∧ IsNumeral 1 2 day t.date.day ∧
      IsNumeral 4 4 year n ∧ t.date.year = n ∧ WritesTime Text.isBlank rest t.time ∧
      text = month ++ '/' :: (day ++ '/' :: (year ++ rest)) := by
  have hblank : ∀ c, Text.isBlank c = true → Text.isBlank c = true := fun _ => id
  have hdigit : ∀ c, Text.isDigit c = true → Text.isBlank c = false :=
    fun c => Text.isBlank_eq_false_of_isDigit
  have hslash : Text.isDigit '/' = false := rfl
  refine (numbers_eq_some_iff hslash fun month day year =>
    dated Text.isBlank year month day).trans ?_
  constructor
  · rintro ⟨_, _, n, month, day, year, rest, hmonth, hday, hyear, -, hrest, rfl⟩
    obtain ⟨htime, hn, rfl, rfl⟩ := (dated_eq_some_iff hdigit).mp hrest
    exact ⟨month, day, year, rest, n, hmonth, hday, hyear, hn, htime, rfl⟩
  · rintro ⟨month, day, year, rest, n, hmonth, hday, hyear, hn, htime, rfl⟩
    exact ⟨_, _, n, month, day, year, rest, hmonth, hday, hyear, htime.stops hblank hdigit,
      (dated_eq_some_iff hdigit).mpr ⟨htime, hn, rfl, rfl⟩, rfl⟩

/-- The reader of the form with hyphens accepts exactly what that form writes. -/
theorem yearFirst?_eq_some_iff : yearFirst? text = some t ↔
    ∃ year month day rest n, IsNumeral 4 4 year n ∧ t.date.year = n ∧
      IsNumeral 1 2 month t.date.month ∧ IsNumeral 1 2 day t.date.day ∧
      WritesTime (fun c => Text.isBlank c || c == 'T') rest t.time ∧
      text = year ++ '-' :: (month ++ '-' :: (day ++ rest)) := by
  have hblank : ∀ c, Text.isBlank c = true → (Text.isBlank c || c == 'T') = true :=
    fun c hc => by rw [hc, Bool.true_or]
  have hdigit : ∀ c, Text.isDigit c = true → (Text.isBlank c || c == 'T') = false :=
    fun c => isDigit_not_separates
  have hdash : Text.isDigit '-' = false := rfl
  refine (numbers_eq_some_iff hdash (dated fun c => Text.isBlank c || c == 'T')).trans ?_
  constructor
  · rintro ⟨n, _, _, year, month, day, rest, hyear, hmonth, hday, -, hrest, rfl⟩
    obtain ⟨htime, hn, rfl, rfl⟩ := (dated_eq_some_iff hdigit).mp hrest
    exact ⟨year, month, day, rest, n, hyear, hn, hmonth, hday, htime, rfl⟩
  · rintro ⟨year, month, day, rest, n, hyear, hn, hmonth, hday, htime, rfl⟩
    exact ⟨n, _, _, year, month, day, rest, hyear, hmonth, hday, htime.stops hblank hdigit,
      (dated_eq_some_iff hdigit).mpr ⟨htime, hn, rfl, rfl⟩, rfl⟩

/-- A text that starts with a year starts with too many digits for a month. -/
theorem monthFirst?_eq_none {year : List Char} (hyear : IsNumeral 4 4 year n)
    (hrest : Stops Text.isDigit rest) : monthFirst? (year ++ rest) = none := by
  rw [Option.eq_none_iff_forall_ne_some]
  intro t ht
  obtain ⟨month, day, year', rest', n', hmonth, -, -, -, -, htext⟩ := monthFirst?_eq_some_iff.mp ht
  have hrun := congrArg (List.takeWhile Text.isDigit) htext
  rw [takeWhile_append_of_stops hyear.isDigit hrest,
    takeWhile_append_of_stops hmonth.isDigit (stops_cons.mpr (by decide))] at hrun
  have hmost := hmonth.le_most
  have hleast := hyear.least_le
  rw [hrun] at hleast
  omega

/-! ## Dates and times -/

/-- A day starts with a digit in either form. -/
theorem WritesDay.exists_cons {separates : Char → Bool} {day : List Char} {date : Date}
    (h : WritesDay separates day date) : ∃ c rest, day = c :: rest ∧ Text.isDigit c = true := by
  cases h with
  | monthFirst hmonth =>
    obtain ⟨c, rest, rfl, hc⟩ := hmonth.exists_cons
    exact ⟨c, _, rfl, hc⟩
  | yearFirst hyear =>
    obtain ⟨c, rest, rfl, hc⟩ := hyear.exists_cons
    exact ⟨c, _, rfl, hc⟩

/-- A text without blanks in front is read in one of the two forms. -/
theorem forms_eq_some_iff : (monthFirst? text).or (yearFirst? text) = some t ↔
    ∃ separates day rest, WritesDay separates day t.date ∧ WritesTime separates rest t.time ∧
      text = day ++ rest := by
  rw [Option.or_eq_some_iff]
  constructor
  · rintro (h | ⟨-, h⟩)
    · obtain ⟨month, day, year, rest, n, hmonth, hday, hyear, hn, htime, rfl⟩ :=
        monthFirst?_eq_some_iff.mp h
      refine ⟨_, _, rest, .monthFirst hmonth hday hyear hn, htime, ?_⟩
      simp only [List.append_assoc, List.cons_append]
    · obtain ⟨year, month, day, rest, n, hyear, hn, hmonth, hday, htime, rfl⟩ :=
        yearFirst?_eq_some_iff.mp h
      refine ⟨_, _, rest, .yearFirst hyear hn hmonth hday, htime, ?_⟩
      simp only [List.append_assoc, List.cons_append]
  · rintro ⟨separates, _, rest, hday, htime, rfl⟩
    cases hday with
    | @monthFirst month day year n _ hmonth hday hyear hn =>
      refine .inl (monthFirst?_eq_some_iff.mpr
        ⟨month, day, year, rest, n, hmonth, hday, hyear, hn, htime, ?_⟩)
      simp only [List.append_assoc, List.cons_append]
    | @yearFirst year month day n _ hyear hn hmonth hday =>
      rw [List.append_assoc, List.cons_append, List.append_assoc, List.cons_append]
      exact .inr ⟨monthFirst?_eq_none hyear (stops_cons.mpr (by decide)),
        yearFirst?_eq_some_iff.mpr ⟨year, month, day, rest, n, hyear, hn, hmonth, hday, htime, rfl⟩⟩

/-- Every text that denotes a date and time is read. -/
theorem Writes.read? (h : Writes text t) : read? text = some t := by
  obtain @⟨separates, before, day, rest, _, hbefore, hday, htime⟩ := h
  obtain ⟨c, tail, hcons, hc⟩ := hday.exists_cons
  have hdrop : Text.dropBlanks (before ++ (day ++ rest)) = day ++ rest := by
    refine dropWhile_append_of_stops hbefore ?_
    rw [hcons]
    exact stops_cons.mpr (Text.isBlank_eq_false_of_isDigit hc)
  rw [Calendar.read?, hdrop]
  exact forms_eq_some_iff.mpr ⟨separates, day, rest, hday, htime, rfl⟩

/-- The reader of dates accepts exactly the texts that denote a date and time, and finds its fields:
a day of the calendar in one of its two forms, the time of the clock if it is given and the start of
the day otherwise, never a fraction of a second. -/
theorem read?_eq_some_iff (text : List Char) (t : DateTime) :
    Calendar.read? text = some t ↔ Writes text t := by
  refine ⟨fun h => ?_, Writes.read?⟩
  obtain ⟨separates, day, rest, hday, htime, hdrop⟩ := forms_eq_some_iff.mp h
  have hbefore : ∀ c ∈ text.takeWhile Text.isBlank, Text.isBlank c = true :=
    fun c hc => List.mem_takeWhile_imp hc
  rw [← List.takeWhile_append_dropWhile (p := Text.isBlank) (l := text),
    show text.dropWhile Text.isBlank = day ++ rest from hdrop]
  exact .intro hbefore hday htime

end Calendar

end Formula
