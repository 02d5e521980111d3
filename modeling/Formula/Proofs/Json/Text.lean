import Formula.Json.Reader
import Formula.Proofs.Text.Classes
import Formula.Proofs.Text.Digits

/-!
# Scalars of JSON read back

`Scalar.ReadsBack` says that the reader gives a scalar for the text that is written for it. It does
for truth values, for integers that a word holds and for strings of whatever characters: what is
written for one character inside quotes is what the reader takes for that character
(`stringChar?_quoteChar`), and never the closing quote. A number is read part by part, and denotes
what `number?` makes of its parts (`read?_numberChars`).

A double need not be read back, since the reader rounds more than once; for those that are see
`readsBack_double`. No text that starts with an equals sign is JSON.
-/

namespace Formula.Json

open NaturalPower

/-- Whether the reader undoes the writer on a scalar. -/
def Scalar.ReadsBack (s : Scalar) : Prop := read? s.text = some (.scalar s)

/-! ## Strings -/

/-- A digit of base sixteen is read back. -/
theorem hexValue?_hexDigit {n : Nat} (h : n < 16) : hexValue? (hexDigit n) = some n := by
  have hall : ∀ n < 16, hexValue? (hexDigit n) = some n := by decide
  exact hall n h

/-- The escape of a control character is read back. -/
theorem unicode?_hexDigits {c : Char} (h : c.toNat < 32) (rest : List Char) :
    unicode? ('0' :: '0' :: hexDigit (c.toNat / 16) :: hexDigit (c.toNat % 16) :: rest) =
      some (c, rest) := by
  have hzero : hexValue? '0' = some 0 := rfl
  have hfour : fourHex? ('0' :: '0' :: hexDigit (c.toNat / 16) :: hexDigit (c.toNat % 16) :: rest) =
      some (c.toNat, rest) := by
    have hvalue : (0 * 16 + 0) * 256 + (c.toNat / 16 * 16 + c.toNat % 16) = c.toNat := by omega
    simp only [fourHex?, hzero, hexValue?_hexDigit (show c.toNat / 16 < 16 by omega),
      hexValue?_hexDigit (show c.toNat % 16 < 16 by omega)]
    exact congrArg (fun n => some (n, rest)) hvalue
  rw [unicode?, hfour]
  show (if 0xD800 ≤ c.toNat ∧ c.toNat < 0xDC00 then _ else _) = _
  rw [if_neg (by omega), if_neg (by omega), Char.ofNat_toNat]
  rfl

/-- What is written for a character is what is read as that character. -/
theorem stringChar?_quoteChar (c : Char) (rest : List Char) :
    stringChar? (quoteChar c ++ rest) = some (c, rest) := by
  unfold quoteChar
  split_ifs with hquote hbackslash hline hreturn htab hback hfeed hcontrol
  case pos => rw [hquote]; rfl
  case pos => rw [hbackslash]; rfl
  case pos => rw [hline]; rfl
  case pos => rw [hreturn]; rfl
  case pos => rw [htab]; rfl
  case pos => rw [hback]; rfl
  case pos => rw [hfeed]; rfl
  case pos => exact unicode?_hexDigits hcontrol rest
  case neg =>
    have hread := stringChar?.eq_3 c rest (fun _ h => absurd h hbackslash)
      (fun _ _ h => absurd h hbackslash)
    rw [if_neg (not_or.mpr ⟨hbackslash, hcontrol⟩)] at hread
    exact hread

/-- No character is written as the closing quote. -/
theorem exists_quoteChar (c : Char) :
    ∃ first others, quoteChar c = first :: others ∧ first ≠ '"' := by
  unfold quoteChar
  split_ifs with hquote
  case neg => exact ⟨c, [], rfl, hquote⟩
  all_goals exact ⟨'\\', _, rfl, by decide⟩

/-- Quoted characters are read back up to the closing quote. -/
theorem chars?_quoted (chars rest : List Char) {count : Nat} (h : chars.length < count) :
    chars? count (chars.flatMap quoteChar ++ '"' :: rest) = some (chars, rest) := by
  induction chars generalizing count with
  | nil =>
    obtain ⟨count, rfl⟩ := Nat.exists_eq_add_one.mpr h
    rfl
  | cons c chars ih =>
    obtain ⟨count, rfl⟩ := Nat.exists_eq_add_one.mpr (Nat.zero_lt_of_lt h)
    obtain ⟨first, others, hfirst, hquote⟩ := exists_quoteChar c
    have hread := stringChar?_quoteChar c (chars.flatMap quoteChar ++ '"' :: rest)
    rw [List.flatMap_cons, List.append_assoc]
    rw [hfirst] at hread ⊢
    rw [List.cons_append, chars?.eq_3 _ _ (fun _ heq => hquote (List.cons.inj heq).1)]
    rw [List.cons_append] at hread
    have hrest := ih (Nat.lt_of_succ_lt_succ h)
    simp only [hread, hrest, Option.bind_eq_bind, Option.bind_some]
    rfl

/-- So is a quoted string, with what follows it left over. -/
theorem string?_quoted (s : String) (rest : List Char) :
    string? (s.toList.flatMap quoteChar ++ '"' :: rest) = some (s, rest) := by
  have hlength : s.toList.length ≤ (s.toList.flatMap quoteChar).length := by
    induction s.toList with
    | nil => exact Nat.le_refl _
    | cons c chars ih =>
      obtain ⟨first, others, hfirst, -⟩ := exists_quoteChar c
      rw [List.flatMap_cons, hfirst, List.length_append, List.length_cons, List.length_cons]
      omega
  have hcount : s.toList.length < (s.toList.flatMap quoteChar ++ '"' :: rest).length + 1 := by
    rw [List.length_append]
    omega
  rw [string?, chars?_quoted s.toList rest hcount, Option.map_some]
  show some (String.ofList s.toList, rest) = _
  rw [String.ofList_toList]

/-! ## Numbers -/

/-- Whether digits can stand in front of the point of a number: a single zero, or digits that do not
start with one. -/
inductive IsWhole : List Char → Prop where
  | zero : IsWhole ['0']
  | digits {c : Char} {rest : List Char} (hzero : c ≠ '0')
      (hdigits : ∀ d ∈ c :: rest, Text.isDigit d = true) : IsWhole (c :: rest)

/-- An exponent with its sign. -/
def exponentChars : Int → List Char
  | .ofNat e => 'e' :: '+' :: Text.digitsOfNat e
  | .negSucc e => 'e' :: '-' :: Text.digitsOfNat (e + 1)

/-- A number without its sign: digits, a point with digits behind it, and an exponent. The last two
may be missing. -/
def numberChars (whole : List Char) (fraction : Option (List Char)) (exponent : Option Int) :
    List Char :=
  whole ++ (fraction.elim [] ('.' :: ·) ++ exponent.elim [] exponentChars)

/-- A single digit is a whole part. -/
theorem isWhole_singleton {c : Char} (h : Text.isDigit c = true) : IsWhole [c] := by
  by_cases hzero : c = '0'
  · subst hzero
    exact .zero
  · exact .digits hzero (List.forall_mem_singleton.mpr h)

/-- The first digits of a number can stand in front of a point. -/
theorem isWhole_front {digits : List Char} {n : Nat} (hne : digits ≠ [])
    (h : digits <+: Text.digitsOfNat n) : IsWhole digits := by
  obtain ⟨behind, hdigits⟩ := h
  obtain ⟨c, rest, rfl⟩ := List.exists_cons_of_ne_nil hne
  have hall : ∀ d ∈ c :: rest, Text.isDigit d = true := fun d hd =>
    Text.isDigit_of_mem_digitsOfNat (hdigits ▸ List.mem_append_left behind hd)
  by_cases hzero : c = '0'
  · -- only the number zero begins with a zero, and it has no further digits
    subst hzero
    have hrest := (List.append_eq_nil_iff.mp (Text.eq_nil_of_digitsOfNat hdigits.symm)).1
    rw [hrest]
    exact .zero
  · exact .digits hzero hall

/-- So are the digits of a number. -/
theorem isWhole_digitsOfNat (n : Nat) : IsWhole (Text.digitsOfNat n) :=
  isWhole_front (Text.digitsOfNat_ne_nil n) List.prefix_rfl

/-- What stands in front of the point, if zeros are put in front of the digits as far as there have
to be. -/
theorem isWhole_of_padLeft {front back : List Char} {n : Nat}
    (h : front ++ back = Text.padLeft (back.length + 1) (Text.digitsOfNat n)) (hne : front ≠ []) :
    IsWhole front := by
  have hall : ∀ c ∈ front ++ back, Text.isDigit c = true := by
    rw [h]
    exact Text.isDigit_of_mem_padLeft fun _ => Text.isDigit_of_mem_digitsOfNat
  by_cases hshort : (Text.digitsOfNat n).length ≤ back.length
  · -- a single digit is left in front, which is a zero
    have htotal := congrArg List.length h
    rw [List.length_append, Text.length_padLeft] at htotal
    obtain ⟨c, rfl⟩ := List.length_eq_one_iff.mp (show front.length = 1 by omega)
    exact isWhole_singleton (hall c (List.mem_append_left _ List.mem_cons_self))
  · have hpad : Text.padLeft (back.length + 1) (Text.digitsOfNat n) = Text.digitsOfNat n := by
      rw [Text.padLeft, show back.length + 1 - (Text.digitsOfNat n).length = 0 by omega]
      rfl
    exact isWhole_front hne ⟨back, h.trans hpad⟩

/-- A whole part starts with a digit. -/
theorem IsWhole.exists_cons {whole : List Char} (h : IsWhole whole) :
    ∃ c rest, whole = c :: rest ∧ Text.isDigit c = true := by
  cases h with
  | zero => exact ⟨'0', [], rfl, rfl⟩
  | @digits c rest _ hdigits => exact ⟨c, rest, rfl, hdigits c List.mem_cons_self⟩

section Numbers

variable {digits whole rest : List Char} {fraction : Option (List Char)} {exponent : Option Int}

/-- Reading digits takes all of them. -/
theorem digits?_append (hne : digits ≠ []) (hdigits : ∀ c ∈ digits, Text.isDigit c = true)
    (hrest : Stops Text.isDigit rest) : digits? (digits ++ rest) = some (digits, rest) := by
  unfold digits?
  rw [takeWhile_append_of_stops hdigits hrest, dropWhile_append_of_stops hdigits hrest]
  dsimp only
  rw [List.isEmpty_eq_false_iff.mpr hne]
  rfl

/-- Reading a whole part takes all of its digits. -/
theorem wholePart?_append (h : IsWhole whole) (hrest : Stops Text.isDigit rest) :
    wholePart? (whole ++ rest) = some (whole, rest) := by
  cases h with
  | zero =>
    rw [List.cons_append, List.nil_append, wholePart?.eq_1]
    cases rest with
    | nil => rfl
    | cons d rest =>
      have hd : (some d).any Text.isDigit = false := stops_cons.mp hrest
      rw [List.head?_cons, hd]
      rfl
  | @digits c others hzero hdigits =>
    have hread := digits?_append (List.cons_ne_nil c others) hdigits hrest
    rw [List.cons_append] at hread ⊢
    rw [wholePart?.eq_2 _ fun _ heq => hzero (List.cons.inj heq).1, hread]

/-- The digits of a number are read back with nothing left over. -/
theorem digits?_digitsOfNat (n : Nat) :
    digits? (Text.digitsOfNat n) = some (Text.digitsOfNat n, []) := by
  have hread := digits?_append (Text.digitsOfNat_ne_nil n)
    (fun _ => Text.isDigit_of_mem_digitsOfNat) (stops_nil _)
  rwa [List.append_nil] at hread

/-- The text of an exponent is read back. -/
theorem exponent?_exponentChars (exponent : Option Int) :
    exponent? (exponent.elim [] exponentChars) = some (exponent, []) := by
  cases exponent with
  | none => rfl
  | some exponent =>
    cases exponent with
    | ofNat e =>
      show (digits? (Text.digitsOfNat e)).map _ = _
      rw [digits?_digitsOfNat]
      exact congrArg (fun n : Nat => some (some (n : Int), [])) (Text.natOfDigits_digitsOfNat e)
    | negSucc e =>
      show (digits? (Text.digitsOfNat (e + 1))).map _ = _
      rw [digits?_digitsOfNat]
      exact congrArg (fun n : Nat => some (some (-n : Int), []))
        (Text.natOfDigits_digitsOfNat (e + 1))

/-- The text of an exponent starts with neither a digit nor a point. -/
theorem stops_exponentChars (exponent : Option Int) :
    Stops (fun c => Text.isDigit c || c == '.') (exponent.elim [] exponentChars) := by
  cases exponent with
  | none => exact stops_nil _
  | some exponent => cases exponent <;> exact stops_cons.mpr (by decide)

/-- A number is read part by part, and denotes what its parts do. -/
theorem unsigned?_numberChars {negative : Bool} (hwhole : IsWhole whole)
    (hfraction : ∀ digits ∈ fraction, digits ≠ [] ∧ ∀ c ∈ digits, Text.isDigit c = true) :
    unsigned? negative (numberChars whole fraction exponent) =
      (number? negative whole fraction exponent).map fun scalar => (scalar, []) := by
  have hstops := stops_exponentChars exponent
  have hdigit : Stops Text.isDigit (exponent.elim [] exponentChars) :=
    fun c hc => (Bool.or_eq_false_iff.mp (hstops c hc)).1
  have hpoint : fraction? (fraction.elim [] ('.' :: ·) ++ exponent.elim [] exponentChars) =
      some (fraction, exponent.elim [] exponentChars) := by
    cases fraction with
    | none =>
      refine fraction?.eq_2 _ fun rest heq => ?_
      exact absurd (hstops '.' (by rw [show exponent.elim [] exponentChars = _ from heq]; rfl))
        (by decide)
    | some digits =>
      obtain ⟨hne, hdigits⟩ := hfraction digits rfl
      show (digits? (digits ++ exponent.elim [] exponentChars)).map _ = _
      rw [digits?_append hne hdigits hdigit]
      rfl
  have hbehind : Stops Text.isDigit
      (fraction.elim [] ('.' :: ·) ++ exponent.elim [] exponentChars) := by
    cases fraction with
    | none => exact hdigit
    | some digits => exact stops_cons.mpr (by decide)
  unfold unsigned? numberChars
  simp only [wholePart?_append hwhole hbehind, hpoint, exponent?_exponentChars,
    Option.bind_eq_bind, Option.bind_some]
  cases number? negative whole fraction exponent <;> rfl

end Numbers

/-! ## Documents -/

section Documents

variable {first : Char} {text : List Char} {scalar : Scalar}

/-- A text is read as a scalar if the scalar is read at its first character, which is no blank, and
nothing is left. -/
theorem read?_of_document? (hblank : isBlank first = false)
    (h : ∀ inner, document? inner (first :: text) = some (.scalar scalar, [])) :
    read? (String.ofList (first :: text)) = some (.scalar scalar) := by
  have hskip : skipBlanks (first :: text) = first :: text := by
    rw [skipBlanks, List.dropWhile_cons_of_neg (by rw [hblank]; decide)]
  have hnested : nested? maxNesting (first :: text) = some (.scalar scalar, []) := h _
  rw [read?, String.toList_ofList, hskip, hnested]
  rfl

/-- No digit is a blank. -/
theorem isBlank_of_isDigit (h : Text.isDigit first = true) : isBlank first = false := by
  rw [Bool.eq_false_iff]
  intro hblank
  simp only [isBlank, Bool.or_eq_true, beq_iff_eq] at hblank
  rcases hblank with ((rfl | rfl) | rfl) | rfl <;> exact nomatch h

/-- What begins with a digit is a number without a sign. -/
theorem document?_of_isDigit (inner : Option (Reader Document))
    (h : Text.isDigit first = true) : document? inner (first :: text) =
      (unsigned? false (first :: text)).map fun (n, rest) => (.scalar n, rest) := by
  refine document?.eq_8 _ _ ?_ ?_ ?_ ?_ ?_ ?_ ?_
  all_goals
    rintro tail heq
    cases heq
    exact nomatch h

/-- A number with its sign denotes what its parts do. -/
theorem read?_numberChars {negative : Bool} {whole : List Char} {fraction : Option (List Char)}
    {exponent : Option Int} (hwhole : IsWhole whole)
    (hfraction : ∀ digits ∈ fraction, digits ≠ [] ∧ ∀ c ∈ digits, Text.isDigit c = true)
    (hnumber : number? negative whole fraction exponent = some scalar) :
    read? (String.ofList ((if negative then ['-'] else []) ++
      numberChars whole fraction exponent)) = some (.scalar scalar) := by
  have hread := @unsigned?_numberChars _ _ exponent negative hwhole hfraction
  rw [hnumber, Option.map_some] at hread
  cases negative with
  | false =>
    obtain ⟨first, others, rfl, hdigit⟩ := hwhole.exists_cons
    refine read?_of_document? (isBlank_of_isDigit hdigit) fun inner => ?_
    rw [document?_of_isDigit inner hdigit]
    exact congrArg (Option.map _) hread
  | true =>
    refine read?_of_document? (by decide) fun inner => ?_
    rw [document?.eq_4]
    exact congrArg (Option.map _) hread

/-- A text that starts with an equals sign is no document. -/
theorem read?_of_equals (text : List Char) : read? (String.ofList ('=' :: text)) = none := by
  rw [read?, String.toList_ofList]
  rfl

end Documents

/-! ## Scalars -/

/-- Truth values are read back. -/
theorem readsBack_boolean (b : Bool) : (Scalar.boolean b).ReadsBack := by
  cases b <;> rfl

/-- Strings are read back, whatever is in them. -/
theorem readsBack_string (s : String) : (Scalar.string s).ReadsBack := by
  refine read?_of_document? (by decide) fun inner => ?_
  show (string? (s.toList.flatMap quoteChar ++ ['"'])).map _ = _
  rw [string?_quoted s []]
  rfl

/-- The digits of an integer denote it, unless it is a zero with a sign. -/
theorem number?_digitsOfNat {negative : Bool} {n : Nat}
    (hword : isWordSized (if negative then -n else n : Int) = true)
    (hzero : negative = true → n ≠ 0) : number? negative (Text.digitsOfNat n) none none =
      some (.integer (if negative then -n else n : Int)) := by
  have hsign : (!(negative && n == 0)) = true := by
    cases negative with
    | false => rfl
    | true => simp [hzero rfl]
  unfold number?
  rw [Text.natOfDigits_digitsOfNat]
  dsimp only
  rw [hword, hsign]
  rfl

/-- A word holds every integer of the language. -/
theorem isWordSized_toInt (n : Int64) : isWordSized n.toInt = true := by
  have hmin : -2 ^ (63 : Nat) ≤ n.toInt := n.minValue_le_toInt
  have hmax : n.toInt ≤ 2 ^ (63 : Nat) - 1 := n.toInt_le
  rw [isWordSized, Bool.and_eq_true, decide_eq_true_eq, decide_eq_true_eq]
  omega

/-- Integers that fit a word are read back. -/
theorem readsBack_integer {n : Int} (h : isWordSized n = true) : (Scalar.integer n).ReadsBack := by
  unfold Scalar.ReadsBack Scalar.text
  have hchars : ∀ whole, numberChars whole none none = whole := fun whole => List.append_nil whole
  have hnone : ∀ digits ∈ (none : Option (List Char)),
      digits ≠ [] ∧ ∀ c ∈ digits, Text.isDigit c = true := fun _ h => nomatch h
  cases n with
  | ofNat n =>
    have hread := read?_numberChars (isWhole_digitsOfNat n) hnone
      (@number?_digitsOfNat false n h nofun)
    rw [hchars] at hread
    exact hread
  | negSucc n =>
    have hread := read?_numberChars (isWhole_digitsOfNat (n + 1)) hnone
      (@number?_digitsOfNat true (n + 1) h fun _ => Nat.succ_ne_zero n)
    have htext : (Int.negSucc n).repr = String.ofList (['-'] ++ Text.digitsOfNat (n + 1)) := by
      apply String.toList_injective
      show ("-" ++ (n + 1).repr).toList = _
      rw [String.toList_append, Nat.toList_repr, String.toList_ofList, String.toList_ofList]
      rfl
    rw [hchars] at hread
    dsimp only
    rw [htext]
    exact hread

end Formula.Json
