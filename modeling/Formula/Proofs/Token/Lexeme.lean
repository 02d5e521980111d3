import Formula.Proofs.Text.Classes

/-!
# The forms of lexemes

`Spells kind text lexeme` says what a lexeme of each kind looks like and which text it stands for:
delimiters are dropped, escapes are resolved, a number that starts with its point gets a zero in
front, and truth values are written small. `Ends kind lexeme rest` says that the lexeme is as long as
it can be in front of `rest`. Neither mentions how lexemes are read.

The main statements tie both to the reader. `read_of_spells`: a lexeme that ends in front of `rest`
is what is read there. `takes_of_read`: whatever is read is a lexeme that ends there.
-/

namespace Formula.Lexeme

/-! ## Forms -/

/-- What stands for a text between quotes: a quote or backslash only behind a backslash, which also
gives three letters another meaning. -/
inductive Quotes : (text body : List Char) → Prop where
  | nil : Quotes [] []
  | plain {c : Char} {text body : List Char} (hquote : c ≠ '\'') (hescape : c ≠ '\\')
      (h : Quotes text body) : Quotes (c :: text) (c :: body)
  | escape {c : Char} {text body : List Char} (h : Quotes text body) :
      Quotes (escaped c :: text) ('\\' :: c :: body)

/-- The operator signs. -/
inductive IsSign : List Char → Prop where
  | one {a : Char} (h : a ∈ oneCharSigns) : IsSign [a]
  | two {a b : Char} (h : (a, b) ∈ twoCharSigns) : IsSign [a, b]

/-- The digits in front of a point as a number shows them: a zero stands in for none. -/
def leading (whole : List Char) : List Char := if whole = [] then ['0'] else whole

/-- The lexemes of a kind that stand for a text. The end of the input is no lexeme. -/
inductive Spells : (kind : TokenKind) → (text lexeme : List Char) → Prop where
  | leftParen : Spells .leftParen ['('] ['(']
  | rightParen : Spells .rightParen [')'] [')']
  | comma : Spells .comma [','] [',']
  | string {text body : List Char} (h : Quotes text body) :
      Spells .string text ('\'' :: (body ++ ['\'']))
  | date {text : List Char} (hclose : '#' ∉ text) (hvalid : (Calendar.read? text).isSome) :
      Spells .date text ('#' :: (text ++ ['#']))
  | reference {name : List Char} (hclose : ']' ∉ name) :
      Spells .reference name ('[' :: (name ++ [']']))
  | number {digits : List Char} (hne : digits ≠ []) (hdigits : ∀ d ∈ digits, Text.isDigit d = true)
      (hvalid : (Integer.read? digits).isSome) : Spells .number digits digits
  | decimalNumber {whole places : List Char} (hwhole : ∀ d ∈ whole, Text.isDigit d = true)
      (hne : places ≠ []) (hplaces : ∀ d ∈ places, Text.isDigit d = true)
      (hvalid : (Decimal.read? (leading whole ++ '.' :: places)).isSome) :
      Spells .decimalNumber (leading whole ++ '.' :: places) (whole ++ '.' :: places)
  | boolean {word : String} {lexeme : List Char} (hmem : word ∈ ["true", "false"])
      (hword : isWord word lexeme = true) : Spells .boolean word.toList lexeme
  | identifier {c : Char} {rest : List Char} (hstart : startsName c = true)
      (hrest : ∀ d ∈ rest, continuesName d = true)
      (hword : ∀ word ∈ ["true", "false"], isWord word (c :: rest) = false) :
      Spells .identifier (c :: rest) (c :: rest)
  | operator {sign : List Char} (h : IsSign sign) : Spells .operator sign sign

/-- Whether a lexeme of a kind is as long as it can be in front of `rest`: names and truth values
take all characters of names, numbers all digits and the point between digits, and a sign of one
character is not the start of one of two. -/
def Ends : (kind : TokenKind) → (lexeme rest : List Char) → Prop
  | .identifier, _, rest | .boolean, _, rest => Stops continuesName rest
  | .number, _, rest =>
    Stops Text.isDigit rest ∧ ∀ places, rest = '.' :: places → Stops Text.isDigit places
  | .decimalNumber, _, rest => Stops Text.isDigit rest
  | .operator, [a], rest => ∀ b ∈ rest.head?, (a, b) ∉ twoCharSigns
  | _, _, _ => True

/-- Behind the first character only a number looks further, for a digit behind a point. -/
theorem Ends.of_cons {kind : TokenKind} {lexeme rest rest' : List Char} {c : Char}
    (h : Ends kind lexeme (c :: rest))
    (hdigit : Stops Text.isDigit rest → Stops Text.isDigit rest') : Ends kind lexeme (c :: rest') := by
  unfold Ends at h ⊢
  split <;> simp only at h
  · exact stops_cons.mpr (stops_cons.mp h)
  · exact stops_cons.mpr (stops_cons.mp h)
  · refine ⟨stops_cons.mpr (stops_cons.mp h.1), ?_⟩
    rintro places ⟨⟩
    exact hdigit (h.2 rest rfl)
  · exact stops_cons.mpr (stops_cons.mp h)
  · exact h
  · trivial

/-- A lexeme has at least one character. -/
theorem Spells.ne_nil {kind : TokenKind} {text lexeme : List Char} (h : Spells kind text lexeme) :
    lexeme ≠ [] := by
  cases h with
  | number hne => exact hne
  | boolean hmem hword =>
    rintro rfl
    simp only [List.mem_cons, List.not_mem_nil, or_false] at hmem
    rcases hmem with rfl | rfl <;> exact absurd hword (by decide)
  | operator h => cases h <;> exact List.cons_ne_nil _ _
  | decimalNumber => simp
  | _ => exact List.cons_ne_nil _ _

/-- No lexeme spells an end. -/
theorem Spells.kind_ne_eof {kind : TokenKind} {text lexeme : List Char}
    (h : Spells kind text lexeme) : kind ≠ .eof := by
  cases h <;> decide

/-! ## Delimited lexemes -/

/-- The reader of quoted texts finds the first quote that is not escaped. -/
theorem quoted?_eq_some_iff {rest text : List Char} {count : Nat} :
    quoted? rest = some (text, count) ↔
      ∃ body tail, rest = body ++ '\'' :: tail ∧ Quotes text body ∧ count = body.length + 1 := by
  constructor
  · intro h
    fun_induction quoted? rest generalizing text count with
    | case1 => exact nomatch h
    | case2 tail =>
      cases h
      exact ⟨[], tail, rfl, .nil, rfl⟩
    | case3 c rest ih =>
      obtain ⟨⟨text', count'⟩, hrest, heq⟩ := Option.map_eq_some_iff.mp h
      cases heq
      obtain ⟨body, tail, rfl, hbody, rfl⟩ := ih hrest
      exact ⟨'\\' :: c :: body, tail, rfl, .escape hbody, rfl⟩
    | case4 c rest hquote hescape ih =>
      obtain ⟨⟨text', count'⟩, hrest, heq⟩ := Option.map_eq_some_iff.mp h
      cases heq
      obtain ⟨body, tail, rfl, hbody, rfl⟩ := ih hrest
      -- a backslash here would have been read as an escape, as something follows it
      refine ⟨c :: body, tail, rfl, .plain (fun hc => hquote hc) ?_ hbody, rfl⟩
      rintro rfl
      cases body with
      | nil => exact hescape _ _ rfl rfl
      | cons d body => exact hescape _ _ rfl rfl
  · rintro ⟨body, tail, rfl, hbody, rfl⟩
    induction hbody with
    | nil => rfl
    | plain hquote hescape _ ih =>
      rw [List.cons_append, quoted?.eq_4 _ _ (fun hc => hquote hc)
        (fun _ _ hc _ => hescape hc), ih]
      rfl
    | escape _ ih =>
      rw [List.cons_append, List.cons_append, quoted?.eq_3, ih]
      rfl

/-- The reader of delimited texts finds the first closing delimiter. -/
theorem delimited?_eq_some_iff {close : Char} {rest text : List Char} :
    delimited? close rest = some text ↔ close ∉ text ∧ ∃ tail, rest = text ++ close :: tail := by
  have hstops : ∀ tail, Stops (· ≠ close) (close :: tail) := fun tail => by simp [stops_cons]
  constructor
  · intro h
    unfold delimited? at h
    split at h
    · rename_i hclose
      cases h
      refine ⟨fun hmem => by simpa using List.mem_takeWhile_imp hmem, ?_⟩
      have hsplit := List.takeWhile_append_dropWhile (p := (· ≠ close)) (l := rest)
      have hstop := stops_dropWhile (· ≠ close) rest
      cases hdrop : rest.dropWhile (· ≠ close) with
      | nil =>
        have hall := List.dropWhile_eq_nil_iff.mp hdrop close hclose
        simp at hall
      | cons c tail =>
        rw [hdrop, stops_cons, decide_eq_false_iff_not, not_not] at hstop
        rw [hdrop, hstop] at hsplit
        exact ⟨tail, hsplit.symm⟩
    · exact nomatch h
  · rintro ⟨hmem, tail, rfl⟩
    have hrun : ∀ c ∈ text, decide (c ≠ close) = true := by
      intro c hc
      rw [decide_eq_true_eq]
      rintro rfl
      exact hmem hc
    unfold delimited?
    rw [if_pos (by simp), takeWhile_append_of_stops hrun (hstops tail)]

/-! ## Numbers -/

/-- Digits with a point among them are taken up to the last place. -/
theorem numeral_of_point {whole places rest : List Char}
    (hwhole : ∀ d ∈ whole, Text.isDigit d = true) (hne : places ≠ [])
    (hplaces : ∀ d ∈ places, Text.isDigit d = true) (hrest : Stops Text.isDigit rest) :
    numeral (whole ++ '.' :: (places ++ rest)) = (whole ++ '.' :: places, true) := by
  have hpoint : Stops Text.isDigit ('.' :: (places ++ rest)) := stops_cons.mpr (by decide)
  have hrun := takeWhile_append_of_stops hplaces hrest
  unfold numeral
  rw [takeWhile_append_of_stops hwhole hpoint, dropWhile_append_of_stops hwhole hpoint]
  cases places with
  | nil => exact absurd rfl hne
  | cons d places =>
    have hd : Text.isDigit d = true := hplaces d List.mem_cons_self
    simp only [List.cons_append] at hrun ⊢
    rw [if_pos hd, hrun]

/-- Digits without places behind them are taken without a point. -/
theorem numeral_of_whole {digits rest : List Char} (hdigits : ∀ d ∈ digits, Text.isDigit d = true)
    (hrest : Stops Text.isDigit rest)
    (hpoint : ∀ places, rest = '.' :: places → Stops Text.isDigit places) :
    numeral (digits ++ rest) = (digits, false) := by
  unfold numeral
  rw [takeWhile_append_of_stops hdigits hrest, dropWhile_append_of_stops hdigits hrest]
  split
  · rename_i d places
    have hd : Text.isDigit d = false := stops_cons.mp (hpoint _ rfl)
    rw [if_neg (by simp [hd])]
  · rfl

/-- A text starts with a run of digits that goes on behind a point, or with one that does not. -/
theorem digits_split (text : List Char) :
    (∃ whole places rest, text = whole ++ '.' :: (places ++ rest) ∧
      (∀ d ∈ whole, Text.isDigit d = true) ∧ places ≠ [] ∧
      (∀ d ∈ places, Text.isDigit d = true) ∧ Stops Text.isDigit rest) ∨
    (∃ digits rest, text = digits ++ rest ∧ (∀ d ∈ digits, Text.isDigit d = true) ∧
      Stops Text.isDigit rest ∧ ∀ places, rest = '.' :: places → Stops Text.isDigit places) := by
  have hall : ∀ text : List Char, ∀ d ∈ text.takeWhile Text.isDigit, Text.isDigit d = true :=
    fun _ _ hd => List.mem_takeWhile_imp hd
  have hsplit := (List.takeWhile_append_dropWhile (p := Text.isDigit) (l := text)).symm
  by_cases hpoint : ∃ places, text.dropWhile Text.isDigit = '.' :: places ∧
      ¬ Stops Text.isDigit places
  · obtain ⟨places, hdrop, hplaces⟩ := hpoint
    refine .inl ⟨text.takeWhile Text.isDigit, places.takeWhile Text.isDigit,
      places.dropWhile Text.isDigit, ?_, hall text, ?_, hall places, stops_dropWhile _ _⟩
    · rw [List.takeWhile_append_dropWhile, ← hdrop]
      exact hsplit
    · intro hnil
      refine hplaces ?_
      cases places with
      | nil => exact stops_nil _
      | cons d places => exact stops_cons.mpr (by simpa using List.takeWhile_eq_nil_iff.mp hnil)
  · refine .inr ⟨text.takeWhile Text.isDigit, text.dropWhile Text.isDigit, hsplit, hall text,
      stops_dropWhile _ _, fun places hdrop => ?_⟩
    by_cases hplaces : Stops Text.isDigit places
    · exact hplaces
    · exact absurd ⟨places, hdrop, hplaces⟩ hpoint

/-- How a number with a point is shown: a missing whole part is written as zero. -/
theorem shown_eq {whole places rest : List Char} (hwhole : ∀ d ∈ whole, Text.isDigit d = true) :
    (if (whole ++ '.' :: (places ++ rest)).head? = some '.' then '0' :: (whole ++ '.' :: places)
      else whole ++ '.' :: places) = leading whole ++ '.' :: places := by
  cases whole with
  | nil => rfl
  | cons d whole =>
    have hd : d ≠ '.' := by
      rintro rfl
      exact absurd (hwhole '.' List.mem_cons_self) (by decide)
    simp [hd, leading]

/-- A numeral with a point is a decimal if that is valid. -/
theorem readNumber_of_point {whole places rest : List Char}
    (hwhole : ∀ d ∈ whole, Text.isDigit d = true) (hne : places ≠ [])
    (hplaces : ∀ d ∈ places, Text.isDigit d = true) (hrest : Stops Text.isDigit rest) :
    readNumber (whole ++ '.' :: (places ++ rest)) =
      (if (Decimal.read? (leading whole ++ '.' :: places)).isSome then
          .ok (.decimalNumber, leading whole ++ '.' :: places)
        else .error (.invalidNumber (String.ofList (leading whole ++ '.' :: places))),
        (whole ++ '.' :: places).length) := by
  unfold readNumber
  rw [numeral_of_point hwhole hne hplaces hrest]
  simp only [shown_eq hwhole, if_true]

/-- A numeral without one is an integer if that is valid. -/
theorem readNumber_of_whole {digits rest : List Char} (hne : digits ≠ [])
    (hdigits : ∀ d ∈ digits, Text.isDigit d = true) (hrest : Stops Text.isDigit rest)
    (hpoint : ∀ places, rest = '.' :: places → Stops Text.isDigit places) :
    readNumber (digits ++ rest) =
      (if (Integer.read? digits).isSome then .ok (.number, digits)
        else .error (.invalidNumber (String.ofList digits)), digits.length) := by
  have hhead : (digits ++ rest).head? ≠ some '.' := by
    cases digits with
    | nil => exact absurd rfl hne
    | cons d digits =>
      rw [List.cons_append, List.head?_cons]
      rintro ⟨⟩
      exact absurd (hdigits '.' List.mem_cons_self) (by decide)
  unfold readNumber
  rw [numeral_of_whole hdigits hrest hpoint]
  simp only [if_neg hhead]
  rfl

/-! ## Signs -/

/-- The reader of signs prefers the sign of two characters. -/
theorem sign?_eq_some_iff {text sign : List Char} :
    sign? text = some sign ↔ IsSign sign ∧ ∃ rest, text = sign ++ rest ∧ Ends .operator sign rest := by
  constructor
  · intro h
    fun_cases sign? text with
    | case1 => simp [sign?] at h
    | case2 a ha =>
      simp only [sign?, if_pos ha, Option.some.injEq] at h
      subst h
      exact ⟨.one ha, [], rfl, fun b hb => nomatch hb⟩
    | case3 a ha => simp [sign?, ha] at h
    | case4 a b rest hab =>
      simp only [sign?, if_pos hab, Option.some.injEq] at h
      subst h
      exact ⟨.two hab, rest, rfl, trivial⟩
    | case5 a b rest hab ha =>
      simp only [sign?, if_neg hab, if_pos ha, Option.some.injEq] at h
      subst h
      refine ⟨.one ha, b :: rest, rfl, fun b' hb' => ?_⟩
      cases hb'
      exact hab
    | case6 a b rest hab ha => simp [sign?, hab, ha] at h
  · rintro ⟨hsign, rest, rfl, hends⟩
    cases hsign with
    | @one a ha =>
      cases rest with
      | nil => simp [sign?, ha]
      | cons b rest => simp [sign?, ha, hends b rfl]
    | two hab => simp [sign?, hab]

/-! ## Words -/

/-- A letter may stand in a name. -/
theorem continuesName_of_isAlphabetic {c : Char} (h : Text.isAlphabetic c = true) :
    continuesName c = true := by
  simp [continuesName, h]

/-- So may whatever starts one. -/
theorem continuesName_of_startsName {c : Char} (h : startsName c = true) :
    continuesName c = true := by
  rw [startsName, Bool.or_eq_true] at h
  rcases h with h | h <;> simp [continuesName, h]

/-- The two truth values are spelled with letters, in any letter case. -/
theorem isAlphabetic_of_isWord {word : String} {lexeme : List Char}
    (hmem : word ∈ ["true", "false"]) (h : isWord word lexeme = true) :
    ∀ c ∈ lexeme, Text.isAlphabetic c = true := by
  intro c hc
  have hsmall : ∀ word ∈ ["true", "false"],
      (word.toList.all fun d => 'a' ≤ d ∧ d ≤ 'z') = true := by
    decide
  rw [isWord, beq_iff_eq] at h
  have hletter := List.all_eq_true.mp (hsmall word hmem) _ (h ▸ List.mem_map_of_mem hc)
  exact Text.isAlphabetic_of_toLower (of_decide_eq_true hletter)

/-- A name is taken as far as it goes. -/
theorem readWord_of_stops {name rest : List Char} (hname : ∀ c ∈ name, continuesName c = true)
    (hrest : Stops continuesName rest) :
    readWord (name ++ rest) = (.ok (ofWord name), name.length) := by
  unfold readWord
  rw [takeWhile_append_of_stops hname hrest]

/-- A word that spells a truth value is one. -/
theorem ofWord_of_isWord {word : String} {lexeme : List Char} (hmem : word ∈ ["true", "false"])
    (h : isWord word lexeme = true) : ofWord lexeme = (.boolean, word.toList) := by
  simp only [List.mem_cons, List.not_mem_nil, or_false] at hmem
  rcases hmem with rfl | rfl
  · rw [ofWord, if_pos h]
  · have htrue : isWord "true" lexeme = false := by
      rw [isWord, beq_iff_eq] at h
      rw [isWord, h]
      decide
    rw [ofWord, htrue, if_pos h]
    rfl

/-- Any other word is an identifier. -/
theorem ofWord_of_not_isWord {name : List Char}
    (h : ∀ word ∈ ["true", "false"], isWord word name = false) :
    ofWord name = (.identifier, name) := by
  rw [ofWord, h "true" (by decide), h "false" (by decide)]
  rfl

/-- A run of name characters is the spelling of a truth value or of a name. -/
theorem spells_ofWord {c : Char} {rest : List Char} (hstart : startsName c = true)
    (hrest : ∀ d ∈ rest, continuesName d = true) :
    Spells (ofWord (c :: rest)).1 (ofWord (c :: rest)).2 (c :: rest) := by
  by_cases hword : ∃ word ∈ ["true", "false"], isWord word (c :: rest) = true
  · obtain ⟨word, hmem, hword⟩ := hword
    rw [ofWord_of_isWord hmem hword]
    exact .boolean hmem hword
  · have hnot : ∀ word ∈ ["true", "false"], isWord word (c :: rest) = false := by
      intro word hmem
      by_contra hw
      exact hword ⟨word, hmem, by simpa using hw⟩
    rw [ofWord_of_not_isWord hnot]
    exact .identifier hstart hrest hnot

/-- A word ends where a name cannot go on. -/
theorem ends_ofWord {name rest : List Char} (hrest : Stops continuesName rest) :
    Ends (ofWord name).1 name rest := by
  unfold ofWord
  split
  · exact hrest
  · split <;> exact hrest

/-! ## Reading a lexeme -/

/-- The characters that open a lexeme whatever follows them. -/
def openers : List Char := ['(', ')', ',', '\'', '#', '[']

/-- What is not opened by a delimiter is a number, a word or a sign. -/
theorem read_of_not_mem_openers {c : Char} (h : c ∉ openers) (rest : List Char) :
    read c rest =
      if startsNumber c rest then readNumber (c :: rest)
      else if startsName c then readWord (c :: rest)
      else readSign c (c :: rest) := by
  simp only [openers, List.mem_cons, List.not_mem_nil, or_false, not_or] at h
  obtain ⟨h1, h2, h3, h4, h5, h6⟩ := h
  unfold read
  rw [if_neg h1, if_neg h2, if_neg h3, if_neg h4, if_neg h5, if_neg h6]

/-- No digit opens a delimited lexeme. -/
theorem isDigit_eq_false_of_mem_openers : ∀ c ∈ openers, Text.isDigit c = false := by
  have h : (openers.all fun c => !Text.isDigit c) = true := by decide
  simpa only [List.all_eq_true, Bool.not_eq_true'] using h

/-- Nor does the start of a name. -/
theorem startsName_eq_false_of_mem_openers : ∀ c ∈ openers, startsName c = false := by
  have h : (openers.all fun c => !startsName c) = true := by decide +kernel
  simpa only [List.all_eq_true, Bool.not_eq_true'] using h

/-- No name starts with a blank. -/
theorem isBlank_eq_false_of_startsName {c : Char} (h : startsName c = true) :
    Text.isBlank c = false := by
  rw [startsName, Bool.or_eq_true, beq_iff_eq] at h
  rcases h with h | rfl
  · exact Text.isBlank_eq_false_of_isAlphabetic h
  · decide

/-- Nor with a digit. -/
theorem isDigit_eq_false_of_startsName {c : Char} (h : startsName c = true) :
    Text.isDigit c = false := by
  rw [startsName, Bool.or_eq_true, beq_iff_eq] at h
  rcases h with h | rfl
  · by_contra hd
    rw [Text.isAlphabetic_eq_false_of_isDigit (by simpa using hd)] at h
    exact nomatch h
  · decide

/-- A sign starts with a character that starts nothing else. -/
theorem IsSign.head_spec {sign : List Char} (h : IsSign sign) :
    ∃ c tail, sign = c :: tail ∧ c ∉ openers ∧ Text.isDigit c = false ∧ c ≠ '.' ∧
      startsName c = false ∧ Text.isBlank c = false := by
  -- each sign of two characters starts with a sign of its own
  have hone : (oneCharSigns.all fun c => c ∉ openers ∧ Text.isDigit c = false ∧ c ≠ '.' ∧
      startsName c = false ∧ Text.isBlank c = false) = true := by decide +kernel
  have htwo : (twoCharSigns.all fun pair => pair.1 ∈ oneCharSigns) = true := by decide
  have hhead : ∀ c ∈ oneCharSigns, c ∉ openers ∧ Text.isDigit c = false ∧ c ≠ '.' ∧
      startsName c = false ∧ Text.isBlank c = false :=
    fun c hc => of_decide_eq_true (List.all_eq_true.mp hone c hc)
  cases h with
  | one ha => exact ⟨_, _, rfl, hhead _ ha⟩
  | two hab => exact ⟨_, _, rfl, hhead _ (of_decide_eq_true (List.all_eq_true.mp htwo _ hab))⟩

/-- A digit starts a number. -/
theorem read_of_isDigit {c : Char} (h : Text.isDigit c = true) (rest : List Char) :
    read c rest = readNumber (c :: rest) := by
  have hopener : c ∉ openers := fun hc => by simp [isDigit_eq_false_of_mem_openers c hc] at h
  rw [read_of_not_mem_openers hopener, if_pos (by simp [startsNumber, h])]

/-- So does a point in front of a digit. -/
theorem read_of_point {rest : List Char} (h : rest.head?.any Text.isDigit = true) :
    read '.' rest = readNumber ('.' :: rest) := by
  rw [read_of_not_mem_openers (by decide), if_pos (by simp [startsNumber, h])]

/-- What starts a name starts a word. -/
theorem read_of_startsName {c : Char} (h : startsName c = true) (rest : List Char) :
    read c rest = readWord (c :: rest) := by
  have hopener : c ∉ openers := fun hc => by simp [startsName_eq_false_of_mem_openers c hc] at h
  have hpoint : c ≠ '.' := by
    rintro rfl
    exact absurd h (by decide +kernel)
  rw [read_of_not_mem_openers hopener,
    if_neg (by simp [startsNumber, isDigit_eq_false_of_startsName h, hpoint]), if_pos h]

/-- Everything else is a sign, or nothing. -/
theorem read_of_sign {c : Char} (hopener : c ∉ openers) (hdigit : Text.isDigit c = false)
    (hpoint : c ≠ '.') (hname : startsName c = false) (rest : List Char) :
    read c rest = readSign c (c :: rest) := by
  rw [read_of_not_mem_openers hopener, if_neg (by simp [startsNumber, hdigit, hpoint]),
    if_neg (by simp [hname])]

/-- A lexeme that ends in front of `rest` is what is read there. -/
theorem read_of_spells {kind : TokenKind} {text lexeme rest : List Char}
    (h : Spells kind text lexeme) (hends : Ends kind lexeme rest) :
    ∃ c tail, lexeme ++ rest = c :: tail ∧ Text.isBlank c = false ∧
      read c tail = (.ok (kind, text), lexeme.length) := by
  cases h with
  | leftParen => exact ⟨'(', rest, rfl, by decide, rfl⟩
  | rightParen => exact ⟨')', rest, rfl, by decide, rfl⟩
  | comma => exact ⟨',', rest, rfl, by decide, rfl⟩
  | @string _ body h =>
    refine ⟨'\'', body ++ '\'' :: rest, by simp, by decide, ?_⟩
    show readString _ = _
    rw [readString, quoted?_eq_some_iff.mpr ⟨body, rest, rfl, h, rfl⟩]
    simp
  | date hclose hvalid =>
    refine ⟨'#', text ++ '#' :: rest, by simp, by decide, ?_⟩
    show readDate _ = _
    rw [readDate, delimited?_eq_some_iff.mpr ⟨hclose, rest, rfl⟩]
    simp [hvalid]
  | reference hclose =>
    refine ⟨'[', text ++ ']' :: rest, by simp, by decide, ?_⟩
    show readReference _ = _
    rw [readReference, delimited?_eq_some_iff.mpr ⟨hclose, rest, rfl⟩]
    simp
  | number hne hdigits hvalid =>
    have hread := readNumber_of_whole hne hdigits hends.1 hends.2
    cases text with
    | nil => exact absurd rfl hne
    | cons d digits =>
      have hd : Text.isDigit d = true := hdigits d List.mem_cons_self
      refine ⟨d, digits ++ rest, rfl, Text.isBlank_eq_false_of_isDigit hd, ?_⟩
      rw [read_of_isDigit hd, ← List.cons_append, hread, if_pos hvalid]
  | @decimalNumber whole places hwhole hne hplaces hvalid =>
    have hread := readNumber_of_point hwhole hne hplaces hends
    rw [if_pos hvalid] at hread
    cases whole with
    | nil =>
      refine ⟨'.', places ++ rest, rfl, by decide, ?_⟩
      rw [read_of_point, ← hread]
      · rfl
      · cases places with
        | nil => exact absurd rfl hne
        | cons d places => simp [hplaces d List.mem_cons_self]
    | cons d whole =>
      have hd : Text.isDigit d = true := hwhole d List.mem_cons_self
      refine ⟨d, whole ++ '.' :: places ++ rest, rfl, Text.isBlank_eq_false_of_isDigit hd, ?_⟩
      rw [read_of_isDigit hd, ← hread]
      simp
  | @boolean word _ hmem hword =>
    have hletters := isAlphabetic_of_isWord hmem hword
    have hread := readWord_of_stops (fun c hc => continuesName_of_isAlphabetic (hletters c hc)) hends
    cases lexeme with
    | nil => exact absurd rfl (Spells.boolean hmem hword).ne_nil
    | cons c lexeme =>
      have hc : startsName c = true := by simp [startsName, hletters c List.mem_cons_self]
      refine ⟨c, lexeme ++ rest, rfl, isBlank_eq_false_of_startsName hc, ?_⟩
      rw [read_of_startsName hc, ← List.cons_append, hread, ofWord_of_isWord hmem hword]
  | @identifier c name hstart hname hword =>
    have hall : ∀ d ∈ c :: name, continuesName d = true :=
      List.forall_mem_cons.mpr ⟨continuesName_of_startsName hstart, hname⟩
    refine ⟨c, name ++ rest, rfl, isBlank_eq_false_of_startsName hstart, ?_⟩
    rw [read_of_startsName hstart, ← List.cons_append, readWord_of_stops hall hends,
      ofWord_of_not_isWord hword]
  | operator h =>
    have hsign := sign?_eq_some_iff.mpr ⟨h, rest, rfl, hends⟩
    obtain ⟨c, tail, rfl, hc⟩ := h.head_spec
    refine ⟨c, tail ++ rest, rfl, hc.2.2.2.2, ?_⟩
    rw [read_of_sign hc.1 hc.2.1 hc.2.2.1 hc.2.2.2.1, readSign, ← List.cons_append, hsign]

/-- What is read as a kind and text in front of `source`: a lexeme that is taken off and ends
there. -/
def Takes (source : List Char) (kind : TokenKind) (text : List Char) (count : Nat) : Prop :=
  ∃ lexeme tail, source = lexeme ++ tail ∧ count = lexeme.length ∧ Spells kind text lexeme ∧
    Ends kind lexeme tail

/-- What the reader of strings takes off is the lexeme of a string. -/
theorem takes_of_readString {rest text : List Char} {kind : TokenKind} {count : Nat}
    (h : readString rest = (.ok (kind, text), count)) : Takes ('\'' :: rest) kind text count := by
  unfold readString at h
  split at h
  · rename_i hquoted
    cases h
    obtain ⟨body, tail, rfl, hbody, rfl⟩ := quoted?_eq_some_iff.mp hquoted
    exact ⟨_, tail, by simp, by simp, .string hbody, trivial⟩
  · exact nomatch h

/-- What the reader of dates takes off is the lexeme of a date. -/
theorem takes_of_readDate {rest text : List Char} {kind : TokenKind} {count : Nat}
    (h : readDate rest = (.ok (kind, text), count)) : Takes ('#' :: rest) kind text count := by
  unfold readDate at h
  split at h
  · rename_i hdelimited
    obtain ⟨hclose, tail, rfl⟩ := delimited?_eq_some_iff.mp hdelimited
    split at h
    · rename_i hvalid
      cases h
      exact ⟨_, tail, by simp, by simp, .date hclose hvalid, trivial⟩
    · exact nomatch h
  · exact nomatch h

/-- What the reader of references takes off is the lexeme of one. -/
theorem takes_of_readReference {rest text : List Char} {kind : TokenKind} {count : Nat}
    (h : readReference rest = (.ok (kind, text), count)) : Takes ('[' :: rest) kind text count := by
  unfold readReference at h
  split at h
  · rename_i hdelimited
    cases h
    obtain ⟨hclose, tail, rfl⟩ := delimited?_eq_some_iff.mp hdelimited
    exact ⟨_, tail, by simp, by simp, .reference hclose, trivial⟩
  · exact nomatch h

/-- Where a number starts there are digits: without any there would have to be one behind a point,
and then they would go on there. -/
theorem ne_nil_of_startsNumber {c : Char} {rest digits tail : List Char}
    (hstart : startsNumber c rest = true) (hsource : c :: rest = digits ++ tail)
    (htail : Stops Text.isDigit tail)
    (hpoint : ∀ places, tail = '.' :: places → Stops Text.isDigit places) : digits ≠ [] := by
  rintro rfl
  rw [List.nil_append] at hsource
  subst hsource
  rw [startsNumber, stops_cons.mp htail, Bool.false_or, Bool.and_eq_true, beq_iff_eq] at hstart
  obtain ⟨rfl, hany⟩ := hstart
  cases rest with
  | nil => exact nomatch hany
  | cons d rest =>
    rw [List.head?_cons, Option.any_some, stops_cons.mp (hpoint _ rfl)] at hany
    exact nomatch hany

/-- What the reader of numbers takes off is the lexeme of a number. -/
theorem takes_of_readNumber {c : Char} {rest text : List Char} {kind : TokenKind} {count : Nat}
    (hstart : startsNumber c rest = true) (h : readNumber (c :: rest) = (.ok (kind, text), count)) :
    Takes (c :: rest) kind text count := by
  rcases digits_split (c :: rest) with ⟨whole, places, tail, hsource, hwhole, hne, hplaces, htail⟩ |
    ⟨digits, tail, hsource, hdigits, htail, hpoint⟩
  · rw [hsource, readNumber_of_point hwhole hne hplaces htail] at h
    split at h
    · rename_i hvalid
      cases h
      exact ⟨_, tail, by simpa using hsource, rfl, .decimalNumber hwhole hne hplaces hvalid, htail⟩
    · exact nomatch h
  · have hne := ne_nil_of_startsNumber hstart hsource htail hpoint
    rw [hsource, readNumber_of_whole hne hdigits htail hpoint] at h
    split at h
    · rename_i hvalid
      cases h
      exact ⟨_, tail, hsource, rfl, .number hne hdigits hvalid, htail, hpoint⟩
    · exact nomatch h

/-- What the reader of words takes off is the lexeme of a word. -/
theorem takes_of_readWord {c : Char} {rest text : List Char} {kind : TokenKind} {count : Nat}
    (hstart : startsName c = true) (h : readWord (c :: rest) = (.ok (kind, text), count)) :
    Takes (c :: rest) kind text count := by
  have hall : ∀ d ∈ rest.takeWhile continuesName, continuesName d = true :=
    fun d hd => List.mem_takeWhile_imp hd
  have hsource : c :: rest = c :: rest.takeWhile continuesName ++ rest.dropWhile continuesName := by
    rw [List.cons_append, List.takeWhile_append_dropWhile]
  have hstop := stops_dropWhile continuesName rest
  rw [hsource, readWord_of_stops (List.forall_mem_cons.mpr
    ⟨continuesName_of_startsName hstart, hall⟩) hstop] at h
  have hspells := spells_ofWord hstart hall
  have hends : Ends (ofWord (c :: rest.takeWhile continuesName)).1 _ _ := ends_ofWord hstop
  cases hof : ofWord (c :: rest.takeWhile continuesName) with
  | mk kind' text' =>
    rw [hof] at h hspells hends
    cases h
    exact ⟨_, _, hsource, rfl, hspells, hends⟩

/-- What the reader of signs takes off is the lexeme of a sign. -/
theorem takes_of_readSign {c d : Char} {rest text : List Char} {kind : TokenKind} {count : Nat}
    (h : readSign d (c :: rest) = (.ok (kind, text), count)) : Takes (c :: rest) kind text count := by
  unfold readSign at h
  split at h
  · rename_i hsign
    cases h
    obtain ⟨hsign, tail, hsource, hends⟩ := sign?_eq_some_iff.mp hsign
    exact ⟨_, tail, hsource, rfl, .operator hsign, hends⟩
  · exact nomatch h

/-- Whatever is read is a lexeme that ends where reading stopped. -/
theorem takes_of_read {c : Char} {rest text : List Char} {kind : TokenKind} {count : Nat}
    (h : read c rest = (.ok (kind, text), count)) : Takes (c :: rest) kind text count := by
  unfold read at h
  split_ifs at h with h1 h2 h3 h4 h5 h6 h7 h8
  · cases h; subst h1; exact ⟨['('], rest, rfl, rfl, .leftParen, trivial⟩
  · cases h; subst h2; exact ⟨[')'], rest, rfl, rfl, .rightParen, trivial⟩
  · cases h; subst h3; exact ⟨[','], rest, rfl, rfl, .comma, trivial⟩
  · subst h4; exact takes_of_readString h
  · subst h5; exact takes_of_readDate h
  · subst h6; exact takes_of_readReference h
  · exact takes_of_readNumber h7 h
  · exact takes_of_readWord h8 h
  · exact takes_of_readSign h

end Formula.Lexeme
