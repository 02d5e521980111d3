import Formula.Text.LetterCase

/-!
# Small letters

The lower case of a text has no lower case of its own: what the mapping makes of a character is never
mapped again (`IsLower`), so mapping a text twice is the same as mapping it once
(`lowercase_lowercase`).

For the capitals of the table this is read off run by run, as the classes of characters are compared
range by range: the small letters of a run lie outside of another run, or fall between its capitals
(`CaseRun.smallApart`).
-/

namespace Formula.Text

/-! ## Runs of small letters -/

/-- The small letter of the first capital of a run. -/
def CaseRun.smallFirst (run : CaseRun) : Nat := (run.first + run.shift).toNat

/-- The small letter of the last capital of a run. -/
def CaseRun.smallLast (run : CaseRun) : Nat := (run.last + run.shift).toNat

/-- Whether no small letter of the one run is a capital of the other. -/
def CaseRun.smallApart (run other : CaseRun) : Bool :=
  Nat.blt run.smallLast other.first || Nat.blt other.last run.smallFirst ||
    (run.step % 2 == 0 || run.first == run.last) && other.step == 2 &&
      (run.smallFirst + other.first) % 2 == 1

/-- If two runs are apart, no small letter of the one is a capital of the other. -/
theorem CaseRun.not_contains_of_smallApart {run other : CaseRun} {code small : Nat}
    (hvalid : 0 ≤ run.first + run.shift) (h : run.smallApart other = true)
    (hcode : run.contains code = true) (hsmall : (small : Int) = code + run.shift) :
    other.contains small = false := by
  rw [Bool.eq_false_iff]
  intro hother
  simp only [contains, Bool.and_eq_true, decide_eq_true_eq, beq_iff_eq] at hcode hother
  simp only [smallApart, smallFirst, smallLast, Bool.or_eq_true, Bool.and_eq_true, Nat.blt_eq,
    beq_iff_eq] at h
  rcases h with (h | h) | ⟨⟨hrun, hstep⟩, hodd⟩
  · omega
  · omega
  · rw [hstep] at hother
    rcases hrun with heven | hone
    · -- all capitals of the run are at an even distance from the first
      have hdvd : (code - run.first) % 2 = 0 := by
        have h := Nat.mod_mod_of_dvd (code - run.first) (Nat.dvd_of_mod_eq_zero heven)
        rw [hcode.2] at h
        exact h.symm
      omega
    · omega

/-- The run of the capital with the dot above, which is not in the table. -/
def dottedRun : CaseRun := ⟨0x130, 0x130, 1, 0⟩

/-- No small letter of the table is a capital of it. -/
theorem lowercaseRuns_smallApart :
    (lowercaseRuns.all fun run => (dottedRun :: lowercaseRuns).all run.smallApart) = true := by
  decide +kernel

/-- Small letters are code points of characters. -/
theorem lowercaseRuns_valid :
    (lowercaseRuns.all fun run => decide (0 ≤ run.first + run.shift) &&
      (decide (run.last + run.shift < 0xD800) ||
        decide (0xDFFF < run.first + run.shift) && decide (run.last + run.shift < 0x110000))) =
      true := by
  decide +kernel

/-! ## Texts in lower case -/

/-- Whether a character is its own lower case, wherever it stands. -/
def IsLower (c : Char) : Prop := c ≠ 'Σ' ∧ c ≠ 'İ' ∧ lowercaseChar c = c

instance (c : Char) : Decidable (IsLower c) := by unfold IsLower; infer_instance

/-- A character that is no capital of the table is its own lower case. -/
theorem isLower_of_not_contains {c : Char}
    (h : ∀ run ∈ dottedRun :: lowercaseRuns, run.contains c.toNat = false) : IsLower c := by
  obtain ⟨hdotted, hruns⟩ := List.forall_mem_cons.mp h
  refine ⟨?_, ?_, ?_⟩
  · rintro rfl
    have hsigma : (lowercaseRuns.any (·.contains 'Σ'.toNat)) = true := by decide +kernel
    obtain ⟨run, hrun, hcontains⟩ := List.any_eq_true.mp hsigma
    rw [hruns run hrun] at hcontains
    exact nomatch hcontains
  · rintro rfl
    exact absurd hdotted (by decide)
  · have hfind : lowercaseRuns.find? (·.contains c.toNat) = none :=
      List.find?_eq_none.mpr fun run hrun => by rw [hruns run hrun]; exact Bool.false_ne_true
    rw [lowercaseChar, hfind]

/-- The small letter of a capital lies at the distance that its run says. -/
theorem toNat_lowercaseChar {c : Char} {run : CaseRun} (hrun : run ∈ lowercaseRuns)
    (hfind : lowercaseRuns.find? (·.contains c.toNat) = some run)
    (hcontains : run.contains c.toNat = true) :
    0 ≤ run.first + run.shift ∧ ((lowercaseChar c).toNat : Int) = c.toNat + run.shift := by
  simp only [CaseRun.contains, Bool.and_eq_true, decide_eq_true_eq] at hcontains
  have hvalid := List.all_eq_true.mp lowercaseRuns_valid run hrun
  simp only [Bool.and_eq_true, Bool.or_eq_true, decide_eq_true_eq] at hvalid
  have hchar : (c.toNat + run.shift).toNat.isValidChar := by
    unfold Nat.isValidChar
    omega
  have hsame : (Char.ofNat (c.toNat + run.shift).toNat).toNat = (c.toNat + run.shift).toNat := by
    rw [Char.ofNat, dif_pos hchar]
    rfl
  refine ⟨hvalid.1, ?_⟩
  rw [lowercaseChar, hfind]
  simp only [hsame]
  omega

/-- The lower case of a character is its own. -/
theorem isLower_lowercaseChar {c : Char} (hsigma : c ≠ 'Σ') (hdotted : c ≠ 'İ') :
    IsLower (lowercaseChar c) := by
  cases hfind : lowercaseRuns.find? (·.contains c.toNat) with
  | none =>
    have hsame : lowercaseChar c = c := by rw [lowercaseChar, hfind]
    rw [hsame]
    exact ⟨hsigma, hdotted, hsame⟩
  | some run =>
    have hrun := List.mem_of_find?_eq_some hfind
    have hcontains := List.find?_some hfind
    obtain ⟨hfirst, hsmall⟩ := toNat_lowercaseChar hrun hfind hcontains
    refine isLower_of_not_contains fun other hother => ?_
    have hapart := List.all_eq_true.mp lowercaseRuns_smallApart run hrun
    exact CaseRun.not_contains_of_smallApart hfirst (List.all_eq_true.mp hapart other hother)
      hcontains hsmall

/-- So are the characters that a character becomes where it stands. -/
theorem isLower_of_mem_lowercaseAt {before after : List Char} {c d : Char}
    (h : d ∈ lowercaseAt before c after) : IsLower d := by
  by_cases hsigma : c = 'Σ'
  · rw [lowercaseAt, if_pos hsigma] at h
    split at h
    · rw [List.mem_singleton.mp h]
      decide +kernel
    · rw [List.mem_singleton.mp h]
      decide +kernel
  rw [lowercaseAt, if_neg hsigma] at h
  by_cases hdotted : c = 'İ'
  · rw [if_pos hdotted] at h
    rcases List.mem_cons.mp h with rfl | h
    · decide +kernel
    · rw [List.mem_singleton.mp h]
      decide +kernel
  · rw [if_neg hdotted] at h
    rw [List.mem_singleton.mp h]
    exact isLower_lowercaseChar hsigma hdotted

/-- A text in lower case consists of characters that are their own lower case. -/
theorem isLower_of_mem_lowercaseAfter {before text : List Char} {d : Char}
    (h : d ∈ lowercaseAfter before text) : IsLower d := by
  induction text generalizing before with
  | nil => exact nomatch h
  | cons c after ih =>
    rcases List.mem_append.mp h with h | h
    · exact isLower_of_mem_lowercaseAt h
    · exact ih h

/-- Such a text is not changed. -/
theorem lowercaseAfter_of_isLower {text : List Char} (h : ∀ c ∈ text, IsLower c)
    (before : List Char) : lowercaseAfter before text = text := by
  induction text generalizing before with
  | nil => rfl
  | cons c after ih =>
    obtain ⟨⟨hsigma, hdotted, hc⟩, hafter⟩ := List.forall_mem_cons.mp h
    rw [lowercaseAfter, lowercaseAt, if_neg hsigma, if_neg hdotted, hc, ih hafter]
    rfl

/-- Lower case has no further lower case. -/
theorem lowercase_lowercase (text : String) : lowercase (lowercase text) = lowercase text := by
  have hlower : ∀ c ∈ lowercaseAfter [] text.toList, IsLower c :=
    fun c hc => isLower_of_mem_lowercaseAfter hc
  rw [lowercase, lowercase, String.toList_ofList, lowercaseAfter_of_isLower hlower]

end Formula.Text
