import Formula.Function
import Formula.Operator
import Mathlib.Data.List.Nodup

/-!
# Letter case of names and operators

On ASCII text lower case goes letter by letter. The names of the functions and the spellings of the
operators are ASCII, so that looking them up comes down to comparing short lists of letters.
-/

namespace Formula

namespace Text

/-- Behind the first run, capitals lie outside ASCII. -/
theorem find?_lowercaseRuns_tail {code : Nat} (h : code < 128) :
    lowercaseRuns.tail.find? (·.contains code) = none := by
  have hbeyond : lowercaseRuns.tail.all (fun run => decide (128 ≤ run.first)) = true := by decide
  rw [List.find?_eq_none]
  intro run hrun hcontains
  have hfirst := of_decide_eq_true (List.all_eq_true.mp hbeyond run hrun)
  unfold CaseRun.contains at hcontains
  simp only [Bool.and_eq_true, decide_eq_true_eq] at hcontains
  omega

/-- The lower case of an ASCII character is that of the standard library. -/
theorem lowercaseChar_of_ascii {c : Char} (h : c.toNat < 128) : lowercaseChar c = c.toLower := by
  have hruns : lowercaseRuns.find? (·.contains c.toNat) =
      if (CaseRun.mk 0x41 0x5A 1 32).contains c.toNat then some ⟨0x41, 0x5A, 1, 32⟩ else none := by
    have hcons : lowercaseRuns = ⟨0x41, 0x5A, 1, 32⟩ :: lowercaseRuns.tail := rfl
    rw [hcons, List.find?_cons, find?_lowercaseRuns_tail h]
    split <;> simp_all
  have hletters : ∀ code : Fin 128,
      (if (CaseRun.mk 0x41 0x5A 1 32).contains (Char.ofNat code).toNat then
          Char.ofNat ((Char.ofNat code).toNat + 32 : Int).toNat
        else Char.ofNat code) = (Char.ofNat code).toLower := by
    decide +kernel
  have hletter := hletters ⟨c.toNat, h⟩
  rw [Char.ofNat_toNat] at hletter
  rw [lowercaseChar, hruns, ← hletter]
  by_cases hcapital : (CaseRun.mk 0x41 0x5A 1 32).contains c.toNat = true
  · simp only [if_pos hcapital]
  · simp only [if_neg hcapital]

/-- An ASCII text is put into lower case character by character. -/
theorem lowercaseAfter_of_ascii {text : List Char} (h : ∀ c ∈ text, c.toNat < 128)
    (before : List Char) : lowercaseAfter before text = text.map Char.toLower := by
  induction text generalizing before with
  | nil => rfl
  | cons c after ih =>
    have hc : c.toNat < 128 := h c List.mem_cons_self
    -- the two letters with a lower case of their own are not among the ASCII characters
    have hsigma : c ≠ 'Σ' := by
      rintro rfl
      exact absurd hc (by decide)
    have hdotted : c ≠ 'İ' := by
      rintro rfl
      exact absurd hc (by decide)
    have hrest := ih (fun d hd => h d (List.mem_cons_of_mem c hd)) (c :: before)
    rw [lowercaseAfter, lowercaseAt, if_neg hsigma, if_neg hdotted, hrest,
      lowercaseChar_of_ascii hc]
    rfl

/-- The lower case of ASCII text. -/
theorem lowercase_of_ascii {text : String} (h : ∀ c ∈ text.toList, c.toNat < 128) :
    lowercase text = String.ofList (text.toList.map Char.toLower) := by
  rw [lowercase, lowercaseAfter_of_ascii h]

end Text

namespace Function

/-- The names of functions are ASCII texts. -/
theorem name_ascii (f : Function) : ∀ c ∈ f.name.toList, c.toNat < 128 := by
  cases f <;> simp [name]

/-- The names of functions differ in more than letter case. -/
theorem lowercase_name_injective {f g : Function}
    (h : Text.lowercase f.name = Text.lowercase g.name) : f = g := by
  have hnames : (all.map fun f => f.name.toList.map Char.toLower).Nodup := by
    simp only [all, List.map, name, String.reduceToList]
    decide +kernel
  rw [Text.lowercase_of_ascii f.name_ascii, Text.lowercase_of_ascii g.name_ascii] at h
  exact List.inj_on_of_nodup_map hnames (mem_all f) (mem_all g) (String.ofList_injective h)

/-- A function is found under its name in any letter case. -/
theorem lowercase_of_find? {text : String} {f : Function} (h : find? text = some f) :
    Text.lowercase f.name = Text.lowercase text := by
  have := List.find?_some h
  exact beq_iff_eq.mp this

/-- A function is found by its name. -/
theorem find?_name (f : Function) : find? f.name = some f := by
  cases hfind : find? f.name with
  | none => exact absurd (BEq.rfl) (List.find?_eq_none.mp hfind f (mem_all f))
  | some g => rw [lowercase_name_injective (lowercase_of_find? hfind)]

end Function

namespace Operator

/-- An operator is found under its spellings in any letter case. -/
theorem mem_spellings_of_find? {text : String} {fixity : Fixity} {op : Operator}
    (h : find? text fixity = some op) : Text.lowercase text ∈ op.spellings := by
  have := List.find?_some h
  rw [Bool.and_eq_true] at this
  exact List.mem_of_elem_eq_true this.2

/-- No operator has the name of a function. -/
theorem function?_eq_none_of_mem_spellings {text : String} {op : Operator}
    (h : Text.lowercase text ∈ op.spellings) : Function.find? text = none := by
  have hnames : ∀ f ∈ Function.all, ∀ op ∈ all, ∀ spelling ∈ op.spellings,
      f.name.toList.map Char.toLower ≠ spelling.toList := by
    decide +kernel
  cases hfind : Function.find? text with
  | none => rfl
  | some f =>
    refine absurd ?_ (hnames f f.mem_all op op.mem_all _ h)
    rw [← Function.lowercase_of_find? hfind, Text.lowercase_of_ascii f.name_ascii,
      String.toList_ofList]

/-- A word in front of a parenthesis is an operator or the name of a function. -/
theorem function?_eq_none {text : String} {fixity : Fixity} {op : Operator}
    (h : find? text fixity = some op) : Function.find? text = none :=
  function?_eq_none_of_mem_spellings (mem_spellings_of_find? h)

/-- The spellings of an operator are in lower case. -/
theorem lowercase_spelling {op : Operator} {text : String} (h : text ∈ op.spellings) :
    Text.lowercase text = text := by
  have hlower : ((op.spellings.map String.toList).all fun letters =>
      (letters.all fun c => c.toNat < 128) && letters.map Char.toLower == letters) = true := by
    rcases op with op | op <;> cases op <;>
      simp only [spellings, symbol, UnaryOp.symbol, BinaryOp.symbol, alternatives, List.map,
        String.reduceToList] <;>
      decide
  have hletters := List.all_eq_true.mp hlower text.toList (List.mem_map_of_mem h)
  rw [Bool.and_eq_true, List.all_eq_true, beq_iff_eq] at hletters
  obtain ⟨hascii, hmap⟩ := hletters
  rw [Text.lowercase_of_ascii fun c hc => of_decide_eq_true (hascii c hc), hmap,
    String.ofList_toList]

/-- Operators that stand at the same place have no spelling in common. -/
theorem eq_of_mem_spellings {op op' : Operator} {text : String} (hfixity : op.fixity = op'.fixity)
    (h : text ∈ op.spellings) (h' : text ∈ op'.spellings) : op = op' := by
  have hdistinct : ∀ op ∈ all, ∀ op' ∈ all, op.fixity = op'.fixity →
      ∀ text ∈ op.spellings, text ∈ op'.spellings → op = op' := by
    decide +kernel
  exact hdistinct op (mem_all op) op' (mem_all op') hfixity text h h'

/-- An operator is found by each of its spellings. -/
theorem find?_of_mem_spellings {op : Operator} {text : String} (h : text ∈ op.spellings) :
    find? text op.fixity = some op := by
  cases hfind : find? text op.fixity with
  | none =>
    refine absurd ?_ (List.find?_eq_none.mp hfind op (mem_all op))
    simp only [BEq.rfl, lowercase_spelling h, Bool.true_and]
    exact List.elem_eq_true_of_mem h
  | some op' =>
    have hmem := mem_spellings_of_find? hfind
    rw [lowercase_spelling h] at hmem
    rw [eq_of_mem_spellings (fixity_of_find? hfind) hmem h]

end Operator

end Formula
