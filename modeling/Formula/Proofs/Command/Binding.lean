import Formula.Command.Evaluate
import Formula.Proofs.Json.Number
import Formula.Proofs.Number.Text

/-!
# Values carried by bindings

What stands behind the first equals sign of a binding is read in three ways: as an expression behind
a further equals sign, as a scalar of JSON, or as it stands. No two of them meet, because nothing
that starts with an equals sign is JSON (`Json.read?_of_equals`). So a value that is written as JSON
is read as JSON, whatever equals signs and quotes there are in it, and `readBinding_carries` says
that it comes back with its kind.
-/

namespace Formula

open NaturalPower

/-- Nothing is left after trimming exactly if there are only blanks. -/
theorem Text.trim_eq_nil_iff {text : List Char} :
    trim text = [] ↔ ∀ c ∈ text, isBlank c = true := by
  rw [trim, List.reverse_eq_nil_iff, dropBlanks_eq_nil_iff]
  constructor
  · intro h
    -- only blanks are left of the text without the blanks in front, so nothing is
    have hdrop : dropBlanks text = [] := by
      cases hrest : dropBlanks text with
      | nil => rfl
      | cons c rest =>
        have hstop : Stops isBlank (dropBlanks text) := stops_dropWhile isBlank text
        rw [hrest] at h hstop
        have hblank := h c (List.mem_reverse.mpr List.mem_cons_self)
        exact nomatch (stops_cons.mp hstop).symm.trans hblank
    exact dropBlanks_eq_nil_iff.mp hdrop
  · intro h c hc
    rw [dropBlanks_eq_nil_iff.mpr h] at hc
    exact nomatch hc

/-! ## The two sides of a binding -/

/-- A binding is split at its first equals sign, and its name is trimmed. -/
theorem splitBinding?_equals {name : List Char} (hname : '=' ∉ name)
    (hblank : ∃ c ∈ name, Text.isBlank c = false) (raw : List Char) :
    splitBinding? (name ++ '=' :: raw) = some (Text.trim name, raw) := by
  have hrun : ∀ c ∈ name, decide (c ≠ '=') = true := fun c hc =>
    decide_eq_true fun heq => hname (heq ▸ hc)
  have hstop : Stops (· ≠ '=') ('=' :: raw) := stops_cons.mpr (by decide)
  have htrim : Text.trim name ≠ [] := by
    obtain ⟨c, hc, hnot⟩ := hblank
    exact fun h => nomatch hnot.symm.trans (Text.trim_eq_nil_iff.mp h c hc)
  unfold splitBinding?
  rw [takeWhile_append_of_stops hrun hstop, dropWhile_append_of_stops hrun hstop]
  exact if_neg htrim

/-- A binding cannot be split if it has no equals sign, or nothing but blanks in front of the first
one. -/
theorem splitBinding?_eq_none_iff {binding : List Char} :
    splitBinding? binding = none ↔
      '=' ∉ binding ∨ ∀ c ∈ binding.takeWhile (· ≠ '='), Text.isBlank c = true := by
  unfold splitBinding?
  rw [← Text.trim_eq_nil_iff]
  cases hrest : binding.dropWhile (· ≠ '=') with
  | nil =>
    have hnone : '=' ∉ binding := fun h =>
      absurd rfl (of_decide_eq_true (List.dropWhile_eq_nil_iff.mp hrest '=' h))
    exact iff_of_true rfl (.inl hnone)
  | cons c rest =>
    have hequals : c = '=' := by
      have hstop := stops_dropWhile (fun c => decide (c ≠ '=')) binding
      rw [hrest] at hstop
      exact not_not.mp (of_decide_eq_false (stops_cons.mp hstop))
    have hmem : '=' ∈ binding := by
      rw [← List.takeWhile_append_dropWhile (p := (· ≠ '=')) (l := binding), hrest, hequals]
      exact List.mem_append_right _ List.mem_cons_self
    by_cases hblank : Text.trim (binding.takeWhile (· ≠ '=')) = []
    · exact iff_of_true (if_pos hblank) (.inr hblank)
    · refine iff_of_false (fun h => ?_) (not_or.mpr ⟨not_not.mpr hmem, hblank⟩)
      dsimp only at h
      rw [if_neg hblank] at h
      exact nomatch h

variable {raw : String} {serial : Nat}

/-- A bound text that does not start with an equals sign is a document if it can be read as one, and
else a string. -/
theorem readBound_eq (h : raw.toList.head? ≠ some '=') :
    readBound raw.toList serial = match Json.read? raw with
      | some document => (Value.ofJson document).mapError .unsupportedValue
      | none => .ok (.string raw) := by
  have hread := readBound.eq_2 raw.toList serial fun source heq => h (by rw [heq]; rfl)
  rw [String.ofList_toList] at hread
  exact hread

/-- A JSON text is read as JSON. -/
theorem readBound_of_read? {document : Json.Document} (h : Json.read? raw = some document) :
    readBound raw.toList serial = (Value.ofJson document).mapError .unsupportedValue := by
  rw [readBound_eq, h]
  intro hfirst
  obtain ⟨rest, hrest⟩ := List.head?_eq_some_iff.mp hfirst
  have hnone := Json.read?_of_equals rest
  rw [← hrest, String.ofList_toList, h] at hnone
  exact nomatch hnone

/-- A bound text that starts with an equals sign is a formula. -/
theorem readBound_expression (source : List Char) : readBound ('=' :: source) serial =
    match Expression.ofSource (String.ofList source) serial with
    | .ok e => .ok (.expression e)
    | .error e => .error (.expression e) := readBound.eq_1 serial source

/-- Whatever is wrong with a bound text, it is not said of the binding. -/
theorem readBound_ne_invalidVariable {raw : List Char} {binding : String} :
    readBound raw serial ≠ .error (.invalidVariable binding) := by
  unfold readBound
  split
  · split <;> nofun
  · split
    · rename_i document _
      cases Value.ofJson document with
      | error what => nofun
      | ok value => nofun
    · nofun

/-- A binding that can be split has the value of the text behind its sign. -/
theorem readBinding_of_split {binding : String} {name raw : List Char}
    (h : splitBinding? binding.toList = some (name, raw)) : readBinding binding serial =
      (readBound raw serial).map fun value => (String.ofList name, value) := by
  rw [readBinding, h]

/-- A binding with a name that is not blank has that name and the value of its text. -/
theorem readBinding_equals {name : String} (hname : '=' ∉ name.toList)
    (hblank : ∃ c ∈ name.toList, Text.isBlank c = false) (raw : String) (serial : Nat) :
    readBinding (name ++ "=" ++ raw) serial = (readBound raw.toList serial).map
      fun value => (String.ofList (Text.trim name.toList), value) := by
  have htext : (name ++ "=" ++ raw).toList = name.toList ++ '=' :: raw.toList := by
    rw [String.toList_append, String.toList_append, List.append_assoc]
    rfl
  exact readBinding_of_split (htext ▸ splitBinding?_equals hname hblank raw.toList)

/-- A value comes back from its JSON text if its scalar does, and is the value of this scalar. -/
theorem readBinding_toJson {name : String} (hname : '=' ∉ name.toList)
    (hblank : ∃ c ∈ name.toList, Text.isBlank c = false) {value : Value} {scalar : Json.Scalar}
    (hscalar : value.toJson = scalar) (hback : scalar.ReadsBack)
    (hvalue : Value.ofScalar scalar = .ok value) :
    readBinding (name ++ "=" ++ value.toJson.text) serial =
      .ok (String.ofList (Text.trim name.toList), value) := by
  rw [hscalar, readBinding_equals hname hblank, readBound_of_read? hback, Value.ofJson, hvalue]
  rfl

/-- A binding is invalid exactly if it cannot be split. -/
theorem readBinding_eq_invalidVariable_iff {binding : String} :
    readBinding binding serial = .error (.invalidVariable binding) ↔
      splitBinding? binding.toList = none := by
  cases h : splitBinding? binding.toList with
  | none =>
    rw [readBinding, h]
    exact iff_of_true rfl rfl
  | some split =>
    rw [readBinding_of_split h]
    refine iff_of_false (fun heq => ?_) nofun
    cases hbound : readBound split.2 serial with
    | error e =>
      rw [hbound] at heq
      cases heq
      exact readBound_ne_invalidVariable hbound
    | ok value =>
      rw [hbound] at heq
      exact nomatch heq

/-- Behind a name, which is trimmed, and an equals sign, every value that has a scalar of its own
comes back from its JSON text: words, truth values and strings always, and a finite double if the
reader of JSON undoes the writer on it. Behind a further equals sign stands an expression, which is
bound or fails as it does by itself. Other texts that are not JSON are bound as they stand. And
exactly the bindings without an equals sign or with a blank name are invalid. -/
theorem readBinding_carries (serial : Nat) :
    (∀ name : String, '=' ∉ name.toList → (∃ c ∈ name.toList, Text.isBlank c = false) →
      let key := String.ofList (Text.trim name.toList)
      (∀ n : Int64, readBinding (name ++ "=" ++ (Value.integer n).toJson.text) serial =
        .ok (key, .integer n)) ∧
      (∀ b : Bool, readBinding (name ++ "=" ++ (Value.boolean b).toJson.text) serial =
        .ok (key, .boolean b)) ∧
      (∀ s : String, readBinding (name ++ "=" ++ (Value.string s).toJson.text) serial =
        .ok (key, .string s)) ∧
      (∀ x : Double, x.isFinite = true → (Json.Scalar.double x).ReadsBack →
        readBinding (name ++ "=" ++ (Value.double x).toJson.text) serial = .ok (key, .double x)) ∧
      (∀ source : String, readBinding (name ++ "==" ++ source) serial =
        match Expression.ofSource source serial with
        | .ok e => .ok (key, .expression e)
        | .error e => .error (.expression e)) ∧
      ∀ raw : String, raw.toList.head? ≠ some '=' → Json.read? raw = none →
        readBinding (name ++ "=" ++ raw) serial = .ok (key, .string raw)) ∧
    ∀ binding : String, readBinding binding serial = .error (.invalidVariable binding) ↔
      '=' ∉ binding.toList ∨ ∀ c ∈ binding.toList.takeWhile (· ≠ '='), Text.isBlank c = true := by
  refine ⟨fun name hname hblank => ?_, fun binding =>
    readBinding_eq_invalidVariable_iff.trans splitBinding?_eq_none_iff⟩
  refine ⟨fun n => ?_, fun b => ?_, fun s => ?_, fun x hfinite hback => ?_, fun source => ?_,
    fun raw hfirst hjson => ?_⟩
  · have hvalue : Value.ofScalar (.integer n.toInt) = .ok (.integer n) := by
      rw [Value.ofScalar, Integer.ofInt?_toInt]
    exact readBinding_toJson hname hblank rfl
      (Json.readsBack_integer (Json.isWordSized_toInt n)) hvalue
  · exact readBinding_toJson hname hblank rfl (Json.readsBack_boolean b) rfl
  · exact readBinding_toJson hname hblank rfl (Json.readsBack_string s) rfl
  · exact readBinding_toJson hname hblank (by rw [Value.toJson, if_pos hfinite]) hback rfl
  · have htext : name ++ "==" ++ source = name ++ "=" ++ String.ofList ('=' :: source.toList) := by
      apply String.toList_injective
      simp only [String.toList_append, String.toList_ofList, List.append_assoc]
      rfl
    rw [htext, readBinding_equals hname hblank, String.toList_ofList, readBound_expression,
      String.ofList_toList]
    cases Expression.ofSource source serial with
    | error e => rfl
    | ok e => rfl
  · rw [readBinding_equals hname hblank, readBound_eq hfirst, hjson]
    rfl

/-- Bindings whose values have equals signs and quotes in them, or look like another kind. -/
theorem readBinding_carries_unitPrice :
    readBinding " Unit Price =7" 0 = .ok ("Unit Price", .integer 7) ∧
    readBinding " Unit Price =\"=1\"" 0 = .ok ("Unit Price", .string "=1") ∧
    readBinding " Unit Price =1.5" 0 =
      .ok ("Unit Price", .double (Double.ofScientific false 15 (-1))) ∧
    readBinding " Unit Price =7 = \"7\"" 0 = .ok ("Unit Price", .string "7 = \"7\"") ∧
    readBinding " =7" 0 = .error (.invalidVariable " =7") := by
  obtain ⟨hunits, hdouble⟩ : (⟨15, -1⟩ : Double.Scientific).Reads (3 * 2 ^ (1073 : Nat)) := by
    decide +kernel
  have hback : (Json.Scalar.double (Double.ofScientific false 15 (-1))).ReadsBack :=
    hdouble ▸ Json.readsBack_double
      ⟨by decide +kernel, by decide +kernel, by decide +kernel⟩
  obtain ⟨hname, hinvalid⟩ := readBinding_carries 0
  have hkey : String.ofList (Text.trim " Unit Price ".toList) = "Unit Price" := by decide +kernel
  obtain ⟨hinteger, -, hstring, hfinite, -, hraw⟩ :=
    hname " Unit Price " (by decide +kernel) ⟨'U', by decide +kernel, by decide +kernel⟩
  rw [hkey] at hinteger hstring hfinite hraw
  refine ⟨?_, ?_, ?_, ?_, (hinvalid " =7").mpr (.inr (List.all_eq_true.mp (by decide +kernel)))⟩
  · have htext : " Unit Price " ++ "=" ++ (Value.integer 7).toJson.text = " Unit Price =7" := by
      decide +kernel
    exact htext ▸ hinteger 7
  · have htext : " Unit Price " ++ "=" ++ (Value.string "=1").toJson.text =
        " Unit Price =\"=1\"" := by decide +kernel
    exact htext ▸ hstring "=1"
  · have htext : " Unit Price " ++ "=" ++
        (Value.double (Double.ofScientific false 15 (-1))).toJson.text = " Unit Price =1.5" := by
      decide +kernel
    exact htext ▸ hfinite _ (by decide +kernel) hback
  · have hjson : Json.read? "7 = \"7\"" = none :=
      Option.isNone_iff_eq_none.mp (by decide +kernel)
    have htext : " Unit Price " ++ "=" ++ "7 = \"7\"" = " Unit Price =7 = \"7\"" := by
      decide +kernel
    exact htext ▸ hraw _ (by decide +kernel) hjson

end Formula
