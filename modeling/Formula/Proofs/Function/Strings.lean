import Formula.Function.Call
import Mathlib.Data.List.Infix

/-!
# The string functions see one text

Each test of two strings asks whether and where the one stands in the other, and a substring is what
stands at a place. So `Text.StandsAt` is all that the string functions have in common:
`substring_call_eq_ok_iff` says it of a substring, and the three lemmas on `isPrefixOf`, `isSuffixOf`
and `hasPart` of the tests. From these `string_functions_agree` puts the functions together, with
lengths and places as integers. The length of the string that is looked through has to be a word; the
one that is looked for may be longer, since it is found nowhere then.
-/

namespace Formula

open NaturalPower

namespace Text

/-- Whether `part` stands in a text behind the first `place` characters. -/
def StandsAt (part text : List Char) (place : Nat) : Prop :=
  ∃ before after, text = before ++ part ++ after ∧ before.length = place

variable {part text : List Char} {place : Nat}

/-- A part that stands somewhere ends within the text. -/
theorem StandsAt.add_length_le (h : StandsAt part text place) :
    place + part.length ≤ text.length := by
  obtain ⟨before, after, rfl, rfl⟩ := h
  rw [List.length_append, List.length_append]
  exact Nat.le_add_right _ _

/-- What stands at a place is cut out there. -/
theorem StandsAt.take_drop (h : StandsAt part text place) :
    (text.drop place).take part.length = part := by
  obtain ⟨before, after, rfl, rfl⟩ := h
  rw [List.append_assoc, List.drop_left, List.take_left]

/-- What is cut out at a place stands there. -/
theorem standsAt_take_drop {count : Nat} (h : place + count ≤ text.length) :
    StandsAt ((text.drop place).take count) text place := by
  refine ⟨text.take place, (text.drop place).drop count, ?_, ?_⟩
  · rw [List.append_assoc, List.take_append_drop, List.take_append_drop]
  · rw [List.length_take, Nat.min_eq_left (Nat.le_of_add_right_le h)]

/-- A part that stands behind the first character stands in the rest. -/
theorem standsAt_cons {c : Char} : StandsAt part (c :: text) (place + 1) ↔
    StandsAt part text place := by
  constructor
  · rintro ⟨before, after, htext, hplace⟩
    obtain ⟨d, before, rfl⟩ := List.exists_cons_of_length_eq_add_one hplace
    obtain ⟨-, htext⟩ := List.cons.inj htext
    exact ⟨before, after, htext, Nat.succ.inj hplace⟩
  · rintro ⟨before, after, rfl, rfl⟩
    exact ⟨c :: before, after, rfl, rfl⟩

/-! ## The tests -/

/-- A text starts with what stands at its start. -/
theorem isPrefixOf_eq_true_iff : part.isPrefixOf text = true ↔ StandsAt part text 0 := by
  rw [List.isPrefixOf_iff_prefix]
  constructor
  · rintro ⟨after, rfl⟩
    exact ⟨[], after, rfl, rfl⟩
  · rintro ⟨before, after, rfl, hbefore⟩
    rw [List.length_eq_zero_iff.mp hbefore]
    exact List.prefix_append part after

/-- A text ends with what stands as far before its end as it is long. -/
theorem isSuffixOf_eq_true_iff :
    part.isSuffixOf text = true ↔ StandsAt part text (text.length - part.length) := by
  rw [List.isSuffixOf_iff_suffix]
  constructor
  · rintro ⟨before, rfl⟩
    refine ⟨before, [], (List.append_nil _).symm, ?_⟩
    rw [List.length_append, Nat.add_sub_cancel]
  · intro h
    have hlength := h.add_length_le
    obtain ⟨before, after, rfl, hbefore⟩ := h
    have hafter : after.length = 0 := by
      simp only [List.length_append] at hlength hbefore
      omega
    rw [List.length_eq_zero_iff.mp hafter, List.append_nil]
    exact List.suffix_append before part

/-- A text contains what stands somewhere in it. -/
theorem hasPart_eq_true_iff : hasPart part text = true ↔ ∃ place, StandsAt part text place := by
  induction text with
  | nil =>
    rw [hasPart, List.isEmpty_iff]
    constructor
    · rintro rfl
      exact ⟨0, [], [], rfl, rfl⟩
    · rintro ⟨place, h⟩
      exact List.eq_nil_of_length_eq_zero
        (Nat.le_zero.mp (Nat.le_trans (Nat.le_add_left _ _) h.add_length_le))
  | cons c rest ih =>
    rw [hasPart, Bool.or_eq_true, isPrefixOf_eq_true_iff, ih]
    exact (or_congr_right (exists_congr fun _ => standsAt_cons.symm)).trans Nat.or_exists_add_one

end Text

namespace Function

variable {s t : String} {i l : Int64}

/-- The length of a string is an integer. -/
theorem length_call (s : String) :
    length.call [.string s] = .ok (.integer (Int64.ofNat s.length)) := by
  rw [← String.length_toList]
  rfl

/-- Two strings are joined. -/
theorem concat_call_pair (s t : String) :
    concat.call [.string s, .string t] = .ok (.string (s ++ t)) := by
  show Except.ok (Value.string ("" ++ s ++ t)) = _
  rw [String.empty_append]

/-- A substring is what stands at the start, if that is as long as it should be. -/
theorem substring_call_eq_ok_iff {v : Value} :
    substring.call [.string s, .integer i, .integer l] = .ok v ↔ 0 ≤ i.toInt ∧
      ∃ part : String, v = .string part ∧ l.toInt = part.length ∧
        Text.StandsAt part.toList s.toList i.toInt.toNat := by
  have hcall : substring.call [.string s, .integer i, .integer l] =
      if 0 ≤ i ∧ 0 ≤ l then
        if s.toList.length < i.toInt.toNat + l.toInt.toNat then
          .error (.invalidArgument substring
            (.range i.toInt.toNat (i.toInt.toNat + l.toInt.toNat) s.toList.length))
        else .ok (.string (String.ofList ((s.toList.drop i.toInt.toNat).take l.toInt.toNat)))
      else .error (.invalidArgument substring (.bounds (.integer i) (.integer l))) := rfl
  rw [hcall]
  simp only [Int64.le_iff_toInt_le, Int64.toInt_zero]
  constructor
  · intro h
    split at h
    · rename_i hsigns
      split at h
      · exact nomatch h
      · rename_i hlength
        cases h
        have hplace := Text.standsAt_take_drop (Nat.not_lt.mp hlength)
        refine ⟨hsigns.1, _, rfl, ?_, by rwa [String.toList_ofList]⟩
        rw [String.length_ofList, List.length_take, List.length_drop]
        omega
    · exact nomatch h
  · rintro ⟨hstart, part, rfl, hlength, hplace⟩
    have hlengths := hplace.add_length_le
    have hcount : l.toInt.toNat = part.toList.length := by
      rw [hlength, Int.toNat_natCast, String.length_toList]
    have hsign : 0 ≤ l.toInt := hlength ▸ Int.natCast_nonneg _
    rw [if_pos ⟨hstart, hsign⟩, hcount, if_neg (Nat.not_lt.mpr hlengths), hplace.take_drop,
      String.ofList_toList]

/-- A string that stands in another one ends within it. -/
theorem add_length_le_of_standsAt {place : Nat} (h : Text.StandsAt t.toList s.toList place) :
    place + t.length ≤ s.length := by
  rw [← String.length_toList, ← String.length_toList]
  exact h.add_length_le

/-- Which starts and lengths a substring has, over the integers. -/
theorem exists_substring_call_iff :
    (∃ v, substring.call [.string s, .integer i, .integer l] = .ok v) ↔
      0 ≤ i.toInt ∧ 0 ≤ l.toInt ∧ i.toInt + l.toInt ≤ s.length := by
  simp only [substring_call_eq_ok_iff]
  constructor
  · rintro ⟨v, hstart, part, -, hlength, hplace⟩
    have hlengths := add_length_le_of_standsAt hplace
    omega
  · rintro ⟨hstart, hsign, hsum⟩
    have hlengths : i.toInt.toNat + l.toInt.toNat ≤ s.toList.length := by
      rw [String.length_toList]
      omega
    refine ⟨_, hstart, String.ofList ((s.toList.drop i.toInt.toNat).take l.toInt.toNat), rfl, ?_, ?_⟩
    · rw [String.length_ofList, List.length_take, List.length_drop]
      omega
    · rw [String.toList_ofList]
      exact Text.standsAt_take_drop hlengths

/-- A part of a string is as long as was asked for. -/
theorem length_call_of_substring_call {v : Value}
    (h : substring.call [.string s, .integer i, .integer l] = .ok v) :
    length.call [v] = .ok (.integer l) := by
  obtain ⟨-, part, rfl, hlength, -⟩ := substring_call_eq_ok_iff.mp h
  have hcounted : part.length < 2 ^ (63 : Nat) := by
    have hlt := l.toInt_lt
    omega
  rw [length_call, Int64.toInt_inj.mp ((Int64.toInt_ofNat_of_lt hcounted).trans hlength.symm)]

/-! ## Countable strings -/

/-- A difference that does not go below zero is exact. -/
theorem toInt_sub_of_le {a b : Int64} (hb : 0 ≤ b.toInt) (hle : b.toInt ≤ a.toInt) :
    (a - b).toInt = a.toInt - b.toInt := by
  have hlt := a.toInt_lt
  rw [Int64.toInt_sub]
  exact Int.bmod_eq_of_le (by omega) (by omega)

/-- A string is what stands in front of a place and what stands behind it. -/
theorem substring_call_halves (hs : s.length < 2 ^ (63 : Nat)) (hi : 0 ≤ i.toInt)
    (hle : i.toInt ≤ s.length) : ∃ front back : String,
      substring.call [.string s, .integer 0, .integer i] = .ok (.string front) ∧
      substring.call [.string s, .integer i, .integer (Int64.ofNat s.length - i)] =
        .ok (.string back) ∧ front ++ back = s := by
  have hn : (Int64.ofNat s.length).toInt = s.length := Int64.toInt_ofNat_of_lt hs
  refine ⟨String.ofList (s.toList.take i.toInt.toNat), String.ofList (s.toList.drop i.toInt.toNat),
    substring_call_eq_ok_iff.mpr ⟨Int.le_refl 0, _, rfl, ?_, ?_⟩,
    substring_call_eq_ok_iff.mpr ⟨hi, _, rfl, ?_, ?_⟩, ?_⟩
  · rw [String.length_ofList, List.length_take, String.length_toList]
    omega
  · rw [String.toList_ofList]
    exact ⟨[], s.toList.drop i.toInt.toNat, (List.take_append_drop _ _).symm, rfl⟩
  · rw [String.length_ofList, List.length_drop, String.length_toList,
      toInt_sub_of_le hi (hle.trans_eq hn.symm), hn]
    omega
  · rw [String.toList_ofList]
    refine ⟨s.toList.take i.toInt.toNat, [], ?_, ?_⟩
    · rw [List.append_nil, List.take_append_drop]
    · rw [List.length_take, String.length_toList]
      omega
  · rw [← String.ofList_append, List.take_append_drop, String.ofList_toList]

/-- What stands in a countable string is countable. -/
theorem toInt_length_of_standsAt (hs : s.length < 2 ^ (63 : Nat)) {place : Nat}
    (h : Text.StandsAt t.toList s.toList place) : (Int64.ofNat t.length).toInt = t.length := by
  have hle := add_length_le_of_standsAt h
  exact Int64.toInt_ofNat_of_lt (Nat.lt_of_le_of_lt (Nat.le_of_add_left_le hle) hs)

/-- A string is the substring of its own length exactly where it stands. -/
theorem substring_call_length_iff (hs : s.length < 2 ^ (63 : Nat)) :
    substring.call [.string s, .integer i, .integer (Int64.ofNat t.length)] = .ok (.string t) ↔
      0 ≤ i.toInt ∧ Text.StandsAt t.toList s.toList i.toInt.toNat := by
  rw [substring_call_eq_ok_iff]
  refine and_congr_right fun _ => ⟨?_, fun h => ⟨t, rfl, toInt_length_of_standsAt hs h, h⟩⟩
  rintro ⟨_, ⟨⟩, -, h⟩
  exact h

/-- A string starts with the part of its length at the start. -/
theorem isPrefixOf_eq_true_iff_substring (hs : s.length < 2 ^ (63 : Nat)) :
    t.toList.isPrefixOf s.toList = true ↔
      substring.call [.string s, .integer 0, .integer (Int64.ofNat t.length)] = .ok (.string t) := by
  rw [Text.isPrefixOf_eq_true_iff, substring_call_length_iff hs]
  exact (and_iff_right (Int.le_refl 0)).symm

/-- A string ends with the part of its length at the end. -/
theorem isSuffixOf_eq_true_iff_substring (hs : s.length < 2 ^ (63 : Nat)) :
    t.toList.isSuffixOf s.toList = true ↔
      substring.call [.string s, .integer (Int64.ofNat s.length - Int64.ofNat t.length),
        .integer (Int64.ofNat t.length)] = .ok (.string t) := by
  have hn : (Int64.ofNat s.length).toInt = s.length := Int64.toInt_ofNat_of_lt hs
  -- the difference of the lengths is exact as soon as the one string stands in the other
  have hstart {place : Nat} (h : Text.StandsAt t.toList s.toList place) :
      0 ≤ (Int64.ofNat s.length - Int64.ofNat t.length).toInt ∧
        (Int64.ofNat s.length - Int64.ofNat t.length).toInt.toNat = s.length - t.length := by
    have hle := add_length_le_of_standsAt h
    have hm := toInt_length_of_standsAt hs h
    rw [toInt_sub_of_le (by omega) (by omega), hn, hm]
    omega
  rw [Text.isSuffixOf_eq_true_iff, substring_call_length_iff hs, String.length_toList,
    String.length_toList]
  constructor
  · intro h
    obtain ⟨hsign, hplace⟩ := hstart h
    exact ⟨hsign, hplace ▸ h⟩
  · rintro ⟨-, h⟩
    exact (hstart h).2 ▸ h

/-- A string contains what is a part of it at some place. -/
theorem hasPart_eq_true_iff_substring (hs : s.length < 2 ^ (63 : Nat)) :
    Text.hasPart t.toList s.toList = true ↔ ∃ i,
      substring.call [.string s, .integer i, .integer (Int64.ofNat t.length)] = .ok (.string t) := by
  simp only [Text.hasPart_eq_true_iff, substring_call_length_iff hs]
  constructor
  · rintro ⟨place, h⟩
    have hle := add_length_le_of_standsAt h
    have hplace : (Int64.ofNat place).toInt = place :=
      Int64.toInt_ofNat_of_lt (Nat.lt_of_le_of_lt (Nat.le_of_add_right_le hle) hs)
    refine ⟨Int64.ofNat place, ?_, ?_⟩
    · rw [hplace]
      exact Int.natCast_nonneg place
    · rwa [hplace, Int.toNat_natCast]
  · rintro ⟨i, -, h⟩
    exact ⟨_, h⟩

/-- The string functions see one sequence of characters. A substring exists exactly where the string
has enough characters, and it has as many as it should; a string is put together from its halves, and
each test is true exactly if the substring of the right length at the right place is the string that
was looked for. No string in memory reaches the bound; beyond it a length is no word. -/
theorem string_functions_agree {s : String} (hs : s.length < 2 ^ (63 : Nat)) :
    ∃ n : Int64, length.call [.string s] = .ok (.integer n) ∧ n.toInt = s.length ∧
      (∀ i l : Int64,
        ((∃ v, substring.call [.string s, .integer i, .integer l] = .ok v) ↔
          0 ≤ i.toInt ∧ 0 ≤ l.toInt ∧ i.toInt + l.toInt ≤ n.toInt) ∧
        ∀ v, substring.call [.string s, .integer i, .integer l] = .ok v →
          length.call [v] = .ok (.integer l)) ∧
      (∀ i : Int64, 0 ≤ i.toInt → i.toInt ≤ n.toInt → ∃ front back : String,
        substring.call [.string s, .integer 0, .integer i] = .ok (.string front) ∧
        substring.call [.string s, .integer i, .integer (n - i)] = .ok (.string back) ∧
        concat.call [.string front, .string back] = .ok (.string s)) ∧
      ∀ t : String, ∃ m : Int64, length.call [.string t] = .ok (.integer m) ∧
        (∃ b, startsWith.call [.string s, .string t] = .ok (.boolean b) ∧
          (b = true ↔
            substring.call [.string s, .integer 0, .integer m] = .ok (.string t))) ∧
        (∃ b, endsWith.call [.string s, .string t] = .ok (.boolean b) ∧
          (b = true ↔
            substring.call [.string s, .integer (n - m), .integer m] = .ok (.string t))) ∧
        ∃ b, contains.call [.string s, .string t] = .ok (.boolean b) ∧
          (b = true ↔ ∃ i,
            substring.call [.string s, .integer i, .integer m] = .ok (.string t)) := by
  have hn : (Int64.ofNat s.length).toInt = s.length := Int64.toInt_ofNat_of_lt hs
  refine ⟨Int64.ofNat s.length, length_call s, hn, ?_, ?_, ?_⟩
  · intro i l
    rw [hn]
    exact ⟨exists_substring_call_iff, fun v => length_call_of_substring_call⟩
  · intro i hi hle
    obtain ⟨front, back, hfront, hback, happend⟩ := substring_call_halves hs hi (hle.trans_eq hn)
    exact ⟨front, back, hfront, hback, happend ▸ concat_call_pair front back⟩
  · intro t
    exact ⟨Int64.ofNat t.length, length_call t,
      ⟨_, rfl, isPrefixOf_eq_true_iff_substring hs⟩, ⟨_, rfl, isSuffixOf_eq_true_iff_substring hs⟩,
      ⟨_, rfl, hasPart_eq_true_iff_substring hs⟩⟩

/-- A string with characters of several bytes, in which the other one stands twice and overlaps. -/
theorem string_functions_agree_overlapping :
    "ñañañ".length < 2 ^ (63 : Nat) ∧ ∃ n m : Int64,
      length.call [.string "ñañañ"] = .ok (.integer n) ∧ n.toInt = 5 ∧
      length.call [.string "ñañ"] = .ok (.integer m) ∧
      substring.call [.string "ñañañ", .integer 0, .integer m] = .ok (.string "ñañ") ∧
      substring.call [.string "ñañañ", .integer (n - m), .integer m] = .ok (.string "ñañ") := by
  have hs : "ñañañ".length < 2 ^ (63 : Nat) := by decide +kernel
  have hstarts : startsWith.call [.string "ñañañ", .string "ñañ"] = .ok (.boolean true) := rfl
  have hends : endsWith.call [.string "ñañañ", .string "ñañ"] = .ok (.boolean true) := rfl
  obtain ⟨n, hn, hlength, -, -, htests⟩ := string_functions_agree hs
  obtain ⟨m, hm, ⟨_, hfront, hfirst⟩, ⟨_, hback, hlast⟩, -⟩ := htests "ñañ"
  cases hstarts.symm.trans hfront
  cases hends.symm.trans hback
  exact ⟨hs, n, m, hn, hlength, hm, hfirst.mp rfl, hlast.mp rfl⟩

end Function

end Formula
