import Formula.Proofs.Bindings.Reading
import Formula.Proofs.Evaluation.Reachability

/-!
# Bindings of a map

The entries of a map come in no order, so bindings are made of them in any. Their names are
different as they stand, but names that fold alike are one name of the bindings, and the last one
that comes counts.

So the order shows exactly where entries whose names fold alike have different values
(`FoldsUniquely`, `ofList_perm`). What does not depend on it is which names are bound, and that each
is bound to the value of an entry with that name.
-/

namespace Formula

namespace Bindings

/-- Whether entries whose names fold alike have the same value. -/
def FoldsUniquely (entries : List (String × Value)) : Prop :=
  ∀ first ∈ entries, ∀ second ∈ entries, fold first.1 = fold second.1 → first.2 = second.2

variable {entries other : List (String × Value)} {name : String} {value : Value}

/-- Whether names fold uniquely does not depend on the order of the entries. -/
theorem FoldsUniquely.perm (h : FoldsUniquely entries) (hperm : entries.Perm other) :
    FoldsUniquely other := fun first hfirst second hsecond =>
  h first (hperm.mem_iff.mpr hfirst) second (hperm.mem_iff.mpr hsecond)

/-! ## What a name is bound to -/

/-- A name is bound to the value of an entry with that name. -/
theorem exists_entry_of_get? (h : (ofList entries).get? name = some value) :
    ∃ entry ∈ entries, fold entry.1 = fold name ∧ entry.2 = value := by
  rw [get?_ofList, lastValue?, Option.map_eq_some_iff] at h
  obtain ⟨entry, hfind, rfl⟩ := h
  rw [List.findRev?_eq_find?_reverse] at hfind
  have hfold := List.find?_some hfind
  exact ⟨entry, List.mem_reverse.mp (List.mem_of_find?_eq_some hfind), of_decide_eq_true hfold, rfl⟩

/-- The name of an entry is bound. -/
theorem exists_get?_of_mem {entry : String × Value} (hentry : entry ∈ entries)
    (hfold : fold entry.1 = fold name) : ∃ value, (ofList entries).get? name = some value := by
  cases h : (ofList entries).get? name with
  | some value => exact ⟨value, rfl⟩
  | none =>
    rw [get?_ofList] at h
    exact absurd hfold (lastValue?_eq_none_iff.mp h entry hentry)

/-- A name is bound exactly if the name of some entry folds to the same key. -/
theorem contains_ofList :
    (ofList entries).contains name = true ↔ ∃ entry ∈ entries, fold entry.1 = fold name := by
  rw [contains_eq_isSome, Option.isSome_iff_exists]
  constructor
  · rintro ⟨value, h⟩
    obtain ⟨entry, hentry, hfold, -⟩ := exists_entry_of_get? h
    exact ⟨entry, hentry, hfold⟩
  · rintro ⟨entry, hentry, hfold⟩
    exact exists_get?_of_mem hentry hfold

/-- If names fold uniquely, a value is bound exactly if some entry says so, wherever it stands. -/
theorem FoldsUniquely.get?_eq_some_iff (h : FoldsUniquely entries) :
    (ofList entries).get? name = some value ↔
      ∃ entry ∈ entries, fold entry.1 = fold name ∧ entry.2 = value := by
  refine ⟨exists_entry_of_get?, ?_⟩
  rintro ⟨entry, hentry, hfold, rfl⟩
  obtain ⟨value, hvalue⟩ := exists_get?_of_mem hentry hfold
  obtain ⟨last, hlast, hname, rfl⟩ := exists_entry_of_get? hvalue
  rw [hvalue, h last hlast entry hentry (hname.trans hfold.symm)]

/-- The name of the last entry is bound to its value. -/
theorem get?_ofList_concat (entries : List (String × Value)) (entry : String × Value)
    (hfold : fold entry.1 = fold name) :
    (ofList (entries ++ [entry])).get? name = some entry.2 := by
  rw [ofList, insertMany, List.foldl_concat, get?_insert, if_pos hfold]

/-! ## Two orders -/

/-- Folded names are listed with what they are looked up to, and nothing else is listed. -/
theorem Folded.toList_eq {bindings bindings' : Bindings} (h : bindings.Folded)
    (h' : bindings'.Folded) (hget : ∀ name, bindings.get? name = bindings'.get? name) :
    bindings.toList = bindings'.toList := by
  have hnone : ∀ {bindings : Bindings}, bindings.Folded → ∀ key, fold key ≠ key →
      bindings.values[key]? = none := fun hfolded key hkey =>
    Std.TreeMap.getElem?_eq_none fun hmem => hkey (hfolded key hmem)
  apply Std.TreeMap.Equiv.toList_eq
  apply Std.TreeMap.Equiv.of_forall_constGet?_eq
  intro key
  by_cases hkey : fold key = key
  · have hvalue := hget key
    rw [get?, get?, hkey] at hvalue
    exact hvalue
  · rw [hnone h key hkey, hnone h' key hkey]

/-- If names fold uniquely, the order of the entries makes no difference. -/
theorem FoldsUniquely.get?_perm (h : FoldsUniquely entries) (hperm : entries.Perm other)
    (name : String) : (ofList entries).get? name = (ofList other).get? name := by
  ext value
  rw [h.get?_eq_some_iff, (h.perm hperm).get?_eq_some_iff]
  simp only [hperm.mem_iff]

/-- Each entry comes last in some order. -/
theorem exists_perm_get?_eq {entry : String × Value} (hentry : entry ∈ entries)
    (hfold : fold entry.1 = fold name) :
    ∃ other, entries.Perm other ∧ (ofList other).get? name = some entry.2 := by
  obtain ⟨front, back, rfl⟩ := List.append_of_mem hentry
  exact ⟨front ++ back ++ [entry], List.perm_middle.trans (List.perm_append_singleton _ _).symm,
    get?_ofList_concat _ _ hfold⟩

/-- In whatever order entries are bound, the same names are bound, each to the value of an entry
with that name. If entries whose names fold alike have the same value, the bindings are listed and
looked up alike, and every formula comes to the same; and in no other case do all orders agree. -/
theorem ofList_perm (hperm : entries.Perm other) :
    (∀ name, (ofList entries).contains name = (ofList other).contains name) ∧
    (∀ name value, (ofList other).get? name = some value →
      ∃ entry ∈ entries, fold entry.1 = fold name ∧ entry.2 = value) ∧
    (FoldsUniquely entries →
      (ofList entries).toList = (ofList other).toList ∧
      (∀ name, (ofList entries).get? name = (ofList other).get? name) ∧
      ∀ formula : Expression,
        formula.evaluate (ofList entries) = formula.evaluate (ofList other)) ∧
    ((∀ second, entries.Perm second → ∀ name,
      (ofList second).get? name = (ofList entries).get? name) ↔ FoldsUniquely entries) := by
  refine ⟨fun name => ?_, fun name value h => ?_, fun h => ⟨?_, h.get?_perm hperm, fun formula =>
    Expression.evaluate_congr (h.get?_perm hperm)⟩, fun h first hfirst second hsecond hfold => ?_,
    fun h second hsecond name => (h.get?_perm hsecond name).symm⟩
  · rw [Bool.eq_iff_iff, contains_ofList, contains_ofList]
    simp only [hperm.mem_iff]
  · obtain ⟨entry, hentry, hentry'⟩ := exists_entry_of_get? h
    exact ⟨entry, hperm.mem_iff.mpr hentry, hentry'⟩
  · exact (folded_empty.insertMany entries).toList_eq (folded_empty.insertMany other)
      (h.get?_perm hperm)
  · -- of two entries with one name, either can be made the last one
    obtain ⟨one, hone, hvalue⟩ := exists_perm_get?_eq hfirst rfl
    obtain ⟨two, htwo, hvalue'⟩ := exists_perm_get?_eq hsecond hfold.symm
    rw [h one hone] at hvalue
    rw [h two htwo] at hvalue'
    exact Option.some.inj (hvalue.symm.trans hvalue')

/-- The names `Price` and `PRICE` of a map fold alike and have the same value. -/
theorem ofList_perm_price :
    let entries := [("Price", Value.integer 10), ("b", .boolean true), ("PRICE", .integer 10)]
    let other := [("PRICE", Value.integer 10), ("Price", .integer 10), ("b", .boolean true)]
    entries.Perm other ∧ FoldsUniquely entries ∧ (ofList entries).toList = (ofList other).toList := by
  intro entries other
  have hperm : entries.Perm other := List.perm_append_singleton _ [_, _]
  have hunique : FoldsUniquely entries := by
    intro first hfirst second hsecond hfold
    have hmixed : fold "Price" ≠ fold "b" := by decide +kernel
    have hupper : fold "PRICE" ≠ fold "b" := by decide +kernel
    simp only [entries, List.mem_cons, List.not_mem_nil, or_false] at hfirst hsecond
    rcases hfirst with rfl | rfl | rfl <;> rcases hsecond with rfl | rfl | rfl
    exacts [rfl, absurd hfold hmixed, rfl, absurd hfold.symm hmixed, rfl,
      absurd hfold.symm hupper, rfl, absurd hfold hupper, rfl]
  exact ⟨hperm, hunique, ((ofList_perm hperm).2.2.1 hunique).1⟩

/-- The names `a` and `A` of a map are different and fold alike, so that `a` stands for whichever of
them comes last. -/
theorem get?_ofList_swapped :
    let entries := [("a", Value.integer 1), ("A", .integer 2)]
    let other := [("A", Value.integer 2), ("a", .integer 1)]
    (entries.map Prod.fst).Nodup ∧ entries.Perm other ∧
      (ofList entries).get? "a" = some (.integer 2) ∧
      (ofList other).get? "a" = some (.integer 1) := by
  have hfold : fold "A" = fold "a" := by decide +kernel
  exact ⟨by decide, .swap _ _ _, get?_ofList_concat [("a", .integer 1)] ("A", .integer 2) hfold,
    get?_ofList_concat [("A", .integer 2)] ("a", .integer 1) rfl⟩

end Bindings

end Formula
