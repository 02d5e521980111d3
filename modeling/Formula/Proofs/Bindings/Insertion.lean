import Formula.Bindings
import Formula.Proofs.Text.SmallLetters
import Mathlib.Data.Finset.Card

/-!
# Bindings as a map

Whatever names are bound one after the other, the bindings are the finite map that sends a folded
name to the value it was bound to last: `Bindings.lastValue?` is that value, read off the list of
pairs alone, and `ofList_denotes` says it of every question that can be asked of bindings.

One insertion changes one folded name (`values_get?_insert`), and it keeps the names in the map
folded (`Folded.insert`). Both are carried through a list of insertions. Folding a name twice is
folding it once, so a name that is listed can be looked up again.
-/

namespace Formula

/-- A map holds under a key what was inserted there last, or else what it held before. -/
theorem getElem?_foldl_insert {α β : Type} (key : α → String) (value : α → β) (items : List α)
    (map : Std.TreeMap String β) (k : String) :
    (items.foldl (fun map item => map.insert (key item) (value item)) map)[k]? =
      ((items.findRev? fun item => key item = k).map value).or map[k]? := by
  induction items generalizing map with
  | nil => rfl
  | cons item rest ih =>
    rw [List.foldl_cons, ih, List.findRev?]
    cases rest.findRev? fun item => key item = k with
    | some other => rfl
    | none =>
      rw [Std.TreeMap.getElem?_insert]
      by_cases hkey : key item = k
      · simp [hkey]
      · simp [hkey]

namespace Bindings

/-- The value that a name was bound to last: that of the last pair whose name folds as it does. -/
def lastValue? {α : Type} (pairs : List (String × α)) (name : String) : Option α :=
  (pairs.findRev? fun pair => fold pair.1 = fold name).map Prod.snd

/-- Binds one name after the other, and lists what each of them had before. -/
def replaceMany (bindings : Bindings) : List (String × Value) → List (Option Value) × Bindings
  | [] => ([], bindings)
  | (name, value) :: rest =>
    let (previous, bindings) := bindings.replace name value
    let (others, bindings) := bindings.replaceMany rest
    (previous :: others, bindings)

/-- Whether all names in the map are folded. -/
def Folded (bindings : Bindings) : Prop :=
  ∀ key ∈ bindings.values, fold key = key

/-- Folding a folded name changes nothing. -/
theorem fold_fold (name : String) : fold (fold name) = fold name := Text.lowercase_lowercase name

/-! ## One insertion -/

/-- The map has the new value under the folded name, and is the old one elsewhere. -/
theorem values_get?_insert (bindings : Bindings) (name key : String) (value : Value) :
    (bindings.insert name value).values.get? key =
      if fold name = key then some value else bindings.values.get? key := by
  simp [insert, Std.TreeMap.getElem?_insert]

/-- The folded name is the only key that an insertion can add. -/
theorem mem_values_insert {bindings : Bindings} {name key : String} {value : Value} :
    key ∈ (bindings.insert name value).values ↔ fold name = key ∨ key ∈ bindings.values := by
  simp [insert, Std.TreeMap.mem_insert]

/-- There is no key yet that would have to be folded. -/
theorem folded_empty : Folded empty := fun _ hkey => absurd hkey Std.TreeMap.not_mem_emptyc

/-- An insertion only adds a folded key. -/
theorem Folded.insert {bindings : Bindings} (h : bindings.Folded) (name : String)
    (value : Value) : (bindings.insert name value).Folded := by
  intro key hkey
  rcases mem_values_insert.mp hkey with rfl | hkey
  · exact fold_fold name
  · exact h key hkey

/-! ## Many insertions -/

/-- Many insertions are one walk over the pairs from left to right. -/
theorem values_insertMany (bindings : Bindings) (pairs : List (String × Value)) :
    (bindings.insertMany pairs).values =
      pairs.foldl (fun map pair => map.insert (fold pair.1) pair.2) bindings.values := by
  induction pairs generalizing bindings with
  | nil => rfl
  | cons pair rest ih => exact ih (bindings.insert pair.1 pair.2)

/-- A name has the value that it was bound to last, or else the one that it had before. -/
theorem get?_insertMany (bindings : Bindings) (pairs : List (String × Value)) (name : String) :
    (bindings.insertMany pairs).get? name =
      (lastValue? pairs name).or (bindings.get? name) := by
  unfold get? lastValue?
  rw [values_insertMany, Std.TreeMap.get?_eq_getElem?, Std.TreeMap.get?_eq_getElem?,
    getElem?_foldl_insert]

/-- What is bound to a name is the value of the last pair whose name folds to the same key. -/
theorem get?_ofList (pairs : List (String × Value)) (name : String) :
    (ofList pairs).get? name = lastValue? pairs name := by
  rw [ofList, get?_insertMany, get?_empty, Option.or_none]

/-- Many insertions add the folded names of the pairs and keep the keys there are. -/
theorem mem_values_insertMany {bindings : Bindings} {pairs : List (String × Value)} {key : String} :
    key ∈ (bindings.insertMany pairs).values ↔
      key ∈ pairs.map (fun pair => fold pair.1) ∨ key ∈ bindings.values := by
  induction pairs generalizing bindings with
  | nil => simp [insertMany]
  | cons pair rest ih =>
    show key ∈ ((bindings.insert pair.1 pair.2).insertMany rest).values ↔ _
    rw [ih, mem_values_insert, List.map_cons, List.mem_cons, eq_comm (a := key)]
    tauto

/-- The keys are the folded names of the pairs. -/
theorem mem_values_ofList {pairs : List (String × Value)} {key : String} :
    key ∈ (ofList pairs).values ↔ key ∈ pairs.map (fun pair => fold pair.1) := by
  rw [ofList, mem_values_insertMany]
  exact or_iff_left Std.TreeMap.not_mem_emptyc

/-- Many insertions only add folded keys. -/
theorem Folded.insertMany {bindings : Bindings} (h : bindings.Folded)
    (pairs : List (String × Value)) : (bindings.insertMany pairs).Folded := by
  induction pairs generalizing bindings with
  | nil => exact h
  | cons pair rest ih => exact ih (h.insert pair.1 pair.2)

/-- Binding names one by one gives the bindings of all, and each time returns what the name had. -/
theorem replaceMany_eq (bindings : Bindings) (pairs : List (String × Value)) :
    bindings.replaceMany pairs =
      (pairs.zipIdx.map fun (pair, i) => (bindings.insertMany (pairs.take i)).get? pair.1,
        bindings.insertMany pairs) := by
  induction pairs generalizing bindings with
  | nil => rfl
  | cons pair rest ih =>
    rw [replaceMany, replace]
    simp only [ih]
    rw [List.zipIdx_cons', List.map_cons, List.map_map]
    rfl

/-! ## Listing -/

/-- The listed names are the names in the map, each of them once. -/
theorem nodup_names (bindings : Bindings) : (bindings.toList.map Prod.fst).Nodup := by
  rw [toList, Std.TreeMap.map_fst_toList_eq_keys]
  exact Std.TreeMap.nodup_keys

/-- The walk over the bindings comes by every key. -/
theorem mem_names {bindings : Bindings} {key : String} :
    key ∈ bindings.toList.map Prod.fst ↔ key ∈ bindings.values := by
  rw [toList, Std.TreeMap.map_fst_toList_eq_keys, Std.TreeMap.mem_keys]

/-- The walk comes by as many names as there are bindings. -/
theorem length_names (bindings : Bindings) :
    (bindings.toList.map Prod.fst).length = bindings.size := by
  rw [List.length_map]
  exact Std.TreeMap.length_toList

/-- A folded name is listed with the value that it is looked up to. -/
theorem Folded.get?_of_mem_toList {bindings : Bindings} (h : bindings.Folded) {key : String}
    {value : Value} (hmem : (key, value) ∈ bindings.toList) : bindings.get? key = some value := by
  have hvalue := Std.TreeMap.mem_toList_iff_getElem?_eq_some.mp hmem
  have hkey : key ∈ bindings.values := by
    rw [Std.TreeMap.mem_iff_isSome_getElem?, hvalue]
    rfl
  rw [get?, h key hkey]
  exact hvalue

/-- Bindings are a finite map from folded names to the values that these were bound to last. This
goes for looking a name up and for asking whether it is bound, for what each binding replaces, for
the number of names, and for the list of names, which has every folded name once, with a value that
looking up the listed name gives again. -/
theorem ofList_denotes (pairs : List (String × Value)) :
    (∀ name, (ofList pairs).get? name = lastValue? pairs name) ∧
    (∀ name, (ofList pairs).contains name = true ↔ ((ofList pairs).get? name).isSome) ∧
    empty.replaceMany pairs =
      (pairs.zipIdx.map fun (pair, i) => (ofList (pairs.take i)).get? pair.1, ofList pairs) ∧
    (ofList pairs).size = (pairs.map fun pair => fold pair.1).toFinset.card ∧
    ((ofList pairs).isEmpty = true ↔ (ofList pairs).size = 0) ∧
    ((ofList pairs).toList.map Prod.fst).Nodup ∧
    (∀ key, key ∈ (ofList pairs).toList.map Prod.fst ↔ ∃ pair ∈ pairs, fold pair.1 = key) ∧
    ∀ key value, (key, value) ∈ (ofList pairs).toList ↔
      fold key = key ∧ (ofList pairs).get? key = some value := by
  have hmem : ∀ key, key ∈ (ofList pairs).toList.map Prod.fst ↔
      key ∈ pairs.map (fun pair => fold pair.1) := fun key =>
    mem_names.trans mem_values_ofList
  have hfolded : (ofList pairs).Folded := folded_empty.insertMany pairs
  refine ⟨get?_ofList pairs, fun name => by rw [contains_eq_isSome], replaceMany_eq empty pairs,
    ?_, ?_, nodup_names _, fun key => (hmem key).trans List.mem_map, fun key value => ⟨?_, ?_⟩⟩
  · rw [← length_names, ← List.toFinset_card_of_nodup (nodup_names _)]
    congr 1
    ext key
    rw [List.mem_toFinset, List.mem_toFinset, hmem]
  · rw [isEmpty, size, Std.TreeMap.isEmpty_eq_size_eq_zero, beq_iff_eq]
  · intro hkey
    have hname : key ∈ (ofList pairs).values := mem_names.mp (List.mem_map_of_mem hkey)
    exact ⟨hfolded key hname, hfolded.get?_of_mem_toList hkey⟩
  · rintro ⟨hkey, hvalue⟩
    rw [get?, hkey] at hvalue
    exact Std.TreeMap.mem_toList_iff_getElem?_eq_some.mpr hvalue

end Bindings

end Formula
