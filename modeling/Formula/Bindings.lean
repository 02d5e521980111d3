import Formula.Value
import Std.Data.TreeMap

/-!
# Variables

`Bindings` maps names to values. Names are folded to lower case when they are bound and when they
are looked up, so that letter case does not matter, and the bindings are listed in the order of the
folded names.
-/

namespace Formula

/-- A finite map from folded names to values. -/
structure Bindings where
  values : Std.TreeMap String Value

namespace Bindings

/-- The form of a name under which it is bound. -/
def fold (name : String) : String := Text.lowercase name

/-- No bindings. -/
def empty : Bindings := ⟨∅⟩

/-- The value of a name. -/
def get? (bindings : Bindings) (name : String) : Option Value := bindings.values.get? (fold name)

/-- Whether a name is bound. -/
def contains (bindings : Bindings) (name : String) : Bool := bindings.values.contains (fold name)

/-- The bindings with a name bound to a value, in place of what it was bound to. -/
def insert (bindings : Bindings) (name : String) (value : Value) : Bindings :=
  ⟨bindings.values.insert (fold name) value⟩

/-- Binds a name and returns the value that it had, if any. -/
def replace (bindings : Bindings) (name : String) (value : Value) : Option Value × Bindings :=
  (bindings.get? name, bindings.insert name value)

/-- The bindings after binding one name after the other. -/
def insertMany (bindings : Bindings) (pairs : List (String × Value)) : Bindings :=
  pairs.foldl (fun bindings pair => bindings.insert pair.1 pair.2) bindings

/-- The bindings of a list of names, of which a later one replaces an equal earlier one. -/
def ofList (pairs : List (String × Value)) : Bindings := empty.insertMany pairs

/-- The number of names. -/
def size (bindings : Bindings) : Nat := bindings.values.size

/-- Whether no name is bound. -/
def isEmpty (bindings : Bindings) : Bool := bindings.values.isEmpty

/-- The folded names with their values, in the order of the names. -/
def toList (bindings : Bindings) : List (String × Value) := bindings.values.toList

/-- Nothing is bound at first. -/
theorem get?_empty (name : String) : empty.get? name = none := Std.TreeMap.getElem?_emptyc

/-- A binding is found under every spelling of its name that folds alike, and hides no other. -/
theorem get?_insert (bindings : Bindings) (name other : String) (value : Value) :
    (bindings.insert name value).get? other =
      if fold name = fold other then some value else bindings.get? other := by
  simp [get?, insert, Std.TreeMap.getElem?_insert]

/-- A name is bound exactly if a value is found under it. -/
theorem contains_eq_isSome (bindings : Bindings) (name : String) :
    bindings.contains name = (bindings.get? name).isSome := by
  exact Std.TreeMap.contains_eq_isSome_getElem?

end Bindings

end Formula
