import Formula.Proofs.Bindings.Insertion
import Formula.Value.Json
import Mathlib.Data.List.Forall2
import Mathlib.Data.String.Basic

/-!
# Bindings that are read

Bindings are read item by item, from the members of an object or from a list of texts, and each item
may fail. Reading and binding can be told apart: the items are read in their order up to the first
one that fails, and if none does, all that was read is bound in that order (`foldlM_insert`).

The members of an object are read in the order of their names, whatever their order in the text
(`Json.IsMember`, `Json.name_lt_iff`). So of the members that fold alike, the one with the greatest
name counts (`exists_greatest_of_lastValue?`).
-/

namespace Formula

/-! ## Readings -/

section

variable {α β ε : Type} {step : α → Except ε β} {items : List α}

/-- Readings succeed with the results of each. -/
theorem mapM_eq_ok_iff {results : List β} :
    items.mapM step = .ok results ↔
      List.Forall₂ (fun item result => step item = .ok result) items results := by
  induction items generalizing results with
  | nil =>
    rw [List.mapM_nil, List.forall₂_nil_left_iff]
    exact ⟨fun h => by cases h; rfl, fun h => by rw [h]; rfl⟩
  | cons item rest ih =>
    rw [List.mapM_cons, List.forall₂_cons_left_iff]
    cases hitem : step item with
    | error e => exact ⟨nofun, nofun⟩
    | ok result =>
      cases hrest : rest.mapM step with
      | error e =>
        refine ⟨nofun, ?_⟩
        rintro ⟨_, others, _, hothers, -⟩
        rw [ih.mpr hothers] at hrest
        exact nomatch hrest
      | ok others =>
        constructor
        · intro h
          cases h
          exact ⟨result, others, rfl, ih.mp hrest, rfl⟩
        · rintro ⟨_, others', heq, hothers, rfl⟩
          cases heq
          cases hrest.symm.trans (ih.mpr hothers)
          rfl

/-- Readings fail with the error of the first one that fails. -/
theorem mapM_eq_error_iff {e : ε} :
    items.mapM step = .error e ↔ ∃ (i : Nat) (item : α), items[i]? = some item ∧ step item = .error e ∧
      ∀ (j : Nat) (other : α), j < i → items[j]? = some other → ∃ result, step other = .ok result := by
  induction items with
  | nil => exact ⟨nofun, nofun⟩
  | cons item rest ih =>
    rw [List.mapM_cons]
    cases hitem : step item with
    | error e' =>
      constructor
      · intro h
        cases h
        exact ⟨0, item, rfl, hitem, fun j _ hj => absurd hj j.not_lt_zero⟩
      · rintro ⟨i, other, hother, herror, hbefore⟩
        cases i with
        | zero =>
          cases hother
          cases hitem.symm.trans herror
          rfl
        | succ i =>
          obtain ⟨result, hresult⟩ := hbefore 0 item i.succ_pos rfl
          rw [hitem] at hresult
          exact nomatch hresult
    | ok result =>
      have hrest : (rest.mapM step = .error e) ↔ (do
          let others ← rest.mapM step
          pure (result :: others) : Except ε (List β)) = .error e := by
        cases rest.mapM step with
        | error e' => exact Iff.rfl
        | ok others => exact ⟨nofun, nofun⟩
      refine hrest.symm.trans (ih.trans ⟨?_, ?_⟩)
      · rintro ⟨i, other, hother, herror, hbefore⟩
        refine ⟨i + 1, other, hother, herror, fun j third hj hthird => ?_⟩
        cases j with
        | zero =>
          cases hthird
          exact ⟨result, hitem⟩
        | succ j => exact hbefore j third (Nat.lt_of_succ_lt_succ hj) hthird
      · rintro ⟨i, other, hother, herror, hbefore⟩
        cases i with
        | zero =>
          cases hother
          rw [hitem] at herror
          exact nomatch herror
        | succ i =>
          exact ⟨i, other, hother, herror, fun j third hj hthird =>
            hbefore (j + 1) third (Nat.succ_lt_succ hj) hthird⟩

/-- Binding what is read item by item is reading all items first. -/
theorem Bindings.foldlM_insert (read : α → Except ε (String × Value)) (items : List α)
    (bindings : Bindings) :
    items.foldlM (fun bound item => (read item).map fun pair => bound.insert pair.1 pair.2)
      bindings = (items.mapM read).map bindings.insertMany := by
  induction items generalizing bindings with
  | nil => rfl
  | cons item rest ih =>
    rw [List.foldlM_cons, List.mapM_cons]
    cases read item with
    | error e => rfl
    | ok pair =>
      show List.foldlM _ (bindings.insert pair.1 pair.2) rest = _
      rw [ih]
      show _ = Except.map bindings.insertMany (do
        let others ← rest.mapM read
        pure (pair :: others))
      cases rest.mapM read with
      | error e => rfl
      | ok others => rfl

end

/-! ## Members of an object -/

namespace Json

/-- Whether a document is the member of an object under a name: of several with that name, the last
one in the text. -/
def IsMember (members : List (String × Document)) (name : String) (document : Document) : Prop :=
  (members.findRev? fun member => member.1 = name) = some (name, document)

variable {members : List (String × Document)} {name : String} {document : Document}

/-- A name belongs to one member at most. -/
theorem IsMember.unique {other : Document} (h : IsMember members name document)
    (h' : IsMember members name other) : document = other := by
  have hsame := h.symm.trans h'
  rw [Option.some.injEq, Prod.mk.injEq] at hsame
  exact hsame.2

/-- Sorting the members keeps those that later ones do not replace. -/
theorem mem_sortedMembers :
    (name, document) ∈ sortedMembers members ↔ IsMember members name document := by
  unfold sortedMembers IsMember
  rw [Std.TreeMap.mem_toList_iff_getElem?_eq_some, getElem?_foldl_insert,
    Std.TreeMap.getElem?_emptyc, Option.or_none, Option.map_eq_some_iff]
  constructor
  · rintro ⟨⟨name', document'⟩, hfind, rfl⟩
    have hname : name' = name := by
      rw [List.findRev?_eq_find?_reverse] at hfind
      have hfound := List.find?_some hfind
      exact of_decide_eq_true hfound
    rw [hfind, hname]
  · intro h
    exact ⟨_, h, rfl⟩

/-- The members are sorted by their names, which are all different. -/
theorem pairwise_sortedMembers (members : List (String × Document)) :
    (sortedMembers members).Pairwise fun first second => first.1 < second.1 := by
  unfold sortedMembers
  refine List.Pairwise.imp ?_ Std.TreeMap.ordered_keys_toList
  intro first second h
  exact compare_lt_iff_lt.mp h

/-- The members are in the order of their names. -/
theorem name_lt_iff {i j : Nat} {first second : String × Document}
    (hfirst : (sortedMembers members)[i]? = some first)
    (hsecond : (sortedMembers members)[j]? = some second) : first.1 < second.1 ↔ i < j := by
  obtain ⟨hi, rfl⟩ := List.getElem?_eq_some_iff.mp hfirst
  obtain ⟨hj, rfl⟩ := List.getElem?_eq_some_iff.mp hsecond
  have hsorted := List.pairwise_iff_getElem.mp (pairwise_sortedMembers members)
  refine ⟨fun hlt => ?_, hsorted i j hi hj⟩
  by_contra hle
  rcases Nat.lt_or_eq_of_le (Nat.le_of_not_lt hle) with hji | rfl
  · exact absurd hlt (lt_asymm (hsorted j i hj hi hji))
  · exact absurd hlt (lt_irrefl _)

end Json

/-! ## The greatest name -/

namespace Bindings

variable {α : Type} {pairs : List (String × α)} {name : String}

/-- There is no last value exactly if no name folds to the same key. -/
theorem lastValue?_eq_none_iff :
    lastValue? pairs name = none ↔ ∀ pair ∈ pairs, fold pair.1 ≠ fold name := by
  unfold lastValue?
  rw [Option.map_eq_none_iff, List.findRev?_eq_find?_reverse, List.find?_eq_none]
  simp only [List.mem_reverse, decide_eq_true_eq, ne_eq]

/-- If names are bound in their order, the greatest of those that fold alike is bound last. -/
theorem exists_greatest_of_lastValue?
    (hsorted : pairs.Pairwise fun first second => first.1 < second.1) {value : α}
    (h : lastValue? pairs name = some value) : ∃ key, (key, value) ∈ pairs ∧ fold key = fold name ∧
      ∀ pair ∈ pairs, fold pair.1 = fold name → pair.1 ≤ key := by
  obtain ⟨⟨key, value'⟩, hfind, rfl⟩ := Option.map_eq_some_iff.mp h
  rw [List.findRev?_eq_find?_reverse, List.find?_eq_some_iff_append] at hfind
  obtain ⟨hkey, behind, before, hreverse, hbehind⟩ := hfind
  have hpairs : pairs = before.reverse ++ (key, value') :: behind.reverse := by
    rw [← List.reverse_reverse pairs, hreverse]
    simp
  refine ⟨key, hpairs ▸ List.mem_append_right _ List.mem_cons_self, of_decide_eq_true hkey,
    fun pair hpair hfold => ?_⟩
  rw [hpairs] at hpair hsorted
  rcases List.mem_append.mp hpair with hpair | hpair
  · exact le_of_lt ((List.pairwise_append.mp hsorted).2.2 pair hpair _ List.mem_cons_self)
  · rcases List.mem_cons.mp hpair with rfl | hpair
    · exact le_refl _
    · -- a pair behind the last one that folds alike folds differently
      have hnot := hbehind pair (List.mem_reverse.mp hpair)
      rw [decide_eq_true hfold] at hnot
      exact nomatch hnot

end Bindings

end Formula
