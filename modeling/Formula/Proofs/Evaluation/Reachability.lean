import Formula.Expression
import Formula.Proofs.Bindings.Insertion
import Formula.Proofs.Evaluation.Within
import Formula.Proofs.Tree.Nodes

/-!
# What an evaluation depends on

An evaluation looks up the variables of its tree, and those of the expressions that it enters on the
way. `Bindings.Reaches` is the least set of folded names that has all of these: it starts from the
variables of the tree and is closed under entering expressions, cyclic ones included. No other name
counts for anything (`evaluate_eq_of_agree`).

The proof follows the levels of an evaluation. What is carried along is that all variables of the
tree have their names in a set that is closed in this way; that the set is the least one is only used
for names outside of it.
-/

namespace Formula

/-- Whether two values cannot be told apart by an evaluation that looks them up: of an expression
only its tree counts. -/
inductive Value.Alike : Value → Value → Prop where
  | same (v : Value) : Alike v v
  | expressions {e e' : Expression} (h : e.tree = e'.tree) : Alike (.expression e) (.expression e')

namespace Bindings

/-- Whether a folded name is unbound on both sides, or bound to values that are alike. -/
def AgreeAt (bindings other : Bindings) (key : String) : Prop :=
  Option.Rel Value.Alike (bindings.values.get? key) (other.values.get? key)

/-- The folded names that an evaluation of a tree can look up. -/
inductive Reaches (bindings : Bindings) (tree : Tree) : String → Prop where
  /-- The variables of the tree are looked up. -/
  | mentioned {name : String} (h : tree.Contains (.reference name)) :
      Reaches bindings tree (fold name)
  /-- The variables of an expression are looked up if the name it is bound to is. -/
  | entered {key name : String} {e : Expression} (h : Reaches bindings tree key)
      (hbound : bindings.values.get? key = some (.expression e))
      (hmentioned : e.tree.Contains (.reference name)) : Reaches bindings tree (fold name)

/-- Whether a set of folded names has all names of expressions that are bound to names of the set. -/
def Closed (bindings : Bindings) (names : Set String) : Prop :=
  ∀ key ∈ names, ∀ e, bindings.values.get? key = some (.expression e) →
    ∀ name, e.tree.Contains (.reference name) → fold name ∈ names

variable {bindings other : Bindings} {key : String}

/-- The keys that a tree reaches are closed under what is bound to them. -/
theorem closed_reaches (bindings : Bindings) (tree : Tree) :
    bindings.Closed {key | bindings.Reaches tree key} :=
  fun _ hkey _ hbound _ hmentioned => .entered hkey hbound hmentioned

/-- No closed set with the names of the tree is smaller. -/
theorem Reaches.mem_of_closed {tree : Tree} {names : Set String} (h : bindings.Reaches tree key)
    (hclosed : bindings.Closed names)
    (htree : ∀ name, tree.Contains (.reference name) → fold name ∈ names) : key ∈ names := by
  induction h with
  | mentioned h => exact htree _ h
  | entered _ hbound hmentioned ih => exact hclosed _ ih _ hbound _ hmentioned

/-- Bindings with the same value at a key agree there. -/
theorem AgreeAt.of_eq (h : other.values.get? key = bindings.values.get? key) :
    bindings.AgreeAt other key := by
  unfold AgreeAt
  rw [h]
  cases bindings.values.get? key with
  | none => exact .none
  | some v => exact .some (.same v)

/-- Of the names that are bound, only the folded forms count. -/
theorem insertMany_congr (bindings : Bindings) {pairs pairs' : List (String × Value)}
    (h : pairs.map (fun pair => (fold pair.1, pair.2)) =
      pairs'.map (fun pair => (fold pair.1, pair.2))) :
    bindings.insertMany pairs = bindings.insertMany pairs' := by
  induction pairs generalizing bindings pairs' with
  | nil => rw [List.map_eq_nil_iff.mp h.symm]
  | cons pair rest ih =>
    obtain ⟨pair', rest', rfl, hpair, hrest⟩ := List.map_eq_cons_iff.mp h.symm
    obtain ⟨hname, hvalue⟩ : fold pair'.1 = fold pair.1 ∧ pair'.2 = pair.2 := Prod.ext_iff.mp hpair
    have hfirst : bindings.insert pair.1 pair.2 = bindings.insert pair'.1 pair'.2 := by
      unfold insert
      rw [hname, hvalue]
    show (bindings.insert pair.1 pair.2).insertMany rest =
      (bindings.insert pair'.1 pair'.2).insertMany rest'
    rw [hfirst]
    exact ih _ hrest.symm

/-- Erasing a key leaves all the others. -/
theorem values_get?_erase (bindings : Bindings) (erased key : String) :
    (bindings.values.erase erased).get? key =
      if erased = key then none else bindings.values.get? key := by
  simp [Std.TreeMap.getElem?_erase]

end Bindings

/-! ## Two evaluations side by side -/

/-- Steps that are the same on all parts are the same on the list. -/
theorem mapM_congr {α β : Type} {step step' : α → Except EvalError β} {parts : List α}
    (h : ∀ part ∈ parts, step part = step' part) : parts.mapM step = parts.mapM step' := by
  induction parts with
  | nil => rfl
  | cons part rest ih =>
    rw [List.mapM_cons, List.mapM_cons, h part List.mem_cons_self,
      ih fun other hother => h other (List.mem_cons_of_mem part hother)]

variable {bindings other : Bindings} {tree : Tree}

/-- A node comes to the same on both sides if the variable that it is agrees, and the trees below it
and those of expressions come to the same. -/
theorem Tree.nodeValue_congr {inner inner' : Tree → Except EvalError Value}
    {enter enter' : String → Tree → Except EvalError Value}
    (hname : ∀ name, tree = .reference name → bindings.AgreeAt other (Bindings.fold name))
    (hparts : ∀ part ∈ tree.parts, inner part = inner' part)
    (henter : ∀ name e, tree = .reference name → bindings.get? name = some (.expression e) →
      enter name e.tree = enter' name e.tree) :
    tree.nodeValue bindings inner enter = tree.nodeValue other inner' enter' := by
  cases tree with
  | literal value => rfl
  | reference name =>
    have hagree : Option.Rel Value.Alike (bindings.get? name) (other.get? name) := hname name rfl
    generalize hbound : bindings.get? name = bound at hagree
    generalize hother : other.get? name = bound' at hagree
    cases hagree with
    | none => simp only [nodeValue, hbound, hother]
    | @some v v' halike =>
      cases halike with
      | same =>
        cases v with
        | expression e => simp only [nodeValue, hbound, hother, henter name e rfl hbound]
        | _ => simp only [nodeValue, hbound, hother]
      | @expressions e e' htree =>
        simp only [nodeValue, hbound, hother, ← htree, henter name e rfl hbound]
  | unary op operand =>
    have hoperand := hparts operand List.mem_cons_self
    simp only [nodeValue, hoperand]
  | binary op left right =>
    have hleft := hparts left List.mem_cons_self
    have hright := hparts right (List.mem_cons_of_mem _ List.mem_cons_self)
    cases op <;> simp only [nodeValue, truth, hleft, hright]
  | call f arguments =>
    have harguments : arguments.mapM inner = arguments.mapM inner' := mapM_congr hparts
    simp only [nodeValue, harguments]

/-- Where two sets of variables agree on a closed set of names, trees with names of the set come to
the same. -/
theorem Tree.within_congr {names : Set String} (hclosed : bindings.Closed names)
    (hagree : ∀ key ∈ names, bindings.AgreeAt other key)
    (htree : ∀ name, tree.Contains (.reference name) → Bindings.fold name ∈ names)
    (levels nesting : Nat) :
    tree.within bindings levels nesting = tree.within other levels nesting := by
  induction levels generalizing tree nesting with
  | zero => rfl
  | succ levels ih =>
    apply Tree.nodeValue_congr
    · rintro name rfl
      exact hagree _ (htree name (.self _))
    · intro part hpart
      exact ih (fun name hname => htree name (.inside hpart hname)) nesting
    · rintro name e rfl hbound
      by_cases hdeep : nesting ≥ maxNesting
      · rw [if_pos hdeep, if_pos hdeep]
      · -- the names of the expression are in the set because its own name is
        rw [if_neg hdeep, if_neg hdeep]
        exact ih (hclosed _ (htree name (.self _)) e hbound) (nesting + 1)

/-- A tree is evaluated alike where the bindings agree on what it reaches. -/
theorem Tree.evaluate_congr (h : ∀ key, bindings.Reaches tree key → bindings.AgreeAt other key) :
    tree.evaluate other = tree.evaluate bindings := by
  rw [evaluate_eq_within, evaluate_eq_within]
  exact (within_congr (bindings.closed_reaches tree) h (fun _ => .mentioned)
    maxEvaluationDepth 0).symm

/-- Variables that have the same value for each name have the same outcome. -/
theorem Expression.evaluate_congr {formula : Expression}
    (h : ∀ name, bindings.get? name = other.get? name) :
    formula.evaluate bindings = formula.evaluate other := by
  unfold Expression.evaluate
  congr 1
  apply Tree.evaluate_congr
  intro key hkey
  apply Bindings.AgreeAt.of_eq
  cases hkey with
  | mentioned => exact h _
  | entered => exact h _

/-- An evaluation depends on the names that it can reach, and on nothing else: any variables that
agree on these have the same outcome. So it counts for nothing whether another name is bound, bound
anew or removed, and in which letter case names are bound. -/
theorem evaluate_eq_of_agree (tree : Tree) (bindings : Bindings) :
    (∀ other : Bindings, (∀ key, bindings.Reaches tree key → bindings.AgreeAt other key) →
      tree.evaluate other = tree.evaluate bindings) ∧
    (∀ name value, ¬ bindings.Reaches tree (Bindings.fold name) →
      tree.evaluate (bindings.insert name value) = tree.evaluate bindings) ∧
    (∀ key, ¬ bindings.Reaches tree key →
      tree.evaluate ⟨bindings.values.erase key⟩ = tree.evaluate bindings) ∧
    ∀ pairs pairs' : List (String × Value),
      pairs.map (fun pair => (Bindings.fold pair.1, pair.2)) =
        pairs'.map (fun pair => (Bindings.fold pair.1, pair.2)) →
      tree.evaluate (bindings.insertMany pairs) = tree.evaluate (bindings.insertMany pairs') := by
  refine ⟨fun other h => Tree.evaluate_congr h, ?_, ?_, ?_⟩
  · intro name value hname
    apply Tree.evaluate_congr
    intro key hkey
    apply Bindings.AgreeAt.of_eq
    rw [Bindings.values_get?_insert, if_neg]
    rintro rfl
    exact hname hkey
  · intro erased herased
    apply Tree.evaluate_congr
    intro key hkey
    apply Bindings.AgreeAt.of_eq
    rw [Bindings.values_get?_erase, if_neg]
    rintro rfl
    exact herased hkey
  · intro pairs pairs' hfold
    rw [bindings.insertMany_congr hfold]

/-- The formula `[A]`, where `a` stands for the formula `![A]` that leads back to itself: it is read
from another source on the other side, and another name is bound there. -/
theorem evaluate_eq_of_agree_cyclic :
    let part := Tree.unary .not (.reference "A")
    let bindings := Bindings.empty.insert "a" (.expression (.mk "![A]" part 0))
    let other := (Bindings.empty.insert "A" (.expression (.mk "not [A]" part 1))).insert "c"
      (.integer 1)
    (∀ key, bindings.Reaches (.reference "A") key → bindings.AgreeAt other key) ∧
      (Tree.reference "A").evaluate other = (Tree.reference "A").evaluate bindings := by
  intro part bindings other
  have ha : Bindings.fold "A" = Bindings.fold "a" := by decide +kernel
  have hc : Bindings.fold "c" ≠ Bindings.fold "a" := by decide +kernel
  have hleaf : ∀ name, (Tree.reference "A").Contains (.reference name) →
      Bindings.fold name ∈ ({Bindings.fold "a"} : Set String) := by
    intro name h
    cases h with
    | self => exact ha
    | inside hmem _ => exact nomatch hmem
  have hclosed : bindings.Closed {Bindings.fold "a"} := by
    intro key _ e hbound name h
    rw [Bindings.values_get?_insert] at hbound
    split at hbound
    · cases hbound
      have h : (Tree.unary .not (.reference "A")).Contains (.reference name) := h
      cases h with
      | inside hmem h => exact hleaf name (List.mem_singleton.mp hmem ▸ h)
    · exact nomatch hbound.symm.trans Std.TreeMap.getElem?_emptyc
  have hagree : ∀ key, bindings.Reaches (.reference "A") key → bindings.AgreeAt other key := by
    intro key h
    have hkey : key = Bindings.fold "a" := h.mem_of_closed hclosed hleaf
    unfold Bindings.AgreeAt
    rw [Bindings.values_get?_insert, Bindings.values_get?_insert, Bindings.values_get?_insert, ha,
      hkey, if_pos rfl, if_neg hc, if_pos rfl]
    exact .some (.expressions rfl)
  exact ⟨hagree, (evaluate_eq_of_agree (.reference "A") bindings).1 other hagree⟩

end Formula
