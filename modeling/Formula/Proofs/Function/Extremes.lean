import Formula.Function.Call
import Formula.Proofs.Evaluation.Order

/-!
# The greatest and the least of several values

The search for an extreme value keeps the one that is furthest so far, and compares each that follows
with it. Which values it refuses is decided by the domain of the first one: all that are kept are of
that domain (`extremeOf_cases`).

Where the values have `Ranks` in a linear order, the one that is kept is the first of the highest rank
among those seen (`Leads`). A step keeps that so (`Leads.step`), and the rank that the search ends with
does not depend on the order in which the values come (`Leads.rank_eq_of_perm`). For the least value
the ranks are turned around.
-/

namespace Formula

/-- The kinds of values that are compared as the numbers, texts, truth values or times that they
are: no conversion comes between them. -/
def Kind.exactDomains : List (List Kind) := [[integer, decimal], [string], [boolean], [dateTime]]

namespace Value

variable {a b : Value} {p q : ℚ}

/-- Integers and decimals are compared where they lie. -/
theorem compare?_of_ne_double (ha : a.LiesAt p) (hb : b.LiesAt q) (hkind : a.kind ≠ .double)
    (hkind' : b.kind ≠ .double) : compare? a b = some (some (cmp p q)) := by
  cases ha with
  | integer m =>
    cases hb with
    | integer n => exact compare?_integers m n
    | decimal d =>
      rw [← value_ofInteger]
      exact compare?_decimals (.ofInteger m) d
    | double hy => exact absurd rfl hkind'
  | decimal d =>
    cases hb with
    | integer n =>
      rw [← value_ofInteger]
      exact compare?_decimals d (.ofInteger n)
    | decimal e => exact compare?_decimals d e
    | double hy => exact absurd rfl hkind'
  | double hx => exact absurd rfl hkind

/-! ## Ranks -/

/-- Whether values are compared as their ranks are. -/
def Ranks {α : Type} [LinearOrder α] (rank : Value → α) (args : List Value) : Prop :=
  ∀ v ∈ args, ∀ w ∈ args, compare? v w = some (some (cmp (rank v) (rank w)))

/-- Values have ranks if each has a key by which all of them are compared. -/
theorem exists_ranks {α : Type} [LinearOrder α] [Nonempty α] {args : List Value}
    (key : Value → α → Prop) (hkey : ∀ v ∈ args, ∃ s, key v s)
    (hcompare : ∀ v s w t, key v s → key w t → compare? v w = some (some (cmp s t))) :
    ∃ rank : Value → α, Ranks rank args := by
  choose! rank hrank using hkey
  exact ⟨rank, fun v hv w hw => hcompare v _ w _ (hrank v hv) (hrank w hw)⟩

/-- The values of an exact domain have ranks. -/
theorem exists_ranks_of_kinds {args : List Value} {kinds : List Kind}
    (hkinds : kinds ∈ Kind.exactDomains) (h : ∀ v ∈ args, v.kind ∈ kinds) :
    ∃ (α : Type) (_ : LinearOrder α) (rank : Value → α), Ranks rank args := by
  simp only [Kind.exactDomains, List.mem_cons, List.not_mem_nil, or_false] at hkinds
  rcases hkinds with rfl | rfl | rfl | rfl
  · refine ⟨ℚ, inferInstance, exists_ranks (fun v p => v.LiesAt p ∧ v.kind ≠ .double) ?_ ?_⟩
    · intro v hv
      cases v with
      | integer n => exact ⟨_, .integer n, nofun⟩
      | decimal d => exact ⟨_, .decimal d, nofun⟩
      | _ => exact absurd (h _ hv) (by simp [kind])
    · intro v p w q hv hw
      exact compare?_of_ne_double hv.1 hw.1 hv.2 hw.2
  · refine ⟨String, inferInstance, exists_ranks (fun v s => v = .string s) ?_ ?_⟩
    · intro v hv
      cases v with
      | string s => exact ⟨s, rfl⟩
      | _ => exact absurd (h _ hv) (by simp [kind])
    · rintro _ s _ t rfl rfl
      exact compare?_strings s t
  · refine ⟨Bool, inferInstance, exists_ranks (fun v s => v = .boolean s) ?_ ?_⟩
    · intro v hv
      cases v with
      | boolean s => exact ⟨s, rfl⟩
      | _ => exact absurd (h _ hv) (by simp [kind])
    · rintro _ s _ t rfl rfl
      exact compare?_booleans s t
  · refine ⟨_, inferInstance, exists_ranks (fun v s => ∃ t, v = .dateTime t ∧ s = t.fields) ?_ ?_⟩
    · intro v hv
      cases v with
      | dateTime t => exact ⟨_, t, rfl, rfl⟩
      | _ => exact absurd (h _ hv) (by simp [kind])
    · rintro _ _ _ _ ⟨s, rfl, rfl⟩ ⟨t, rfl, rfl⟩
      exact compare?_dateTimes s t

end Value

namespace Function

open Value (Ranks compare? mismatch relate_eq_ok)

variable {f : Function} {op : BinaryOp} {best v : Value} {args seen rest : List Value}

/-- The comparison by which a function looks for an extreme value. -/
inductive Seeks : Function → BinaryOp → Prop where
  | max : Seeks .max .greaterThan
  | min : Seeks .min .lessThan

/-- What an extreme is sought by is a comparison. -/
theorem Seeks.mem_comparisons (h : f.Seeks op) : op ∈ BinaryOp.comparisons := by
  cases h <;> decide

/-- The function starts with its first argument and goes through the others. -/
theorem Seeks.call_cons (h : f.Seeks op) (first : Value) (rest : List Value) :
    f.call (first :: rest) = extremeOf op first rest := by
  have hcount : 1 ≤ (first :: rest).length := Nat.le_add_left 1 rest.length
  cases h with
  | max => exact call_of_atLeast rfl hcount
  | min => exact call_of_atLeast rfl hcount

/-! ## One step of the search -/

/-- A value takes the place of the best one exactly if the comparison holds. -/
theorem extremeOf_cons_of_some {order : Option Ordering} (h : compare? v best = some order) :
    extremeOf op best (v :: rest) = extremeOf op (if op.holds order then v else best) rest := by
  simp only [extremeOf, List.foldlM_cons, Value.compare, h]
  rfl

/-- A value that cannot be compared with the best one ends the search. -/
theorem extremeOf_cons_of_none (h : compare? v best = none) :
    extremeOf op best (v :: rest) = .error (mismatch op v best) := by
  simp only [extremeOf, List.foldlM_cons, Value.compare, h]
  rfl

/-- The search finds a value if all that follow the first one can be compared with it, and otherwise
ends at one that cannot. -/
theorem extremeOf_cases (op : BinaryOp) (best : Value) (rest : List Value) :
    ((∀ v ∈ rest, best.kind.comparable v.kind = true) ∧ ∃ last, extremeOf op best rest = .ok last) ∨
      ∃ v ∈ rest, best.kind.comparable v.kind = false ∧
        ∃ w ∈ best :: rest, extremeOf op best rest = .error (mismatch op v w) := by
  induction rest generalizing best with
  | nil => exact .inl ⟨List.forall_mem_nil _, best, rfl⟩
  | cons v rest ih =>
    cases h : compare? v best with
    | none =>
      have hkind := (Kind.comparable_symm _ _).trans (Value.compare?_eq_none_iff.mp h)
      exact .inr ⟨v, List.mem_cons_self, hkind, best, List.mem_cons_self, extremeOf_cons_of_none h⟩
    | some order =>
      have hkind : best.kind.comparable v.kind = true := by
        rw [Kind.comparable_symm, ← Bool.not_eq_false, ← Value.compare?_eq_none_iff, h]
        exact nofun
      rw [extremeOf_cons_of_some h]
      -- whichever of the two is kept, it is one of them, and the same values can be compared with it
      obtain ⟨next, hnext⟩ : ∃ next, next = if op.holds order then v else best := ⟨_, rfl⟩
      have hmem : next ∈ [best, v] := by
        rw [hnext]
        split <;> simp
      have hcongr (w : Value) : next.kind.comparable w.kind = best.kind.comparable w.kind := by
        rw [hnext]
        split
        · exact (Kind.comparable_congr hkind w.kind).symm
        · rfl
      rw [← hnext]
      rcases ih next with ⟨hall, hlast⟩ | ⟨w, hw, hapart, u, hu, hlast⟩
      · exact .inl ⟨List.forall_mem_cons.mpr ⟨hkind, fun w hw => (hcongr w).symm.trans (hall w hw)⟩,
          hlast⟩
      · refine .inr ⟨w, List.mem_cons_of_mem v hw, (hcongr w).symm.trans hapart, u, ?_, hlast⟩
        have hsub : next :: rest ⊆ best :: v :: rest :=
          List.cons_subset.mpr ⟨List.mem_append_left rest hmem, fun w hw => by simp [hw]⟩
        exact hsub hu

/-! ## The value that is kept -/

section

variable {α : Type} [LinearOrder α] {rank : Value → α}

/-- Whether a value is the first of the highest rank among several. -/
def Leads (rank : Value → α) (args : List Value) (best : Value) : Prop :=
  ∃ before after, args = before ++ best :: after ∧
    (∀ v ∈ before, rank v < rank best) ∧ ∀ v ∈ after, rank v ≤ rank best

/-- A value leads itself. -/
theorem Leads.singleton (v : Value) : Leads rank [v] v :=
  ⟨[], [], rfl, List.forall_mem_nil _, List.forall_mem_nil _⟩

/-- The leading value is one of them. -/
theorem Leads.mem (h : Leads rank args best) : best ∈ args := by
  obtain ⟨before, after, rfl, -, -⟩ := h
  exact List.mem_append_right before List.mem_cons_self

/-- No value has a higher rank than the leading one. -/
theorem Leads.rank_le (h : Leads rank args best) (hv : v ∈ args) : rank v ≤ rank best := by
  obtain ⟨before, after, rfl, hbefore, hafter⟩ := h
  rcases List.mem_append.mp hv with hv | hv
  · exact (hbefore v hv).le
  · rcases List.mem_cons.mp hv with rfl | hv
    · exact le_rfl
    · exact hafter v hv

/-- Only a value of a higher rank takes the place of the one that is kept. -/
theorem Leads.step (h : Leads rank seen best) (v : Value) :
    Leads rank (seen ++ [v]) (if rank best < rank v then v else best) := by
  split
  · next hlt =>
    exact ⟨seen, [], rfl, fun w hw => (h.rank_le hw).trans_lt hlt, List.forall_mem_nil _⟩
  · next hle =>
    obtain ⟨before, after, rfl, hbefore, hafter⟩ := h
    refine ⟨before, after ++ [v], by simp, hbefore, ?_⟩
    rw [List.forall_mem_append, List.forall_mem_singleton]
    exact ⟨hafter, not_lt.mp hle⟩

/-- The rank of the value that is kept depends on the values alone, not on their order. -/
theorem Leads.rank_eq_of_perm {args' : List Value} {best' : Value} (h : Leads rank args best)
    (h' : Leads rank args' best') (hperm : args.Perm args') : rank best = rank best' :=
  le_antisymm (h'.rank_le (hperm.mem_iff.mp h.mem)) (h.rank_le (hperm.mem_iff.mpr h'.mem))

/-- Whether a comparison holds of values if the first is of the higher rank, and values compare as
equal if they are of one rank. -/
def Ascends (op : BinaryOp) (rank : Value → α) (args : List Value) : Prop :=
  ∀ v ∈ args, ∀ w ∈ args, ∃ order, compare? v w = some order ∧
    op.holds order = decide (rank w < rank v) ∧
    BinaryOp.equal.holds order = decide (rank v = rank w)

/-- The operator tells which of two values has the higher rank. -/
theorem Ascends.apply (h : Ascends op rank args) (hop : op ∈ BinaryOp.comparisons) (hv : v ∈ args)
    {w : Value} (hw : w ∈ args) : op.apply v w = .ok (.boolean (rank w < rank v)) := by
  obtain ⟨order, hcompare, hholds, -⟩ := h v hv w hw
  rw [Value.apply_of_mem_comparisons hop, relate_eq_ok hcompare, hholds]

/-- Values are equal exactly if they have the same rank. -/
theorem Ascends.equal_apply (h : Ascends op rank args) (hv : v ∈ args) {w : Value} (hw : w ∈ args) :
    BinaryOp.equal.apply v w = .ok (.boolean (rank v = rank w)) := by
  obtain ⟨order, hcompare, -, hequal⟩ := h v hv w hw
  exact (relate_eq_ok hcompare .equal).trans (by rw [hequal])

/-- The search ends with the value that leads, whatever has been seen before. -/
theorem Ascends.extremeOf (h : Ascends op rank (seen ++ rest)) (hbest : Leads rank seen best) :
    ∃ last, extremeOf op best rest = .ok last ∧ Leads rank (seen ++ rest) last := by
  induction rest generalizing seen best with
  | nil => exact ⟨best, rfl, by rwa [List.append_nil]⟩
  | cons v rest ih =>
    obtain ⟨order, hcompare, hholds, -⟩ := h v (List.mem_append_right seen List.mem_cons_self) best
      (List.mem_append_left _ hbest.mem)
    rw [extremeOf_cons_of_some hcompare, hholds]
    simp only [decide_eq_true_eq]
    rw [List.append_cons] at h ⊢
    exact ih h (hbest.step v)

/-- The function returns the leading value. -/
theorem Ascends.call (h : Ascends op rank args) (hf : f.Seeks op) (hargs : args ≠ []) :
    ∃ last, f.call args = .ok last ∧ Leads rank args last := by
  obtain ⟨first, rest, rfl⟩ := List.exists_cons_of_ne_nil hargs
  rw [hf.call_cons]
  have hseen : Ascends op rank ([first] ++ rest) := h
  exact hseen.extremeOf (.singleton first)

end

/-- Values that have ranks ascend in them or, if the least value is looked for, in the opposite
direction. -/
theorem Seeks.exists_ascends (h : f.Seeks op) {α : Type} [LinearOrder α] {rank : Value → α}
    (hranks : Ranks rank args) :
    ∃ (β : Type) (_ : LinearOrder β) (rank : Value → β), Ascends op rank args := by
  cases h with
  | max =>
    exact ⟨α, inferInstance, rank, fun v hv w hw => ⟨_, hranks v hv w hw,
      BinaryOp.greaterThan_holds_cmp _ _, BinaryOp.equal_holds_cmp _ _⟩⟩
  | min =>
    exact ⟨αᵒᵈ, inferInstance, rank, fun v hv w hw => ⟨_, hranks v hv w hw,
      BinaryOp.lessThan_holds_cmp _ _, BinaryOp.equal_holds_cmp _ _⟩⟩

/-- Whether a value is the first of several that no other one is beyond. -/
def IsFirstExtreme (op : BinaryOp) (args : List Value) (best : Value) : Prop :=
  ∃ before after, args = before ++ best :: after ∧
    (∀ w ∈ args, op.apply w best = .ok (.boolean false)) ∧
    ∀ v ∈ before, ∃ w ∈ args, op.apply w v = .ok (.boolean true)

/-- The leading value is the first extreme one. -/
theorem Leads.isFirstExtreme {α : Type} [LinearOrder α] {rank : Value → α}
    (h : Leads rank args best) (hargs : Ascends op rank args) (hop : op ∈ BinaryOp.comparisons) :
    IsFirstExtreme op args best := by
  have hmem := h.mem
  have hnone (w : Value) (hw : w ∈ args) : op.apply w best = .ok (.boolean false) := by
    rw [hargs.apply hop hw hmem, decide_eq_false (not_lt.mpr (h.rank_le hw))]
  obtain ⟨before, after, hsplit, hbefore, -⟩ := h
  refine ⟨before, after, hsplit, hnone, fun v hv => ⟨best, hmem, ?_⟩⟩
  have hv' : v ∈ args := hsplit ▸ List.mem_append_left _ hv
  rw [hargs.apply hop hmem hv', decide_eq_true (hbefore v hv)]

/-- The greatest and the least of several values. The search fails exactly if an argument after the
first one cannot be compared with it, and then says which one could not be compared with an earlier
one. For arguments of an exact domain it returns one of them as it is: the first that no other one is
beyond. In another order the arguments yield an equal value. -/
theorem call_extreme (h : f.Seeks op) (first : Value) (rest : List Value) :
    ((∃ e, f.call (first :: rest) = .error e) ↔
      ∃ v ∈ rest, first.kind.comparable v.kind = false) ∧
    (∀ e, f.call (first :: rest) = .error e →
      ∃ v ∈ rest, first.kind.comparable v.kind = false ∧
        ∃ w ∈ first :: rest, e = .typeMismatch op.symbol v.kind w.kind) ∧
    ∀ kinds ∈ Kind.exactDomains, (∀ v ∈ first :: rest, v.kind ∈ kinds) →
      ∃ best, f.call (first :: rest) = .ok best ∧ IsFirstExtreme op (first :: rest) best ∧
        ∀ args : List Value, args.Perm (first :: rest) →
          ∃ other, f.call args = .ok other ∧
            BinaryOp.equal.apply other best = .ok (.boolean true) := by
  have hcall := h.call_cons first rest
  refine ⟨?_, ?_, ?_⟩
  · rw [hcall]
    rcases extremeOf_cases op first rest with ⟨hall, last, hlast⟩ | ⟨v, hv, hapart, w, -, hlast⟩
    · refine iff_of_false ?_ ?_
      · rintro ⟨e, he⟩
        exact nomatch hlast.symm.trans he
      · rintro ⟨v, hv, hapart⟩
        exact nomatch (hall v hv).symm.trans hapart
    · exact iff_of_true ⟨_, hlast⟩ ⟨v, hv, hapart⟩
  · intro e he
    rw [hcall] at he
    rcases extremeOf_cases op first rest with ⟨-, last, hlast⟩ | ⟨v, hv, hapart, w, hw, hlast⟩
    · exact nomatch hlast.symm.trans he
    · exact ⟨v, hv, hapart, w, hw, Except.error.inj (he.symm.trans hlast)⟩
  · intro kinds hkinds hargs
    obtain ⟨α, _, _, hranks⟩ := Value.exists_ranks_of_kinds hkinds hargs
    obtain ⟨β, _, rank, hascends⟩ := h.exists_ascends hranks
    obtain ⟨best, hbest, hleads⟩ := hascends.call h (List.cons_ne_nil first rest)
    refine ⟨best, hbest, hleads.isFirstExtreme hascends h.mem_comparisons, fun args hperm => ?_⟩
    have hascends' : Ascends op rank args := fun v hv w hw =>
      hascends v (hperm.mem_iff.mp hv) w (hperm.mem_iff.mp hw)
    have hargs' : args ≠ [] := fun hnil =>
      List.cons_ne_nil first rest (hperm.symm.trans (.of_eq hnil)).eq_nil
    obtain ⟨other, hother, hleads'⟩ := hascends'.call h hargs'
    refine ⟨other, hother, ?_⟩
    rw [hascends.equal_apply (hperm.mem_iff.mp hleads'.mem) hleads.mem,
      decide_eq_true (hleads'.rank_eq_of_perm hleads hperm)]

/-- Of 1, 1.50 and 1.5 the greatest is 1.50, and in the opposite order it is 1.5. -/
theorem max_of_equal_decimals :
    Seeks .max .greaterThan ∧
    max.call [.integer 1, .decimal ⟨false, 150, 2, by decide, by decide⟩,
      .decimal ⟨false, 15, 1, by decide, by decide⟩] =
        .ok (.decimal ⟨false, 150, 2, by decide, by decide⟩) ∧
    max.call [.decimal ⟨false, 15, 1, by decide, by decide⟩,
      .decimal ⟨false, 150, 2, by decide, by decide⟩, .integer 1] =
        .ok (.decimal ⟨false, 15, 1, by decide, by decide⟩) ∧
    BinaryOp.equal.apply (.decimal ⟨false, 15, 1, by decide, by decide⟩)
      (.decimal ⟨false, 150, 2, by decide, by decide⟩) = .ok (.boolean true) := by
  obtain ⟨-, -, hexact⟩ := call_extreme .max (.integer 1)
    [.decimal ⟨false, 150, 2, by decide, by decide⟩, .decimal ⟨false, 15, 1, by decide, by decide⟩]
  obtain ⟨best, hbest, -, hperm⟩ := hexact [.integer, .decimal] (by decide) (by decide)
  obtain ⟨other, hother, hequal⟩ := hperm _ (List.reverse_perm _)
  obtain rfl : best = .decimal ⟨false, 150, 2, by decide, by decide⟩ :=
    (Except.ok.inj hbest).symm
  obtain rfl : other = .decimal ⟨false, 15, 1, by decide, by decide⟩ :=
    (Except.ok.inj hother).symm
  exact ⟨.max, hbest, hother, hequal⟩

end Function

end Formula
