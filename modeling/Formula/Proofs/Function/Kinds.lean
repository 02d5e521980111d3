import Formula.Proofs.Evaluation.Kinds

/-!
# Kinds of results of functions

What `Formula.Proofs.Evaluation.Kinds` does for the operators, for the functions. `Function.kinds`
has the kinds of results over arguments of which each is of a kind of a set, `Function.accepts` says
whether arguments of the given kinds are accepted, and `Function.meets_call` ties both to the calls.

Where the kinds are looked at one after the other, as in a sum or by a maximum, the invariant of the
fold says what is known of the value gathered so far and of the arguments that are left.
-/

namespace Formula

namespace Function

/-! ## Tables -/

/-- The kinds of results over arguments of one of the given kinds each. -/
def kinds (f : Function) (arguments : List (Finset Kind)) : Finset Kind :=
  match f with
  | abs | ceiling | floor | truncate | round => arguments.headD ∅
  | sum => arguments.foldl (Kind.pairwise Kind.summed) {.integer}
  | max | min => arguments.foldr (· ∪ ·) ∅
  | sign | count | length => {.integer}
  | oneOf | contains | startsWith | endsWith => {.boolean}
  | concat | substring => {.string}
  | acos | asin | atan | average | cos | exp | log | log10 | pow | sin | sqrt | tan => {.double}

/-- Whether arguments of the given kinds are accepted together. -/
def accepts (f : Function) (arguments : List Kind) : Bool :=
  match f with
  | abs | ceiling | floor | truncate | sign | acos | asin | atan | average | cos | exp | log | log10
  | pow | sin | sqrt | sum | tan => arguments.all Kind.isNumeric
  | round => arguments.head?.all Kind.isNumeric && arguments.tail.all (· = .integer)
  | max | min => arguments.Pairwise fun left right => left.comparable right = true
  | length | contains | startsWith | endsWith => arguments.all (· = .string)
  | substring => arguments.head?.all (· = .string) && arguments.tail.all (· = .integer)
  | count | concat | oneOf => true

/-! ## Arguments -/

/-- An argument that has to be a number is refused for its kind. -/
theorem meets_number (f : Function) (v : Value) :
    Meets (fun _ => True) (·.OfOperation v.kind.isNumeric) (f.number v) := by
  cases v <;> first | exact trivial | exact .inr ⟨rfl, rfl⟩

/-- An argument that has to be a string is refused for its kind. -/
theorem meets_chars (f : Function) (v : Value) :
    Meets (fun _ => True) (·.OfOperation (v.kind = .string)) (f.chars v) := by
  cases v <;> first | exact trivial | exact .inr ⟨rfl, rfl⟩

/-- A number of places that is no integer is refused for its kind. -/
theorem meets_placesOf (v : Value) :
    Meets (fun _ => True) (·.OfOperation (v.kind = .integer)) (placesOf v) := by
  cases v with
  | integer n =>
    simp only [placesOf]
    split
    · exact trivial
    · exact .inl rfl
  | _ => exact .inr ⟨rfl, rfl⟩

/-! ## Functions of one number -/

section

variable {kinds : Finset Kind} {v : Value}

/-- An absolute value is of the kind of the number. -/
theorem meets_absOf (h : v.kind ∈ kinds) :
    Meets (·.kind ∈ kinds) (·.OfOperation v.kind.isNumeric) (absOf v) := by
  cases v with
  | integer n => exact Value.meets_orOverflow _ h fun _ => rfl
  | decimal d => exact h
  | double x => exact h
  | _ => exact .inr ⟨rfl, rfl⟩

/-- A whole number next to a number is of its kind. -/
theorem meets_wholeOf (f : Function) (decimal : Decimal → Decimal) (double : Double → Double)
    (h : v.kind ∈ kinds) :
    Meets (·.kind ∈ kinds) (·.OfOperation v.kind.isNumeric) (f.wholeOf decimal double v) := by
  cases v with
  | integer n => exact h
  | decimal d => exact h
  | double x => exact h
  | _ => exact .inr ⟨rfl, rfl⟩

/-- A rounded number is of the kind of the number. -/
theorem meets_roundOf {places : Value} (h : v.kind ∈ kinds) :
    Meets (·.kind ∈ kinds) (·.OfOperation (round.accepts [v.kind, places.kind]))
      (roundOf v places) := by
  have haccepted : round.accepts [v.kind, places.kind] = true →
      v.kind.isNumeric = true ∧ decide (places.kind = .integer) = true := by
    simp [accepts]
  apply ((meets_placesOf places).weaken fun h => (haccepted h).2).bind
  intro n _
  exact (meets_wholeOf round _ _ h).weaken fun h => (haccepted h).1

end

/-- A sign is an integer. -/
theorem meets_signOf (v : Value) :
    Meets (·.kind ∈ ({.integer} : Finset Kind)) (·.OfOperation v.kind.isNumeric) (signOf v) := by
  cases v with
  | integer n => exact Finset.mem_singleton_self _
  | decimal d => exact Finset.mem_singleton_self _
  | double x =>
    simp only [signOf]
    split
    · exact .inl rfl
    · exact Finset.mem_singleton_self _
  | _ => exact .inr ⟨rfl, rfl⟩

/-- What is computed with doubles is a double. -/
theorem meets_overDoubles (f : Function) (compute : Double → Double) (v : Value) :
    Meets (·.kind ∈ ({.double} : Finset Kind)) (·.OfOperation v.kind.isNumeric)
      (f.overDoubles compute v) :=
  (f.meets_number v).map fun _ _ => Finset.mem_singleton_self _

/-- So is what is only defined for some of them. -/
theorem meets_within (f : Function) (inside : Double → Bool) (compute : Double → Double)
    (v : Value) :
    Meets (·.kind ∈ ({.double} : Finset Kind)) (·.OfOperation v.kind.isNumeric)
      (f.within inside compute v) := by
  apply (f.meets_number v).bind
  intro x _
  split
  · exact Finset.mem_singleton_self _
  · exact .inl rfl

/-! ## Functions of two numbers -/

/-- Two numbers are read one after the other. -/
theorem meets_numbers (f : Function) {values : Value → Prop} (v w : Value)
    {next : Double → Double → Except EvalError Value} {accepted : Bool}
    (haccepted : accepted = true → v.kind.isNumeric = true ∧ w.kind.isNumeric = true)
    (hnext : ∀ x y, Meets values (·.OfOperation accepted) (next x y)) :
    Meets values (·.OfOperation accepted) (f.number v >>= fun x => f.number w >>= next x) := by
  apply ((f.meets_number v).weaken fun h => (haccepted h).1).bind
  intro x _
  apply ((f.meets_number w).weaken fun h => (haccepted h).2).bind
  intro y _
  exact hnext x y

/-- A logarithm is a double. -/
theorem meets_logOf (v base : Value) :
    Meets (·.kind ∈ ({.double} : Finset Kind)) (·.OfOperation (log.accepts [v.kind, base.kind]))
      (logOf v base) := by
  apply meets_numbers log v base (by simp [accepts])
  intro x y
  split
  · exact .inl rfl
  · exact Finset.mem_singleton_self _

/-- A power is a double. -/
theorem meets_powOf (v exponent : Value) :
    Meets (·.kind ∈ ({.double} : Finset Kind)) (·.OfOperation (pow.accepts [v.kind, exponent.kind]))
      (powOf v exponent) := by
  apply meets_numbers pow v exponent (by simp [accepts])
  intro x y
  exact Finset.mem_singleton_self _

/-! ## Aggregates -/

/-- An average is a double, of numbers only. -/
theorem meets_averageOf {accepted : Bool} {args : List Value}
    (haccepted : accepted = true → ∀ v ∈ args, v.kind.isNumeric = true) :
    Meets (·.kind ∈ ({.double} : Finset Kind)) (·.OfOperation accepted) (averageOf args) := by
  let invariant (rest : List Value) (_ : Double) : Prop :=
    accepted = true → ∀ v ∈ rest, v.kind.isNumeric = true
  refine (Meets.foldlM invariant ?_ haccepted).bind fun _ _ => Finset.mem_singleton_self _
  intro v rest total hrest
  apply ((average.meets_number v).weaken fun h => hrest h v List.mem_cons_self).bind
  intro x _ h w hw
  exact hrest h w (List.mem_cons_of_mem v hw)

/-- A sum stays a number, of a kind that the kinds added so far have. -/
theorem meets_sumFrom {accepted : Bool} {sets : List (Finset Kind)} {args : List Value}
    (h : List.Forall₂ (fun kinds v => v.kind ∈ kinds) sets args)
    (haccepted : accepted = true → ∀ v ∈ args, v.kind.isNumeric = true) {total : Value}
    {kinds : Finset Kind} (htotal : total.kind ∈ kinds) (hnumber : total.kind.isNumeric = true) :
    Meets (·.kind ∈ sets.foldl (Kind.pairwise Kind.summed) kinds) (·.OfOperation accepted)
      (args.foldlM (fun total v =>
        if v.isNumeric then total.add v else .error (sum.notNumeric v)) total) := by
  induction h generalizing total kinds with
  | nil => exact htotal
  | @cons set v sets rest hv hrest ih =>
    rw [List.foldlM_cons]
    have hrefused : accepted = true → v.kind.isNumeric = true :=
      fun h => haccepted h v List.mem_cons_self
    by_cases hnumeric : v.kind.isNumeric = true
    · obtain ⟨hsome, hall⟩ := Kind.summed_of_isNumeric hnumber hnumeric
      rw [Value.isNumeric, if_pos hnumeric]
      apply ((Value.meets_add total v).weaken fun _ => decide_eq_true hsome).bind
      intro next hnext
      exact ih (fun h w hw => haccepted h w (List.mem_cons_of_mem v hw))
        (Kind.mem_pairwise htotal hv hnext) (hall _ hnext)
    · rw [Value.isNumeric, if_neg hnumeric]
      exact .inr ⟨rfl, Bool.eq_false_iff.mpr fun h => hnumeric (hrefused h)⟩

/-- The value that is furthest so far has one of the kinds, and can be compared with all that follow
if any two of them can. -/
theorem meets_extremeOf {accepted : Bool} {op : BinaryOp} {first : Value} {rest : List Value}
    {kinds : Finset Kind} (hkinds : ∀ v ∈ first :: rest, v.kind ∈ kinds)
    (haccepted : accepted = true →
      (first :: rest).Pairwise fun v w => v.kind.comparable w.kind = true) :
    Meets (·.kind ∈ kinds) (·.OfOperation accepted) (extremeOf op first rest) := by
  let invariant (rest : List Value) (best : Value) : Prop :=
    (∀ v ∈ best :: rest, v.kind ∈ kinds) ∧ (accepted = true →
      (best :: rest).Pairwise fun v w => v.kind.comparable w.kind = true)
  have hfold : Meets (invariant []) (·.OfOperation accepted) (extremeOf op first rest) := by
    refine Meets.foldlM invariant ?_ ⟨hkinds, haccepted⟩
    intro v rest best ⟨hmem, hpairs⟩
    have hcompare : accepted = true → v.kind.comparable best.kind = true := by
      intro h
      rw [Kind.comparable_symm]
      exact (List.pairwise_cons.mp (hpairs h)).1 v List.mem_cons_self
    apply ((Value.meets_compare op v best).weaken hcompare).bind
    intro ordering _
    -- whichever of the two is kept, the other one is left out
    split
    · refine ⟨fun w hw => hmem w (List.mem_cons_of_mem best hw), fun h => ?_⟩
      exact (hpairs h).sublist (List.sublist_cons_self _ _)
    · refine ⟨fun w hw => ?_, fun h => ?_⟩
      · rcases List.mem_cons.mp hw with rfl | hw
        · exact hmem w List.mem_cons_self
        · exact hmem w (List.mem_cons_of_mem best (List.mem_cons_of_mem v hw))
      · exact (hpairs h).sublist ((List.sublist_cons_self _ _).cons_cons _)
  exact hfold.mono (fun best h => h.1 best List.mem_cons_self) fun _ => id

/-! ## Functions of strings -/

/-- A test of two strings is a truth value. -/
theorem meets_testOf (f : Function) (test : List Char → List Char → Bool) (v w : Value) :
    Meets (·.kind ∈ ({.boolean} : Finset Kind))
      (·.OfOperation ([v.kind, w.kind].all (· = .string))) (f.testOf test v w) := by
  have haccepted : [v.kind, w.kind].all (fun kind => decide (kind = .string)) = true →
      decide (v.kind = .string) = true ∧ decide (w.kind = .string) = true := by
    simp
  apply ((f.meets_chars v).weaken fun h => (haccepted h).1).bind
  intro s _
  apply ((f.meets_chars w).weaken fun h => (haccepted h).2).bind
  intro t _
  exact Finset.mem_singleton_self _

/-- A part of a string is a string. -/
theorem meets_substringOf (v start size : Value) :
    Meets (·.kind ∈ ({.string} : Finset Kind))
      (·.OfOperation (substring.accepts [v.kind, start.kind, size.kind]))
      (substringOf v start size) := by
  have haccepted : substring.accepts [v.kind, start.kind, size.kind] =
      (decide (v.kind = .string) &&
        (decide (start.kind = .integer) && decide (size.kind = .integer))) := by
    simp [accepts]
  rw [haccepted]
  apply ((substring.meets_chars v).weaken fun h => (Bool.and_eq_true_iff.mp h).1).bind
  intro s _
  cases start with
  | integer i =>
    cases size with
    | integer n =>
      simp only [Value.toInteger?]
      split
      · split
        · exact .inl rfl
        · exact Finset.mem_singleton_self _
      · exact .inl rfl
    | _ => exact .inr ⟨rfl, Bool.and_false _⟩
  | _ =>
    refine .inr ⟨?_, Bool.and_false _⟩
    cases size <;> rfl

/-! ## Calls -/

section Shapes

variable {α β : Type} {relation : α → β → Prop} {sets : List α} {args : List β}

/-- One argument is related to the one set there is. -/
theorem exists_of_length_one (h : List.Forall₂ relation sets args) (hlength : args.length = 1) :
    ∃ s v, sets = [s] ∧ args = [v] ∧ relation s v := by
  obtain ⟨v, rfl⟩ := List.length_eq_one_iff.mp hlength
  cases h with
  | cons hv hrest =>
    cases hrest
    exact ⟨_, v, rfl, rfl, hv⟩

/-- Two arguments are related to the two sets there are, in this order. -/
theorem exists_of_length_two (h : List.Forall₂ relation sets args) (hlength : args.length = 2) :
    ∃ s t v w, sets = [s, t] ∧ args = [v, w] ∧ relation s v := by
  obtain ⟨v, w, rfl⟩ := List.length_eq_two.mp hlength
  cases h with
  | cons hv hrest =>
    obtain ⟨t, _, rfl, -, -⟩ := exists_of_length_one hrest rfl
    exact ⟨_, t, v, w, rfl, rfl, hv⟩

end Shapes

/-- Whatever an argument is, its kind is among those of all arguments. -/
theorem mem_foldr_union {sets : List (Finset Kind)} {args : List Value}
    (h : List.Forall₂ (fun kinds v => v.kind ∈ kinds) sets args) :
    ∀ v ∈ args, v.kind ∈ sets.foldr (· ∪ ·) ∅ := by
  induction h with
  | nil => exact nofun
  | cons hv hrest ih =>
    intro w hw
    rcases List.mem_cons.mp hw with rfl | hw
    · exact Finset.mem_union_left _ hv
    · exact Finset.mem_union_right _ (ih w hw)

/-- The value of a call has a kind of the table of the function. -/
theorem meets_call (f : Function) {sets : List (Finset Kind)} {args : List Value}
    (h : List.Forall₂ (fun kinds v => v.kind ∈ kinds) sets args)
    (harity : f.arity.accepts args.length = true) :
    Meets (·.kind ∈ f.kinds sets) (·.OfOperation (f.accepts (args.map Value.kind)))
      (f.call args) := by
  have hall : ∀ {property : Kind → Bool} {kind : Kind}, [kind].all property = true →
      property kind = true := fun h => List.all_eq_true.mp h _ List.mem_cons_self
  have hnumbers : (args.map Value.kind).all Kind.isNumeric = true →
      ∀ v ∈ args, v.kind.isNumeric = true :=
    fun h v hv => List.all_eq_true.mp h _ (List.mem_map_of_mem hv)
  rw [call, if_pos harity]
  cases f with
  | abs =>
    obtain ⟨s, v, rfl, rfl, hv⟩ := exists_of_length_one h (beq_iff_eq.mp harity)
    exact (meets_absOf hv).weaken hall
  | ceiling | floor | truncate =>
    obtain ⟨s, v, rfl, rfl, hv⟩ := exists_of_length_one h (beq_iff_eq.mp harity)
    exact (meets_wholeOf _ _ _ hv).weaken hall
  | sign =>
    obtain ⟨s, v, rfl, rfl, -⟩ := exists_of_length_one h (beq_iff_eq.mp harity)
    exact (meets_signOf v).weaken hall
  | atan | cos | exp | sin | tan =>
    obtain ⟨s, v, rfl, rfl, -⟩ := exists_of_length_one h (beq_iff_eq.mp harity)
    exact (meets_overDoubles _ _ v).weaken hall
  | acos | asin | log10 | sqrt =>
    obtain ⟨s, v, rfl, rfl, -⟩ := exists_of_length_one h (beq_iff_eq.mp harity)
    exact (meets_within _ _ _ v).weaken hall
  | length =>
    obtain ⟨s, v, rfl, rfl, -⟩ := exists_of_length_one h (beq_iff_eq.mp harity)
    have hchars := (meets_chars length v).weaken
      fun h : ([v.kind].all (· = .string)) = true => hall h
    exact hchars.map fun _ _ => Finset.mem_singleton_self _
  | round =>
    obtain ⟨s, t, v, w, rfl, rfl, hv⟩ := exists_of_length_two h (beq_iff_eq.mp harity)
    exact meets_roundOf hv
  | log =>
    obtain ⟨s, t, v, w, rfl, rfl, -⟩ := exists_of_length_two h (beq_iff_eq.mp harity)
    exact meets_logOf v w
  | pow =>
    obtain ⟨s, t, v, w, rfl, rfl, -⟩ := exists_of_length_two h (beq_iff_eq.mp harity)
    exact meets_powOf v w
  | contains | endsWith | startsWith =>
    obtain ⟨s, t, v, w, rfl, rfl, -⟩ := exists_of_length_two h (beq_iff_eq.mp harity)
    exact meets_testOf _ _ v w
  | substring =>
    obtain ⟨v, start, size, rfl⟩ := List.length_eq_three.mp (beq_iff_eq.mp harity)
    exact meets_substringOf v start size
  | average => exact meets_averageOf hnumbers
  | sum => exact meets_sumFrom h hnumbers (Finset.mem_singleton_self _) rfl
  | count | concat => exact Finset.mem_singleton_self _
  | oneOf =>
    cases args with
    | nil => exact nomatch harity
    | cons v others => exact Finset.mem_singleton_self _
  | max | min =>
    have hkinds := mem_foldr_union h
    cases args with
    | nil => exact nomatch harity
    | cons first rest =>
      refine meets_extremeOf hkinds fun h => ?_
      exact List.pairwise_map.mp (of_decide_eq_true h)

/-- The value of a call has one of the kinds that the kinds of its arguments tell. -/
theorem meets_call_values (f : Function) {args : List Value}
    (harity : f.arity.accepts args.length = true) :
    Meets (·.kind ∈ f.kinds (args.map fun v => {v.kind}))
      (·.OfOperation (f.accepts (args.map Value.kind))) (f.call args) := by
  apply f.meets_call _ harity
  rw [List.forall₂_map_left_iff]
  exact List.forall₂_same.mpr fun v _ => Finset.mem_singleton_self _

end Function

end Formula
