import Formula.Command.Evaluate
import Formula.Proofs.Bindings.Reading
import Formula.Proofs.Evaluation.Outcome
import Formula.Proofs.Evaluation.Reachability
import Formula.Proofs.Text.Classes

/-!
# The answer of the command

`Answers options answer` says what is answered without any of the ways in which it is found: by the
stage at which something is wrong, or else by what every name denotes (`Denotes`). A stage counts if
all stages before it are passed, and there is one predicate for what stops a stage and one for what
passes it. `evaluateCommand_eq_iff` says that the command has this answer and no other.

That mappings are only compared name by name is enough because an evaluation depends on nothing
else.
-/

namespace Formula

/-! ## Variables from an object -/

/-- The document that the variables are given by; no text and a blank one count as an object without
members. -/
inductive Gives : Option String → Json.Document → Prop where
  | absent : Gives none (.object [])
  | blank {text : String} (h : ∀ c ∈ text.toList, Text.isBlank c = true) :
      Gives (some text) (.object [])
  | read {text : String} {document : Json.Document}
      (h : ¬ ∀ c ∈ text.toList, Text.isBlank c = true) (hread : Json.read? text = some document) :
      Gives (some text) document

/-- What is wrong with the variables: their text is not JSON, it is no object, or a member is no
value. Of several such members, the one with the least name counts. -/
inductive Refused (json : Option String) : CommandError → Prop where
  | invalid {text : String} (hjson : json = some text)
      (h : ¬ ∀ c ∈ text.toList, Text.isBlank c = true) (hread : Json.read? text = none) :
      Refused json .invalidJson
  | noObject {document : Json.Document} (hjson : Gives json document)
      (h : ∀ members, document ≠ .object members) :
      Refused json (.unsupportedValue .notAnObject)
  | member {members : List (String × Json.Document)} {key : String} {document : Json.Document}
      {what : UnsupportedJson} (hjson : Gives json (.object members))
      (hmember : Json.IsMember members key document) (hwhat : Value.ofJson document = .error what)
      (hfirst : ∀ other document', Json.IsMember members other document' → other < key →
        ∃ value, Value.ofJson document' = .ok value) :
      Refused json (.unsupportedValue what)

/-- Whether the variables are the members of an object, all of which are values. -/
def Accepted (json : Option String) (members : List (String × Json.Document)) : Prop :=
  Gives json (.object members) ∧
    ∀ key document, Json.IsMember members key document → ∃ value, Value.ofJson document = .ok value

/-! ## Variables from bindings -/

/-- The name in a binding: what stands before the first equals sign, without blanks around it. -/
def bindingName (binding : String) : String :=
  String.ofList (Text.trim (binding.toList.takeWhile (· ≠ '=')))

/-- What is wrong with the bindings: the error of the first one that cannot be read. -/
def Rejected (texts : List String) (e : CommandError) : Prop :=
  ∃ (i : Nat) (text : String), texts[i]? = some text ∧ readBinding text i = .error e ∧
    ∀ (j : Nat) (other : String), j < i → texts[j]? = some other →
      ∃ pair, readBinding other j = .ok pair

/-- Whether the bindings give their names the values of the pairs. -/
def Binds (texts : List String) (pairs : List (String × Value)) : Prop :=
  List.Forall₂ (fun (item : String × Nat) pair =>
    bindingName item.1 = pair.1 ∧ readBinding item.1 item.2 = .ok pair) texts.zipIdx pairs

/-! ## Answers -/

/-- What a name denotes: the value of the last binding that has it, else the value of the greatest
member that has it, else nothing. Names are the same here if they fold alike. -/
inductive Denotes (members : List (String × Json.Document)) (pairs : List (String × Value))
    (name : String) : Option Value → Prop where
  | binding {value : Value} (h : Bindings.lastValue? pairs name = some value) :
      Denotes members pairs name (some value)
  | member {key : String} {document : Json.Document} {value : Value}
      (h : Bindings.lastValue? pairs name = none) (hmember : Json.IsMember members key document)
      (hfold : Bindings.fold key = Bindings.fold name)
      (hgreatest : ∀ other document', Json.IsMember members other document' →
        Bindings.fold other = Bindings.fold name → other ≤ key)
      (hvalue : Value.ofJson document = .ok value) : Denotes members pairs name (some value)
  | nothing (h : Bindings.lastValue? pairs name = none)
      (hnone : ∀ key document, Json.IsMember members key document →
        Bindings.fold key ≠ Bindings.fold name) : Denotes members pairs name none

/-- The answer to a formula and its variables. -/
inductive Answers (options : EvaluateOptions) : Except CommandError EvaluateResult → Prop where
  /-- A formula that cannot be read has its own error, whatever the variables. -/
  | unreadable {e : ExpressionError}
      (h : Expression.ofSource options.source options.bindings.length = .error e) :
      Answers options (.error (.expression e))
  /-- A formula that is only checked is valid, whatever the variables. -/
  | checked {formula : Expression}
      (h : Expression.ofSource options.source options.bindings.length = .ok formula)
      (hcheck : options.checkOnly = true) : Answers options (.ok .valid)
  /-- What is wrong with the object comes before what is wrong with the bindings. -/
  | refused {formula : Expression} {e : CommandError}
      (h : Expression.ofSource options.source options.bindings.length = .ok formula)
      (hcheck : options.checkOnly = false) (hobject : Refused options.json e) :
      Answers options (.error e)
  | rejected {formula : Expression} {members : List (String × Json.Document)} {e : CommandError}
      (h : Expression.ofSource options.source options.bindings.length = .ok formula)
      (hcheck : options.checkOnly = false) (hobject : Accepted options.json members)
      (hbinding : Rejected options.bindings e) : Answers options (.error e)
  /-- Else the formula is evaluated against any mapping in which each name has what it denotes. -/
  | evaluated {formula : Expression} {members : List (String × Json.Document)}
      {pairs : List (String × Value)} {mapping : Bindings}
      (h : Expression.ofSource options.source options.bindings.length = .ok formula)
      (hcheck : options.checkOnly = false) (hobject : Accepted options.json members)
      (hbinds : Binds options.bindings pairs)
      (hmapping : ∀ name, Denotes members pairs name (mapping.get? name)) :
      Answers options (((formula.evaluate mapping).mapError .expression).map .value)

/-! ## The stage of the object -/

section Object

variable {json : Option String} {members : List (String × Json.Document)}

/-- The name and value of a member. -/
def readMember (member : String × Json.Document) : Except UnsupportedJson (String × Value) :=
  (Value.ofJson member.2).map fun value => (member.1, value)

/-- A member is read as its name and the value of its document. -/
theorem readMember_eq_ok_iff {member : String × Json.Document} {pair : String × Value} :
    readMember member = .ok pair ↔ member.1 = pair.1 ∧ Value.ofJson member.2 = .ok pair.2 := by
  unfold readMember
  cases Value.ofJson member.2 with
  | error what => exact ⟨nofun, fun h => nomatch h.2⟩
  | ok value =>
    constructor
    · intro h
      cases h
      exact ⟨rfl, rfl⟩
    · rintro ⟨hname, hvalue⟩
      cases hvalue
      rw [hname]
      rfl

/-- A member is refused for its document. -/
theorem readMember_eq_error_iff {member : String × Json.Document} {what : UnsupportedJson} :
    readMember member = .error what ↔ Value.ofJson member.2 = .error what := by
  unfold readMember
  cases Value.ofJson member.2 with
  | error what' => rw [Except.map, Except.error.injEq, Except.error.injEq]
  | ok value => exact ⟨nofun, nofun⟩

/-- The bindings of an object are those of its members, one after the other. -/
theorem ofJson_object (members : List (String × Json.Document)) :
    Bindings.ofJson (.object members) =
      ((Json.sortedMembers members).mapM readMember).map Bindings.ofList := by
  have hstep : ∀ (bindings : Bindings) (member : String × Json.Document),
      (return bindings.insert member.1 (← Value.ofJson member.2) :
        Except UnsupportedJson Bindings) =
        (readMember member).map fun pair => bindings.insert pair.1 pair.2 := by
    intro bindings member
    unfold readMember
    cases Value.ofJson member.2 with
    | error what => rfl
    | ok value => rfl
  rw [Bindings.ofJson]
  simp only [hstep]
  exact Bindings.foldlM_insert readMember _ _

/-- Of the members that are no values, the one with the least name is the error. -/
theorem mapM_readMember_eq_error_iff {what : UnsupportedJson} :
    (Json.sortedMembers members).mapM readMember = .error what ↔ ∃ key document,
      Json.IsMember members key document ∧ Value.ofJson document = .error what ∧
        ∀ other document', Json.IsMember members other document' → other < key →
          ∃ value, Value.ofJson document' = .ok value := by
  rw [mapM_eq_error_iff]
  constructor
  · rintro ⟨i, ⟨key, document⟩, hmember, hwhat, hfirst⟩
    refine ⟨key, document, Json.mem_sortedMembers.mp (List.mem_of_getElem? hmember),
      readMember_eq_error_iff.mp hwhat, fun other document' hother hlt => ?_⟩
    obtain ⟨j, hj⟩ := List.getElem?_of_mem (Json.mem_sortedMembers.mpr hother)
    obtain ⟨pair, hpair⟩ := hfirst j _ ((Json.name_lt_iff hj hmember).mp hlt) hj
    exact ⟨pair.2, (readMember_eq_ok_iff.mp hpair).2⟩
  · rintro ⟨key, document, hmember, hwhat, hfirst⟩
    obtain ⟨i, hi⟩ := List.getElem?_of_mem (Json.mem_sortedMembers.mpr hmember)
    refine ⟨i, _, hi, readMember_eq_error_iff.mpr hwhat, fun j other hlt hj => ?_⟩
    obtain ⟨value, hvalue⟩ := hfirst other.1 other.2
      (Json.mem_sortedMembers.mp (List.mem_of_getElem? hj)) ((Json.name_lt_iff hj hi).mpr hlt)
    exact ⟨(other.1, value), readMember_eq_ok_iff.mpr ⟨rfl, hvalue⟩⟩

/-- If every document has a value, all members are read. -/
theorem exists_mapM_readMember (h : ∀ key document, Json.IsMember members key document →
    ∃ value, Value.ofJson document = .ok value) :
    ∃ pairs, (Json.sortedMembers members).mapM readMember = .ok pairs := by
  cases hread : (Json.sortedMembers members).mapM readMember with
  | ok pairs => exact ⟨pairs, rfl⟩
  | error what =>
    obtain ⟨key, document, hmember, hwhat, -⟩ := mapM_readMember_eq_error_iff.mp hread
    obtain ⟨value, hvalue⟩ := h key document hmember
    exact nomatch hwhat.symm.trans hvalue

section

variable {pairs : List (String × Value)}

/-- What is read is each member with the value of its document. -/
theorem mem_of_mapM_readMember (h : (Json.sortedMembers members).mapM readMember = .ok pairs)
    {key : String} {value : Value} : (key, value) ∈ pairs ↔
      ∃ document, Json.IsMember members key document ∧ Value.ofJson document = .ok value := by
  have hread := mapM_eq_ok_iff.mp h
  constructor
  · intro hmem
    obtain ⟨⟨key', document⟩, hmember, hpair⟩ := exists_of_forall₂ hread.flip hmem
    obtain ⟨rfl, hvalue⟩ := readMember_eq_ok_iff.mp hpair
    exact ⟨document, Json.mem_sortedMembers.mp hmember, hvalue⟩
  · rintro ⟨document, hmember, hvalue⟩
    obtain ⟨⟨key', value'⟩, hmem, hpair⟩ :=
      exists_of_forall₂ hread (Json.mem_sortedMembers.mpr hmember)
    obtain ⟨rfl, hvalue'⟩ := readMember_eq_ok_iff.mp hpair
    cases hvalue.symm.trans hvalue'
    exact hmem

/-- What is read is in the order of the names. -/
theorem pairwise_of_mapM_readMember
    (h : (Json.sortedMembers members).mapM readMember = .ok pairs) :
    pairs.Pairwise fun first second => first.1 < second.1 := by
  have hnames : List.Forall₂ (· = ·) ((Json.sortedMembers members).map Prod.fst)
      (pairs.map Prod.fst) := by
    rw [List.forall₂_map_left_iff, List.forall₂_map_right_iff]
    exact (mapM_eq_ok_iff.mp h).imp fun _ _ hpair => (readMember_eq_ok_iff.mp hpair).1
  rw [List.forall₂_eq_eq_eq] at hnames
  have hsorted := List.pairwise_map.mpr (Json.pairwise_sortedMembers members)
  rw [hnames] at hsorted
  exact List.pairwise_map.mp hsorted

/-- Without bindings, a name denotes what the members are read to. -/
theorem denotes_ofList (h : (Json.sortedMembers members).mapM readMember = .ok pairs)
    (name : String) : Denotes members [] name ((Bindings.ofList pairs).get? name) := by
  rw [Bindings.get?_ofList]
  cases hlast : Bindings.lastValue? pairs name with
  | none =>
    refine .nothing rfl fun key document hmember hfold => ?_
    obtain ⟨pair, hpair, hname⟩ :=
      exists_of_forall₂ (mapM_eq_ok_iff.mp h) (Json.mem_sortedMembers.mpr hmember)
    apply Bindings.lastValue?_eq_none_iff.mp hlast pair hpair
    rw [← hfold, ← (readMember_eq_ok_iff.mp hname).1]
  | some value =>
    obtain ⟨key, hmem, hfold, hgreatest⟩ :=
      Bindings.exists_greatest_of_lastValue? (pairwise_of_mapM_readMember h) hlast
    obtain ⟨document, hmember, hvalue⟩ := (mem_of_mapM_readMember h).mp hmem
    refine .member rfl hmember hfold (fun other document' hother hfold' => ?_) hvalue
    obtain ⟨pair, hpair, hname⟩ :=
      exists_of_forall₂ (mapM_eq_ok_iff.mp h) (Json.mem_sortedMembers.mpr hother)
    obtain rfl : other = pair.1 := (readMember_eq_ok_iff.mp hname).1
    exact hgreatest pair hpair hfold'

end

/-- Where the option gives a document, the variables are read from that. -/
theorem Gives.givenVariables_eq {document : Json.Document} (h : Gives json document) :
    givenVariables json = (Bindings.ofJson document).mapError .unsupportedValue := by
  cases h with
  | absent => rfl
  | blank h =>
    rw [givenVariables, if_pos (Text.dropBlanks_eq_nil_iff.mpr h)]
    rfl
  | read h hread =>
    rw [givenVariables, if_neg (mt Text.dropBlanks_eq_nil_iff.mp h), readVariables, readDocument,
      hread]
    rfl

/-- A refused document is an error. -/
theorem Refused.givenVariables_eq {e : CommandError} (h : Refused json e) :
    givenVariables json = .error e := by
  cases h with
  | invalid hjson h hread =>
    rw [hjson, givenVariables, if_neg (mt Text.dropBlanks_eq_nil_iff.mp h), readVariables,
      readDocument, hread]
    rfl
  | @noObject document hjson h =>
    rw [hjson.givenVariables_eq]
    cases document with
    | object members => exact absurd rfl (h members)
    | _ => rfl
  | member hjson hmember hwhat hfirst =>
    rw [hjson.givenVariables_eq, ofJson_object,
      mapM_readMember_eq_error_iff.mpr ⟨_, _, hmember, hwhat, hfirst⟩]
    rfl

/-- An accepted document gives variables, each name what its member denotes. -/
theorem Accepted.exists_givenVariables (h : Accepted json members) :
    ∃ given, givenVariables json = .ok given ∧
      ∀ name, Denotes members [] name (given.get? name) := by
  obtain ⟨hjson, hvalues⟩ := h
  obtain ⟨pairs, hpairs⟩ := exists_mapM_readMember hvalues
  refine ⟨Bindings.ofList pairs, ?_, denotes_ofList hpairs⟩
  rw [hjson.givenVariables_eq, ofJson_object, hpairs]
  rfl

/-- A document is refused or accepted. -/
theorem refused_or_accepted (json : Option String) :
    (∃ e, Refused json e) ∨ ∃ members, Accepted json members := by
  have hgiven : ∀ document, Gives json document →
      (∃ e, Refused json e) ∨ ∃ members, Accepted json members := by
    intro document hjson
    cases document with
    | object members =>
      cases hread : (Json.sortedMembers members).mapM readMember with
      | error what =>
        obtain ⟨key, document, hmember, hwhat, hfirst⟩ := mapM_readMember_eq_error_iff.mp hread
        exact .inl ⟨_, .member hjson hmember hwhat hfirst⟩
      | ok pairs =>
        refine .inr ⟨members, hjson, fun key document hmember => ?_⟩
        obtain ⟨pair, -, hpair⟩ :=
          exists_of_forall₂ (mapM_eq_ok_iff.mp hread) (Json.mem_sortedMembers.mpr hmember)
        exact ⟨pair.2, (readMember_eq_ok_iff.mp hpair).2⟩
    | scalar s => exact .inl ⟨_, .noObject hjson nofun⟩
    | array items => exact .inl ⟨_, .noObject hjson nofun⟩
  cases json with
  | none => exact hgiven _ .absent
  | some text =>
    by_cases hblank : ∀ c ∈ text.toList, Text.isBlank c = true
    · exact hgiven _ (.blank hblank)
    · cases hread : Json.read? text with
      | none => exact .inl ⟨_, .invalid rfl hblank hread⟩
      | some document => exact hgiven _ (.read hblank hread)

end Object

/-! ## The stage of the bindings -/

section Binding

variable {texts : List String} {pairs : List (String × Value)}

/-- The name is what stands before the sign, without blanks around it. -/
theorem name_of_splitBinding? {binding name raw : List Char}
    (h : splitBinding? binding = some (name, raw)) :
    Text.trim (binding.takeWhile (· ≠ '=')) = name := by
  unfold splitBinding? at h
  cases hrest : binding.dropWhile (· ≠ '=') with
  | nil =>
    rw [hrest] at h
    exact nomatch h
  | cons c rest =>
    rw [hrest] at h
    by_cases hblank : Text.trim (binding.takeWhile (· ≠ '=')) = []
    · simp only [if_pos hblank] at h
      exact nomatch h
    · simp only [if_neg hblank] at h
      cases h
      rfl

/-- A binding that can be read has the name that stands before its sign. -/
theorem bindingName_eq {binding : String} {serial : Nat} {pair : String × Value}
    (h : readBinding binding serial = .ok pair) : bindingName binding = pair.1 := by
  unfold readBinding at h
  cases hsplit : splitBinding? binding.toList with
  | none =>
    rw [hsplit] at h
    exact nomatch h
  | some split =>
    obtain ⟨name, raw⟩ := split
    rw [hsplit] at h
    have h : (readBound raw serial).map (fun value => (String.ofList name, value)) = .ok pair := h
    rw [bindingName, name_of_splitBinding? hsplit]
    cases hvalue : readBound raw serial with
    | error e =>
      rw [hvalue] at h
      exact nomatch h
    | ok value =>
      rw [hvalue] at h
      cases h
      rfl

/-- All bindings are read first, and then inserted one after the other. -/
theorem applyBindings_eq (given : Bindings) (texts : List String) :
    applyBindings given texts =
      (texts.zipIdx.mapM fun item => readBinding item.1 item.2).map given.insertMany := by
  rw [← Bindings.foldlM_insert]
  unfold applyBindings
  congr 1

/-- Bindings are rejected for the first one that cannot be read. -/
theorem rejected_iff {e : CommandError} :
    Rejected texts e ↔ (texts.zipIdx.mapM fun item => readBinding item.1 item.2) = .error e := by
  rw [mapM_eq_error_iff]
  simp only [List.getElem?_zipIdx, Nat.zero_add, Option.map_eq_some_iff]
  constructor
  · rintro ⟨i, text, htext, he, hfirst⟩
    refine ⟨i, (text, i), ⟨text, htext, rfl⟩, he, ?_⟩
    rintro j - hj ⟨other, hother, rfl⟩
    exact hfirst j other hj hother
  · rintro ⟨i, -, ⟨text, htext, rfl⟩, he, hfirst⟩
    exact ⟨i, text, htext, he, fun j other hj hother =>
      hfirst j (other, j) hj ⟨other, hother, rfl⟩⟩

/-- Bindings have values if every one of them can be read. -/
theorem binds_iff :
    Binds texts pairs ↔ (texts.zipIdx.mapM fun item => readBinding item.1 item.2) = .ok pairs := by
  rw [mapM_eq_ok_iff]
  exact ⟨fun h => h.imp fun _ _ hpair => hpair.2,
    fun h => h.imp fun _ _ hpair => ⟨bindingName_eq hpair, hpair⟩⟩

/-- Bindings are rejected, or all of them have values. -/
theorem rejected_or_binds (texts : List String) :
    (∃ e, Rejected texts e) ∨ ∃ pairs, Binds texts pairs := by
  cases hread : texts.zipIdx.mapM fun item => readBinding item.1 item.2 with
  | error e => exact .inl ⟨e, rejected_iff.mpr hread⟩
  | ok pairs => exact .inr ⟨pairs, binds_iff.mpr hread⟩

end Binding

/-! ## What names denote -/

section

variable {members : List (String × Json.Document)} {pairs : List (String × Value)} {name : String}

/-- Inserting the bindings hides what the document says of their names. -/
theorem Denotes.insertMany {given : Bindings} (h : Denotes members [] name (given.get? name))
    (pairs : List (String × Value)) :
    Denotes members pairs name ((given.insertMany pairs).get? name) := by
  rw [Bindings.get?_insertMany]
  cases hlast : Bindings.lastValue? pairs name with
  | some value => exact .binding hlast
  | none =>
    rw [Option.none_or]
    generalize given.get? name = found at h
    cases h with
    | binding h => exact nomatch h
    | member _ hmember hfold hgreatest hvalue => exact .member hlast hmember hfold hgreatest hvalue
    | nothing _ hnone => exact .nothing hlast hnone

/-- A name denotes one value at most. -/
theorem Denotes.unique {found found' : Option Value} (h : Denotes members pairs name found)
    (h' : Denotes members pairs name found') : found = found' := by
  cases h with
  | binding h =>
    cases h' with
    | binding h' => rw [← h, ← h']
    | member h' => exact nomatch h.symm.trans h'
    | nothing h' => exact nomatch h.symm.trans h'
  | member h hmember hfold hgreatest hvalue =>
    cases h' with
    | binding h' => exact nomatch h.symm.trans h'
    | member _ hmember' hfold' hgreatest' hvalue' =>
      obtain rfl := le_antisymm (hgreatest' _ _ hmember hfold) (hgreatest _ _ hmember' hfold')
      obtain rfl := hmember.unique hmember'
      rw [Except.ok.inj (hvalue.symm.trans hvalue')]
    | nothing _ hnone => exact absurd hfold (hnone _ _ hmember)
  | nothing h hnone =>
    cases h' with
    | binding h' => exact nomatch h.symm.trans h'
    | member _ hmember' hfold' => exact absurd hfold' (hnone _ _ hmember')
    | nothing => rfl

end

/-! ## Answers -/

variable {options : EvaluateOptions}

/-- Whatever the options are, there is an answer to them. -/
theorem exists_answer (options : EvaluateOptions) : ∃ answer, Answers options answer := by
  cases h : Expression.ofSource options.source options.bindings.length with
  | error e => exact ⟨_, .unreadable h⟩
  | ok formula =>
    cases hcheck : options.checkOnly with
    | true => exact ⟨_, .checked h hcheck⟩
    | false =>
      rcases refused_or_accepted options.json with ⟨e, hobject⟩ | ⟨members, hobject⟩
      · exact ⟨_, .refused h hcheck hobject⟩
      · rcases rejected_or_binds options.bindings with ⟨e, hbinding⟩ | ⟨pairs, hbinds⟩
        · exact ⟨_, .rejected h hcheck hobject hbinding⟩
        · obtain ⟨given, -, hgiven⟩ := hobject.exists_givenVariables
          exact ⟨_, .evaluated h hcheck hobject hbinds fun name => (hgiven name).insertMany pairs⟩

/-- The command gives every answer there is, and so there is only one. -/
theorem Answers.evaluateCommand_eq {answer : Except CommandError EvaluateResult}
    (h : Answers options answer) : evaluateCommand options = answer := by
  unfold evaluateCommand
  cases h with
  | unreadable h =>
    rw [h]
    rfl
  | checked h hcheck =>
    rw [h, hcheck]
    rfl
  | refused h hcheck hobject =>
    rw [h, hcheck, hobject.givenVariables_eq]
    rfl
  | rejected h hcheck hobject hbinding =>
    obtain ⟨given, hgiven, -⟩ := hobject.exists_givenVariables
    rw [h, hcheck, hgiven]
    show (applyBindings given options.bindings >>= _) = _
    rw [applyBindings_eq, rejected_iff.mp hbinding]
    rfl
  | @evaluated formula members pairs mapping h hcheck hobject hbinds hmapping =>
    obtain ⟨given, hgiven, hdenotes⟩ := hobject.exists_givenVariables
    have hevaluate : formula.evaluate mapping = formula.evaluate (given.insertMany pairs) :=
      Expression.evaluate_congr fun name => (hmapping name).unique ((hdenotes name).insertMany pairs)
    rw [h, hcheck, hgiven, hevaluate]
    show (applyBindings given options.bindings >>= _) = _
    rw [applyBindings_eq, binds_iff.mp hbinds]
    show (((formula.evaluate (given.insertMany pairs)).mapError _) >>= _) = _
    cases formula.evaluate (given.insertMany pairs) with
    | error e => rfl
    | ok value => rfl

/-- The command answers what the stages say: its first failure is that of the formula, then that of
the object of variables, then that of the bindings; and without one, it evaluates the formula where
each name has what it denotes. -/
theorem evaluateCommand_eq_iff (options : EvaluateOptions)
    (answer : Except CommandError EvaluateResult) :
    evaluateCommand options = answer ↔ Answers options answer := by
  refine ⟨fun h => ?_, Answers.evaluateCommand_eq⟩
  obtain ⟨answer', hanswer⟩ := exists_answer options
  rw [← h, hanswer.evaluateCommand_eq]
  exact hanswer

end Formula
