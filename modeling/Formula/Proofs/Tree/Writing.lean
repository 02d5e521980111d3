import Formula.Expression
import Formula.Proofs.Calendar.Text
import Formula.Proofs.Number.Text
import Formula.Proofs.Token.Writing
import Formula.Proofs.Tree.Parsing

/-!
# Trees written down

`Writes tree words` is how a tree is written: literals and references as themselves, operations in
parentheses with any spelling of their operator, calls by the name of their function. What can be
written so that it is read back is `Tree.Printable`.

Each word is a lexeme (`Word`), and the tokens of the words derive the tree, with a nesting below
twice its height. `ofSource_writes` puts the lexer and the parser together: the words with single
blanks between them are an expression with the tree they were written from.
-/

namespace Formula

/-! ## Writing -/

/-- A literal as it is written. -/
def Value.written : Value → String
  | string s => quoted s
  | dateTime t => String.ofList ('#' :: t.text.toList ++ ['#'])
  | value => value.text

mutual

/-- Whether a tree is written as the given words. -/
inductive Writes : Tree → List String → Prop where
  | literal (value : Value) : Writes (.literal value) [value.written]
  | reference (name : String) :
      Writes (.reference name) [String.ofList ('[' :: name.toList ++ [']'])]
  | unary {op : UnaryOp} {spelling : String} {operand : Tree} {words : List String}
      (hspelling : spelling ∈ (Operator.unary op).spellings) (h : Writes operand words) :
      Writes (.unary op operand) ("(" :: spelling :: words ++ [")"])
  | binary {op : BinaryOp} {spelling : String} {left right : Tree} {first second : List String}
      (hspelling : spelling ∈ (Operator.binary op).spellings) (hleft : Writes left first)
      (hright : Writes right second) :
      Writes (.binary op left right) ("(" :: (first ++ spelling :: second) ++ [")"])
  | emptyCall (function : Function) : Writes (.call function []) [function.name, "(", ")"]
  | call {function : Function} {trees : List Tree} {words : List String}
      (h : WritesArguments trees words) :
      Writes (.call function trees) (function.name :: "(" :: words ++ [")"])

/-- Whether one or more trees are written as the given words, with commas between them. -/
inductive WritesArguments : List Tree → List String → Prop where
  | last {tree : Tree} {words : List String} (h : Writes tree words) : WritesArguments [tree] words
  | more {tree : Tree} {trees : List Tree} {first rest : List String} (hfirst : Writes tree first)
      (hrest : WritesArguments trees rest) :
      WritesArguments (tree :: trees) (first ++ "," :: rest)

end

/-- Whether a literal can be written: there is no sign before a number, a decimal has a place, and a
time has no nanoseconds, in a year of at most four digits. -/
def Value.Printable : Value → Prop
  | integer n => 0 ≤ n.toInt
  | decimal d => d.negative = false ∧ 0 < d.scale
  | string _ | boolean _ => True
  | dateTime t => t.time.nanosecond = 0 ∧ 0 ≤ t.date.year ∧ t.date.year ≤ 9999
  | double _ | expression _ => False

/-- Whether a tree can be written: all its literals can be, no name has a closing bracket in it, and
every call is accepted. -/
def Tree.Printable : Tree → Prop
  | literal value => value.Printable
  | reference name => ']' ∉ name.toList
  | unary _ operand => operand.Printable
  | binary _ left right => left.Printable ∧ right.Printable
  | call function arguments =>
    function.arity.accepts arguments.length = true ∧ allPrintable arguments
where
  /-- Whether each of several trees can be written. -/
  allPrintable : List Tree → Prop
    | [] => True
    | tree :: rest => tree.Printable ∧ allPrintable rest

/-! ## Words -/

namespace Word

/-- An integer without a sign is one word. -/
theorem exists_number {n : Int64} (h : 0 ≤ n.toInt) : ∃ word : Word,
    word.lexeme = Integer.text n ∧
      ∀ place, Token.value? ⟨word.kind, word.text, place⟩ = some (.integer n) := by
  have htext := Integer.toList_text h
  have hread : Integer.read? (Integer.text n).toList = some n := by
    rw [htext]
    exact Integer.read?_digitsOfNat h
  have hspells : Lexeme.Spells .number (Integer.text n).toList (Integer.text n).toList := by
    refine .number ?_ ?_ (by rw [hread]; rfl)
    · rw [htext]
      exact Text.digitsOfNat_ne_nil _
    · rw [htext]
      exact fun c => Text.isDigit_of_mem_digitsOfNat
  refine ⟨⟨.number, Integer.text n, Integer.text n, hspells⟩, rfl, fun place => ?_⟩
  show (Integer.read? (Integer.text n).toList).map Value.integer = _
  rw [hread]
  rfl

/-- A decimal without a sign, but with places, is one word. -/
theorem exists_decimalNumber {d : Decimal} (hsign : d.negative = false) (hscale : 0 < d.scale) :
    ∃ word : Word, word.lexeme = d.text ∧
      ∀ place, Token.value? ⟨word.kind, word.text, place⟩ = some (.decimal d) := by
  have htext : d.text.toList = Text.positional (Text.digitsOfNat d.mantissa) (-d.scale) := by
    rw [Decimal.text, String.toList_ofList, hsign]
    rfl
  have hread : Decimal.read? d.text.toList = some d := by
    rw [htext]
    exact Decimal.read?_positional hsign
  have hspells : Lexeme.Spells .decimalNumber d.text.toList d.text.toList := by
    obtain ⟨front, back, hpoint, hne, hdigits, -, hlength⟩ := Decimal.positional_of_scale_pos hscale
    rw [List.forall_mem_append] at hdigits
    have hback : back ≠ [] := List.ne_nil_of_length_pos (by omega)
    have hleading : Lexeme.leading front = front := if_neg hne
    have hvalid : (Decimal.read? (Lexeme.leading front ++ '.' :: back)).isSome := by
      rw [hleading, ← hpoint, ← htext, hread]
      rfl
    have hspells := Lexeme.Spells.decimalNumber hdigits.1 hback hdigits.2 hvalid
    rwa [hleading, ← hpoint, ← htext] at hspells
  refine ⟨⟨.decimalNumber, d.text, d.text, hspells⟩, rfl, fun place => ?_⟩
  show (Decimal.read? d.text.toList).map Value.decimal = _
  rw [hread]
  rfl

/-- A string in quotes is one word. -/
theorem exists_string (s : String) : ∃ word : Word, word.lexeme = quoted s ∧
    ∀ place, Token.value? ⟨word.kind, word.text, place⟩ = some (.string s) :=
  ⟨⟨.string, s, quoted s, Lexeme.spells_quoted s⟩, rfl, fun _ => rfl⟩

/-- A truth value is one word. -/
theorem exists_boolean (b : Bool) : ∃ word : Word, word.lexeme = (Value.boolean b).text ∧
    ∀ place, Token.value? ⟨word.kind, word.text, place⟩ = some (.boolean b) := by
  have hspells : Lexeme.Spells .boolean (Value.boolean b).text.toList
      (Value.boolean b).text.toList := by
    cases b with
    | true => exact .boolean (by decide) (by decide)
    | false => exact .boolean (by decide) (by decide)
  refine ⟨⟨.boolean, (Value.boolean b).text, (Value.boolean b).text, hspells⟩, rfl, fun place => ?_⟩
  have hword : ((Value.boolean b).text.toList.map Char.toLower == "true".toList) = b := by
    cases b <;> decide
  exact congrArg (fun b => some (Value.boolean b)) hword

/-- A date of four digits for the year, in whole seconds, is one word. -/
theorem exists_date {t : DateTime} (hsecond : t.time.nanosecond = 0) (hyear : 0 ≤ t.date.year)
    (hyear' : t.date.year ≤ 9999) :
    ∃ word : Word, word.lexeme = String.ofList ('#' :: t.text.toList ++ ['#']) ∧
      ∀ place, Token.value? ⟨word.kind, word.text, place⟩ = some (.dateTime t) := by
  have hread : Calendar.read? t.text.toList = some t := by
    rw [Calendar.read?_text hyear hyear' (by omega), TimeOfDay.wholeSeconds_eq hsecond]
  have hspells : Lexeme.Spells .date t.text.toList
      (String.ofList ('#' :: t.text.toList ++ ['#'])).toList := by
    rw [String.toList_ofList]
    exact .date (Calendar.hash_notMem_text hyear hyear') (by rw [hread]; rfl)
  refine ⟨⟨.date, t.text, _, hspells⟩, rfl, fun place => ?_⟩
  show (Calendar.read? t.text.toList).map Value.dateTime = _
  rw [hread]
  rfl

/-- Every printable literal is one word. -/
theorem exists_literal {value : Value} (h : value.Printable) : ∃ word : Word,
    word.lexeme = value.written ∧
      ∀ place, Token.value? ⟨word.kind, word.text, place⟩ = some value := by
  cases value with
  | integer n => exact exists_number h
  | decimal d => exact exists_decimalNumber h.1 h.2
  | double x => exact h.elim
  | string s => exact exists_string s
  | boolean b => exact exists_boolean b
  | dateTime t => exact exists_date h.1 h.2.1 h.2.2
  | expression e => exact h.elim

/-- A reference to a name without closing bracket. -/
def reference (name : String) (h : ']' ∉ name.toList) : Word :=
  ⟨.reference, name, String.ofList ('[' :: name.toList ++ [']']),
    (String.toList_ofList (l := '[' :: name.toList ++ [']'])).symm ▸ .reference h⟩

def leftParen : Word := ⟨.leftParen, "(", "(", .leftParen⟩

def rightParen : Word := ⟨.rightParen, ")", ")", .rightParen⟩

def comma : Word := ⟨.comma, ",", ",", .comma⟩

/-- Every spelling of an operator is a sign or a name. -/
theorem exists_spelling {op : Operator} {spelling : String} (h : spelling ∈ op.spellings) :
    ∃ word : Word, word.lexeme = spelling ∧ word.text = spelling ∧
      word.kind ∈ [.operator, .identifier] := by
  -- a finite table: there are as many operators as there are cases
  have hforms : ∀ op ∈ Operator.all, ∀ spelling ∈ op.spellings,
      spelling ∈ Lexeme.oneCharSigns.map String.singleton ∨
      spelling ∈ Lexeme.twoCharSigns.map (fun pair => String.ofList [pair.1, pair.2]) ∨
      spelling ∈ ["not", "mod", "and", "or"] := by
    decide +kernel
  rcases hforms op (Operator.mem_all op) spelling h with hone | htwo | hname
  · obtain ⟨a, ha, rfl⟩ := List.mem_map.mp hone
    refine ⟨⟨.operator, String.singleton a, String.singleton a, .operator ?_⟩, rfl, rfl, by simp⟩
    rw [String.toList_singleton]
    exact .one ha
  · obtain ⟨⟨a, b⟩, hab, rfl⟩ := List.mem_map.mp htwo
    refine ⟨⟨.operator, String.ofList [a, b], String.ofList [a, b], .operator ?_⟩, rfl, rfl, by simp⟩
    rw [String.toList_ofList]
    exact .two hab
  · have hnames : (["not", "mod", "and", "or"].all fun name => isName name.toList) = true := by
      decide +kernel
    have hspells := spells_of_isName (List.all_eq_true.mp hnames spelling hname)
    exact ⟨⟨.identifier, spelling, spelling, hspells⟩, rfl, rfl, by simp⟩

/-- Every spelling of an operator is one word, which stands for the operator. -/
theorem exists_operator {op : Operator} {spelling : String} (h : spelling ∈ op.spellings) :
    ∃ word : Word, word.lexeme = spelling ∧
      ∀ place, Token.operator? ⟨word.kind, word.text, place⟩ op.fixity = some op := by
  obtain ⟨word, hlexeme, htext, hkind⟩ := exists_spelling h
  refine ⟨word, hlexeme, fun place => ?_⟩
  rw [Token.operator?_of_kind hkind]
  exact Operator.find?_of_mem_spellings (htext ▸ h)

/-- The name of a function is one word, by which the function is found. -/
theorem exists_name (f : Function) : ∃ word : Word, word.lexeme = f.name ∧
    word.kind = .identifier ∧ Function.find? word.text = some f := by
  have hname : isName f.name.toList = true := by
    cases f <;> simp only [Function.name, String.reduceToList] <;> decide +kernel
  exact ⟨⟨.identifier, f.name, f.name, spells_of_isName hname⟩, rfl, rfl, f.find?_name⟩

end Word

/-! ## Tokens of a written tree -/

/-- Whether the words are lexemes of which the tokens form the tree, with a nesting below twice its
height. -/
def Fills (tree : Tree) (texts : List String) : Prop :=
  ∃ words : List Word, words.map Word.lexeme = texts ∧
    ∀ tokens, shapes tokens = words.map Word.shape →
      ∃ n, Derives .unary tokens tree n ∧ n < 2 * tree.height

/-- Whether the words are lexemes of which the tokens form the arguments of a call. -/
def FillsArguments (trees : List Tree) (texts : List String) : Prop :=
  ∃ words : List Word, words.map Word.lexeme = texts ∧
    ∀ tokens, shapes tokens = words.map Word.shape →
      ∃ n, DerivesArguments tokens trees n ∧ n < 2 * Tree.height.heightAll trees

namespace Fills

variable {operand left right : Tree} {spelling : String} {texts first second : List String}

/-- A word that derives a tree by itself fills it. -/
theorem of_word {tree : Tree} (word : Word) (h : ∀ place, Derives .unary
    [⟨word.kind, word.text, place⟩] tree 1) (hheight : tree.height = 1) :
    Fills tree [word.lexeme] := by
  refine ⟨[word], rfl, fun tokens htokens => ?_⟩
  obtain ⟨place, others, rfl, hrest⟩ := shapes_eq_cons_iff.mp htokens
  cases List.map_eq_nil_iff.mp hrest
  exact ⟨1, h place, by omega⟩

/-- Words of an operation in parentheses, the operation being one level deeper. -/
theorem parens {tree : Tree} {texts : List String} (h : ∃ words : List Word,
    words.map Word.lexeme = texts ∧ ∀ tokens, shapes tokens = words.map Word.shape →
      ∃ n, Derives .or tokens tree n ∧ n + 1 < 2 * tree.height) :
    Fills tree ("(" :: texts ++ [")"]) := by
  obtain ⟨words, rfl, hderives⟩ := h
  refine ⟨Word.leftParen :: words ++ [Word.rightParen], by simp; exact ⟨rfl, rfl⟩, ?_⟩
  intro tokens htokens
  rw [List.cons_append, List.map_cons, List.map_append] at htokens
  obtain ⟨place, others, rfl, hothers⟩ := shapes_eq_cons_iff.mp htokens
  obtain ⟨inside, close, rfl, hinside, hclose⟩ := shapes_eq_append_iff.mp hothers
  obtain ⟨place', rest, rfl, hrest⟩ := shapes_eq_cons_iff.mp hclose
  cases List.map_eq_nil_iff.mp hrest
  obtain ⟨n, hn, hbound⟩ := hderives inside hinside
  exact ⟨n + 1, .group rfl hn rfl, hbound⟩

/-- A prefix operation is filled in parentheses. -/
theorem unary {op : UnaryOp} (hspelling : spelling ∈ (Operator.unary op).spellings)
    (h : Fills operand texts) :
    Fills (.unary op operand) ("(" :: spelling :: texts ++ [")"]) := by
  obtain ⟨word, rfl, hoperator⟩ := Word.exists_operator hspelling
  obtain ⟨words, rfl, hderives⟩ := h
  refine parens ⟨word :: words, rfl, fun tokens htokens => ?_⟩
  obtain ⟨place, others, rfl, hothers⟩ := shapes_eq_cons_iff.mp htokens
  obtain ⟨n, hn, hbound⟩ := hderives others hothers
  have hop : Token.operator? ⟨word.kind, word.text, place⟩ .before = some (.unary op) :=
    hoperator place
  refine ⟨n + 1, Derives.loosen (.before hop hn) (by decide), ?_⟩
  rw [Tree.height]
  omega

/-- So is an infix operation. -/
theorem binary {op : BinaryOp} (hspelling : spelling ∈ (Operator.binary op).spellings)
    (hleft : Fills left first) (hright : Fills right second) :
    Fills (.binary op left right) ("(" :: (first ++ spelling :: second) ++ [")"]) := by
  obtain ⟨word, rfl, hoperator⟩ := Word.exists_operator hspelling
  obtain ⟨words, rfl, hderives⟩ := hleft
  obtain ⟨words', rfl, hderives'⟩ := hright
  refine parens ⟨words ++ word :: words', by simp, fun tokens htokens => ?_⟩
  rw [List.map_append] at htokens
  obtain ⟨front, back, rfl, hfront, hback⟩ := shapes_eq_append_iff.mp htokens
  obtain ⟨place, others, rfl, hothers⟩ := shapes_eq_cons_iff.mp hback
  obtain ⟨m, hm, hbound⟩ := hderives front hfront
  obtain ⟨n, hn, hbound'⟩ := hderives' others hothers
  have hop : Token.operator? ⟨word.kind, word.text, place⟩ .between = some (.binary op) :=
    hoperator place
  -- both operands are in parentheses or leaves, so they stand at any level
  have hoperation : Derives op.precedence _ (.binary op left right) (max m (n + 1)) :=
    .between hop rfl (hm.loosen (Precedence.rank_le_unary _)) (hn.loosen (Precedence.rank_le_unary _))
  refine ⟨max m (n + 1), hoperation.loosen op.or_rank_le, ?_⟩
  rw [Tree.height]
  omega

/-- A call without arguments is filled by its name and parentheses. -/
theorem emptyCall (f : Function) : Fills (.call f []) [f.name, "(", ")"] := by
  obtain ⟨word, hlexeme, hkind, hfind⟩ := Word.exists_name f
  refine ⟨[word, Word.leftParen, Word.rightParen], by rw [← hlexeme]; rfl, fun tokens htokens => ?_⟩
  obtain ⟨place, others, rfl, hothers⟩ := shapes_eq_cons_iff.mp htokens
  obtain ⟨place₁, others₁, rfl, hothers₁⟩ := shapes_eq_cons_iff.mp hothers
  obtain ⟨place₂, others₂, rfl, hothers₂⟩ := shapes_eq_cons_iff.mp hothers₁
  cases List.map_eq_nil_iff.mp hothers₂
  exact ⟨1, .emptyCall hkind hfind rfl rfl, Nat.one_lt_two⟩

/-- A call is filled by its name and its arguments in parentheses. -/
theorem call {f : Function} {trees : List Tree} (h : FillsArguments trees texts) :
    Fills (.call f trees) (f.name :: "(" :: texts ++ [")"]) := by
  obtain ⟨word, hlexeme, hkind, hfind⟩ := Word.exists_name f
  obtain ⟨words, rfl, hderives⟩ := h
  refine ⟨word :: Word.leftParen :: words ++ [Word.rightParen], ?_, fun tokens htokens => ?_⟩
  · rw [← hlexeme, List.map_append]
    rfl
  · rw [List.cons_append, List.cons_append, List.map_cons, List.map_cons, List.map_append] at htokens
    obtain ⟨place, others, rfl, hothers⟩ := shapes_eq_cons_iff.mp htokens
    obtain ⟨place₁, others₁, rfl, hothers₁⟩ := shapes_eq_cons_iff.mp hothers
    obtain ⟨inside, close, rfl, hinside, hclose⟩ := shapes_eq_append_iff.mp hothers₁
    obtain ⟨place₂, rest, rfl, hrest⟩ := shapes_eq_cons_iff.mp hclose
    cases List.map_eq_nil_iff.mp hrest
    obtain ⟨n, hn, hbound⟩ := hderives inside hinside
    refine ⟨n + 1, .call hkind hfind rfl hn rfl, ?_⟩
    rw [Tree.height]
    omega

/-- The last argument is filled by its own words. -/
theorem last {tree : Tree} (h : Fills tree texts) : FillsArguments [tree] texts := by
  obtain ⟨words, rfl, hderives⟩ := h
  refine ⟨words, rfl, fun tokens htokens => ?_⟩
  obtain ⟨n, hn, hbound⟩ := hderives tokens htokens
  refine ⟨n, .last (hn.loosen (by decide)), ?_⟩
  rw [Tree.height.heightAll, Tree.height.heightAll, Nat.max_zero]
  exact hbound

/-- Arguments are filled with commas between them. -/
theorem more {tree : Tree} {trees : List Tree} (hfirst : Fills tree first)
    (hrest : FillsArguments trees second) :
    FillsArguments (tree :: trees) (first ++ "," :: second) := by
  obtain ⟨words, rfl, hderives⟩ := hfirst
  obtain ⟨words', rfl, hderives'⟩ := hrest
  refine ⟨words ++ Word.comma :: words', by rw [List.map_append]; rfl, fun tokens htokens => ?_⟩
  rw [List.map_append] at htokens
  obtain ⟨front, back, rfl, hfront, hback⟩ := shapes_eq_append_iff.mp htokens
  obtain ⟨place, others, rfl, hothers⟩ := shapes_eq_cons_iff.mp hback
  obtain ⟨m, hm, hbound⟩ := hderives front hfront
  obtain ⟨n, hn, hbound'⟩ := hderives' others hothers
  refine ⟨max m n, .more (hm.loosen (by decide)) rfl hn, ?_⟩
  rw [Tree.height.heightAll]
  omega

end Fills

mutual

/-- The words of a tree that can be written fill it. -/
theorem Writes.fills {tree : Tree} {texts : List String} :
    Writes tree texts → tree.Printable → Fills tree texts
  | .literal value, h => by
    obtain ⟨word, hlexeme, hvalue⟩ := Word.exists_literal h
    rw [← hlexeme]
    exact .of_word word (fun place => .literal (hvalue place)) rfl
  | .reference name, h => .of_word (Word.reference name h) (fun _ => .reference rfl) rfl
  | .unary hspelling hoperand, h => .unary hspelling (hoperand.fills h)
  | .binary hspelling hleft hright, h => .binary hspelling (hleft.fills h.1) (hright.fills h.2)
  | .emptyCall f, _ => .emptyCall f
  | .call harguments, h => .call (harguments.fills h.2)

/-- So do those of arguments. -/
theorem WritesArguments.fills {trees : List Tree} {texts : List String} :
    WritesArguments trees texts → Tree.Printable.allPrintable trees → FillsArguments trees texts
  | .last htree, h => Fills.last (htree.fills h.1)
  | .more hfirst hrest, h => Fills.more (hfirst.fills h.1) (hrest.fills h.2)

end

/-! ## Reading back -/

mutual

/-- The calls of a tree that can be written are accepted. -/
theorem Tree.callsAccepted_of_printable :
    (tree : Tree) → tree.Printable → tree.callsAccepted = true
  | .literal _, _ | .reference _, _ => rfl
  | .unary _ operand, h => operand.callsAccepted_of_printable h
  | .binary _ left right, h => by
    rw [Tree.callsAccepted, left.callsAccepted_of_printable h.1,
      right.callsAccepted_of_printable h.2]
    rfl
  | .call _ arguments, h => by
    rw [Tree.callsAccepted, h.1, allAccepted_of_allPrintable arguments h.2]
    rfl

/-- So are those of several trees. -/
theorem Tree.allAccepted_of_allPrintable :
    (trees : List Tree) → Tree.Printable.allPrintable trees →
      Tree.callsAccepted.allAccepted trees = true
  | [], _ => rfl
  | tree :: rest, h => by
    rw [Tree.callsAccepted.allAccepted, tree.callsAccepted_of_printable h.1,
      allAccepted_of_allPrintable rest h.2]
    rfl

end

mutual

/-- Every tree can be written. -/
theorem Tree.exists_writes : (tree : Tree) → ∃ words, Writes tree words
  | .literal value => ⟨_, .literal value⟩
  | .reference name => ⟨_, .reference name⟩
  | .unary op operand => by
    obtain ⟨words, h⟩ := operand.exists_writes
    exact ⟨_, .unary (List.mem_cons_self : op.symbol ∈ (Operator.unary op).spellings) h⟩
  | .binary op left right => by
    obtain ⟨first, hleft⟩ := left.exists_writes
    obtain ⟨second, hright⟩ := right.exists_writes
    exact ⟨_, .binary (List.mem_cons_self : op.symbol ∈ (Operator.binary op).spellings) hleft hright⟩
  | .call f arguments => by
    have h := Tree.exists_writesArguments arguments
    cases arguments with
    | nil => exact ⟨_, .emptyCall f⟩
    | cons tree rest =>
      obtain ⟨words, h⟩ := h (List.cons_ne_nil tree rest)
      exact ⟨_, .call h⟩

/-- Arguments, if there are any, have words. -/
theorem Tree.exists_writesArguments :
    (trees : List Tree) → trees ≠ [] → ∃ words, WritesArguments trees words
  | [], h => absurd rfl h
  | tree :: rest, _ => by
    obtain ⟨words, h⟩ := tree.exists_writes
    have hrest := Tree.exists_writesArguments rest
    cases rest with
    | nil => exact ⟨words, .last h⟩
    | cons next others =>
      obtain ⟨words', h'⟩ := hrest (List.cons_ne_nil next others)
      exact ⟨_, .more h h'⟩

end

/-- A printable tree of height at most 128 is read back from whatever it is written as. -/
theorem ofSource_writes (tree : Tree) (serial : Nat) (h : tree.Printable)
    (hheight : tree.height ≤ 128) :
    (∃ words, Writes tree words) ∧ ∀ words, Writes tree words →
      Expression.ofSource (" ".intercalate words) serial =
        .ok (.mk (" ".intercalate words) tree serial) := by
  refine ⟨tree.exists_writes, fun words hwrites => ?_⟩
  obtain ⟨items, hitems, hderives⟩ := hwrites.fills h
  obtain ⟨tokens, place, htokenize, hshapes⟩ := tokenize_words items
  obtain ⟨n, hn, hbound⟩ := hderives tokens hshapes
  rw [hitems] at htokenize
  -- the nesting is below twice the height, and so within the limit of the parser
  have hdepth : maxDepth = 256 := rfl
  have hwithEnd : Parser.withEnd (tokens ++ [Token.eof place]) = tokens ++ [Token.eof place] := by
    rw [Parser.withEnd, List.getLast?_concat]
    rfl
  have htree : Tree.ofTokens (tokens ++ [Token.eof place]) = .ok tree :=
    ofTokens_of_derives hwithEnd rfl (hn.loosen (by decide))
      ⟨by omega, tree.callsAccepted_of_printable h⟩ (by omega)
  rw [Expression.ofSource, Tree.ofSource, htokenize]
  show Except.map _ ((Tree.ofTokens (tokens ++ [Token.eof place])).mapError _) = _
  rw [htree]
  rfl

/-- The disjunction of a reference and a truth value, with its operator spelled as a word. -/
theorem ofSource_disjunction :
    Expression.ofSource "( [a] or true )" 0 = .ok (.mk "( [a] or true )"
      (.binary .or (.reference "a") (.literal (.boolean true))) 0) := by
  have hwrites : Writes (.binary .or (.reference "a") (.literal (.boolean true)))
      ["(", "[a]", "or", "true", ")"] :=
    .binary (by decide) (.reference "a") (.literal (.boolean true))
  have hname : ']' ∉ "a".toList := by decide
  have htext : " ".intercalate ["(", "[a]", "or", "true", ")"] = "( [a] or true )" := by decide
  have hprintable : Tree.Printable (.binary .or (.reference "a") (.literal (.boolean true))) :=
    ⟨hname, trivial⟩
  have hread := (ofSource_writes _ 0 hprintable (by decide)).2 _ hwrites
  rwa [htext] at hread

end Formula
