import Formula.Proofs.Number.Text
import Formula.Proofs.Token.Segmentation
import Formula.Proofs.Tree.Errors

/-!
# Literals of a source

The lexer checks the text of every literal that it reads, so each literal token of a source has a
value. `Value.IsWritten` says what such a value looks like: it is of a kind that has literals, and a
number of it has no sign, which is an operator of its own.
-/

namespace Formula

/-- Whether a value is one that a literal can stand for. -/
def Value.IsWritten : Value → Prop
  | integer n => 0 ≤ n.toInt
  | decimal d => d.negative = false
  | string _ | boolean _ | dateTime _ => True
  | double _ | expression _ => False

/-- No literal is an expression. -/
theorem Value.IsWritten.kind_ne_expression {v : Value} (h : v.IsWritten) :
    v.kind ≠ .expression := by
  cases v with
  | expression e => exact h.elim
  | _ => exact nofun

/-! ## Numbers without a sign -/

/-- Digits without a sign denote no negative integer. -/
theorem Integer.toInt_nonneg_of_read? {digits : List Char} {n : Int64} (hne : digits ≠ [])
    (hdigits : ∀ d ∈ digits, Text.isDigit d = true) (h : Integer.read? digits = some n) :
    0 ≤ n.toInt := by
  obtain ⟨c, rest, rfl⟩ := List.exists_cons_of_ne_nil hne
  rw [Integer.read?_of_isDigit (hdigits c List.mem_cons_self)] at h
  unfold Integer.readSigned? at h
  split at h
  · rw [Integer.toInt_of_ofInt? h]
    exact Int.natCast_nonneg _
  · exact nomatch h

/-- A decimal has the sign that it is made with. -/
theorem Decimal.negative_of_ofParts? {negative : Bool} {mantissa scale : Nat} {d : Decimal}
    (h : Decimal.ofParts? negative mantissa scale = some d) : d.negative = negative := by
  unfold Decimal.ofParts? at h
  split at h
  · cases h
    rfl
  · exact nomatch h

/-- Without a sign in front, no decimal is negative. -/
theorem Decimal.negative_of_readSigned? {text : List Char} {d : Decimal}
    (h : Decimal.readSigned? false text = some d) : d.negative = false := by
  obtain ⟨parts, -, hparts⟩ := Option.bind_eq_some_iff.mp h
  exact Decimal.negative_of_ofParts? hparts

/-- Digits and points denote no negative decimal. -/
theorem Decimal.negative_of_read? {text : List Char} {d : Decimal}
    (hchars : ∀ c ∈ text, Text.isDigit c = true ∨ c = '.')
    (hhead : text.head?.any Text.isDigit = true) (h : Decimal.read? text = some d) :
    d.negative = false := by
  have hunmarked : ∀ c ∈ text, Decimal.isMark c = false := by
    intro c hc
    rcases hchars c hc with hdigit | rfl
    · exact Decimal.isMark_eq_false_of_isDigit hdigit
    · rfl
  rw [Decimal.read?_of_not_isMark hunmarked] at h
  cases text with
  | nil => exact nomatch hhead
  | cons c rest =>
    rw [Decimal.readPlain?_of_isDigit hhead] at h
    exact Decimal.negative_of_readSigned? h

/-! ## Tokens -/

/-- The characters of a number with a point, as the token shows it. -/
theorem Lexeme.leading_chars {whole places : List Char}
    (hwhole : ∀ d ∈ whole, Text.isDigit d = true) (hplaces : ∀ d ∈ places, Text.isDigit d = true) :
    (∀ c ∈ leading whole ++ '.' :: places, Text.isDigit c = true ∨ c = '.') ∧
      (leading whole ++ '.' :: places).head?.any Text.isDigit = true := by
  have hleading : ∃ d rest, leading whole = d :: rest ∧ ∀ c ∈ d :: rest, Text.isDigit c = true := by
    cases whole with
    | nil => exact ⟨'0', [], rfl, List.forall_mem_singleton.mpr rfl⟩
    | cons d rest => exact ⟨d, rest, rfl, hwhole⟩
  obtain ⟨d, rest, heq, hdigits⟩ := hleading
  rw [heq]
  refine ⟨fun c hc => ?_, hdigits d List.mem_cons_self⟩
  rcases List.mem_append.mp hc with hc | hc
  · exact .inl (hdigits c hc)
  · rcases List.mem_cons.mp hc with rfl | hc
    · exact .inr rfl
    · exact .inl (hplaces c hc)

/-- A literal with a valid text has a value that can be written. -/
theorem exists_map_of_isSome {α : Type} {result : Option α} {make : α → Value}
    (hvalid : result.isSome = true) (hwritten : ∀ a, result = some a → (make a).IsWritten) :
    ∃ v, result.map make = some v ∧ v.IsWritten := by
  obtain ⟨a, ha⟩ := Option.isSome_iff_exists.mp hvalid
  exact ⟨make a, by rw [ha]; rfl, hwritten a ha⟩

/-- A literal that the lexer reads has a value. -/
theorem Lexeme.Spells.exists_value {token : Token} {lexeme : List Char}
    (h : Spells token.kind token.text.toList lexeme) (hliteral : token.IsLiteral) :
    ∃ v, token.value? = some v ∧ v.IsWritten := by
  obtain ⟨kind, text, place⟩ := token
  dsimp only [Token.IsLiteral, Token.value?] at h hliteral ⊢
  generalize text.toList = chars at h ⊢
  cases h with
  | string _ => exact ⟨_, rfl, trivial⟩
  | boolean _ _ => exact ⟨_, rfl, trivial⟩
  | date _ hvalid => exact exists_map_of_isSome hvalid fun _ _ => trivial
  | number hne hdigits hvalid =>
    exact exists_map_of_isSome hvalid fun n hn => Integer.toInt_nonneg_of_read? hne hdigits hn
  | decimalNumber hwhole _ hplaces hvalid =>
    obtain ⟨hchars, hhead⟩ := leading_chars hwhole hplaces
    exact exists_map_of_isSome hvalid fun d hd => Decimal.negative_of_read? hchars hhead hd
  | _ => simp at hliteral

/-- Every literal among the tokens of a source has a value. -/
theorem exists_value_of_tokenize {source : String} {tokens : List Token}
    (h : tokenize source = .ok tokens) {token : Token} (htoken : token ∈ tokens)
    (hliteral : token.IsLiteral) : ∃ v, token.value? = some v ∧ v.IsWritten := by
  obtain ⟨pieces, hpieces, rfl⟩ := tokenize_iff_segmentation.mp h
  rcases List.mem_append.mp htoken with hpiece | hend
  · obtain ⟨piece, hmem, rfl⟩ := List.mem_map.mp hpiece
    exact (hpieces.fits piece hmem).spelled.exists_value hliteral
  · rw [List.mem_singleton.mp hend] at hliteral
    exact absurd hliteral (by simp [Token.IsLiteral, Token.eof])

end Formula
