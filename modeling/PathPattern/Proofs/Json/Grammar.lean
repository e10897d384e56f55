import PathPattern.Proofs.Json.Pattern

/-!
# The grammar of JSON

A value is a word, a number, a string, a list or a map, with white space between the tokens as one
likes (`IsPhrase`). A string is a row of symbols between quotes, and a symbol may be a code unit
that is a surrogate without its other half. The strings that spell a text are among them
(`isSymbols_of_spellsText`).
-/

namespace PathPattern.Json

variable {c : Char} {cs body text : List Char}

/-! ### Tokens -/

/-- White space and nothing else. -/
abbrev White (cs : List Char) : Prop := ∀ c ∈ cs, isWhite c = true

/-- Decimal digits, at least one. -/
structure IsDigits (cs : List Char) : Prop where
  nonempty : cs ≠ []
  digits : ∀ c ∈ cs, c.isDigit = true

/-- Digits with no superfluous zero before them. -/
structure IsWhole (cs : List Char) : Prop extends IsDigits cs where
  noZero : cs.head? = some '0' → cs.length ≤ 1

/-- The fraction of a number, which may be missing. -/
inductive IsFraction : List Char → Prop where
  | missing : IsFraction []
  | point {ds : List Char} (digits : IsDigits ds) : IsFraction ('.' :: ds)

/-- The exponent of a number, which may be missing. -/
inductive IsExponent : List Char → Prop where
  | missing : IsExponent []
  | power {mark : Char} {sign ds : List Char} (marked : mark = 'e' ∨ mark = 'E')
    (signed : sign = [] ∨ sign = ['+'] ∨ sign = ['-']) (digits : IsDigits ds) :
    IsExponent (mark :: (sign ++ ds))

/-- A number without its minus sign. -/
inductive IsUnsigned : List Char → Prop where
  | mk {ws fs es : List Char} (whole : IsWhole ws) (fraction : IsFraction fs)
    (exponent : IsExponent es) : IsUnsigned (ws ++ (fs ++ es))

/-- A number. -/
inductive IsNumber : List Char → Prop where
  | plain {cs : List Char} (form : IsUnsigned cs) : IsNumber cs
  | minus {cs : List Char} (form : IsUnsigned cs) : IsNumber ('-' :: cs)

/-- One symbol between quotes: a character that stands for itself, a short escape, or a code
unit. -/
inductive IsSymbol : List Char → Prop where
  | itself {c : Char} (quote : c ≠ '"') (backslash : c ≠ '\\') (shown : 0x20 ≤ c.toNat) :
    IsSymbol [c]
  | short {letter c : Char} (mem : (letter, c) ∈ shortEscapes) : IsSymbol ['\\', letter]
  | unit {digits : List Char} {n : Nat} (unit : IsCodeUnit digits n) :
    IsSymbol ('\\' :: 'u' :: digits)

/-- A row of symbols. -/
inductive IsSymbols : List Char → Prop where
  | nil : IsSymbols []
  | cons {cs body : List Char} (first : IsSymbol cs) (more : IsSymbols body) :
    IsSymbols (cs ++ body)

/-- The words that are values. -/
def words : List (List Char) := ["null".toList, "true".toList, "false".toList]

/-- A value without brackets. -/
inductive IsScalar : List Char → Prop where
  | word {cs : List Char} (mem : cs ∈ words) : IsScalar cs
  | number {cs : List Char} (form : IsNumber cs) : IsScalar cs
  | string {body : List Char} (symbols : IsSymbols body) : IsScalar ('"' :: (body ++ ['"']))

/-! ### Phrases -/

/-- The kinds of phrases: a value, a value with white space around it, such values with commas
between them, a key with its value, and such members with commas between them. -/
inductive Phrase where
  | value
  | element
  | elements
  | member
  | members
  deriving DecidableEq, Repr

/-- The phrases of the grammar. -/
inductive IsPhrase : Phrase → List Char → Prop where
  | scalar {cs : List Char} (form : IsScalar cs) : IsPhrase .value cs
  | emptyList {inside : List Char} (white : White inside) :
    IsPhrase .value ('[' :: (inside ++ [']']))
  | list {inside : List Char} (elements : IsPhrase .elements inside) :
    IsPhrase .value ('[' :: (inside ++ [']']))
  | emptyMap {inside : List Char} (white : White inside) :
    IsPhrase .value ('{' :: (inside ++ ['}']))
  | map {inside : List Char} (members : IsPhrase .members inside) :
    IsPhrase .value ('{' :: (inside ++ ['}']))
  | element {before value after : List Char} (front : White before) (form : IsPhrase .value value)
    (back : White after) : IsPhrase .element (before ++ (value ++ after))
  | lastElement {cs : List Char} (element : IsPhrase .element cs) : IsPhrase .elements cs
  | moreElements {cs ds : List Char} (element : IsPhrase .element cs)
    (more : IsPhrase .elements ds) : IsPhrase .elements (cs ++ ',' :: ds)
  | member {before body after cs : List Char} (front : White before) (key : IsSymbols body)
    (back : White after) (element : IsPhrase .element cs) :
    IsPhrase .member (before ++ '"' :: (body ++ '"' :: (after ++ ':' :: cs)))
  | lastMember {cs : List Char} (member : IsPhrase .member cs) : IsPhrase .members cs
  | moreMembers {cs ds : List Char} (member : IsPhrase .member cs) (more : IsPhrase .members ds) :
    IsPhrase .members (cs ++ ',' :: ds)

/-- A well-formed value, with no white space around it. -/
abbrev IsValue (cs : List Char) : Prop := IsPhrase .value cs

/-! ### Strings that spell a text -/

theorem IsSymbol.isSymbols (h : IsSymbol cs) : IsSymbols cs := by
  have alone := IsSymbols.cons h .nil
  rwa [List.append_nil] at alone

theorem IsSymbols.append (h : IsSymbols cs) (more : IsSymbols body) : IsSymbols (cs ++ body) := by
  induction h with
  | nil => exact more
  | cons first _ ih =>
    rw [List.append_assoc]
    exact .cons first ih

theorem isSymbols_of_spellsChar (h : SpellsChar cs c) : IsSymbols cs := by
  cases h with
  | itself quote backslash shown => exact (IsSymbol.itself quote backslash shown).isSymbols
  | short mem => exact (IsSymbol.short mem).isSymbols
  | code code =>
    cases code with
    | single unit => exact (IsSymbol.unit unit).isSymbols
    | pair _ _ _ first second => exact .cons (.unit first) (IsSymbol.unit second).isSymbols

theorem isSymbols_of_spellsText (h : SpellsText body text) : IsSymbols body := by
  induction h with
  | nil => exact .nil
  | cons first _ ih => exact (isSymbols_of_spellsChar first).append ih

/-! ### What strings hold -/

theorem IsHexDigit.shown {n : Nat} (h : IsHexDigit c n) : 0x20 ≤ c.toNat := by
  have table : ∀ n < 16,
      0x20 ≤ (Nat.digitChar n).toNat ∧ 0x20 ≤ (Nat.digitChar n).toUpper.toNat := by
    decide
  obtain ⟨small, rfl | rfl⟩ := h
  · exact (table n small).1
  · exact (table n small).2

theorem IsSymbol.shown (h : IsSymbol cs) : ∀ c ∈ cs, 0x20 ≤ c.toNat := by
  have backslash : 0x20 ≤ '\\'.toNat := by decide
  cases h with
  | itself quote backslash shown => exact List.forall_mem_singleton.2 shown
  | short mem =>
    have table : ∀ entry ∈ shortEscapes, 0x20 ≤ entry.1.toNat := by decide
    exact List.forall_mem_cons.2 ⟨backslash, List.forall_mem_singleton.2 (table _ mem)⟩
  | unit unit =>
    cases unit with
    | mk first second third fourth =>
      simp only [List.forall_mem_cons]
      exact ⟨backslash, by decide, first.shown, second.shown, third.shown, fourth.shown, by simp⟩

/-- No control stands in a string as it is. -/
theorem IsSymbols.shown (h : IsSymbols body) : ∀ c ∈ body, 0x20 ≤ c.toNat := by
  induction h with
  | nil => exact List.forall_mem_nil _
  | cons first _ ih => exact List.forall_mem_append.2 ⟨first.shown, ih⟩

/-! ### What tokens start with -/

/-- What a value starts with: no white space, no comma, and no bracket that closes. -/
structure StartsValue (c : Char) : Prop where
  shown : isWhite c = false
  notComma : c ≠ ','
  notListEnd : c ≠ ']'
  notMapEnd : c ≠ '}'

theorem startsValue_of_mem (mem : c ∈ ['"', '-', 'n', 't', 'f', '[', '{']) : StartsValue c := by
  simp only [List.mem_cons, List.not_mem_nil, or_false] at mem
  rcases mem with rfl | rfl | rfl | rfl | rfl | rfl | rfl
  all_goals exact ⟨by decide, by decide, by decide, by decide⟩

theorem startsValue_of_isDigit (digit : c.isDigit = true) : StartsValue c := by
  refine ⟨isWhite_of_isDigit digit, ?_, ?_, ?_⟩
  all_goals
    rintro rfl
    cases digit

end PathPattern.Json
