import PathPattern.Proofs.Json.Literal

/-!
# Written strings are read back

Between quotes every character is written as itself or as one escape, and both are spellings of it
(`spellsChar_escaped`). So a JSON string is read to the text it was written from, whatever comes
behind its closing quote (`stringBody_string`).
-/

namespace PathPattern.Json

variable {n : Nat}

theorem isHexDigit_digitChar (small : n < 16) : IsHexDigit (Nat.digitChar n) n := ⟨small, .inl rfl⟩

/-- A control is written as a code unit of two zeros and two digits. -/
theorem isCodeUnit_of_control (control : n < 0x20) :
    IsCodeUnit ['0', '0', Nat.digitChar (n / 16), Nat.digitChar (n % 16)] n := by
  have zero : IsHexDigit '0' 0 := isHexDigit_digitChar (by decide)
  have unit := IsCodeUnit.mk zero zero (isHexDigit_digitChar (n := n / 16) (by omega))
    (isHexDigit_digitChar (n := n % 16) (by omega))
  have value : ((0 * 16 + 0) * 16 + n / 16) * 16 + n % 16 = n := by omega
  rwa [value] at unit

/-- What a character is written as is one of its spellings. -/
theorem spellsChar_escaped (c : Char) : SpellsChar (escaped c) c := by
  have short {letter : Char} (mem : (letter, c) ∈ shortEscapes) : SpellsChar ['\\', letter] c :=
    .short mem
  unfold escaped
  split
  · next quote => exact short (by rw [quote]; decide)
  next quote =>
  split
  · next backslash => exact short (by rw [backslash]; decide)
  next backslash =>
  split
  · next backspace => exact short (by rw [backspace]; decide)
  split
  · next formFeed => exact short (by rw [formFeed]; decide)
  split
  · next lineFeed => exact short (by rw [lineFeed]; decide)
  split
  · next carriageReturn => exact short (by rw [carriageReturn]; decide)
  split
  · next tab => exact short (by rw [tab]; decide)
  split
  · next control => exact .code (.single (isCodeUnit_of_control control))
  · next shown => exact .itself quote backslash (Nat.not_lt.1 shown)

theorem spellsText_escaped (cs : List Char) : SpellsText (cs.flatMap escaped) cs := by
  induction cs with
  | nil => exact .nil
  | cons c cs ih =>
    rw [List.flatMap_cons]
    exact .cons (spellsChar_escaped c) ih

/-- A text written between quotes is read back, and what follows the quote is left. -/
theorem stringBody_string (cs rest : List Char) :
    stringBody (cs.flatMap escaped ++ '"' :: rest) = .ok (cs, rest) :=
  stringBody_of_spellsText (spellsText_escaped cs) rest

theorem string_append (cs rest : List Char) :
    string cs ++ rest = '"' :: (cs.flatMap escaped ++ '"' :: rest) := by
  simp [string]

end PathPattern.Json
