import PathPattern.Json.Text
import PathPattern.Proofs.Text.CodePoint

/-!
# Spellings of strings

Between quotes a character may stand for itself, or be written as a short escape, as the code unit of
its code point, or as two code units that are a pair of surrogates; hexadecimal digits may be in
either case. `SpellsText` is that grammar and mentions no reader. A string is read exactly if its
body spells a text, and to that text (`stringBody_eq_ok_iff`).
-/

namespace PathPattern.Json

variable {c d : Char} {n : Nat} {cs ds rest body text : List Char}

/-! ### The grammar -/

/-- A hexadecimal digit in either case, and its value. -/
def IsHexDigit (c : Char) (n : Nat) : Prop :=
  n < 16 ∧ (c = Nat.digitChar n ∨ c = (Nat.digitChar n).toUpper)

instance (c : Char) (n : Nat) : Decidable (IsHexDigit c n) := inferInstanceAs (Decidable (_ ∧ _))

/-- Four hexadecimal digits, and the code unit that they write. -/
inductive IsCodeUnit : List Char → Nat → Prop where
  | mk {c₁ c₂ c₃ c₄ : Char} {n₁ n₂ n₃ n₄ : Nat} (first : IsHexDigit c₁ n₁)
    (second : IsHexDigit c₂ n₂) (third : IsHexDigit c₃ n₃) (fourth : IsHexDigit c₄ n₄) :
    IsCodeUnit [c₁, c₂, c₃, c₄] (((n₁ * 16 + n₂) * 16 + n₃) * 16 + n₄)

/-- What may follow a backslash and a `u`, and the character that it writes: one code unit, or the
pair of surrogates of a character that has no code unit of its own. -/
inductive IsCode : List Char → Char → Prop where
  | single {digits : List Char} {c : Char} (unit : IsCodeUnit digits c.toNat) : IsCode digits c
  | pair {high low : List Char} {c : Char} {m n : Nat} (front : m < 0x400) (back : n < 0x400)
    (value : c.toNat = 0x10000 + m * 0x400 + n) (first : IsCodeUnit high (0xd800 + m))
    (second : IsCodeUnit low (0xdc00 + n)) : IsCode (high ++ '\\' :: 'u' :: low) c

/-- The characters that may follow a backslash alone, and what they write. -/
def shortEscapes : List (Char × Char) :=
  [('"', '"'), ('\\', '\\'), ('/', '/'), ('b', '\x08'), ('f', '\x0c'), ('n', '\x0a'), ('r', '\x0d'),
    ('t', '\x09')]

/-- The ways to write a character between quotes. -/
inductive SpellsChar : List Char → Char → Prop where
  | itself {c : Char} (quote : c ≠ '"') (backslash : c ≠ '\\') (shown : 0x20 ≤ c.toNat) :
    SpellsChar [c] c
  | short {letter c : Char} (mem : (letter, c) ∈ shortEscapes) : SpellsChar ['\\', letter] c
  | code {cs : List Char} {c : Char} (code : IsCode cs c) : SpellsChar ('\\' :: 'u' :: cs) c

/-- The ways to write a text between quotes. -/
inductive SpellsText : List Char → List Char → Prop where
  | nil : SpellsText [] []
  | cons {cs body text : List Char} {c : Char} (first : SpellsChar cs c)
    (more : SpellsText body text) : SpellsText (cs ++ body) (c :: text)

/-! ### Code units -/

theorem hexDigit?_lt (h : hexDigit? c = some n) : n < 16 := by
  unfold hexDigit? Integer.digitValue? at h
  obtain ⟨small, same⟩ := Option.ite_none_right_eq_some.1 h
  exact Option.some.inj same ▸ small

theorem hexDigit?_of_not_ascii (outside : 128 ≤ c.toNat) : hexDigit? c = none := by
  have past {d : Char} (ascii : d.toNat < 128) : ¬c ≤ d := by
    rw [Char.le_def, UInt32.le_iff_toNat_le]
    exact Nat.not_le.2 (Nat.lt_of_lt_of_le ascii outside)
  have nine : ¬c ≤ '9' := past (by decide)
  have small : ¬c ≤ 'z' := past (by decide)
  have capital : ¬c ≤ 'Z' := past (by decide)
  simp [hexDigit?, Integer.digitValue?, Integer.isDigit, nine, small, capital]

theorem IsHexDigit.toNat_lt (h : IsHexDigit c n) : c.toNat < 128 := by
  have table : ∀ n < 16, (Nat.digitChar n).toNat < 128 ∧ (Nat.digitChar n).toUpper.toNat < 128 := by
    decide
  obtain ⟨small, rfl | rfl⟩ := h
  · exact (table n small).1
  · exact (table n small).2

theorem hexDigit?_eq_some_iff : hexDigit? c = some n ↔ IsHexDigit c n := by
  have table : ∀ k < 128, ∀ n < 16,
      hexDigit? (Char.ofNat k) = some n ↔ IsHexDigit (Char.ofNat k) n := by
    decide +kernel
  by_cases ascii : c.toNat < 128
  · have same : ∀ n < 16, hexDigit? c = some n ↔ IsHexDigit c n :=
      Text.of_ascii (P := fun c => ∀ n < 16, hexDigit? c = some n ↔ IsHexDigit c n) table ascii
    exact ⟨fun h => (same n (hexDigit?_lt h)).1 h, fun h => (same n h.1).2 h⟩
  · constructor
    · intro h
      rw [hexDigit?_of_not_ascii (Nat.not_lt.1 ascii)] at h
      cases h
    · intro h
      exact absurd h.toNat_lt ascii

theorem IsCodeUnit.lt (h : IsCodeUnit cs n) : n < 0x10000 := by
  cases h with
  | mk first second third fourth =>
    have := first.1
    have := second.1
    have := third.1
    have := fourth.1
    omega

theorem hexCode_eq_ok_iff :
    hexCode cs = .ok (n, rest) ↔ ∃ digits, IsCodeUnit digits n ∧ cs = digits ++ rest := by
  constructor
  · intro h
    unfold hexCode at h
    split at h
    · split at h
      · next first second third fourth =>
        cases h
        exact ⟨_, .mk (hexDigit?_eq_some_iff.1 first) (hexDigit?_eq_some_iff.1 second)
          (hexDigit?_eq_some_iff.1 third) (hexDigit?_eq_some_iff.1 fourth), rfl⟩
      · cases h
    · cases h
  · rintro ⟨digits, unit, rfl⟩
    cases unit with
    | mk first second third fourth =>
      simp only [List.cons_append, List.nil_append, hexCode, hexDigit?_eq_some_iff.2 first,
        hexDigit?_eq_some_iff.2 second, hexDigit?_eq_some_iff.2 third, hexDigit?_eq_some_iff.2 fourth]

/-! ### Escapes -/

theorem isLowSurrogate_iff : isLowSurrogate n = true ↔ 0xdc00 ≤ n ∧ n ≤ 0xdfff := by
  simp [isLowSurrogate]

theorem isHighSurrogate_iff : isHighSurrogate n = true ↔ 0xd800 ≤ n ∧ n ≤ 0xdbff := by
  simp [isHighSurrogate]

theorem unicodeEscape_of_isCode (h : IsCode cs c) (rest : List Char) :
    unicodeEscape (cs ++ rest) = .ok (c, rest) := by
  cases h with
  | single unit =>
    have side := Text.toNat_lt_or_lt_toNat c
    have notLow : ¬isLowSurrogate c.toNat = true := by
      rw [isLowSurrogate_iff]
      omega
    have notHigh : isHighSurrogate c.toNat = false := by
      rw [Bool.eq_false_iff, Ne, isHighSurrogate_iff]
      omega
    rw [unicodeEscape, hexCode_eq_ok_iff.2 ⟨_, unit, rfl⟩]
    simp [notLow, notHigh]
  | @pair high low _ m n front back value first second =>
    have notLow : ¬isLowSurrogate (0xd800 + m) = true := by
      rw [isLowSurrogate_iff]
      omega
    have isHigh : isHighSurrogate (0xd800 + m) = true := by
      rw [isHighSurrogate_iff]
      omega
    have isLow : isLowSurrogate (0xdc00 + n) = true := by
      rw [isLowSurrogate_iff]
      omega
    have code : 0x10000 + (0xd800 + m - 0xd800) * 0x400 + (0xdc00 + n - 0xdc00) = c.toNat := by
      omega
    have split : high ++ '\\' :: 'u' :: low ++ rest = high ++ '\\' :: 'u' :: (low ++ rest) := by
      simp
    rw [unicodeEscape, split, hexCode_eq_ok_iff.2 ⟨_, first, rfl⟩]
    simp only [if_neg notLow, isHigh, Bool.not_true, Bool.false_eq_true, if_false,
      hexCode_eq_ok_iff.2 ⟨_, second, rfl⟩, if_pos isLow, code, Char.ofNat_toNat]

theorem exists_isCode_of_unicodeEscape (h : unicodeEscape cs = .ok (c, rest)) :
    ∃ ds, IsCode ds c ∧ cs = ds ++ rest := by
  unfold unicodeEscape at h
  split at h
  · cases h
  next m more read =>
  obtain ⟨digits, unit, rfl⟩ := hexCode_eq_ok_iff.1 read
  have small := unit.lt
  split at h
  · cases h
  next notLow =>
  rw [isLowSurrogate_iff] at notLow
  split at h
  · next notHigh =>
    rw [Bool.not_eq_true', ← Bool.not_eq_true, isHighSurrogate_iff] at notHigh
    cases h
    have valid : m.isValidChar := by
      unfold Nat.isValidChar
      omega
    exact ⟨digits, .single (by rwa [Text.toNat_ofNat valid]), rfl⟩
  next notHigh =>
  rw [Bool.not_eq_true', Bool.not_eq_false, isHighSurrogate_iff] at notHigh
  split at h
  · cases h
  · cases h
  · next more =>
    split at h
    · cases h
    next n more' read' =>
    obtain ⟨digits', unit', rfl⟩ := hexCode_eq_ok_iff.1 read'
    split at h
    · next isLow =>
      rw [isLowSurrogate_iff] at isLow
      simp only [Except.ok.injEq, Prod.mk.injEq] at h
      obtain ⟨rfl, rfl⟩ := h
      have valid : (0x10000 + (m - 0xd800) * 0x400 + (n - 0xdc00)).isValidChar := by
        unfold Nat.isValidChar
        omega
      refine ⟨digits ++ '\\' :: 'u' :: digits', .pair (m := m - 0xd800) (n := n - 0xdc00) (by omega)
        (by omega) (Text.toNat_ofNat valid) ?_ ?_, by simp⟩
      · rwa [Nat.add_sub_cancel' (by omega)]
      · rwa [Nat.add_sub_cancel' (by omega)]
    · cases h
  · cases h

theorem shortEscape?_eq_some_iff : shortEscape? c = some d ↔ (c, d) ∈ shortEscapes := by
  constructor
  · intro h
    unfold shortEscape? at h
    split at h
    all_goals cases h
    all_goals decide
  · intro mem
    have table : ∀ entry ∈ shortEscapes, shortEscape? entry.1 = some entry.2 := by decide
    exact table _ mem

/-- What a backslash starts is a short escape or a code. -/
theorem spellsChar_backslash_iff :
    SpellsChar ('\\' :: cs) c ↔
      (∃ letter, cs = [letter] ∧ (letter, c) ∈ shortEscapes) ∨ ∃ ds, cs = 'u' :: ds ∧ IsCode ds c := by
  constructor
  · intro h
    cases h with
    | itself quote backslash => exact absurd rfl backslash
    | short mem => exact .inl ⟨_, rfl, mem⟩
    | code code => exact .inr ⟨_, rfl, code⟩
  · rintro (⟨letter, rfl, mem⟩ | ⟨ds, rfl, code⟩)
    · exact .short mem
    · exact .code code

theorem ne_of_mem_shortEscapes (mem : (c, d) ∈ shortEscapes) : c ≠ 'u' := by
  have table : ∀ entry ∈ shortEscapes, entry.1 ≠ 'u' := by decide
  exact table _ mem

theorem escape_short (other : c ≠ 'u') (short : shortEscape? c = some d) (rest : List Char) :
    escape (c :: rest) = .ok (d, rest) := by
  simp only [escape, if_neg other, short]

theorem escape_of_spellsChar (h : SpellsChar ('\\' :: cs) c) (rest : List Char) :
    escape (cs ++ rest) = .ok (c, rest) := by
  rcases spellsChar_backslash_iff.1 h with ⟨letter, rfl, mem⟩ | ⟨ds, rfl, code⟩
  · exact escape_short (ne_of_mem_shortEscapes mem) (shortEscape?_eq_some_iff.2 mem) rest
  · rw [List.cons_append, escape, if_pos rfl]
    exact unicodeEscape_of_isCode code rest

theorem exists_spellsChar_of_escape (h : escape cs = .ok (c, rest)) :
    ∃ ds, SpellsChar ('\\' :: ds) c ∧ cs = ds ++ rest := by
  cases cs with
  | nil => cases h
  | cons letter more =>
    rw [escape] at h
    split at h
    · next unicode =>
      obtain ⟨ds, code, rfl⟩ := exists_isCode_of_unicodeEscape h
      exact ⟨'u' :: ds, .code code, by rw [unicode, List.cons_append]⟩
    · split at h
      · next short =>
        cases h
        exact ⟨[letter], .short (shortEscape?_eq_some_iff.1 short), rfl⟩
      · cases h

/-! ### Strings -/

theorem stringBody_quote (rest : List Char) : stringBody ('"' :: rest) = .ok ([], rest) := by
  rw [stringBody, if_pos rfl]

theorem stringBody_plain (quote : c ≠ '"') (backslash : c ≠ '\\') (shown : 0x20 ≤ c.toNat) :
    stringBody (c :: rest) = mapValue (c :: ·) (stringBody rest) := by
  rw [stringBody, if_neg quote, if_neg backslash, if_neg (Nat.not_lt.2 shown)]

theorem stringBody_escape (h : escape cs = .ok (d, rest)) :
    stringBody ('\\' :: cs) = mapValue (d :: ·) (stringBody rest) := by
  rw [stringBody, if_neg (by decide), if_pos rfl]
  split
  · next fault => simp [h] at fault
  · next read =>
    rw [h, Except.ok.injEq, Prod.mk.injEq] at read
    obtain ⟨rfl, rfl⟩ := read
    rfl

/-- A character is read from every spelling of it. -/
theorem stringBody_append (h : SpellsChar cs c) (rest : List Char) :
    stringBody (cs ++ rest) = mapValue (c :: ·) (stringBody rest) := by
  cases h with
  | itself quote backslash shown => exact stringBody_plain quote backslash shown
  | short mem => exact stringBody_escape (escape_of_spellsChar (.short mem) rest)
  | code code => exact stringBody_escape (escape_of_spellsChar (.code code) rest)

theorem stringBody_of_spellsText (h : SpellsText body text) (rest : List Char) :
    stringBody (body ++ '"' :: rest) = .ok (text, rest) := by
  induction h with
  | nil => exact stringBody_quote rest
  | cons first more ih =>
    rw [List.append_assoc, stringBody_append first, ih]
    rfl

theorem exists_spellsText_of_stringBody (cs : List Char) : ∀ {text rest : List Char},
    stringBody cs = .ok (text, rest) → ∃ body, SpellsText body text ∧ cs = body ++ '"' :: rest := by
  fun_induction stringBody cs with
  | case1 => simp
  | case2 rest =>
    intro text rest' h
    cases h
    exact ⟨[], .nil, rfl⟩
  | case3 => simp
  | case4 rest d rest' read _ _ ih =>
    intro text rest'' h
    obtain ⟨more, read', rfl⟩ := mapValue_eq_ok_iff.1 h
    obtain ⟨ds, first, rfl⟩ := exists_spellsChar_of_escape read
    obtain ⟨body, spells, rfl⟩ := ih read'
    exact ⟨'\\' :: ds ++ body, .cons first spells, by simp⟩
  | case5 => simp
  | case6 c rest quote backslash shown ih =>
    intro text rest' h
    obtain ⟨more, read, rfl⟩ := mapValue_eq_ok_iff.1 h
    obtain ⟨body, spells, rfl⟩ := ih read
    exact ⟨[c] ++ body, .cons (.itself quote backslash (Nat.not_lt.1 shown)) spells, rfl⟩

/-- A string is read exactly if its body spells a text, and to that text. -/
theorem stringBody_eq_ok_iff :
    stringBody cs = .ok (text, rest) ↔ ∃ body, SpellsText body text ∧ cs = body ++ '"' :: rest := by
  constructor
  · exact exists_spellsText_of_stringBody cs
  · rintro ⟨body, spells, rfl⟩
    exact stringBody_of_spellsText spells rest

end PathPattern.Json
