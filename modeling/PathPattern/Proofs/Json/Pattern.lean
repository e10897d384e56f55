import Mathlib.Data.List.TakeWhile
import PathPattern.Json.Pattern
import PathPattern.Proofs.Json.RoundTrip

/-!
# Patterns and their strings

A string with white space around it is read to the text that it spells, and nothing else is read as a
string (`readText_eq_ok_iff`). What is left to decide for a pattern is whether that text compiles
(`decodePattern_of_isStringOf`), so the spelling of the string does not matter, and the string that a
pattern is written as decodes to the pattern again.
-/

namespace PathPattern.Json

variable {cs rest text : List Char} {json : String} {p : Pattern}

/-- A string of the text, spelled in some way, with white space around it. -/
inductive IsStringOf (text : List Char) : List Char → Prop where
  | mk {before body after : List Char} (front : ∀ c ∈ before, isWhite c = true)
    (spells : SpellsText body text) (back : ∀ c ∈ after, isWhite c = true) :
    IsStringOf text (before ++ '"' :: (body ++ '"' :: after))

/-! ### Reading -/

theorem skipWhite_append {before : List Char} (white : ∀ c ∈ before, isWhite c = true)
    (cs : List Char) : skipWhite (before ++ cs) = skipWhite cs :=
  List.dropWhile_append_of_pos white

theorem skipWhite_eq_nil_iff : skipWhite cs = [] ↔ ∀ c ∈ cs, isWhite c = true :=
  List.dropWhile_eq_nil_iff

theorem exists_append_skipWhite (cs : List Char) :
    ∃ before, (∀ c ∈ before, isWhite c = true) ∧ cs = before ++ skipWhite cs :=
  ⟨cs.takeWhile isWhite, fun _ => List.mem_takeWhile_imp, List.takeWhile_append_dropWhile.symm⟩

theorem readString_eq_ok_iff (wanted : Wanted) :
    readString wanted cs = .ok (text, rest) ↔ ∃ before body, (∀ c ∈ before, isWhite c = true) ∧
      SpellsText body text ∧ cs = before ++ '"' :: (body ++ '"' :: rest) := by
  constructor
  · intro read
    obtain ⟨before, white, split⟩ := exists_append_skipWhite cs
    unfold readString at read
    split at read
    · next start =>
      obtain ⟨body, spells, rfl⟩ := stringBody_eq_ok_iff.1 read
      exact ⟨before, body, white, spells, start ▸ split⟩
    · cases read
  · rintro ⟨before, body, white, spells, rfl⟩
    rw [readString, skipWhite_append white, skipWhite_cons (by decide)]
    exact stringBody_of_spellsText spells rest

theorem readText_eq_ok_iff {s : String} :
    readText cs = .ok (s, rest) ↔ ∃ before body, (∀ c ∈ before, isWhite c = true) ∧
      SpellsText body s.toList ∧ cs = before ++ '"' :: (body ++ '"' :: rest) := by
  rw [readText, mapValue_eq_ok_iff, ← readString_eq_ok_iff .text]
  constructor
  · rintro ⟨text, read, rfl⟩
    rwa [String.toList_ofList]
  · intro read
    exact ⟨s.toList, read, String.ofList_toList⟩

/-! ### Decoding and encoding -/

/-- The pattern of a string is that of its text, with the fault of the text if it has one. -/
theorem decodePattern_of_isStringOf {s : String} (h : IsStringOf s.toList json.toList) :
    decodePattern json =
      (Pattern.ofTemplate s).mapError fun fault => .refused root (.template fault) := by
  generalize split : json.toList = chars at h
  cases h with
  | mk front spells back =>
    have read := readText_eq_ok_iff.2 ⟨_, _, front, spells, split⟩
    simp only [decodePattern, read, if_pos (skipWhite_eq_nil_iff.2 back)]
    cases Pattern.ofTemplate s with
    | error fault => rfl
    | ok p => rfl

theorem ofTemplate_eq_ok_iff {s : String} :
    Pattern.ofTemplate s = .ok p ↔ p.template = s ∧ Template.compile s = .ok p.tree := by
  obtain ⟨template, tree⟩ := p
  rw [Pattern.ofTemplate, Pattern.compile]
  cases Template.compile s with
  | error fault => simp [Except.map]
  | ok found => simp [Except.map, eq_comm]

/-- A string decodes to the pattern of its text and to no other. -/
theorem decodePattern_eq_ok_iff {s : String} (h : IsStringOf s.toList json.toList) :
    decodePattern json = .ok p ↔ p.template = s ∧ Template.compile s = .ok p.tree := by
  rw [decodePattern_of_isStringOf h, ← ofTemplate_eq_ok_iff]
  cases Pattern.ofTemplate s with
  | error fault => simp [Except.mapError]
  | ok found => simp [Except.mapError]

/-- Only strings are read as patterns, and as the patterns of their texts. -/
theorem isStringOf_of_decodePattern (h : decodePattern json = .ok p) :
    IsStringOf p.template.toList json.toList := by
  unfold decodePattern at h
  split at h
  · cases h
  next s rest read =>
  obtain ⟨before, body, front, spells, split⟩ := readText_eq_ok_iff.1 read
  split at h
  · cases h
  next q compiles =>
  split at h
  · next white =>
    cases h
    rw [(ofTemplate_eq_ok_iff.1 compiles).1, split]
    exact .mk front spells (skipWhite_eq_nil_iff.1 white)
  · cases h

/-- A written string spells its text. -/
theorem isStringOf_string (text : List Char) : IsStringOf text (string text) := by
  have alone := IsStringOf.mk (List.forall_mem_nil _) (spellsText_escaped text)
    (List.forall_mem_nil _)
  rwa [List.nil_append, ← string_append, List.append_nil] at alone

/-- However a string spells its text, it decodes exactly if the text compiles, to the pattern of the
text, which is written as a string of the same text and decodes again. If the text does not compile,
its fault is the answer, and nothing but strings decodes at all. -/
theorem decodePattern_spelled {s : String} (spelled : IsStringOf s.toList json.toList) :
    (∀ p, decodePattern json = .ok p ↔ p.template = s ∧ Template.compile s = .ok p.tree) ∧
    (∀ why, Template.compile s = .error why → ∃ refusal,
      decodePattern json = .error (.refused root refusal) ∧ refusal.message = why.message) ∧
    (∀ p, decodePattern json = .ok p →
      IsStringOf s.toList (encodePattern p).toList ∧ decodePattern (encodePattern p) = .ok p) ∧
    ∀ other p, decodePattern other = .ok p → IsStringOf p.template.toList other.toList := by
  refine ⟨fun p => decodePattern_eq_ok_iff spelled, ?_, ?_, fun other p => isStringOf_of_decodePattern⟩
  · intro why refused
    refine ⟨.template why, ?_, rfl⟩
    rw [decodePattern_of_isStringOf spelled, Pattern.ofTemplate, Pattern.compile, refused]
    rfl
  · intro p decodes
    have found := (decodePattern_eq_ok_iff spelled).1 decodes
    have written : IsStringOf s.toList (encodePattern p).toList := by
      rw [encodePattern, String.toList_ofList, found.1]
      exact isStringOf_string s.toList
    exact ⟨written, (decodePattern_eq_ok_iff written).2 found⟩

/-- A string with an escaped slash and a pair of surrogates. -/
theorem decodePattern_spelled_surrogates :
    IsStringOf "/😀".toList " \"\\/\\ud83d\\uDE00\"".toList ∧
      decodePattern " \"\\/\\ud83d\\uDE00\"" = .ok ⟨"/😀", .path [.literal "😀"]⟩ := by
  have high : IsCodeUnit ['d', '8', '3', 'd'] (0xd800 + 0x3d) :=
    .mk (by decide : IsHexDigit 'd' 13) (by decide : IsHexDigit '8' 8) (by decide : IsHexDigit '3' 3)
      (by decide : IsHexDigit 'd' 13)
  have low : IsCodeUnit ['D', 'E', '0', '0'] (0xdc00 + 0x200) :=
    .mk (by decide : IsHexDigit 'D' 13) (by decide : IsHexDigit 'E' 14)
      (by decide : IsHexDigit '0' 0) (by decide : IsHexDigit '0' 0)
  have pair := SpellsChar.code (.pair (by decide) (by decide) (by decide : '😀'.toNat = _) high low)
  have spells := SpellsText.cons (.short (by decide : ('/', '/') ∈ shortEscapes)) (.cons pair .nil)
  have spelled : IsStringOf "/😀".toList " \"\\/\\ud83d\\uDE00\"".toList :=
    IsStringOf.mk (List.forall_mem_singleton.2 (rfl : isWhite ' ' = true)) spells
      (List.forall_mem_nil _)
  exact ⟨spelled, ((decodePattern_spelled spelled).1 _).2 ⟨rfl, by decide +kernel⟩⟩

end PathPattern.Json
