import PathPattern.Node
import PathPattern.Proofs.Keyword.Meaning
import PathPattern.Proofs.Text.LowerCase

/-!
# The letter case of keywords

The keywords are written in lower-case ASCII letters and without a `k`, so the names that address a
field are their ASCII case variants (`lookup_eq_some_iff`): the lower case of no other text is one of
them, whatever characters it has. A name that is no such variant gives nothing for any record. Numbers have
no letters, so that a name stands for the same in every case (`meaning_toLower`).
-/

namespace PathPattern

namespace Text

/-- The texts are the same but for the case of ASCII letters. -/
def SameButForCase (as bs : List Char) : Prop := as.map Char.toLower = bs.map Char.toLower

instance (as bs : List Char) : Decidable (SameButForCase as bs) :=
  inferInstanceAs (Decidable (_ = _))

end Text

open Text (SameButForCase lowerAll_eq_iff)

variable {name keyword : String} {f : Field} {c : Char}

namespace Field

theorem letters_of_mem_keywords {entry : String × Field} (known : entry ∈ keywords) :
    ∀ c ∈ entry.1.toList, c.isLower = true ∧ c ≠ 'k' := by
  have table : ∀ entry ∈ keywords, entry.1.toList.all (fun c => c.isLower && c != 'k') = true := by
    decide
  simpa using table entry known

theorem toLower_keywords :
    ∀ entry ∈ keywords, entry.1.toList.map Char.toLower = entry.1.toList := by decide

theorem lookup_keywords : ∀ entry ∈ keywords, keywords.lookup entry.1 = some entry.2 := by decide

/-- The lower case of a name is a keyword exactly if the name is an ASCII case variant of it. -/
theorem lowerAll_eq_keyword_iff (mem : (keyword, f) ∈ keywords) :
    String.ofList (Text.lowerAll name.toList) = keyword ↔
      SameButForCase name.toList keyword.toList := by
  rw [SameButForCase, toLower_keywords _ mem, ← lowerAll_eq_iff (letters_of_mem_keywords mem),
    ← String.toList_inj, String.toList_ofList]

theorem lookup_eq_some_iff :
    lookup name = some f ↔
      ∃ keyword, (keyword, f) ∈ keywords ∧ SameButForCase name.toList keyword.toList := by
  constructor
  · intro found
    obtain ⟨before, after, split, -⟩ := List.lookup_eq_some_iff.1 found
    have mem : (String.ofList (Text.lowerAll name.toList), f) ∈ keywords := by simp [split]
    exact ⟨_, mem, (lowerAll_eq_keyword_iff mem).1 rfl⟩
  · rintro ⟨keyword, mem, variant⟩
    rw [lookup, (lowerAll_eq_keyword_iff mem).2 variant]
    exact lookup_keywords _ mem

theorem lookup_isSome_iff :
    (lookup name).isSome = true ↔
      ∃ entry ∈ keywords, SameButForCase name.toList entry.1.toList := by
  simp only [Option.isSome_iff_exists, lookup_eq_some_iff]
  constructor
  · rintro ⟨f, keyword, mem, variant⟩
    exact ⟨_, mem, variant⟩
  · rintro ⟨⟨keyword, f⟩, mem, variant⟩
    exact ⟨f, keyword, mem, variant⟩

/-- No character outside of ASCII stands in for a letter of a keyword. -/
theorem ascii_of_lookup_isSome (found : (lookup name).isSome = true) (mem : c ∈ name.toList) :
    c.toNat < 128 := by
  obtain ⟨entry, known, variant⟩ := lookup_isSome_iff.1 found
  rw [SameButForCase, toLower_keywords _ known] at variant
  have image : c.toLower ∈ entry.1.toList := variant ▸ List.mem_map_of_mem mem
  by_contra outside
  rw [Text.toLower_of_not_ascii (Nat.not_lt.1 outside)] at image
  have letter := Text.isLower_iff.1 (letters_of_mem_keywords known c image).1
  omega

end Field

namespace Keyword

/-- A name addresses a field exactly if it is an ASCII case variant of a keyword of the table, and a
name that addresses none gives nothing, be it a number or not. -/
theorem addresses_iff_case_variant (name : String) :
    (∀ f, Field.lookup name = some f ↔
      ∃ keyword, (keyword, f) ∈ Field.keywords ∧ SameButForCase name.toList keyword.toList) ∧
    ((Field.lookup name).isSome = true ↔
      ∃ entry ∈ Field.keywords, SameButForCase name.toList entry.1.toList) ∧
    ((Field.lookup name).isSome = true → ∀ c ∈ name.toList, c.toNat < 128) ∧
    (Field.lookup name = none → ∀ r, (Node.keyword name).resolve r = "") := by
  refine ⟨fun f => Field.lookup_eq_some_iff, Field.lookup_isSome_iff, ?_, ?_⟩
  · intro found c mem
    exact Field.ascii_of_lookup_isSome found mem
  · intro unknown r
    rw [Node.resolve]
    exact resolve_of_lookup_eq_none unknown

/-- A number with a sign gives nothing, though it has a position to choose. -/
theorem addresses_iff_case_variant_signed :
    Field.lookup "+1" = none ∧ meaning "+1" = .position 1 ∧ ∀ r, (Node.keyword "+1").resolve r = "" := by
  have unknown : Field.lookup "+1" = none := by decide +kernel
  exact ⟨unknown, by decide +kernel, (addresses_iff_case_variant "+1").2.2.2 unknown⟩

/-- The dotted capital does not stand in for an `i`. -/
example : Field.lookup "TİME" = none ∧ Field.lookup "mİn" = none ∧ Field.lookup "mIn" = some .minute := by
  decide +kernel

end Keyword

/-! ### Names that differ in case -/

theorem Field.lookup_toLower (name : String) : lookup name.toLower = lookup name := by
  ext f
  simp only [lookup_eq_some_iff, SameButForCase, Text.toList_toLower,
    Text.map_toLower_map_toLower]

namespace Integer

variable {cs : List Char} {v : Int}

/-- A numeral has no letters. -/
theorem Numeral.not_isAlpha (h : Numeral cs v) : ∀ c ∈ cs, c.isAlpha = false := by
  intro c mem
  rcases h.mem mem with digit | rfl | rfl
  · exact Text.not_isAlpha_of_isDigit digit
  · decide
  · decide

theorem numeral_map_toLower_iff : Numeral (cs.map Char.toLower) v ↔ Numeral cs v := by
  constructor
  · intro h
    have others : ∀ c ∈ cs, c.isAlpha = false := fun c mem =>
      (Text.isAlpha_toLower c).symm.trans (h.not_isAlpha _ (List.mem_map_of_mem mem))
    rwa [Text.map_toLower_of_not_isAlpha others] at h
  · intro h
    rwa [Text.map_toLower_of_not_isAlpha h.not_isAlpha]

end Integer

namespace Keyword

/-- What a name stands for does not depend on the case of its letters. -/
theorem meaning_toLower (name : String) : meaning name.toLower = meaning name := by
  have lowered : name.toLower.toList = name.toList.map Char.toLower := Text.toList_toLower name
  cases read : Integer.readPosition name.toList with
  | ok n =>
    -- A number has no letters at all.
    have others := (Integer.numeral_of_readPosition read).not_isAlpha
    rw [Text.map_toLower_of_not_isAlpha others] at lowered
    rw [String.toList_inj.1 lowered]
  | error cause =>
    unfold meaning
    rw [Field.lookup_toLower, read]
    cases read' : Integer.readPosition name.toLower.toList with
    | ok n =>
      have numeral := Integer.numeral_of_readPosition read'
      rw [lowered, Integer.numeral_map_toLower_iff] at numeral
      rw [lowered, Text.map_toLower_of_not_isAlpha numeral.not_isAlpha, read] at read'
      cases read'
    | error cause' => rfl

theorem isUnknown_toLower (name : String) : isUnknown name.toLower = isUnknown name := by
  rw [isUnknown, isUnknown, meaning_toLower]

theorem field?_toLower (name : String) : field? name.toLower = field? name := by
  rw [field?, field?, meaning_toLower]

theorem resolve_toLower (name : String) (r : Record) : resolve name.toLower r = resolve name r := by
  cases found : Field.lookup name with
  | some f =>
    rw [resolve_of_lookup_eq_some found,
      resolve_of_lookup_eq_some ((Field.lookup_toLower name).trans found)]
  | none =>
    rw [resolve_of_lookup_eq_none found,
      resolve_of_lookup_eq_none ((Field.lookup_toLower name).trans found)]

end Keyword

end PathPattern
