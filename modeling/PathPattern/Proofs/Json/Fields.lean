import PathPattern.Proofs.Json.Document

/-!
# Values of a record's entries

An entry takes over the values that give it: a string, the level in decimal, or a string of a text
that names the time (`Entry.Gives`). Of a well-formed value, it takes over just that, wherever the
value stands (`readEntry_eq_ok_iff`).
-/

namespace PathPattern.Json

open Integer (signedDecimal decimal)

variable {before value rest rest' cs text : List Char} {base r : Record} {entry : Entry} {i : Int64}
  {t : Instant} {s : String}

/-- A string of the text, with no white space around it. -/
inductive Quotes (text : List Char) : List Char → Prop where
  | mk {body : List Char} (spells : SpellsText body text) : Quotes text ('"' :: (body ++ ['"']))

/-- The text is a value of this entry of the record: a string of the record's text there, its level
in decimal, or a string of a text that names its time. -/
def Entry.Gives (entry : Entry) (value : List Char) (r : Record) : Prop :=
  match entry with
  | source => Quotes r.source.toList value
  | model => Quotes r.model.toList value
  | mime => Quotes r.mime.toList value
  | kind => Quotes r.kind.toList value
  | level => value = signedDecimal r.level.toInt
  | acquired => ∃ text, Quotes text value ∧ Rfc3339.read text = .ok r.acquired
  | file => Quotes r.file.toList value

theorem Quotes.isValue (h : Quotes text value) : IsValue value := by
  cases h with
  | mk spells => exact .scalar (.string (isSymbols_of_spellsText spells))

theorem Quotes.head?_eq (h : Quotes text value) : value.head? = some '"' := by
  cases h
  rfl

theorem quotes_string (text : List Char) : Quotes text (string text) :=
  .mk (spellsText_escaped text)

theorem Quotes.shown (h : Quotes text value) : ∀ c ∈ value, 0x20 ≤ c.toNat := by
  cases h with
  | mk spells =>
    have quote : 0x20 ≤ '"'.toNat := by decide
    have symbols := (isSymbols_of_spellsText spells).shown
    exact List.forall_mem_cons.2
      ⟨quote, List.forall_mem_append.2 ⟨symbols, List.forall_mem_singleton.2 quote⟩⟩

/-- A string is of one text. -/
theorem Quotes.unique {text' : List Char} (h : Quotes text value) (h' : Quotes text' value) :
    text = text' := by
  cases h with
  | mk spells =>
    have read := stringBody_of_spellsText spells []
    generalize same : '"' :: (_ ++ ['"']) = value at h'
    cases h' with
    | mk spells' =>
      rw [List.append_cancel_right (List.cons.inj same).2, stringBody_of_spellsText spells'] at read
      simp only [Except.ok.injEq, Prod.mk.injEq] at read
      exact read.1.symm

theorem isUnsigned_decimal (n : Nat) : IsUnsigned (decimal n) := by
  have run := Integer.digitRun_decimal n
  have whole : IsWhole (decimal n) := by
    refine ⟨⟨run.nonempty, run.digits⟩, fun zero => ?_⟩
    by_cases none : n = 0
    · rw [none]
      decide
    · exact absurd zero (Integer.head?_decimal (by omega))
  have form := IsUnsigned.mk whole .missing .missing
  rwa [List.append_nil, List.append_nil] at form

theorem isNumber_signedDecimal (v : Int) : IsNumber (signedDecimal v) := by
  unfold signedDecimal
  split
  · exact .minus (isUnsigned_decimal _)
  · exact .plain (isUnsigned_decimal _)

theorem Entry.Gives.isValue (h : entry.Gives value r) : IsValue value := by
  cases entry with
  | level => exact h ▸ .scalar (.number (isNumber_signedDecimal _))
  | acquired =>
    obtain ⟨text, quotes, -⟩ := h
    exact quotes.isValue
  | source | model | mime | kind | file => exact Quotes.isValue h

theorem readString_eq_ok_iff_quotes (wanted : Wanted) : readString wanted cs = .ok (text, rest) ↔
    ∃ before value, White before ∧ Quotes text value ∧ cs = before ++ (value ++ rest) := by
  rw [readString_eq_ok_iff]
  constructor
  · rintro ⟨before, body, white, spells, rfl⟩
    exact ⟨before, _, white, .mk spells, by simp⟩
  · rintro ⟨before, value, white, ⟨spells⟩, rfl⟩
    exact ⟨before, _, white, spells, by simp⟩

theorem readText_eq_ok_iff_quotes : readText cs = .ok (s, rest) ↔
    ∃ before value, White before ∧ Quotes s.toList value ∧ cs = before ++ (value ++ rest) := by
  rw [readText, mapValue_eq_ok_iff, ← readString_eq_ok_iff_quotes .text]
  constructor
  · rintro ⟨text, read, rfl⟩
    rwa [String.toList_ofList]
  · intro read
    exact ⟨s.toList, read, String.ofList_toList⟩

theorem readTime_eq_ok_iff : readTime cs = .ok (t, rest) ↔ ∃ before value text, White before ∧
    Quotes text value ∧ Rfc3339.read text = .ok t ∧ cs = before ++ (value ++ rest) := by
  constructor
  · intro h
    unfold readTime at h
    split at h
    · cases h
    next text rest' read =>
    split at h
    · cases h
    · next names =>
      cases h
      obtain ⟨before, value, white, quotes, rfl⟩ := (readString_eq_ok_iff_quotes .time).1 read
      exact ⟨before, value, text, white, quotes, names, rfl⟩
  · rintro ⟨before, value, text, white, quotes, names, rfl⟩
    have read : readString .time (before ++ (value ++ rest)) = .ok (text, rest) :=
      (readString_eq_ok_iff_quotes .time).2 ⟨before, value, white, quotes, rfl⟩
    simp only [readTime, read, names]

theorem readInteger_append (white : White before) (cs : List Char) :
    readInteger (before ++ cs) = readInteger cs := by
  simp only [readInteger, skipWhite_append white]

theorem exists_of_readInteger (h : readInteger cs = .ok (i, rest)) : ∃ before, White before ∧
    EndsNumber rest ∧ cs = before ++ (signedDecimal i.toInt ++ rest) := by
  obtain ⟨before, white, split⟩ := exists_append_skipWhite cs
  suffices found : EndsNumber rest ∧ skipWhite cs = signedDecimal i.toInt ++ rest from
    ⟨before, white, found.1, found.2 ▸ split⟩
  unfold readInteger at h
  split at h
  · cases h
  next c rest' start =>
  split at h
  · split at h
    · cases h
    · next v more read =>
      split at h
      · next fits =>
        cases h
        obtain ⟨same, low, ends⟩ := eq_signedDecimal_of_number read
        have back : (Int64.ofInt v).toInt = v := by
          unfold Integer.maxSigned at low fits
          exact Int64.toInt_ofInt_of_le (by omega) (by omega)
        exact ⟨ends, by rw [start, same, back]⟩
      · cases h
    · cases h
  · cases h

/-- A value of an entry is taken over from the record that it is a value of. -/
theorem readEntry_of_gives (gives : entry.Gives value r) (front : White before)
    (ends : EndsNumber rest) (base : Record) :
    readEntry entry base (before ++ (value ++ rest)) = .ok (entry.take r base, rest) := by
  have textRead {s : String} (quotes : Quotes s.toList value) :
      readText (before ++ (value ++ rest)) = .ok (s, rest) :=
    readText_eq_ok_iff_quotes.2 ⟨before, value, front, quotes, rfl⟩
  cases entry with
  | level =>
    have read := readInteger_signedDecimal r.level ends
    rw [← show value = signedDecimal r.level.toInt from gives] at read
    simp only [readEntry, readInteger_append front, read, mapValue]
    rfl
  | acquired =>
    obtain ⟨text, quotes, names⟩ := gives
    have read : readTime (before ++ (value ++ rest)) = .ok (r.acquired, rest) :=
      readTime_eq_ok_iff.2 ⟨before, value, text, front, quotes, names, rfl⟩
    simp only [readEntry, read, mapValue]
    rfl
  | source | model | mime | kind | file =>
    simp only [readEntry, textRead gives, mapValue]
    rfl

/-- A string is skipped whatever follows it. -/
theorem skipValue_quotes (quotes : Quotes text value) (front : White before) (rest : List Char) :
    skipValue (before ++ (value ++ rest)) = .ok rest := by
  cases quotes with
  | @mk body spells =>
    have skipped := skipString_append (isSymbols_of_spellsText spells) rest
    have taken : step .value [] '"' (body ++ '"' :: rest) = .ok (.more, [], rest) :=
      step_scalar startsValue_quote (by decide) (by decide) skipped []
    have done : skipFrom .more [] rest = .ok rest := by rw [skipFrom.eq_def, if_pos ⟨rfl, rfl⟩]
    rw [skipValue, skipFrom_append (by simp) front, List.cons_append, List.append_assoc,
      List.singleton_append, skipFrom_of_step (by simp) taken, done]

/-- Only a value of the entry is taken over, and reading it ends where skipping it does. -/
theorem exists_gives_of_readEntry (h : readEntry entry base cs = .ok (r, rest)) :
    ∃ before value, White before ∧ entry.Gives value r ∧ entry.take r base = r ∧
      cs = before ++ (value ++ rest) ∧ skipValue cs = .ok rest := by
  cases entry with
  | level =>
    obtain ⟨i, read, rfl⟩ := mapValue_eq_ok_iff.1 h
    obtain ⟨before, white, ends, rfl⟩ := exists_of_readInteger read
    exact ⟨before, _, white, rfl, rfl, rfl,
      skipValue_append (.scalar (.number (isNumber_signedDecimal _))) white ends⟩
  | acquired =>
    obtain ⟨t, read, rfl⟩ := mapValue_eq_ok_iff.1 h
    obtain ⟨before, value, text, white, quotes, names, rfl⟩ := readTime_eq_ok_iff.1 read
    exact ⟨before, value, white, ⟨text, quotes, names⟩, rfl, rfl,
      skipValue_quotes quotes white rest⟩
  | source | model | mime | kind | file =>
    obtain ⟨s, read, rfl⟩ := mapValue_eq_ok_iff.1 h
    obtain ⟨before, value, white, quotes, rfl⟩ := readText_eq_ok_iff_quotes.1 read
    exact ⟨before, value, white, quotes, rfl, rfl, skipValue_quotes quotes white rest⟩

/-- Of a well-formed value, an entry takes over what the value gives. -/
theorem readEntry_eq_ok_iff (form : IsValue value) (front : White before) (ends : EndsNumber rest) :
    readEntry entry base (before ++ (value ++ rest)) = .ok (r, rest') ↔
      (∃ given, entry.Gives value given ∧ entry.take given base = r) ∧ rest' = rest := by
  constructor
  · intro h
    obtain ⟨before', value', front', gives, taken, split, skipped⟩ := exists_gives_of_readEntry h
    rw [skipValue_append form front ends, Except.ok.injEq] at skipped
    subst skipped
    have same := (value_unique form gives.isValue front front' ends ends split).1
    exact ⟨⟨r, same ▸ gives, taken⟩, rfl⟩
  · rintro ⟨⟨given, gives, rfl⟩, rfl⟩
    exact readEntry_of_gives gives front ends base

end PathPattern.Json
