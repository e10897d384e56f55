import PathPattern.Proofs.Json.Fields
import PathPattern.Proofs.Json.Worth

/-!
# What a value shows

A well-formed value shows what it is, whatever follows it, unless it is a number that is outsized or a
string whose symbols spell no text; those are malformed (`Unreadable`, `shows_or_unreadable`). An
entry takes over what it can, and of all else it says why it does not (`Entry.Refuses`), so the value
alone decides how an entry is read (`readEntry_of_shows`, `readEntry_of_unreadable`).
-/

namespace PathPattern.Json

open Integer (signedDecimal)

variable {before value rest cs ds body : List Char} {entry : Entry} {found : Found} {fault : Fault}

/-! ### Strings -/

theorem unicodeEscape_malformed {digits : List Char} {n : Nat} (unit : IsCodeUnit digits n)
    (skipped : skipString cs = .ok rest) (failed : unicodeEscape (digits ++ cs) = .error fault) :
    fault = .malformed := by
  have read : hexCode (digits ++ cs) = .ok (n, cs) := hexCode_eq_ok_iff.2 ⟨digits, unit, rfl⟩
  unfold unicodeEscape at failed
  simp only [read] at failed
  split at failed
  · cases failed
    rfl
  split at failed
  · cases failed
  -- The text does not end here, since the string is skipped to its end.
  split at failed
  · simp [skipString.eq_def] at skipped
  · simp [skipString.eq_def] at skipped
  · next more =>
    have second : ∃ m behind, hexCode more = .ok (m, behind) := by
      cases code : hexCode more with
      | ok out => exact ⟨out.1, out.2, rfl⟩
      | error fault =>
        rw [skipString.eq_def] at skipped
        simp only [if_neg (show '\\' ≠ '"' by decide), if_true] at skipped
        split at skipped
        · cases skipped
        · next found => simp [code] at found
    obtain ⟨m, behind, code⟩ := second
    simp only [code] at failed
    split at failed
    · cases failed
    · cases failed
      rfl
  · cases failed
    rfl

theorem escape_malformed (skipped : skipString ('\\' :: cs) = .ok rest)
    (failed : escape cs = .error fault) : fault = .malformed := by
  obtain ⟨body, symbols, split⟩ := exists_isSymbols_of_skipString _ skipped
  cases symbols with
  | nil => cases split
  | cons first more =>
    cases first with
    | itself quote backslash => exact absurd (List.cons.inj split).1.symm backslash
    | @short letter c mem =>
      obtain rfl : cs = letter :: (_ ++ '"' :: rest) := (List.cons.inj split).2
      rw [escape_short (ne_of_mem_shortEscapes mem) (shortEscape?_eq_some_iff.2 mem)] at failed
      cases failed
    | @unit digits n unit =>
      obtain rfl : cs = 'u' :: (digits ++ _ ++ '"' :: rest) := (List.cons.inj split).2
      rw [escape, if_pos rfl, List.append_assoc] at failed
      exact unicodeEscape_malformed unit (skipString_append more rest) failed

theorem skipString_symbols (symbols : IsSymbols body) (cs : List Char) :
    skipString (body ++ cs) = skipString cs := by
  induction symbols with
  | nil => rfl
  | cons first more ih => rw [List.append_assoc, skipString_symbol first, ih]

/-- A string that can be skipped fails to be read as malformed only. -/
theorem stringBody_malformed (cs : List Char) : skipString cs = .ok rest →
    stringBody cs = .error fault → fault = .malformed := by
  fun_induction stringBody cs with
  | case1 =>
    intro skipped
    rw [skipString.eq_def] at skipped
    cases skipped
  | case2 =>
    intro _ failed
    cases failed
  | case3 cs fault' escapes =>
    intro skipped failed
    cases failed
    exact escape_malformed skipped escapes
  | case4 cs d cs' escapes _ _ ih =>
    intro skipped failed
    obtain ⟨ds, spells, rfl⟩ := exists_spellsChar_of_escape escapes
    rw [← List.cons_append, skipString_symbols (isSymbols_of_spellsChar spells)] at skipped
    cases read : stringBody cs' with
    | ok out => simp [read, mapValue] at failed
    | error fault' =>
      simp only [read, mapValue, Except.error.injEq] at failed
      exact ih skipped (failed ▸ read)
  | case5 =>
    intro _ failed
    cases failed
    rfl
  | case6 c cs quote backslash shown ih =>
    intro skipped failed
    have plain := IsSymbol.itself quote backslash (Nat.not_lt.1 shown)
    rw [← List.singleton_append, skipString_symbol plain] at skipped
    cases read : stringBody cs with
    | ok out => simp [read, mapValue] at failed
    | error fault' =>
      simp only [read, mapValue, Except.error.injEq] at failed
      exact ih skipped (failed ▸ read)

/-- A row of symbols that spells no text is malformed whatever follows. -/
theorem stringBody_of_spells_none (symbols : IsSymbols body) (lone : ∀ text, ¬SpellsText body text)
    (rest : List Char) : stringBody (body ++ '"' :: rest) = .error .malformed := by
  have skipped := skipString_append symbols rest
  cases read : stringBody (body ++ '"' :: rest) with
  | error fault => rw [stringBody_malformed _ skipped read]
  | ok out =>
    obtain ⟨body', spells, split⟩ := stringBody_eq_ok_iff.1 read
    rw [split, skipString_append (isSymbols_of_spellsText spells), Except.ok.injEq] at skipped
    rw [skipped] at split
    exact absurd (List.append_cancel_right split ▸ spells) (lone _)

/-! ### What a value shows -/

/-- A well-formed value, and what it turns out to be. -/
inductive Shows : List Char → Found → Prop where
  | null : Shows "null".toList .null
  | isTrue : Shows "true".toList (.boolean true)
  | isFalse : Shows "false".toList (.boolean false)
  | integer {v : Int} (fits : Fits64 v) : Shows (signedDecimal v) (.integer v)
  | floating {value : List Char} {negative : Bool} {s : Nat} {e : Int} {x : Binary64}
    (floats : Floats value negative (some (s, e))) (held : Binary64.ofDecimal s e = some x) :
    Shows value (.floating negative x)
  | string {text value : List Char} (quotes : Quotes text value) :
    Shows value (.text (String.ofList text))
  | list {cs : List Char} (form : IsValue ('[' :: cs)) : Shows ('[' :: cs) .sequence
  | map {cs : List Char} (form : IsValue ('{' :: cs)) : Shows ('{' :: cs) .map

/-- A well-formed value that shows nothing: a number past all doubles, or a string whose symbols
spell no text because one of them is half of a surrogate pair. -/
inductive Unreadable : List Char → Prop where
  | number {value : List Char} {negative : Bool} {worth : Option (Nat × Int)}
    (floats : Floats value negative worth) (outsized : Outsized worth) : Unreadable value
  | string {body : List Char} (symbols : IsSymbols body) (lone : ∀ text, ¬SpellsText body text) :
    Unreadable ('"' :: (body ++ ['"']))

theorem Shows.isValue (shows : Shows value found) : IsValue value := by
  cases shows with
  | null | isTrue | isFalse => exact .scalar (.word (by decide))
  | integer => exact .scalar (.number (isNumber_signedDecimal _))
  | floating floats => exact .scalar (.number floats.isNumber)
  | string quotes => exact quotes.isValue
  | list form | map form => exact form

theorem shows_or_unreadable (form : IsValue value) :
    (∃ found, Shows value found) ∨ Unreadable value := by
  cases form with
  | scalar scalar =>
    cases scalar with
    | word mem =>
      simp only [words, List.mem_cons, List.not_mem_nil, or_false] at mem
      rcases mem with rfl | rfl | rfl
      · exact .inl ⟨_, .null⟩
      · exact .inl ⟨_, .isTrue⟩
      · exact .inl ⟨_, .isFalse⟩
    | number form =>
      rcases form.cases64 with ⟨v, fits, rfl⟩ | ⟨negative, worth, floats⟩
      · exact .inl ⟨_, .integer fits⟩
      by_cases outsized : Outsized worth
      · exact .inr (.number floats outsized)
      · obtain ⟨s, e, x, rfl, held⟩ := floats.exists_of_not_outsized outsized
        exact .inl ⟨_, .floating floats held⟩
    | @string body symbols =>
      by_cases spells : ∃ text, SpellsText body text
      · obtain ⟨text, spells⟩ := spells
        exact .inl ⟨_, .string (.mk spells)⟩
      · exact .inr (.string symbols (not_exists.1 spells))
  | emptyList white => exact .inl ⟨_, .list (.emptyList white)⟩
  | list elements => exact .inl ⟨_, .list (.list elements)⟩
  | emptyMap white => exact .inl ⟨_, .map (.emptyMap white)⟩
  | map members => exact .inl ⟨_, .map (.map members)⟩

theorem IsNumber.exists_start (form : IsNumber value) :
    ∃ c cs, value = c :: cs ∧ (c = '-' ∨ c.isDigit = true) := by
  cases form with
  | minus form => exact ⟨'-', _, rfl, .inl rfl⟩
  | plain form =>
    cases form with
    | mk wholePart =>
      obtain ⟨d, ws, rfl⟩ := List.exists_cons_of_ne_nil wholePart.nonempty
      exact ⟨d, _, rfl, .inr (wholePart.digits d (by simp))⟩

/-- A number is refused for what it is worth. -/
theorem refuse_number {c : Char} (start : c = '-' ∨ c.isDigit = true) (wanted : Wanted)
    (cs : List Char) : refuse wanted (c :: cs) =
      match number (c :: cs) with
      | .error fault => fault
      | .ok (found, _) => .refused root (.wrongType found wanted) := by
  have other {d : Char} (minus : d ≠ '-') (noDigit : d.isDigit = false) : c ≠ d := by
    rintro rfl
    rcases start with rfl | digit
    · exact minus rfl
    · rw [noDigit] at digit
      cases digit
  have begins : c = '-' ∨ Integer.isDigit c = true := by rwa [Integer.isDigit_eq]
  cases worth : number (c :: cs) <;>
    simp only [refuse, if_neg (other (d := 'n') (by decide) (by decide)),
      if_neg (other (d := 't') (by decide) (by decide)),
      if_neg (other (d := 'f') (by decide) (by decide)), if_pos begins, worth]

theorem refuse_of_number (form : IsNumber value)
    (read : number (value ++ rest) = .ok (found, rest)) (wanted : Wanted) :
    refuse wanted (value ++ rest) = .refused root (.wrongType found wanted) := by
  obtain ⟨c, cs, rfl, start⟩ := form.exists_start
  rw [List.cons_append] at read ⊢
  rw [refuse_number start, read]

/-- A string is refused for its text. -/
theorem refuse_string (wanted : Wanted) (cs : List Char) : refuse wanted ('"' :: cs) =
    match stringBody cs with
    | .error fault => fault
    | .ok (text, _) => .refused root (.wrongType (.text (String.ofList text)) wanted) := rfl

theorem refuse_of_shows (shows : Shows value found) (ends : EndsNumber rest) (wanted : Wanted) :
    refuse wanted (value ++ rest) = .refused root (.wrongType found wanted) := by
  cases shows with
  | null | isTrue | isFalse => rfl
  | integer fits =>
    exact refuse_of_number (isNumber_signedDecimal _) (fits.number_append ends) wanted
  | floating floats held =>
    exact refuse_of_number floats.isNumber (floats.number_append held ends) wanted
  | string quotes =>
    cases quotes with
    | mk spells =>
      have read := stringBody_of_spellsText spells rest
      rw [List.cons_append, List.append_assoc, List.singleton_append, refuse_string, read]
  | list | map => rfl

theorem refuse_of_unreadable (unreadable : Unreadable value) (ends : EndsNumber rest)
    (wanted : Wanted) : refuse wanted (value ++ rest) = .malformed := by
  cases unreadable with
  | number floats outsized =>
    have read := number_of_outsized floats outsized ends
    obtain ⟨c, cs, rfl, start⟩ := floats.isNumber.exists_start
    rw [List.cons_append] at read ⊢
    rw [refuse_number start, read]
  | string symbols lone =>
    rw [List.cons_append, List.append_assoc, List.singleton_append, refuse_string,
      stringBody_of_spells_none symbols lone]

/-! ### Values that an entry does not take over -/

theorem IsNumber.head?_ne_quote (form : IsNumber value) : value.head? ≠ some '"' := by
  obtain ⟨c, cs, rfl, rfl | digit⟩ := form.exists_start
  · simp
  · intro same
    cases Option.some.inj same
    cases digit

theorem Shows.head?_ne_quote (shows : Shows value found) (other : ∀ s, found ≠ .text s) :
    value.head? ≠ some '"' := by
  cases shows with
  | null | isTrue | isFalse => decide
  | integer => exact (isNumber_signedDecimal _).head?_ne_quote
  | floating floats => exact floats.isNumber.head?_ne_quote
  | string => exact absurd rfl (other _)
  | list | map => simp

theorem readString_of_not_quote (form : IsValue value) (other : value.head? ≠ some '"')
    (front : White before) (wanted : Wanted) (rest : List Char) :
    readString wanted (before ++ (value ++ rest)) = .error (refuse wanted (value ++ rest)) := by
  obtain ⟨c, cs, rfl, start⟩ := form.exists_start
  rw [readString, List.cons_append, skipWhite_append_cons front start.shown]
  split
  · next same => exact absurd (congrArg some (List.cons.inj same).1) other
  · rfl

/-- Where an integer is called for, a number is taken for what it is worth. -/
theorem readInteger_number (form : IsNumber value) (front : White before) (rest : List Char) :
    readInteger (before ++ (value ++ rest)) =
      match number (value ++ rest) with
      | .error fault => .error fault
      | .ok (.integer i, rest) =>
        if i ≤ Integer.maxSigned then .ok (Int64.ofInt i, rest)
        else .error (.refused root (.wrongValue i .integer))
      | .ok (found, _) => .error (.refused root (.wrongType found .integer)) := by
  obtain ⟨c, cs, rfl, start⟩ := form.exists_start
  have begins : c = '-' ∨ Integer.isDigit c = true := by rwa [Integer.isDigit_eq]
  have shown : isWhite c = false := by
    rcases start with rfl | digit
    · decide
    · exact isWhite_of_isDigit digit
  have skip := skipWhite_append_cons front shown (cs ++ rest)
  rw [List.cons_append]
  cases worth : number (c :: (cs ++ rest)) with
  | error fault => simp only [readInteger, skip, if_pos begins, worth]
  | ok out =>
    obtain ⟨found, more⟩ := out
    cases found <;> simp only [readInteger, skip, if_pos begins, worth]

theorem readInteger_other {c : Char} (front : White before) (start : StartsValue c)
    (minus : c ≠ '-') (noDigit : c.isDigit = false) (cs : List Char) :
    readInteger (before ++ c :: cs) = .error (refuse .integer (c :: cs)) := by
  have other : ¬(c = '-' ∨ Integer.isDigit c = true) := by
    rw [Integer.isDigit_eq, noDigit]
    simp [minus]
  simp only [readInteger, skipWhite_append_cons front start.shown, if_neg other]

theorem readInteger_of_shows (shows : Shows value found) (other : ∀ i, found ≠ .integer i)
    (front : White before) (ends : EndsNumber rest) : readInteger (before ++ (value ++ rest)) =
      .error (.refused root (.wrongType found .integer)) := by
  have refused := refuse_of_shows shows ends .integer
  obtain ⟨c, cs, shape, start⟩ := shows.isValue.exists_start
  have apart (minus : value.head? ≠ some '-') (noDigit : ∀ d ∈ value.head?, d.isDigit = false) :
      readInteger (before ++ (value ++ rest)) =
        .error (.refused root (.wrongType found .integer)) := by
    rw [shape] at minus noDigit refused ⊢
    rw [List.cons_append] at refused ⊢
    rw [readInteger_other front start (by simpa using minus) (noDigit c (by simp)), refused]
  cases shows with
  | integer => exact absurd rfl (other _)
  | floating floats held =>
    rw [readInteger_number floats.isNumber front, floats.number_append held ends]
  | string quotes =>
    cases quotes with
    | mk => exact apart (by simp) (by simp)
  | null | isTrue | isFalse => exact apart (by decide) (by simp)
  | list | map => exact apart (by simp) (by simp)

theorem readEntry_of_unreadable (unreadable : Unreadable value) (front : White before)
    (ends : EndsNumber rest) (entry : Entry) (base : Record) :
    readEntry entry base (before ++ (value ++ rest)) = .error .malformed := by
  have refused (wanted : Wanted) := refuse_of_unreadable unreadable ends wanted
  have string (wanted : Wanted) :
      readString wanted (before ++ (value ++ rest)) = .error .malformed := by
    cases unreadable with
    | number floats =>
      have form := floats.isNumber
      rw [readString_of_not_quote (.scalar (.number form)) form.head?_ne_quote front, refused]
    | string symbols lone =>
      rw [readString, List.cons_append, skipWhite_append_cons front (by decide), List.append_assoc]
      exact stringBody_of_spells_none symbols lone rest
  have integer : readInteger (before ++ (value ++ rest)) = .error .malformed := by
    cases unreadable with
    | number floats outsized =>
      rw [readInteger_number floats.isNumber front, number_of_outsized floats outsized ends]
    | string =>
      rw [← refused .integer, List.cons_append]
      exact readInteger_other front startsValue_quote (by decide) (by decide) _
  cases entry <;> simp only [readEntry, readText, readTime, string, integer, mapValue]

/-- What an entry calls for. -/
def Entry.callsFor : Entry → Wanted
  | level => .integer
  | acquired => .time
  | source | model | mime | kind | file => .text

/-- A value of the type that a place calls for. -/
def Wanted.Fits : Wanted → Found → Prop
  | .text, .text _ => True
  | .time, .text _ => True
  | .integer, .integer _ => True
  | _, _ => False

/-- Why an entry does not take over what it finds: it is of the wrong type, an integer past the
signed ones, or a text that names no time. -/
inductive Entry.Refuses : Entry → Found → Refusal → Prop where
  | wrongType {entry : Entry} {found : Found} (other : ¬entry.callsFor.Fits found) :
    Refuses entry found (.wrongType found entry.callsFor)
  | wrongValue {v : Int} (large : Integer.maxSigned < v) :
    Refuses level (.integer v) (.wrongValue v .integer)
  | time {s : String} {fault : TimeFault} (unnamed : Rfc3339.read s.toList = .error fault) :
    Refuses acquired (.text s) (.time fault)

/-- A value that fits no text is refused where a text or a time is called for. -/
theorem readString_of_shows (shows : Shows value found) (other : ∀ s, found ≠ .text s)
    (front : White before) (ends : EndsNumber rest) (wanted : Wanted) :
    readString wanted (before ++ (value ++ rest)) =
      .error (.refused root (.wrongType found wanted)) := by
  rw [readString_of_not_quote shows.isValue (shows.head?_ne_quote other) front,
    refuse_of_shows shows ends]

/-- A value of the wrong type is refused, whatever stands around it. -/
theorem readEntry_of_wrongType (shows : Shows value found) (other : ¬entry.callsFor.Fits found)
    (front : White before) (ends : EndsNumber rest) (base : Record) :
    readEntry entry base (before ++ (value ++ rest)) =
      .error (.refused root (.wrongType found entry.callsFor)) := by
  cases entry with
  | level =>
    have noInteger (v : Int) : found ≠ .integer v := fun same => other (same ▸ trivial)
    simp only [readEntry, readInteger_of_shows shows noInteger front ends, mapValue]
    rfl
  | acquired =>
    have noText (s : String) : found ≠ .text s := fun same => other (same ▸ trivial)
    simp only [readEntry, readTime, readString_of_shows shows noText front ends, mapValue]
    rfl
  | source | model | mime | kind | file =>
    have noText (s : String) : found ≠ .text s := fun same => other (same ▸ trivial)
    simp only [readEntry, readText, readString_of_shows shows noText front ends, mapValue]
    rfl

theorem not_gives_of_wrongType (shows : Shows value found) (other : ¬entry.callsFor.Fits found)
    (r : Record) : ¬entry.Gives value r := by
  intro gives
  have none : EndsNumber [] := by simp [EndsNumber]
  have read := readEntry_of_gives gives (List.forall_mem_nil _) none r
  rw [readEntry_of_wrongType shows other (List.forall_mem_nil _) none] at read
  cases read

theorem not_gives_of_unreadable (unreadable : Unreadable value) (entry : Entry) (r : Record) :
    ¬entry.Gives value r := by
  intro gives
  have none : EndsNumber [] := by simp [EndsNumber]
  have read := readEntry_of_gives gives (List.forall_mem_nil _) none r
  rw [readEntry_of_unreadable unreadable (List.forall_mem_nil _) none] at read
  cases read

theorem Shows.quotes {s : String} (shows : Shows value (.text s)) : Quotes s.toList value := by
  cases shows with
  | string quotes => rwa [String.toList_ofList]

/-- An integer is refused as a level only if it is too large. -/
theorem readEntry_of_integer {v : Int} (shows : Shows value (.integer v))
    (notGiven : ∀ r, ¬Entry.level.Gives value r) : Integer.maxSigned < v ∧
      ∀ before rest base, White before → EndsNumber rest →
        readEntry .level base (before ++ (value ++ rest)) =
          .error (.refused root (.wrongValue v .integer)) := by
  cases shows with
  | integer fits =>
    have large : Integer.maxSigned < v := by
      apply Int.not_le.1
      intro inside
      have back : (Int64.ofInt v).toInt = v := by
        have low := fits.low
        unfold Integer.maxSigned at low inside
        exact Int64.toInt_ofInt_of_le (by omega) (by omega)
      have same : signedDecimal v = signedDecimal (Int64.ofInt v).toInt := by rw [back]
      exact notGiven { Record.blank with level := Int64.ofInt v } same
    refine ⟨large, fun before rest base front ends => ?_⟩
    simp only [readEntry, readInteger_number (isNumber_signedDecimal v) front,
      fits.number_append ends, if_neg (Int.not_le.2 large), mapValue]

/-- A text is refused as a time only if it names none. -/
theorem readEntry_of_text {s : String} (shows : Shows value (.text s))
    (notGiven : ∀ r, ¬Entry.acquired.Gives value r) :
    ∃ fault, Rfc3339.read s.toList = .error fault ∧
      ∀ before rest base, White before → EndsNumber rest →
        readEntry .acquired base (before ++ (value ++ rest)) =
          .error (.refused root (.time fault)) := by
  have quotes := shows.quotes
  cases names : Rfc3339.read s.toList with
  | ok t => exact absurd ⟨s.toList, quotes, names⟩ (notGiven { Record.blank with acquired := t })
  | error fault =>
    refine ⟨fault, rfl, fun before rest base front ends => ?_⟩
    have read : readString .time (before ++ (value ++ rest)) = .ok (s.toList, rest) :=
      (readString_eq_ok_iff_quotes .time).2 ⟨before, value, front, quotes, rfl⟩
    simp only [readEntry, readTime, read, names, mapValue]

/-- A value that shows what it is, but is none of the entry's, is refused for one reason, whatever
stands around it. -/
theorem readEntry_of_shows (shows : Shows value found) (notGiven : ∀ r, ¬entry.Gives value r) :
    ∃ why, entry.Refuses found why ∧ ∀ before rest base, White before → EndsNumber rest →
      readEntry entry base (before ++ (value ++ rest)) = .error (.refused root why) := by
  by_cases fits : entry.callsFor.Fits found
  · cases entry with
    | level =>
      obtain ⟨v, rfl⟩ : ∃ v, found = .integer v := by
        cases found <;> first | exact ⟨_, rfl⟩ | cases fits
      obtain ⟨large, refused⟩ := readEntry_of_integer shows notGiven
      exact ⟨_, .wrongValue large, refused⟩
    | acquired =>
      obtain ⟨s, rfl⟩ : ∃ s, found = .text s := by
        cases found <;> first | exact ⟨_, rfl⟩ | cases fits
      obtain ⟨fault, unnamed, refused⟩ := readEntry_of_text shows notGiven
      exact ⟨_, .time unnamed, refused⟩
    | source | model | mime | kind | file =>
      obtain ⟨s, rfl⟩ : ∃ s, found = .text s := by
        cases found <;> first | exact ⟨_, rfl⟩ | cases fits
      exact absurd shows.quotes (notGiven ⟨s, s, s, s, 0, .epoch, s⟩)
  · exact ⟨_, .wrongType fits, fun before rest base front ends =>
      readEntry_of_wrongType shows fits front ends base⟩

end PathPattern.Json
