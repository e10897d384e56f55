import PathPattern.Proofs.Json.Pattern

/-!
# The time of a record in JSON

In a map the time is the value of a member in one of its two names, in a list it is the sixth value. A
text that names an instant is read there to the instant, however the string spells it, and reading goes
on behind it (`readMembers_timeMember`, `readElements_timeElement`). So two documents that differ in a
text of the same instant alone decode alike (`decodeRecord_of_differInTime`).
-/

namespace PathPattern.Json

variable {c : Char} {key value rest chunk front text text' : List Char} {name : String}
  {first : Bool} {seen : List Entry} {base r : Record} {entry : Entry} {entries : List Entry}
  {t : Instant} {doc doc' : String}

/-! ### White space around tokens -/

theorem nextKey_append {before : List Char} (white : ∀ c ∈ before, isWhite c = true) (first : Bool)
    (rest : List Char) : nextKey first (before ++ rest) = nextKey first rest := by
  simp only [nextKey, skipWhite_append white]

theorem afterColon_append {before : List Char} (white : ∀ c ∈ before, isWhite c = true)
    (rest : List Char) : afterColon (before ++ ':' :: rest) = .ok rest := by
  rw [afterColon, skipWhite_append white, skipWhite_cons (by decide)]
  rfl

/-- A step of the reading of members. -/
theorem readMembers_eq (first : Bool) (seen : List Entry) (base : Record) (cs : List Char) :
    readMembers first seen base cs =
      match nextKey first cs with
      | .error fault => .error fault
      | .ok (none, rest) => .ok (base, rest)
      | .ok (some key, rest) =>
        match readMember seen base (String.ofList key) rest with
        | .error fault => .error fault
        | .ok ((seen, r), rest) => readMembers false seen r rest := by
  rw [readMembers]
  split
  · next fault next => simp only [next]
  · next rest next => simp only [next]
  · next key rest next =>
    simp only [next]
    split
    · next fault member => simp only [member]
    · next member => simp only [member]

theorem readMembers_append {before : List Char} (white : ∀ c ∈ before, isWhite c = true) (first : Bool)
    (seen : List Entry) (base : Record) (rest : List Char) :
    readMembers first seen base (before ++ rest) = readMembers first seen base rest := by
  rw [readMembers_eq, readMembers_eq, nextKey_append white]

theorem readElements_append {before : List Char} (white : ∀ c ∈ before, isWhite c = true)
    (first : Bool) (position : Nat) (base : Record) (entries : List Entry) (rest : List Char) :
    readElements first position base entries (before ++ rest) =
      readElements first position base entries rest := by
  cases entries with
  | nil => simp only [readElements, skipWhite_append white]
  | cons entry entries => simp only [readElements, nextElement, skipWhite_append white]

/-! ### A string read to an instant -/

/-- A string of a text is read to its instant, but for the white space behind it. -/
theorem readTime_of_isStringOf (names : Rfc3339.read text = .ok t) (h : IsStringOf text value) :
    ∃ after, (∀ c ∈ after, isWhite c = true) ∧
      ∀ rest, readTime (value ++ rest) = .ok (t, after ++ rest) := by
  cases h with
  | @mk before body after front spells back =>
    refine ⟨after, back, fun rest => ?_⟩
    have read : readString .time ('"' :: (body ++ '"' :: (after ++ rest))) =
        .ok (text, after ++ rest) := stringBody_of_spellsText spells _
    have split : before ++ '"' :: (body ++ '"' :: after) ++ rest =
        before ++ '"' :: (body ++ '"' :: (after ++ rest)) := by simp
    rw [split, readTime, readString, skipWhite_append front, ← readString, read]
    simp only [names]

/-- The names of the time. -/
def timeNames : List String := ["acq_time", "acqtime"]

theorem ofKey?_of_mem_timeNames (mem : name ∈ timeNames) : Entry.ofKey? name = some .acquired := by
  have table : ∀ name ∈ timeNames, Entry.ofKey? name = some .acquired := by decide
  exact table name mem

/-! ### A member of a map -/

/-- A member of a map with a text as its time, and the comma before it unless it is the first. -/
inductive IsTimeMember (text : List Char) : Bool → List Char → Prop where
  | first {name : String} {key value : List Char} (named : name ∈ timeNames)
    (key_form : IsStringOf name.toList key) (value_form : IsStringOf text value) :
    IsTimeMember text true (key ++ ':' :: value)
  | later {name : String} {before key value : List Char} (white : ∀ c ∈ before, isWhite c = true)
    (named : name ∈ timeNames) (key_form : IsStringOf name.toList key)
    (value_form : IsStringOf text value) :
    IsTimeMember text false (before ++ ',' :: (key ++ ':' :: value))

/-- A key is read, but for the white space behind it. -/
theorem nextKey_of_isStringOf (h : IsStringOf text key) :
    ∃ after, (∀ c ∈ after, isWhite c = true) ∧
      (∀ rest, nextKey true (key ++ rest) = .ok (some text, after ++ rest)) ∧
      ∀ rest, nextKey false (',' :: (key ++ rest)) = .ok (some text, after ++ rest) := by
  cases h with
  | @mk before body after front spells back =>
    have split (rest : List Char) : before ++ '"' :: (body ++ '"' :: after) ++ rest =
        before ++ '"' :: (body ++ '"' :: (after ++ rest)) := by simp
    refine ⟨after, back, fun rest => ?_, fun rest => ?_⟩
    · rw [split, nextKey, skipWhite_append front, skipWhite_cons (by decide)]
      simp only [stringBody_of_spellsText spells, mapValue, if_true]
    · rw [split, nextKey, skipWhite_cons (by decide)]
      simp only [skipWhite_append front, skipWhite_cons (c := '"') (by decide),
        stringBody_of_spellsText spells, mapValue, Bool.false_eq_true, if_false]

/-- The value of the time is taken over, unless there was one before. -/
theorem readMember_time (named : name ∈ timeNames) (names : Rfc3339.read text = .ok t)
    (value_form : IsStringOf text value) {before : List Char}
    (white : ∀ c ∈ before, isWhite c = true) :
    ∃ after, (∀ c ∈ after, isWhite c = true) ∧ ∀ seen base rest,
      readMember seen base name (before ++ ':' :: (value ++ rest)) =
        if .acquired ∈ seen then .error (.refused root (.duplicateField "acq_time"))
        else .ok ((.acquired :: seen, { base with acquired := t }), after ++ rest) := by
  obtain ⟨after, back, read⟩ := readTime_of_isStringOf names value_form
  refine ⟨after, back, fun seen base rest => ?_⟩
  simp only [readMember, ofKey?_of_mem_timeNames named, afterColon_append white, readEntry, read,
    mapValue]
  rfl

/-- Reading goes on behind a member with a text of an instant, with the instant as the time. -/
theorem readMembers_timeMember (names : Rfc3339.read text = .ok t) (h : IsTimeMember text first chunk)
    (seen : List Entry) (base : Record) (rest : List Char) :
    readMembers first seen base (chunk ++ rest) =
      if .acquired ∈ seen then .error (.refused root (.duplicateField "acq_time"))
      else readMembers false (.acquired :: seen) { base with acquired := t } rest := by
  -- Once the key is read, it does not matter whether a comma came before it.
  have behind {name : String} {value before : List Char} (named : name ∈ timeNames)
      (value_form : IsStringOf text value) (white : ∀ c ∈ before, isWhite c = true)
      (next : nextKey first (chunk ++ rest) =
        .ok (some name.toList, before ++ ':' :: (value ++ rest))) :
      readMembers first seen base (chunk ++ rest) =
        if .acquired ∈ seen then .error (.refused root (.duplicateField "acq_time"))
        else readMembers false (.acquired :: seen) { base with acquired := t } rest := by
    obtain ⟨after, back, read⟩ := readMember_time named names value_form white
    rw [readMembers_eq, next]
    simp only [String.ofList_toList, read]
    by_cases given : Entry.acquired ∈ seen
    · simp only [if_pos given]
    · simp only [if_neg given, readMembers_append back]
  cases h with
  | first named key_form value_form =>
    obtain ⟨after, back, next, -⟩ := nextKey_of_isStringOf key_form
    exact behind named value_form back (by rw [List.append_assoc, next, List.cons_append])
  | later white named key_form value_form =>
    obtain ⟨after, back, -, next⟩ := nextKey_of_isStringOf key_form
    refine behind named value_form back ?_
    rw [List.append_assoc, nextKey_append white, List.cons_append, List.append_assoc, next,
      List.cons_append]

/-! ### An element of a list -/

/-- An element of a list with a text as its string, and the comma before it. -/
inductive IsTimeElement (text : List Char) : List Char → Prop where
  | mk {before value : List Char} (white : ∀ c ∈ before, isWhite c = true)
    (value_form : IsStringOf text value) : IsTimeElement text (before ++ ',' :: value)

theorem nextElement_of_isStringOf (h : IsStringOf text value) :
    ∃ value', IsStringOf text value' ∧
      ∀ rest, nextElement false (',' :: (value ++ rest)) = .ok (true, value' ++ rest) := by
  cases h with
  | @mk before body after front spells back =>
    refine ⟨_, .mk (List.forall_mem_nil _) spells back, fun rest => ?_⟩
    rw [nextElement, skipWhite_cons (by decide)]
    simp only [Bool.false_eq_true, if_false, List.append_assoc, List.cons_append, List.nil_append,
      skipWhite_append front, skipWhite_cons (c := '"') (by decide)]
    rfl

/-- Reading goes on behind an element with a text of an instant, with the instant as the time. -/
theorem readElements_timeElement (names : Rfc3339.read text = .ok t) (h : IsTimeElement text chunk)
    (position : Nat) (base : Record) (entries : List Entry) (rest : List Char) :
    readElements false position base (.acquired :: entries) (chunk ++ rest) =
      readElements false (position + 1) { base with acquired := t } entries rest := by
  cases h with
  | mk white value_form =>
    obtain ⟨value', form, next⟩ := nextElement_of_isStringOf value_form
    obtain ⟨after, back, read⟩ := readTime_of_isStringOf names form
    rw [List.append_assoc, readElements_append white, readElements, List.cons_append, next]
    simp only [readEntry, read, mapValue, readElements_append back]

/-! ### Documents -/

/-- Behind this part of a document, the reader stands before a member of a map, the first or a later
one, with these entries given and this record so far. -/
def OpensMember (front : List Char) (first : Bool) (seen : List Entry) (base : Record) : Prop :=
  ∀ rest, EndsNumber rest → readRecord (front ++ rest) = readMembers first seen base rest

/-- Behind this part of a document, the reader stands before the sixth element of a list, with this
record so far. -/
def OpensElement (front : List Char) (base : Record) : Prop :=
  ∀ rest, EndsNumber rest →
    readRecord (front ++ rest) = readElements false 5 base [.acquired, .file] rest

/-- The documents are the same but for the text of the time. -/
inductive DifferInTime (text text' : List Char) : String → String → Prop where
  | member {front chunk chunk' : List Char} {first : Bool} {seen : List Entry} {base : Record}
    (opens : OpensMember front first seen base) (here : IsTimeMember text first chunk)
    (there : IsTimeMember text' first chunk') (rest : List Char) : DifferInTime text text'
      (String.ofList (front ++ (chunk ++ rest))) (String.ofList (front ++ (chunk' ++ rest)))
  | element {front chunk chunk' : List Char} {base : Record} (opens : OpensElement front base)
    (here : IsTimeElement text chunk) (there : IsTimeElement text' chunk') (rest : List Char) :
    DifferInTime text text'
      (String.ofList (front ++ (chunk ++ rest))) (String.ofList (front ++ (chunk' ++ rest)))

/-! ### What may come before the time -/

/-- Behind the brace of a map no entry is given. -/
theorem opensMember_brace {before : List Char} (white : ∀ c ∈ before, isWhite c = true) :
    OpensMember (before ++ ['{']) true [] .blank := by
  intro rest _
  rw [readRecord, List.append_assoc, skipWhite_append white, List.singleton_append,
    skipWhite_cons (by decide)]
  rfl

/-- Behind a member, its entry is given. -/
theorem OpensMember.append_member {value : Entry → List Char} (opens : OpensMember front first seen base)
    (spells : Spells value r) (fresh : entry ∉ seen) :
    OpensMember (front ++ ((if first then [] else [',']) ++ member entry.name (value entry))) false
      (entry :: seen) (entry.take r base) := by
  intro rest ends
  have read := readMember_entry spells fresh base ends
  rw [← String.ofList_toList (s := entry.name)] at read
  have start : string entry.name.toList ++ ':' :: value entry =
      member entry.name (value entry) := rfl
  cases first with
  | true =>
    have quote : EndsNumber (member entry.name (value entry) ++ rest) := by
      rw [← start, List.append_assoc, string_append]
      simp [EndsNumber]
    rw [if_pos rfl, List.nil_append, List.append_assoc, opens _ quote, ← start, List.append_assoc,
      List.cons_append]
    exact readMembers_of_nextKey (nextKey_first _ _) (by simpa using read)
  | false =>
    have comma : EndsNumber (',' :: (member entry.name (value entry) ++ rest)) := by simp [EndsNumber]
    rw [if_neg (by decide), List.append_assoc, List.singleton_append, List.cons_append, opens _ comma,
      ← start, List.append_assoc, List.cons_append]
    exact readMembers_of_nextKey (nextKey_comma _ _) (by simpa using read)

theorem exists_valueWith_eq_cons (time : List Char) (r : Record) (entry : Entry) :
    ∃ c cs, valueWith time r entry = c :: cs ∧ isWhite c = false ∧ c ≠ ']' ∧ c ≠ ',' := by
  have quoted (cs : List Char) :
      ∃ d ds, string cs = d :: ds ∧ isWhite d = false ∧ d ≠ ']' ∧ d ≠ ',' :=
    ⟨'"', _, rfl, by decide, by decide, by decide⟩
  cases entry with
  | level =>
    obtain ⟨c, cs, shape, start⟩ := Integer.signedDecimal_eq_cons r.level.toInt
    refine ⟨c, cs, shape, ?_⟩
    rcases start with digit | rfl
    · refine ⟨isWhite_of_isDigit digit, ?_, ?_⟩
      all_goals
        rintro rfl
        cases digit
    · decide
  | source | model | mime | kind | acquired | file => exact quoted _

/-- Reading goes on behind a value of a record, with its entry taken over. -/
theorem readElements_valueWith (names : Rfc3339.read text = .ok r.acquired) (ends : EndsNumber rest)
    (position : Nat) (base : Record) (entry : Entry) (entries : List Entry) :
    readElements true position base (entry :: entries) (valueWith text r entry ++ rest) =
        readElements false (position + 1) (entry.take r base) entries rest ∧
      readElements false position base (entry :: entries) (',' :: (valueWith text r entry ++ rest)) =
        readElements false (position + 1) (entry.take r base) entries rest := by
  have read := spells_valueWith names entry base rest ends
  obtain ⟨c, cs, shape, shown, notEnd, notComma⟩ := exists_valueWith_eq_cons text r entry
  rw [shape, List.cons_append] at read ⊢
  have first : nextElement true (c :: (cs ++ rest)) = .ok (true, c :: (cs ++ rest)) := by
    rw [nextElement, skipWhite_cons shown]
    split <;> simp_all
  have later : nextElement false (',' :: c :: (cs ++ rest)) = .ok (true, c :: (cs ++ rest)) := by
    rw [nextElement, skipWhite_cons (by decide)]
    simp only [Bool.false_eq_true, if_false, skipWhite_cons shown]
    split <;> simp_all
  constructor
  · rw [readElements, first]
    simp only [read]
  · rw [readElements, later]
    simp only [read]

/-- Behind five values in a list, the time is the next. -/
theorem opensElement_values (names : Rfc3339.read text = .ok r.acquired) :
    OpensElement ('[' :: (valueWith text r .source ++ ',' :: (valueWith text r .model ++
      ',' :: (valueWith text r .mime ++ ',' :: (valueWith text r .kind ++
        ',' :: valueWith text r .level)))))
      { r with acquired := Record.blank.acquired, file := Record.blank.file } := by
  intro rest ends
  have comma (cs : List Char) : EndsNumber (',' :: cs) := by simp [EndsNumber]
  simp only [List.cons_append, List.append_assoc]
  rw [readRecord, skipWhite_cons (by decide)]
  show readElements true 0 .blank Entry.all _ = _
  rw [Entry.all, (readElements_valueWith names (comma _) _ _ _ _).1,
    (readElements_valueWith names (comma _) _ _ _ _).2,
    (readElements_valueWith names (comma _) _ _ _ _).2,
    (readElements_valueWith names (comma _) _ _ _ _).2,
    (readElements_valueWith names ends _ _ _ _).2]
  rfl

/-! ### Decoding -/

theorem IsStringOf.endsNumber (h : IsStringOf text value) (rest : List Char) :
    EndsNumber (value ++ rest) := by
  cases h with
  | mk front =>
    rw [List.append_assoc]
    exact endsNumber_append front (by simp [EndsNumber])

theorem IsTimeMember.endsNumber (h : IsTimeMember text first chunk) (rest : List Char) :
    EndsNumber (chunk ++ rest) := by
  cases h with
  | first named key_form =>
    rw [List.append_assoc]
    exact key_form.endsNumber _
  | later white =>
    rw [List.append_assoc]
    exact endsNumber_append white (by simp [EndsNumber])

theorem IsTimeElement.endsNumber (h : IsTimeElement text chunk) (rest : List Char) :
    EndsNumber (chunk ++ rest) := by
  cases h with
  | mk white =>
    rw [List.append_assoc]
    exact endsNumber_append white (by simp [EndsNumber])

/-- Documents that differ in a text of the same instant alone decode alike. -/
theorem decodeRecord_of_differInTime (names : Rfc3339.read text = .ok t)
    (names' : Rfc3339.read text' = .ok t) (h : DifferInTime text text' doc doc') :
    decodeRecord doc = decodeRecord doc' := by
  cases h with
  | member opens here there =>
    rw [decodeRecord, decodeRecord, String.toList_ofList, String.toList_ofList,
      opens _ (here.endsNumber _), opens _ (there.endsNumber _), readMembers_timeMember names here,
      readMembers_timeMember names' there]
  | element opens here there =>
    rw [decodeRecord, decodeRecord, String.toList_ofList, String.toList_ofList,
      opens _ (here.endsNumber _), opens _ (there.endsNumber _), readElements_timeElement names here,
      readElements_timeElement names' there]

/-- The map of some entries in order. -/
def mapText (value : Entry → List Char) : List Entry → List Char
  | [] => ['{', '}']
  | entry :: entries => '{' :: (member entry.name (value entry) ++ moreMembers value entries [])

/-- The map of distinct entries of a record, with any text that names its instant as the time, decodes
to those entries. -/
theorem decodeRecord_mapText (names : Rfc3339.read text = .ok r.acquired) (apart : entries.Nodup) :
    decodeRecord (String.ofList (mapText (valueWith text r) entries)) =
      .ok (entries.foldl (fun base entry => entry.take r base) .blank) := by
  rw [decodeRecord, String.toList_ofList]
  cases entries with
  | nil =>
    have read : readRecord ['{', '}'] = .ok (.blank, []) := by
      rw [readRecord, skipWhite_cons (by decide)]
      exact readMembers_of_end (nextKey_end true [])
    rw [mapText, read]
    rfl
  | cons entry entries =>
    have read := readRecord_members (spells_valueWith names) apart []
    rw [mapText, member, List.append_assoc, List.cons_append, read]
    rfl

/-- The list of all entries. -/
def listText (value : Entry → List Char) : List Char :=
  '[' :: (value .source ++ ',' :: (value .model ++ ',' :: (value .mime ++ ',' :: (value .kind ++
    ',' :: (value .level ++ ',' :: (value .acquired ++ ',' :: (value .file ++ [']'])))))))

/-- So does the list of all its entries. -/
theorem decodeRecord_listText (names : Rfc3339.read text = .ok r.acquired) :
    decodeRecord (String.ofList (listText (valueWith text r))) = .ok r := by
  have comma (cs : List Char) : EndsNumber (',' :: cs) := by simp [EndsNumber]
  have last : EndsNumber [']'] := by simp [EndsNumber]
  have split : listText (valueWith text r) =
      '[' :: (valueWith text r .source ++ ',' :: (valueWith text r .model ++
        ',' :: (valueWith text r .mime ++ ',' :: (valueWith text r .kind ++
          ',' :: valueWith text r .level)))) ++
        ',' :: (valueWith text r .acquired ++ ',' :: (valueWith text r .file ++ [']'])) := by
    simp [listText]
  rw [decodeRecord, String.toList_ofList, split, opensElement_values names _ (comma _),
    (readElements_valueWith names (comma _) _ _ _ _).2, (readElements_valueWith names last _ _ _ _).2]
  rfl

end PathPattern.Json
