import PathPattern.Json.Record
import PathPattern.Proofs.Json.Number
import PathPattern.Proofs.Json.Text
import PathPattern.Proofs.Time.Rfc3339

/-!
# The wire form of records

On the wire a record is a map of all its fields in order, the time in its canonical text (`IsWire`).
The value of an entry is read to the record with that entry taken over (`spells_valueWith`), and the
members of a map one after another, each in a name that was not there before
(`readMembers_members`). The map with all entries takes everything over, so the wire form of a record
is read to it, its time settled, and what follows in the text is left (`readRecord_of_isWire`). A time
that is not settled has the text of another one and is not read back
(`decodeRecord_writeRecord_unsettled`).
-/

namespace PathPattern.Json

variable {c : Char} {cs key rest rest' : List Char} {first : Bool} {seen seen' : List Entry}
  {base base' r : Record} {entry : Entry} {entries : List Entry} {value : Entry → List Char}
  {time text : List Char}

theorem skipWhite_cons (shown : isWhite c = false) (cs : List Char) :
    skipWhite (c :: cs) = c :: cs := by
  rw [skipWhite, List.dropWhile_cons_of_neg (by simp [shown])]

theorem isWhite_of_isDigit (digit : c.isDigit = true) : isWhite c = false := by
  have other {d : Char} (noDigit : d.isDigit = false) : (c == d) = false := by
    apply beq_eq_false_iff_ne.2
    intro same
    rw [same, noDigit] at digit
    cases digit
  have blank : ' '.isDigit = false := by decide
  have tab : '\t'.isDigit = false := by decide
  have lineFeed : '\n'.isDigit = false := by decide
  have carriageReturn : '\r'.isDigit = false := by decide
  simp [isWhite, other blank, other tab, other lineFeed, other carriageReturn]

/-! ### Values -/

theorem readString_string (wanted : Wanted) (cs rest : List Char) :
    readString wanted (string cs ++ rest) = .ok (cs, rest) := by
  rw [readString, string_append, skipWhite_cons (by decide)]
  exact stringBody_string cs rest

theorem readText_string (s : String) (rest : List Char) :
    readText (string s.toList ++ rest) = .ok (s, rest) := by
  rw [readText, readString_string, mapValue, String.ofList_toList]

theorem readTime_string {t : Instant} (read : Rfc3339.read time = .ok t) (rest : List Char) :
    readTime (string time ++ rest) = .ok (t, rest) := by
  simp only [readTime, readString_string, read]

theorem readInteger_signedDecimal (i : Int64) (ends : EndsNumber rest) :
    readInteger (Integer.signedDecimal i.toInt ++ rest) = .ok (i, rest) := by
  have low := i.le_toInt
  have high := i.toInt_lt
  have fits : i.toInt ≤ Integer.maxSigned := by
    unfold Integer.maxSigned
    omega
  have read := number_signedDecimal (v := i.toInt) (by unfold Integer.maxSigned; omega)
    (by unfold Integer.maxUnsigned; omega) ends
  obtain ⟨c, cs, shape, start⟩ := Integer.signedDecimal_eq_cons i.toInt
  have shown : isWhite c = false := by
    rcases start with digit | rfl
    · exact isWhite_of_isDigit digit
    · decide
  have begins : c = '-' ∨ Integer.isDigit c = true := by
    rw [Integer.isDigit_eq]
    exact start.symm
  rw [shape, List.cons_append] at read ⊢
  rw [readInteger, skipWhite_cons shown]
  simp only [if_pos begins, read, if_pos fits, Int64.ofInt_toInt]

/-! ### Entries -/

/-- The record with one entry taken over from another. -/
def Entry.take (entry : Entry) (r base : Record) : Record :=
  match entry with
  | source => { base with source := r.source }
  | model => { base with model := r.model }
  | mime => { base with mime := r.mime }
  | kind => { base with kind := r.kind }
  | level => { base with level := r.level }
  | acquired => { base with acquired := r.acquired }
  | file => { base with file := r.file }

theorem Entry.ofKey?_name (entry : Entry) : ofKey? entry.name = some entry := by
  cases entry <;> decide

/-- The values of the entries are read to what a record has there. -/
def Spells (value : Entry → List Char) (r : Record) : Prop :=
  ∀ entry base rest, EndsNumber rest →
    readEntry entry base (value entry ++ rest) = .ok (entry.take r base, rest)

/-- The values of a record's entries, with a text of its time. -/
def valueWith (time : List Char) (r : Record) : Entry → List Char
  | .acquired => string time
  | entry => entryValue r entry

theorem spells_valueWith (names : Rfc3339.read time = .ok r.acquired) :
    Spells (valueWith time r) r := by
  intro entry base rest ends
  cases entry with
  | level =>
    have read := readInteger_signedDecimal r.level ends
    simp only [readEntry, valueWith, entryValue, read, mapValue]
    rfl
  | acquired =>
    have read := readTime_string names rest
    simp only [readEntry, valueWith, read, mapValue]
    rfl
  | source | model | mime | kind | file =>
    simp only [readEntry, valueWith, entryValue, readText_string, mapValue]
    rfl

/-! ### Members -/

theorem nextKey_first (key rest : List Char) :
    nextKey true (string key ++ rest) = .ok (some key, rest) := by
  rw [string_append, nextKey, skipWhite_cons (by decide)]
  simp only [stringBody_string, mapValue, if_true]

theorem nextKey_comma (key rest : List Char) :
    nextKey false (',' :: (string key ++ rest)) = .ok (some key, rest) := by
  rw [string_append, nextKey, skipWhite_cons (by decide)]
  simp only [skipWhite_cons (c := '"') (by decide), stringBody_string, mapValue, Bool.false_eq_true,
    if_false]

theorem nextKey_end (first : Bool) (rest : List Char) :
    nextKey first ('}' :: rest) = .ok (none, rest) := by
  rw [nextKey, skipWhite_cons (by decide)]
  rfl

theorem readMembers_of_nextKey (next : nextKey first cs = .ok (some key, rest))
    (read : readMember seen base (String.ofList key) rest = .ok ((seen', base'), rest')) :
    readMembers first seen base cs = readMembers false seen' base' rest' := by
  rw [readMembers]
  split
  · next fault => simp [next] at fault
  · next stop => simp [next] at stop
  · next key' rest'' found =>
    rw [next, Except.ok.injEq, Prod.mk.injEq, Option.some.injEq] at found
    obtain ⟨rfl, rfl⟩ := found
    split
    · next fault => simp [read] at fault
    · next member =>
      simp only [read, Except.ok.injEq, Prod.mk.injEq] at member
      obtain ⟨⟨rfl, rfl⟩, rfl⟩ := member
      rfl

theorem readMembers_of_end (next : nextKey first cs = .ok (none, rest)) :
    readMembers first seen base cs = .ok (base, rest) := by
  rw [readMembers]
  split <;> simp_all

theorem readMember_entry (spells : Spells value r) (fresh : entry ∉ seen) (base : Record)
    (ends : EndsNumber rest) :
    readMember seen base entry.name (':' :: (value entry ++ rest)) =
      .ok ((entry :: seen, entry.take r base), rest) := by
  have colon : afterColon (':' :: (value entry ++ rest)) = .ok (value entry ++ rest) := by
    rw [afterColon, skipWhite_cons (by decide)]
    rfl
  simp only [readMember, Entry.ofKey?_name, if_neg fresh, colon, spells entry base rest ends]

/-- What stands behind a member of a map. -/
def moreMembers (value : Entry → List Char) (entries : List Entry) (rest : List Char) : List Char :=
  (entries.flatMap fun entry => ',' :: member entry.name (value entry)) ++ '}' :: rest

theorem endsNumber_moreMembers (value : Entry → List Char) (entries : List Entry)
    (rest : List Char) : EndsNumber (moreMembers value entries rest) := by
  cases entries <;> simp [EndsNumber, moreMembers]

theorem moreMembers_cons (value : Entry → List Char) (entry : Entry) (entries : List Entry)
    (rest : List Char) : moreMembers value (entry :: entries) rest =
      ',' :: (string entry.name.toList ++ ':' :: (value entry ++ moreMembers value entries rest)) := by
  simp [moreMembers, member]

/-- Members in names that are not there yet are read one after another. -/
theorem readMembers_members (spells : Spells value r) (fresh : ∀ entry ∈ entries, entry ∉ seen)
    (apart : entries.Nodup) (base : Record) (rest : List Char) :
    readMembers false seen base (moreMembers value entries rest) =
      .ok (entries.foldl (fun base entry => entry.take r base) base, rest) := by
  induction entries generalizing seen base with
  | nil => exact readMembers_of_end (nextKey_end false rest)
  | cons entry entries ih =>
    obtain ⟨notSeen, more⟩ := List.forall_mem_cons.1 fresh
    obtain ⟨notLater, apart⟩ := List.nodup_cons.1 apart
    have read := readMember_entry spells notSeen base (endsNumber_moreMembers value entries rest)
    rw [← String.ofList_toList (s := entry.name)] at read
    rw [moreMembers_cons, readMembers_of_nextKey (nextKey_comma _ _) (by simpa using read),
      List.foldl_cons]
    apply ih _ apart
    intro later mem both
    rcases List.mem_cons.1 both with rfl | inside
    · exact notLater mem
    · exact more later mem inside

/-! ### Records -/

/-- A map of distinct entries is read to what they give, and what follows is left. -/
theorem readRecord_members (spells : Spells value r) (apart : (entry :: entries).Nodup)
    (rest : List Char) :
    readRecord ('{' :: (string entry.name.toList ++ ':' ::
      (value entry ++ moreMembers value entries rest))) =
        .ok ((entry :: entries).foldl (fun base entry => entry.take r base) .blank, rest) := by
  obtain ⟨notLater, apart⟩ := List.nodup_cons.1 apart
  have read := readMember_entry spells (List.not_mem_nil (a := entry)) .blank
    (endsNumber_moreMembers value entries rest)
  rw [← String.ofList_toList (s := entry.name)] at read
  rw [readRecord, skipWhite_cons (by decide)]
  show readMembers true [] .blank _ = _
  rw [readMembers_of_nextKey (nextKey_first _ _) (by simpa using read), List.foldl_cons]
  refine readMembers_members spells ?_ apart _ rest
  rintro later mem both
  rw [List.mem_singleton] at both
  exact notLater (both ▸ mem)

/-- The wire form of a record: a map of all fields in order and without white space, texts and the
time as strings, the level in decimal. -/
inductive IsWire (r : Record) : List Char → Prop where
  | mk {time : List Char} (canonical : Rfc3339.IsCanonical r.acquired time) :
    IsWire r ('{' :: member "source" (string r.source.toList) ++
      ',' :: member "model" (string r.model.toList) ++
      ',' :: member "mime" (string r.mime.toList) ++
      ',' :: member "type" (string r.kind.toList) ++
      ',' :: member "level" (Integer.signedDecimal r.level.toInt) ++
      ',' :: member "acq_time" (string time) ++
      ',' :: member "file" (string r.file.toList) ++ ['}'])

theorem isWire_writeRecord (r : Record) : IsWire r (writeRecord r) := by
  have form := IsWire.mk (r := r) (Rfc3339.isCanonical_write r.acquired)
  simpa [writeRecord, Entry.all, Entry.name, entryValue] using form

theorem IsWire.exists_append (h : IsWire r text) (rest : List Char) :
    ∃ time, Rfc3339.IsCanonical r.acquired time ∧
      text ++ rest = '{' :: (string Entry.source.name.toList ++ ':' ::
        (valueWith time r .source ++ moreMembers (valueWith time r) Entry.all.tail rest)) := by
  cases h with
  | @mk time canonical =>
    refine ⟨time, canonical, ?_⟩
    simp [moreMembers, member, Entry.all, Entry.name, valueWith, entryValue]

theorem Entry.foldl_take_all (r base : Record) :
    Entry.all.foldl (fun base entry => entry.take r base) base = r := rfl

theorem valueWith_settled (time : List Char) (r : Record) :
    valueWith time r.settled = valueWith time r := by
  funext entry
  cases entry <;> rfl

/-- The wire form of a record is read to it, and what follows is left. -/
theorem readRecord_of_isWire (h : IsWire r text) (rest : List Char) :
    readRecord (text ++ rest) = .ok (r.settled, rest) := by
  obtain ⟨time, canonical, shape⟩ := h.exists_append rest
  have spells := spells_valueWith (r := r.settled) (Rfc3339.read_of_isCanonical canonical)
  rw [valueWith_settled] at spells
  have apart : (Entry.source :: Entry.all.tail).Nodup := by decide
  have read := readRecord_members spells apart rest
  rw [shape, read]
  exact congrArg (fun r => Except.ok (r, rest)) (Entry.foldl_take_all r.settled .blank)

theorem decodeRecord_of_isWire (h : IsWire r text) :
    decodeRecord (String.ofList text) = .ok r.settled := by
  have read := readRecord_of_isWire h []
  rw [List.append_nil] at read
  rw [decodeRecord, String.toList_ofList, read]
  rfl

/-- A record is written in its wire form. Decoding that text gives back the record with its time
settled, so exactly the record if a second of its time runs on only as a leap second does. -/
theorem decodeRecord_writeRecord (r : Record) :
    IsWire r (writeRecord r) ∧ decodeRecord (String.ofList (writeRecord r)) = .ok r.settled ∧
      (decodeRecord (String.ofList (writeRecord r)) = .ok r ↔ r.acquired.IsSettled) := by
  have wire := isWire_writeRecord r
  have back := decodeRecord_of_isWire wire
  refine ⟨wire, back, ?_⟩
  rw [back, Except.ok.injEq]
  exact Record.settled_eq_self_iff

/-- Second `4` run on by a third of a second is written as the second after it, and read back as
that one. -/
theorem decodeRecord_writeRecord_unsettled :
    let r : Record := { Record.blank with acquired := ⟨4, 1333333333, by decide, by decide, by decide⟩ }
    let next : Record := { Record.blank with acquired := ⟨5, 333333333, by decide, by decide, by decide⟩ }
    String.ofList (Rfc3339.write r.acquired) = "1970-01-01T00:00:05.333333333Z" ∧
      decodeRecord (String.ofList (writeRecord r)) = .ok next ∧
      decodeRecord (String.ofList (writeRecord r)) ≠ .ok r := by
  intro r next
  have decoded : decodeRecord (String.ofList (writeRecord r)) = .ok next := by decide +kernel
  refine ⟨by decide +kernel, decoded, ?_⟩
  rw [decoded]
  decide

end PathPattern.Json
