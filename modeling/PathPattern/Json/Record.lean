import PathPattern.Json.Skip
import PathPattern.Record

/-!
# Records in JSON

A record is a map from field names to values, or a list of values in the order of the fields;
what is not given keeps its default. In a map unknown names are passed over with their values,
and a name that comes twice is refused as soon as it is read. Nothing is looked at behind the
value. Writing gives the map with all fields.
-/

namespace PathPattern.Json

/-- The entries of a record, in the order of the list form. -/
inductive Entry where
  | source
  | model
  | mime
  | kind
  | level
  | acquired
  | file
  deriving DecidableEq, Repr

namespace Entry

/-- All entries in order. -/
def all : List Entry := [source, model, mime, kind, level, acquired, file]

/-- The name of an entry in a map. -/
def name : Entry → String
  | source => "source"
  | model => "model"
  | mime => "mime"
  | kind => "type"
  | level => "level"
  | acquired => "acq_time"
  | file => "file"

/-- The entry a key names; the acquisition time has a second name. -/
def ofKey? (key : String) : Option Entry :=
  if key = "acqtime" then some acquired else all.find? (·.name = key)

end Entry

/-- A value of the wrong type, read only as far as it takes to tell what it is. -/
def refuse (wanted : Wanted) (cs : List Char) : Fault :=
  let found (f : Found) : Fault := .refused root (.wrongType f wanted)
  let afterWord (f : Found) (letters : List Char) (cs : List Char) : Fault :=
    match word letters cs with
    | .error fault => fault
    | .ok _ => found f
  match cs with
  | [] => .incomplete
  | c :: rest =>
    if c = 'n' then afterWord .null ['u', 'l', 'l'] rest
    else if c = 't' then afterWord (.boolean true) ['r', 'u', 'e'] rest
    else if c = 'f' then afterWord (.boolean false) ['a', 'l', 's', 'e'] rest
    else if c = '-' ∨ Integer.isDigit c then
      match number (c :: rest) with
      | .error fault => fault
      | .ok (f, _) => found f
    else if c = '"' then
      match stringBody rest with
      | .error fault => fault
      | .ok (text, _) => found (.text (String.ofList text))
    else if c = '[' then found .sequence
    else if c = '{' then found .map
    else .malformed

/-- A string. -/
def readString (wanted : Wanted) (cs : List Char) : Step (List Char) :=
  match skipWhite cs with
  | '"' :: rest => stringBody rest
  | cs => .error (refuse wanted cs)

/-- A string that is kept as it is. -/
def readText (cs : List Char) : Step String :=
  mapValue String.ofList (readString .text cs)

/-- A signed 64-bit integer. -/
def readInteger (cs : List Char) : Step Int64 :=
  match skipWhite cs with
  | [] => .error .incomplete
  | c :: rest =>
    if c = '-' ∨ Integer.isDigit c then
      match number (c :: rest) with
      | .error fault => .error fault
      | .ok (.integer i, rest) =>
        if i ≤ Integer.maxSigned then .ok (Int64.ofInt i, rest)
        else .error (.refused root (.wrongValue i .integer))
      | .ok (found, _) => .error (.refused root (.wrongType found .integer))
    else .error (refuse .integer (c :: rest))

/-- A date and time. -/
def readTime (cs : List Char) : Step Instant :=
  match readString .time cs with
  | .error fault => .error fault
  | .ok (text, rest) =>
    match Rfc3339.read text with
    | .error fault => .error (.refused root (.time fault))
    | .ok t => .ok (t, rest)

/-- The record with one entry read from the text. -/
def readEntry (entry : Entry) (r : Record) (cs : List Char) : Step Record :=
  match entry with
  | .source => mapValue (fun s => { r with source := s }) (readText cs)
  | .model => mapValue (fun s => { r with model := s }) (readText cs)
  | .mime => mapValue (fun s => { r with mime := s }) (readText cs)
  | .kind => mapValue (fun s => { r with kind := s }) (readText cs)
  | .level => mapValue (fun i => { r with level := i }) (readInteger cs)
  | .acquired => mapValue (fun t => { r with acquired := t }) (readTime cs)
  | .file => mapValue (fun s => { r with file := s }) (readText cs)

/-! ### Reading uses up text -/

theorem readString_length {wanted : Wanted} {cs text rest : List Char}
    (h : readString wanted cs = .ok (text, rest)) : rest.length < cs.length := by
  unfold readString at h
  have hw := skipWhite_length_le cs
  split at h
  next rest' hcs =>
    have := stringBody_length rest' h
    simp only [hcs, List.length_cons] at hw
    omega
  · simp at h

theorem readText_length {cs rest : List Char} {s : String} (h : readText cs = .ok (s, rest)) :
    rest.length < cs.length := by
  obtain ⟨text, ht, -⟩ := mapValue_eq_ok_iff.1 h
  exact readString_length ht

theorem readInteger_length {cs rest : List Char} {i : Int64}
    (h : readInteger cs = .ok (i, rest)) : rest.length < cs.length := by
  unfold readInteger at h
  have hw := skipWhite_length_le cs
  split at h
  · simp at h
  next c rest' hcs =>
    rw [hcs] at hw
    split at h
    · split at h
      · simp at h
      next hn =>
        split at h
        · simp only [Except.ok.injEq, Prod.mk.injEq] at h
          exact Nat.lt_of_lt_of_le (h.2 ▸ number_length hn) hw
        · simp at h
      · simp at h
    · simp at h

theorem readTime_length {cs rest : List Char} {t : Instant} (h : readTime cs = .ok (t, rest)) :
    rest.length < cs.length := by
  unfold readTime at h
  split at h
  · simp at h
  next hs =>
    split at h
    · simp at h
    · simp only [Except.ok.injEq, Prod.mk.injEq] at h
      exact h.2 ▸ readString_length hs

theorem readEntry_length {entry : Entry} {r r' : Record} {cs rest : List Char}
    (h : readEntry entry r cs = .ok (r', rest)) : rest.length < cs.length := by
  cases entry <;> obtain ⟨v, hv, -⟩ := mapValue_eq_ok_iff.1 h
  case level => exact readInteger_length hv
  case acquired => exact readTime_length hv
  all_goals exact readText_length hv

/-! ### The map form -/

/-- The next key of a map, or none at its end; a comma stands before every key but the first. -/
def nextKey (first : Bool) (cs : List Char) : Step (Option (List Char)) :=
  let key (cs : List Char) : Step (Option (List Char)) :=
    mapValue some (stringBody cs)
  match skipWhite cs with
  | [] => .error .incomplete
  | '}' :: rest => .ok (none, rest)
  | '"' :: rest => if first then key rest else .error .malformed
  | ',' :: rest =>
    if first then .error .malformed
    else
      match skipWhite rest with
      | [] => .error .incomplete
      | '"' :: rest => key rest
      | _ => .error .malformed
  | _ => .error .malformed

/-- The text after the colon that follows a key. -/
def afterColon (cs : List Char) : Except Fault (List Char) :=
  match skipWhite cs with
  | [] => .error .incomplete
  | ':' :: rest => .ok rest
  | _ => .error .malformed

theorem nextKey_length {first : Bool} {cs rest : List Char} {key : Option (List Char)}
    (h : nextKey first cs = .ok (key, rest)) : rest.length < cs.length := by
  have hkey : ∀ {ds : List Char}, ds.length < cs.length →
      mapValue some (stringBody ds) = .ok (key, rest) → rest.length < cs.length := by
    intro ds hds hmap
    obtain ⟨text, ht, -⟩ := mapValue_eq_ok_iff.1 hmap
    exact Nat.lt_trans (stringBody_length _ ht) hds
  have hw := skipWhite_length_le cs
  unfold nextKey at h
  dsimp only at h
  split at h
  · simp at h
  next hcs =>
    simp only [Except.ok.injEq, Prod.mk.injEq] at h
    simp only [hcs, List.length_cons] at hw
    rw [← h.2]
    omega
  next hcs =>
    simp only [hcs, List.length_cons] at hw
    split at h
    · exact hkey (by omega) h
    · simp at h
  next rest' hcs =>
    simp only [hcs, List.length_cons] at hw
    have hw' := skipWhite_length_le rest'
    split at h
    · simp at h
    split at h
    · simp at h
    next hrest =>
      simp only [hrest, List.length_cons] at hw'
      exact hkey (by omega) h
    · simp at h
  · simp at h

theorem afterColon_length {cs rest : List Char} (h : afterColon cs = .ok rest) :
    rest.length < cs.length := by
  have hw := skipWhite_length_le cs
  unfold afterColon at h
  split at h
  · simp at h
  next hcs =>
    simp only [Except.ok.injEq] at h
    simp only [hcs, List.length_cons] at hw
    rw [← h]
    omega
  · simp at h

/-- The record with the value of one key read from the text; `seen` lists the entries given
before. -/
def readMember (seen : List Entry) (r : Record) (key : String) (cs : List Char) :
    Step (List Entry × Record) :=
  match Entry.ofKey? key with
  | none =>
    match afterColon cs with
    | .error fault => .error fault
    | .ok rest => (skipValue rest).map (((seen, r), ·))
  | some entry =>
    if entry ∈ seen then .error (.refused root (.duplicateField entry.name))
    else
      match afterColon cs with
      | .error fault => .error fault
      | .ok rest =>
        match readEntry entry r rest with
        | .error fault => .error (fault.within key)
        | .ok (r, rest) => .ok ((entry :: seen, r), rest)

theorem readMember_length {seen seen' : List Entry} {r r' : Record} {key : String}
    {cs rest : List Char} (h : readMember seen r key cs = .ok ((seen', r'), rest)) :
    rest.length < cs.length := by
  unfold readMember at h
  split at h
  · split at h
    · simp at h
    next rest' hc =>
      cases hs : skipValue rest' with
      | error fault => simp [hs, Except.map] at h
      | ok rest'' =>
        simp only [hs, Except.map, Except.ok.injEq, Prod.mk.injEq] at h
        have := skipValue_length hs
        have := afterColon_length hc
        rw [← h.2]
        omega
  · split at h
    · simp at h
    split at h
    · simp at h
    next hc =>
      split at h
      · simp at h
      next he =>
        simp only [Except.ok.injEq, Prod.mk.injEq] at h
        have := readEntry_length he
        have := afterColon_length hc
        rw [← h.2]
        omega

/-- The members of a map up to its end. -/
def readMembers (first : Bool) (seen : List Entry) (r : Record) (cs : List Char) :
    Step Record :=
  match hk : nextKey first cs with
  | .error fault => .error fault
  | .ok (none, rest) => .ok (r, rest)
  | .ok (some key, rest) =>
    match hm : readMember seen r (String.ofList key) rest with
    | .error fault => .error fault
    | .ok ((seen, r), rest') =>
      have := nextKey_length hk
      have := readMember_length hm
      readMembers false seen r rest'
termination_by cs.length

/-! ### The list form -/

/-- Whether another element follows in a list, and the rest behind the comma or the end. -/
def nextElement (first : Bool) (cs : List Char) : Step Bool :=
  match skipWhite cs with
  | [] => .error .incomplete
  | ']' :: rest => .ok (false, rest)
  | ',' :: rest =>
    if first then .ok (true, ',' :: rest)
    else
      match skipWhite rest with
      | [] => .error .incomplete
      | ']' :: _ => .error .malformed
      | rest => .ok (true, rest)
  | rest => if first then .ok (true, rest) else .error .malformed

/-- The elements of a list for the given entries, and the end of the list. -/
def readElements (first : Bool) (position : Nat) (r : Record) :
    List Entry → List Char → Step Record
  | [], cs =>
    match skipWhite cs with
    | [] => .error .incomplete
    | ']' :: rest => .ok (r, rest)
    | _ => .error .malformed
  | entry :: entries, cs =>
    match nextElement first cs with
    | .error fault => .error fault
    | .ok (false, rest) => .ok (r, rest)
    | .ok (true, rest) =>
      match readEntry entry r rest with
      | .error fault => .error (fault.within ("[" ++ toString position ++ "]"))
      | .ok (r, rest) => readElements false (position + 1) r entries rest

/-- The record that a text starts with, and the text behind it. -/
def readRecord (cs : List Char) : Step Record :=
  match skipWhite cs with
  | '{' :: rest => readMembers true [] .blank rest
  | '[' :: rest => readElements true 0 .blank Entry.all rest
  | cs => .error (refuse .record cs)

/-- The record that a text starts with. -/
def decodeRecord (text : String) : Except Fault Record :=
  (readRecord text.toList).map Prod.fst

/-! ### Writing -/

/-- A member of a map. -/
def member (name : String) (value : List Char) : List Char := string name.toList ++ ':' :: value

/-- The value of an entry. -/
def entryValue (r : Record) : Entry → List Char
  | .source => string r.source.toList
  | .model => string r.model.toList
  | .mime => string r.mime.toList
  | .kind => string r.kind.toList
  | .level => Integer.signedDecimal r.level.toInt
  | .acquired => string (Rfc3339.write r.acquired)
  | .file => string r.file.toList

/-- The map form of a record, all entries in order. -/
def writeRecord (r : Record) : List Char :=
  let members := Entry.all.map fun entry => member entry.name (entryValue r entry)
  '{' :: (members.intersperse [',']).flatten ++ ['}']

end PathPattern.Json
