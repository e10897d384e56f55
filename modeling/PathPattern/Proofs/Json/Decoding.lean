import PathPattern.Proofs.Json.Members

/-!
# What a document says of a record

The members of an object give the fields of a record, in whatever order, and the elements of an
array give them by their places. A document decodes to a record exactly if its fields describe the record:
no entry twice, a value of the record's for each that is given, and the default for each that is not
(`readRecord_object`, `readRecord_array`). So the order of the members, the members in other names,
the spelling of the keys and the white space do not matter (`decodeRecord_of_fields`).
-/

namespace PathPattern.Json

variable {before value cs rest rest' text tail : List Char} {base r : Record} {entry other : Entry}
  {entries seen : List Entry} {fs fs' : List (Entry × List Char)}
  {members : List (String × List Char)} {values : List (List Char)} {position : Nat} {doc : String}

/-! ### Entries of a record -/

theorem Entry.take_self (entry : Entry) (r : Record) : entry.take r r = r := by
  cases entry <;> rfl

theorem Entry.take_take (entry : Entry) (r base r' : Record) :
    entry.take (entry.take r base) r' = entry.take r r' := by
  cases entry <;> rfl

theorem Entry.take_of_ne (apart : other ≠ entry) (r base r' : Record) :
    other.take (entry.take r base) r' = other.take base r' := by
  cases other <;> cases entry <;> first | rfl | exact absurd rfl apart

theorem Entry.gives_take (entry : Entry) (value : List Char) (r base : Record) :
    entry.Gives value (entry.take r base) ↔ entry.Gives value r := by
  cases entry <;> rfl

/-- The record has its default in this entry: no text, level 0, the start of 1970. -/
def Entry.Default (entry : Entry) (r : Record) : Prop :=
  match entry with
  | source => r.source = ""
  | model => r.model = ""
  | mime => r.mime = ""
  | kind => r.kind = ""
  | level => r.level = 0
  | acquired => r.acquired.second = 0 ∧ r.acquired.nanos = 0
  | file => r.file = ""

theorem Entry.default_iff (entry : Entry) (r : Record) :
    entry.Default r ↔ entry.take .blank r = r := by
  obtain ⟨source, model, mime, kind, level, acquired, file⟩ := r
  cases entry
  case acquired => simp [Default, take, Record.blank, Instant.epoch, Instant.ext_iff, eq_comm]
  all_goals simp [Default, take, Record.blank, eq_comm]

/-- Records that agree in every entry are the same. -/
theorem Entry.eq_of_take (same : ∀ entry : Entry, entry.take base r = r) : base = r :=
  calc base = Entry.all.foldl (fun r entry => entry.take base r) r := (foldl_take_all base r).symm
    _ = r := List.foldl_fixed' same _

/-! ### Fields -/

/-- The keys of an object and the entries that they name. -/
def keys : List (String × Entry) :=
  [("source", .source), ("model", .model), ("mime", .mime), ("type", .kind), ("level", .level),
    ("acq_time", .acquired), ("acqtime", .acquired), ("file", .file)]

theorem Entry.ofKey?_eq_lookup (key : String) : ofKey? key = keys.lookup key := by
  by_cases named : key ∈ keys.map Prod.fst
  · have table : ∀ key ∈ keys.map Prod.fst, ofKey? key = keys.lookup key := by decide
    exact table key named
  · have apart : ∀ known ∈ keys.map Prod.fst, known ≠ key :=
      fun known mem same => named (same ▸ mem)
    have noEntry : ∀ entry ∈ all, ¬(decide (entry.name = key) = true) := by
      have table : ∀ entry ∈ all, entry.name ∈ keys.map Prod.fst := by decide
      intro entry mem
      simpa using apart _ (table entry mem)
    have noKey : keys.lookup key = none := by
      rw [List.lookup_eq_none_iff]
      intro known mem
      simpa using (apart known.1 (List.mem_map_of_mem mem)).symm
    rw [ofKey?, if_neg (apart _ (by decide)).symm, List.find?_eq_none.2 noEntry, noKey]

/-- The fields that members give; a member in another name gives none. -/
def fields (members : List (String × List Char)) : List (Entry × List Char) :=
  members.filterMap fun m => (keys.lookup m.1).map (·, m.2)

/-- The fields are what is said of the record: no entry twice, each with a value of the record's,
and the default in every other entry. -/
structure Describes (fs : List (Entry × List Char)) (r : Record) : Prop where
  apart : (fs.map Prod.fst).Nodup
  given : ∀ f ∈ fs, f.1.Gives f.2 r
  missing : ∀ entry ∉ fs.map Prod.fst, entry.Default r

theorem Describes.of_perm (h : Describes fs r) (same : fs'.Perm fs) : Describes fs' r where
  apart := (same.map Prod.fst).nodup_iff.2 h.apart
  given f mem := h.given f (same.mem_iff.1 mem)
  missing entry notGiven := h.missing entry (mt (same.map Prod.fst).mem_iff.2 notGiven)

/-- Fields taken over one after another, from a record and the entries given before. -/
inductive Takes : List Entry → Record → List (Entry × List Char) → Record → Prop where
  | nil {seen : List Entry} {base : Record} : Takes seen base [] base
  | cons {seen : List Entry} {base given r : Record} {entry : Entry} {value : List Char}
    {fs : List (Entry × List Char)} (fresh : entry ∉ seen) (gives : entry.Gives value given)
    (more : Takes (entry :: seen) (entry.take given base) fs r) :
    Takes seen base ((entry, value) :: fs) r

theorem takes_nil_iff : Takes seen base [] r ↔ base = r := by
  constructor
  · rintro ⟨⟩
    rfl
  · rintro rfl
    exact .nil

theorem takes_cons_iff : Takes seen base ((entry, value) :: fs) r ↔ entry ∉ seen ∧
    ∃ given, entry.Gives value given ∧ Takes (entry :: seen) (entry.take given base) fs r := by
  constructor
  · rintro (_ | ⟨fresh, gives, more⟩)
    exact ⟨fresh, _, gives, more⟩
  · rintro ⟨fresh, given, gives, more⟩
    exact .cons fresh gives more

/-- Fields are taken over exactly to the record that has their values and is the same as before in
every other entry, if no entry comes twice or was there before. -/
theorem takes_iff : Takes seen base fs r ↔ (fs.map Prod.fst).Nodup ∧ (∀ f ∈ fs, f.1 ∉ seen) ∧
    (∀ f ∈ fs, f.1.Gives f.2 r) ∧ ∀ entry ∉ fs.map Prod.fst, entry.take base r = r := by
  induction fs generalizing seen base with
  | nil =>
    constructor
    · rintro ⟨⟩
      exact ⟨.nil, by simp, by simp, fun entry _ => entry.take_self _⟩
    · rintro ⟨-, -, -, missing⟩
      obtain rfl := Entry.eq_of_take fun entry => missing entry List.not_mem_nil
      exact .nil
  | cons f fs ih =>
    obtain ⟨entry, value⟩ := f
    rw [List.map_cons, List.nodup_cons, List.forall_mem_cons, List.forall_mem_cons]
    constructor
    · rintro (_ | ⟨fresh, gives, more⟩)
      obtain ⟨apart, unseen, later, missing⟩ := ih.1 more
      have notLater : entry ∉ fs.map Prod.fst := by
        intro mem
        obtain ⟨f, given, rfl⟩ := List.mem_map.1 mem
        exact unseen f given List.mem_cons_self
      have here := missing entry notLater
      rw [Entry.take_take] at here
      refine ⟨⟨notLater, apart⟩, ⟨fresh, fun f mem => mt (List.mem_cons_of_mem _) (unseen f mem)⟩,
        ⟨?_, later⟩, fun other notGiven => ?_⟩
      · rwa [← here, Entry.gives_take]
      · obtain ⟨other_ne, notLater⟩ := not_or.1 (mt List.mem_cons.2 notGiven)
        have behind := missing other notLater
        rwa [Entry.take_of_ne other_ne] at behind
    · rintro ⟨⟨notLater, apart⟩, ⟨fresh, unseen⟩, ⟨gives, later⟩, missing⟩
      refine .cons fresh gives (ih.2 ⟨apart, fun f mem => ?_, later, fun other notGiven => ?_⟩)
      · have other_ne : f.1 ≠ entry := by
          intro same
          have given : f.1 ∈ fs.map Prod.fst := List.mem_map_of_mem mem
          exact notLater (same ▸ given)
        exact List.not_mem_cons_of_ne_of_not_mem other_ne (unseen f mem)
      · by_cases same : other = entry
        · rw [same, Entry.take_take, Entry.take_self]
        · rw [Entry.take_of_ne same]
          exact missing other (List.not_mem_cons_of_ne_of_not_mem same notGiven)

/-- From the blank record on, fields are taken over exactly to the record that they describe. -/
theorem takes_blank_iff : Takes [] .blank fs r ↔ Describes fs r := by
  rw [takes_iff]
  constructor
  · rintro ⟨apart, -, given, missing⟩
    exact ⟨apart, given, fun entry notGiven => (entry.default_iff r).2 (missing entry notGiven)⟩
  · rintro ⟨apart, given, missing⟩
    exact ⟨apart, by simp, given,
      fun entry notGiven => (entry.default_iff r).1 (missing entry notGiven)⟩

/-! ### Objects -/

/-- What a member gives is taken over before the rest. -/
theorem takes_fields_cons {m : String × List Char} : Takes seen base (fields (m :: members)) r ↔
    match Entry.ofKey? m.1 with
    | none => Takes seen base (fields members) r
    | some entry => entry ∉ seen ∧ ∃ given, entry.Gives m.2 given ∧
      Takes (entry :: seen) (entry.take given base) (fields members) r := by
  rw [Entry.ofKey?_eq_lookup]
  cases known : keys.lookup m.1 with
  | none => simp only [fields, List.filterMap_cons, known, Option.map_none]
  | some entry => simp only [fields, List.filterMap_cons, known, Option.map_some, takes_cons_iff]

/-- What a member gives is taken over before the rest is read. -/
theorem readMembers_member_iff {m : String × List Char} (member : IsMember m cs)
    (ends : EndsNumber rest) : readMembers true seen base (cs ++ rest) = .ok (r, rest') ↔
    match Entry.ofKey? m.1 with
    | none => readMembers false seen base rest = .ok (r, rest')
    | some entry => entry ∉ seen ∧ ∃ given, entry.Gives m.2 given ∧
      readMembers false (entry :: seen) (entry.take given base) rest = .ok (r, rest') := by
  cases member with
  | @mk name key value cs named element =>
    rw [List.append_assoc, List.cons_append]
    cases known : Entry.ofKey? name with
    | none => rw [readMembers_unknown named known element ends]
    | some entry =>
      constructor
      · intro read
        have fresh : entry ∉ seen := by
          intro repeated
          rw [readMembers_repeated named known repeated] at read
          cases read
        refine ⟨fresh, ?_⟩
        cases element with
        | @mk before after front form back =>
          have stop := endsNumber_append back ends
          rw [readMembers_fresh named known fresh, List.append_assoc, List.append_assoc] at read
          split at read
          · cases read
          · next r' more taken =>
            obtain ⟨⟨given, gives, rfl⟩, rfl⟩ := (readEntry_eq_ok_iff form front stop).1 taken
            rw [readMembers_append back] at read
            exact ⟨given, gives, read⟩
      · rintro ⟨fresh, given, gives, read⟩
        rw [readMembers_taken named known fresh element gives ends, read]

/-- Behind a comma, a row of members is read like the first one. -/
theorem readMembers_comma_row (row : Row IsMember members cs) (seen : List Entry) (base : Record)
    (rest : List Char) : readMembers false seen base (',' :: (cs ++ rest)) =
      readMembers true seen base (cs ++ rest) := by
  have start {m : String × List Char} {cs : List Char} (member : IsMember m cs)
      (rest : List Char) : readMembers false seen base (',' :: (cs ++ rest)) =
        readMembers true seen base (cs ++ rest) := by
    cases member with
    | mk named =>
      rw [List.append_assoc]
      exact readMembers_comma named ..
  cases row with
  | last member => exact start member _
  | cons member =>
    rw [List.append_assoc]
    exact start member _

/-- A row of members is read exactly to the record that their fields are taken over to. -/
theorem readMembers_row_iff (row : Row IsMember members cs) :
    readMembers true seen base (cs ++ '}' :: rest) = .ok (r, rest') ↔
      Takes seen base (fields members) r ∧ rest' = rest := by
  have ending (seen : List Entry) (base : Record) :
      readMembers false seen base ('}' :: rest) = .ok (r, rest') ↔
        Takes seen base (fields []) r ∧ rest' = rest := by
    rw [fields, List.filterMap_nil, takes_nil_iff, readMembers_of_end (nextKey_end false rest)]
    simp [eq_comm]
  induction row generalizing seen base with
  | @last m cs member =>
    rw [readMembers_member_iff member (by simp [EndsNumber]), takes_fields_cons]
    cases Entry.ofKey? m.1 with
    | none => exact ending ..
    | some entry => simp only [ending, and_assoc, ← exists_and_right]
  | @cons m cs ds members member more ih =>
    have behind (seen : List Entry) (base : Record) :
        readMembers false seen base (',' :: ds ++ '}' :: rest) = .ok (r, rest') ↔
          Takes seen base (fields members) r ∧ rest' = rest := by
      rw [List.cons_append, readMembers_comma_row more]
      exact ih
    rw [List.append_assoc, readMembers_member_iff member (by simp [EndsNumber]), takes_fields_cons]
    cases Entry.ofKey? m.1 with
    | none => exact behind ..
    | some entry => simp only [behind, and_assoc, ← exists_and_right]

theorem readRecord_map (front : White before) (cs : List Char) :
    readRecord (before ++ '{' :: cs) = readMembers true [] .blank cs := by
  rw [readRecord, skipWhite_append_cons front (by decide)]
  rfl

/-- An object decodes exactly to the record that its fields describe, and what follows is left. -/
theorem readRecord_object (h : IsObject members text) :
    readRecord (text ++ tail) = .ok (r, rest) ↔ Describes (fields members) r ∧ rest = tail := by
  rw [← takes_blank_iff]
  cases h with
  | empty front white =>
    rw [fields, List.filterMap_nil, takes_nil_iff]
    simp only [List.append_assoc, List.cons_append, List.nil_append, readRecord_map front,
      readMembers_end white, Except.ok.injEq, Prod.mk.injEq, eq_comm (a := rest)]
  | mk front row =>
    simp only [List.append_assoc, List.cons_append, List.nil_append, readRecord_map front]
    exact readMembers_row_iff row

/-! ### Arrays -/

theorem readElements_element_iff (element : IsElement value cs) (ends : EndsNumber rest) :
    readElements true position base (entry :: entries) (cs ++ rest) = .ok (r, rest') ↔
      ∃ given, entry.Gives value given ∧
        readElements false (position + 1) (entry.take given base) entries rest =
          .ok (r, rest') := by
  constructor
  · intro read
    cases element with
    | @mk before after front form back =>
      have stop := endsNumber_append back ends
      rw [List.append_assoc, List.append_assoc, readElements_element form front] at read
      split at read
      · cases read
      · next r' more taken =>
        rw [← List.nil_append (value ++ _)] at taken
        obtain ⟨⟨given, gives, rfl⟩, rfl⟩ :=
          (readEntry_eq_ok_iff form (List.forall_mem_nil _) stop).1 taken
        rw [readElements_append back] at read
        exact ⟨given, gives, read⟩
  · rintro ⟨given, gives, read⟩
    rw [readElements_taken element gives ends, read]

/-- Behind a comma, a row of elements is read like the first one. -/
theorem readElements_comma_row (row : Row IsElement values cs) (position : Nat) (base : Record)
    (entry : Entry) (entries : List Entry) (rest : List Char) :
    readElements false position base (entry :: entries) (',' :: (cs ++ rest)) =
      readElements true position base (entry :: entries) (cs ++ rest) := by
  cases row with
  | last element => exact readElements_comma element ..
  | cons element =>
    rw [List.append_assoc]
    exact readElements_comma element ..

/-- A row of elements is read exactly to the record that they are taken over to, each as the entry
of its place. -/
theorem readElements_row_iff (row : Row IsElement values cs) (fits : values.length ≤ entries.length)
    (apart : entries.Nodup) (fresh : ∀ entry ∈ entries, entry ∉ seen) :
    readElements true position base entries (cs ++ ']' :: rest) = .ok (r, rest') ↔
      Takes seen base (entries.zip values) r ∧ rest' = rest := by
  have ending (position : Nat) (base : Record) (entries seen : List Entry) :
      readElements false position base entries (']' :: rest) = .ok (r, rest') ↔
        Takes seen base (entries.zip []) r ∧ rest' = rest := by
    have read := readElements_end (List.forall_mem_nil _) false position base entries rest
    rw [List.nil_append] at read
    rw [read, List.zip_nil_right, takes_nil_iff]
    simp [eq_comm]
  induction row generalizing entries seen base position with
  | last element =>
    cases entries with
    | nil => simp at fits
    | cons entry entries =>
      rw [readElements_element_iff element (by simp [EndsNumber]), List.zip_cons_cons,
        takes_cons_iff]
      simp only [ending _ _ _ (entry :: seen), fresh entry List.mem_cons_self, not_false_eq_true,
        true_and, and_assoc, ← exists_and_right]
  | @cons value cs ds values element more ih =>
    cases entries with
    | nil => simp at fits
    | cons entry entries =>
      obtain ⟨notLater, apart⟩ := List.nodup_cons.1 apart
      have unseen : ∀ other ∈ entries, other ∉ entry :: seen := by
        intro other mem
        refine List.not_mem_cons_of_ne_of_not_mem ?_ (fresh other (List.mem_cons_of_mem _ mem))
        rintro rfl
        exact notLater mem
      have behind (base : Record) :
          readElements false (position + 1) base entries (',' :: ds ++ ']' :: rest) = .ok (r, rest') ↔
            Takes (entry :: seen) base (entries.zip values) r ∧ rest' = rest := by
        have later : readElements true (position + 1) base entries (ds ++ ']' :: rest) =
            .ok (r, rest') ↔ Takes (entry :: seen) base (entries.zip values) r ∧ rest' = rest :=
          ih (Nat.le_of_succ_le_succ fits) apart unseen
        cases entries with
        | nil => cases more <;> simp at fits
        | cons next entries => rwa [List.cons_append, readElements_comma_row more]
      rw [List.append_assoc, readElements_element_iff element (by simp [EndsNumber]),
        List.zip_cons_cons, takes_cons_iff]
      simp only [behind, fresh entry List.mem_cons_self, not_false_eq_true, true_and, and_assoc,
        ← exists_and_right]

theorem readRecord_list (front : White before) (cs : List Char) :
    readRecord (before ++ '[' :: cs) = readElements true 0 .blank Entry.all cs := by
  rw [readRecord, skipWhite_append_cons front (by decide)]
  rfl

/-- An array decodes exactly to the record that its values describe in the order of the entries, and
what follows is left. -/
theorem readRecord_array (h : IsArray values text) (fits : values.length ≤ Entry.all.length) :
    readRecord (text ++ tail) = .ok (r, rest) ↔
      Describes (Entry.all.zip values) r ∧ rest = tail := by
  rw [← takes_blank_iff]
  cases h with
  | empty front white =>
    rw [List.zip_nil_right, takes_nil_iff]
    simp only [List.append_assoc, List.cons_append, List.nil_append, readRecord_list front,
      readElements_end white, Except.ok.injEq, Prod.mk.injEq, eq_comm (a := rest)]
  | mk front row =>
    simp only [List.append_assoc, List.cons_append, List.nil_append, readRecord_list front]
    exact readElements_row_iff row fits (by decide) (by simp)

/-! ### Documents -/

/-- Only an object or an array with no more values than entries is read as a record. -/
theorem exists_of_readRecord (h : readRecord cs = .ok (r, rest)) :
    ∃ text, cs = text ++ rest ∧ ((∃ members, IsObject members text) ∨
      ∃ values, values.length ≤ Entry.all.length ∧ IsArray values text) := by
  obtain ⟨before, white, split⟩ := exists_append_skipWhite cs
  unfold readRecord at h
  split at h
  · next start =>
    obtain ⟨members, closed⟩ := exists_closed_of_readMembers _ _ _ _ h
    obtain ⟨text, object, shape⟩ := closed.exists_enclosed white
    exact ⟨text, by rw [split, start, shape], .inl ⟨members, object⟩⟩
  · next start =>
    obtain ⟨values, fits, closed⟩ := exists_closed_of_readElements h
    obtain ⟨text, list, shape⟩ := closed.exists_enclosed white
    exact ⟨text, by rw [split, start, shape], .inr ⟨values, fits, list⟩⟩
  · cases h

/-- The document is an object with these members, and anything behind it. -/
inductive HasObject (members : List (String × List Char)) : String → Prop where
  | mk {text : List Char} (object : IsObject members text) (tail : List Char) :
    HasObject members (String.ofList (text ++ tail))

/-- The document is an array of these values, and anything behind it. -/
inductive HasArray (values : List (List Char)) : String → Prop where
  | mk {text : List Char} (array : IsArray values text) (tail : List Char) :
    HasArray values (String.ofList (text ++ tail))

theorem decodeRecord_eq_ok_iff : decodeRecord (String.ofList cs) = .ok r ↔
    ∃ rest, readRecord cs = .ok (r, rest) := by
  rw [decodeRecord, String.toList_ofList]
  cases readRecord cs with
  | error fault => simp [Except.map]
  | ok out => simp [Except.map, Prod.ext_iff]

theorem HasObject.decodeRecord_iff (h : HasObject members doc) :
    decodeRecord doc = .ok r ↔ Describes (fields members) r := by
  cases h with
  | mk object tail =>
    simp only [decodeRecord_eq_ok_iff, readRecord_object object, exists_and_left, exists_eq,
      and_true]

theorem HasArray.decodeRecord_iff (h : HasArray values doc)
    (fits : values.length ≤ Entry.all.length) : decodeRecord doc = .ok r ↔ Describes (Entry.all.zip values) r := by
  cases h with
  | mk array tail =>
    simp only [decodeRecord_eq_ok_iff, readRecord_array array fits, exists_and_left, exists_eq,
      and_true]

/-- The fields of an object are all that counts. Whatever object has the same fields in some order
decodes alike, with members in other names or without, the time in either of its names and white
space as one likes; so does the array of as many values in the order of the entries; and what is not
given has its default. -/
theorem decodeRecord_of_fields (object : HasObject members doc) :
    (∀ members' doc', HasObject members' doc' → (fields members').Perm (fields members) →
      ∀ r, decodeRecord doc = .ok r ↔ decodeRecord doc' = .ok r) ∧
    (∀ values array, HasArray values array → values.length ≤ Entry.all.length →
      (fields members).Perm (Entry.all.zip values) →
      ∀ r, decodeRecord doc = .ok r ↔ decodeRecord array = .ok r) ∧
    ∀ r, decodeRecord doc = .ok r → ∀ entry ∉ (fields members).map Prod.fst, entry.Default r := by
  refine ⟨fun members' doc' object' same r => ?_, fun values array isArray fits same r => ?_, ?_⟩
  · rw [object.decodeRecord_iff, object'.decodeRecord_iff]
    exact ⟨fun h => h.of_perm same, fun h => h.of_perm same.symm⟩
  · rw [object.decodeRecord_iff, isArray.decodeRecord_iff fits]
    exact ⟨fun h => h.of_perm same.symm, fun h => h.of_perm same⟩
  · intro r decodes
    exact (object.decodeRecord_iff.1 decodes).missing

/-- Two fields the other way round, one in its other name, with a nested member that nobody asks for
and text behind the object; and a field alone, as an object and as an array. -/
theorem decodeRecord_of_fields_source :
    let plain := "\x7b\"source\":\"s\",\"acqtime\":\"2020-01-02T03:04:05Z\"\x7d"
    let other := " \x7b \"x\":[\x7b\x7d] ,\"acq_time\":\"2020-01-02T03:04:05Z\",\"source\":\"s\"\x7d 1"
    decodeRecord other = decodeRecord plain ∧
    decodeRecord "[\"s\"]" = .ok { Record.blank with source := "s" } ∧
    Entry.acquired.Default { Record.blank with source := "s" } := by
  intro plain other
  have none : White [] := List.forall_mem_nil _
  have blank : White [' '] := List.forall_mem_singleton.2 rfl
  have key (name : String) : IsStringOf name.toList (string name.toList) := isStringOf_string _
  have quoted (text : String) : IsValue (string text.toList) := (quotes_string text.toList).isValue
  have spaced : IsStringOf "x".toList " \"x\"".toList :=
    .mk blank (spellsText_escaped "x".toList) none
  have nested : IsValue "[{}]".toList := .list (.lastElement (.element none (.emptyMap none) none))
  have source : IsMember ("source", string "s".toList) "\"source\":\"s\"".toList :=
    .mk (key "source") (.mk none (quoted "s") none)
  have time (name : String) : IsMember (name, string "2020-01-02T03:04:05Z".toList)
      (string name.toList ++ ':' :: "\"2020-01-02T03:04:05Z\"".toList) :=
    .mk (key name) (.mk none (quoted "2020-01-02T03:04:05Z") none)
  have isPlain : HasObject _ plain := .mk (.mk none (.cons source (.last (time "acqtime")))) []
  have isOther : HasObject _ other := .mk (.mk blank (.cons (.mk spaced (.mk none nested blank))
    (.cons (time "acq_time") (.last source)))) " 1".toList
  have alone : HasObject _ "\x7b\"source\":\"s\"\x7d" := .mk (.mk none (.last source)) []
  have array : HasArray _ "[\"s\"]" := .mk (.mk none (.last (.mk none (quoted "s") none))) []
  have decodes : decodeRecord "\x7b\"source\":\"s\"\x7d" = .ok { Record.blank with source := "s" } := by
    decide +kernel
  obtain ⟨r, found⟩ : ∃ r, decodeRecord plain = .ok r :=
    ⟨{ Record.blank with source := "s", acquired := ⟨1577934245, 0, by decide, by decide, by decide⟩ },
      by decide +kernel⟩
  refine ⟨?_, ?_, ?_⟩
  · rw [found, ((decodeRecord_of_fields isPlain).1 _ _ isOther (by decide) r).1 found]
  · exact ((decodeRecord_of_fields alone).2.1 _ _ array (by decide) (by decide) _).1 decodes
  · exact (decodeRecord_of_fields alone).2.2 _ decodes .acquired (by decide)

/-! ### What follows a document -/

theorem decodeRecord_append (decodes : decodeRecord doc = .ok r) (s : String) :
    decodeRecord (doc ++ s) = .ok r := by
  rw [← String.ofList_toList (s := doc)] at decodes
  obtain ⟨rest, read⟩ := decodeRecord_eq_ok_iff.1 decodes
  obtain ⟨text, split, form⟩ := exists_of_readRecord read
  have whole : doc ++ s = String.ofList (text ++ (rest ++ s.toList)) := by
    rw [← String.ofList_toList (s := doc ++ s), String.toList_append, split, List.append_assoc]
  rw [split] at read
  rw [whole]
  rcases form with ⟨members, object⟩ | ⟨values, fits, array⟩
  · rw [(HasObject.mk object _).decodeRecord_iff]
    exact ((readRecord_object object).1 read).1
  · rw [(HasArray.mk array _).decodeRecord_iff fits]
    exact ((readRecord_array array fits).1 read).1

theorem decodePattern_append {p : Pattern} (decodes : decodePattern doc = .ok p) (s : String) :
    (White s.toList → decodePattern (doc ++ s) = .ok p) ∧
      (¬White s.toList → decodePattern (doc ++ s) = .error .malformed) := by
  have spelled := isStringOf_of_decodePattern decodes
  have compiled := ofTemplate_eq_ok_iff.2 ((decodePattern_eq_ok_iff spelled).1 decodes)
  generalize split : doc.toList = cs at spelled
  cases spelled with
  | @mk before body after front spells back =>
    have read : readText (doc ++ s).toList = .ok (p.template, after ++ s.toList) :=
      readText_eq_ok_iff.2 ⟨before, body, front, spells, by simp [split]⟩
    constructor
    · intro white
      have done : skipWhite s.toList = [] := skipWhite_eq_nil_iff.2 white
      simp only [decodePattern, read, compiled, skipWhite_append back, if_pos done]
    · intro other
      have more : skipWhite s.toList ≠ [] := mt skipWhite_eq_nil_iff.1 other
      simp only [decodePattern, read, compiled, skipWhite_append back, if_neg more]

end PathPattern.Json
