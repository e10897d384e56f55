import PathPattern.Proofs.Json.Decoding
import PathPattern.Proofs.Json.Shown

/-!
# The first fault of a record

A document is read from its front. Behind members that are all right, a field that was given before
is refused as soon as its key is read, and a value that its entry does not take over is refused in
the name of its key; in an array, in the name of its place. Whatever follows such a value is not
looked at (`decodeRecord_first_fault`).
-/

namespace PathPattern.Json

open Integer (decimal)

variable {before value cs lead : List Char} {entry : Entry} {entries seen : List Entry}
  {members : List (String × List Char)} {values : List (List Char)} {fault : Fault}

/-! ### What stands before a fault -/

/-- Items with a comma behind each. -/
inductive Preceding {α : Type} (Item : α → List Char → Prop) : List α → List Char → Prop where
  | nil : Preceding Item [] []
  | cons {a : α} {cs ds : List Char} {as : List α} (item : Item a cs)
    (more : Preceding Item as ds) : Preceding Item (a :: as) (cs ++ ',' :: ds)

/-- Each field has a value that its entry takes over. -/
def Accepted (fs : List (Entry × List Char)) : Prop := ∀ f ∈ fs, ∃ r, f.1.Gives f.2 r

/-- An object up to a further member: the members before are well formed, give no entry twice, and
their values are accepted. -/
inductive BeforeMember (members : List (String × List Char)) : List Char → Prop where
  | mk {before lead : List Char} (front : White before)
    (passed : Preceding IsMember members lead)
    (apart : ((fields members).map Prod.fst).Nodup) (accepted : Accepted (fields members)) :
    BeforeMember members (before ++ '{' :: lead)

/-- An array up to a further value: the values before are well formed and accepted, each as the
entry of its place. -/
inductive BeforeElement (values : List (List Char)) : List Char → Prop where
  | mk {before lead : List Char} (front : White before)
    (passed : Preceding IsElement values lead)
    (accepted : Accepted (Entry.all.zip values)) :
    BeforeElement values (before ++ '[' :: lead)

/-! ### Reading up to a fault -/

/-- The text starts with a key. -/
def StartsKey (cs : List Char) : Prop :=
  ∃ name key rest, IsStringOf (String.toList name) key ∧ cs = key ++ rest

theorem Preceding.startsKey (passed : Preceding IsMember members lead) (start : StartsKey cs) :
    StartsKey (lead ++ cs) := by
  cases passed with
  | nil => exact start
  | cons member =>
    cases member with
    | mk named => exact ⟨_, _, _, named, by simp only [List.append_assoc, List.cons_append]; rfl⟩

theorem readMembers_comma_key (start : StartsKey cs) (seen : List Entry) (base : Record) :
    readMembers false seen base (',' :: cs) = readMembers true seen base cs := by
  obtain ⟨name, key, rest, named, rfl⟩ := start
  exact readMembers_comma named ..

/-- Members that are all right are passed, and their entries are seen. -/
theorem exists_of_preceding (passed : Preceding IsMember members lead)
    (apart : ((fields members).map Prod.fst).Nodup) (accepted : Accepted (fields members))
    (fresh : ∀ entry ∈ (fields members).map Prod.fst, entry ∉ seen) (base : Record) :
    ∃ seen' base', (∀ entry, entry ∈ seen' ↔ entry ∈ seen ∨ entry ∈ (fields members).map Prod.fst) ∧
      ∀ cs, StartsKey cs →
        readMembers true seen base (lead ++ cs) = readMembers true seen' base' cs := by
  induction passed generalizing seen base with
  | nil => exact ⟨seen, base, by simp [fields], fun cs _ => rfl⟩
  | @cons m ds lead members member more ih =>
    cases member with
    | @mk name key value ds named element =>
      have stop (cs : List Char) : EndsNumber (',' :: (lead ++ cs)) := by simp [EndsNumber]
      have split (cs : List Char) : key ++ ':' :: ds ++ ',' :: lead ++ cs =
          key ++ ':' :: (ds ++ ',' :: (lead ++ cs)) := by simp
      cases known : keys.lookup name with
      | none =>
        have same : fields ((name, value) :: members) = fields members := by
          simp only [fields, List.filterMap_cons, known, Option.map_none]
        rw [same] at apart accepted fresh ⊢
        obtain ⟨seen', base', mem, read⟩ := ih apart accepted fresh base
        have unknown : Entry.ofKey? name = none := (Entry.ofKey?_eq_lookup name).trans known
        refine ⟨seen', base', mem, fun cs start => ?_⟩
        rw [split, readMembers_unknown named unknown element (stop cs),
          readMembers_comma_key (more.startsKey start), read cs start]
      | some entry =>
        have same : fields ((name, value) :: members) = (entry, value) :: fields members := by
          simp only [fields, List.filterMap_cons, known, Option.map_some]
        rw [same] at apart accepted fresh ⊢
        rw [List.map_cons] at apart fresh ⊢
        obtain ⟨notLater, apart⟩ := List.nodup_cons.1 apart
        obtain ⟨⟨given, gives⟩, accepted⟩ := List.forall_mem_cons.1 accepted
        obtain ⟨notSeen, fresh⟩ := List.forall_mem_cons.1 fresh
        have unseen : ∀ other ∈ (fields members).map Prod.fst, other ∉ entry :: seen := by
          intro other given
          refine List.not_mem_cons_of_ne_of_not_mem ?_ (fresh other given)
          rintro rfl
          exact notLater given
        obtain ⟨seen', base', mem, read⟩ := ih apart accepted unseen (entry.take given base)
        have known' : Entry.ofKey? name = some entry := (Entry.ofKey?_eq_lookup name).trans known
        refine ⟨seen', base', fun other => ?_, fun cs start => ?_⟩
        · rw [mem other, List.mem_cons, List.mem_cons, or_assoc, or_left_comm]
        · rw [split, readMembers_taken named known' notSeen element gives (stop cs),
            readMembers_comma_key (more.startsKey start), read cs start]

/-- The text starts with a value, and white space before it. -/
def StartsElement (cs : List Char) : Prop := ∃ value ds rest, IsElement value ds ∧ cs = ds ++ rest

theorem Preceding.startsElement (passed : Preceding IsElement values lead)
    (start : StartsElement cs) : StartsElement (lead ++ cs) := by
  cases passed with
  | nil => exact start
  | cons element => exact ⟨_, _, _, element, List.append_assoc _ _ _⟩

/-- Values that are all right are passed, and their entries with them. -/
theorem exists_of_preceding_elements (passed : Preceding IsElement values lead)
    (accepted : Accepted (entries.zip values)) (fits : values.length < entries.length)
    (position : Nat) (base : Record) : ∃ base', ∀ cs, StartsElement cs →
      readElements true position base entries (lead ++ cs) =
        readElements true (position + values.length) base' (entries.drop values.length) cs := by
  induction passed generalizing entries position base with
  | nil => exact ⟨base, fun cs _ => rfl⟩
  | @cons value ds lead values element more ih =>
    rw [List.length_cons] at fits
    obtain ⟨entry, next, entries, rfl⟩ : ∃ entry next more, entries = entry :: next :: more := by
      match entries, fits with
      | entry :: next :: more, _ => exact ⟨entry, next, more, rfl⟩
    rw [List.zip_cons_cons] at accepted
    obtain ⟨⟨given, gives⟩, accepted⟩ := List.forall_mem_cons.1 accepted
    obtain ⟨base', read⟩ := ih accepted (Nat.lt_of_succ_lt_succ fits) (position + 1)
      (entry.take given base)
    refine ⟨base', fun cs start => ?_⟩
    obtain ⟨value', ds', rest, element', shape⟩ := more.startsElement start
    have behind : EndsNumber (',' :: (lead ++ cs)) := by simp [EndsNumber]
    rw [List.append_assoc, List.cons_append, readElements_taken element gives behind, shape,
      readElements_comma element', ← shape, read cs start, List.length_cons, List.drop_succ_cons,
      Nat.add_assoc, Nat.add_comm 1]

/-- Behind the members that are all right, the next one is read. -/
theorem BeforeMember.exists_read (h : BeforeMember members before) : ∃ seen base,
    (∀ entry, entry ∈ seen ↔ entry ∈ (fields members).map Prod.fst) ∧
      ∀ cs, StartsKey cs → readRecord (before ++ cs) = readMembers true seen base cs := by
  cases h with
  | mk front passed apart accepted =>
    obtain ⟨seen, base, mem, read⟩ := exists_of_preceding passed apart accepted
      (fun entry _ => List.not_mem_nil) .blank
    refine ⟨seen, base, by simpa using mem, fun cs start => ?_⟩
    rw [List.append_assoc, List.cons_append, readRecord_map front, read cs start]

/-- Behind the values that are all right, the next one is read as the entry of its place. -/
theorem BeforeElement.exists_read (h : BeforeElement values before)
    (next : Entry.all[values.length]? = some entry) : ∃ base entries, ∀ cs, StartsElement cs →
      readRecord (before ++ cs) = readElements true values.length base (entry :: entries) cs := by
  obtain ⟨fits, here⟩ := List.getElem?_eq_some_iff.1 next
  cases h with
  | mk front passed accepted =>
    obtain ⟨base, read⟩ := exists_of_preceding_elements passed accepted fits 0 .blank
    refine ⟨base, Entry.all.drop (values.length + 1), fun cs start => ?_⟩
    rw [List.append_assoc, List.cons_append, readRecord_list front, read cs start, Nat.zero_add,
      List.drop_eq_getElem_cons fits, here]

/-! ### The answer -/

/-- The answer for documents that are the same up to the end of a value. A value that is not
unreadable shows what it is, and is refused for one reason in its place; an unreadable one is
malformed. What follows the value is not looked at. -/
structure AnsweredAt (place : String) (entry : Entry) (value : List Char)
    (doc : List Char → String) : Prop where
  shown : ¬Unreadable value → ∃ found, Shows value found
  refused : ∀ found, Shows value found → ∃ why, entry.Refuses found why ∧
    ∀ rest, EndsNumber rest → decodeRecord (doc rest) = .error (.refused place why)
  malformed : Unreadable value →
    ∀ rest, EndsNumber rest → decodeRecord (doc rest) = .error .malformed

theorem decodeRecord_of_error (h : readRecord cs = .error fault) :
    decodeRecord (String.ofList cs) = .error fault := by
  rw [decodeRecord, String.toList_ofList, h]
  rfl

/-- Documents are answered as the entry at the end of the value is. -/
theorem answeredAt_of_readEntry {place : String} {doc : List Char → String} {blank : List Char}
    (white : White blank) (form : IsValue value) (notGiven : ∀ r, ¬entry.Gives value r)
    (base : Record) (answer : ∀ rest fault,
      readEntry entry base (blank ++ (value ++ rest)) = .error fault →
        decodeRecord (doc rest) = .error (fault.within place)) :
    AnsweredAt place entry value doc where
  shown readable := (shows_or_unreadable form).resolve_right readable
  refused found shows := by
    obtain ⟨why, refuses, refused⟩ := readEntry_of_shows shows notGiven
    exact ⟨why, refuses, fun rest ends => answer rest _ (refused blank rest base white ends)⟩
  malformed unreadable rest ends :=
    answer rest _ (readEntry_of_unreadable unreadable white ends entry base)

/-- The first fault of a record is the answer. A key whose entry was given before is refused
whatever follows the key; a value that a new entry does not take over is refused in the name of its
key, and in an array in the name of its place, whatever follows the value. -/
theorem decodeRecord_first_fault :
    (∀ members before name key entry, BeforeMember members before → IsStringOf name.toList key →
      keys.lookup name = some entry →
      (entry ∈ (fields members).map Prod.fst → ∀ rest,
        decodeRecord (String.ofList (before ++ (key ++ rest))) =
          .error (.refused "." (.duplicateField entry.name))) ∧
      (entry ∉ (fields members).map Prod.fst → ∀ blank value, White blank → IsValue value →
        (∀ r, ¬entry.Gives value r) → AnsweredAt name entry value fun rest =>
          String.ofList (before ++ (key ++ ':' :: (blank ++ (value ++ rest)))))) ∧
    ∀ values before entry, BeforeElement values before → Entry.all[values.length]? = some entry →
      ∀ blank value, White blank → IsValue value → (∀ r, ¬entry.Gives value r) →
        AnsweredAt ("[" ++ toString values.length ++ "]") entry value fun rest =>
          String.ofList (before ++ (blank ++ (value ++ rest))) := by
  constructor
  · intro members before name key entry lead named known
    have known' : Entry.ofKey? name = some entry := (Entry.ofKey?_eq_lookup name).trans known
    obtain ⟨seen, base, mem, read⟩ := lead.exists_read
    refine ⟨fun repeated rest => ?_, fun fresh blank value white form notGiven => ?_⟩
    · apply decodeRecord_of_error
      rw [read _ ⟨name, key, rest, named, rfl⟩,
        readMembers_repeated named known' ((mem entry).2 repeated)]
      rfl
    · refine answeredAt_of_readEntry white form notGiven base fun rest fault failed => ?_
      apply decodeRecord_of_error
      rw [read _ ⟨name, key, _, named, rfl⟩,
        readMembers_fresh named known' (mt (mem entry).1 fresh), failed]
  · intro values before entry lead next blank value white form notGiven
    obtain ⟨base, entries, read⟩ := lead.exists_read next
    refine answeredAt_of_readEntry (List.forall_mem_nil _) form notGiven base
      fun rest fault failed => ?_
    have start : StartsElement (blank ++ (value ++ rest)) :=
      ⟨value, _, rest, .mk white form (List.forall_mem_nil _), by simp⟩
    apply decodeRecord_of_error
    rw [read _ start, readElements_element form white, ← List.nil_append (value ++ rest), failed]

/-- A time given in both of its names, a word as the level and a number as the second text; then
levels that are no integers of 64 bits, of which the last is past all doubles. -/
theorem decodeRecord_first_fault_level :
    decodeRecord "\x7b\"acqtime\":\"2020-01-02T03:04:05Z\",\"acq_time\" ?" =
      .error (.refused "." (.duplicateField "acq_time")) ∧
    decodeRecord "\x7b\"x\":[\x7b\x7d],\"level\": true,\"source\" 1" =
      .error (.refused "level" (.wrongType (.boolean true) .integer)) ∧
    decodeRecord "[\"s\",5] \x7b" = .error (.refused "[1]" (.wrongType (.integer 5) .text)) ∧
    decodeRecord "\x7b\"level\":1.5,\"source\" 1" =
      .error (.refused "level" (.wrongType (.floating false ⟨6755399441055744, -52⟩) .integer)) ∧
    decodeRecord "\x7b\"level\":18446744073709551616 1" =
      .error (.refused "level" (.wrongType (.floating false ⟨4503599627370496, 12⟩) .integer)) ∧
    decodeRecord "\x7b\"level\":1e400\x7d" = .error .malformed := by
  have none : White [] := List.forall_mem_nil _
  have key (name : String) : IsStringOf name.toList (string name.toList) := isStringOf_string _
  have quoted (text : String) : IsValue (string text.toList) := (quotes_string text.toList).isValue
  have bare : BeforeMember [] "\x7b".toList := .mk none .nil (by decide) (List.forall_mem_nil _)
  have level {value : List Char} (form : IsValue value) (notGiven : ∀ r, ¬Entry.level.Gives value r) :=
    (decodeRecord_first_fault.1 _ _ _ _ .level bare (key "level") (by decide)).2 (by decide) []
      value none form notGiven
  have one : IsWhole "1".toList := ⟨isDigits_of_all (by decide) (by decide), by decide⟩
  have keepsOne : Keeps 0 "1".toList 1 1 := ⟨by decide, by decide, by decide, by decide⟩
  refine ⟨?_, ?_, ?_, ?_, ?_, ?_⟩
  · have time : IsMember ("acqtime", string "2020-01-02T03:04:05Z".toList)
        "\"acqtime\":\"2020-01-02T03:04:05Z\"".toList :=
      .mk (key "acqtime") (.mk none (quoted "2020-01-02T03:04:05Z") none)
    obtain ⟨t, names⟩ : ∃ t, Rfc3339.read "2020-01-02T03:04:05Z".toList = .ok t :=
      ⟨⟨1577934245, 0, by decide, by decide, by decide⟩, by decide +kernel⟩
    have gives : Entry.acquired.Gives (string "2020-01-02T03:04:05Z".toList)
        { Record.blank with acquired := t } := ⟨_, quotes_string _, names⟩
    have front : BeforeMember _ "\x7b\"acqtime\":\"2020-01-02T03:04:05Z\",".toList :=
      .mk none (.cons time .nil) (by decide) (List.forall_mem_singleton.2 ⟨_, gives⟩)
    exact (decodeRecord_first_fault.1 _ _ _ _ .acquired front (key "acq_time") (by decide)).1
      (by decide) " ?".toList
  · have nested : IsValue "[{}]".toList :=
      .list (.lastElement (.element none (.emptyMap none) none))
    have other : IsMember ("x", "[{}]".toList) "\"x\":[\x7b\x7d]".toList :=
      .mk (key "x") (.mk none nested none)
    have front : BeforeMember _ "\x7b\"x\":[\x7b\x7d],".toList :=
      .mk none (.cons other .nil) (by decide) (List.forall_mem_nil _)
    have blank : White [' '] := List.forall_mem_singleton.2 rfl
    have answered := (decodeRecord_first_fault.1 _ _ _ _ .level front (key "level") (by decide)).2
      (by decide) _ _ blank Shows.isTrue.isValue (not_gives_of_wrongType .isTrue id)
    obtain ⟨why, refuses, answer⟩ := answered.refused _ .isTrue
    cases refuses
    exact answer ",\"source\" 1".toList (by simp [EndsNumber])
  · have shows : Shows "5".toList (.integer 5) := Shows.integer (v := 5) ⟨by decide, by decide⟩
    have gives : Entry.source.Gives (string "s".toList) { Record.blank with source := "s" } :=
      quotes_string "s".toList
    have element : IsElement (string "s".toList) "\"s\"".toList := .mk none (quoted "s") none
    have accepted : Accepted (Entry.all.zip [string "s".toList]) :=
      List.forall_mem_singleton.2 ⟨_, gives⟩
    have front : BeforeElement _ "[\"s\",".toList := .mk none (.cons element .nil) accepted
    have answered := decodeRecord_first_fault.2 _ _ .model front (by decide) [] _ none shows.isValue
      (not_gives_of_wrongType shows id)
    obtain ⟨why, refuses, answer⟩ := answered.refused _ shows
    cases refuses
    exact answer "] \x7b".toList (by simp [EndsNumber])
  · have more : Keeps 1 "5".toList 1 15 := ⟨by decide, by decide, by decide, by decide⟩
    have digits : IsDigits "5".toList := isDigits_of_all (by decide) (by decide)
    have read : number "1.5".toList = .ok (.floating false ⟨6755399441055744, -52⟩, []) := by
      decide +kernel
    have floats : Floats "1.5".toList false (some (15, -1)) :=
      .mk false (.point one keepsOne digits more) .missing
        (ne_signedDecimal_of_number read (by simp))
    have shows := Shows.floating (x := ⟨6755399441055744, -52⟩) floats (by decide +kernel)
    obtain ⟨why, refuses, answer⟩ :=
      (level shows.isValue (not_gives_of_wrongType shows id)).refused _ shows
    cases refuses
    exact answer ",\"source\" 1".toList (by simp [EndsNumber])
  · have wholePart : IsWhole "18446744073709551616".toList :=
      ⟨isDigits_of_all (by decide) (by decide), by decide⟩
    have keeps : Keeps 0 "18446744073709551616".toList 19 1844674407370955161 :=
      ⟨by decide, by decide, by decide, by decide⟩
    have read : number "18446744073709551616".toList =
        .ok (.floating false ⟨4503599627370496, 12⟩, []) := by
      decide +kernel
    have floats : Floats "18446744073709551616".toList false (some (1844674407370955161, 1)) :=
      .mk false (.whole wholePart keeps) .missing (ne_signedDecimal_of_number read (by simp))
    have shows := Shows.floating (x := ⟨4503599627370496, 12⟩) floats (by decide +kernel)
    obtain ⟨why, refuses, answer⟩ :=
      (level shows.isValue (not_gives_of_wrongType shows id)).refused _ shows
    cases refuses
    exact answer " 1".toList (by simp [EndsNumber])
  · have digits : IsDigits "400".toList := isDigits_of_all (by decide) (by decide)
    have read : number "1e400".toList = .error .malformed := by decide +kernel
    have floats : Floats "1e400".toList false (some (1, 400)) :=
      .mk false (.whole one keepsOne) (.given (.inl rfl) .missing digits)
        (ne_signedDecimal_of_number read (by simp))
    have large : Binary64.TooLarge 1 400 := ⟨by decide, .inl (by decide)⟩
    have unreadable : Unreadable "1e400".toList := .number floats large
    exact (level (.scalar (.number floats.isNumber)) (not_gives_of_unreadable unreadable _)).malformed
      unreadable "\x7d".toList (by simp [EndsNumber])

/-- A number that is no larger than the largest double, and that the reader's own arithmetic still
takes past it: the text is malformed where a value of the wrong type stands. -/
theorem decodeRecord_malformed_double :
    "1.797693134862315700e308".toList =
      decimal 1 ++ '.' :: (decimal 797693134862315700 ++ 'e' :: decimal 308) ∧
    IsNumber "1.797693134862315700e308".toList ∧
    1797693134862315700 * 10 ^ (308 - 18) ≤ (2 ^ 53 - 1) * 2 ^ 971 ∧
    (∀ r, ¬Entry.source.Gives "1.797693134862315700e308".toList r) ∧
    decodeRecord "\x7b\"source\":1.797693134862315700e308\x7d" = .error .malformed := by
  have one : IsWhole ['1'] := ⟨isDigits_of_all (by decide) (by decide), by decide⟩
  have places : IsDigits "797693134862315700".toList := isDigits_of_all (by decide) (by decide)
  have power : IsDigits "308".toList := isDigits_of_all (by decide) (by decide)
  have form : IsNumber "1.797693134862315700e308".toList :=
    .plain (.mk one (.point places) (.power (.inl rfl) (.inl rfl) power))
  have notGiven (r : Record) : ¬Entry.source.Gives "1.797693134862315700e308".toList r :=
    fun gives => absurd (Quotes.head?_eq gives) (by decide)
  exact ⟨by decide, form, by decide +kernel, notGiven, by decide +kernel⟩

end PathPattern.Json
