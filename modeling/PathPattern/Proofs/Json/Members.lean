import PathPattern.Proofs.Json.Fields

/-!
# The members and the elements of a record

In a map, a member in another name is passed over, one whose entry was given before is refused, and
any other gives its entry; then the rest is read (`readMembers_unknown`, `readMembers_repeated`,
`readMembers_taken`). In a list, each element gives the entry of its place (`readElements_taken`). A
map or a list that is read to its end is an object or an array (`exists_closed_of_readMembers`,
`exists_closed_of_readElements`).
-/

namespace PathPattern.Json

variable {name : String} {before inside value rest cs ds key : List Char} {base r given : Record}
  {entry : Entry} {entries : List Entry} {seen : List Entry} {first : Bool} {position : Nat}

/-! ### One member -/

/-- A key is read, however it is spelled. -/
theorem readMembers_key (named : IsStringOf name.toList key) : ∃ after, White after ∧
    ∀ seen base rest, readMembers true seen base (key ++ rest) =
      match readMember seen base name (after ++ rest) with
      | .error fault => .error fault
      | .ok ((seen, r), rest) => readMembers false seen r rest := by
  obtain ⟨after, back, next, -⟩ := nextKey_of_isStringOf named
  refine ⟨after, back, fun seen base rest => ?_⟩
  have step := readMembers_eq true seen base (key ++ rest)
  rw [next] at step
  simp only [String.ofList_toList] at step
  exact step

/-- A key whose entry was given before is refused, whatever follows. -/
theorem readMembers_repeated (named : IsStringOf name.toList key)
    (known : Entry.ofKey? name = some entry) (repeated : entry ∈ seen) (base : Record)
    (rest : List Char) : readMembers true seen base (key ++ rest) =
      .error (.refused root (.duplicateField entry.name)) := by
  obtain ⟨after, -, read⟩ := readMembers_key named
  simp only [read, readMember, known, if_pos repeated]

/-- The value of an entry that was not given before is read behind the colon. -/
theorem readMembers_fresh (named : IsStringOf name.toList key)
    (known : Entry.ofKey? name = some entry) (fresh : entry ∉ seen) (base : Record)
    (rest : List Char) : readMembers true seen base (key ++ ':' :: rest) =
      match readEntry entry base rest with
      | .error fault => .error (fault.within name)
      | .ok (r, rest) => readMembers false (entry :: seen) r rest := by
  obtain ⟨after, back, read⟩ := readMembers_key named
  simp only [read, readMember, known, if_neg fresh, afterColon_append back]
  cases readEntry entry base rest with
  | error fault => rfl
  | ok out => rfl

theorem readMembers_taken (named : IsStringOf name.toList key)
    (known : Entry.ofKey? name = some entry) (fresh : entry ∉ seen) (element : IsElement value cs)
    (gives : entry.Gives value given) (ends : EndsNumber rest) (base : Record) :
    readMembers true seen base (key ++ ':' :: (cs ++ rest)) =
      readMembers false (entry :: seen) (entry.take given base) rest := by
  cases element with
  | mk front form back =>
    have read := readEntry_of_gives gives front (endsNumber_append back ends) base
    rw [readMembers_fresh named known fresh, List.append_assoc, List.append_assoc, read]
    exact readMembers_append back ..

theorem readMembers_unknown (named : IsStringOf name.toList key)
    (unknown : Entry.ofKey? name = none) (element : IsElement value cs) (ends : EndsNumber rest)
    (seen : List Entry) (base : Record) :
    readMembers true seen base (key ++ ':' :: (cs ++ rest)) = readMembers false seen base rest := by
  obtain ⟨after, white, read⟩ := readMembers_key named
  cases element with
  | mk front form back =>
    have skipped := skipValue_append form front (endsNumber_append back ends)
    rw [read, List.append_assoc, List.append_assoc]
    simp only [readMember, unknown, afterColon_append white, skipped, Except.map]
    exact readMembers_append back ..

/-- Behind a comma, a key is read like the first one. -/
theorem readMembers_comma (named : IsStringOf name.toList key) (seen : List Entry) (base : Record)
    (rest : List Char) : readMembers false seen base (',' :: (key ++ rest)) =
      readMembers true seen base (key ++ rest) := by
  obtain ⟨after, -, first, later⟩ := nextKey_of_isStringOf named
  rw [readMembers_eq, later, readMembers_eq true, first]

theorem readMembers_end (white : White inside) (first : Bool) (seen : List Entry) (base : Record)
    (rest : List Char) :
    readMembers first seen base (inside ++ '}' :: rest) = .ok (base, rest) := by
  rw [readMembers_append white]
  exact readMembers_of_end (nextKey_end first rest)

/-! ### One element -/

theorem nextElement_of_startsValue {c : Char} (start : StartsValue c) (white : White before)
    (cs : List Char) : nextElement true (before ++ c :: cs) = .ok (true, c :: cs) := by
  rw [nextElement, skipWhite_append_cons white start.shown]
  split
  · next stop => cases stop
  · next stop => exact absurd (List.cons.inj stop).1 start.notListEnd
  · next comma => exact absurd (List.cons.inj comma).1 start.notComma
  · rfl

/-- The value of the next entry is read, from its first character on. -/
theorem readElements_element (form : IsValue value) (white : White before) (position : Nat)
    (base : Record) (entry : Entry) (entries : List Entry) (rest : List Char) :
    readElements true position base (entry :: entries) (before ++ (value ++ rest)) =
      match readEntry entry base (value ++ rest) with
      | .error fault => .error (fault.within ("[" ++ toString position ++ "]"))
      | .ok (r, rest) => readElements false (position + 1) r entries rest := by
  obtain ⟨c, cs, rfl, start⟩ := form.exists_start
  have element := nextElement_of_startsValue start white (cs ++ rest)
  rw [List.cons_append]
  cases read : readEntry entry base (c :: (cs ++ rest)) <;> simp only [readElements, element, read]

theorem readElements_taken (element : IsElement value cs) (gives : entry.Gives value given)
    (ends : EndsNumber rest) (position : Nat) (base : Record) (entries : List Entry) :
    readElements true position base (entry :: entries) (cs ++ rest) =
      readElements false (position + 1) (entry.take given base) entries rest := by
  cases element with
  | @mk before after front form back =>
    have read := readEntry_of_gives gives (List.forall_mem_nil _) (endsNumber_append back ends) base
    rw [List.nil_append] at read
    rw [List.append_assoc, List.append_assoc, readElements_element form front, read]
    exact readElements_append back ..

/-- Behind a comma, an element is read like the first one. -/
theorem readElements_comma (element : IsElement value cs) (position : Nat) (base : Record)
    (entries : List Entry) (rest : List Char) :
    readElements false position base (entry :: entries) (',' :: (cs ++ rest)) =
      readElements true position base (entry :: entries) (cs ++ rest) := by
  cases element with
  | @mk before after front form =>
    obtain ⟨c, more, rfl, start⟩ := form.exists_start
    have later (rest : List Char) :
        nextElement false (',' :: (before ++ c :: rest)) = .ok (true, c :: rest) := by
      rw [nextElement, skipWhite_cons (by decide)]
      simp only [Bool.false_eq_true, if_false, skipWhite_append_cons front start.shown]
      split
      · next stop => cases stop
      · next stop => exact absurd (List.cons.inj stop).1 start.notListEnd
      · rfl
    rw [List.append_assoc, List.append_assoc, List.cons_append, readElements, later, readElements,
      nextElement_of_startsValue start front]

theorem readElements_end (white : White inside) (first : Bool) (position : Nat) (base : Record)
    (entries : List Entry) (rest : List Char) :
    readElements first position base entries (inside ++ ']' :: rest) = .ok (base, rest) := by
  rw [readElements_append white]
  cases entries with
  | nil =>
    rw [readElements, skipWhite_cons (by decide)]
    rfl
  | cons entry entries =>
    rw [readElements, nextElement, skipWhite_cons (by decide)]
    rfl

/-! ### Only objects and arrays are read to their end -/

/-- What stands before an item: nothing if it is the first one, and else a comma. -/
inductive Leads : Bool → List Char → Prop where
  | first : Leads true []
  | later {before : List Char} (white : White before) : Leads false (before ++ [','])

/-- The rest of what a bracket opened, up to the bracket that closes it: white space, or a row of
items and what stands before it. -/
inductive Closed {α : Type} (Item : α → List Char → Prop) (closing : Char) (rest : List Char)
    (first : Bool) : List α → List Char → Prop where
  | close {inside : List Char} (white : White inside) :
    Closed Item closing rest first [] (inside ++ closing :: rest)
  | row {as : List α} {front cs : List Char} (leads : Leads first front) (row : Row Item as cs) :
    Closed Item closing rest first as (front ++ (cs ++ closing :: rest))

/-- An item that takes up the white space behind it starts a row with what follows it. -/
theorem Closed.exists_row {α : Type} {Item : α → List Char → Prop} {closing : Char} {a : α}
    {as : List α} (item : ∀ inside, White inside → Item a (ds ++ inside))
    (h : Closed Item closing rest false as cs) :
    ∃ row, Row Item (a :: as) row ∧ ds ++ cs = row ++ closing :: rest := by
  cases h with
  | close white => exact ⟨_, .last (item _ white), by simp⟩
  | row leads row =>
    cases leads with
    | later white => exact ⟨_, .cons (item _ white) row, by simp⟩

theorem Closed.exists_enclosed {α : Type} {Item : α → List Char → Prop} {opening closing : Char}
    {as : List α} (front : White before) (h : Closed Item closing rest true as cs) :
    ∃ text, Enclosed Item opening closing as text ∧ before ++ opening :: cs = text ++ rest := by
  cases h with
  | close white => exact ⟨_, .empty front white, by simp⟩
  | row leads row =>
    cases leads with
    | first => exact ⟨_, .mk front row, by simp⟩

theorem exists_end_of_nextKey (h : nextKey first cs = .ok (none, rest)) :
    ∃ inside, White inside ∧ cs = inside ++ '}' :: rest := by
  obtain ⟨inside, white, split⟩ := exists_append_skipWhite cs
  refine ⟨inside, white, ?_⟩
  have noKey {ds : List Char} : mapValue some (stringBody ds) ≠ .ok (none, rest) := by
    rw [Ne, mapValue_eq_ok_iff]
    rintro ⟨key, -, none⟩
    cases none
  unfold nextKey at h
  dsimp only at h
  split at h
  · cases h
  · next start =>
    cases h
    rw [← start]
    exact split
  · split at h
    · exact absurd h noKey
    · cases h
  · split at h
    · cases h
    split at h
    · cases h
    · exact absurd h noKey
    · cases h
  · cases h

theorem exists_key_of_nextKey {text : List Char} (h : nextKey first cs = .ok (some text, rest)) :
    ∃ front before body, Leads first front ∧ White before ∧ SpellsText body text ∧
      cs = front ++ (before ++ '"' :: (body ++ '"' :: rest)) := by
  have spelled {ds : List Char} (read : mapValue some (stringBody ds) = .ok (some text, rest)) :
      ∃ body, SpellsText body text ∧ ds = body ++ '"' :: rest := by
    obtain ⟨text', read, same⟩ := mapValue_eq_ok_iff.1 read
    cases same
    exact stringBody_eq_ok_iff.1 read
  obtain ⟨before, white, split⟩ := exists_append_skipWhite cs
  unfold nextKey at h
  dsimp only at h
  split at h
  · cases h
  · cases h
  · next start =>
    split at h
    · next isFirst =>
      obtain ⟨body, spells, rfl⟩ := spelled h
      rw [isFirst]
      exact ⟨[], before, body, .first, white, spells, by rw [List.nil_append, ← start]; exact split⟩
    · cases h
  · next more comma =>
    split at h
    · cases h
    next notFirst =>
    rw [Bool.not_eq_true] at notFirst
    split at h
    · cases h
    · next start =>
      obtain ⟨body, spells, rfl⟩ := spelled h
      obtain ⟨between, back, inner⟩ := exists_append_skipWhite more
      rw [start] at inner
      rw [comma, inner] at split
      rw [notFirst]
      exact ⟨_, between, body, .later white, back, spells, by simp [split]⟩
    · cases h
  · cases h

theorem exists_colon_of_afterColon (h : afterColon cs = .ok rest) :
    ∃ inside, White inside ∧ cs = inside ++ ':' :: rest := by
  obtain ⟨inside, white, split⟩ := exists_append_skipWhite cs
  unfold afterColon at h
  split at h
  · cases h
  · next start =>
    cases h
    exact ⟨inside, white, start ▸ split⟩
  · cases h

theorem exists_isValue_of_readEntry (h : readEntry entry base cs = .ok (r, rest)) :
    ∃ before value, White before ∧ IsValue value ∧ cs = before ++ (value ++ rest) := by
  obtain ⟨before, value, white, gives, -, split, -⟩ := exists_gives_of_readEntry h
  exact ⟨before, value, white, gives.isValue, split⟩

theorem exists_isValue_of_readMember {seen' : List Entry}
    (h : readMember seen base name cs = .ok ((seen', r), rest)) :
    ∃ inside before value, White inside ∧ White before ∧ IsValue value ∧
      cs = inside ++ ':' :: (before ++ (value ++ rest)) := by
  unfold readMember at h
  split at h
  · split at h
    · cases h
    next colon =>
    obtain ⟨inside, white, rfl⟩ := exists_colon_of_afterColon colon
    next ds =>
    cases skipped : skipValue ds with
    | error fault => simp [skipped, Except.map] at h
    | ok more =>
      simp only [skipped, Except.map, Except.ok.injEq, Prod.mk.injEq] at h
      obtain ⟨before, value, front, form, rfl⟩ := exists_isValue_of_skipValue skipped
      exact ⟨inside, before, value, white, front, form, by rw [h.2]⟩
  · split at h
    · cases h
    split at h
    · cases h
    next colon =>
    obtain ⟨inside, white, rfl⟩ := exists_colon_of_afterColon colon
    split at h
    · cases h
    next read =>
    cases h
    obtain ⟨before, value, front, form, rfl⟩ := exists_isValue_of_readEntry read
    exact ⟨inside, before, value, white, front, form, rfl⟩

theorem exists_closed_of_readMembers (first : Bool) (seen : List Entry) (base : Record)
    (cs : List Char) : ∀ {r rest}, readMembers first seen base cs = .ok (r, rest) →
      ∃ members, Closed IsMember '}' rest first members cs := by
  fun_induction readMembers first seen base cs with
  | case1 | case3 =>
    intro r rest h
    cases h
  | case2 first _ r cs rest next =>
    intro r' rest' h
    cases h
    obtain ⟨inside, white, rfl⟩ := exists_end_of_nextKey next
    exact ⟨[], .close white⟩
  | case4 first _ _ cs text ds next _ _ behind read _ _ ih =>
    intro r rest h
    obtain ⟨members, more⟩ := ih h
    obtain ⟨front, before, body, leads, white, spells, rfl⟩ := exists_key_of_nextKey next
    obtain ⟨inside, between, value, back, gap, form, rfl⟩ := exists_isValue_of_readMember read
    have key : IsStringOf (String.ofList text).toList
        (before ++ '"' :: (body ++ '"' :: inside)) := by
      rw [String.toList_ofList]
      exact .mk white spells back
    have member (after : List Char) (shown : White after) :
        IsMember (String.ofList text, value)
          (before ++ '"' :: (body ++ '"' :: inside) ++ ':' :: (between ++ value) ++ after) := by
      have element := IsElement.mk gap form shown
      simpa only [List.append_assoc, List.cons_append] using IsMember.mk key element
    obtain ⟨row, isRow, split⟩ := more.exists_row member
    have shape :
        before ++ '"' :: (body ++ '"' :: (inside ++ ':' :: (between ++ (value ++ behind)))) =
          row ++ '}' :: rest := by simpa only [List.append_assoc, List.cons_append] using split
    rw [shape]
    exact ⟨(String.ofList text, value) :: members, .row leads isRow⟩

theorem exists_front_of_nextElement (h : nextElement first cs = .ok (true, rest)) :
    ∃ front before, Leads first front ∧ White before ∧ cs = front ++ (before ++ rest) := by
  obtain ⟨before, white, split⟩ := exists_append_skipWhite cs
  unfold nextElement at h
  split at h
  · cases h
  · cases h
  · next more comma =>
    split at h
    · next isFirst =>
      cases h
      rw [isFirst]
      exact ⟨[], before, .first, white, comma ▸ split⟩
    next notFirst =>
    rw [Bool.not_eq_true] at notFirst
    split at h
    · cases h
    · cases h
    · cases h
      obtain ⟨between, back, inner⟩ := exists_append_skipWhite more
      rw [comma, inner] at split
      rw [notFirst]
      exact ⟨_, between, .later white, back, by simp [split]⟩
  · split at h
    · next isFirst =>
      cases h
      rw [isFirst]
      exact ⟨[], before, .first, white, split⟩
    · cases h

theorem exists_end_of_nextElement (h : nextElement first cs = .ok (false, rest)) :
    ∃ inside, White inside ∧ cs = inside ++ ']' :: rest := by
  obtain ⟨inside, white, split⟩ := exists_append_skipWhite cs
  refine ⟨inside, white, ?_⟩
  unfold nextElement at h
  split at h
  · cases h
  · next start =>
    cases h
    rw [← start]
    exact split
  · split at h
    · cases h
    split at h <;> cases h
  · split at h <;> cases h

theorem exists_closed_of_readElements
    (h : readElements first position base entries cs = .ok (r, rest)) :
    ∃ values, values.length ≤ entries.length ∧ Closed IsElement ']' rest first values cs := by
  induction entries generalizing first position base cs with
  | nil =>
    obtain ⟨inside, white, split⟩ := exists_append_skipWhite cs
    unfold readElements at h
    split at h
    · cases h
    · next start =>
      cases h
      rw [split, start]
      exact ⟨[], Nat.le_refl 0, .close white⟩
    · cases h
  | cons entry entries ih =>
    unfold readElements at h
    split at h
    · cases h
    · next close =>
      cases h
      obtain ⟨inside, white, rfl⟩ := exists_end_of_nextElement close
      exact ⟨[], Nat.zero_le _, .close white⟩
    · next next =>
      split at h
      · cases h
      next read =>
      obtain ⟨front, before, leads, white, rfl⟩ := exists_front_of_nextElement next
      obtain ⟨values, short, more⟩ := ih h
      obtain ⟨between, value, gap, form, rfl⟩ := exists_isValue_of_readEntry read
      have element (after : List Char) (shown : White after) :
          IsElement value (before ++ (between ++ value) ++ after) := by
        have lead : White (before ++ between) := by
          simpa only [White, List.mem_append, or_imp, forall_and] using ⟨white, gap⟩
        simpa only [List.append_assoc] using IsElement.mk lead form shown
      obtain ⟨row, isRow, split⟩ := more.exists_row element
      simp only [List.append_assoc] at split
      rw [split]
      exact ⟨value :: values, Nat.succ_le_succ short, .row leads isRow⟩

end PathPattern.Json
