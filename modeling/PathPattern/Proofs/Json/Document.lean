import PathPattern.Proofs.Json.Skipping
import PathPattern.Proofs.Json.TimeText

/-!
# Objects and arrays by their parts

An object is a row of members, each a name and the text of its value, and an array is a row of such
texts (`IsObject`, `IsArray`). White space and the spelling of a key are no parts of either. A text
starts with at most one object or array, and it has its parts in one way only (`Enclosed.unique`).
-/

namespace PathPattern.Json

variable {α : Type} {Item : α → List Char → Prop} {as as' : List α} {c c' opening closing : Char}
  {before before' value value' rest rest' key key' cs cs' tail tail' text text' : List Char}
  {members members' : List (String × List Char)} {values values' : List (List Char)}

/-! ### Rows -/

/-- Items with commas between them, at least one. -/
inductive Row (Item : α → List Char → Prop) : List α → List Char → Prop where
  | last {a : α} {cs : List Char} (item : Item a cs) : Row Item [a] cs
  | cons {a : α} {cs ds : List Char} {as : List α} (item : Item a cs) (more : Row Item as ds) :
    Row Item (a :: as) (cs ++ ',' :: ds)

/-- A row of items between brackets, or nothing but white space between them, and white space before
the opening one. -/
inductive Enclosed (Item : α → List Char → Prop) (opening closing : Char) :
    List α → List Char → Prop where
  | empty {before inside : List Char} (front : White before) (white : White inside) :
    Enclosed Item opening closing [] (before ++ opening :: (inside ++ [closing]))
  | mk {before cs : List Char} {as : List α} (front : White before) (row : Row Item as cs) :
    Enclosed Item opening closing as (before ++ opening :: (cs ++ [closing]))

/-- A value with white space around it. -/
inductive IsElement (value : List Char) : List Char → Prop where
  | mk {before after : List Char} (front : White before) (form : IsValue value)
    (back : White after) : IsElement value (before ++ (value ++ after))

/-- A member of an object: a string of its name, and a value behind a colon. -/
inductive IsMember : String × List Char → List Char → Prop where
  | mk {name : String} {key value cs : List Char} (named : IsStringOf name.toList key)
    (element : IsElement value cs) : IsMember (name, value) (key ++ ':' :: cs)

/-- An object with these members in order. -/
abbrev IsObject : List (String × List Char) → List Char → Prop := Enclosed IsMember '{' '}'

/-- An array of these values in order. -/
abbrev IsArray : List (List Char) → List Char → Prop := Enclosed IsElement '[' ']'

/-! ### Parts that are read in one way -/

theorem skipWhite_append_cons (white : White before) (shown : isWhite c = false) (cs : List Char) :
    skipWhite (before ++ c :: cs) = c :: cs := by
  rw [skipWhite_append white, skipWhite_cons shown]

/-- White space ends in one place. -/
theorem cons_eq_of_append_eq (white : White before) (white' : White before')
    (shown : isWhite c = false) (shown' : isWhite c' = false)
    (same : before ++ c :: cs = before' ++ c' :: cs') : c = c' ∧ cs = cs' := by
  have skipped := congrArg skipWhite same
  rw [skipWhite_append_cons white shown, skipWhite_append_cons white' shown'] at skipped
  exact List.cons.inj skipped

/-- What ends an item: no white space, and nothing that a number goes on with. -/
structure EndsItem (c : Char) : Prop where
  shown : isWhite c = false
  endsNumber : ∀ rest, EndsNumber (c :: rest)

theorem endsItem_of_mem (mem : c ∈ [',', ']', '}']) : EndsItem c := by
  simp only [List.mem_cons, List.not_mem_nil, or_false] at mem
  rcases mem with rfl | rfl | rfl <;> exact ⟨by decide, fun rest => by simp [EndsNumber]⟩

/-- Items that start like values, and that a text starts with in one way. -/
structure OneWay (Item : α → List Char → Prop) : Prop where
  start : ∀ {a cs}, Item a cs → ∃ before c rest, cs = before ++ c :: rest ∧ White before ∧
    StartsValue c
  unique : ∀ {a a' cs cs' c c' rest rest'}, Item a cs → Item a' cs' → EndsItem c → EndsItem c' →
    cs ++ c :: rest = cs' ++ c' :: rest' → a = a' ∧ c = c' ∧ rest = rest'

/-- A text starts with one value at most. -/
theorem value_unique (form : IsValue value) (form' : IsValue value') (front : White before)
    (front' : White before') (ends : EndsNumber rest) (ends' : EndsNumber rest')
    (same : before ++ (value ++ rest) = before' ++ (value' ++ rest')) :
    value = value' ∧ rest = rest' := by
  have skipped := skipValue_append form front ends
  rw [same, skipValue_append form' front' ends', Except.ok.injEq] at skipped
  subst skipped
  rw [← List.append_assoc, ← List.append_assoc] at same
  have shape := List.append_cancel_right same
  obtain ⟨c, cs, rfl, start⟩ := form.exists_start
  obtain ⟨c', cs', rfl, start'⟩ := form'.exists_start
  obtain ⟨rfl, rfl⟩ := cons_eq_of_append_eq front front' start.shown start'.shown shape
  exact ⟨rfl, rfl⟩

theorem oneWay_isElement : OneWay IsElement where
  start element := by
    cases element with
    | mk front form =>
      obtain ⟨c, rest, rfl, start⟩ := form.exists_start
      exact ⟨_, c, _, rfl, front, start⟩
  unique element element' ends ends' same := by
    cases element with
    | mk front form back =>
      cases element' with
      | mk front' form' back' =>
        rw [List.append_assoc, List.append_assoc, List.append_assoc, List.append_assoc] at same
        have stop (rest : List Char) := endsNumber_append back (ends.endsNumber rest)
        have stop' (rest : List Char) := endsNumber_append back' (ends'.endsNumber rest)
        obtain ⟨sameValue, more⟩ := value_unique form form' front front' (stop _) (stop' _) same
        exact ⟨sameValue, cons_eq_of_append_eq back back' ends.shown ends'.shown more⟩

/-- A key is read in one way, up to its colon. -/
theorem key_unique (named : IsStringOf text key) (named' : IsStringOf text' key')
    (same : key ++ ':' :: rest = key' ++ ':' :: rest') : text = text' ∧ rest = rest' := by
  obtain ⟨after, back, read, -⟩ := nextKey_of_isStringOf named
  obtain ⟨after', back', read', -⟩ := nextKey_of_isStringOf named'
  have found := read (':' :: rest)
  rw [same, read', Except.ok.injEq, Prod.mk.injEq, Option.some.injEq] at found
  exact ⟨found.1.symm, (cons_eq_of_append_eq back' back (by decide) (by decide) found.2).2.symm⟩

theorem IsStringOf.exists_start (h : IsStringOf text key) :
    ∃ before rest, key = before ++ '"' :: rest ∧ White before := by
  cases h with
  | mk front => exact ⟨_, _, rfl, front⟩

theorem startsValue_quote : StartsValue '"' := startsValue_of_mem (by simp)

theorem oneWay_isMember : OneWay IsMember where
  start member := by
    cases member with
    | mk named =>
      obtain ⟨before, rest, rfl, white⟩ := named.exists_start
      exact ⟨before, '"', _, List.append_assoc _ _ _, white, startsValue_quote⟩
  unique member member' ends ends' same := by
    cases member with
    | mk named element =>
      cases member' with
      | mk named' element' =>
        rw [List.append_assoc, List.append_assoc] at same
        obtain ⟨sameName, more⟩ := key_unique named named' same
        obtain ⟨sameValue, sameEnd⟩ := oneWay_isElement.unique element element' ends ends' more
        exact ⟨Prod.ext (String.toList_injective sameName) sameValue, sameEnd⟩

/-! ### Rows that are read in one way -/

theorem Row.unique (oneWay : OneWay Item) (close : EndsItem closing) (noComma : closing ≠ ',')
    (h : Row Item as cs) : ∀ {as' cs'}, Row Item as' cs' →
      cs ++ closing :: rest = cs' ++ closing :: rest' → as = as' ∧ rest = rest' := by
  have comma : EndsItem ',' := endsItem_of_mem (by simp)
  induction h with
  | last item =>
    rintro as' cs' (item' | ⟨item', more'⟩) same
    · obtain ⟨rfl, -, rfl⟩ := oneWay.unique item item' close close same
      exact ⟨rfl, rfl⟩
    · rw [List.append_assoc] at same
      exact absurd (oneWay.unique item item' close comma same).2.1 noComma
  | cons item more ih =>
    rintro as' cs' (item' | ⟨item', more'⟩) same
    · rw [List.append_assoc] at same
      exact absurd (oneWay.unique item item' comma close same).2.1.symm noComma
    · rw [List.append_assoc, List.append_assoc] at same
      obtain ⟨rfl, -, later⟩ := oneWay.unique item item' comma comma same
      obtain ⟨rfl, rfl⟩ := ih more' later
      exact ⟨rfl, rfl⟩

theorem Row.exists_start (oneWay : OneWay Item) (h : Row Item as cs) :
    ∃ before c rest, cs = before ++ c :: rest ∧ White before ∧ StartsValue c := by
  cases h with
  | last item => exact oneWay.start item
  | cons item =>
    obtain ⟨before, c, rest, rfl, white, start⟩ := oneWay.start item
    exact ⟨before, c, _, List.append_assoc _ _ _, white, start⟩

/-- What a bracket opens is read in one way, up to the bracket that closes it. -/
theorem Enclosed.unique (oneWay : OneWay Item) (close : EndsItem closing) (noComma : closing ≠ ',')
    (noStart : ¬StartsValue closing) (shown : isWhite opening = false)
    (h : Enclosed Item opening closing as text) (h' : Enclosed Item opening closing as' text')
    (same : text ++ tail = text' ++ tail') : as = as' ∧ tail = tail' := by
  -- Where a row starts, the bracket is not closed.
  have apart {inside cs : List Char} {as : List α} {tail tail' : List Char} (white : White inside)
      (row : Row Item as cs) : inside ++ closing :: tail ≠ cs ++ closing :: tail' := by
    intro same
    obtain ⟨before, c, rest, rfl, front, start⟩ := row.exists_start oneWay
    rw [List.append_assoc] at same
    exact noStart ((cons_eq_of_append_eq white front close.shown start.shown same).1 ▸ start)
  cases h with
  | empty front white =>
    cases h' with
    | empty front' white' =>
      simp only [List.append_assoc, List.cons_append, List.nil_append] at same
      have inside := (cons_eq_of_append_eq front front' shown shown same).2
      exact ⟨rfl, (cons_eq_of_append_eq white white' close.shown close.shown inside).2⟩
    | mk front' row' =>
      simp only [List.append_assoc, List.cons_append, List.nil_append] at same
      exact absurd (cons_eq_of_append_eq front front' shown shown same).2 (apart white row')
  | mk front row =>
    cases h' with
    | empty front' white' =>
      simp only [List.append_assoc, List.cons_append, List.nil_append] at same
      exact absurd (cons_eq_of_append_eq front front' shown shown same).2.symm (apart white' row)
    | mk front' row' =>
      simp only [List.append_assoc, List.cons_append, List.nil_append] at same
      have inside := (cons_eq_of_append_eq front front' shown shown same).2
      exact row.unique oneWay close noComma row' inside

theorem IsObject.unique (h : IsObject members text) (h' : IsObject members' text')
    (same : text ++ tail = text' ++ tail') : members = members' ∧ tail = tail' :=
  Enclosed.unique oneWay_isMember (endsItem_of_mem (by simp)) (by decide)
    (fun start => start.notMapEnd rfl) (by decide) h h' same

end PathPattern.Json
