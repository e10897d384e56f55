import PathPattern.Proofs.Json.TimeText
import PathPattern.Yaml.Record

/-!
# The time of a record in YAML

Once a document is cut into tokens, a member with a scalar as its value is four of them, in a block
mapping as in a map in brackets, and the reader takes the scalar over and goes on behind it
(`readBlock_memberTokens`, `readFlow_flowTokens`). A scalar that names an instant is taken over as
the time, plain or quoted (`takeScalar_time`). So two documents that are cut into the same tokens but
for a scalar of the same instant decode alike (`decodeRecord_of_differInTime`).
-/

namespace PathPattern.Yaml

open Json (Entry timeNames)

variable {text text' key : List Char} {name doc doc' : String} {keyPlain plain first : Bool}
  {front rest : List Token} {p p' : Progress} {t : Instant} {bound steps : Nat} {position : Position}
  {marks : List Token}

/-! ### Members -/

/-- The tokens of a member with a scalar as its value. -/
def memberTokens (keyPlain : Bool) (key : List Char) (plain : Bool) (text : List Char) : List Token :=
  [.key, .scalar keyPlain key, .value, .scalar plain text]

theorem length_memberTokens (keyPlain : Bool) (key : List Char) (plain : Bool) (text : List Char) :
    (memberTokens keyPlain key plain text).length = 4 := rfl

/-- What has been read, with a member of a scalar value. -/
def Progress.takeScalar (p : Progress) (keyPlain : Bool) (key : List Char) (plain : Bool)
    (text : List Char) : Except Fault Progress := do
  let name ← p.admits (some (.scalar keyPlain key))
  p.set name (.scalar plain text)

theorem part_scalar (noMark : Token.scalar plain text ∉ marks) (rest : List Token) :
    part bound position marks (.scalar plain text :: rest) =
      (some (.scalar plain text), some rest) := by
  have other : ¬(List.head? (.scalar plain text :: rest)).any (marks.contains ·) = true := by
    simpa using noMark
  rw [part, if_neg other, skip, skipNode]
  rfl

theorem member_scalar {tokens : List Token} {value : List Token → Part}
    (behind : value tokens = (some (.scalar plain text), some rest)) :
    p.member (some (.scalar keyPlain key), some tokens) value =
      (p.takeScalar keyPlain key plain text).map (·, rest) := by
  unfold Progress.member Progress.takeScalar
  cases p.admits (some (.scalar keyPlain key)) with
  | error fault => rfl
  | ok name =>
    simp only [bind, Except.bind, behind]
    cases p.set name (.scalar plain text) <;> rfl

/-- In a block mapping, the member is taken over and reading goes on behind it. -/
theorem readBlock_memberTokens (steps : Nat) (p : Progress) (rest : List Token) :
    readBlock (steps + 1) p (memberTokens keyPlain key plain text ++ rest) = (do
      let p ← p.takeScalar keyPlain key plain text
      readBlock steps p rest) := by
  have named : part steps .mappingValue [.key, .value, .blockEnd]
      (.scalar keyPlain key :: .value :: .scalar plain text :: rest) =
        (some (.scalar keyPlain key), some (.value :: .scalar plain text :: rest)) :=
    part_scalar (by simp) _
  have value : valuePart steps .mappingValue [.key, .value, .blockEnd]
      (.value :: .scalar plain text :: rest) = (some (.scalar plain text), some rest) :=
    part_scalar (by simp) rest
  simp only [memberTokens, List.cons_append, List.nil_append, readBlock, named, member_scalar value]
  cases p.takeScalar keyPlain key plain text <;> rfl

/-- The tokens of a member of a map in brackets: a comma stands before it unless it is the first. -/
def flowTokens (first keyPlain : Bool) (key : List Char) (plain : Bool) (text : List Char) :
    List Token :=
  (if first then [] else [.comma]) ++ memberTokens keyPlain key plain text

/-- So it is in a map in brackets. -/
theorem readFlow_flowTokens (steps : Nat) (p : Progress) (first : Bool) (rest : List Token) :
    readFlow (steps + 1) first p (flowTokens first keyPlain key plain text ++ rest) = (do
      let p ← p.takeScalar keyPlain key plain text
      readFlow steps false p rest) := by
  have named : part steps .flow [.value, .comma, .closeMap]
      (.scalar keyPlain key :: .value :: .scalar plain text :: rest) =
        (some (.scalar keyPlain key), some (.value :: .scalar plain text :: rest)) :=
    part_scalar (by simp) _
  have value : valuePart steps .flow [.comma, .closeMap]
      (.value :: .scalar plain text :: rest) = (some (.scalar plain text), some rest) :=
    part_scalar (by simp) rest
  cases first
  all_goals
    simp only [flowTokens, memberTokens, List.cons_append, List.nil_append, readFlow, named,
      Bool.false_eq_true, if_false, if_true, member_scalar value]
    cases p.takeScalar keyPlain key plain text <;> rfl

/-! ### The time -/

/-- What has been read, and the time with it. -/
def Progress.withTime (p : Progress) (t : Instant) : Progress :=
  ⟨{ p.record with acquired := t }, .acquired :: p.seen⟩

/-- A scalar that names an instant is taken over as the time, unless there was one before. -/
theorem takeScalar_time (named : name ∈ timeNames) (names : Rfc3339.read text = .ok t) (p : Progress)
    (keyPlain plain : Bool) :
    p.takeScalar keyPlain name.toList plain text =
      if .acquired ∈ p.seen then .error atRoot else .ok (p.withTime t) := by
  have entry := Json.ofKey?_of_mem_timeNames named
  have value : setScalar? p.record .acquired plain text = some { p.record with acquired := t } := by
    simp only [setScalar?, names, Except.toOption, Option.map_some]
  have admitted : p.admits (some (.scalar keyPlain name.toList)) =
      if .acquired ∈ p.seen then .error atRoot else .ok name.toList := by
    simp only [Progress.admits, String.ofList_toList, entry]
  have set : p.set name.toList (.scalar plain text) = .ok (p.withTime t) := by
    unfold Progress.set
    simp only [String.ofList_toList]
    rw [entry]
    simp only [value]
    rfl
  rw [Progress.takeScalar, admitted]
  split
  · rfl
  · exact set

/-! ### Documents -/

/-- Behind these tokens of a document, the reader stands before a member of a block mapping, with these
members read; its steps are some more than the tokens. -/
def OpensBlock (front : List Token) (p : Progress) : Prop :=
  ∃ k, ∀ rest, readDocument (front ++ rest) = readBlock (rest.length + k) p rest

/-- Behind these tokens of a document, the reader stands before a member of a map in brackets, the first
or a later one. -/
def OpensFlow (front : List Token) (first : Bool) (p : Progress) : Prop :=
  ∃ k, ∀ rest, readDocument (front ++ rest) = readFlow (rest.length + k) first p rest

/-- Behind the start of a block mapping no entry is given. -/
theorem opensBlock_mappingStart : OpensBlock [.mappingStart] ⟨.blank, []⟩ := ⟨2, fun _ => rfl⟩

/-- Behind the opening bracket of a map no entry is given. -/
theorem opensFlow_openMap : OpensFlow [.openMap] true ⟨.blank, []⟩ := ⟨2, fun _ => rfl⟩

theorem OpensBlock.exists_readDocument (opens : OpensBlock front p) :
    ∃ k, ∀ keyPlain key plain text rest,
      readDocument (front ++ (memberTokens keyPlain key plain text ++ rest)) = (do
        let p ← p.takeScalar keyPlain key plain text
        readBlock (rest.length + k) p rest) := by
  obtain ⟨k, opens⟩ := opens
  refine ⟨k + 3, fun keyPlain key plain text rest => ?_⟩
  have size : (memberTokens keyPlain key plain text ++ rest).length + k = rest.length + (k + 3) + 1 := by
    rw [List.length_append, length_memberTokens]
    omega
  rw [opens, size, readBlock_memberTokens]

theorem OpensFlow.exists_readDocument (opens : OpensFlow front first p) :
    ∃ k, ∀ keyPlain key plain text rest,
      readDocument (front ++ (flowTokens first keyPlain key plain text ++ rest)) = (do
        let p ← p.takeScalar keyPlain key plain text
        readFlow (rest.length + k) false p rest) := by
  obtain ⟨k, opens⟩ := opens
  refine ⟨k + 3 + (if first then 0 else 1), fun keyPlain key plain text rest => ?_⟩
  have size : (flowTokens first keyPlain key plain text ++ rest).length + k =
      rest.length + (k + 3 + (if first then 0 else 1)) + 1 := by
    rw [flowTokens, List.length_append, List.length_append, length_memberTokens]
    cases first <;> simp <;> omega
  rw [opens, size, readFlow_flowTokens]

/-- Behind a member, it is taken over. -/
theorem OpensBlock.append_member (opens : OpensBlock front p)
    (admitted : p.takeScalar keyPlain key plain text = .ok p') :
    OpensBlock (front ++ memberTokens keyPlain key plain text) p' := by
  obtain ⟨k, read⟩ := opens.exists_readDocument
  refine ⟨k, fun rest => ?_⟩
  rw [List.append_assoc, read, admitted]
  rfl

theorem OpensFlow.append_member (opens : OpensFlow front first p)
    (admitted : p.takeScalar keyPlain key plain text = .ok p') :
    OpensFlow (front ++ flowTokens first keyPlain key plain text) false p' := by
  obtain ⟨k, read⟩ := opens.exists_readDocument
  refine ⟨k, fun rest => ?_⟩
  rw [List.append_assoc, read, admitted]
  rfl

/-- The documents are cut into the same tokens but for the scalar of the time. -/
inductive DifferInTime (text text' : List Char) (doc doc' : String) : Prop where
  | block {front rest : List Token} {p : Progress} {name name' : String}
    {keyPlain keyPlain' plain plain' : Bool} (opens : OpensBlock front p)
    (named : name ∈ timeNames) (named' : name' ∈ timeNames)
    (here : tokens doc = front ++ (memberTokens keyPlain name.toList plain text ++ rest))
    (there : tokens doc' = front ++ (memberTokens keyPlain' name'.toList plain' text' ++ rest))
  | flow {front rest : List Token} {first : Bool} {p : Progress} {name name' : String}
    {keyPlain keyPlain' plain plain' : Bool} (opens : OpensFlow front first p)
    (named : name ∈ timeNames) (named' : name' ∈ timeNames)
    (here : tokens doc = front ++ (flowTokens first keyPlain name.toList plain text ++ rest))
    (there : tokens doc' = front ++ (flowTokens first keyPlain' name'.toList plain' text' ++ rest))

/-- Documents that differ in a text of the same instant alone decode alike. -/
theorem decodeRecord_of_differInTime (names : Rfc3339.read text = .ok t)
    (names' : Rfc3339.read text' = .ok t) (h : DifferInTime text text' doc doc') :
    decodeRecord doc = decodeRecord doc' := by
  have same : readDocument (tokens doc) = readDocument (tokens doc') := by
    cases h with
    | block opens named named' here there =>
      obtain ⟨k, read⟩ := opens.exists_readDocument
      rw [here, there, read, read, takeScalar_time named names, takeScalar_time named' names']
    | flow opens named named' here there =>
      obtain ⟨k, read⟩ := opens.exists_readDocument
      rw [here, there, read, read, takeScalar_time named names, takeScalar_time named' names']
  rw [decodeRecord, decodeRecord, same]

end PathPattern.Yaml
