import PathPattern.Proofs.Yaml.Cutting
import PathPattern.Proofs.Yaml.TimeText

/-!
# Flat documents

A flat document tells members on lines of their own, or in brackets with commas between them, and a
member is a name, a colon and a value, both scalars on one line (`Member`). The scanner cuts it into the
tokens of its members, whatever the scalars are (`tokens_blockText`, `tokens_flowText`): it takes three
steps for a member.
-/

namespace PathPattern.Yaml

open Scanner

variable {c c' : Cursor} {d : Char} {rest : List Char} {level : Level} {allowed : Bool}
  {front out : List Token} {candidate : Option Candidate}

/-- A member of a flat document. -/
structure Member where
  name : Scalar
  value : Scalar
  /-- Its line is no document mark. -/
  starts : ∀ d ∈ name.spelled.head?, d ≠ '-' ∧ d ≠ '.'
  /-- No colon is looked for farther away. -/
  short : Text.byteCount name.spelled ≤ 1024

theorem starts_of_all {cs : List Char} (all : cs.head?.all (fun d => d != '-' && d != '.') = true) :
    ∀ d ∈ cs.head?, d ≠ '-' ∧ d ≠ '.' := by
  cases cs with
  | nil => simp
  | cons e cs => simpa using all

/-- How a member is spelled. -/
def Member.spelled (m : Member) : List Char := m.name.spelled ++ ':' :: ' ' :: m.value.spelled

/-- The tokens of a member. -/
def Member.tokens (m : Member) : List Token :=
  memberTokens m.name.plain m.name.text m.value.plain m.value.text

/-- The end of the last line, which may be missing. -/
def lastLine (ends : Bool) : List Char := if ends then ['\n'] else []

/-- Members on lines behind the first one. -/
def laterLines (ms : List Member) (ends : Bool) : List Char :=
  ms.flatMap (fun m => '\n' :: m.spelled) ++ lastLine ends

/-- Members in brackets behind the first one. -/
def laterEntries (ms : List Member) (ends : Bool) : List Char :=
  ms.flatMap (fun m => ',' :: ' ' :: m.spelled) ++ '}' :: lastLine ends

/-- A document with members on lines of their own. -/
def blockText (m : Member) (ms : List Member) (ends : Bool) : List Char :=
  m.spelled ++ laterLines ms ends

/-- A document with members in brackets. -/
def flowText (m : Member) (ms : List Member) (ends : Bool) : List Char :=
  '{' :: (m.spelled ++ laterEntries ms ends)

/-! ### Sound places -/

/-- No unreadable part follows, and loops have steps enough. -/
structure Cursor.IsSound (c : Cursor) : Prop where
  whole : c.broken = false
  limit : c.rest.length < c.limit

theorem Cursor.IsSound.skip (sound : c.IsSound) (n : Nat) : (c.skip n).IsSound := by
  refine ⟨sound.whole, lt_of_le_of_lt ?_ sound.limit⟩
  simp [Cursor.skip]

theorem Cursor.IsSound.nextLine (sound : c.IsSound) (behind : c.rest = '\n' :: rest) :
    c.nextLine.IsSound := by
  have next := sound.skip 1
  rw [Cursor.nextLine_of_lineFeed behind]
  exact ⟨next.whole, next.limit⟩

theorem Cursor.rest_nextLine (behind : c.rest = '\n' :: rest) : c.nextLine.rest = rest := by
  rw [Cursor.nextLine_of_lineFeed behind]
  simp [Cursor.skip, behind]

/-! ### Members -/

theorem Scalar.stopsBlank (scalar : Scalar) (rest : List Char) :
    StopsBlank (scalar.spelled ++ rest) := by
  obtain ⟨plain, text, spelled, spells⟩ := scalar
  cases spells with
  | plain word => exact .of_word word
  | @quoted single cs _ spelled => exact stopsBlank_cons (by cases single <;> decide) _

theorem Scalar.spelled_ne_nil (scalar : Scalar) : scalar.spelled ≠ [] := by
  obtain ⟨plain, text, spelled, spells⟩ := scalar
  cases spells with
  | plain word =>
    obtain ⟨d, cs, rfl, -⟩ := word.starts
    exact List.cons_ne_nil d cs
  | quoted => exact List.cons_ne_nil _ _

theorem Member.noMark (m : Member) (behind : c.rest = m.name.spelled ++ rest) :
    c.anyDocumentMark = false := by
  obtain ⟨d, cs, split⟩ := List.exists_cons_of_ne_nil m.name.spelled_ne_nil
  obtain ⟨dash, dot⟩ := m.starts d (by rw [split]; rfl)
  rw [split, List.cons_append] at behind
  rw [Cursor.anyDocumentMark, documentMark_of_head behind _ dash, documentMark_of_head behind _ dot]
  rfl

/-- The name of a member and its colon take two steps. -/
theorem Member.reads_name (m : Member) (behind : c.rest = m.name.spelled ++ ':' :: ' ' :: rest)
    (sound : c.IsSound) (top : level ≠ .brackets → c.column = 0)
    (read : Reads level.opened false none
      (front ++ level.opening ++ [.key, .scalar m.name.plain m.name.text, .value])
      ((c.skip m.name.spelled.length).skip 1) out) :
    Reads level true none front c out := by
  let key : Candidate := ⟨front.length, decide (level = .block ∧ c.column = 0), c.line, c.column, c.index⟩
  have there : (c.skip m.name.spelled.length).rest = ':' :: ' ' :: rest := Cursor.rest_skip behind
  have near : IsNear (some key) (c.skip m.name.spelled.length) := by
    intro key' mem
    obtain rfl := Option.some.inj mem
    refine ⟨rfl, ?_⟩
    have index : (c.skip m.name.spelled.length).index =
        c.index + Text.byteCount m.name.spelled := by simp [Cursor.skip, behind]
    have short := m.short
    have from' : key.index = c.index := rfl
    omega
  have colon : Reads level false (some key) (front ++ [.scalar m.name.plain m.name.text])
      (c.skip m.name.spelled.length) out := by
    refine read.of_token (sound.skip _).whole (there ▸ stopsBlank_cons (by decide) _) near isNear_none
      (fun outside => ?_) (by simp) (by simp [Cursor.skip, behind])
    exact (token_eq_value there).trans (value_placed rfl top)
  refine colon.of_token sound.whole (behind ▸ m.name.stopsBlank _) isNear_none near (fun outside => ?_)
    (by simp) ?_
  · exact token_scalar m.name behind (.colon rest) sound.whole (m.noMark behind) sound.limit
      (fun _ => by simp [isSpace, isBreak]) (markCandidate_placed_of_free isFree_none)
  · have filled := List.length_pos_iff.2 m.name.spelled_ne_nil
    simp only [there, behind, List.length_append]
    omega

/-- The value of a member takes a step, up to what stops it. -/
theorem Member.reads_value (m : Member) (behind : c.rest = ' ' :: (m.value.spelled ++ rest))
    (sound : c.IsSound) (ends : EndsWord (decide (level = .brackets)) rest)
    (stop : m.value.plain = true → ∀ d ∈ rest.head?, (isSpace d || isBreak d) = false)
    (read : Reads level false none (front ++ [.scalar m.value.plain m.value.text])
      (c.skip (1 + m.value.spelled.length)) out) :
    Reads level false none front c out := by
  have there : (c.skip 1).rest = m.value.spelled ++ rest := by simp [Cursor.skip, behind]
  have next := sound.skip 1
  have noMark : (c.skip 1).anyDocumentMark = false :=
    Cursor.anyDocumentMark_of_column (Nat.succ_ne_zero c.column)
  refine Reads.of_space behind sound.whole (m.value.stopsBlank rest) (Nat.zero_lt_of_lt sound.limit) ?_
  rw [← Cursor.skip_skip] at read
  refine read.of_token next.whole (there ▸ m.value.stopsBlank rest) isNear_none isNear_none
    (fun outside => ?_) (by simp) ?_
  · exact token_scalar m.value there ends next.whole noMark next.limit stop markCandidate_placed
  · have filled := List.length_pos_iff.2 m.value.spelled_ne_nil
    rw [Cursor.rest_skip there, there, List.length_append]
    omega

/-- In a block mapping a plain value takes its line end with it, a quoted one does not. -/
theorem Member.reads_value_line (m : Member) (behind : c.rest = ' ' :: (m.value.spelled ++ '\n' :: rest))
    (sound : c.IsSound) (top : StopsBlank rest)
    (read : Reads .block false none (front ++ [.scalar m.value.plain m.value.text])
      (c.skip (1 + m.value.spelled.length)) out)
    (read_line : Reads .block true none (front ++ [.scalar m.value.plain m.value.text])
      (c.skip (1 + m.value.spelled.length)).nextLine out) :
    Reads .block false none front c out := by
  obtain ⟨name, ⟨plain, text, spelled, spells⟩, starts, short⟩ := m
  cases spells with
  | quoted =>
    exact Member.reads_value ⟨name, ⟨false, text, _, .quoted ‹_›⟩, starts, short⟩ behind sound
      (.lineFeed rest) (by simp) read
  | plain word =>
    have there : (c.skip 1).rest = text ++ '\n' :: rest := by simp [Cursor.skip, behind]
    have next := sound.skip 1
    have noMark : (c.skip 1).anyDocumentMark = false :=
      Cursor.anyDocumentMark_of_column (Nat.succ_ne_zero c.column)
    have lineEnd : ((c.skip 1).skip text.length).rest = '\n' :: rest := Cursor.rest_skip there
    refine Reads.of_space behind sound.whole (.of_word word) (Nat.zero_lt_of_lt sound.limit) ?_
    rw [← Cursor.skip_skip] at read_line
    refine read_line.of_token next.whole (there ▸ .of_word word) isNear_none isNear_none
      (fun outside => ?_) (by simp) ?_
    · refine token_line word there next.whole noMark next.limit fun d mem => ?_
      obtain ⟨-, space, tab, -, lineEnd⟩ := top d mem
      exact ⟨by simp [isSpace, space, tab], lineEnd⟩
    · rw [Cursor.rest_nextLine lineEnd, there, List.length_append, List.length_cons]
      omega

theorem Member.behind_name (m : Member) (behind : c.rest = m.spelled ++ rest) :
    c.rest = m.name.spelled ++ ':' :: ' ' :: (m.value.spelled ++ rest) ∧
      (c.skip (m.name.spelled.length + 1)).rest = ' ' :: (m.value.spelled ++ rest) := by
  have behind : c.rest = m.name.spelled ++ ':' :: ' ' :: (m.value.spelled ++ rest) := by
    simpa [Member.spelled] using behind
  refine ⟨behind, ?_⟩
  rw [← Cursor.skip_skip, Cursor.skip, Cursor.rest_skip behind]
  rfl

theorem Member.skip_spelled (m : Member) :
    (c.skip (m.name.spelled.length + 1)).skip (1 + m.value.spelled.length) =
      c.skip m.spelled.length := by
  rw [Cursor.skip_skip]
  congr 1
  simp only [Member.spelled, List.length_append, List.length_cons]
  omega

/-- A member in brackets takes three steps, up to the next comma or bracket. -/
theorem Member.reads_entry (m : Member) (behind : c.rest = m.spelled ++ d :: rest) (sound : c.IsSound)
    (isMark : d = ',' ∨ d = '}')
    (read : Reads .brackets false none (front ++ m.tokens) (c.skip m.spelled.length) out) :
    Reads .brackets true none front c out := by
  obtain ⟨named, valued⟩ := m.behind_name behind
  refine m.reads_name named sound (fun other => absurd rfl other) ?_
  rw [Cursor.skip_skip]
  refine m.reads_value valued (sound.skip _) (.mark rest rfl isMark) (fun _ => ?_) ?_
  · rcases isMark with rfl | rfl <;> simp [isSpace, isBreak]
  · rw [m.skip_spelled]
    simpa [Level.opened, Level.opening, Member.tokens, memberTokens] using read

/-- A member on a line takes three steps, with the line end or up to it. -/
theorem Member.reads_line (m : Member) (noBrackets : level ≠ .brackets)
    (behind : c.rest = m.spelled ++ rest) (sound : c.IsSound) (top : c.column = 0)
    (ends : rest = [] ∨ ∃ rest', rest = '\n' :: rest' ∧ StopsBlank rest')
    (read : Reads .block false none (front ++ level.opening ++ m.tokens) (c.skip m.spelled.length) out)
    (read_line : rest ≠ [] → Reads .block true none (front ++ level.opening ++ m.tokens)
      (c.skip m.spelled.length).nextLine out) :
    Reads level true none front c out := by
  obtain ⟨named, valued⟩ := m.behind_name behind
  have opened : level.opened = .block := by
    cases level with
    | brackets => exact absurd rfl noBrackets
    | fresh => rfl
    | block => rfl
  have tokens : front ++ level.opening ++ m.tokens = front ++ level.opening ++
      [.key, .scalar m.name.plain m.name.text, .value] ++ [.scalar m.value.plain m.value.text] := by
    simp [Member.tokens, memberTokens]
  rw [tokens, ← m.skip_spelled] at read read_line
  refine m.reads_name named sound (fun _ => top) ?_
  rw [Cursor.skip_skip, opened]
  obtain rfl | ⟨rest', rfl, stops⟩ := ends
  · exact m.reads_value valued (sound.skip _) .nil (by simp) read
  · exact m.reads_value_line valued (sound.skip _) stops read (read_line (List.cons_ne_nil _ _))

/-! ### Documents -/

variable (allowed front) in
/-- Behind the members, what is open ends with the text. -/
theorem reads_lastLine {ends : Bool} (noBrackets : level ≠ .brackets) (behind : c.rest = lastLine ends)
    (sound : c.IsSound) (free : IsFree candidate) :
    Reads level allowed candidate front c (front ++ level.closing ++ [.finish]) := by
  cases ends with
  | false => exact reads_finish sound.whole behind noBrackets free
  | true =>
    refine Reads.of_lineFeed noBrackets behind sound.whole stopsBlank_nil
      (Nat.zero_lt_of_lt sound.limit) ?_
    exact reads_finish (sound.nextLine behind).whole (Cursor.rest_nextLine behind) noBrackets free

theorem laterLines_cases (ms : List Member) (ends : Bool) :
    laterLines ms ends = [] ∨ ∃ rest, laterLines ms ends = '\n' :: rest ∧ StopsBlank rest := by
  cases ms with
  | nil =>
    cases ends with
    | false => exact .inl rfl
    | true => exact .inr ⟨[], rfl, stopsBlank_nil⟩
  | cons m ms =>
    refine .inr ⟨m.spelled ++ laterLines ms ends, by simp [laterLines], ?_⟩
    rw [Member.spelled, List.append_assoc]
    exact m.name.stopsBlank _

variable (front) in
/-- Behind a member the others are read line by line, whether its line end is still to come or not. -/
theorem reads_laterLines {ms : List Member} {ends : Bool} (behind : c.rest = laterLines ms ends)
    (sound : c.IsSound) :
    Reads .block false none front c (front ++ (ms.flatMap Member.tokens ++ [.blockEnd, .finish])) ∧
    (laterLines ms ends ≠ [] → Reads .block true none front c.nextLine
      (front ++ (ms.flatMap Member.tokens ++ [.blockEnd, .finish]))) := by
  induction ms generalizing c front with
  | nil =>
    have last {allowed : Bool} {c : Cursor} (ends : Bool) (behind : c.rest = lastLine ends)
        (sound : c.IsSound) := reads_lastLine allowed front
      (show Level.block ≠ .brackets by decide) behind sound isFree_none
    have behind : c.rest = lastLine ends := behind
    simp only [Level.closing, List.append_assoc] at last
    refine ⟨last ends behind sound, fun filled => ?_⟩
    cases ends with
    | false => exact absurd rfl filled
    | true => exact last false (Cursor.rest_nextLine behind) (sound.nextLine behind)
  | cons m ms ih =>
    have behind : c.rest = '\n' :: (m.spelled ++ laterLines ms ends) := by
      simpa [laterLines] using behind
    have there := Cursor.rest_nextLine behind
    have next := sound.nextLine behind
    obtain ⟨others, others_line⟩ := ih (front ++ m.tokens) (Cursor.rest_skip there) (next.skip _)
    have read : Reads .block true none front c.nextLine
        (front ++ ((m :: ms).flatMap Member.tokens ++ [.blockEnd, .finish])) := by
      have column : c.nextLine.column = 0 := by rw [Cursor.nextLine_of_lineFeed behind]
      refine m.reads_line (by decide) there next column (laterLines_cases ms ends) ?_ ?_
      · simpa [Level.opening] using others
      · simpa [Level.opening] using others_line
    refine ⟨read.of_lineFeed (by decide) behind sound.whole ?_ (Nat.zero_lt_of_lt sound.limit),
      fun _ => read⟩
    rw [Member.spelled, List.append_assoc]
    exact m.name.stopsBlank _

theorem laterEntries_cases (ms : List Member) (ends : Bool) :
    ∃ d rest, laterEntries ms ends = d :: rest ∧ (d = ',' ∨ d = '}') := by
  cases ms with
  | nil => exact ⟨'}', lastLine ends, rfl, .inr rfl⟩
  | cons m ms => exact ⟨',', _, rfl, .inl rfl⟩

variable (front) in
/-- Behind a member in brackets, the others are read, and the closing bracket. -/
theorem reads_laterEntries {ms : List Member} {ends : Bool} (behind : c.rest = laterEntries ms ends)
    (sound : c.IsSound) :
    Reads .brackets false none front c
      (front ++ (ms.flatMap (fun m => .comma :: m.tokens) ++ [.closeMap, .finish])) := by
  induction ms generalizing c front with
  | nil =>
    have behind : c.rest = '}' :: lastLine ends := behind
    refine reads_closeMap sound.whole behind fun k free => ?_
    have last := reads_lastLine false (front ++ [.closeMap])
      (show Level.fresh ≠ .brackets by decide) (show (c.skip 1).rest = lastLine ends by
        simp [Cursor.skip, behind]) (sound.skip 1) free
    simpa [Level.closing] using last
  | cons m ms ih =>
    have behind : c.rest = ',' :: ' ' :: (m.spelled ++ laterEntries ms ends) := by
      simpa [laterEntries] using behind
    have there : (c.skip 1).rest = ' ' :: (m.spelled ++ laterEntries ms ends) := by
      simp [Cursor.skip, behind]
    have there' : ((c.skip 1).skip 1).rest = m.spelled ++ laterEntries ms ends := by
      simp [Cursor.skip, behind]
    have others := ih (front ++ [.comma] ++ m.tokens) (Cursor.rest_skip there')
      (((sound.skip 1).skip 1).skip _)
    obtain ⟨d, rest, split, isMark⟩ := laterEntries_cases ms ends
    have entry : Reads .brackets true none (front ++ [.comma]) (c.skip 1)
        (front ++ ((m :: ms).flatMap (fun m => .comma :: m.tokens) ++ [.closeMap, .finish])) := by
      refine Reads.of_space there sound.whole ?_ (Nat.zero_lt_of_lt sound.limit) ?_
      · rw [Member.spelled, List.append_assoc]
        exact m.name.stopsBlank _
      · refine m.reads_entry (split ▸ there') ((sound.skip 1).skip 1) isMark ?_
        simpa using others
    refine entry.of_token sound.whole (behind ▸ stopsBlank_cons (by decide) _) isNear_none isNear_none
      (fun outside => ?_) (by simp) (by simp [Cursor.skip, behind])
    exact (token_eq_comma behind).trans comma_placed

theorem Member.isAllowed (m : Member) : ∀ d ∈ m.spelled, isAllowed d = true := by
  have marks : Yaml.isAllowed ':' = true ∧ Yaml.isAllowed ' ' = true := ⟨rfl, rfl⟩
  intro d mem
  rcases (by simpa [Member.spelled] using mem) with here | rfl | rfl | here
  · exact m.name.isAllowed d here
  · exact marks.1
  · exact marks.2
  · exact m.value.isAllowed d here

theorem isAllowed_lastLine (ends : Bool) : ∀ d ∈ lastLine ends, isAllowed d = true := by
  cases ends with
  | false => simp [lastLine]
  | true =>
    intro d mem
    obtain rfl := List.mem_singleton.1 mem
    rfl

theorem isAllowed_blockText (m : Member) (ms : List Member) (ends : Bool) :
    ∀ d ∈ blockText m ms ends, isAllowed d = true := by
  intro d mem
  rcases (by simpa [blockText, laterLines] using mem) with here | ⟨m', -, rfl | here⟩ | here
  · exact m.isAllowed d here
  · rfl
  · exact m'.isAllowed d here
  · exact isAllowed_lastLine ends d here

theorem isAllowed_flowText (m : Member) (ms : List Member) (ends : Bool) :
    ∀ d ∈ flowText m ms ends, isAllowed d = true := by
  intro d mem
  rcases (by simpa [flowText, laterEntries] using mem) with
    rfl | here | ⟨m', -, rfl | rfl | here⟩ | rfl | here
  · rfl
  · exact m.isAllowed d here
  · rfl
  · rfl
  · exact m'.isAllowed d here
  · rfl
  · exact isAllowed_lastLine ends d here

theorem tokens_of_reads {cs : List Char} (allowed : ∀ d ∈ cs, isAllowed d = true)
    (read : ∀ c : Cursor, c.rest = cs → c.IsSound → c.column = 0 → Reads .fresh true none [] c out) :
    tokens (String.ofList cs) = out := by
  have start : Cursor.start cs = ⟨cs, false, 0, 0, 0, cs.length + 2⟩ := by
    rw [Cursor.start, readable, unreadableFrom?_of_all (List.all_eq_true.2 allowed)]
  have sound : (Cursor.start cs).IsSound := by
    rw [start]
    exact ⟨rfl, by simp⟩
  have fresh := read (Cursor.start cs) (by rw [start]) sound (by rw [start])
  rw [tokens, String.toList_ofList]
  exact fresh none isFree_none _ (by simp [start, Scanner.start])

/-- Lines are cut into the tokens of their members. -/
theorem tokens_blockText (m : Member) (ms : List Member) (ends : Bool) :
    tokens (String.ofList (blockText m ms ends)) =
      [.mappingStart] ++ ((m :: ms).flatMap Member.tokens ++ [.blockEnd, .finish]) := by
  refine tokens_of_reads (isAllowed_blockText m ms ends) fun c behind sound top => ?_
  obtain ⟨others, others_line⟩ := reads_laterLines ([.mappingStart] ++ m.tokens)
    (Cursor.rest_skip behind) (sound.skip _)
  refine m.reads_line (by decide) behind sound top (laterLines_cases ms ends) ?_ ?_
  · simpa [Level.opening] using others
  · simpa [Level.opening] using others_line

/-- So are entries in brackets, with the commas between them. -/
theorem tokens_flowText (m : Member) (ms : List Member) (ends : Bool) :
    tokens (String.ofList (flowText m ms ends)) =
      [.openMap] ++ (m.tokens ++ (ms.flatMap (fun m => .comma :: m.tokens) ++ [.closeMap, .finish])) := by
  refine tokens_of_reads (isAllowed_flowText m ms ends) fun c behind sound top => ?_
  have behind : c.rest = '{' :: (m.spelled ++ laterEntries ms ends) := behind
  have there : (c.skip 1).rest = m.spelled ++ laterEntries ms ends := by simp [Cursor.skip, behind]
  have others := reads_laterEntries ([.openMap] ++ m.tokens) (Cursor.rest_skip there)
    ((sound.skip 1).skip _)
  obtain ⟨d, rest, split, isMark⟩ := laterEntries_cases ms ends
  refine reads_openMap sound.whole behind ?_
  refine m.reads_entry (split ▸ there) (sound.skip 1) isMark ?_
  simpa using others

/-! ### Records -/

/-- A flat document with these members. -/
inductive IsFlat : List Member → String → Prop where
  | block (m : Member) (ms : List Member) (ends : Bool) :
    IsFlat (m :: ms) (String.ofList (blockText m ms ends))
  | flow (m : Member) (ms : List Member) (ends : Bool) :
    IsFlat (m :: ms) (String.ofList (flowText m ms ends))

/-- What has been read, with a member. -/
def Progress.takeMember (p : Progress) (m : Member) : Except Fault Progress :=
  p.takeScalar m.name.plain m.name.text m.value.plain m.value.text

/-- What has been read, with more members. -/
def Progress.takeAll (p : Progress) (ms : List Member) : Except Fault Progress :=
  ms.foldlM Progress.takeMember p

variable {ms : List Member} {doc : String} {p p' : Progress} {first : Bool}

theorem Progress.takeAll_cons (p : Progress) (m : Member) (ms : List Member) :
    p.takeAll (m :: ms) = (do
      let p ← p.takeMember m
      p.takeAll ms) := rfl

/-- In a block mapping, the members are taken over one by one. -/
theorem OpensBlock.readDocument_members (opens : OpensBlock front p) (ms : List Member) :
    readDocument (front ++ (ms.flatMap Member.tokens ++ [.blockEnd, .finish])) = (do
      let p ← p.takeAll ms
      return (p.record, [.finish])) := by
  induction ms generalizing front p with
  | nil =>
    obtain ⟨k, read⟩ := opens
    rw [List.flatMap_nil, List.nil_append, read, List.length_cons, Nat.add_right_comm]
    rfl
  | cons m ms ih =>
    rw [Progress.takeAll_cons, List.flatMap_cons, List.append_assoc]
    cases taken : p.takeMember m with
    | error fault =>
      obtain ⟨k, read⟩ := opens.exists_readDocument
      have taken : p.takeScalar m.name.plain m.name.text m.value.plain m.value.text = .error fault := taken
      rw [Member.tokens, read, taken]
      rfl
    | ok p' =>
      have rest := ih (opens.append_member taken)
      rwa [List.append_assoc] at rest

/-- In a map in brackets a member, with a comma before it or not, is taken over before the others. -/
theorem OpensFlow.readDocument_member (opens : OpensFlow front first p) (m : Member) (rest : List Token) :
    (∃ fault, p.takeMember m = .error fault ∧
      readDocument (front ++ (flowTokens first m.name.plain m.name.text m.value.plain m.value.text ++
        rest)) = .error fault) ∨
    ∃ p', p.takeMember m = .ok p' ∧ OpensFlow (front ++
      flowTokens first m.name.plain m.name.text m.value.plain m.value.text) false p' := by
  cases taken : p.takeMember m with
  | error fault =>
    obtain ⟨k, read⟩ := opens.exists_readDocument
    have taken : p.takeScalar m.name.plain m.name.text m.value.plain m.value.text = .error fault := taken
    refine .inl ⟨fault, rfl, ?_⟩
    rw [read, taken]
    rfl
  | ok p' => exact .inr ⟨p', rfl, opens.append_member taken⟩

theorem OpensFlow.readDocument_members (opens : OpensFlow front false p) (ms : List Member) :
    readDocument (front ++ (ms.flatMap (fun m => .comma :: m.tokens) ++ [.closeMap, .finish])) = (do
      let p ← p.takeAll ms
      return (p.record, [.finish])) := by
  induction ms generalizing front p with
  | nil =>
    obtain ⟨k, read⟩ := opens
    rw [List.flatMap_nil, List.nil_append, read, List.length_cons, Nat.add_right_comm]
    rfl
  | cons m ms ih =>
    rw [Progress.takeAll_cons, List.flatMap_cons, List.append_assoc]
    obtain ⟨fault, taken, read⟩ | ⟨p', taken, opens⟩ := opens.readDocument_member m
      (ms.flatMap (fun m => .comma :: m.tokens) ++ [.closeMap, .finish])
    · rw [taken]
      exact read
    · rw [taken]
      have rest := ih opens
      rwa [List.append_assoc] at rest

/-- A flat document is decoded member by member. -/
theorem decodeRecord_of_isFlat (flat : IsFlat ms doc) :
    decodeRecord doc = (Progress.takeAll ⟨.blank, []⟩ ms).map (·.record) := by
  have finish (read : readDocument (tokens doc) = (do
      let p ← Progress.takeAll ⟨.blank, []⟩ ms
      return (p.record, [.finish]))) :
      decodeRecord doc = (Progress.takeAll ⟨.blank, []⟩ ms).map (·.record) := by
    rw [decodeRecord, read]
    cases Progress.takeAll ⟨.blank, []⟩ ms <;> rfl
  apply finish
  cases flat with
  | block m ms ends =>
    rw [tokens_blockText]
    exact opensBlock_mappingStart.readDocument_members (m :: ms)
  | flow m ms ends =>
    rw [tokens_flowText, Progress.takeAll_cons]
    obtain ⟨fault, taken, read⟩ | ⟨p', taken, opens⟩ := opensFlow_openMap.readDocument_member m
      (ms.flatMap (fun m => .comma :: m.tokens) ++ [.closeMap, .finish])
    · rw [taken]
      exact read
    · rw [taken]
      have rest := opens.readDocument_members ms
      rwa [List.append_assoc] at rest

/-- A reader of YAML takes the members of a flat document one by one, and where it takes all of them,
gives the record that they tell. -/
def ReadsFlat {ε : Type} (yaml : String → Except ε Record) : Prop :=
  ∀ ms doc p, IsFlat ms doc → Progress.takeAll ⟨.blank, []⟩ ms = .ok p → yaml doc = .ok p.record

theorem readsFlat_decodeRecord : ReadsFlat decodeRecord := by
  intro ms doc p flat taken
  rw [decodeRecord_of_isFlat flat, taken]
  rfl

end PathPattern.Yaml
