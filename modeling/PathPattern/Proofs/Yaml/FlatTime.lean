import PathPattern.Proofs.Time.Zone
import PathPattern.Proofs.Yaml.Flat

/-!
# The time of a flat document

The text of an instant, in UTC or in another zone, is a plain word (`isWord_of_isCanonical`,
`isWord_of_isZoned`), so a member can tell it as it stands or between quotes. A reader of YAML that
takes the members of flat documents one by one (`ReadsFlat`) finds the same record in two of them that
differ in the text of the time alone (`ReadsFlat.same`).
-/

namespace PathPattern

open Integer (DigitRun)

namespace Yaml

variable {text text' ds : List Char} {d : Char} {n : Nat} {t : Instant} {minutes : Int}

/-! ### Times are words -/

theorem mem_wordChars_of_isDigit (digit : d.isDigit = true) : d ∈ wordChars := by
  have all : ∀ n < 10, Char.ofNat (48 + n) ∈ wordChars := by decide +kernel
  obtain ⟨low, high⟩ : 48 ≤ d.toNat ∧ d.toNat ≤ 57 := by
    simpa [Char.isDigit, UInt32.le_iff_toNat_le] using digit
  have here := all (d.toNat - 48) (by omega)
  rwa [Nat.add_sub_cancel' low, Char.ofNat_toNat] at here

/-- The marks of times are characters of words. -/
theorem timeMarks : ∀ d ∈ ['-', '+', ':', '.', 'T', 'Z'], d ∈ wordChars := by
  have all : ['-', '+', ':', '.', 'T', 'Z'].all (wordChars.contains ·) = true := by decide +kernel
  exact fun d mem => List.contains_iff_mem.1 (List.all_eq_true.1 all d mem)

/-- Only characters of words. -/
def IsWordRun (cs : List Char) : Prop := ∀ d ∈ cs, d ∈ wordChars

theorem IsWordRun.append (run : IsWordRun text) (run' : IsWordRun text') : IsWordRun (text ++ text') :=
  List.forall_mem_append.2 ⟨run, run'⟩

theorem IsWordRun.cons (mark : d ∈ ['-', '+', ':', '.', 'T', 'Z']) (run : IsWordRun text) :
    IsWordRun (d :: text) :=
  List.forall_mem_cons.2 ⟨timeMarks d mark, run⟩

theorem isWordRun_of_digitRun (run : DigitRun ds n) : IsWordRun ds :=
  fun d mem => mem_wordChars_of_isDigit (run.digits d mem)

theorem isWordRun_nil : IsWordRun [] := List.forall_mem_nil _

theorem isWordRun_of_fractionForm (form : Rfc3339.FractionForm n ds) : IsWordRun ds := by
  cases form with
  | whole => exact isWordRun_nil
  | digits run => exact (isWordRun_of_digitRun run).cons (by simp)

theorem getLast?_append_digitRun (run : DigitRun ds n) (front : List Char) :
    (front ++ ds).getLast? ≠ some ':' := by
  intro last
  rw [List.getLast?_append_of_ne_nil front run.nonempty] at last
  have digit := run.digits _ (List.mem_of_getLast? last)
  cases digit

theorem isWordRun_of_zoneForm (form : Rfc3339.ZoneForm minutes ds) :
    IsWordRun ds ∧ ds.getLast? ≠ some ':' := by
  have both {h m : Nat} {sign : Char} {hours minutes : List Char} (mark : sign = '+' ∨ sign = '-')
      (hour_form : Rfc3339.PairForm h hours) (minute_form : Rfc3339.PairForm m minutes) :
      IsWordRun (sign :: hours ++ ':' :: minutes) ∧
        (sign :: hours ++ ':' :: minutes).getLast? ≠ some ':' := by
    have last := getLast?_append_digitRun minute_form.1 (sign :: hours ++ [':'])
    rw [List.append_assoc, List.singleton_append] at last
    refine ⟨IsWordRun.append ?_ ?_, last⟩
    · exact (isWordRun_of_digitRun hour_form.1).cons (by rcases mark with rfl | rfl <;> simp)
    · exact (isWordRun_of_digitRun minute_form.1).cons (by simp)
  cases form with
  | ahead hour_form minute_form => exact both (.inl rfl) hour_form minute_form
  | behind hour_form minute_form => exact both (.inr rfl) hour_form minute_form

theorem isWordRun_of_yearForm {year : Int} (form : Rfc3339.YearForm year ds) :
    IsWordRun ds ∧ ∃ d cs, ds = d :: cs ∧ d ≠ ':' := by
  cases form with
  | four run =>
    obtain ⟨d, cs, rfl⟩ := List.exists_cons_of_ne_nil run.nonempty
    refine ⟨isWordRun_of_digitRun run, d, cs, rfl, ?_⟩
    rintro rfl
    cases run.head_isDigit
  | negative below run => exact ⟨(isWordRun_of_digitRun run).cons (by simp), _, _, rfl, by decide⟩
  | beyond above run => exact ⟨(isWordRun_of_digitRun run).cons (by simp), _, _, rfl, by decide⟩

/-- A date and a clock are a word with what follows them. -/
theorem isWord_append {p : Rfc3339.Parts} {front : List Char} (form : Rfc3339.PartsForm p front)
    (run : IsWordRun text) (last : text.getLast? ≠ some ':') (more : text ≠ []) :
    IsWord (front ++ text) := by
  obtain ⟨year_form, month_form, day_form, hour_form, minute_form, second_form, fraction_form⟩ := form
  obtain ⟨year_run, d, cs, rfl, first⟩ := isWordRun_of_yearForm year_form
  have pair {k : Nat} {mark : Char} {ds : List Char} (isMark : mark ∈ ['-', '+', ':', '.', 'T', 'Z'])
      (form : Rfc3339.PairForm k ds) : IsWordRun (mark :: ds) :=
    (isWordRun_of_digitRun form.1).cons isMark
  constructor
  · exact ((((((year_run.append (pair (by simp) month_form)).append (pair (by simp) day_form)).append
      (pair (by simp) hour_form)).append (pair (by simp) minute_form)).append
      (pair (by simp) second_form)).append (isWordRun_of_fractionForm fraction_form)).append run
  · exact ⟨d, _, rfl, first, fun _ => by simp⟩
  · rwa [List.getLast?_append_of_ne_nil _ more]

theorem isWord_of_isCanonical (canonical : Rfc3339.IsCanonical t text) : IsWord text := by
  obtain ⟨p, front, -, -, form, rfl⟩ := canonical
  exact isWord_append form (isWordRun_nil.cons (by simp)) (by simp) (by simp)

theorem isWord_of_isZoned (zoned : Rfc3339.IsZoned t minutes text) : IsWord text := by
  obtain ⟨p, front, zone, -, -, form, zone_form, rfl⟩ := zoned
  obtain ⟨run, last⟩ := isWordRun_of_zoneForm zone_form
  exact isWord_append form run last (by cases zone_form <;> simp)

/-! ### The member of the time -/

/-- The member tells a text as the time, plain or quoted. -/
structure IsTimeMember (text : List Char) (m : Member) : Prop where
  named : ∃ name ∈ Json.timeNames, m.name.text = name.toList
  valued : m.value.text = text

variable {m m' : Member} {ms before after : List Member} {p p' : Progress} {doc doc' : String}

theorem takeMember_time (time : IsTimeMember text m) (names : Rfc3339.read text = .ok t) (p : Progress) :
    p.takeMember m = if .acquired ∈ p.seen then .error atRoot else .ok (p.withTime t) := by
  obtain ⟨name, named, same⟩ := time.named
  rw [Progress.takeMember, same, time.valued]
  exact takeScalar_time named names p _ _

/-- No other entry sets the time. -/
theorem setScalar?_acquired {r r' : Record} {entry : Json.Entry} {plain : Bool}
    (other : entry ≠ .acquired) (set : setScalar? r entry plain text = some r') :
    r'.acquired = r.acquired := by
  cases entry with
  | acquired => exact absurd rfl other
  | level =>
    simp only [setScalar?] at set
    split at set
    · obtain ⟨i, -, rfl⟩ := Option.map_eq_some_iff.1 set
      rfl
    · cases set
  | source | model | mime | kind | file =>
    obtain rfl := Option.some.inj set
    rfl

/-- Once the time has been read, no other member changes it. -/
theorem takeMember_acquired (given : .acquired ∈ p.seen) (taken : p.takeMember m = .ok p') :
    .acquired ∈ p'.seen ∧ p'.record.acquired = p.record.acquired := by
  simp only [Progress.takeMember, Progress.takeScalar, Progress.admits, Progress.set] at taken
  cases key : Json.Entry.ofKey? (String.ofList m.name.text) with
  | none =>
    simp only [key, bind, Except.bind, Except.ok.injEq] at taken
    exact taken ▸ ⟨given, rfl⟩
  | some entry =>
    simp only [key, bind, Except.bind] at taken
    by_cases twice : entry ∈ p.seen
    · simp only [if_pos twice] at taken
      cases taken
    · simp only [if_neg twice, key] at taken
      split at taken
      · next r set =>
        obtain rfl := Except.ok.inj taken
        have other : entry ≠ .acquired := by
          rintro rfl
          exact twice given
        exact ⟨List.mem_cons_of_mem entry given, setScalar?_acquired other set⟩
      · cases taken

theorem takeAll_acquired (given : .acquired ∈ p.seen) (taken : p.takeAll ms = .ok p') :
    p'.record.acquired = p.record.acquired := by
  induction ms generalizing p with
  | nil =>
    obtain rfl : p = p' := Except.ok.inj taken
    rfl
  | cons m ms ih =>
    rw [Progress.takeAll_cons] at taken
    cases first : p.takeMember m with
    | error fault =>
      rw [first] at taken
      cases taken
    | ok q =>
      rw [first] at taken
      obtain ⟨still, same⟩ := takeMember_acquired given first
      rw [ih still taken, same]

theorem takeAll_append (p : Progress) (ms ms' : List Member) :
    p.takeAll (ms ++ ms') = (do
      let p ← p.takeAll ms
      p.takeAll ms') := List.foldlM_append

/-- Members that differ in a text of the same instant alone are taken over alike, and the instant is the
time then. -/
theorem takeAll_time (time : IsTimeMember text m) (time' : IsTimeMember text' m')
    (names : Rfc3339.read text = .ok t) (names' : Rfc3339.read text' = .ok t) (p : Progress) :
    p.takeAll (before ++ m :: after) = p.takeAll (before ++ m' :: after) ∧
      ∀ p', p.takeAll (before ++ m :: after) = .ok p' → p'.record.acquired = t := by
  rw [takeAll_append, takeAll_append]
  cases p.takeAll before with
  | error fault => exact ⟨rfl, fun p' taken => by cases taken⟩
  | ok q =>
    simp only [bind, Except.bind, Progress.takeAll_cons, takeMember_time time names,
      takeMember_time time' names', true_and]
    intro p' taken
    by_cases twice : .acquired ∈ q.seen
    · simp only [if_pos twice] at taken
      cases taken
    · simp only [if_neg twice] at taken
      exact takeAll_acquired (p := q.withTime t) List.mem_cons_self taken

/-! ### Readers -/

/-- Flat documents that differ in the text of the time alone, with members that are all taken. -/
inductive FlatApart (text text' : List Char) : String → String → Prop where
  | mk {before after : List Member} {m m' : Member} {doc doc' : String} {p : Progress}
    (time : IsTimeMember text m) (time' : IsTimeMember text' m')
    (flat : IsFlat (before ++ m :: after) doc) (flat' : IsFlat (before ++ m' :: after) doc')
    (taken : Progress.takeAll ⟨.blank, []⟩ (before ++ m' :: after) = .ok p) :
    FlatApart text text' doc doc'

variable {ε : Type} {yaml : String → Except ε Record}

/-- Such documents are read to the same record, and its time is the instant. -/
theorem ReadsFlat.same (reads : ReadsFlat yaml) (names : Rfc3339.read text = .ok t)
    (names' : Rfc3339.read text' = .ok t) (apart : FlatApart text text' doc doc') :
    ∃ r, r.acquired = t ∧ yaml doc = .ok r ∧ yaml doc' = .ok r := by
  obtain ⟨time, time', flat, flat', taken⟩ := apart
  obtain ⟨same, -⟩ := takeAll_time time time' names names' ⟨.blank, []⟩
  obtain ⟨-, acquired⟩ := takeAll_time time' time names' names ⟨.blank, []⟩
  exact ⟨_, acquired _ taken, reads _ _ _ flat (same.trans taken), reads _ _ _ flat' taken⟩

theorem isWord_of_mem_timeNames {name : String} (named : name ∈ Json.timeNames) :
    IsWord name.toList := by
  have table : ∀ name ∈ Json.timeNames, IsWord name.toList := by decide +kernel
  exact table name named

/-- The member with a scalar as the time. -/
def timeMember {name : String} (named : name ∈ Json.timeNames) (value : Scalar) : Member where
  name := .word (isWord_of_mem_timeNames named)
  value := value
  starts := by
    have table : ∀ name ∈ Json.timeNames,
        name.toList.head?.all (fun d => d != '-' && d != '.') = true := by decide
    exact starts_of_all (table name named)
  short := by
    have table : ∀ name ∈ Json.timeNames, Text.byteCount name.toList ≤ 1024 := by decide
    exact table name named

/-- A document of nothing but the time, plain or quoted. -/
def timeDocument (name : String) (quote text : List Char) : String :=
  String.ofList (name.toList ++ ':' :: ' ' :: (quote ++ text ++ quote) ++ ['\n'])

theorem ReadsFlat.read_timeDocument {name : String} {quote : List Char} (reads : ReadsFlat yaml)
    (word : IsWord text) (names : Rfc3339.read text = .ok t) (named : name ∈ Json.timeNames)
    (quoted : quote ∈ [[], ['\''], ['"']]) :
    yaml (timeDocument name quote text) = .ok { Record.blank with acquired := t } := by
  have read (value : Scalar) (same : value.text = text) (spelled : value.spelled = quote ++ text ++ quote) :
      yaml (timeDocument name quote text) = .ok { Record.blank with acquired := t } := by
    have flat := IsFlat.block (timeMember named value) [] true
    have time : IsTimeMember text (timeMember named value) := ⟨⟨name, named, rfl⟩, same⟩
    have doc : String.ofList (blockText (timeMember named value) [] true) =
        timeDocument name quote text := by
      rw [timeDocument, blockText, Member.spelled, ← spelled]
      rfl
    rw [← doc]
    exact reads _ _ _ flat (by rw [Progress.takeAll_cons, takeMember_time time names]; rfl)
  simp only [List.mem_cons, List.not_mem_nil, or_false] at quoted
  rcases quoted with rfl | rfl | rfl
  · exact read (.word word) rfl (by simp [Scalar.word])
  · exact read (.quotedWord true word) rfl rfl
  · exact read (.quotedWord false word) rfl rfl

end Yaml

end PathPattern
