import PathPattern.CommandLine.Run
import PathPattern.Proofs.Json.TimeText
import PathPattern.Proofs.Yaml.FlatTime

/-!
# Records in other zones

An instant has a text in every zone, and all of them are read to it. So a metadata file with the time of
a zone loads to the record that the file with the time in UTC loads to, in JSON and in YAML, and the runs
of the program on the one and on the other are the same, whatever they are asked for
(`zone_leaves_no_trace`).
-/

namespace PathPattern.CommandLine

open Rfc3339 (IsZoned IsCanonical)

variable {ε : Type} {yaml : RecordReader ε} {text text' : List Char} {path : String}
  {find find' : String → Entry} {t : Instant}

/-- In JSON the texts tell the same record: in maps and in lists of entries of a record of the instant,
and wherever else two documents differ in these texts alone. -/
structure SameInJson (t : Instant) (text text' : List Char) : Prop where
  map : ∀ r entries, r.acquired = t → entries.Nodup →
    Json.decodeRecord (String.ofList (Json.mapText (Json.valueWith text r) entries)) =
        .ok (entries.foldl (fun base entry => entry.take r base) .blank) ∧
      Json.decodeRecord (String.ofList (Json.mapText (Json.valueWith text' r) entries)) =
        .ok (entries.foldl (fun base entry => entry.take r base) .blank)
  list : ∀ r, r.acquired = t →
    Json.decodeRecord (String.ofList (Json.listText (Json.valueWith text r))) = .ok r ∧
      Json.decodeRecord (String.ofList (Json.listText (Json.valueWith text' r))) = .ok r
  documents : ∀ doc doc', Json.DifferInTime text text' doc doc' →
    Json.decodeRecord doc = Json.decodeRecord doc'

theorem sameInJson (names : Rfc3339.read text = .ok t) (names' : Rfc3339.read text' = .ok t) :
    SameInJson t text text' where
  map := by
    rintro r entries rfl apart
    exact ⟨Json.decodeRecord_mapText names apart, Json.decodeRecord_mapText names' apart⟩
  list := by
    rintro r rfl
    exact ⟨Json.decodeRecord_listText names, Json.decodeRecord_listText names'⟩
  documents _ _ differ := Json.decodeRecord_of_differInTime names names' differ

/-- In YAML the texts tell the same record: in documents of nothing but the time, plain or quoted, and in
flat documents that differ in these texts alone. -/
structure SameInYaml (yaml : RecordReader ε) (t : Instant) (text text' : List Char) : Prop where
  time : ∀ name ∈ Json.timeNames, ∀ quote ∈ [[], ['\''], ['"']],
    yaml (Yaml.timeDocument name quote text) = .ok { Record.blank with acquired := t } ∧
      yaml (Yaml.timeDocument name quote text') = .ok { Record.blank with acquired := t }
  documents : ∀ doc doc', Yaml.FlatApart text text' doc doc' →
    ∃ r, r.acquired = t ∧ yaml doc = .ok r ∧ yaml doc' = .ok r

theorem sameInYaml (reads : Yaml.ReadsFlat yaml) (word : Yaml.IsWord text) (word' : Yaml.IsWord text')
    (names : Rfc3339.read text = .ok t) (names' : Rfc3339.read text' = .ok t) :
    SameInYaml yaml t text text' where
  time _ named _ quoted :=
    ⟨reads.read_timeDocument word names named quoted, reads.read_timeDocument word' names' named quoted⟩
  documents _ _ apart := reads.same names names' apart

/-- A path leads to the same in two places, or to metadata files that differ in the text of the time
alone. -/
inductive AlikeAt (text text' : List Char) (path : String) : Entry → Entry → Prop where
  | same (entry : Entry) : AlikeAt text text' path entry entry
  | json {doc doc' : String} (format : fileFormat path = .json)
    (differ : Json.DifferInTime text text' doc doc') : AlikeAt text text' path (.text doc) (.text doc')
  | yaml {doc doc' : String} (format : fileFormat path = .yaml)
    (apart : Yaml.FlatApart text text' doc doc') : AlikeAt text text' path (.text doc) (.text doc')

theorem load_of_alikeAt (reads : Yaml.ReadsFlat yaml) (names : Rfc3339.read text = .ok t)
    (names' : Rfc3339.read text' = .ok t) (alike : AlikeAt text text' path (find path) (find' path)) :
    load yaml find path = load yaml find' path := by
  unfold load
  generalize find path = entry, find' path = entry' at alike
  cases alike with
  | same => rfl
  | json format differ => simp only [format, Json.decodeRecord_of_differInTime names names' differ]
  | yaml format apart =>
    obtain ⟨r, -, here, there⟩ := reads.same names names' apart
    simp only [format, here, there]

/-- A run sees no more of the files than the records that they load to. -/
theorem runWith_congr (same : ∀ path, load yaml find path = load yaml find' path)
    (arguments : List String) : runWith yaml find arguments = runWith yaml find' arguments := by
  have all : load yaml find = load yaml find' := funext same
  simp only [runWith, resolve, resolvedLines, loadAll, all]

/-- Every zone whose clocks show a date in the years of instants has a text of the instant. It is read
to the instant as the text in UTC is, in a second that runs on to the next one. Documents with either text
decode to the same record, in JSON and in YAML, where flat documents are all that is asked of a reader, and
so all runs of the program with such files are the same. -/
theorem zone_leaves_no_trace {minutes : Int} (small : minutes.natAbs < 1440)
    (low : firstSecond ≤ t.second + 60 * minutes) (high : t.second + 60 * minutes ≤ lastSecond) :
    (∃ text, IsZoned t minutes text) ∧ ∀ zoned utc, IsZoned t minutes zoned → IsCanonical t utc →
      (Rfc3339.read zoned = .ok t.settled ∧ Rfc3339.read utc = .ok t.settled) ∧
      SameInJson t.settled zoned utc ∧
      (∀ doc doc', Yaml.DifferInTime zoned utc doc doc' →
        Yaml.decodeRecord doc = Yaml.decodeRecord doc') ∧
      SameInYaml Yaml.decodeRecord t.settled zoned utc ∧
      ∀ {ε : Type} (yaml : RecordReader ε), Yaml.ReadsFlat yaml →
        SameInYaml yaml t.settled zoned utc ∧
        ∀ find find', (∀ path, AlikeAt zoned utc path (find path) (find' path)) →
          ∀ arguments, runWith yaml find arguments = runWith yaml find' arguments := by
  refine ⟨⟨_, t.isZoned_zonedText low high small⟩, fun zoned utc isZoned isCanonical => ?_⟩
  have names := Rfc3339.read_of_isZoned isZoned
  have names' := Rfc3339.read_of_isCanonical isCanonical
  have word := Yaml.isWord_of_isZoned isZoned
  have word' := Yaml.isWord_of_isCanonical isCanonical
  refine ⟨⟨names, names'⟩, sameInJson names names', ?_,
    sameInYaml Yaml.readsFlat_decodeRecord word word' names names', fun yaml reads => ?_⟩
  · intro doc doc' differ
    exact Yaml.decodeRecord_of_differInTime names names' differ
  · refine ⟨sameInYaml reads word word' names names', fun find find' alike arguments => ?_⟩
    exact runWith_congr (fun path => load_of_alikeAt reads names names' (alike path)) arguments

/-- A JSON file and a YAML file with a text as the time, and a value besides. -/
def twoFiles (time path : String) : Entry :=
  if path = "a.json" then .text ("\x7b\"model\":\"m\",\"acq_time\":\"" ++ time ++ "\"\x7d")
  else if path = "b.yaml" then .text ("level: 3\nacqtime: '" ++ time ++ "'\n")
  else .missing

/-- The first line of the YAML file. -/
def levelThree : Yaml.Member where
  name := .word (show Yaml.IsWord "level".toList by decide +kernel)
  value := .word (show Yaml.IsWord ['3'] by decide +kernel)
  starts := Yaml.starts_of_all rfl
  short := by decide

theorem flatApart_levelThree {name : String} (named : name ∈ Json.timeNames) (word : Yaml.IsWord text)
    (word' : Yaml.IsWord text') (names' : Rfc3339.read text' = .ok t) :
    Yaml.FlatApart text text'
      (String.ofList (Yaml.blockText levelThree [Yaml.timeMember named (.quotedWord true word)] true))
      (String.ofList
        (Yaml.blockText levelThree [Yaml.timeMember named (.quotedWord true word')] true)) := by
  have time : Yaml.IsTimeMember text (Yaml.timeMember named (.quotedWord true word)) :=
    ⟨⟨name, named, rfl⟩, rfl⟩
  have time' : Yaml.IsTimeMember text' (Yaml.timeMember named (.quotedWord true word')) :=
    ⟨⟨name, named, rfl⟩, rfl⟩
  have level : Yaml.Progress.takeMember ⟨.blank, []⟩ levelThree =
      .ok ⟨{ Record.blank with level := 3 }, [.level]⟩ := rfl
  have all : Yaml.Progress.takeAll ⟨.blank, []⟩
      ([levelThree] ++ Yaml.timeMember named (.quotedWord true word') :: []) =
        .ok ⟨{ Record.blank with level := 3, acquired := t }, [.acquired, .level]⟩ := by
    rw [List.singleton_append, Yaml.Progress.takeAll_cons, level]
    simp only [bind, Except.bind]
    rw [Yaml.Progress.takeAll_cons, Yaml.takeMember_time time' names']
    rfl
  exact .mk time time' (.block levelThree _ true) (.block levelThree _ true) all

theorem alikeAt_twoFiles (path : String) :
    AlikeAt "2017-01-01T05:44:60+05:45".toList "2016-12-31T23:59:60Z".toList path
      (twoFiles "2017-01-01T05:44:60+05:45" path) (twoFiles "2016-12-31T23:59:60Z" path) := by
  unfold twoFiles
  split
  · next isJson =>
    have named : "acq_time" ∈ Json.timeNames := by decide
    have spells := Json.spells_valueWith (r := { Record.blank with model := "m" })
      (Rfc3339.read_write Record.blank.acquired)
    have front := (Json.opensMember_brace (List.forall_mem_nil _)).append_member spells
      (show Json.Entry.model ∉ [] by decide)
    have member (text : List Char) := Json.IsTimeMember.later (List.forall_mem_nil _) named
      (Json.isStringOf_string _) (Json.isStringOf_string text)
    exact .json (by rw [isJson]; decide +kernel) (.member front (member _) (member _) ['}'])
  · split
    · next isYaml =>
      have named : "acqtime" ∈ Json.timeNames := by decide
      exact .yaml (by rw [isYaml]; decide +kernel) (flatApart_levelThree named
        (Yaml.isWord_of_isZoned Instant.isZoned_leapSecond)
        (Yaml.isWord_of_isCanonical Instant.isCanonical_leapSecond)
        (Rfc3339.read_of_isCanonical Instant.isCanonical_leapSecond))
    · exact .same .missing

/-- A leap second at the end of a year, in a zone where the next year has begun. -/
theorem zone_leaves_no_trace_leap_second :
    run (twoFiles "2017-01-01T05:44:60+05:45")
        ["resolve", "--pattern={year}/{doy}", "a.json", "b.yaml"] =
      run (twoFiles "2016-12-31T23:59:60Z")
        ["resolve", "--pattern={year}/{doy}", "a.json", "b.yaml"] ∧
    run (twoFiles "2016-12-31T23:59:60Z")
      ["resolve", "--pattern={year}/{doy}", "a.json", "b.yaml"] = ⟨0, "2016/366\n2016/366\n", ""⟩ := by
  have small : (345 : Int).natAbs < 1440 := by decide
  have low : firstSecond ≤ Instant.leapSecond.second + 60 * 345 := by decide
  obtain ⟨-, texts⟩ := zone_leaves_no_trace small low (by decide)
  obtain ⟨-, -, -, -, readers⟩ := texts _ _ Instant.isZoned_leapSecond Instant.isCanonical_leapSecond
  obtain ⟨-, runs⟩ := readers Yaml.decodeRecord Yaml.readsFlat_decodeRecord
  exact ⟨runs _ _ alikeAt_twoFiles _, by decide +kernel⟩

end PathPattern.CommandLine
