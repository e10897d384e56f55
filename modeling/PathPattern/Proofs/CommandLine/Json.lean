import PathPattern.Proofs.CommandLine.Resolving
import PathPattern.Proofs.Json.Decoding

/-!
# JSON in metadata files and in the output

Of a metadata file in JSON the first document counts and nothing behind it, where a pattern takes up
its whole text (`reads_first_document`). The output of `resolve` in JSON is a line for each record,
an object of the file and the path that reads back to exactly these texts, and no character of
either breaks the line (`resolve_prints_json_lines`).
-/

namespace PathPattern.CommandLine

open Json (White IsObject IsMember IsValue Quotes)

variable {ε : Type} {yaml : RecordReader ε} {find : String → Entry} {template : String}
  {inline : Record} {metadata : List String} {records : List Record} {p : Pattern}

/-! ### What follows a document -/

/-- A text that decodes as a record decodes to the same record with anything behind it, and so does
a metadata file in JSON. A text that decodes as a pattern has nothing but white space behind it. -/
theorem reads_first_document (yaml : RecordReader ε) (doc behind : String) :
    (∀ r, Json.decodeRecord doc = .ok r → Json.decodeRecord (doc ++ behind) = .ok r ∧
      ∀ find path, fileFormat path = .json → find path = .text (doc ++ behind) →
        load yaml find path = .ok r) ∧
    ∀ p, Json.decodePattern doc = .ok p →
      (White behind.toList → Json.decodePattern (doc ++ behind) = .ok p) ∧
      (¬White behind.toList → Json.decodePattern (doc ++ behind) = .error .malformed) := by
  refine ⟨fun r decodes => ?_, fun p decodes => Json.decodePattern_append decodes behind⟩
  have same := Json.decodeRecord_append decodes behind
  refine ⟨same, fun find path json content => ?_⟩
  simp only [load, content, json, same]
  rfl

/-- Two records in one file, and a pattern with white space or a comma behind it. -/
theorem reads_first_document_of_two :
    load Yaml.decodeRecord (Folder.find [("a.json", .text "[\"s\"][\"t\"]")]) "a.json" =
      .ok { Record.blank with source := "s" } ∧
    Json.decodePattern "\"a\" \n" = .ok ⟨"a", .path [.literal "a"]⟩ ∧
    Json.decodePattern "\"a\"," = .error .malformed := by
  have record := (reads_first_document Yaml.decodeRecord "[\"s\"]" "[\"t\"]").1
    { Record.blank with source := "s" } (by decide +kernel)
  have decodes : Json.decodePattern "\"a\"" = .ok ⟨"a", .path [.literal "a"]⟩ := by decide +kernel
  exact ⟨record.2 _ _ (by decide +kernel) rfl,
    ((reads_first_document Yaml.decodeRecord "\"a\"" " \n").2 _ decodes).1
      (List.all_eq_true.1 (by decide)),
    ((reads_first_document Yaml.decodeRecord "\"a\"" ",").2 _ decodes).2
      (mt List.all_eq_true.2 (by decide))⟩

/-! ### Lines of output -/

/-- A line without its end: an object of a file and a path, which reads back in one way only, and no
control that could end the line. -/
structure IsJsonLine (file path : String) (line : String) : Prop where
  shown : ∀ c ∈ line.toList, 0x20 ≤ c.toNat
  reads : ∃ v w, (∀ members, IsObject members line.toList ↔ members = [("file", v), ("path", w)]) ∧
    (∀ text, Quotes text v ↔ text = file.toList) ∧ ∀ text, Quotes text w ↔ text = path.toList

/-- The records that a run of `resolve` is about: those of its metadata files, or the inline one. -/
def AboutRecords (yaml : RecordReader ε) (find : String → Entry) (inline : Record)
    (metadata : List String) (records : List Record) : Prop :=
  if metadata = [] then records = [inline]
  else List.Forall₂ (fun path r => load yaml find path = .ok r) metadata records

/-- The line of a record without its end. -/
def jsonLine (file path : String) : List Char :=
  '{' :: (Json.member "file" (Json.string file.toList) ++
    ',' :: (Json.member "path" (Json.string path.toList) ++ ['}']))

theorem line_json (p : Pattern) (r : Record) :
    line .json p r = String.ofList (jsonLine r.file (p.resolve r)) ++ "\n" := by
  apply String.toList_injective
  simp [line, jsonLine]

theorem isObject_jsonLine (file path : String) :
    IsObject [("file", Json.string file.toList), ("path", Json.string path.toList)]
      (jsonLine file path) := by
  have none : White [] := List.forall_mem_nil _
  have member (name text : String) :
      IsMember (name, Json.string text.toList) (Json.member name (Json.string text.toList)) := by
    have element := Json.IsElement.mk none (Json.quotes_string text.toList).isValue none
    rw [List.nil_append, List.append_nil] at element
    exact .mk (Json.isStringOf_string _) element
  have object : IsObject _ ([] ++ '{' :: (_ ++ ['}'])) :=
    .mk none (.cons (member "file" file) (.last (member "path" path)))
  simpa [jsonLine] using object

theorem isJsonLine_jsonLine (file path : String) :
    IsJsonLine file path (String.ofList (jsonLine file path)) where
  shown := by
    have quoted (text : List Char) := (Json.quotes_string text).shown
    have member (name text : String) :
        ∀ c ∈ Json.member name (Json.string text.toList), 0x20 ≤ c.toNat :=
      List.forall_mem_append.2 ⟨quoted _, List.forall_mem_cons.2 ⟨by decide, quoted _⟩⟩
    rw [String.toList_ofList, jsonLine, List.forall_mem_cons, List.forall_mem_append,
      List.forall_mem_cons, List.forall_mem_append]
    exact ⟨by decide, member "file" file, by decide, member "path" path,
      List.forall_mem_singleton.2 (by decide)⟩
  reads := by
    have object := isObject_jsonLine file path
    have only (text cs : List Char) : Quotes cs (Json.string text) ↔ cs = text :=
      ⟨fun quotes => quotes.unique (Json.quotes_string text),
        fun same => same ▸ Json.quotes_string cs⟩
    rw [String.toList_ofList]
    refine ⟨_, _, fun members => ⟨fun other => ?_, fun same => same ▸ object⟩, only _, only _⟩
    have same : jsonLine file path ++ [] = jsonLine file path ++ [] := rfl
    exact (other.unique object same).1

theorem resolve_of_aboutRecords (compiled : Pattern.ofTemplate template = .ok p)
    (about : AboutRecords yaml find inline metadata records) :
    resolve yaml find template "json" inline metadata =
      ⟨0, String.join (records.map (line .json p)), ""⟩ := by
  have ends := allOrNothing_resolve yaml find template "json" inline metadata
  unfold AboutRecords at about
  split at about
  · next none =>
    rw [about, (ends.alone none .json rfl p compiled).2]
    simp
  · next given =>
    exact (ends.json rfl p compiled given records (about.imp fun _ _ => load_eq_ok_iff.1)).2

/-- Every template and every list of files can be asked for in JSON, and a run that is prints a line
for each record, in order, of its file and its path. -/
theorem resolve_prints_json_lines (yaml : RecordReader ε) (find : String → Entry) :
    (∀ template paths, (∀ path ∈ paths, path ≠ "") → ∃ arguments,
      command ("resolve" :: arguments) = .ok (.resolve template "json" .blank paths)) ∧
    ∀ arguments template inline metadata p records,
      command ("resolve" :: arguments) = .ok (.resolve template "json" inline metadata) →
      Pattern.ofTemplate template = .ok p → AboutRecords yaml find inline metadata records →
      ∃ lines : List String, runWith yaml find ("resolve" :: arguments) =
          ⟨0, String.join (lines.map fun line => line ++ "\n"), ""⟩ ∧
        List.Forall₂ (fun r line => IsJsonLine r.file (p.resolve r) line) records lines := by
  refine ⟨fun template paths given => ⟨_, command_files given⟩, ?_⟩
  intro arguments template inline metadata p records accepted compiled about
  refine ⟨records.map fun r => String.ofList (jsonLine r.file (p.resolve r)), ?_, ?_⟩
  · rw [runWith_of_accepted yaml find accepted, resolve_of_aboutRecords compiled about, List.map_map,
      funext (line_json p)]
    rfl
  · rw [List.forall₂_map_right_iff, List.forall₂_same]
    exact fun r _ => isJsonLine_jsonLine r.file (p.resolve r)

/-- A file text with a line break and a quote, in the one line of its record. -/
theorem resolve_prints_json_lines_break :
    let find := Folder.find [("a.json", .text "\x7b\"file\":\"a\\n\\\"\",\"source\":\"s\"\x7d")]
    ∃ line, run find ["resolve", "--pattern={source}", "--output=json", "a.json"] =
      ⟨0, line ++ "\n", ""⟩ ∧ IsJsonLine "a\n\"" "S" line := by
  intro find
  let r : Record := { Record.blank with file := "a\n\"", source := "s" }
  let p : Pattern := ⟨"{source}", .path [.keyword "source"]⟩
  have accepted : command ["resolve", "--pattern={source}", "--output=json", "a.json"] =
      .ok (.resolve "{source}" "json" .blank ["a.json"]) := by decide +kernel
  have compiled : Pattern.ofTemplate "{source}" = .ok p := by decide +kernel
  have loaded : load Yaml.decodeRecord find "a.json" = .ok r := by decide +kernel
  have about : AboutRecords Yaml.decodeRecord find .blank ["a.json"] [r] := by
    rw [AboutRecords, if_neg (by decide)]
    exact .cons loaded .nil
  have path : p.resolve r = "S" := by decide +kernel
  obtain ⟨lines, printed, each⟩ :=
    (resolve_prints_json_lines Yaml.decodeRecord find).2 _ _ _ _ _ _ accepted compiled about
  cases each with
  | @cons _ line _ _ isLine none =>
    cases none
    rw [path] at isLine
    exact ⟨line, printed.trans (by simp), isLine⟩

end PathPattern.CommandLine
