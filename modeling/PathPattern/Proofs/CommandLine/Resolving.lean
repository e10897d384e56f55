import Mathlib.Data.List.Forall2
import PathPattern.CommandLine.Run
import PathPattern.Proofs.CommandLine.Telling

/-!
# A run of `resolve` prints all paths or none

The output text, the template and the metadata files are looked at in this order, the files one
after another, and the first that is wrong decides how the run ends (`AllOrNothing`). A file is wrong
in one of five ways (`Fails`), and what it is wrong in is told down to the fault of its text. All that
a run takes from its command line besides are the values of the inline record, and those are not
looked at once a metadata file is given. All of this is so whatever reads YAML.
-/

namespace PathPattern.CommandLine

variable {ε : Type} {yaml : RecordReader ε} {find : String → Entry}
  {arguments arguments' : List String} {template template' output output' path heading : String}
  {inline inline' r : Record} {metadata metadata' paths : List String} {records : List Record}
  {fault : LoadFault ε}

/-! ### Metadata files -/

/-- A metadata file holds the text of a record, in JSON or in YAML by its name. -/
inductive Loads (yaml : RecordReader ε) (find : String → Entry) (path : String) : Record → Prop where
  | json {content : String} {r : Record} (holds : find path = .text content)
    (format : fileFormat path = .json) (reads : Json.decodeRecord content = .ok r) :
    Loads yaml find path r
  | yaml {content : String} {r : Record} (holds : find path = .text content)
    (format : fileFormat path = .yaml) (reads : yaml content = .ok r) : Loads yaml find path r

/-- A metadata file gives no record: what it is wrong in, and the heading under which that is
reported. -/
inductive Fails (yaml : RecordReader ε) (find : String → Entry) (path : String) :
    LoadFault ε → String → Prop where
  | notFound (missing : find path = .missing) : Fails yaml find path (.notFound path)
      ("Metadata file not found: " ++ path ++ "\nPlease check the file path and try again.")
  | notOpened (directory : find path = .directory) : Fails yaml find path (.unreadable path .notOpened)
      ("Failed to read metadata file: " ++ path ++ "\nPlease check file permissions.")
  | notText (binary : find path = .binary) : Fails yaml find path (.unreadable path .notText)
      ("Failed to read metadata file: " ++ path ++ "\nPlease check file permissions.")
  | json {content : String} {cause : Json.Fault} (holds : find path = .text content)
    (format : fileFormat path = .json) (faulty : Json.decodeRecord content = .error cause) :
    Fails yaml find path (.json path cause) ("Failed to parse JSON metadata from: " ++ path)
  | yaml {content : String} {cause : ε} (holds : find path = .text content)
    (format : fileFormat path = .yaml) (faulty : yaml content = .error cause) :
    Fails yaml find path (.yaml path cause) ("Failed to parse YAML metadata from: " ++ path)

theorem Loads.load_eq (loads : Loads yaml find path r) : load yaml find path = .ok r := by
  cases loads with
  | json holds format reads =>
    simp only [load, holds, format, reads]
    rfl
  | yaml holds format reads =>
    simp only [load, holds, format, reads]
    rfl

theorem Fails.load_eq (fails : Fails yaml find path fault heading) :
    load yaml find path = .error fault := by
  cases fails with
  | notFound entry | notOpened entry | notText entry => simp only [load, entry]
  | json holds format faulty =>
    simp only [load, holds, format, faulty]
    rfl
  | yaml holds format faulty =>
    simp only [load, holds, format, faulty]
    rfl

theorem Fails.heading_eq (fails : Fails yaml find path fault heading) : fault.message = heading := by
  cases fails <;> rfl

/-- Each file gives a record or is wrong in one of these ways. -/
theorem loads_or_fails (yaml : RecordReader ε) (find : String → Entry) (path : String) :
    (∃ r, Loads yaml find path r) ∨ ∃ fault heading, Fails yaml find path fault heading := by
  cases entry : find path with
  | missing => exact .inr ⟨_, _, .notFound entry⟩
  | directory => exact .inr ⟨_, _, .notOpened entry⟩
  | binary => exact .inr ⟨_, _, .notText entry⟩
  | text content =>
    cases format : fileFormat path with
    | json =>
      cases read : Json.decodeRecord content with
      | ok r => exact .inl ⟨r, .json entry format read⟩
      | error cause => exact .inr ⟨_, _, .json entry format read⟩
    | yaml =>
      cases read : yaml content with
      | ok r => exact .inl ⟨r, .yaml entry format read⟩
      | error cause => exact .inr ⟨_, _, .yaml entry format read⟩

theorem load_eq_ok_iff : load yaml find path = .ok r ↔ Loads yaml find path r := by
  refine ⟨fun loaded => ?_, Loads.load_eq⟩
  rcases loads_or_fails yaml find path with ⟨r', loads⟩ | ⟨fault, heading, fails⟩
  · rw [loads.load_eq, Except.ok.injEq] at loaded
    exact loaded ▸ loads
  · rw [fails.load_eq] at loaded
    cases loaded

theorem loadAll_cons (yaml : RecordReader ε) (find : String → Entry) (path : String)
    (paths : List String) : loadAll yaml find (path :: paths) =
      load yaml find path >>= fun r => loadAll yaml find paths >>= fun records =>
        .ok (r :: records) :=
  List.mapM_cons

theorem loadAll_eq_ok (each : List.Forall₂ (Loads yaml find) paths records) :
    loadAll yaml find paths = .ok records := by
  induction each with
  | nil => rfl
  | cons first _ ih =>
    rw [loadAll_cons, first.load_eq, ih]
    rfl

/-- The first file that gives no record is the one whose fault counts. -/
theorem loadAll_eq_error {before after : List String}
    (good : ∀ path ∈ before, ∃ r, Loads yaml find path r)
    (bad : Fails yaml find path fault heading) :
    loadAll yaml find (before ++ path :: after) = .error fault := by
  induction before with
  | nil =>
    rw [List.nil_append, loadAll_cons, bad.load_eq]
    rfl
  | cons first before ih =>
    obtain ⟨⟨r, loads⟩, more⟩ := List.forall_mem_cons.1 good
    rw [List.cons_append, loadAll_cons, loads.load_eq, ih more]
    rfl

/-- If a file gives no record, then one is the first to do so. -/
theorem exists_first_fault (mem : path ∈ paths) (bad : Fails yaml find path fault heading) :
    ∃ before first after fault' heading', paths = before ++ first :: after ∧
      (∀ path ∈ before, ∃ r, Loads yaml find path r) ∧ Fails yaml find first fault' heading' := by
  induction paths with
  | nil => cases mem
  | cons next paths ih =>
    rcases loads_or_fails yaml find next with ⟨r, loads⟩ | ⟨fault', heading', fails⟩
    · have later : path ∈ paths := by
        rcases List.mem_cons.1 mem with rfl | later
        · have both := bad.load_eq
          rw [loads.load_eq] at both
          cases both
        · exact later
      obtain ⟨before, first, after, fault', heading', rfl, good, failed⟩ := ih later
      exact ⟨next :: before, first, after, fault', heading', rfl,
        List.forall_mem_cons.2 ⟨⟨r, loads⟩, good⟩, failed⟩
    · exact ⟨[], next, paths, fault', heading', rfl, by simp, fails⟩

/-! ### How a run ends -/

/-- How `resolve` ends, in what it answers and in what it leaves behind: the first thing that is wrong
decides, and only if nothing is wrong there is output, one entry for each record. -/
structure AllOrNothing (yaml : RecordReader ε) (find : String → Entry) (template output : String)
    (inline : Record) (metadata : List String) (answer : Except (Failure ε) (List String))
    (o : Outcome) : Prop where
  /-- The output text is looked at first. -/
  wrongOutput : output ≠ "human" → output ≠ "json" → answer = .error (.output output) ∧
    o = ⟨1, "", "Error: Unsupported output format: " ++ output ++ ". Use human or json.\n"⟩
  /-- The template is looked at before any file. -/
  wrongTemplate : output = "human" ∨ output = "json" →
    ∀ fault, Pattern.ofTemplate template = .error fault → answer = .error (.template template fault) ∧
      o = ⟨2, "", "Invalid pattern '" ++ template ++ "': " ++ fault.message ++ "\n"⟩
  /-- One wrong file is enough for no output; the first one is reported, with its own fault. -/
  wrongFile : output = "human" ∨ output = "json" → ∀ p, Pattern.ofTemplate template = .ok p →
    ∀ path ∈ metadata, ∀ fault heading, Fails yaml find path fault heading →
      ∃ before first after fault' heading', metadata = before ++ first :: after ∧
        (∀ path ∈ before, ∃ r, Loads yaml find path r) ∧ Fails yaml find first fault' heading' ∧
        answer = .error (.file fault') ∧ o = ⟨1, "", "Error: " ++ heading' ++ "\n"⟩
  /-- The paths of the files' records in order. -/
  human : output = "human" → ∀ p, Pattern.ofTemplate template = .ok p → metadata ≠ [] →
    ∀ records, List.Forall₂ (Loads yaml find) metadata records →
      answer = .ok (records.map fun r => p.resolve r ++ "\n") ∧
        o = ⟨0, String.join (records.map fun r => p.resolve r ++ "\n"), ""⟩
  /-- The same as JSON, with the file that each record is about. -/
  json : output = "json" → ∀ p, Pattern.ofTemplate template = .ok p → metadata ≠ [] →
    ∀ records, List.Forall₂ (Loads yaml find) metadata records →
      answer = .ok (records.map (line .json p)) ∧
        o = ⟨0, String.join (records.map (line .json p)), ""⟩
  /-- Without metadata files the one record is the inline one. -/
  alone : metadata = [] → ∀ format, Format.ofName? output = some format →
    ∀ p, Pattern.ofTemplate template = .ok p →
      answer = .ok [line format p inline] ∧ o = ⟨0, line format p inline, ""⟩

theorem Format.ofName?_eq_none (notHuman : output ≠ "human") (notJson : output ≠ "json") :
    Format.ofName? output = none := by
  unfold ofName?
  split
  · exact absurd rfl notHuman
  · exact absurd rfl notJson
  · rfl

theorem Format.exists_ofName? (known : output = "human" ∨ output = "json") :
    ∃ format, Format.ofName? output = some format := by
  rcases known with rfl | rfl
  · exact ⟨human, rfl⟩
  · exact ⟨json, rfl⟩

theorem resolve_of_error {failure : Failure ε}
    (answer : resolvedLines yaml find template output inline metadata = .error failure) :
    resolve yaml find template output inline metadata = failure.outcome := by
  rw [resolve, answer]

theorem resolve_of_ok {lines : List String}
    (answer : resolvedLines yaml find template output inline metadata = .ok lines) :
    resolve yaml find template output inline metadata = ⟨0, String.join lines, ""⟩ := by
  rw [resolve, answer]

theorem resolvedLines_of_records (inline : Record) {format : Format} {p : Pattern}
    (name : Format.ofName? output = some format) (compiled : Pattern.ofTemplate template = .ok p)
    (given : metadata ≠ []) (each : List.Forall₂ (Loads yaml find) metadata records) :
    resolvedLines yaml find template output inline metadata =
      .ok (records.map (line format p)) := by
  simp only [resolvedLines, name, compiled, if_neg given, loadAll_eq_ok each]

theorem allOrNothing_resolve (yaml : RecordReader ε) (find : String → Entry)
    (template output : String) (inline : Record) (metadata : List String) :
    AllOrNothing yaml find template output inline metadata
      (resolvedLines yaml find template output inline metadata)
      (resolve yaml find template output inline metadata) where
  wrongOutput notHuman notJson := by
    have answer : resolvedLines yaml find template output inline metadata =
        .error (.output output) := by
      rw [resolvedLines, Format.ofName?_eq_none notHuman notJson]
    refine ⟨answer, (resolve_of_error answer).trans ?_⟩
    simp [Failure.outcome, Outcome.failed, String.append_assoc]
  wrongTemplate known fault wrong := by
    obtain ⟨format, name⟩ := Format.exists_ofName? known
    have answer : resolvedLines yaml find template output inline metadata =
        .error (.template template fault) := by
      simp only [resolvedLines, name, wrong]
    exact ⟨answer, resolve_of_error answer⟩
  wrongFile known p compiled path mem fault heading bad := by
    obtain ⟨format, name⟩ := Format.exists_ofName? known
    obtain ⟨before, first, after, fault', heading', rfl, good, failed⟩ := exists_first_fault mem bad
    have answer : resolvedLines yaml find template output inline (before ++ first :: after) =
        .error (.file fault') := by
      simp only [resolvedLines, name, compiled, List.append_eq_nil_iff, reduceCtorEq, and_false,
        if_false, loadAll_eq_error good failed]
    refine ⟨before, first, after, fault', heading', rfl, good, failed, answer, ?_⟩
    rw [resolve_of_error answer, ← failed.heading_eq]
    rfl
  human := by
    rintro rfl p compiled given records each
    have name : Format.ofName? "human" = some .human := rfl
    have answer := resolvedLines_of_records inline name compiled given each
    exact ⟨answer, resolve_of_ok answer⟩
  json := by
    rintro rfl p compiled given records each
    have name : Format.ofName? "json" = some .json := rfl
    have answer := resolvedLines_of_records inline name compiled given each
    exact ⟨answer, resolve_of_ok answer⟩
  alone := by
    rintro rfl format name p compiled
    have answer : resolvedLines yaml find template output inline [] = .ok [line format p inline] := by
      simp [resolvedLines, name, compiled]
    refine ⟨answer, (resolve_of_ok answer).trans ?_⟩
    simp

/-! ### Command lines -/

/-- The items of the arguments behind `resolve`. -/
def resolveItems (arguments : List String) : List Item := (items .resolve arguments).1

/-- What an accepted command line of `resolve` asks for: a template given once, an output text
given at most once, and the operands in order. -/
structure Asks (arguments : List String) (template output : String) (metadata : List String) :
    Prop where
  complete : (items .resolve arguments).2 = .complete
  template : values .pattern (resolveItems arguments) = [template]
  output : values .output (resolveItems arguments) = [output] ∨
    values .output (resolveItems arguments) = [] ∧ output = "human"
  metadata : operands (resolveItems arguments) = metadata

theorem Draft.command_eq_resolve {d : Draft}
    (h : d.command .resolve = .ok (.resolve template output inline metadata)) :
    some .pattern ∈ d.given ∧ d.template = template ∧ d.output = output ∧ d.record = inline ∧
      d.metadata = metadata := by
  unfold Draft.command at h
  split at h
  · split at h <;> cases h
  split at h
  · cases h
  next given =>
  obtain ⟨rfl, rfl, rfl, rfl⟩ := Command.resolve.inj (Except.ok.inj h)
  exact ⟨Decidable.not_not.1 given, rfl, rfl, rfl, rfl⟩

theorem subcommand_eq_resolve
    (h : subcommand .resolve arguments = .ok (.resolve template output inline metadata)) :
    ∃ d, (items .resolve arguments).2 = .complete ∧
      (resolveItems arguments).foldlM Draft.settle .blank = .ok d ∧
      d.command .resolve = .ok (.resolve template output inline metadata) := by
  unfold subcommand at h
  unfold resolveItems
  split at h
  · next its shape =>
    obtain ⟨d, settled, finished⟩ := exists_of_bind_eq_ok h
    rw [shape]
    exact ⟨d, rfl, settled, finished⟩
  · next its shape =>
    cases settled : its.foldlM Draft.settle .blank <;> simp [settled, Except.map] at h
  · next its fault shape =>
    obtain ⟨d, -, refused⟩ := exists_of_bind_eq_ok h
    cases refused

theorem asks_of_accepted
    (accepted : command ("resolve" :: arguments) = .ok (.resolve template output inline metadata)) :
    Asks arguments template output metadata := by
  obtain ⟨d, complete, settled, finished⟩ := subcommand_eq_resolve accepted
  obtain ⟨given, rfl, rfl, -, rfl⟩ := Draft.command_eq_resolve finished
  have settles := Draft.settles_of_foldlM settled
  have once (flag : Flag) : (values flag (resolveItems arguments)).length ≤ 1 := by
    have low := settles.once flag (by simp [Draft.blank])
    have count := settles.given flag
    omega
  have some : 0 < (values .pattern (resolveItems arguments)).length := by
    have there : 0 < d.given.count (some .pattern) := List.count_pos_iff.2 given
    have count := settles.given .pattern
    have blank : Draft.blank.given.count (some Flag.pattern) = 0 := rfl
    omega
  refine ⟨complete, ?_, ?_, ?_⟩
  · obtain ⟨text, shape⟩ : ∃ text, values .pattern (resolveItems arguments) = [text] :=
      List.length_eq_one_iff.1 (by have := once .pattern; omega)
    have template := settles.template
    rw [shape] at template
    rw [shape, template]
    rfl
  · have output := settles.output
    cases shape : values .output (resolveItems arguments) with
    | nil =>
      rw [shape] at output
      exact .inr ⟨rfl, output⟩
    | cons text more =>
      have alone : more = [] := by
        have low := once .output
        rw [shape, List.length_cons] at low
        exact List.length_eq_zero_iff.1 (by omega)
      rw [shape, alone] at output
      rw [alone, output]
      exact .inl rfl
  · exact settles.metadata.symm

/-! ### Inline values -/

/-- An option of the inline record. -/
def Flag.isInline : Flag → Bool
  | .pattern => false
  | .output => false
  | _ => true

/-- The item is an option of the inline record. -/
def Item.isInline : Item → Bool
  | .attached flag _ => flag.isInline
  | .apart flag _ => flag.isInline
  | .operand _ => false

/-- The items behind `resolve` that are no options of the inline record. -/
def essentials (arguments : List String) : List Item :=
  (resolveItems arguments).filter fun item => !item.isInline

theorem values_filter {flag : Flag} (apart : flag.isInline = false) (items : List Item) :
    values flag (items.filter fun item => !item.isInline) = values flag items := by
  rw [values, values, List.filterMap_filter]
  congr 1
  funext item
  cases item with
  | attached given value => by_cases same : given = flag <;> simp_all [Item.valueFor, Item.isInline]
  | apart given value => by_cases same : given = flag <;> simp_all [Item.valueFor, Item.isInline]
  | operand text => rfl

theorem operands_filter (items : List Item) :
    operands (items.filter fun item => !item.isInline) = operands items := by
  rw [operands, operands, List.filterMap_filter]
  congr 1
  funext item
  cases item <;> simp [Item.operand?, Item.isInline]

theorem Asks.unique (asks : Asks arguments template output metadata)
    (asks' : Asks arguments' template' output' metadata')
    (same : essentials arguments = essentials arguments') :
    template = template' ∧ output = output' ∧ metadata = metadata' := by
  have values_eq (flag : Flag) (apart : flag.isInline = false) :
      values flag (resolveItems arguments) = values flag (resolveItems arguments') := by
    rw [← values_filter apart, ← values_filter apart (resolveItems arguments')]
    exact congrArg (values flag) same
  have operands_eq : operands (resolveItems arguments) = operands (resolveItems arguments') := by
    rw [← operands_filter, ← operands_filter (resolveItems arguments')]
    exact congrArg operands same
  refine ⟨?_, ?_, ?_⟩
  · have texts := values_eq .pattern rfl
    rw [asks.template, asks'.template] at texts
    exact (List.cons.inj texts).1
  · have texts := values_eq .output rfl
    rcases asks.output with one | ⟨none, rfl⟩
    · rcases asks'.output with one' | ⟨none', rfl⟩
      · rw [one, one'] at texts
        exact (List.cons.inj texts).1
      · rw [one, none'] at texts
        cases texts
    · rcases asks'.output with one' | ⟨none', rfl⟩
      · rw [none, one'] at texts
        cases texts
      · rfl
  · rw [← asks.metadata, ← asks'.metadata, operands_eq]

theorem runWith_of_accepted (yaml : RecordReader ε) (find : String → Entry)
    (accepted : command arguments = .ok (.resolve template output inline metadata)) :
    runWith yaml find arguments = resolve yaml find template output inline metadata := by
  rw [runWith, accepted]

theorem resolve_inline (yaml : RecordReader ε) (find : String → Entry) (template output : String)
    (inline inline' : Record) (given : metadata ≠ []) :
    resolve yaml find template output inline metadata =
      resolve yaml find template output inline' metadata := by
  simp only [resolve, resolvedLines, if_neg given]

/-- Every template, output text and list of files can be asked for. A run of `resolve` that is
accepted prints an entry for each record, or nothing because of the first thing that is wrong; and
two such runs that differ by inline values only are the same as soon as there is a metadata file. -/
theorem resolve_all_or_nothing (yaml : RecordReader ε) (find : String → Entry) :
    (∀ template output paths, (∀ path ∈ paths, path ≠ "") → ∃ arguments,
      command ("resolve" :: arguments) = .ok (.resolve template output .blank paths)) ∧
    (∀ path, (∃ r, Loads yaml find path r) ∨
      ∃ fault heading, Fails yaml find path fault heading) ∧
    ∀ arguments template output inline metadata,
      command ("resolve" :: arguments) = .ok (.resolve template output inline metadata) →
      Asks arguments template output metadata ∧
      AllOrNothing yaml find template output inline metadata
        (resolvedLines yaml find template output inline metadata)
        (runWith yaml find ("resolve" :: arguments)) ∧
      ∀ arguments' template' output' inline' metadata',
        command ("resolve" :: arguments') = .ok (.resolve template' output' inline' metadata') →
        essentials arguments' = essentials arguments → metadata ≠ [] →
        runWith yaml find ("resolve" :: arguments') = runWith yaml find ("resolve" :: arguments) := by
  refine ⟨fun template output paths given => ⟨_, command_files given⟩, loads_or_fails yaml find, ?_⟩
  intro arguments template output inline metadata accepted
  have asks := asks_of_accepted accepted
  refine ⟨asks, ?_, ?_⟩
  · rw [runWith_of_accepted yaml find accepted]
    exact allOrNothing_resolve yaml find template output inline metadata
  · intro arguments' template' output' inline' metadata' accepted' same given
    have asks' := asks_of_accepted accepted'
    obtain ⟨rfl, rfl, rfl⟩ := asks'.unique asks same
    rw [runWith_of_accepted yaml find accepted, runWith_of_accepted yaml find accepted']
    exact resolve_inline yaml find _ _ _ _ given

/-- Two good files, and one with a word as its level. -/
def threeFiles : String → Entry :=
  Folder.find [("a.json", .text "[\"bus\"]"), ("b.json", .text "[\"unit\"]"),
    ("c.json", .text "\x7b\"level\":\"x\"\x7d")]

/-- Good files, one of them twice, and an inline source that nothing shows; a wrong file between a good
one and one that is not there; a wrong template before that; and a wrong output text before both. -/
theorem resolve_all_or_nothing_threeFiles :
    (run threeFiles ["resolve", "--pattern={source}", "b.json", "a.json", "b.json"] =
        ⟨0, "Unit\nBus\nUnit\n", ""⟩ ∧
      run threeFiles ["resolve", "--source=s", "--pattern={source}", "b.json", "a.json", "b.json"] =
        run threeFiles ["resolve", "--pattern={source}", "b.json", "a.json", "b.json"]) ∧
    (resolvedLines Yaml.decodeRecord threeFiles "{0}" "human" .blank ["a.json", "c.json", "d.yaml"] =
        .error (.file (.json "c.json" (.refused "level" (.wrongType (.text "x") .integer)))) ∧
      run threeFiles ["resolve", "--pattern={0}", "a.json", "c.json", "d.yaml"] =
        ⟨1, "", "Error: Failed to parse JSON metadata from: c.json\n"⟩) ∧
    run threeFiles ["resolve", "--pattern=\x7b0", "d.yaml"] =
      ⟨2, "", "Invalid pattern '\x7b0': missing closing delimiter for '\x7b' at offset 0 in '\x7b0'\n"⟩ ∧
    run threeFiles ["resolve", "--pattern=\x7b0", "--output=xml", "d.yaml"] =
      ⟨1, "", "Error: Unsupported output format: xml. Use human or json.\n"⟩ := by
  have all := (resolve_all_or_nothing Yaml.decodeRecord threeFiles).2.2
  have first : Loads Yaml.decodeRecord threeFiles "a.json" { Record.blank with source := "bus" } :=
    .json (show threeFiles _ = .text "[\"bus\"]" by decide +kernel) (by decide +kernel)
      (by decide +kernel)
  have second : Loads Yaml.decodeRecord threeFiles "b.json" { Record.blank with source := "unit" } :=
    .json (show threeFiles _ = .text "[\"unit\"]" by decide +kernel) (by decide +kernel)
      (by decide +kernel)
  have third : Fails Yaml.decodeRecord threeFiles "c.json" (.json "c.json" (.refused "level"
      (.wrongType (.text "x") .integer))) "Failed to parse JSON metadata from: c.json" :=
    .json (show threeFiles _ = .text "\x7b\"level\":\"x\"\x7d" by decide +kernel)
      (by decide +kernel) (by decide +kernel)
  refine ⟨?_, ?_, ?_, ?_⟩
  · obtain ⟨-, ends, same⟩ := all ["--pattern={source}", "b.json", "a.json", "b.json"] "{source}"
      "human" .blank ["b.json", "a.json", "b.json"] (by decide +kernel)
    have compiled : Pattern.ofTemplate "{source}" = .ok ⟨"{source}", .path [.keyword "source"]⟩ := by
      decide +kernel
    obtain ⟨-, printed⟩ := ends.human rfl _ compiled (by decide) _
      (.cons second (.cons first (.cons second .nil)))
    exact ⟨printed.trans (by decide +kernel),
      same ["--source=s", "--pattern={source}", "b.json", "a.json", "b.json"] "{source}" "human"
        { Record.blank with source := "s" } ["b.json", "a.json", "b.json"] (by decide +kernel)
        (by decide +kernel) (by decide)⟩
  · obtain ⟨-, ends, -⟩ := all ["--pattern={0}", "a.json", "c.json", "d.yaml"] "{0}" "human" .blank
      ["a.json", "c.json", "d.yaml"] (by decide +kernel)
    have compiled : Pattern.ofTemplate "{0}" = .ok ⟨"{0}", .path [.index 0]⟩ := by decide +kernel
    obtain ⟨before, path, after, fault, heading, shape, good, fails, answer, printed⟩ :=
      ends.wrongFile (.inl rfl) _ compiled "c.json" (by decide) _ _ third
    -- Files with a first fault have one fault, so it is the one of the second file.
    have here : loadAll Yaml.decodeRecord threeFiles (["a.json"] ++ "c.json" :: ["d.yaml"]) = _ :=
      loadAll_eq_error (List.forall_mem_singleton.2 ⟨_, first⟩) third
    have there : loadAll Yaml.decodeRecord threeFiles (before ++ path :: after) = _ :=
      loadAll_eq_error good fails
    rw [← shape] at there
    cases here.symm.trans there
    refine ⟨answer, printed.trans ?_⟩
    rw [← fails.heading_eq, third.heading_eq]
    decide +kernel
  · obtain ⟨-, ends, -⟩ := all ["--pattern=\x7b0", "d.yaml"] "\x7b0" "human" .blank ["d.yaml"]
      (by decide +kernel)
    obtain ⟨-, printed⟩ := ends.wrongTemplate (.inl rfl) (.missingClosingDelimiter "\x7b0" 0)
      (by decide +kernel)
    exact printed.trans (by decide +kernel)
  · obtain ⟨-, ends, -⟩ := all ["--pattern=\x7b0", "--output=xml", "d.yaml"] "\x7b0" "xml" .blank
      ["d.yaml"] (by decide +kernel)
    exact (ends.wrongOutput (by decide) (by decide)).2

end PathPattern.CommandLine
