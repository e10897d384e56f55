import PathPattern.CommandLine.Run
import PathPattern.Proofs.CommandLine.Telling
import PathPattern.Proofs.Json.RoundTrip

/-!
# Inline values and a record file say the same

Taking fields over from a record, in whatever order, ends in that record once every field in which
it differs from the blank one is taken (`Flag.foldl_take_eq`). So a record told by options and the
same record written to a JSON file lead to the same run, whatever reads YAML
(`run_inline_eq_run_file`).
-/

namespace PathPattern.CommandLine

variable {ε : Type} {yaml : RecordReader ε} {flags : List Flag} {template output path : String}
  {r base : Record} {find find' : String → Entry}

/-! ### Fields taken over -/

/-- The options of the fields in which a record differs from the blank one. -/
def told (r : Record) : List Flag :=
  [.file, .source, .model, .mime, .kind, .level, .acqTime].filter fun flag =>
    flag.take r .blank ≠ .blank

theorem Flag.take_take (flag : Flag) (r base : Record) :
    flag.take r (flag.take r base) = flag.take r base := by
  cases flag <;> rfl

theorem Flag.take_comm (flag other : Flag) (r base : Record) :
    flag.take r (other.take r base) = other.take r (flag.take r base) := by
  cases flag <;> cases other <;> rfl

theorem Flag.eq_of_take (all : ∀ flag : Flag, flag.take r base = base) : base = r := by
  have field {α : Type} (get : Record → α) (flag : Flag) : get (flag.take r base) = get base :=
    congrArg get (all flag)
  have file : r.file = base.file := field Record.file .file
  have source : r.source = base.source := field Record.source .source
  have model : r.model = base.model := field Record.model .model
  have mime : r.mime = base.mime := field Record.mime .mime
  have kind : r.kind = base.kind := field Record.kind .kind
  have level : r.level = base.level := field Record.level .level
  have acquired : r.acquired = base.acquired := field Record.acquired .acqTime
  cases r
  cases base
  simp_all

/-- What is taken over stays, so in the end nothing is left to take. -/
theorem Flag.foldl_take_eq (all : ∀ flag, flag ∈ flags ∨ flag.take r base = base) :
    flags.foldl (fun base flag => flag.take r base) base = r := by
  induction flags generalizing base with
  | nil => exact eq_of_take fun flag => (all flag).resolve_left List.not_mem_nil
  | cons first flags ih =>
    rw [List.foldl_cons]
    apply ih
    intro flag
    rcases all flag with mem | same
    · rcases List.mem_cons.1 mem with rfl | later
      · exact .inr (take_take flag r base)
      · exact .inl later
    · -- What already agrees with `r` is not lost by taking another field.
      right
      rw [take_comm, same]

/-! ### Commands -/

theorem nodup_told (r : Record) : (Flag.pattern :: Flag.output :: told r).Nodup := by
  have sub : (told r).Sublist [.file, .source, .model, .mime, .kind, .level, .acqTime] :=
    List.filter_sublist
  have more := (sub.cons_cons Flag.output).cons_cons Flag.pattern
  exact more.nodup (by decide)

/-- A time that is as in the blank record is settled. -/
theorem Flag.take_settled (flag : Flag) {r : Record} (same : flag.take r .blank = .blank) :
    flag.take r.settled .blank = .blank := by
  cases flag with
  | acqTime =>
    have time : r.acquired = .epoch := congrArg Record.acquired same
    rw [Record.settled, time]
    rfl
  | pattern | output | file | source | model | mime | kind | level => exact same

/-- A field that no option tells of is as in the blank record. -/
theorem mem_told_or (flag : Flag) (r : Record) :
    flag ∈ Flag.pattern :: Flag.output :: told r ∨ flag.take r.settled .blank = .blank := by
  by_cases same : flag.take r .blank = .blank
  · exact .inr (flag.take_settled same)
  · left
    cases flag <;> simp [told, same]

/-- The options that tell of a record make the command with that record, its time settled. -/
theorem command_told (order : flags.Perm (.pattern :: .output :: told r)) :
    command ("resolve" :: flags.map fun flag => flag.argument (flag.text template output r)) =
      .ok (.resolve template output r.settled []) := by
  have apart : flags.Nodup := order.nodup_iff.2 (nodup_told r)
  have pattern : .pattern ∈ flags := order.mem_iff.2 (by simp)
  have output' : .output ∈ flags := order.mem_iff.2 (by simp)
  have record : flags.foldl (fun base flag => flag.take r.settled base) .blank = r.settled :=
    Flag.foldl_take_eq fun flag => by
      rw [order.mem_iff]
      exact mem_told_or flag r
  have found := command_arguments template output r apart items_nil rfl
  rw [List.append_nil] at found
  rw [found]
  simp [Draft.command, Draft.tell, Draft.blank, pattern, output', record]

/-! ### Runs -/

theorem load_written (json : fileFormat path = .json)
    (content : find path = .text (String.ofList (Json.writeRecord r))) :
    load yaml find path = .ok r.settled := by
  have read := Json.decodeRecord_of_isWire (Json.isWire_writeRecord r)
  simp only [load, content, json, read]
  rfl

theorem resolve_eq_resolve_file (find find' : String → Entry) (template output : String)
    (loaded : load yaml find path = .ok r) :
    resolve yaml find' template output r [] = resolve yaml find template output .blank [path] := by
  have all : loadAll yaml find [path] = .ok [r] := by
    rw [loadAll, List.mapM_cons, loaded]
    rfl
  simp [resolve, resolvedLines, all]

/-- A record told by options and the record in a JSON file lead to the same run: the one for that
record alone, its time as a text tells it. -/
theorem run_inline_eq_run_file (yaml : RecordReader ε) (find find' : String → Entry)
    (template output : String)
    (order : flags.Perm (.pattern :: .output :: told r)) (operand : form path = .plain)
    (json : fileFormat path = .json)
    (content : find path = .text (String.ofList (Json.writeRecord r))) :
    runWith yaml find' ("resolve" :: flags.map fun flag =>
        flag.argument (flag.text template output r)) =
      runWith yaml find
        ["resolve", Flag.argument .pattern template, Flag.argument .output output, path] ∧
    runWith yaml find
        ["resolve", Flag.argument .pattern template, Flag.argument .output output, path] =
      resolve yaml find template output r.settled [] := by
  have named : path ≠ "" := by
    rintro rfl
    cases json
  have asked : command ["resolve", Flag.argument .pattern template, Flag.argument .output output,
      path] = .ok (.resolve template output .blank [path]) :=
    command_operands (items_operand operand) (by simpa using named)
  have loaded : load yaml find path = .ok r.settled := load_written json content
  rw [runWith, runWith, command_told order, asked]
  exact ⟨resolve_eq_resolve_file find find' template output loaded,
    (resolve_eq_resolve_file find find template output loaded).symm⟩

/-- Options in another order, an equals sign in a value, a negative level, a leap second. -/
theorem run_inline_leap_second :
    let r : Record := { Record.blank with
      model := "a=b", level := -5,
      acquired := ⟨-1, 1500000000, by decide, by decide, by decide⟩ }
    let find := Folder.find [("r.json", .text (String.ofList (Json.writeRecord r)))]
    let told := ["resolve", "--level=-5", "--pattern={model}/{level}/{second}", "--model=a=b",
      "--output=human", "--acq-time=1969-12-31T23:59:60.500Z"]
    run (fun _ => .missing) told = ⟨0, "A=B/-5/59\n", ""⟩ ∧
    run (fun _ => .missing) told =
      run find ["resolve", "--pattern={model}/{level}/{second}", "--output=human", "r.json"] := by
  intro r find told
  have order : [Flag.level, .pattern, .model, .output, .acqTime].Perm
      (.pattern :: .output :: CommandLine.told r) := by decide +kernel
  obtain ⟨same, -⟩ := run_inline_eq_run_file Yaml.decodeRecord find (fun _ => .missing)
    "{model}/{level}/{second}" "human" order (show form "r.json" = .plain by decide +kernel)
    (by decide +kernel) (by decide +kernel)
  have arguments : ("resolve" :: [Flag.level, .pattern, .model, .output, .acqTime].map fun flag =>
      flag.argument (flag.text "{model}/{level}/{second}" "human" r)) = told := by decide +kernel
  have pattern : Flag.argument .pattern "{model}/{level}/{second}" =
      "--pattern={model}/{level}/{second}" := by decide +kernel
  have output : Flag.argument .output "human" = "--output=human" := by decide +kernel
  rw [arguments, pattern, output] at same
  exact ⟨by decide +kernel, same⟩

end PathPattern.CommandLine
