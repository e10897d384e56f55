import PathPattern.Proofs.CommandLine.Settling
import PathPattern.Proofs.Time.Rfc3339

/-!
# Command lines that are accepted

An option whose value stands in the same argument gets exactly that value (`form_argument`), so
options that tell of a record settle to it, one field after another (`Draft.foldlM_attached`), and
whatever operands stand behind them are the metadata files (`command_operands`). For every template,
output text and list of files there is a command line that asks for them (`command_files`).
-/

namespace PathPattern.CommandLine

variable {flag : Flag} {flags : List Flag} {template output path : String} {r base : Record}
  {d : Draft} {arguments paths : List String} {its : List Item}

/-! ### Arguments with a value -/

/-- The argument that gives a value to an option. -/
def Flag.argument (flag : Flag) (value : String) : String := "--" ++ flag.name ++ "=" ++ value

theorem form_argument (flag : Flag) (value : String) :
    form (flag.argument value) = .long flag.name (some value) := by
  have shape : (flag.argument value).toList =
      '-' :: '-' :: (flag.name.toList ++ '=' :: value.toList) := by
    simp [Flag.argument]
  have checked : flag.name.toList.all (· != '=') = true := by
    cases flag <;> decide
  have plain : ∀ c ∈ flag.name.toList, (c != '=') = true := List.all_eq_true.1 checked
  have name : (flag.name.toList ++ '=' :: value.toList).takeWhile (· != '=') =
      flag.name.toList := by
    rw [List.takeWhile_append_of_pos plain]
    simp
  have rest : (flag.name.toList ++ '=' :: value.toList).dropWhile (· != '=') =
      '=' :: value.toList := by
    rw [List.dropWhile_append_of_pos plain]
    simp
  unfold form
  rw [shape]
  split
  · next same => simp at same
  · next same =>
    obtain rfl := (List.cons.inj (List.cons.inj same).2).2
    simp only [name, rest, String.ofList_toList]
  · next long same =>
    obtain ⟨rfl, rfl⟩ := List.cons.inj (List.cons.inj same).2
    exact (long rfl).elim
  · next long _ => exact (long _ rfl).elim

theorem option?_resolve (flag : Flag) (value : Option String) :
    option? .resolve flag.name value = .ok (flag, value) := by
  have found : Subcommand.flag? .resolve flag.name = some flag := by
    cases flag <;> decide
  simp only [option?, found]

theorem items_argument (flag : Flag) (value : String) (rest : List String) :
    items .resolve (flag.argument value :: rest) =
      (.attached flag value :: (items .resolve rest).1, (items .resolve rest).2) := by
  rw [items]
  simp only [form_argument, option?_resolve, optionItem]

theorem items_arguments (text : Flag → String) (flags : List Flag) (rest : List String) :
    items .resolve (flags.map (fun flag => flag.argument (text flag)) ++ rest) =
      (flags.map (fun flag => .attached flag (text flag)) ++ (items .resolve rest).1,
        (items .resolve rest).2) := by
  induction flags with
  | nil => rfl
  | cons flag flags ih => simp only [List.map_cons, List.cons_append, items_argument, ih]

/-! ### Operands -/

theorem items_nil : items .resolve [] = ([], .complete) := by rw [items]

theorem items_operand (operand : form path = .plain) :
    items .resolve [path] = ([.operand path], .complete) := by
  rw [items]
  simp [operand, items_nil]

theorem operandItems_resolve (paths : List String) :
    operandItems .resolve paths = (paths.map .operand, .complete) := by
  induction paths with
  | nil => rfl
  | cons path paths ih => simp only [operandItems, ih, List.map_cons]

/-- Behind two dashes alone every argument is an operand. -/
theorem items_separator (paths : List String) :
    items .resolve ("--" :: paths) = (paths.map .operand, .complete) := by
  have separator : form "--" = .separator := by decide
  rw [items]
  simp [separator, operandItems_resolve]

/-- A draft that has more metadata files than another and is like it otherwise. -/
structure Draft.Adds (paths : List String) (d d' : Draft) : Prop where
  options (flag : Flag) : some flag ∈ d'.given ↔ some flag ∈ d.given
  template : d'.template = d.template
  output : d'.output = d.output
  record : d'.record = d.record
  metadata : d'.metadata = d.metadata ++ paths

theorem Draft.exists_adds_operand (d : Draft) (given : path ≠ "") :
    ∃ d', d.settle (.operand path) = .ok d' ∧ Adds [path] d d' := by
  rw [settle, if_neg given]
  refine ⟨_, rfl, fun flag => ?_, rfl, rfl, rfl, rfl⟩
  by_cases before : none ∈ d.given <;> simp [before]

theorem Draft.exists_adds_operands (d : Draft) (given : ∀ path ∈ paths, path ≠ "") :
    ∃ d', (paths.map Item.operand).foldlM settle d = .ok d' ∧ Adds paths d d' := by
  induction paths generalizing d with
  | nil => exact ⟨d, rfl, fun _ => Iff.rfl, rfl, rfl, rfl, by simp⟩
  | cons path paths ih =>
    obtain ⟨first, more⟩ := List.forall_mem_cons.1 given
    obtain ⟨next, taken, one⟩ := d.exists_adds_operand first
    obtain ⟨d', settled, rest⟩ := ih next more
    refine ⟨d', ?_, fun flag => ?_, ?_, ?_, ?_, ?_⟩
    · rw [List.map_cons, List.foldlM_cons, taken]
      exact settled
    · rw [rest.options, one.options]
    · rw [rest.template, one.template]
    · rw [rest.output, one.output]
    · rw [rest.record, one.record]
    · rw [rest.metadata, one.metadata, List.append_assoc, List.singleton_append]

/-! ### Values that settle -/

/-- The record with the field of an option taken over from another record. -/
def Flag.take (flag : Flag) (r base : Record) : Record :=
  match flag with
  | .pattern => base
  | .output => base
  | .file => { base with file := r.file }
  | .source => { base with source := r.source }
  | .model => { base with model := r.model }
  | .mime => { base with mime := r.mime }
  | .kind => { base with kind := r.kind }
  | .level => { base with level := r.level }
  | .acqTime => { base with acquired := r.acquired }

/-- The text that tells what a command line gets from an option. -/
def Flag.text (template output : String) (r : Record) : Flag → String
  | .pattern => template
  | .output => output
  | .file => r.file
  | .source => r.source
  | .model => r.model
  | .mime => r.mime
  | .kind => r.kind
  | .level => Integer.text r.level
  | .acqTime => String.ofList (Rfc3339.write r.acquired)

/-- What is told is read back, the time as it is settled. -/
theorem Flag.puts_text (flag : Flag) (template output : String) (r base : Record) :
    flag.Puts (flag.text template output r) base (flag.take r.settled base) := by
  cases flag with
  | level =>
    apply Puts.level
    rw [text, Integer.text, String.toList_ofList]
    exact Integer.read_eq_ok_iff.2 (Integer.numeral_signedDecimal _)
  | acqTime =>
    apply Puts.acqTime
    rw [text, String.toList_ofList]
    exact Rfc3339.read_write _
  | pattern | output | file | source | model | mime | kind => constructor

/-- The draft with options settled that tell of a record. -/
def Draft.tell (d : Draft) (flags : List Flag) (template output : String) (r : Record) :
    Draft where
  given := d.given ++ flags.map some
  template := if .pattern ∈ flags then template else d.template
  output := if .output ∈ flags then output else d.output
  record := flags.foldl (fun base flag => flag.take r.settled base) d.record
  metadata := d.metadata

theorem Draft.tell_cons (d : Draft) (flag : Flag) (flags : List Flag) (template output : String)
    (r : Record) :
    (d.give flag (flag.text template output r) (flag.take r.settled d.record)).tell flags template
      output r = d.tell (flag :: flags) template output r := by
  simp only [tell, give, Draft.mk.injEq, List.map_cons, List.append_assoc, List.singleton_append,
    List.mem_cons, List.foldl_cons, true_and, and_true]
  constructor
  · by_cases same : flag = .pattern
    · simp [same, Flag.text]
    · simp [same, Ne.symm same]
  · by_cases same : flag = .output
    · simp [same, Flag.text]
    · simp [same, Ne.symm same]

/-- Options that are not given yet settle one after another, each with its field of the record. -/
theorem Draft.foldlM_attached (template output : String) (r : Record) (apart : flags.Nodup)
    (fresh : ∀ flag ∈ flags, some flag ∉ d.given) :
    (flags.map fun flag => Item.attached flag (flag.text template output r)).foldlM settle d =
      .ok (d.tell flags template output r) := by
  induction flags generalizing d with
  | nil => simp [tell, pure, Except.pure]
  | cons flag flags ih =>
    obtain ⟨new, more⟩ := List.forall_mem_cons.1 fresh
    obtain ⟨notLater, apart⟩ := List.nodup_cons.1 apart
    have taken : d.settle (.attached flag (flag.text template output r)) =
        .ok (d.give flag (flag.text template output r) (flag.take r.settled d.record)) :=
      setFlag_eq_ok_iff.2 ⟨new, _, flag.puts_text template output r _, rfl⟩
    rw [List.map_cons, List.foldlM_cons, taken]
    refine (ih apart ?_).trans (congrArg Except.ok (d.tell_cons flag flags template output r))
    intro later mem given
    simp only [give, List.mem_append, List.mem_singleton, Option.some.injEq] at given
    rcases given with given | rfl
    · exact more later mem given
    · exact notLater mem

/-! ### Commands -/

/-- The command of options that tell of a record, with more arguments behind them. -/
theorem command_arguments (template output : String) (r : Record) (apart : flags.Nodup)
    (complete : items .resolve arguments = (its, .complete))
    (settled : its.foldlM Draft.settle (Draft.blank.tell flags template output r) = .ok d) :
    command ("resolve" ::
        (flags.map (fun flag => flag.argument (flag.text template output r)) ++ arguments)) =
      d.command .resolve := by
  have whole := items_arguments (Flag.text template output r) flags arguments
  have options := Draft.foldlM_attached (d := .blank) template output r apart
    (by simp [Draft.blank])
  rw [complete] at whole
  have all : (flags.map (fun flag => Item.attached flag (flag.text template output r)) ++
      its).foldlM Draft.settle .blank = .ok d := by
    rw [List.foldlM_append, options]
    exact settled
  show subcommand .resolve _ = _
  rw [subcommand, whole]
  show List.foldlM Draft.settle .blank _ >>= _ = _
  rw [all]
  rfl

/-- The command of a template, an output text and operands. -/
theorem command_operands (complete : items .resolve arguments = (paths.map .operand, .complete))
    (given : ∀ path ∈ paths, path ≠ "") :
    command ("resolve" :: Flag.argument .pattern template :: Flag.argument .output output ::
      arguments) = .ok (.resolve template output .blank paths) := by
  have apart : [Flag.pattern, .output].Nodup := by decide
  obtain ⟨d, settled, adds⟩ := Draft.exists_adds_operands
    (Draft.blank.tell [.pattern, .output] template output .blank) given
  have noFile : some .file ∉ d.given := by
    rw [adds.options]
    simp [Draft.tell, Draft.blank]
  have pattern : some .pattern ∈ d.given := by
    rw [adds.options]
    simp [Draft.tell, Draft.blank]
  refine (command_arguments template output .blank apart complete settled).trans ?_
  simp only [Draft.command, noFile, pattern, and_false, if_false, not_true, adds.template,
    adds.output, adds.record, adds.metadata]
  rfl

/-- Some command line asks for a template, an output text and any list of files. -/
theorem command_files (given : ∀ path ∈ paths, path ≠ "") :
    command ("resolve" :: Flag.argument .pattern template :: Flag.argument .output output ::
      "--" :: paths) = .ok (.resolve template output .blank paths) :=
  command_operands (items_separator paths) given

end PathPattern.CommandLine
