import PathPattern.Number.Integer
import PathPattern.Record
import PathPattern.Text.Plain
import PathPattern.Time.Rfc3339

/-!
# Command line arguments

Two subcommands: `inspect` shows how a pattern compiles and `resolve` gives paths for records.
Arguments are first told apart: options with their values, and operands, which are the metadata
files. A value that stands apart from its option, and a run of operands, are looked at only when
the next thing that is known comes; an unknown argument before that is the fault that counts.
Then the items are settled from the left: a missing value, an option given twice, a value that
does not read. Last come operands beside an inline file, and a pattern that is not given.
-/

namespace PathPattern.CommandLine

open Text (plain)

/-- An option with a value. -/
inductive Flag where
  | pattern
  | file
  | source
  | model
  | mime
  | kind
  | level
  | acqTime
  | output
  deriving DecidableEq, Repr

namespace Flag

/-- All options. -/
def all : List Flag := [pattern, file, source, model, mime, kind, level, acqTime, output]

/-- The name behind two dashes. -/
def name : Flag → String
  | pattern => "pattern"
  | file => "file"
  | source => "source"
  | model => "model"
  | mime => "mime"
  | kind => "type"
  | level => "level"
  | acqTime => "acq-time"
  | output => "output"

/-- What the value is called. -/
def valueName : Flag → String
  | pattern => "TEMPLATE"
  | file => "PATH"
  | source => "SOURCE"
  | model => "MODEL"
  | mime => "MIME"
  | kind => "TYPE"
  | level => "LEVEL"
  | acqTime => "TIME"
  | output => "FORMAT"

/-- The option as messages show it. -/
def shown (f : Flag) : String := "--" ++ f.name ++ " <" ++ f.valueName ++ ">"

end Flag

/-- The operands as messages show them. -/
def operandsShown : String := "[METADATA]..."

/-- A subcommand. -/
inductive Subcommand where
  | resolve
  | inspect
  deriving DecidableEq, Repr

namespace Subcommand

/-- The subcommand of a name. -/
def ofName? : String → Option Subcommand
  | "resolve" => some resolve
  | "inspect" => some inspect
  | _ => none

/-- The options of a subcommand. -/
def flags : Subcommand → List Flag
  | resolve => Flag.all
  | inspect => [.pattern]

/-- The option with a name. -/
def flag? (s : Subcommand) (name : String) : Option Flag := s.flags.find? (·.name == name)

end Subcommand

/-- Why the arguments make no command. -/
inductive UsageFault where
  | noArguments
  | unknownSubcommand (name : String)
  | unexpected (argument : String)
  | valueNotWanted (value : String) (argument : String)
  | valueMissing (shown : String)
  | repeated (shown : String)
  | badLevel (value : String) (cause : IntegerFault)
  | badTime (value : String) (cause : TimeFault)
  | conflict (first second : String)
  | patternMissing
  deriving DecidableEq, Repr

/-- What the program is for. -/
def summary : String := "Resolve output path patterns against file metadata"

/-- The wording of a fault. What somebody gave is shown without terminal controls. -/
def UsageFault.message : UsageFault → String
  | noArguments => summary
  | unknownSubcommand name => "error: unrecognized subcommand '" ++ plain name ++ "'"
  | unexpected argument => "error: unexpected argument '" ++ plain argument ++ "' found"
  | valueNotWanted value argument =>
    "error: unexpected value '" ++ plain value ++ "' for '" ++ argument ++
      "' found; no more were expected"
  | valueMissing shown => "error: a value is required for '" ++ shown ++ "' but none was supplied"
  | repeated shown => "error: the argument '" ++ shown ++ "' cannot be used multiple times"
  | badLevel value cause =>
    "error: invalid value '" ++ plain value ++ "' for '" ++ Flag.level.shown ++ "': " ++
      cause.message
  | badTime value cause =>
    "error: invalid value '" ++ plain value ++ "' for '" ++ Flag.acqTime.shown ++ "': " ++
      cause.message
  | conflict first second =>
    "error: the argument '" ++ first ++ "' cannot be used with '" ++ second ++ "'"
  | patternMissing =>
    "error: the following required arguments were not provided:\n  " ++ Flag.pattern.shown

/-! ### Telling arguments apart -/

/-- A command line item. -/
inductive Item where
  /-- An option with its value in the same argument. -/
  | attached (flag : Flag) (value : String)
  /-- An option with the next argument for its value, if that can be one. -/
  | apart (flag : Flag) (value : Option String)
  | operand (text : String)
  deriving DecidableEq, Repr

/-- How a list of arguments ends: all of them are items, or one asks for help, or one is no item. -/
inductive Ending where
  | complete
  | help
  | refused (fault : UsageFault)
  deriving DecidableEq, Repr

/-- An argument by its form. -/
inductive Form where
  /-- Two dashes alone; all that follows is an operand. -/
  | separator
  | long (name : String) (value : Option String)
  | short (letter : Char) (value : Option String)
  | plain
  deriving DecidableEq, Repr

/-- The value in the argument of a short option; an equals sign before it does not count. -/
def shortValue : List Char → Option String
  | [] => none
  | '=' :: cs => some (String.ofList cs)
  | cs => some (String.ofList cs)

/-- The form of an argument. -/
def form (argument : String) : Form :=
  match argument.toList with
  | ['-', '-'] => .separator
  | '-' :: '-' :: cs =>
    .long (String.ofList (cs.takeWhile (· != '='))) <|
      match cs.dropWhile (· != '=') with
      | [] => none
      | _ :: value => some (String.ofList value)
  | '-' :: c :: cs => .short c (shortValue cs)
  | _ => .plain

/-- The item of an option, and the arguments behind it. An option without a value in its
argument takes the next argument unless that one looks like an option. -/
def optionItem (flag : Flag) (value : Option String) (rest : List String) :
    Item × List String :=
  match value, rest with
  | some v, _ => (.attached flag v, rest)
  | none, [] => (.apart flag none, [])
  | none, next :: more =>
    if form next = .plain then (.apart flag (some next), more) else (.apart flag none, rest)

theorem optionItem_length_le (flag : Flag) (value : Option String) (rest : List String) :
    (optionItem flag value rest).2.length ≤ rest.length := by
  unfold optionItem
  split
  · exact Nat.le_refl _
  · exact Nat.le_refl _
  · split
    · simp
    · exact Nat.le_refl _

/-- The option that an argument names, with the value in the argument; or how the arguments end
there. Help takes no value. -/
def option? (s : Subcommand) (name : String) (value : Option String) :
    Except Ending (Flag × Option String) :=
  match s.flag? name, value with
  | some flag, value => .ok (flag, value)
  | none, none => .error (if name = "help" then .help else .refused (.unexpected ("--" ++ name)))
  | none, some value =>
    .error (.refused
      (if name = "help" then .valueNotWanted value "--help" else .unexpected ("--" ++ name)))

/-- The option of a letter. -/
def letter? (letter : Char) (value : Option String) :
    Except Ending (Flag × Option String) :=
  if letter = 'p' then .ok (.pattern, value)
  else if letter = 'h' then .error .help
  else .error (.refused (.unexpected (String.ofList ['-', letter])))

/-- The items of the operands; only `resolve` takes any. -/
def operandItems (s : Subcommand) : List String → List Item × Ending
  | [] => ([], .complete)
  | text :: rest =>
    match s with
    | .inspect => ([], .refused (.unexpected text))
    | .resolve =>
      let (items, ending) := operandItems s rest
      (.operand text :: items, ending)

/-- The items of the arguments, up to the first that is none. -/
def items (s : Subcommand) (arguments : List String) : List Item × Ending :=
  match arguments with
  | [] => ([], .complete)
  | argument :: rest =>
    let found : Option (Except Ending (Flag × Option String)) :=
      match form argument with
      | .long name value => some (option? s name value)
      | .short letter value => some (letter? letter value)
      | _ => none
    match found with
    | some (.ok (flag, value)) =>
      let (more, ending) := items s (optionItem flag value rest).2
      ((optionItem flag value rest).1 :: more, ending)
    | some (.error ending) => ([], ending)
    | none =>
      if form argument = .separator then operandItems s rest
      else
        match s with
        | .inspect => ([], .refused (.unexpected argument))
        | .resolve =>
          let (more, ending) := items s rest
          (.operand argument :: more, ending)
termination_by arguments.length
decreasing_by
  · have := optionItem_length_le flag value rest
    simp only [List.length_cons]
    omega
  · simp

/-! ### Settling items -/

/-- A command line as far as it is settled. -/
structure Draft where
  /-- What was given, in order; `none` stands for the operands. -/
  given : List (Option Flag)
  template : String
  output : String
  record : Record
  metadata : List String
  deriving DecidableEq, Repr

/-- Nothing given yet. -/
def Draft.blank : Draft := ⟨[], "", "human", .blank, []⟩

/-- The draft with the value of an option, which must not have one yet. -/
def Draft.setFlag (d : Draft) (flag : Flag) (value : String) : Except UsageFault Draft :=
  if some flag ∈ d.given then .error (.repeated flag.shown)
  else
    let d := { d with given := d.given ++ [some flag] }
    match flag with
    | .pattern => .ok { d with template := value }
    | .output => .ok { d with output := value }
    | .file => .ok { d with record := { d.record with file := value } }
    | .source => .ok { d with record := { d.record with source := value } }
    | .model => .ok { d with record := { d.record with model := value } }
    | .mime => .ok { d with record := { d.record with mime := value } }
    | .kind => .ok { d with record := { d.record with kind := value } }
    | .level =>
      match Integer.read value.toList with
      | .ok level => .ok { d with record := { d.record with level } }
      | .error cause => .error (.badLevel value cause)
    | .acqTime =>
      match Rfc3339.read value.toList with
      | .ok acquired => .ok { d with record := { d.record with acquired } }
      | .error cause => .error (.badTime value cause)

/-- The draft with one more item. -/
def Draft.settle (d : Draft) : Item → Except UsageFault Draft
  | .attached flag value => d.setFlag flag value
  | .apart flag (some value) => d.setFlag flag value
  | .apart flag none => .error (.valueMissing flag.shown)
  | .operand text =>
    if text = "" then .error (.valueMissing operandsShown)
    else .ok { d with
      given := if none ∈ d.given then d.given else d.given ++ [none],
      metadata := d.metadata ++ [text] }

/-- The item is still open when an argument that is no item follows it. -/
def isOperand : Item → Bool
  | .operand _ => true
  | _ => false

/-- The items that are settled before an argument that is none: not the operands at the end, nor
an option at the end whose value stands apart. -/
def closed (items : List Item) : List Item :=
  match items.reverse with
  | .apart _ _ :: before => before.reverse
  | _ => (items.reverse.dropWhile isOperand).reverse

/-- A command. -/
inductive Command where
  | version
  | help
  | inspect (template : String)
  | resolve (template output : String) (record : Record) (metadata : List String)
  deriving DecidableEq, Repr

/-- The command of a draft. Metadata files and an inline file exclude each other, and the one
given first is named first. -/
def Draft.command (d : Draft) (s : Subcommand) : Except UsageFault Command :=
  if none ∈ d.given ∧ some .file ∈ d.given then
    match d.given.find? fun g => g = none ∨ g = some .file with
    | some (some flag) => .error (.conflict flag.shown operandsShown)
    | _ => .error (.conflict operandsShown Flag.file.shown)
  else if some .pattern ∉ d.given then .error .patternMissing
  else
    match s with
    | .inspect => .ok (.inspect d.template)
    | .resolve => .ok (.resolve d.template d.output d.record d.metadata)

/-- The command of the arguments behind a subcommand. -/
def subcommand (s : Subcommand) (arguments : List String) : Except UsageFault Command :=
  match items s arguments with
  | (items, .complete) => items.foldlM Draft.settle .blank >>= (·.command s)
  | (items, .help) => (items.foldlM Draft.settle .blank).map fun _ => .help
  | (items, .refused fault) => do
    let _ ← (closed items).foldlM Draft.settle .blank
    throw fault

/-- The command of the names behind `help`: a subcommand, which has none of its own below it. -/
def helpTopic : List String → Except UsageFault Command
  | [] => .ok .help
  | name :: rest =>
    if name = "help" then .ok .help
    else if (Subcommand.ofName? name).isNone then .error (.unknownSubcommand name)
    else
      match rest with
      | [] => .ok .help
      | below :: _ => .error (.unknownSubcommand below)

/-- The command of all arguments. -/
def command : List String → Except UsageFault Command
  | [] => .error .noArguments
  | argument :: rest =>
    match form argument with
    | .separator =>
      match rest with
      | [] => .error .noArguments
      | name :: _ =>
        .error (if (Subcommand.ofName? name).isSome ∨ name = "help" then .unexpected name
          else .unknownSubcommand name)
    | .long "version" none => .ok .version
    | .long "help" none => .ok .help
    | .long "version" (some value) => .error (.valueNotWanted value "--version")
    | .long "help" (some value) => .error (.valueNotWanted value "--help")
    | .long name _ => .error (.unexpected ("--" ++ name))
    | .short 'V' _ => .ok .version
    | .short 'h' _ => .ok .help
    | .short letter _ => .error (.unexpected (String.ofList ['-', letter]))
    | .plain =>
      match Subcommand.ofName? argument with
      | some s => subcommand s rest
      | none => if argument = "help" then helpTopic rest else .error (.unknownSubcommand argument)

end PathPattern.CommandLine
