import PathPattern.CommandLine.Arguments
import PathPattern.CommandLine.Folder
import PathPattern.Json.Record
import PathPattern.Pattern
import PathPattern.Yaml.Record

/-!
# Running a command

A run turns arguments and files into an exit status and two texts. For `resolve` the output
format is checked first, then the template, then every record is read in the order given, and
only when all of that is good are paths printed, one for each record. What keeps `resolve` from
printing is a `Failure`, which goes down to the place and the reason in the text of a file; of this
the texts of a run show the heading alone.

YAML is read by a reader that is given, with faults of its own kind. `run` takes the one of this
library, and `runWith` takes any.
-/

namespace PathPattern.CommandLine

/-- What a run leaves behind. -/
structure Outcome where
  status : Nat
  out : String
  /-- The first paragraph of what is reported; the causes that may follow it are left out. -/
  err : String
  deriving DecidableEq, Repr

/-- A run that ends with a message and prints nothing. -/
def Outcome.failed (status : Nat) (message : String) : Outcome := ⟨status, "", message ++ "\n"⟩

/-- How paths are printed. -/
inductive Format where
  | human
  | json
  deriving DecidableEq, Repr

/-- The format of a name. -/
def Format.ofName? : String → Option Format
  | "human" => some human
  | "json" => some json
  | _ => none

/-- The format a metadata file is read in. -/
inductive FileFormat where
  | json
  | yaml
  deriving DecidableEq, Repr

/-- What reads the record of a text, with faults of its own kind. -/
abbrev RecordReader (ε : Type) := String → Except ε Record

/-- Why what stands at a path is not read. -/
inductive ReadFault where
  /-- It is a directory, or does not open. -/
  | notOpened
  /-- Its bytes are no UTF-8 text. -/
  | notText
  deriving DecidableEq, Repr

/-- Why a metadata file gives no record, down to the fault of its text. -/
inductive LoadFault (ε : Type) where
  | notFound (path : String)
  | unreadable (path : String) (cause : ReadFault)
  | json (path : String) (cause : Json.Fault)
  | yaml (path : String) (cause : ε)
  deriving DecidableEq, Repr

/-- The heading of a fault. -/
def LoadFault.message {ε : Type} : LoadFault ε → String
  | notFound path =>
    "Metadata file not found: " ++ path ++ "\nPlease check the file path and try again."
  | unreadable path _ =>
    "Failed to read metadata file: " ++ path ++ "\nPlease check file permissions."
  | json path _ => "Failed to parse JSON metadata from: " ++ path
  | yaml path _ => "Failed to parse YAML metadata from: " ++ path

/-- What follows the last dot of a file's name, unless the name starts with that dot. -/
def extension? (path : String) : Option (List Char) :=
  match (steps path).getLast? with
  | none => none
  | some name =>
    if name = upwards then none
    else
      let reversed := name.reverse
      match reversed.dropWhile (· != '.') with
      | [] => none
      | [_] => none
      | _ :: _ => some (reversed.takeWhile (· != '.')).reverse

/-- JSON by the extension, whatever its case; YAML otherwise. -/
def fileFormat (path : String) : FileFormat :=
  if (extension? path).map (·.map Char.toLower) = some ['j', 's', 'o', 'n'] then .json else .yaml

section Loading

variable {ε : Type} (yaml : RecordReader ε) (find : String → Entry)

/-- The record of a metadata file. -/
def load (path : String) : Except (LoadFault ε) Record :=
  match find path with
  | .missing => .error (.notFound path)
  | .directory => .error (.unreadable path .notOpened)
  | .binary => .error (.unreadable path .notText)
  | .text content =>
    match fileFormat path with
    | .json => (Json.decodeRecord content).mapError (.json path)
    | .yaml => (yaml content).mapError (.yaml path)

/-- The records of metadata files in order, or the fault of the first that has one. -/
def loadAll (paths : List String) : Except (LoadFault ε) (List Record) := paths.mapM (load yaml find)

end Loading

/-- The line for one record. -/
def line (format : Format) (p : Pattern) (r : Record) : String :=
  match format with
  | .human => p.resolve r ++ "\n"
  | .json =>
    String.ofList ('{' :: Json.member "file" (Json.string r.file.toList) ++
      ',' :: Json.member "path" (Json.string (p.resolve r).toList) ++ ['}', '\n'])

/-- A template that does not compile ends the run. -/
def invalidPattern (template : String) (fault : TemplateFault) : Outcome :=
  .failed 2 ("Invalid pattern '" ++ template ++ "': " ++ fault.message)

/-- The run of `inspect`. -/
def inspect (template : String) : Outcome :=
  match Pattern.ofTemplate template with
  | .error fault => invalidPattern template fault
  | .ok p =>
    ⟨0, "template: " ++ p.template ++ "\nresolver: " ++ p.render ++ "\nconstant: " ++
      (if p.tree.isConstant then "true" else "false") ++ "\n", ""⟩

/-- Why `resolve` prints no path. -/
inductive Failure (ε : Type) where
  | output (text : String)
  | template (text : String) (cause : TemplateFault)
  | file (cause : LoadFault ε)
  deriving DecidableEq, Repr

/-- How a run with a failure ends. -/
def Failure.outcome {ε : Type} : Failure ε → Outcome
  | output text =>
    .failed 1 ("Error: Unsupported output format: " ++ text ++ ". Use human or json.")
  | template text cause => invalidPattern text cause
  | file cause => .failed 1 ("Error: " ++ cause.message)

section Runs

variable {ε : Type} (yaml : RecordReader ε) (find : String → Entry)

/-- The lines of `resolve`; the inline record counts only without metadata files. -/
def resolvedLines (template output : String) (inline : Record) (metadata : List String) :
    Except (Failure ε) (List String) :=
  match Format.ofName? output with
  | none => .error (.output output)
  | some format =>
    match Pattern.ofTemplate template with
    | .error fault => .error (.template template fault)
    | .ok p =>
      match if metadata = [] then .ok [inline] else loadAll yaml find metadata with
      | .error fault => .error (.file fault)
      | .ok records => .ok (records.map (line format p))

/-- The run of `resolve`. -/
def resolve (template output : String) (inline : Record) (metadata : List String) : Outcome :=
  match resolvedLines yaml find template output inline metadata with
  | .error failure => failure.outcome
  | .ok lines => ⟨0, String.join lines, ""⟩

/-- The run of the program with a reader of YAML. -/
def runWith (arguments : List String) : Outcome :=
  match command arguments with
  | .error fault => .failed 2 fault.message
  | .ok .version => ⟨0, "prospect 0.1.0\n", ""⟩
  | .ok .help => ⟨0, summary ++ "\n", ""⟩
  | .ok (.inspect template) => inspect template
  | .ok (.resolve template output record metadata) =>
    resolve yaml find template output record metadata

end Runs

/-- The run of the program. -/
def run (find : String → Entry) (arguments : List String) : Outcome :=
  runWith Yaml.decodeRecord find arguments

/-- The files that a run reads. -/
def filesRead (arguments : List String) : List String :=
  match command arguments with
  | .ok (.resolve _ _ _ metadata) => metadata
  | _ => []

end PathPattern.CommandLine
