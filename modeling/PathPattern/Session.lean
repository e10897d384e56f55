import PathPattern.Json.Record
import PathPattern.Pattern

/-!
# Sessions

A session holds a pattern, a record, and snapshots of patterns under names. Each step changes
one of them or asks a question, and a step that fails changes nothing. The pattern is held
plainly or behind a shared cell; both kinds of session answer alike.
-/

namespace PathPattern

/-- The pattern of a session. -/
inductive Holder where
  | plain (p : Pattern)
  | shared (s : SharedPattern)
  deriving DecidableEq, Repr

namespace Holder

/-- The pattern in force. -/
def pattern : Holder → Pattern
  | plain p => p
  | shared s => s.snapshot

/-- A holder of the same kind for another pattern. -/
def replace : Holder → Pattern → Holder
  | plain _, p => plain p
  | shared _, p => shared (.ofPattern p)

/-- The holder after an attempt to configure it, the fault if there was one, and the events. -/
def configure (h : Holder) (template : String) : Holder × Option TemplateFault × List Event :=
  match h with
  | plain _ =>
    match Pattern.configure template with
    | (.ok p, events) => (plain p, none, events)
    | (.error fault, events) => (h, some fault, events)
  | shared s =>
    let (s, fault, events) := s.configure template
    (shared s, fault, events)

end Holder

/-- One field of a record set to a value. -/
inductive Setting where
  | file (s : String)
  | source (s : String)
  | model (s : String)
  | mime (s : String)
  | kind (s : String)
  | level (i : Int64)
  /-- The instant with these seconds since 1970 and nanoseconds. -/
  | timestamp (seconds : Int64) (nanos : Nat)
  deriving DecidableEq, Repr

/-- The record with one field set, unless there is no such instant. -/
def Setting.apply? (r : Record) : Setting → Option Record
  | file s => some { r with file := s }
  | source s => some { r with source := s }
  | model s => some { r with model := s }
  | mime s => some { r with mime := s }
  | kind s => some { r with kind := s }
  | level i => some { r with level := i }
  | timestamp seconds nanos =>
    (Instant.ofParts? seconds.toInt nanos).map fun t => { r with acquired := t }

/-- A step of a session. -/
inductive Step where
  | configure (template : String)
  | compile (template : String)
  | reset
  /-- The record becomes the one that a JSON text gives. -/
  | record (json : String)
  | set (s : Setting)
  | showRecord
  | snapshot (name : String)
  | restore (name : String)
  | resolveSnapshot (name : String)
  /-- Whether the pattern in force equals a snapshot. -/
  | isSame (name : String)
  | serialize
  deriving DecidableEq, Repr

/-- What a step answers. -/
inductive Answer where
  | done
  | text (s : String)
  | truth (b : Bool)
  | record (r : Record)
  | badTemplate (fault : TemplateFault)
  | badRecord (fault : Json.Fault)
  | timeOutOfRange
  | noSnapshot
  deriving DecidableEq, Repr

/-- The state of a session. -/
structure Session where
  holder : Holder
  current : Record
  snapshots : List (String × Pattern)
  deriving DecidableEq, Repr

namespace Session

/-- A session with the pattern that is not configured. -/
def start (shared : Bool) (r : Record) : Session :=
  ⟨if shared then .shared (.ofPattern .unset) else .plain .unset, r, []⟩

/-- The pattern in force. -/
def pattern (s : Session) : Pattern := s.holder.pattern

/-- The pattern remembered last under a name. -/
def remembered? (s : Session) (name : String) : Option Pattern := s.snapshots.lookup name

/-- The path that the pattern in force gives for the current record. -/
def path (s : Session) : String := s.pattern.resolve s.current

/-- The session after a step, the answer to it, and the events it reported. -/
def perform (s : Session) : Step → Session × Answer × List Event
  | .configure template =>
    match s.holder.configure template with
    | (holder, none, events) => ({ s with holder }, .done, events)
    | (_, some fault, events) => (s, .badTemplate fault, events)
  | .compile template =>
    match Pattern.compile template with
    | (.ok p, events) => ({ s with holder := s.holder.replace p }, .done, events)
    | (.error fault, events) => (s, .badTemplate fault, events)
  | .reset => ({ s with holder := s.holder.replace .unset }, .done, [])
  | .record json =>
    match Json.decodeRecord json with
    | .ok r => ({ s with current := r }, .done, [])
    | .error fault => (s, .badRecord fault, [])
  | .set setting =>
    match setting.apply? s.current with
    | some r => ({ s with current := r }, .done, [])
    | none => (s, .timeOutOfRange, [])
  | .showRecord => (s, .record s.current, [])
  | .snapshot name => ({ s with snapshots := (name, s.pattern) :: s.snapshots }, .done, [])
  | .restore name =>
    match s.remembered? name with
    | some p => ({ s with holder := s.holder.replace p }, .done, [])
    | none => (s, .noSnapshot, [])
  | .resolveSnapshot name =>
    match s.remembered? name with
    | some p => (s, .text (p.resolve s.current), [])
    | none => (s, .noSnapshot, [])
  | .isSame name =>
    match s.remembered? name with
    | some p => (s, .truth (s.pattern == p), [])
    | none => (s, .noSnapshot, [])
  | .serialize => (s, .text s.pattern.template, [])

/-- The sessions after each of a list of steps, with answers and events. -/
def run (s : Session) : List Step → List (Session × Answer × List Event)
  | [] => []
  | step :: steps =>
    let result := s.perform step
    result :: result.1.run steps

end Session

end PathPattern
