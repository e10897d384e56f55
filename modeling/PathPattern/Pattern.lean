import PathPattern.Template.Reading

/-!
# Patterns

A pattern keeps a template together with the tree it compiled to. Configuring a pattern
replaces both, or neither if the template is wrong, and reports what happened as events. A
shared pattern is the same behind one cell that others may read at any time.
-/

namespace PathPattern

/-- A template and its tree. -/
structure Pattern where
  template : String
  tree : Node
  deriving DecidableEq, Repr

/-- What compiling and configuring report. -/
inductive Event where
  /-- A keyword addresses no field and is no number. -/
  | unknownKeyword (keyword : String)
  /-- A template is in force; the tree is the one it compiled to. -/
  | configured (template : String) (tree : Node)
  /-- A template is wrong and the one before it stays in force. -/
  | rejected (template : String) (fault : TemplateFault)
  deriving DecidableEq, Repr

/-- How much attention an event asks for. -/
inductive Severity where
  | debug
  | warn
  deriving DecidableEq, Repr

namespace Event

/-- Only a rejected template is a warning. -/
def severity : Event → Severity
  | rejected _ _ => .warn
  | _ => .debug

/-- The wording of an event. -/
def message : Event → String
  | unknownKeyword _ => "unrecognized placeholder keyword will resolve to an empty string"
  | configured _ _ => "pattern configured"
  | rejected _ _ => "pattern rejected, keeping previous configuration"

/-- The named details of an event. -/
def fields : Event → List (String × String)
  | unknownKeyword keyword => [("keyword", keyword)]
  | configured template tree => [("template", template), ("resolver", tree.render)]
  | rejected template fault => [("template", template), ("error", fault.message)]

end Event

namespace Pattern

/-- The pattern that is not configured; it gives the empty path for every record. -/
def unset : Pattern := ⟨"", .empty⟩

instance : Inhabited Pattern := ⟨unset⟩

/-- The pattern of a template, and the events of compiling it. -/
def compile (template : String) : Except TemplateFault Pattern × List Event :=
  ((Template.compile template).map (⟨template, ·⟩),
    (Template.unknownKeywords template).map .unknownKeyword)

/-- The pattern of a template. -/
def ofTemplate (template : String) : Except TemplateFault Pattern := (compile template).1

/-- The pattern to use from now on, with the events of the attempt; the last one tells how it
went. -/
def configure (template : String) : Except TemplateFault Pattern × List Event :=
  match compile template with
  | (.ok pattern, events) => (.ok pattern, events ++ [.configured template pattern.tree])
  | (.error fault, events) => (.error fault, events ++ [.rejected template fault])

/-- The path for a record. -/
def resolve (p : Pattern) (r : Record) : String := p.tree.resolve r

/-- The tree as a diagnostic shows it. -/
def render (p : Pattern) : String := p.tree.render

end Pattern

/-- A pattern behind one cell; its readers take the current one and keep it. -/
structure SharedPattern where
  current : Pattern
  deriving DecidableEq, Repr

namespace SharedPattern

/-- A cell that holds the pattern. -/
def ofPattern (p : Pattern) : SharedPattern := ⟨p⟩

/-- The pattern in force now. -/
def snapshot (s : SharedPattern) : Pattern := s.current

/-- The cell after an attempt to configure it; on a fault it holds what it held. -/
def configure (s : SharedPattern) (template : String) :
    SharedPattern × Option TemplateFault × List Event :=
  match Pattern.configure template with
  | (.ok pattern, events) => (⟨pattern⟩, none, events)
  | (.error fault, events) => (s, some fault, events)

/-- The path that the pattern in force gives for a record. -/
def resolve (s : SharedPattern) (r : Record) : String := s.snapshot.resolve r

end SharedPattern

end PathPattern
