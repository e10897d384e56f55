import PathPattern.Node
import PathPattern.Template.Fault

/-!
# Reading templates

A template is a list of components between slashes; slashes at its two ends do not count. A
component is fixed text with placeholders in braces. A placeholder that starts with a digit or
a minus sign addresses directory segments, one by an index or several by two bounds with a
colon between them; any other is a keyword. Reading goes from left to right and stops at the
first fault. The names of the keywords that mean nothing are reported as they are met, also
when a fault follows.
-/

namespace PathPattern

/-- The course of a reading: the unknown keywords met, in order, and how it ended. -/
structure Reading (α : Type) where
  unknown : List String
  outcome : Except TemplateFault α

namespace Reading

/-- A reading that meets nothing unknown. -/
def done {α : Type} (a : α) : Reading α := ⟨[], .ok a⟩

/-- One reading after another; the second does not happen if the first ends in a fault. -/
def andThen {α β : Type} (x : Reading α) (f : α → Reading β) : Reading β :=
  match x.outcome with
  | .error fault => ⟨x.unknown, .error fault⟩
  | .ok a => ⟨x.unknown ++ (f a).unknown, (f a).outcome⟩

instance : Monad Reading where
  pure := done
  bind := andThen

end Reading

namespace Template

open Text (pieces trimSep cutAt byteCount)

/-- One operand of an address. -/
def operand (cs : List Char) : Except TemplateFault Int64 :=
  match Integer.read cs with
  | .ok i => .ok i
  | .error cause => .error (.invalidNumericOperand (String.ofList cs) cause)

/-- An address: an index, or two bounds with a colon between them. -/
def address (body : List Char) : Except TemplateFault Node :=
  match cutAt ':' body with
  | (_, none) => (operand body).map .index
  | (first, some last) => do
    let first ← operand first
    let last ← operand last
    return .slice first last

/-- A placeholder with this first character is an address. -/
def startsAddress (c : Char) : Bool := Integer.isDigit c || c == '-'

/-- The text between two braces, which is not empty. -/
def placeholder (body : List Char) : Reading Node :=
  if body.head?.any startsAddress then ⟨[], address body⟩
  else
    let name := String.ofList body
    ⟨if Keyword.isUnknown name then [name] else [], .ok (.keyword name)⟩

/-- Fixed text as a list of nodes: none for no text. -/
def literals (text : List Char) : List Node :=
  if text = [] then [] else [.literal (String.ofList text)]

/-- The nodes of a component from a place in it on; `offset` bytes come before that place. -/
def nodes (component : List Char) (offset : Nat) (rest : List Char) : Reading (List Node) :=
  match _ : cutAt '{' rest with
  | (text, none) => .done (literals text)
  | (text, some inner) =>
    let brace := offset + byteCount text
    match _ : cutAt '}' inner with
    | (_, none) => ⟨[], .error (.missingClosingDelimiter (String.ofList component) brace)⟩
    | (body, some after) =>
      if body = [] then ⟨[], .error (.emptyPlaceholder (String.ofList component) brace)⟩
      else do
        let node ← placeholder body
        let more ← nodes component (brace + byteCount body + 2) after
        return literals text ++ node :: more
termination_by rest.length
decreasing_by
  exact Nat.lt_trans (Text.length_lt_of_cutAt_some ‹cutAt '}' inner = _›)
    (Text.length_lt_of_cutAt_some ‹cutAt '{' rest = _›)

/-- The tree of the nodes of one component. -/
def combine : List Node → Node
  | [] => .empty
  | [node] => node
  | nodes => .compound nodes

/-- The tree of one component. -/
def component (cs : List Char) : Reading Node := do
  let found ← nodes cs 0 cs
  return combine found

/-- The trees of a list of components. -/
def components : List (List Char) → Reading (List Node)
  | [] => .done []
  | cs :: rest => do
    let node ← component cs
    let more ← components rest
    return node :: more

/-- The tree of a template; only the empty template has no components at all. -/
def read (cs : List Char) : Reading Node :=
  if cs = [] then .done .empty
  else do
    let children ← components (pieces '/' (trimSep '/' cs))
    return .path children

/-- The tree that a template compiles to. -/
def compile (template : String) : Except TemplateFault Node := (read template.toList).outcome

/-- The unknown keywords of a template, in order, up to its first fault. -/
def unknownKeywords (template : String) : List String := (read template.toList).unknown

end Template

end PathPattern
