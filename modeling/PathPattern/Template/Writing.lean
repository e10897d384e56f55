import PathPattern.Node

/-!
# Writing templates

The template that a tree is compiled from: fixed text as it is, placeholders in braces, the
children of a path between slashes. A path whose only child is empty is written as one slash,
since the empty template compiles to no path.
-/

namespace PathPattern.Template

open Integer (signedDecimal)

mutual

/-- The template of a tree. -/
def write : Node → List Char
  | .empty => []
  | .literal text => text.toList
  | .keyword name => '{' :: name.toList ++ ['}']
  | .index i => '{' :: signedDecimal i.toInt ++ ['}']
  | .slice first last =>
    '{' :: signedDecimal first.toInt ++ ':' :: signedDecimal last.toInt ++ ['}']
  | .compound children => (writeAll children).flatten
  | .path children =>
    match writeAll children with
    | [[]] => ['/']
    | written => written.intersperse ['/'] |>.flatten

/-- The templates of a list of trees. -/
def writeAll : List Node → List (List Char)
  | [] => []
  | node :: nodes => write node :: writeAll nodes

end

theorem writeAll_eq_map (nodes : List Node) : writeAll nodes = nodes.map write := by
  induction nodes with
  | nil => rfl
  | cons node nodes ih => simp [writeAll, ih]

end PathPattern.Template
