import PathPattern.Number.Integer

/-!
# Faults of templates

The three ways a template can be wrong. A fault tells the component it is in, or the operand;
offsets count the bytes of the component before the opening brace.
-/

namespace PathPattern

/-- Why a template does not compile. -/
inductive TemplateFault where
  /-- No closing brace follows the opening one in its component. -/
  | missingClosingDelimiter (component : String) (offset : Nat)
  /-- Nothing stands between the braces. -/
  | emptyPlaceholder (component : String) (offset : Nat)
  /-- An operand of an address is not a 64-bit integer. -/
  | invalidNumericOperand (operand : String) (cause : IntegerFault)
  deriving DecidableEq, Repr

/-- The wording of a fault. -/
def TemplateFault.message : TemplateFault → String
  | missingClosingDelimiter component offset =>
    "missing closing delimiter for '\x7b' at offset " ++ toString offset ++ " in '" ++ component ++
      "'"
  | emptyPlaceholder component offset =>
    "empty placeholder at offset " ++ toString offset ++ " in '" ++ component ++ "'"
  | invalidNumericOperand operand cause =>
    "invalid numeric operand '" ++ operand ++ "': " ++ cause.message

end PathPattern
