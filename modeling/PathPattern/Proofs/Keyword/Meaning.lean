import PathPattern.Keyword
import PathPattern.Proofs.Number.Numeral
import PathPattern.Proofs.Path.Directory

/-!
# What a name stands for

A name gives the text of the field that it addresses, and nothing if it addresses none: a number
has no slash, so that a name that is a number has no directories of its own to choose from.
-/

namespace PathPattern.Keyword

variable {name : String} {f : Field} {r : Record}

theorem field?_eq_lookup (name : String) : field? name = Field.lookup name := by
  unfold field? meaning
  cases Field.lookup name with
  | some f => rfl
  | none => cases Integer.readPosition name.toList <;> rfl

theorem resolve_of_lookup_eq_some (h : Field.lookup name = some f) :
    resolve name r = f.extract r := by
  simp only [resolve, meaning, h]

/-- A name that addresses no field gives nothing, whether it is a number or not. -/
theorem resolve_of_lookup_eq_none (h : Field.lookup name = none) : resolve name r = "" := by
  simp only [resolve, meaning, h]
  cases read : Integer.readPosition name.toList with
  | error cause => rfl
  | ok n =>
    have free : '/' ∉ name.toList := (Integer.numeral_of_readPosition read).not_mem (by decide)
    rw [directorySegments_of_not_mem free]
    cases n <;> rfl

end PathPattern.Keyword
