/-!
# Runs of a case mapping

Case mappings of Unicode come in runs: neighbouring characters, or every second one, whose
images are as far apart as they are. A table is a list of runs; `apply` maps a character by
the first run that holds it and leaves every other character as it is.
-/

namespace PathPattern.Text

/-- The code points `first`, `first + step`, …, `last` map to `image`, `image + step`, …. -/
structure CaseRun where
  first : Nat
  last : Nat
  step : Nat
  image : Nat

/-- The image of a code point that the run holds. -/
def CaseRun.map? (r : CaseRun) (n : Nat) : Option Nat :=
  if r.first ≤ n ∧ n ≤ r.last ∧ (n - r.first) % r.step = 0 then some (r.image + (n - r.first))
  else none

/-- The image of a character under a table of runs. -/
def CaseRun.apply (runs : List CaseRun) (c : Char) : Char :=
  match runs.findSome? (·.map? c.toNat) with
  | some n => Char.ofNat n
  | none => c

/-- A character that no run holds stays as it is. -/
theorem CaseRun.apply_of_forall_none {runs : List CaseRun} {c : Char}
    (h : ∀ r ∈ runs, r.map? c.toNat = none) : CaseRun.apply runs c = c := by
  have : runs.findSome? (·.map? c.toNat) = none := List.findSome?_eq_none_iff.2 h
  simp [CaseRun.apply, this]

end PathPattern.Text
