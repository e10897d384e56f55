import PathPattern.Text.CaseRun

/-!
# Characters and their code points

A code point is that of a character unless it is a surrogate or past the last character, and what
holds of all ASCII code points holds of all ASCII characters. A table of a case mapping leaves a
character as it is or maps its code point by one of its runs.
-/

namespace PathPattern.Text

variable {c : Char} {n : Nat}

theorem toNat_ofNat (valid : n.isValidChar) : (Char.ofNat n).toNat = n := by
  have same : Char.ofNat n = Char.ofNatAux n valid := dif_pos valid
  rw [same]
  rfl

theorem ofNat_of_not_valid (invalid : ¬n.isValidChar) : Char.ofNat n = '\x00' := dif_neg invalid

/-- No character has the code point of a surrogate. -/
theorem toNat_lt_or_lt_toNat (c : Char) : c.toNat < 0xd800 ∨ 0xdfff < c.toNat :=
  c.valid.imp id And.left

theorem of_ascii {P : Char → Prop} (table : ∀ n < 128, P (Char.ofNat n)) (ascii : c.toNat < 128) :
    P c := by
  have h := table c.toNat ascii
  rwa [Char.ofNat_toNat] at h

/-- A table leaves a character as it is or maps it by one of its runs. -/
theorem CaseRun.apply_eq_or_exists (runs : List CaseRun) (c : Char) :
    CaseRun.apply runs c = c ∨
      ∃ run ∈ runs, ∃ n, run.map? c.toNat = some n ∧ CaseRun.apply runs c = Char.ofNat n := by
  unfold CaseRun.apply
  cases found : runs.findSome? (·.map? c.toNat) with
  | none => exact .inl rfl
  | some n =>
    obtain ⟨run, mem, maps⟩ := List.exists_of_findSome?_eq_some found
    exact .inr ⟨run, mem, n, maps, rfl⟩

end PathPattern.Text
