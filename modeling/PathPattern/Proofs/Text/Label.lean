import PathPattern.Label
import PathPattern.Proofs.Text.UpperCase

/-!
# Characters of labels

Upper case adds no character below `A` in the order of code points, so that a label has none there
but those of its text, and no slash if the text has none.
-/

namespace PathPattern

variable {c : Char} {cs : List Char} {text : String}

namespace Label

theorem mem_or_le_of_mem_titled {previous : Char} (mem : c ∈ titled previous cs) :
    c ∈ cs ∨ 'A'.toNat ≤ c.toNat := by
  induction cs generalizing previous with
  | nil => cases mem
  | cons d cs ih =>
    rw [titled, List.mem_append] at mem
    rcases mem with first | rest
    · split at first
      · rcases Text.eq_or_le_of_mem_upper first with rfl | letter
        · exact .inl (by simp)
        · exact .inr letter
      · exact .inl (by simp [List.mem_singleton.1 first])
    · exact (ih rest).imp_left (List.mem_cons_of_mem d)

end Label

/-- A character of a label is one of the text or comes no earlier than `A`. -/
theorem mem_or_le_of_mem_label (mem : c ∈ (label text).toList) : c ∈ text.toList ∨ 'A'.toNat ≤ c.toNat := by
  rw [label, String.toList_ofList] at mem
  exact Label.mem_or_le_of_mem_titled (List.mem_filter.1 mem).1

theorem slash_not_mem_label (free : '/' ∉ text.toList) : '/' ∉ (label text).toList := by
  intro mem
  rcases mem_or_le_of_mem_label mem with inside | letter
  · exact free inside
  · exact absurd letter (by decide)

end PathPattern
