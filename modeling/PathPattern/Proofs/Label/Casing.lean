import PathPattern.Label
import PathPattern.Proofs.Text.UpperCase

/-!
# Labels change nothing but case

A label is its text without white space, and some of its characters are in upper case
(`flatMap_upper_filter_titled`). A text is settled if every character behind a word end is its own
upper case; such a text is not changed any more. A label is settled although white space between its
characters is gone: white space ends a word as well, so a character that stands behind a word end in
the label stood behind one in the text (`settled_filter_titled`). No word ends appear that were not
there before, since in ASCII the tables map to letters only (`endsWord_of_mem_upper`).
-/

namespace PathPattern

open Text (isBlank upper)

namespace Label

variable {c d before previous : Char} {cs ds : List Char}

theorem endsWord_of_isBlank (blank : isBlank c = true) : endsWord c = true := by
  unfold endsWord
  split
  · next ascii =>
    have table : ∀ n < 128, isBlank (Char.ofNat n) = true →
        (!((Char.ofNat n).isAlphanum || Char.ofNat n == '_')) = true := by decide +kernel
    exact Text.of_ascii (P := fun c => isBlank c = true → (!(c.isAlphanum || c == '_')) = true)
      table ascii blank
  · exact blank

theorem endsWord_of_letter (letter : 'A'.toNat ≤ c.toNat ∧ c.toNat ≤ 'Z'.toNat) :
    endsWord c = false := by
  have table : ∀ n < 128, 'A'.toNat ≤ (Char.ofNat n).toNat ∧ (Char.ofNat n).toNat ≤ 'Z'.toNat →
      endsWord (Char.ofNat n) = false := by decide +kernel
  have ascii : c.toNat < 128 := Nat.lt_of_le_of_lt letter.2 (by decide)
  exact Text.of_ascii (P := fun c => 'A'.toNat ≤ c.toNat ∧ c.toNat ≤ 'Z'.toNat → endsWord c = false)
    table ascii letter

/-- An upper case ends a word only where the character itself does. -/
theorem endsWord_of_mem_upper (mem : d ∈ upper c) (ends : endsWord d = true) : endsWord c = true := by
  rcases Text.eq_or_isUpperImage_of_mem_upper mem with rfl | image
  · exact ends
  · obtain ⟨-, letter | outside⟩ := image.isCapital
    · rw [endsWord_of_letter letter] at ends
      cases ends
    · rw [endsWord, if_neg (Nat.not_lt.2 outside), Text.isBlank_iff] at ends
      exact absurd ends image.not_blank

/-! ### White space is removed -/

/-- What one character of a text becomes, before white space is removed. -/
def image (previous c : Char) : List Char := if endsWord previous then upper c else [c]

theorem titled_cons (previous c : Char) (cs : List Char) :
    titled previous (c :: cs) = image previous c ++ titled c cs := rfl

theorem isBlank_of_mem_image (mem : d ∈ image previous c) : isBlank d = isBlank c := by
  unfold image at mem
  split at mem
  · exact Text.isBlank_of_mem_upper mem
  · rw [List.mem_singleton.1 mem]

/-- White space leaves nothing, and nothing else is removed. -/
theorem filter_image (previous c : Char) :
    (image previous c).filter (fun d => !isBlank d) = if isBlank c then [] else image previous c := by
  split
  · next blank =>
    refine List.filter_eq_nil_iff.2 fun d mem => ?_
    simp [isBlank_of_mem_image mem, blank]
  · next shown =>
    refine List.filter_eq_self.2 fun d mem => ?_
    simp [isBlank_of_mem_image mem, shown]

theorem filter_titled_cons (previous c : Char) (cs : List Char) :
    (titled previous (c :: cs)).filter (fun d => !isBlank d) =
      (if isBlank c then [] else image previous c) ++
        (titled c cs).filter (fun d => !isBlank d) := by
  rw [titled_cons, List.filter_append, filter_image]

theorem flatMap_upper_image (previous c : Char) : (image previous c).flatMap upper = upper c := by
  unfold image
  split
  · exact Text.flatMap_upper_of_forall fun d mem => Text.upper_of_mem_upper mem
  · rw [List.flatMap_singleton]

/-- In upper case, the label and the text without white space are the same. -/
theorem flatMap_upper_filter_titled (previous : Char) (cs : List Char) :
    ((titled previous cs).filter (fun d => !isBlank d)).flatMap upper =
      (cs.filter (fun d => !isBlank d)).flatMap upper := by
  induction cs generalizing previous with
  | nil => rfl
  | cons c cs ih =>
    rw [filter_titled_cons, List.flatMap_append, ih c]
    cases blank : isBlank c with
    | true => simp [blank]
    | false => simp [blank, flatMap_upper_image]

/-! ### Settled texts -/

/-- Every character behind a word end is its own upper case; `previous` is the character before the
text. -/
def Settled : Char → List Char → Prop
  | _, [] => True
  | previous, c :: cs => (endsWord previous = true → upper c = [c]) ∧ Settled c cs

/-- A settled text is not changed. -/
theorem titled_of_settled (h : Settled previous cs) : titled previous cs = cs := by
  induction cs generalizing previous with
  | nil => rfl
  | cons c cs ih =>
    obtain ⟨first, more⟩ := h
    rw [titled_cons, ih more, image]
    split
    · next ends => rw [first ends, List.singleton_append]
    · rfl

/-- Characters that are their own upper case may stand anywhere; behind them only the last one
counts. -/
theorem settled_append (fixed : ∀ d ∈ ds, upper d = [d]) (some : ds ≠ [])
    (more : ∀ d ∈ ds, Settled d cs) : Settled before (ds ++ cs) := by
  induction ds generalizing before with
  | nil => exact absurd rfl some
  | cons d ds ih =>
    obtain ⟨first, others⟩ := List.forall_mem_cons.1 fixed
    refine ⟨fun _ => first, ?_⟩
    by_cases last : ds = []
    · rw [last]
      exact more d (by simp)
    · exact ih others last fun e mem => more e (List.mem_cons_of_mem d mem)

/-- A label is settled. What stands before it need not be the character before the text, but may end
a word only if that one does. -/
theorem settled_filter_titled (weaker : endsWord before = true → endsWord previous = true) :
    Settled before ((titled previous cs).filter fun d => !isBlank d) := by
  induction cs generalizing before previous with
  | nil => trivial
  | cons c cs ih =>
    rw [filter_titled_cons]
    split
    · next blank => exact ih fun _ => endsWord_of_isBlank blank
    · unfold image
      split
      · exact settled_append (fun d mem => Text.upper_of_mem_upper mem) (Text.upper_ne_nil c)
          fun d mem => ih (endsWord_of_mem_upper mem)
      · next inside => exact ⟨fun ends => absurd (weaker ends) inside, ih id⟩

end Label

/-- A label is its own label, has no white space in it, and differs from its text without white space
by the case of characters only. -/
theorem label_changes_case_only (text : String) :
    label (label text) = label text ∧ (∀ c ∈ (label text).toList, isBlank c = false) ∧
      (label text).toList.flatMap upper =
        (text.toList.filter fun c => !isBlank c).flatMap upper := by
  have chars : (label text).toList = Label.chars text.toList := String.toList_ofList
  have shown : ∀ c ∈ Label.chars text.toList, isBlank c = false := fun c mem => by
    simpa using (List.mem_filter.1 mem).2
  refine ⟨?_, ?_, ?_⟩
  · have settled : Label.Settled ' ' (Label.chars text.toList) := Label.settled_filter_titled id
    have kept : (Label.chars text.toList).filter (fun c => !isBlank c) = Label.chars text.toList :=
      List.filter_eq_self.2 fun c mem => by simp [shown c mem]
    rw [label, chars, Label.chars, Label.titled_of_settled settled, kept]
    rfl
  · rw [chars]
    exact shown
  · rw [chars]
    exact Label.flatMap_upper_filter_titled ' ' text.toList

/-- Letters that have two letters for their upper case. -/
example : label "ßx ﬁn-ŉ" = "SSxFIn-ʼN" ∧ label "SSxFIn-ʼN" = "SSxFIn-ʼN" := by decide +kernel

end PathPattern
