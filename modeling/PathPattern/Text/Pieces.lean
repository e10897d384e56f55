/-!
# Cutting texts at a separator

`pieces` cuts a text at every occurrence of a separator and `trimSep` removes the separator
from both ends. `span` cuts once, before the first character of a kind. `byteCount` measures
a text in the bytes of its UTF-8 form, the unit of the offsets in messages.
-/

namespace PathPattern.Text

/-- The pieces of a text between separators; one more than there are separators. -/
def pieces (sep : Char) : List Char → List (List Char)
  | [] => [[]]
  | c :: cs =>
    if c = sep then [] :: pieces sep cs
    else
      match pieces sep cs with
      | [] => [[c]]
      | p :: ps => (c :: p) :: ps

/-- The text without the separators it starts and ends with. -/
def trimSep (sep : Char) (cs : List Char) : List Char :=
  ((cs.dropWhile (· == sep)).reverse.dropWhile (· == sep)).reverse

/-- The part before the first `stop`, and the part after it if there is one. -/
def cutAt (stop : Char) : List Char → List Char × Option (List Char)
  | [] => ([], none)
  | c :: cs =>
    if c = stop then ([], some cs)
    else
      let (before, after) := cutAt stop cs
      (c :: before, after)

/-- The number of bytes of a text in UTF-8. -/
def byteCount (cs : List Char) : Nat := cs.foldr (fun c n => c.utf8Size + n) 0

theorem pieces_ne_nil (sep : Char) (cs : List Char) : pieces sep cs ≠ [] := by
  cases cs with
  | nil => simp [pieces]
  | cons c cs =>
    rw [pieces]
    split
    · simp
    · split <;> simp

/-- A cut loses nothing: the two parts and the stop between them make the text. -/
theorem append_of_cutAt_some {stop : Char} {cs before after : List Char}
    (h : cutAt stop cs = (before, some after)) : cs = before ++ stop :: after := by
  induction cs generalizing before with
  | nil => simp [cutAt] at h
  | cons c cs ih =>
    rw [cutAt] at h
    split at h
    · simp_all
    · cases hcut : cutAt stop cs with
      | mk b a =>
        simp only [hcut, Prod.mk.injEq] at h
        obtain ⟨rfl, rfl⟩ := h
        simp [ih hcut]

/-- A text without the stop is its own first part. -/
theorem eq_of_cutAt_none {stop : Char} {cs before : List Char}
    (h : cutAt stop cs = (before, none)) : cs = before := by
  induction cs generalizing before with
  | nil => simp_all [cutAt]
  | cons c cs ih =>
    rw [cutAt] at h
    split at h
    · simp at h
    · cases hcut : cutAt stop cs with
      | mk b a =>
        simp only [hcut, Prod.mk.injEq] at h
        obtain ⟨rfl, rfl⟩ := h
        simp [ih hcut]

/-- The first part of a cut holds no stop. -/
theorem not_mem_cutAt_fst (stop : Char) (cs : List Char) : stop ∉ (cutAt stop cs).1 := by
  induction cs with
  | nil => simp [cutAt]
  | cons c cs ih =>
    rw [cutAt]
    split
    · simp
    · next hc => simp [ih, Ne.symm hc]

/-- What follows the stop is shorter than the text. -/
theorem length_lt_of_cutAt_some {stop : Char} {cs before after : List Char}
    (h : cutAt stop cs = (before, some after)) : after.length < cs.length := by
  rw [append_of_cutAt_some h]
  simp only [List.length_append, List.length_cons]
  omega

end PathPattern.Text
