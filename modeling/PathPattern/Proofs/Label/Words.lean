import Mathlib.Data.List.SplitBy
import PathPattern.Proofs.Label.Casing

/-!
# Labels word by word

What a character becomes depends on the text before it only by whether a word ends there, so behind a
separator a label goes on as it starts (`chars_append_of_endsWord`). The label of a text is the labels
of its words one after another, wherever the words stand, and white space between them leaves
nothing.
-/

namespace PathPattern

open Text (isBlank)

namespace Label

variable {c s previous : Char} {as bs : List Char} {a b w : String} {ws : List String}

/-- A word ends here: an ASCII character but a letter, a digit or the underscore, or white space
outside of ASCII. -/
def IsSeparator (c : Char) : Prop :=
  c.toNat < 128 ∧ ¬(c.isAlpha = true ∨ c.isDigit = true ∨ c = '_') ∨
    128 ≤ c.toNat ∧ isBlank c = true

instance (c : Char) : Decidable (IsSeparator c) := inferInstanceAs (Decidable (_ ∨ _))

theorem endsWord_iff : endsWord c = true ↔ IsSeparator c := by
  unfold endsWord IsSeparator
  split
  · next ascii => simp [Char.isAlphanum, ascii, and_assoc]
  · next outside =>
    have beyond : 128 ≤ c.toNat := Nat.not_lt.1 outside
    simp [outside, beyond]

theorem isSeparator_of_isBlank (blank : isBlank s = true) : IsSeparator s :=
  endsWord_iff.1 (endsWord_of_isBlank blank)

/-- The text ends at a separator. -/
def EndsAtSeparator (w : String) : Prop := ∃ s ∈ w.toList.getLast?, IsSeparator s

/-! ### Behind a separator -/

/-- Of what stands before a text only matters whether a word ends there. -/
theorem titled_eq_of_endsWord (ends : endsWord s = true) (ends' : endsWord c = true) (cs : List Char) :
    titled s cs = titled c cs := by
  cases cs with
  | nil => rfl
  | cons d cs => simp only [titled, ends, ends']

theorem titled_append_cons (ends : endsWord s = true) :
    titled previous (as ++ s :: bs) = titled previous (as ++ [s]) ++ titled ' ' bs := by
  induction as generalizing previous with
  | nil =>
    have again : titled s bs = titled ' ' bs := titled_eq_of_endsWord ends (by decide) bs
    rw [List.nil_append, List.nil_append, titled_cons, titled_cons, again, titled, List.append_nil]
  | cons a as ih => rw [List.cons_append, List.cons_append, titled_cons, titled_cons, ih,
      List.append_assoc]

/-- Behind a separator a label goes on as it starts. -/
theorem chars_append_of_endsWord (ends : endsWord s = true) :
    chars (as ++ s :: bs) = chars (as ++ [s]) ++ chars bs := by
  rw [chars, titled_append_cons ends, List.filter_append]
  rfl

theorem chars_append_of_getLast? (last : s ∈ as.getLast?) (ends : endsWord s = true) (bs : List Char) :
    chars (as ++ bs) = chars as ++ chars bs := by
  obtain ⟨front, rfl⟩ := List.getLast?_eq_some_iff.1 last
  rw [List.append_assoc, List.singleton_append, chars_append_of_endsWord ends]

/-- White space behind a text leaves nothing. -/
theorem filter_titled_append_blanks (blanks : ∀ b ∈ bs, isBlank b = true) :
    (titled previous (as ++ bs)).filter (fun d => !isBlank d) =
      (titled previous as).filter fun d => !isBlank d := by
  induction as generalizing previous with
  | nil =>
    induction bs generalizing previous with
    | nil => rfl
    | cons b bs ih =>
      obtain ⟨first, more⟩ := List.forall_mem_cons.1 blanks
      rw [List.nil_append, filter_titled_cons, if_pos first, List.nil_append]
      exact ih more
  | cons a as ih => rw [List.cons_append, filter_titled_cons, filter_titled_cons, ih]

theorem chars_append_blanks (blanks : ∀ b ∈ bs, isBlank b = true) : chars (as ++ bs) = chars as :=
  filter_titled_append_blanks blanks

/-! ### Words -/

theorem label_append (ends : EndsAtSeparator a) (b : String) : label (a ++ b) = label a ++ label b := by
  obtain ⟨s, last, separator⟩ := ends
  rw [label, String.toList_append, chars_append_of_getLast? last (endsWord_iff.2 separator),
    String.ofList_append]
  rfl

theorem EndsAtSeparator.append_blanks (ends : EndsAtSeparator a)
    (blanks : ∀ c ∈ b.toList, isBlank c = true) : EndsAtSeparator (a ++ b) := by
  unfold EndsAtSeparator
  rw [String.toList_append, List.getLast?_append]
  cases last : b.toList.getLast? with
  | none => exact ends
  | some s => exact ⟨s, rfl, isSeparator_of_isBlank (blanks s (List.mem_of_getLast? last))⟩

theorem label_append_blanks (blanks : ∀ c ∈ b.toList, isBlank c = true) :
    label (a ++ b) = label a := by
  rw [label, String.toList_append, chars_append_blanks blanks]
  rfl

/-- The label of texts that all but the last end at a separator. -/
theorem label_join (ends : ∀ w ∈ ws.dropLast, EndsAtSeparator w) :
    label (String.join ws) = String.join (ws.map label) := by
  induction ws with
  | nil => rfl
  | cons w ws ih =>
    cases ws with
    | nil => simp
    | cons v ws =>
      obtain ⟨first, more⟩ := List.forall_mem_cons.1 ends
      calc
        label (String.join (w :: v :: ws)) = label w ++ label (String.join (v :: ws)) := by
          rw [String.join_cons, label_append first]
        _ = label w ++ String.join ((v :: ws).map label) := by rw [ih more]
        _ = String.join ((w :: v :: ws).map label) := by rw [← String.join_cons]; rfl

/-- The words of a text, each up to the separator behind it. -/
def words (text : String) : List String :=
  (text.toList.splitBy fun c _ => !endsWord c).map String.ofList

/-- The texts are the words of a text in order: each but the last ends at a separator, and has no
other separator in it. -/
structure AreWords (text : String) (ws : List String) : Prop where
  whole : String.join ws = text
  inside : ∀ w ∈ ws, ∀ c ∈ w.toList.dropLast, ¬IsSeparator c
  ends : ∀ w ∈ ws.dropLast, EndsAtSeparator w

theorem forall_mem_dropLast_of_isChain {α : Type} {P : α → Prop} {l : List α}
    (chain : l.IsChain fun a _ => P a) : ∀ a ∈ l.dropLast, P a := by
  induction chain with
  | nil => simp
  | singleton a => simp
  | cons_cons first _ ih =>
    rw [List.dropLast_cons_cons, List.forall_mem_cons]
    exact ⟨first, ih⟩

theorem areWords_words (text : String) : AreWords text (words text) where
  whole := by
    have chars : ∀ css : List (List Char), String.join (css.map String.ofList) =
        String.ofList css.flatten := by
      intro css
      induction css with
      | nil => rfl
      | cons cs css ih => rw [List.map_cons, String.join_cons, ih, List.flatten_cons,
          String.ofList_append]
    rw [words, chars, List.flatten_splitBy, String.ofList_toList]
  inside := by
    intro w mem c inside
    obtain ⟨cs, piece, rfl⟩ := List.mem_map.1 mem
    rw [String.toList_ofList] at inside
    have chain : cs.IsChain fun c _ => (!endsWord c) = true := List.isChain_of_mem_splitBy piece
    have goesOn := forall_mem_dropLast_of_isChain chain c inside
    simpa [← endsWord_iff] using goesOn
  ends := by
    rw [words, ← List.map_dropLast, List.forall_mem_map]
    have chain := List.isChain_getLast_head_splitBy (fun c _ => !endsWord c) text.toList
    refine forall_mem_dropLast_of_isChain (chain.imp ?_)
    rintro as bs ⟨some, -, ends⟩
    refine ⟨as.getLast some, ?_, endsWord_iff.1 (by simpa using ends)⟩
    rw [String.toList_ofList, List.getLast?_eq_some_getLast some]
    rfl

end Label

open Label

/-- A label goes on behind a separator as it starts, and white space is not seen. So the label of a
text is the labels of its words; in whatever order texts that end at separators stand, and however
much white space is between them, each adds its own label. -/
theorem label_word_by_word :
    (∀ (a b : String) (s : Char), IsSeparator s →
      label (a ++ String.singleton s ++ b) = label (a ++ String.singleton s) ++ label b) ∧
    (∀ (a : String) (s : Char), isBlank s = true → label (a ++ String.singleton s) = label a) ∧
    (∀ text, AreWords text (words text) ∧ label text = String.join ((words text).map label)) ∧
    ∀ (parts : List (String × String)) (rest : String),
      (∀ part ∈ parts, EndsAtSeparator part.1 ∧ ∀ c ∈ part.2.toList, isBlank c = true) →
      label (String.join (parts.map fun part => part.1 ++ part.2) ++ rest) =
        String.join (parts.map fun part => label part.1) ++ label rest := by
  refine ⟨?_, ?_, ?_, ?_⟩
  · intro a b s separator
    exact label_append ⟨s, by simp, separator⟩ b
  · intro a s blank
    exact label_append_blanks (by simpa using blank)
  · intro text
    have parts := areWords_words text
    refine ⟨parts, ?_⟩
    rw [← label_join parts.ends, parts.whole]
  · intro parts rest each
    induction parts with
    | nil => simp
    | cons part parts ih =>
      obtain ⟨⟨ends, blanks⟩, more⟩ := List.forall_mem_cons.1 each
      have behind := label_append (ends.append_blanks blanks)
        (String.join (parts.map fun part => part.1 ++ part.2) ++ rest)
      rw [label_append_blanks blanks, ih more, ← String.append_assoc] at behind
      rw [List.map_cons, String.join_cons, List.map_cons, String.join_cons, behind,
        String.append_assoc]

/-- An underscore does not end a word, but a dash does, and a wide blank adds nothing. -/
theorem label_of_spaced_words :
    ¬IsSeparator '_' ∧ IsSeparator '-' ∧
      label ("ß_a" ++ String.singleton '-' ++ "ßb") =
        label ("ß_a" ++ String.singleton '-') ++ label "ßb" ∧
      isBlank '\u3000' = true ∧ label ("ßb" ++ String.singleton '\u3000') = label "ßb" ∧
      EndsAtSeparator "ß_a-" ∧ label ("ß_a-" ++ "\u3000 " ++ "ßb") = label "ß_a-" ++ label "ßb" ∧
      label "ß_a-" ++ label "ßb" = "SS_a-SSb" := by
  have dash : IsSeparator '-' := by decide
  have blank : isBlank '\u3000' = true := by decide
  have blanks : "\u3000 ".toList.all isBlank = true := by decide
  have ends : EndsAtSeparator "ß_a-" := ⟨'-', by decide, dash⟩
  have spaced := label_word_by_word.2.2.2 [("ß_a-", "\u3000 ")] "ßb"
    (List.forall_mem_singleton.2 ⟨ends, List.all_eq_true.1 blanks⟩)
  exact ⟨by decide, dash, label_word_by_word.1 "ß_a" "ßb" '-' dash, blank,
    label_word_by_word.2.1 "ßb" '\u3000' blank, ends, by simpa using spaced, by decide +kernel⟩

end PathPattern
