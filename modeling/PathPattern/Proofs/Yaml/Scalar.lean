import PathPattern.Proofs.Text.Cut
import PathPattern.Yaml.Scalar

/-!
# Scalars on one line

A word of letters, digits and a few marks is a plain scalar (`IsWord`). It is read as it stands up to the
end of its line, which is passed over as well (`plainScalar_line`), or up to a mark (`plainScalar_stop`).
What stands between quotes is read as it stands too, its spaces with it, and escapes count for their
character (`quotedScalar_row`). The cursor is behind the scalar then, and nothing else changes.
-/

namespace PathPattern.Yaml

variable {c : Cursor} {d : Char} {cs ds rest text text' : List Char} {single flow : Bool}
  {steps n : Nat}

/-! ### Places -/

namespace Cursor

theorem reach_of_whole (whole : c.broken = false) (n : Nat) : c.reach n = some () := by
  rw [reach, fallsShort, whole]
  rfl

theorem skip_zero (c : Cursor) : c.skip 0 = c := by
  cases c
  simp [skip, Text.byteCount]

theorem skip_skip (c : Cursor) (m n : Nat) : (c.skip m).skip n = c.skip (m + n) := by
  simp only [skip, List.drop_drop, List.take_add, Text.byteCount_append, Nat.add_assoc]

theorem rest_skip (behind : c.rest = cs ++ rest) : (c.skip cs.length).rest = rest := by
  simp [skip, behind]

theorem sees_cons (behind : c.rest = d :: cs) (p : Char → Bool) : c.sees 0 p = p d := by
  simp [sees, peek?, behind]

theorem sees_second {e : Char} (behind : c.rest = d :: e :: cs) (p : Char → Bool) :
    c.sees 1 p = p e := by
  simp [sees, peek?, behind]

theorem sees_nil (behind : c.rest = []) (p : Char → Bool) : c.sees 0 p = false := by
  simp [sees, peek?, behind]

theorem anyDocumentMark_of_column (inside : c.column ≠ 0) : c.anyDocumentMark = false := by
  simp [anyDocumentMark, documentMark, inside]

theorem nextLine_of_lineFeed (behind : c.rest = '\n' :: rest) :
    c.nextLine = { c.skip 1 with line := c.line + 1, column := 0 } := by
  simp only [nextLine, behind]
  rfl

end Cursor

/-! ### Plain words -/

/-- The characters of plain words. -/
def wordChars : List Char :=
  "0123456789abcdefghijklmnopqrstuvwxyzABCDEFGHIJKLMNOPQRSTUVWXYZ_-+.:/".toList

/-- A character that has no meaning of its own inside a plain scalar, but for a colon. -/
structure IsInner (d : Char) : Prop where
  space : isSpace d = false
  lineEnd : isBreak d = false
  allowed : isAllowed d = true
  comment : (d == '#') = false
  order : isOrderMark d = false
  bracket : (",[]\x7b\x7d".toList.contains d) = false
  mark : (",?[]\x7b\x7d".toList.contains d) = false

theorem isInner_of_mem (mem : d ∈ wordChars) : IsInner d := by
  have all : wordChars.all (fun d => !isSpace d && !isBreak d && isAllowed d && !(d == '#') &&
      !isOrderMark d && !",[]\x7b\x7d".toList.contains d && !",?[]\x7b\x7d".toList.contains d) = true := by
    decide +kernel
  have here := List.all_eq_true.1 all d mem
  simp only [Bool.and_eq_true, Bool.not_eq_true'] at here
  obtain ⟨⟨⟨⟨⟨⟨space, lineEnd⟩, allowed⟩, comment⟩, order⟩, bracket⟩, mark⟩ := here
  exact ⟨space, lineEnd, allowed, comment, order, bracket, mark⟩

/-- What is checked of each character of words holds of them. -/
theorem of_wordChars {P : Char → Prop} [DecidablePred P]
    (all : wordChars.all (fun d => decide (P d)) = true) (mem : d ∈ wordChars) : P d :=
  of_decide_eq_true (List.all_eq_true.1 all d mem)

/-- No character of a word starts another token, but for a dash and a colon. -/
theorem not_mem_starts (mem : d ∈ wordChars) : d ∉ ['%', '[', ']', '{', '}', ',', '?', '\'', '"'] ∧
    ("-?:,[]\x7b\x7d#&*!|>'\"%@`".toList.contains d) = (d == '-' || d == ':') := by
  revert mem
  apply of_wordChars
  decide +kernel

/-- A plain scalar of one word; a dash before other characters is a part of it, and a colon is where
it is not the last one. -/
structure IsWord (text : List Char) : Prop where
  chars : ∀ d ∈ text, d ∈ wordChars
  starts : ∃ d cs, text = d :: cs ∧ d ≠ ':' ∧ (d = '-' → cs ≠ [])
  last : text.getLast? ≠ some ':'

/-- Words can be told by looking at them. -/
theorem isWord_iff : IsWord text ↔ text.all (wordChars.contains ·) = true ∧
    text.head?.any (· != ':') = true ∧ text ≠ ['-'] ∧ text.getLast? ≠ some ':' := by
  constructor
  · rintro ⟨chars, ⟨d, cs, rfl, first, dashed⟩, last⟩
    refine ⟨List.all_eq_true.2 fun e mem => List.contains_iff_mem.2 (chars e mem), by simpa using first,
      fun same => ?_, last⟩
    obtain ⟨rfl, rfl⟩ := List.cons.inj same
    exact dashed rfl rfl
  · rintro ⟨chars, first, noDash, last⟩
    refine ⟨fun d mem => List.contains_iff_mem.1 (List.all_eq_true.1 chars d mem), ?_, last⟩
    cases text with
    | nil => cases first
    | cons d cs =>
      refine ⟨d, cs, rfl, by simpa using first, ?_⟩
      rintro rfl rfl
      exact noDash rfl

instance : Decidable (IsWord text) := decidable_of_iff _ isWord_iff.symm

/-- No word goes on with this text: it is empty or starts with a line end, a colon before a space or,
in brackets, a mark of them. -/
inductive EndsWord (flow : Bool) : List Char → Prop where
  | nil : EndsWord flow []
  | lineFeed (rest : List Char) : EndsWord flow ('\n' :: rest)
  | colon (rest : List Char) : EndsWord flow (':' :: ' ' :: rest)
  | mark {d : Char} (rest : List Char) (inside : flow = true) (isMark : d = ',' ∨ d = '}') :
    EndsWord flow (d :: rest)

theorem plainWord_of_ends (ends : EndsWord flow rest) : plainWord flow false rest = some [] := by
  cases ends with
  | nil => rfl
  | lineFeed => rfl
  | colon => cases flow <;> rfl
  | mark _ inside isMark =>
    subst inside
    rcases isMark with rfl | rfl <;> rfl

theorem EndsWord.head?_ne (ends : EndsWord flow rest) : rest.head? ≠ some '\'' := by
  cases ends with
  | nil => simp
  | lineFeed => simp
  | colon => simp
  | mark rest inside isMark => rcases isMark with rfl | rfl <;> simp

theorem plainWord_append (chars : ∀ d ∈ text, d ∈ wordChars) (last : text.getLast? ≠ some ':')
    (ends : EndsWord flow rest) : plainWord flow false (text ++ rest) = some text := by
  induction text with
  | nil => exact plainWord_of_ends ends
  | cons d text ih =>
    obtain ⟨mem, more⟩ := List.forall_mem_cons.1 chars
    have here := isInner_of_mem mem
    have later : text.getLast? ≠ some ':' := by
      cases text with
      | nil => simp
      | cons e text => simpa using last
    -- A colon is followed by a character of the word.
    have colon (p : Char → Bool) (other : ∀ e, IsInner e → p e = false) :
        (d == ':' && (text ++ rest).head?.any p) = false ∧
          (d == ':' && (text ++ rest).head?.all p) = false := by
      by_cases isColon : d = ':'
      · cases text with
        | nil => simp [isColon] at last
        | cons e text =>
          have next := other e (isInner_of_mem (more e List.mem_cons_self))
          simp [next]
      · simp [isColon]
    have marks := (colon (fun e => ",?[]\x7b\x7d".toList.contains e) fun e inner => inner.mark).1
    have blanks := (colon (fun e => isSpace e || isBreak e) fun e inner => by
      simp [inner.space, inner.lineEnd]).2
    rw [List.cons_append, plainWord]
    simp only [here.space, here.lineEnd, here.bracket, Bool.or_self, Bool.false_eq_true, if_false,
      Bool.and_assoc, marks, blanks, Bool.and_false, fallsShort, Bool.false_and, ih more later,
      Option.map_some]

/-- A word is read whole, before what follows it is looked at. -/
theorem plainFrom_word (k : Nat) (indent : Int) (word : IsWord text) (behind : c.rest = text ++ rest)
    (ends : EndsWord flow rest) (whole : c.broken = false) (noMark : c.anyDocumentMark = false) :
    plainFrom flow indent (k + 1) .none c =
      if (c.skip text.length).sees 0 fun d => isSpace d || isBreak d then do
        let (g, c') ← readGap indent c.limit .none (c.skip text.length)
        if !flow && (c'.column : Int) < indent then return (text, g.firstBreak.isSome, c')
        else
          let (more, broke, c') ← plainFrom flow indent k g c'
          return (text ++ more, broke, c')
      else some (text, false, c.skip text.length) := by
  obtain ⟨d, cs, rfl, -⟩ := word.starts
  have shape : c.rest = d :: (cs ++ rest) := behind
  have first : c.sees 0 (· == '#') = false := by
    rw [Cursor.sees_cons shape]
    exact (isInner_of_mem (word.chars d List.mem_cons_self)).comment
  rw [plainFrom, Cursor.reach_of_whole whole]
  simp only [noMark, first, whole, behind, plainWord_append word.chars word.last ends,
    Option.bind_eq_bind, Option.bind_some, Bool.or_self, Bool.false_eq_true, if_false, reduceCtorEq]
  rfl

/-- A word is read up to what stops it, if that is no white space. -/
theorem plainScalar_stop {indent : Int} (word : IsWord text) (behind : c.rest = text ++ rest)
    (ends : EndsWord flow rest) (whole : c.broken = false) (noMark : c.anyDocumentMark = false)
    (steps : 0 < c.limit) (stop : ∀ d ∈ rest.head?, (isSpace d || isBreak d) = false) :
    plainScalar flow indent c = some (text, false, c.skip text.length) := by
  obtain ⟨k, limit⟩ : ∃ k, c.limit = k + 1 := ⟨c.limit - 1, by omega⟩
  have here : (c.skip text.length).rest = rest := Cursor.rest_skip behind
  have noBlank : (c.skip text.length).sees 0 (fun d => isSpace d || isBreak d) = false := by
    cases rest with
    | nil => exact Cursor.sees_nil here _
    | cons d rest => exact (Cursor.sees_cons here _).trans (stop d rfl)
  rw [plainScalar, limit, plainFrom_word k _ word behind ends whole noMark, noBlank]
  rfl

/-- The line end behind a word is passed over, up to a line that goes on with no white space. -/
theorem readGap_lineFeed (k : Nat) (indent : Int) (behind : c.rest = '\n' :: rest)
    (whole : c.broken = false) (top : ∀ d ∈ rest.head?, isSpace d = false ∧ isBreak d = false) :
    readGap indent (k + 2) .none c = some (⟨[], some ['\n'], []⟩, c.nextLine) := by
  have next := Cursor.nextLine_of_lineFeed behind
  have there : c.nextLine.rest = rest := by
    rw [next]
    simp [Cursor.skip, behind]
  have whole' : c.nextLine.broken = false := by
    rw [next]
    exact whole
  have stop (p : Char → Bool) (other : ∀ d ∈ rest.head?, p d = false) :
      c.nextLine.sees 0 p = false := by
    cases rest with
    | nil => exact Cursor.sees_nil there p
    | cons d rest => exact (Cursor.sees_cons there p).trans (other d (by simp))
  have text : c.breakText = ['\n'] := by
    simp only [Cursor.breakText, behind]
    rfl
  have space : isSpace '\n' = false := rfl
  have lineEnd : isBreak '\n' = true := rfl
  rw [readGap, Cursor.reach_of_whole whole, Cursor.sees_cons behind isSpace,
    Cursor.sees_cons behind isBreak]
  simp only [space, lineEnd, Cursor.reach_of_whole whole, text, Gap.none, Option.bind_eq_bind,
    Option.bind_some, Option.isNone_none, Bool.false_eq_true, if_false, if_true]
  rw [readGap, Cursor.reach_of_whole whole', stop isSpace fun d mem => (top d mem).1,
    stop isBreak fun d mem => (top d mem).2]
  rfl

/-- A word is read up to the end of its line, and the line end with it. -/
theorem plainScalar_line (word : IsWord text) (behind : c.rest = text ++ '\n' :: rest)
    (whole : c.broken = false) (noMark : c.anyDocumentMark = false) (steps : 2 ≤ c.limit)
    (top : ∀ d ∈ rest.head?, isSpace d = false ∧ isBreak d = false) :
    plainScalar false 0 c = some (text, true, (c.skip text.length).nextLine) := by
  obtain ⟨k, limit⟩ : ∃ k, c.limit = k + 2 := ⟨c.limit - 2, by omega⟩
  have here : (c.skip text.length).rest = '\n' :: rest := Cursor.rest_skip behind
  have gap : readGap (0 + 1) c.limit .none (c.skip text.length) = _ := limit ▸
    readGap_lineFeed k (0 + 1) (c := c.skip text.length) here whole top
  have column : (c.skip text.length).nextLine.column = 0 := by
    rw [Cursor.nextLine_of_lineFeed here]
  have blank : (c.skip text.length).sees 0 (fun d => isSpace d || isBreak d) = true :=
    Cursor.sees_cons here _
  have ends : EndsWord false ('\n' :: rest) := .lineFeed rest
  have read := plainFrom_word (k + 1) (0 + 1) word behind ends whole noMark
  rw [blank, gap] at read
  rw [plainScalar, limit, read]
  simp [column]

/-! ### Between quotes -/

/-- The mark that stands around a quoted scalar. -/
def quoteMark (single : Bool) : Char := if single then '\'' else '"'

/-- A character that stands for itself between quotes, and is no white space. -/
structure IsShown (single : Bool) (d : Char) : Prop where
  space : isSpace d = false
  lineEnd : isBreak d = false
  allowed : isAllowed d = true
  quote : d ≠ quoteMark single
  escape : single = false → d ≠ '\\'

/-- The characters between quotes stand for a text without white space, but for what escapes give. -/
inductive SpellsWord (single : Bool) : List Char → List Char → Prop where
  | nil : SpellsWord single [] []
  | shown {d : Char} {cs text : List Char} (isShown : IsShown single d)
    (more : SpellsWord single cs text) : SpellsWord single (d :: cs) (d :: text)
  | doubled {cs text : List Char} (isSingle : single = true) (more : SpellsWord single cs text) :
    SpellsWord single ('\'' :: '\'' :: cs) ('\'' :: text)
  | escaped {e d : Char} {cs text : List Char} (isDouble : single = false)
    (lineEnd : isBreak e = false) (letter : letterEscape? e = some d)
    (more : SpellsWord single cs text) : SpellsWord single ('\\' :: e :: cs) (d :: text)

/-- The characters between quotes stand for a text on one line: words with white space between
them. -/
inductive SpellsRow (single : Bool) : List Char → List Char → Prop where
  | word {cs text : List Char} (spelled : SpellsWord single cs text) : SpellsRow single cs text
  | gap {cs text spaces cs' text' : List Char} (spelled : SpellsWord single cs text)
    (blank : ∀ d ∈ spaces, isSpace d = true) (wide : spaces ≠ [])
    (apart : ∀ d ∈ cs'.head?, isSpace d = false) (more : SpellsRow single cs' text') :
    SpellsRow single (cs ++ (spaces ++ cs')) (text ++ (spaces ++ text'))

/-- A word between quotes ends here: with white space, or with the closing quote. -/
inductive EndsQuoted (single : Bool) : List Char → Prop where
  | space {d : Char} (rest : List Char) (isSpace : isSpace d = true) : EndsQuoted single (d :: rest)
  | quote {rest : List Char} (only : rest.head? ≠ some '\'') :
    EndsQuoted single (quoteMark single :: rest)

theorem quotedWord_of_ends (behind : c.rest = rest) (ends : EndsQuoted single rest) :
    quotedWord single (n + 1) c = some ([], false, c) := by
  cases ends with
  | space rest isSpace =>
    rw [quotedWord, behind]
    simp only [isSpace, Bool.true_or, if_true]
  | quote only =>
    rw [quotedWord, behind]
    cases single with
    | true => simp [quoteMark, isSpace, isBreak, only]
    | false => simp [quoteMark, isSpace, isBreak]

theorem IsShown.tests (h : IsShown single d) :
    (single && d == '\'') = false ∧ (!single && d == '"') = false ∧
      (!single && d == '\\') = false := by
  obtain ⟨-, -, -, quote, escape⟩ := h
  cases single with
  | true => simpa [quoteMark] using quote
  | false => simpa [quoteMark] using And.intro quote (escape rfl)

/-- A word between quotes is read whole. -/
theorem quotedWord_append (spelled : SpellsWord single cs text) (behind : c.rest = cs ++ rest)
    (whole : c.broken = false) (ends : EndsQuoted single rest) (steps : cs.length < n) :
    quotedWord single n c = some (text, false, c.skip cs.length) := by
  induction spelled generalizing c n with
  | nil =>
    obtain ⟨k, rfl⟩ : ∃ k, n = k + 1 := ⟨n - 1, by omega⟩
    rw [quotedWord_of_ends behind ends, List.length_nil, Cursor.skip_zero]
  | @shown d cs text isShown more ih =>
    obtain ⟨k, rfl⟩ : ∃ k, n = k + 1 := ⟨n - 1, by omega⟩
    obtain ⟨noQuote, noQuote', noEscape⟩ := isShown.tests
    have next := ih (c := c.skip 1) (n := k) (by simp [Cursor.skip, behind]) whole (by simpa using steps)
    rw [quotedWord, behind]
    simp only [List.cons_append, isShown.space, isShown.lineEnd, Bool.or_self, Bool.false_eq_true,
      if_false, noQuote, noQuote', noEscape]
    rw [Cursor.reach_of_whole (c := c.skip 1) whole, next, Cursor.skip_skip, Nat.add_comm 1]
    rfl
  | @doubled cs text isSingle more ih =>
    obtain ⟨k, rfl⟩ : ∃ k, n = k + 1 := ⟨n - 1, by omega⟩
    have next := ih (c := c.skip 2) (n := k) (by simp [Cursor.skip, behind]) whole
      (by simp only [List.length_cons] at steps; omega)
    rw [quotedWord, behind]
    subst isSingle
    have space : isSpace '\'' = false := rfl
    have lineEnd : isBreak '\'' = false := rfl
    simp only [List.cons_append, space, lineEnd, Bool.or_self, Bool.false_eq_true, if_false,
      beq_self_eq_true, Bool.and_self, if_true, List.head?_cons]
    rw [Cursor.reach_of_whole (c := c.skip 2) whole, next, Cursor.skip_skip, Nat.add_comm 2]
    rfl
  | @escaped e d cs text isDouble lineEnd letter more ih =>
    obtain ⟨k, rfl⟩ : ∃ k, n = k + 1 := ⟨n - 1, by omega⟩
    have next := ih (c := c.skip 2) (n := k) (by simp [Cursor.skip, behind]) whole
      (by simp only [List.length_cons] at steps; omega)
    rw [quotedWord, behind]
    subst isDouble
    have space : isSpace '\\' = false := rfl
    have noBreak : isBreak '\\' = false := rfl
    have noQuote : ('\\' == '"') = false := rfl
    simp only [List.cons_append, space, noBreak, noQuote, Bool.or_self, Bool.false_eq_true, if_false,
      Bool.not_false, Bool.false_and, Bool.true_and, beq_self_eq_true, if_true, lineEnd, letter]
    rw [Cursor.reach_of_whole (c := c.skip 2) whole, next, Cursor.skip_skip, Nat.add_comm 2]
    rfl

/-- Spaces inside a scalar are passed over and kept. -/
theorem readGap_spaces {spaces : List Char} (front : List Char) (indent : Int)
    (behind : c.rest = spaces ++ d :: rest)
    (blank : ∀ d ∈ spaces, isSpace d = true) (stop : (isSpace d || isBreak d) = false)
    (whole : c.broken = false) (steps : spaces.length < n) :
    readGap indent n ⟨front, none, []⟩ c =
      some (⟨front ++ spaces, none, []⟩, c.skip spaces.length) := by
  induction spaces generalizing c n front with
  | nil =>
    obtain ⟨k, rfl⟩ : ∃ k, n = k + 1 := ⟨n - 1, by simp at steps; omega⟩
    obtain ⟨noSpace, noBreak⟩ := Bool.or_eq_false_iff.1 stop
    rw [List.nil_append] at behind
    rw [readGap, Cursor.reach_of_whole whole, Cursor.sees_cons behind isSpace,
      Cursor.sees_cons behind isBreak, noSpace, noBreak, List.append_nil, List.length_nil,
      Cursor.skip_zero]
    rfl
  | cons e spaces ih =>
    obtain ⟨k, rfl⟩ : ∃ k, n = k + 1 := ⟨n - 1, by omega⟩
    obtain ⟨space, more⟩ := List.forall_mem_cons.1 blank
    rw [List.cons_append] at behind
    have first : c.rest.take 1 = [e] := by rw [behind]; rfl
    have next := ih (front ++ [e]) (c := c.skip 1) (n := k) (by simp [Cursor.skip, behind]) more
      whole (by simpa using steps)
    rw [readGap, Cursor.reach_of_whole whole, Cursor.sees_cons behind isSpace, space]
    simp only [Option.bind_eq_bind, Option.bind_some, Option.isNone_none, if_true, first]
    rw [next, Cursor.skip_skip, Nat.add_comm 1, List.append_assoc]
    rfl

theorem isBreak_of_isSpace (space : isSpace d = true) : isBreak d = false := by
  rcases (by simpa [isSpace] using space : d = ' ' ∨ d = '\t') with rfl | rfl <;> rfl

theorem isShown_quoteMark (single : Bool) :
    isSpace (quoteMark single) = false ∧ isBreak (quoteMark single) = false := by
  cases single <;> exact ⟨rfl, rfl⟩

/-- No line ends between quotes. -/
theorem SpellsWord.starts (spelled : SpellsWord single cs text) : ∀ d ∈ cs.head?, isBreak d = false := by
  cases spelled with
  | nil => simp
  | shown isShown => simpa using isShown.lineEnd
  | doubled => simp [isBreak]
  | escaped => simp [isBreak]

theorem SpellsRow.starts (spelled : SpellsRow single cs text) : ∀ d ∈ cs.head?, isBreak d = false := by
  cases spelled with
  | word spelled => exact spelled.starts
  | @gap cs text spaces cs' text' spelled blank wide apart more =>
    cases cs with
    | cons d cs => exact spelled.starts
    | nil =>
      obtain ⟨d, spaces, rfl⟩ := List.exists_cons_of_ne_nil wide
      simpa using isBreak_of_isSpace (blank d List.mem_cons_self)

/-- Between quotes, reading starts with a word. -/
theorem quotedFrom_word (spelled : SpellsWord single cs text) (behind : c.rest = cs ++ rest)
    (ends : EndsQuoted single rest) (whole : c.broken = false) (inside : c.column ≠ 0)
    (limit : cs.length < c.limit) :
    quotedFrom single (n + 1) c =
      if (c.skip cs.length).sees 0 (· == quoteMark single) then
        some (text, c.skip (cs.length + 1))
      else do
        let (g, c') ← readGap 0 c.limit .none (c.skip cs.length)
        let (more, c') ← quotedFrom single n c'
        return (text ++ g.folded ++ more, c') := by
  have filled : c.rest.isEmpty = false := by
    rw [behind]
    cases ends <;> simp
  rw [quotedFrom, Cursor.reach_of_whole whole, Cursor.anyDocumentMark_of_column inside, filled,
    quotedWord_append spelled behind whole ends limit]
  simp only [Option.bind_eq_bind, Option.bind_some, Bool.or_self, Bool.false_eq_true, if_false]
  rw [Cursor.reach_of_whole (c := c.skip cs.length) whole, Cursor.skip_skip]
  rfl

/-- What stands on one line between quotes is read whole, its white space with it. -/
theorem quotedFrom_row (spelled : SpellsRow single cs text)
    (behind : c.rest = cs ++ quoteMark single :: rest) (only : rest.head? ≠ some '\'')
    (whole : c.broken = false) (inside : c.column ≠ 0) (limit : cs.length < c.limit)
    (steps : cs.length < n) :
    quotedFrom single n c = some (text, c.skip (cs.length + 1)) := by
  obtain ⟨k, rfl⟩ : ∃ k, n = k + 1 := ⟨n - 1, by omega⟩
  induction spelled generalizing c k with
  | word spelled =>
    have here := Cursor.rest_skip behind
    rw [quotedFrom_word spelled behind (.quote only) whole inside limit, Cursor.sees_cons here]
    simp
  | @gap cs text spaces cs' text' spelled blank wide apart more ih =>
    obtain ⟨e, spaces, rfl⟩ := List.exists_cons_of_ne_nil wide
    have space := blank e List.mem_cons_self
    rw [List.append_assoc, List.append_assoc] at behind
    rw [List.length_append, List.length_append, List.length_cons] at limit steps
    have here := Cursor.rest_skip behind
    have there := Cursor.rest_skip (c := c.skip cs.length) here
    have noQuote : (e == quoteMark single) = false := by
      apply beq_eq_false_iff_ne.2
      rintro rfl
      rw [(isShown_quoteMark single).1] at space
      cases space
    -- A word follows, or the closing quote.
    obtain ⟨d, behind', split, stop⟩ : ∃ d behind', cs' ++ quoteMark single :: rest = d :: behind' ∧
        (isSpace d || isBreak d) = false := by
      cases cs' with
      | nil =>
        obtain ⟨noSpace, noBreak⟩ := isShown_quoteMark single
        exact ⟨_, rest, rfl, by rw [noSpace, noBreak]; rfl⟩
      | cons d cs' =>
        exact ⟨d, _, rfl, by rw [apart d rfl, more.starts d rfl]; rfl⟩
    have gap := readGap_spaces [] 0 (c := c.skip cs.length) (n := c.limit)
      (split ▸ here) blank stop whole (by simp only [List.length_cons]; omega)
    obtain ⟨j, rfl⟩ : ∃ j, k = j + 1 := ⟨k - 1, by omega⟩
    rw [quotedFrom_word spelled behind (.space _ space) whole inside (by omega),
      Cursor.sees_cons here, noQuote, Gap.none, gap, Cursor.skip_skip]
    rw [Cursor.skip_skip] at there
    have next := ih (c := c.skip (cs.length + (e :: spaces).length)) (k := j) there whole
      (by simp [Cursor.skip]) (by simp only [Cursor.skip]; omega) (by omega)
    have size : cs.length + (e :: spaces).length + (cs'.length + 1) =
        (cs ++ (e :: spaces ++ cs')).length + 1 := by
      simp only [List.length_append]
      omega
    simp only [Bool.false_eq_true, if_false, Option.bind_eq_bind, Option.bind_some, next]
    rw [Cursor.skip_skip, size]
    simp [Gap.folded]

/-- A quoted scalar on one line is read whole. -/
theorem quotedScalar_row (spelled : SpellsRow single cs text)
    (behind : c.rest = quoteMark single :: (cs ++ quoteMark single :: rest))
    (only : rest.head? ≠ some '\'') (whole : c.broken = false) (limit : cs.length < c.limit) :
    quotedScalar single c = some (text, c.skip (cs.length + 2)) := by
  have read := quotedFrom_row (c := c.skip 1) spelled (by simp [Cursor.skip, behind]) only whole
    (Nat.succ_ne_zero c.column) limit limit
  rw [Cursor.skip_skip, Nat.add_comm 1] at read
  exact read

/-! ### Spelled scalars -/

/-- A text stands for a scalar: it is a plain word, or a row between quotes. -/
inductive SpellsScalar : Bool → List Char → List Char → Prop where
  | plain {text : List Char} (word : IsWord text) : SpellsScalar true text text
  | quoted {single : Bool} {cs text : List Char} (spelled : SpellsRow single cs text) :
    SpellsScalar false (quoteMark single :: (cs ++ [quoteMark single])) text

/-- A scalar and how it is spelled. -/
structure Scalar where
  plain : Bool
  text : List Char
  spelled : List Char
  spells : SpellsScalar plain spelled text

theorem isAllowed_of_isSpace (space : isSpace d = true) : isAllowed d = true := by
  rcases (by simpa [isSpace] using space : d = ' ' ∨ d = '\t') with rfl | rfl <;> rfl

theorem isAllowed_of_letterEscape {e : Char} (letter : letterEscape? e = some d) :
    isAllowed e = true := by
  unfold letterEscape? at letter
  split at letter
  all_goals first | rfl | cases letter

theorem SpellsWord.isAllowed (spelled : SpellsWord single cs text) : ∀ d ∈ cs, isAllowed d = true := by
  induction spelled with
  | nil => simp
  | shown isShown more ih => simpa using ⟨isShown.allowed, ih⟩
  | doubled isSingle more ih =>
    have quote : Yaml.isAllowed '\'' = true := rfl
    simpa [quote] using ih
  | escaped isDouble lineEnd letter more ih =>
    have escape : Yaml.isAllowed '\\' = true := rfl
    simpa [escape, isAllowed_of_letterEscape letter] using ih

theorem SpellsRow.isAllowed (spelled : SpellsRow single cs text) : ∀ d ∈ cs, isAllowed d = true := by
  induction spelled with
  | word spelled => exact spelled.isAllowed
  | gap spelled blank wide apart more ih =>
    intro d mem
    rcases (by simpa using mem) with here | here | here
    · exact spelled.isAllowed d here
    · exact isAllowed_of_isSpace (blank d here)
    · exact ih d here

/-- A scalar holds no character that may not stand in a text. -/
theorem Scalar.isAllowed (scalar : Scalar) : ∀ d ∈ scalar.spelled, isAllowed d = true := by
  obtain ⟨plain, text, spelled, spells⟩ := scalar
  cases spells with
  | plain word => exact fun d mem => (isInner_of_mem (word.chars d mem)).allowed
  | @quoted single cs _ spelled =>
    have quote : Yaml.isAllowed (quoteMark single) = true := by cases single <;> rfl
    simpa [quote, or_imp, forall_and] using spelled.isAllowed

/-- A word between quotes is spelled as it is without them. -/
theorem spellsWord_of_mem (chars : ∀ d ∈ text, d ∈ wordChars) : SpellsWord single text text := by
  induction text with
  | nil => exact .nil
  | cons d text ih =>
    obtain ⟨mem, more⟩ := List.forall_mem_cons.1 chars
    have inner := isInner_of_mem mem
    have others := of_wordChars (P := fun d => d ≠ '\'' ∧ d ≠ '"' ∧ d ≠ '\\') (by decide +kernel) mem
    refine .shown ⟨inner.space, inner.lineEnd, inner.allowed, ?_, fun _ => others.2.2⟩ (ih more)
    cases single with
    | true => exact others.1
    | false => exact others.2.1

/-- A word as a plain scalar. -/
def Scalar.word (word : IsWord text) : Scalar := ⟨true, text, text, .plain word⟩

/-- A word between quotes. -/
def Scalar.quotedWord (single : Bool) (word : IsWord text) : Scalar :=
  ⟨false, text, quoteMark single :: (text ++ [quoteMark single]),
    .quoted (.word (spellsWord_of_mem word.chars))⟩

end PathPattern.Yaml
