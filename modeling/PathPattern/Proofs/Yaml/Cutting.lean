import PathPattern.Proofs.Yaml.Scalar
import PathPattern.Yaml.Token

/-!
# Cutting a flat document

Between the members of a flat document, and inside of them, the scanner is in one of a few states
(`placed`): in brackets, before a block mapping, or in one, with the same tokens behind it. A step leads
from one such state to another (`Reads.of_token`), and so the tokens of the whole text are found from its
end (`Reads`).
-/

namespace PathPattern.Yaml

variable {c c' : Cursor} {d : Char} {rest text : List Char} {n : Nat}

namespace Scanner

/-- Where the members stand: in brackets, in a block mapping that is not yet open, or in one that is. -/
inductive Level where
  | brackets
  | fresh
  | block
  deriving DecidableEq

/-- How the level goes on when a key has been found. -/
def Level.opened : Level → Level
  | .brackets => .brackets
  | _ => .block

/-- The tokens that the first key puts before it. -/
def Level.opening : Level → List Token
  | .fresh => [.mappingStart]
  | _ => []

/-- The tokens that the end of the text puts before the last one. -/
def Level.closing : Level → List Token
  | .block => [.blockEnd]
  | _ => []

variable {level : Level} {allowed : Bool} {outside candidate k : Option Candidate}
  {front : List Token} {t : Token} {key : Candidate}

/-- The state behind some tokens. In brackets, a candidate may be left outside of them. -/
def placed (level : Level) (allowed : Bool) (outside candidate : Option Candidate)
    (front : List Token) (c : Cursor) : Scanner where
  cursor := c
  tokens := front.reverse
  count := front.length
  indent := if level = .block then 0 else -1
  outer := if level = .block then [-1] else []
  keyAllowed := allowed
  candidate := if level = .brackets then outside else candidate
  inner := if level = .brackets then [candidate] else []

/-- The candidate can be given up. -/
def IsFree (k : Option Candidate) : Prop := ∀ key ∈ k, key.required = false

/-- The candidate is on this line and no farther back than a key may be. -/
def IsNear (candidate : Option Candidate) (c : Cursor) : Prop :=
  ∀ key ∈ candidate, key.line = c.line ∧ c.index ≤ key.index + 1024

theorem isNear_none : IsNear none c := by simp [IsNear]

theorem isFree_none : IsFree none := by simp [IsFree]

theorem cursor_placed : (placed level allowed outside candidate front c).cursor = c := rfl

theorem inFlow_placed : (placed level allowed outside candidate front c).inFlow =
    decide (level = .brackets) := by
  cases level <;> rfl

theorem current_placed : (placed level allowed outside candidate front c).current = candidate := by
  cases level <;> rfl

theorem setCurrent_placed : (placed level allowed outside candidate front c).setCurrent k =
    placed level allowed outside k front c := by
  cases level <;> rfl

theorem push_placed : (placed level allowed outside candidate front c).push t =
    placed level allowed outside candidate (front ++ [t]) c := by
  simp [placed, push]

theorem dropCandidate_placed (free : IsFree candidate) :
    (placed level allowed outside candidate front c).dropCandidate =
      some (placed level allowed outside none front c) := by
  have none : candidate.any (·.required) = false := by
    cases candidate with
    | none => rfl
    | some key => exact free key rfl
  rw [dropCandidate, current_placed, none, setCurrent_placed]
  rfl

/-- No key starts here. -/
theorem markCandidate_placed :
    (placed level false outside candidate front c).markCandidate =
      some (placed level false outside candidate front c) := rfl

/-- A key may start here. -/
theorem markCandidate_placed_of_free (free : IsFree candidate) :
    (placed level true outside candidate front c).markCandidate =
      some (placed level true outside (some ⟨front.length, decide (level = .block ∧ c.column = 0),
        c.line, c.column, c.index⟩) front c) := by
  have required : (!(placed level true outside candidate front c).inFlow &&
      (placed level true outside candidate front c).indent ==
        (placed level true outside candidate front c).cursor.column) =
      decide (level = .block ∧ c.column = 0) := by
    cases level with
    | block =>
      have same : ((0 : Int) == c.column) = decide (c.column = 0) := by
        rw [Bool.eq_iff_iff, beq_iff_eq, decide_eq_true_iff]
        omega
      simpa [placed, inFlow] using same
    | fresh => simp [placed, inFlow]
    | brackets => rfl
  have allowed : (placed level true outside candidate front c).keyAllowed = true := rfl
  rw [markCandidate, if_pos allowed, required, dropCandidate_placed free]
  simp only [Option.bind_eq_bind, Option.bind_some, setCurrent_placed]
  rfl

/-- The blocks that are open stay open. -/
theorem closeBlocks_placed {column : Nat} :
    (placed level allowed outside candidate front c).closeBlocks column =
      placed level allowed outside candidate front c := by
  have block : ¬(column : Int) < 0 := by omega
  have fresh : ¬(column : Int) < -1 := by omega
  cases level <;> simp [closeBlocks, placed, inFlow, block, fresh]

/-- A candidate, unless it is stale. -/
def kept (s : Scanner) (k : Option Candidate) : Option Candidate := if k.any s.isStale then none else k

theorem kept_of_near (near : IsNear k c) {s : Scanner} (here : s.cursor = c) : s.kept k = k := by
  have fresh : k.any s.isStale = false := by
    cases k with
    | none => rfl
    | some key =>
      obtain ⟨line, index⟩ := near key rfl
      simp [isStale, here, line, index]
  rw [kept, fresh]
  rfl

theorem isFree_kept (free : IsFree k) (s : Scanner) : IsFree (s.kept k) := by
  rw [kept]
  split
  · exact isFree_none
  · exact free

/-- Where no candidate has to be a key, the stale ones are given up. -/
theorem dropStale_eq {s : Scanner} (free : ∀ k ∈ s.candidate :: s.inner, s.kept k = k ∨ IsFree k) :
    s.dropStale = some { s with candidate := s.kept s.candidate, inner := s.inner.map s.kept } := by
  have calm : ¬((s.candidate :: s.inner).any fun k => k.any s.isStale && k.any (·.required)) = true := by
    rw [List.any_eq_true]
    rintro ⟨k, mem, stale⟩
    obtain ⟨old, required⟩ := Bool.and_eq_true_iff.1 stale
    rcases free k mem with same | free
    · rw [kept, if_pos old] at same
      rw [← same] at old
      cases old
    · cases k with
      | none => cases old
      | some key => exact Bool.false_ne_true ((free key rfl).symm.trans required)
  rw [dropStale, if_neg calm]
  rfl

variable (level allowed front) in
/-- Candidates grow stale and are given up, but a key that is near stays. -/
theorem exists_dropStale_placed (free : IsFree outside) (near : IsNear candidate c) :
    ∃ outside', IsFree outside' ∧ (placed level allowed outside candidate front c).dropStale =
      some (placed level allowed outside' candidate front c) := by
  have same : (placed level allowed outside candidate front c).kept candidate = candidate :=
    kept_of_near near rfl
  refine ⟨_, isFree_kept free (placed level allowed outside candidate front c), ?_⟩
  cases level with
  | brackets =>
    rw [dropStale_eq]
    · simp only [placed, if_true, List.map_cons, List.map_nil] at same ⊢
      rw [same]
    · intro k mem
      rcases (by simpa [placed] using mem : k = outside ∨ k = candidate) with rfl | rfl
      · exact .inr free
      · exact .inl same
  | fresh =>
    rw [dropStale_eq (by simpa [placed] using .inl same)]
    simpa [placed] using same
  | block =>
    rw [dropStale_eq (by simpa [placed] using .inl same)]
    simpa [placed] using same

variable (allowed outside front c) in
/-- Outside brackets the candidate is given up too, unless it has to be a key. -/
theorem exists_dropStale_placed_of_free (noBrackets : level ≠ .brackets) (free : IsFree candidate) :
    ∃ k, IsFree k ∧ (placed level allowed outside candidate front c).dropStale =
      some (placed level allowed outside k front c) := by
  refine ⟨_, isFree_kept free (placed level allowed outside candidate front c), ?_⟩
  cases level with
  | brackets => exact absurd rfl noBrackets
  | fresh =>
    rw [dropStale_eq (by simpa [placed] using .inr free)]
    simp [placed]
  | block =>
    rw [dropStale_eq (by simpa [placed] using .inr free)]
    simp [placed]

/-! ### Steps -/

/-- What stands here is no white space and no comment. -/
def StopsBlank (cs : List Char) : Prop :=
  ∀ d ∈ cs.head?, isOrderMark d = false ∧ d ≠ ' ' ∧ d ≠ '\t' ∧ d ≠ '#' ∧ isBreak d = false

theorem skipBlank_of_stops {s : Scanner} (whole : s.cursor.broken = false)
    (stops : StopsBlank s.cursor.rest) : skipBlank n s = some s := by
  cases n with
  | zero => rfl
  | succ n =>
    have other (p : Char → Bool) (no : ∀ d ∈ s.cursor.rest.head?, p d = false) :
        s.cursor.sees 0 p = false := by
      cases behind : s.cursor.rest with
      | nil => exact Cursor.sees_nil behind p
      | cons d rest => exact (Cursor.sees_cons behind p).trans (no d (by rw [behind]; rfl))
    have order := other isOrderMark fun d mem => (stops d mem).1
    have space := other (· == ' ') fun d mem => beq_eq_false_iff_ne.2 (stops d mem).2.1
    have tab := other (· == '\t') fun d mem => beq_eq_false_iff_ne.2 (stops d mem).2.2.1
    have comment := other (· == '#') fun d mem => beq_eq_false_iff_ne.2 (stops d mem).2.2.2.1
    have lineEnd := other isBreak fun d mem => (stops d mem).2.2.2.2
    rw [skipBlank]
    simp only [Cursor.reach_of_whole whole, order, space, tab, comment, lineEnd, Bool.and_false,
      Bool.false_and, Bool.or_self, Bool.false_eq_true, if_false, Option.bind_eq_bind, Option.bind_some]
    rfl

theorem skipBlank_space {s : Scanner} (whole : s.cursor.broken = false)
    (behind : s.cursor.rest = ' ' :: rest) (stops : StopsBlank rest) :
    skipBlank (n + 1) s = some { s with cursor := s.cursor.skip 1 } := by
  have next := skipBlank_of_stops (s := { s with cursor := s.cursor.skip 1 }) (n := n) whole
    (by simpa [Cursor.skip, behind] using stops)
  rw [skipBlank]
  simp only [Cursor.reach_of_whole whole, Cursor.sees_cons behind, beq_self_eq_true, Bool.or_true,
    Bool.true_or, if_true, Option.bind_eq_bind, Option.bind_some, next]

theorem skipBlank_lineFeed {s : Scanner} (whole : s.cursor.broken = false)
    (behind : s.cursor.rest = '\n' :: rest) (stops : StopsBlank rest) :
    skipBlank (n + 1) s =
      some { s with cursor := s.cursor.nextLine, keyAllowed := s.keyAllowed || !s.inFlow } := by
  have line := Cursor.nextLine_of_lineFeed behind
  have next := skipBlank_of_stops (n := n)
    (s := { s with cursor := s.cursor.nextLine, keyAllowed := s.keyAllowed || !s.inFlow })
    (by rw [line]; exact whole) (by simpa [line, Cursor.skip, behind] using stops)
  have order : isOrderMark '\n' = false := rfl
  have lineEnd : isBreak '\n' = true := rfl
  have marks : ('\n' == ' ') = false ∧ ('\n' == '\t') = false ∧ ('\n' == '#') = false := ⟨rfl, rfl, rfl⟩
  rw [skipBlank]
  simp only [Cursor.reach_of_whole whole, Cursor.sees_cons behind, order, lineEnd, marks,
    Bool.and_false, Bool.false_and, Bool.or_self, Bool.false_eq_true, if_false, if_true,
    Option.bind_eq_bind, Option.bind_some, next]

theorem documentMark_of_head (behind : c.rest = d :: rest) (mark : Char) (other : d ≠ mark) :
    c.documentMark mark = false := by
  simp [Cursor.documentMark, behind, other]

section

variable {s : Scanner}

theorem token_eq_value (behind : s.cursor.rest = ':' :: ' ' :: rest) : s.token = s.value := by
  have blank : s.cursor.blankAt 1 = true := by simp [Cursor.blankAt, Cursor.peek?, behind, isSpace]
  have dash := documentMark_of_head behind '-' (by decide)
  have dot := documentMark_of_head behind '.' (by decide)
  rw [token]
  simp [Cursor.sees_cons behind, dash, dot, behind, blank]

theorem token_eq_comma (behind : s.cursor.rest = ',' :: rest) : s.token = s.comma := by
  have dash := documentMark_of_head behind '-' (by decide)
  have dot := documentMark_of_head behind '.' (by decide)
  rw [token]
  simp [Cursor.sees_cons behind, dash, dot, behind]

theorem token_eq_openFlow (behind : s.cursor.rest = '{' :: rest) : s.token = s.openFlow .openMap := by
  have dash := documentMark_of_head behind '-' (by decide)
  have dot := documentMark_of_head behind '.' (by decide)
  rw [token]
  simp [Cursor.sees_cons behind, dash, dot, behind]

theorem token_eq_closeFlow (behind : s.cursor.rest = '}' :: rest) :
    s.token = s.closeFlow .closeMap := by
  have dash := documentMark_of_head behind '-' (by decide)
  have dot := documentMark_of_head behind '.' (by decide)
  rw [token]
  simp [Cursor.sees_cons behind, dash, dot, behind]

theorem token_eq_finish (behind : s.cursor.rest = []) : s.token = s.finish := by
  rw [token]
  simp [behind]

end

/-- A key goes before the last token, and a mapping starts there if none is open. -/
theorem value_placed (place : key.token = front.length) (column : level ≠ .brackets → key.column = 0) :
    (placed level false outside (some key) (front ++ [t]) c).value =
      some (placed level.opened false outside none (front ++ level.opening ++ [.key, t, .value])
        (c.skip 1)) := by
  have second : front.length + 1 + 1 - front.length = 2 := by omega
  rw [value, current_placed]
  cases level with
  | brackets =>
    simp [Level.opened, Level.opening, placed, insert, openBlock, inFlow, setCurrent, push, place]
  | fresh =>
    simp [Level.opened, Level.opening, placed, insert, openBlock, inFlow, setCurrent, push, place, column,
      second]
  | block =>
    simp [Level.opened, Level.opening, placed, insert, openBlock, inFlow, setCurrent, push, place, column]

theorem comma_placed : (placed .brackets false outside none front c).comma =
    some (placed .brackets true outside none (front ++ [.comma]) (c.skip 1)) := by
  rw [comma, dropCandidate_placed isFree_none, Option.bind_eq_bind, Option.bind_some, ← push_placed]
  rfl

theorem closeFlow_placed : (placed .brackets false outside none front c).closeFlow .closeMap =
    some (placed .fresh false none outside (front ++ [.closeMap]) (c.skip 1)) := by
  rw [closeFlow, dropCandidate_placed isFree_none, Option.bind_eq_bind, Option.bind_some, ← push_placed]
  rfl

theorem exists_openFlow_placed : ∃ key, IsFree (some key) ∧
    (placed .fresh true none none [] c).openFlow .openMap =
      some (placed .brackets true (some key) none [.openMap] (c.skip 1)) := by
  refine ⟨⟨0, false, c.line, c.column, c.index⟩, ?_, ?_⟩
  · intro key mem
    obtain rfl := Option.some.inj mem
    rfl
  · rw [openFlow, markCandidate_placed_of_free isFree_none, Option.bind_eq_bind, Option.bind_some]
    rfl

/-- The block mapping ends with the text. -/
theorem closeBlocks_placed_end (noBrackets : level ≠ .brackets) :
    (placed level allowed outside candidate front c).closeBlocks (-1) =
      placed .fresh allowed outside candidate (front ++ level.closing) c := by
  cases level with
  | brackets => exact absurd rfl noBrackets
  | fresh => simp [Level.closing, closeBlocks, placed, inFlow]
  | block => simp [Level.closing, closeBlocks, placed, inFlow]

variable (allowed outside front c) in
theorem exists_finish_placed (noBrackets : level ≠ .brackets) (free : IsFree candidate) :
    ∃ c', (placed level allowed outside candidate front c).finish =
      some (placed .fresh allowed outside none (front ++ level.closing ++ [.finish]) c') := by
  let c' := if c.column = 0 then c else { c with line := c.line + 1, column := 0 }
  have moved : ({ placed level allowed outside candidate front c with cursor := c' } : Scanner) =
      placed level allowed outside candidate front c' := rfl
  refine ⟨c', ?_⟩
  show (do
    let s ← ({ placed level allowed outside candidate front c with
      cursor := c' }.closeBlocks (-1)).dropCandidate
    return s.push .finish) = _
  rw [moved, closeBlocks_placed_end noBrackets, dropCandidate_placed free, ← push_placed]
  rfl

/-! ### Scalar tokens -/

theorem StopsBlank.of_word {more : List Char} (word : IsWord text) : StopsBlank (text ++ more) := by
  obtain ⟨d, cs, rfl, -⟩ := word.starts
  have inner := isInner_of_mem (word.chars d List.mem_cons_self)
  rintro e mem
  obtain rfl : d = e := by simpa using mem
  have space := inner.space
  rw [isSpace, Bool.or_eq_false_iff, beq_eq_false_iff_ne, beq_eq_false_iff_ne] at space
  exact ⟨inner.order, space.1, space.2, beq_eq_false_iff_ne.1 inner.comment, inner.lineEnd⟩

/-- A plain scalar starts with a word. -/
theorem token_eq_plain {s : Scanner} (word : IsWord text) (behind : s.cursor.rest = text ++ rest)
    (noMark : s.cursor.anyDocumentMark = false) : s.token = s.plain := by
  obtain ⟨d, cs, rfl, noColon, dashed⟩ := word.starts
  obtain ⟨mem, more⟩ := List.forall_mem_cons.1 word.chars
  rw [List.cons_append] at behind
  obtain ⟨dash, dot⟩ := Bool.or_eq_false_iff.1 noMark
  have inner := isInner_of_mem mem
  obtain ⟨others, indicator⟩ := not_mem_starts mem
  simp only [List.mem_cons, List.not_mem_nil, or_false, not_or] at others
  -- A dash before the next character of the word is no entry.
  have second : (d == '-' && s.cursor.blankAt 1) = false ∧
      (d == '-' && !s.cursor.sees 1 isSpace) = (d == '-') := by
    by_cases isDash : d = '-'
    · obtain ⟨e, cs, rfl⟩ := List.exists_cons_of_ne_nil (dashed isDash)
      have inner := isInner_of_mem (more e List.mem_cons_self)
      rw [Cursor.sees_second behind]
      simp [Cursor.blankAt, Cursor.peek?, behind, inner.space, inner.lineEnd]
    · simp [isDash]
  have starts : s.startsPlain = true := by
    simp only [startsPlain, Cursor.sees_cons behind, indicator, inner.space, inner.lineEnd, second.2,
      beq_eq_false_iff_ne.2 noColon, Bool.or_false, Bool.or_eq_true]
    cases d == '-' <;> simp
  rw [token]
  simp [Cursor.sees_cons behind, dash, dot, behind, others, noColon, second.1, starts]

theorem token_eq_quoted {s : Scanner} {single : Bool} (behind : s.cursor.rest = quoteMark single :: rest) :
    s.token = s.quoted single := by
  have dash := documentMark_of_head behind '-' (by cases single <;> decide)
  have dot := documentMark_of_head behind '.' (by cases single <;> decide)
  cases single <;> simp [token, Cursor.sees_cons behind, dash, dot, behind, quoteMark]

/-- A scalar is read up to what stops it. It is a candidate where it may be a key. -/
theorem token_scalar (scalar : Scalar) (behind : c.rest = scalar.spelled ++ rest)
    (ends : EndsWord (decide (level = .brackets)) rest) (whole : c.broken = false)
    (noMark : c.anyDocumentMark = false) (limit : c.rest.length < c.limit)
    (stop : scalar.plain = true → ∀ d ∈ rest.head?, (isSpace d || isBreak d) = false)
    (marked : (placed level allowed outside candidate front c).markCandidate =
      some (placed level allowed outside k front c)) :
    (placed level allowed outside candidate front c).token =
      some (placed level false outside k (front ++ [.scalar scalar.plain scalar.text])
        (c.skip scalar.spelled.length)) := by
  obtain ⟨plain, text, spelled, spells⟩ := scalar
  cases spells with
  | plain word =>
    rw [token_eq_plain word behind noMark, Scanner.plain, marked, ← push_placed]
    simp only [Option.bind_eq_bind, Option.bind_some, inFlow_placed, cursor_placed]
    rw [plainScalar_stop word behind ends whole noMark (by omega) (stop rfl)]
    rfl
  | @quoted single cs _ spelled =>
    have behind' : c.rest = quoteMark single :: (cs ++ quoteMark single :: rest) := by
      simpa using behind
    have inside : cs.length < c.limit := by
      rw [behind'] at limit
      simp only [List.length_cons, List.length_append] at limit
      omega
    rw [token_eq_quoted behind', quoted, marked, ← push_placed]
    simp only [Option.bind_eq_bind, Option.bind_some, cursor_placed]
    rw [quotedScalar_row spelled behind' ends.head?_ne whole inside]
    simp only [Option.bind_some, List.length_cons, List.length_append, List.length_nil]
    rfl

/-- A plain value in a block mapping is read with its line end. -/
theorem token_line (word : IsWord text) (behind : c.rest = text ++ '\n' :: rest)
    (whole : c.broken = false) (noMark : c.anyDocumentMark = false) (limit : c.rest.length < c.limit)
    (top : ∀ d ∈ rest.head?, isSpace d = false ∧ isBreak d = false) :
    (placed .block false outside none front c).token =
      some (placed .block true outside none (front ++ [.scalar true text])
        (c.skip text.length).nextLine) := by
  have steps : 2 ≤ c.limit := by
    rw [behind] at limit
    simp only [List.length_cons, List.length_append] at limit
    omega
  rw [token_eq_plain word behind noMark, Scanner.plain, markCandidate_placed, ← push_placed]
  have read : plainScalar (decide (Level.block = .brackets))
      (placed .block false outside none front c).indent c = _ :=
    plainScalar_line word behind whole noMark steps top
  simp only [Option.bind_eq_bind, Option.bind_some, inFlow_placed, cursor_placed, read]
  rfl

/-! ### Runs -/

/-- From this state on, the text is cut into these tokens. -/
def Reads (level : Level) (allowed : Bool) (candidate : Option Candidate) (front : List Token)
    (c : Cursor) (out : List Token) : Prop :=
  ∀ outside, IsFree outside → ∀ steps, c.rest.length + 2 ≤ steps →
    (placed level allowed outside candidate front c).run steps = out

variable {level' : Level} {allowed' : Bool} {candidate' : Option Candidate} {front' out : List Token}

/-- White space in front changes nothing. -/
theorem Reads.of_blank (whole : c'.broken = false) (stops : StopsBlank c'.rest)
    (shorter : c'.rest.length ≤ c.rest.length)
    (blank : ∀ outside, skipBlank c.limit (placed level allowed outside candidate front c) =
      some (placed level allowed' outside candidate front c'))
    (read : Reads level allowed' candidate front c' out) : Reads level allowed candidate front c out := by
  intro outside free steps enough
  obtain ⟨k, rfl⟩ : ∃ k, steps = k + 1 := ⟨steps - 1, by omega⟩
  have same : (placed level allowed outside candidate front c).next =
      (placed level allowed' outside candidate front c').next := by
    rw [next, next, cursor_placed, cursor_placed, blank, skipBlank_of_stops whole stops]
  rw [run, same, ← run]
  exact read outside free (k + 1) (by omega)

theorem Reads.of_space (behind : c.rest = ' ' :: rest) (whole : c.broken = false)
    (stops : StopsBlank rest) (limit : 0 < c.limit)
    (read : Reads level allowed candidate front (c.skip 1) out) :
    Reads level allowed candidate front c out := by
  have there : (c.skip 1).rest = rest := by simp [Cursor.skip, behind]
  obtain ⟨k, limit⟩ : ∃ k, c.limit = k + 1 := ⟨c.limit - 1, by omega⟩
  have stops' : StopsBlank (c.skip 1).rest := there ▸ stops
  have whole' : (c.skip 1).broken = false := whole
  refine Reads.of_blank whole' stops' (by simp [there, behind]) (fun outside => ?_) read
  rw [limit, skipBlank_space whole behind stops]
  rfl

theorem Reads.of_lineFeed (noBrackets : level ≠ .brackets) (behind : c.rest = '\n' :: rest)
    (whole : c.broken = false) (stops : StopsBlank rest) (limit : 0 < c.limit)
    (read : Reads level true candidate front c.nextLine out) :
    Reads level allowed candidate front c out := by
  have line := Cursor.nextLine_of_lineFeed behind
  have there : c.nextLine.rest = rest := by simp [line, Cursor.skip, behind]
  have whole' : c.nextLine.broken = false := by
    rw [line]
    exact whole
  obtain ⟨k, limit⟩ : ∃ k, c.limit = k + 1 := ⟨c.limit - 1, by omega⟩
  refine read.of_blank whole' (there ▸ stops) (by simp [there, behind]) fun outside => ?_
  rw [limit, skipBlank_lineFeed whole behind stops, inFlow_placed, decide_eq_false noBrackets]
  simp [placed]

variable (level allowed front) in
/-- A step starts with stale candidates given up. -/
theorem exists_next_placed (whole : c.broken = false) (stops : StopsBlank c.rest)
    (near : IsNear candidate c) (free : IsFree outside) :
    ∃ outside', IsFree outside' ∧ (placed level allowed outside candidate front c).next =
      (placed level allowed outside' candidate front c).token := by
  obtain ⟨outside', free', fresh⟩ :=
    exists_dropStale_placed level allowed front free near
  refine ⟨outside', free', ?_⟩
  rw [next, cursor_placed, skipBlank_of_stops whole stops]
  simp only [Option.bind_eq_bind, Option.bind_some, fresh, cursor_placed, closeBlocks_placed, ite_self,
    Cursor.reach_of_whole whole]

/-- A step to another state. -/
theorem Reads.of_token (whole : c.broken = false) (stops : StopsBlank c.rest)
    (near : IsNear candidate c) (near' : IsNear candidate' c')
    (read : Reads level' allowed' candidate' front' c' out)
    (token : ∀ outside, (placed level allowed outside candidate front c).token =
      some (placed level' allowed' outside candidate' front' c'))
    (goesOn : front'.getLast? ≠ some .finish) (shorter : c'.rest.length < c.rest.length) :
    Reads level allowed candidate front c out := by
  intro outside free steps enough
  obtain ⟨k, rfl⟩ : ∃ k, steps = k + 1 := ⟨steps - 1, by omega⟩
  obtain ⟨before, free_before, next⟩ :=
    exists_next_placed level allowed front whole stops near free
  obtain ⟨after, free_after, fresh⟩ :=
    exists_dropStale_placed level' allowed' front' free_before near'
  have last : ((placed level' allowed' after candidate' front' c').tokens.head? ==
      some .finish) = false := by
    rw [beq_eq_false_iff_ne, placed, List.head?_reverse]
    exact goesOn
  rw [run, next, token, Option.bind_eq_bind, Option.bind_some, fresh]
  simp only [last, Bool.false_eq_true, if_false]
  exact read after free_after k (by omega)

theorem stopsBlank_nil : StopsBlank [] := by simp [StopsBlank]

theorem stopsBlank_cons (first : isOrderMark d = false ∧ d ≠ ' ' ∧ d ≠ '\t' ∧ d ≠ '#' ∧ isBreak d = false)
    (rest : List Char) : StopsBlank (d :: rest) := by
  intro e mem
  obtain rfl : d = e := by simpa using mem
  exact first

/-- The opening bracket, at the start of a text. -/
theorem reads_openMap (whole : c.broken = false) (behind : c.rest = '{' :: rest)
    (read : Reads .brackets true none [.openMap] (c.skip 1) out) :
    Reads .fresh true none [] c out := by
  intro outside free steps enough
  obtain ⟨k, rfl⟩ : ∃ k, steps = k + 1 := ⟨steps - 1, by omega⟩
  have stops : StopsBlank c.rest := behind ▸ stopsBlank_cons (by decide) rest
  obtain ⟨before, -, next⟩ :=
    exists_next_placed .fresh true [] whole stops isNear_none free
  obtain ⟨key, key_free, token⟩ := exists_openFlow_placed (c := c)
  obtain ⟨after, free_after, fresh⟩ :=
    exists_dropStale_placed .brackets true [.openMap] key_free (isNear_none (c := c.skip 1))
  have token : (placed .fresh true before none [] c).token = _ :=
    (token_eq_openFlow behind).trans token
  rw [run, next, token, Option.bind_eq_bind, Option.bind_some, fresh]
  exact read after free_after k (by simp [Cursor.skip, behind] at enough ⊢; omega)

/-- The closing bracket. -/
theorem reads_closeMap (whole : c.broken = false) (behind : c.rest = '}' :: rest)
    (read : ∀ k, IsFree k → Reads .fresh false k (front ++ [.closeMap]) (c.skip 1) out) :
    Reads .brackets false none front c out := by
  intro outside free steps enough
  obtain ⟨k, rfl⟩ : ∃ k, steps = k + 1 := ⟨steps - 1, by omega⟩
  have stops : StopsBlank c.rest := behind ▸ stopsBlank_cons (by decide) rest
  obtain ⟨before, free_before, next⟩ :=
    exists_next_placed .brackets false front whole stops isNear_none free
  obtain ⟨after, free_after, fresh⟩ := exists_dropStale_placed_of_free (c.skip 1) false none
    (front ++ [.closeMap]) (show Level.fresh ≠ .brackets by decide) free_before
  have token : (placed .brackets false before none front c).token = _ :=
    (token_eq_closeFlow behind).trans closeFlow_placed
  have last : ((placed .fresh false none after (front ++ [.closeMap]) (c.skip 1)).tokens.head? ==
      some .finish) = false := by
    simp [placed]
  rw [run, next, token, Option.bind_eq_bind, Option.bind_some, fresh]
  simp only [last, Bool.false_eq_true, if_false]
  exact read after free_after none isFree_none k (by simp [Cursor.skip, behind] at enough ⊢; omega)

/-- The end of the text. -/
theorem reads_finish (whole : c.broken = false) (behind : c.rest = []) (noBrackets : level ≠ .brackets)
    (free : IsFree candidate) :
    Reads level allowed candidate front c (front ++ level.closing ++ [.finish]) := by
  intro outside _ steps enough
  obtain ⟨k, rfl⟩ : ∃ k, steps = k + 1 := ⟨steps - 1, by omega⟩
  have stops : StopsBlank c.rest := by
    rw [behind]
    exact stopsBlank_nil
  obtain ⟨before, free_before, fresh⟩ :=
    exists_dropStale_placed_of_free c allowed outside front noBrackets free
  obtain ⟨c', finish⟩ := exists_finish_placed c allowed outside front noBrackets free_before
  obtain ⟨after, -, fresh_after⟩ := exists_dropStale_placed_of_free c' allowed outside
    (front ++ level.closing ++ [.finish]) (show Level.fresh ≠ .brackets by decide) isFree_none
  have next : (placed level allowed outside candidate front c).next =
      some (placed .fresh allowed outside none (front ++ level.closing ++ [.finish]) c') := by
    rw [next, cursor_placed, skipBlank_of_stops whole stops]
    simp only [Option.bind_eq_bind, Option.bind_some, fresh, cursor_placed, closeBlocks_placed, ite_self,
      Cursor.reach_of_whole whole]
    exact (token_eq_finish behind).trans finish
  have last : ((placed .fresh allowed outside after (front ++ level.closing ++ [.finish])
      c').tokens.head? == some .finish) = true := by
    simp [placed]
  rw [run, next, Option.bind_eq_bind, Option.bind_some, fresh_after]
  simp only [last, if_true]
  simp [placed]

end Scanner

end PathPattern.Yaml
