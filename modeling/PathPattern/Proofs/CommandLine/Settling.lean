import PathPattern.CommandLine.Arguments

/-!
# What settled items say

A draft takes an option once and only with a value that reads (`Draft.setFlag_eq_ok_iff`), and
operands as they come. Followed along a list of items, this is what a settled draft holds: its
metadata files are the operands in order, its template and its output text are the values of their
options, and no option has two values (`Draft.settles_of_foldlM`).
-/

namespace PathPattern.CommandLine

variable {flag : Flag} {value : String} {d d' d'' : Draft} {r : Record} {item : Item}
  {before after : List Item}

/-! ### One value -/

/-- What the value of an option makes of the record. -/
inductive Flag.Puts (value : String) (r : Record) : Flag → Record → Prop where
  | pattern : Puts value r .pattern r
  | output : Puts value r .output r
  | file : Puts value r .file { r with file := value }
  | source : Puts value r .source { r with source := value }
  | model : Puts value r .model { r with model := value }
  | mime : Puts value r .mime { r with mime := value }
  | kind : Puts value r .kind { r with kind := value }
  | level {level : Int64} (read : Integer.read value.toList = .ok level) :
    Puts value r .level { r with level }
  | acqTime {acquired : Instant} (read : Rfc3339.read value.toList = .ok acquired) :
    Puts value r .acqTime { r with acquired }

/-- The draft with an option given. -/
def Draft.give (d : Draft) (flag : Flag) (value : String) (r : Record) : Draft where
  given := d.given ++ [some flag]
  template := if flag = .pattern then value else d.template
  output := if flag = .output then value else d.output
  record := r
  metadata := d.metadata

/-- A value is taken if its option has none yet and it reads, and then nothing else changes. -/
theorem Draft.setFlag_eq_ok_iff :
    d.setFlag flag value = .ok d' ↔
      some flag ∉ d.given ∧ ∃ r, flag.Puts value d.record r ∧ d.give flag value r = d' := by
  unfold setFlag
  split
  · next again =>
    constructor
    · intro taken
      cases taken
    · rintro ⟨new, -⟩
      exact absurd again new
  · next new =>
    constructor
    · intro taken
      refine ⟨new, ?_⟩
      cases flag with
      | level =>
        dsimp only at taken
        split at taken
        · next level read => exact ⟨_, .level read, Except.ok.inj taken⟩
        · cases taken
      | acqTime =>
        dsimp only at taken
        split at taken
        · next acquired read => exact ⟨_, .acqTime read, Except.ok.inj taken⟩
        · cases taken
      | pattern | output | file | source | model | mime | kind =>
        exact ⟨_, by constructor, Except.ok.inj taken⟩
    · rintro ⟨-, r, puts, rfl⟩
      cases puts with
      | level read =>
        simp only [read]
        rfl
      | acqTime read =>
        simp only [read]
        rfl
      | pattern | output | file | source | model | mime | kind => rfl

/-! ### Items -/

/-- The value that an item gives to an option. -/
def Item.valueFor (flag : Flag) : Item → Option String
  | .attached given value => if given = flag then some value else none
  | .apart given value => if given = flag then value else none
  | .operand _ => none

/-- The text of an operand. -/
def Item.operand? : Item → Option String
  | .operand text => some text
  | _ => none

/-- The values that items give to an option. -/
def values (flag : Flag) (items : List Item) : List String := items.filterMap (·.valueFor flag)

/-- The operands among items, in order. -/
def operands (items : List Item) : List String := items.filterMap (·.operand?)

/-- An item gives a value to an option or is an operand. -/
theorem Draft.settle_eq_ok (h : d.settle item = .ok d') :
    (∃ flag value, d.setFlag flag value = .ok d' ∧ item.operand? = none ∧
      ∀ other, item.valueFor other = if flag = other then some value else none) ∨
    (∃ text, item = .operand text ∧ d' = { d with
      given := if none ∈ d.given then d.given else d.given ++ [none],
      metadata := d.metadata ++ [text] }) := by
  cases item with
  | attached flag value => exact .inl ⟨flag, value, h, rfl, fun _ => rfl⟩
  | apart flag value =>
    cases value with
    | some value => exact .inl ⟨flag, value, h, rfl, fun _ => rfl⟩
    | none => cases h
  | operand text =>
    rw [settle] at h
    split at h
    · cases h
    · exact .inr ⟨text, rfl, (Except.ok.inj h).symm⟩

/-! ### Runs of items -/

theorem exists_of_bind_eq_ok {ε α β : Type} {x : Except ε α} {f : α → Except ε β} {b : β}
    (h : x >>= f = .ok b) : ∃ a, x = .ok a ∧ f a = .ok b := by
  cases x with
  | error fault => cases h
  | ok a => exact ⟨a, rfl, h⟩

/-- What a draft holds more than another one, in terms of the items settled between them. -/
structure Draft.Settles (items : List Item) (d d' : Draft) : Prop where
  metadata : d'.metadata = d.metadata ++ operands items
  template : d'.template = (values .pattern items).getLast?.getD d.template
  output : d'.output = (values .output items).getLast?.getD d.output
  given (flag : Flag) :
    d'.given.count (some flag) = d.given.count (some flag) + (values flag items).length
  once (flag : Flag) : d.given.count (some flag) ≤ 1 → d'.given.count (some flag) ≤ 1

theorem Draft.Settles.refl (d : Draft) : Settles [] d d where
  metadata := by simp [operands]
  template := rfl
  output := rfl
  given _ := rfl
  once _ := id

theorem Draft.Settles.trans (first : Settles before d d') (second : Settles after d' d'') :
    Settles (before ++ after) d d'' where
  metadata := by
    rw [second.metadata, first.metadata, List.append_assoc]
    simp [operands]
  template := by
    rw [second.template, first.template]
    simp [values, List.getLast?_append, Option.getD_or]
  output := by
    rw [second.output, first.output]
    simp [values, List.getLast?_append, Option.getD_or]
  given flag := by
    rw [second.given, first.given]
    simp [values, Nat.add_assoc]
  once flag := fun low => second.once flag (first.once flag low)

theorem Draft.settles_of_settle (h : d.settle item = .ok d') : Settles [item] d d' := by
  rcases settle_eq_ok h with ⟨flag, value, taken, noOperand, gives⟩ | ⟨text, rfl, rfl⟩
  · obtain ⟨new, r, -, rfl⟩ := setFlag_eq_ok_iff.1 taken
    have count (other : Flag) : (d.give flag value r).given.count (some other) =
        d.given.count (some other) + (values other [item]).length := by
      by_cases same : flag = other
      · simp [give, values, gives, same]
      · simp [give, values, gives, same]
    refine ⟨?_, ?_, ?_, count, fun other low => ?_⟩
    · simp [give, operands, noOperand]
    · by_cases same : flag = .pattern <;> simp [give, values, gives, same]
    · by_cases same : flag = .output <;> simp [give, values, gives, same]
    · rw [count]
      by_cases same : flag = other
      · subst same
        rw [List.count_eq_zero.2 new]
        simp [values, gives]
      · simpa [values, gives, same] using low
  · refine ⟨rfl, rfl, rfl, fun other => ?_, fun other low => ?_⟩
    · by_cases first : none ∈ d.given <;> simp [first, values, Item.valueFor]
    · by_cases first : none ∈ d.given <;> simpa [first] using low

theorem Draft.settles_of_foldlM {items : List Item} {d d' : Draft}
    (h : items.foldlM Draft.settle d = .ok d') : Settles items d d' := by
  induction items generalizing d with
  | nil =>
    rw [List.foldlM_nil] at h
    cases h
    exact .refl _
  | cons item items ih =>
    rw [List.foldlM_cons] at h
    obtain ⟨next, first, more⟩ := exists_of_bind_eq_ok h
    exact (settles_of_settle first).trans (ih more)

end PathPattern.CommandLine
