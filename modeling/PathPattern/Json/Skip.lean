import PathPattern.Json.Number
import PathPattern.Json.Text

/-!
# Skipping a JSON value

A value that nobody wants is passed over without being built. The brackets that are open stand
on a stack, so no depth is too much, and a state says what may come next. Every step uses up
text, and the skip ends right behind the value.
-/

namespace PathPattern.Json

/-- An open bracket. -/
inductive Bracket where
  | list
  | map
  deriving DecidableEq, Repr

/-- What may come next in a value that is being skipped. -/
inductive Due where
  /-- A value. -/
  | value
  /-- The first element of a list, or its end. -/
  | element
  /-- The first key of a map, or its end. -/
  | firstKey
  /-- A key. -/
  | key
  /-- The colon after a key. -/
  | colon
  /-- A comma or the end of what is open. -/
  | more
  deriving DecidableEq, Repr

/-- The rest of the text after the letters of a word. -/
def word : List Char → List Char → Except Fault (List Char)
  | [], cs => .ok cs
  | _ :: _, [] => .error .incomplete
  | w :: ws, c :: cs => if c = w then word ws cs else .error .malformed

/-- The rest after a value without brackets that starts with `c`. -/
def skipScalar (c : Char) (cs : List Char) : Except Fault (List Char) :=
  if c = '"' then skipString cs
  else if c = 'n' then word ['u', 'l', 'l'] cs
  else if c = 't' then word ['r', 'u', 'e'] cs
  else if c = 'f' then word ['a', 'l', 's', 'e'] cs
  else if c = '-' then skipUnsigned cs
  else if Integer.isDigit c then skipUnsigned (c :: cs)
  else .error .malformed

theorem word_length_le {ws cs rest : List Char} (h : word ws cs = .ok rest) :
    rest.length ≤ cs.length := by
  fun_induction word ws cs with
  | case1 => simp_all
  | case2 => simp at h
  | case3 ws c cs ih => exact Nat.le_succ_of_le (ih h)
  | case4 => simp at h

theorem skipScalar_length {c : Char} {cs rest : List Char} (h : skipScalar c cs = .ok rest) :
    rest.length < (c :: cs).length := by
  unfold skipScalar at h
  split at h
  · exact Nat.lt_succ_of_lt (skipString_length cs h)
  split at h
  · exact Nat.lt_succ_of_le (word_length_le h)
  split at h
  · exact Nat.lt_succ_of_le (word_length_le h)
  split at h
  · exact Nat.lt_succ_of_le (word_length_le h)
  split at h
  · exact Nat.lt_succ_of_lt (skipUnsigned_length h)
  split at h
  · exact skipUnsigned_length h
  · simp at h

/-- What is due after a comma. -/
def Bracket.next : Bracket → Due
  | .list => .value
  | .map => .key

/-- The character that closes a bracket. -/
def Bracket.close : Bracket → Char
  | .list => ']'
  | .map => '}'

/-- What the skip has to go on with: what is due, what is open, and the rest of the text. -/
abbrev Standing := Due × List Bracket × List Char

/-- The start of a value by the character `c`. -/
def startValue (stack : List Bracket) (c : Char) (rest : List Char) : Except Fault Standing :=
  if c = '[' then .ok (.element, .list :: stack, rest)
  else if c = '{' then .ok (.firstKey, .map :: stack, rest)
  else (skipScalar c rest).map (.more, stack, ·)

/-- A key that starts with the character `c`. -/
def startKey (stack : List Bracket) (c : Char) (rest : List Char) : Except Fault Standing :=
  if c = '"' then (skipString rest).map (.colon, stack, ·) else .error .malformed

/-- One character, or one token that starts with it. -/
def step (due : Due) (stack : List Bracket) (c : Char) (rest : List Char) :
    Except Fault Standing :=
  if isWhite c then .ok (due, stack, rest)
  else
    match due, stack with
    | .value, stack => startValue stack c rest
    | .key, stack => startKey stack c rest
    | .colon, stack => if c = ':' then .ok (.value, stack, rest) else .error .malformed
    | .element, stack =>
      if c = ']' then .ok (.more, stack.tail, rest) else startValue stack c rest
    | .firstKey, stack =>
      if c = '}' then .ok (.more, stack.tail, rest) else startKey stack c rest
    | .more, [] => .error .malformed
    | .more, top :: below =>
      if c = ',' then .ok (top.next, top :: below, rest)
      else if c = top.close then .ok (.more, below, rest)
      else .error .malformed

theorem startValue_length_le {stack stack' : List Bracket} {c : Char} {rest rest' : List Char}
    {due' : Due} (h : startValue stack c rest = .ok (due', stack', rest')) :
    rest'.length ≤ rest.length := by
  unfold startValue at h
  split at h
  · simp_all
  split at h
  · simp_all
  · cases hs : skipScalar c rest with
    | error fault => simp [hs, Except.map] at h
    | ok r =>
      simp only [hs, Except.map, Except.ok.injEq, Prod.mk.injEq] at h
      exact h.2.2 ▸ Nat.le_of_lt_succ (skipScalar_length hs)

theorem startKey_length_le {stack stack' : List Bracket} {c : Char} {rest rest' : List Char}
    {due' : Due} (h : startKey stack c rest = .ok (due', stack', rest')) :
    rest'.length ≤ rest.length := by
  unfold startKey at h
  split at h
  · cases hs : skipString rest with
    | error fault => simp [hs, Except.map] at h
    | ok r =>
      simp only [hs, Except.map, Except.ok.injEq, Prod.mk.injEq] at h
      exact h.2.2 ▸ Nat.le_of_lt (skipString_length rest hs)
  · simp at h

theorem step_length_le {due due' : Due} {stack stack' : List Bracket} {c : Char}
    {rest rest' : List Char} (h : step due stack c rest = .ok (due', stack', rest')) :
    rest'.length ≤ rest.length := by
  unfold step at h
  split at h
  · simp_all
  split at h
  · exact startValue_length_le h
  · exact startKey_length_le h
  · split at h <;> simp_all
  · split at h
    · simp_all
    · exact startValue_length_le h
  · split at h
    · simp_all
    · exact startKey_length_le h
  · simp at h
  · split at h
    · simp_all
    · split at h <;> simp_all

/-- The rest of the text once nothing is due and nothing is open. -/
def skipFrom (due : Due) (stack : List Bracket) (cs : List Char) : Except Fault (List Char) :=
  if due = .more ∧ stack = [] then .ok cs
  else
    match cs with
    | [] => .error .incomplete
    | c :: rest =>
      match h : step due stack c rest with
      | .error fault => .error fault
      | .ok (due', stack', rest') =>
        have := step_length_le h
        skipFrom due' stack' rest'
termination_by cs.length
decreasing_by simp only [List.length_cons]; omega

/-- The rest of the text after a value. -/
def skipValue (cs : List Char) : Except Fault (List Char) := skipFrom .value [] cs

theorem skipFrom_length_le (due : Due) (stack : List Bracket) (cs : List Char) :
    ∀ {rest : List Char}, skipFrom due stack cs = .ok rest → rest.length ≤ cs.length := by
  fun_induction skipFrom due stack cs with
  | case1 => simp_all
  | case2 => simp
  | case3 => simp
  | case4 due stack _ c rest due' stack' rest' _ this ih =>
    intro rest'' h
    have := ih h
    simp only [List.length_cons]
    omega

theorem skipValue_length {cs rest : List Char} (h : skipValue cs = .ok rest) :
    rest.length < cs.length := by
  unfold skipValue skipFrom at h
  split at h
  · simp_all
  split at h
  · simp at h
  next c rest' =>
    split at h
    · simp at h
    next hs =>
      have h₁ := step_length_le hs
      have h₂ := skipFrom_length_le _ _ _ h
      simp only [List.length_cons]
      omega

end PathPattern.Json
