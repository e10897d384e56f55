import PathPattern.Json.Fault
import PathPattern.Text.Pieces

/-!
# JSON strings

Reads and writes the characters between two quotes. A string that is read has no lone surrogate
and no raw control character; one that is only skipped may have lone surrogates. Writing
escapes the quote, the backslash and the controls, and nothing else.
-/

namespace PathPattern.Json

open Text (byteCount)

/-- The value of a hexadecimal digit. -/
def hexDigit? (c : Char) : Option Nat := Integer.digitValue? 16 c

/-- The four hexadecimal digits of an escape. With fewer than four bytes left the text ends too
early, whatever the bytes are. -/
def hexCode : List Char → Step Nat
  | a :: b :: c :: d :: rest =>
    match hexDigit? a, hexDigit? b, hexDigit? c, hexDigit? d with
    | some a, some b, some c, some d => .ok (((a * 16 + b) * 16 + c) * 16 + d, rest)
    | _, _, _, _ => .error .malformed
  | cs => .error (if byteCount cs < 4 then .incomplete else .malformed)

/-- A code unit that starts a surrogate pair. -/
def isHighSurrogate (n : Nat) : Bool := 0xd800 ≤ n && n ≤ 0xdbff

/-- A code unit that ends a surrogate pair. -/
def isLowSurrogate (n : Nat) : Bool := 0xdc00 ≤ n && n ≤ 0xdfff

/-- The character of an escape by code units, after its `u`; a pair of surrogates is one
character and a lone one is none. -/
def unicodeEscape (cs : List Char) : Step Char :=
  match hexCode cs with
  | .error fault => .error fault
  | .ok (n, rest) =>
    if isLowSurrogate n then .error .malformed
    else if !isHighSurrogate n then .ok (Char.ofNat n, rest)
    else
      match rest with
      | [] => .error .incomplete
      | ['\\'] => .error .incomplete
      | '\\' :: 'u' :: rest =>
        match hexCode rest with
        | .error fault => .error fault
        | .ok (m, rest) =>
          if isLowSurrogate m then
            .ok (Char.ofNat (0x10000 + (n - 0xd800) * 0x400 + (m - 0xdc00)), rest)
          else .error .malformed
      | _ => .error .malformed

/-- The character of a short escape. -/
def shortEscape? : Char → Option Char
  | '"' => some '"'
  | '\\' => some '\\'
  | '/' => some '/'
  | 'b' => some (Char.ofNat 8)
  | 'f' => some (Char.ofNat 12)
  | 'n' => some '\n'
  | 'r' => some '\r'
  | 't' => some '\t'
  | _ => none

/-- The character of an escape, after its backslash. -/
def escape : List Char → Step Char
  | [] => .error .incomplete
  | c :: rest =>
    if c = 'u' then unicodeEscape rest
    else
      match shortEscape? c with
      | some d => .ok (d, rest)
      | none => .error .malformed

theorem hexCode_length {cs rest : List Char} {n : Nat} (h : hexCode cs = .ok (n, rest)) :
    rest.length < cs.length := by
  unfold hexCode at h
  split at h
  · split at h
    · simp only [Except.ok.injEq, Prod.mk.injEq] at h
      simp [← h.2]
      omega
    · simp at h
  · simp at h

theorem unicodeEscape_length {cs rest : List Char} {c : Char}
    (h : unicodeEscape cs = .ok (c, rest)) : rest.length < cs.length := by
  unfold unicodeEscape at h
  split at h
  · simp at h
  · next n rest' h₁ =>
    have l₁ := hexCode_length h₁
    split at h
    · simp at h
    split at h
    · simp only [Except.ok.injEq, Prod.mk.injEq] at h
      simpa [← h.2] using l₁
    split at h
    · simp at h
    · simp at h
    · split at h
      · simp at h
      · next m rest'' h₂ =>
        have l₂ := hexCode_length h₂
        split at h
        · simp only [Except.ok.injEq, Prod.mk.injEq] at h
          simp only [List.length_cons] at l₁
          rw [← h.2]
          omega
        · simp at h
    · simp at h

theorem escape_length {cs rest : List Char} {c : Char} (h : escape cs = .ok (c, rest)) :
    rest.length < cs.length := by
  cases cs with
  | nil => simp [escape] at h
  | cons d cs =>
    rw [escape] at h
    split at h
    · have := unicodeEscape_length h
      simp only [List.length_cons]
      omega
    · split at h
      · simp only [Except.ok.injEq, Prod.mk.injEq] at h
        simp [← h.2]
      · simp at h

/-- The characters of a string, after its opening quote. -/
def stringBody (cs : List Char) : Step (List Char) :=
  match cs with
  | [] => .error .incomplete
  | c :: rest =>
    if c = '"' then .ok ([], rest)
    else if c = '\\' then
      match h : escape rest with
      | .error fault => .error fault
      | .ok (d, rest') =>
        have := escape_length h
        mapValue (d :: ·) (stringBody rest')
    else if c.toNat < 0x20 then .error .malformed
    else mapValue (c :: ·) (stringBody rest)
termination_by cs.length
decreasing_by all_goals simp only [List.length_cons]; omega

/-- The rest of the text after a string that nobody reads, given what follows its opening
quote. -/
def skipString (cs : List Char) : Except Fault (List Char) :=
  match cs with
  | [] => .error .incomplete
  | c :: rest =>
    if c = '"' then .ok rest
    else if c = '\\' then
      match rest with
      | [] => .error .incomplete
      | d :: rest =>
        if d = 'u' then
          match h : hexCode rest with
          | .error fault => .error fault
          | .ok (_, rest') =>
            have := hexCode_length h
            skipString rest'
        else if (shortEscape? d).isSome then skipString rest
        else .error .malformed
    else if c.toNat < 0x20 then .error .malformed
    else skipString rest
termination_by cs.length
decreasing_by all_goals simp only [List.length_cons]; omega

theorem stringBody_length (cs : List Char) : ∀ {ds rest : List Char},
    stringBody cs = .ok (ds, rest) → rest.length < cs.length := by
  fun_induction stringBody cs with
  | case1 => simp
  | case2 => simp_all
  | case3 => simp
  | case4 rest d rest' hesc l _ ih =>
    intro ds rest'' h
    obtain ⟨es, hes, -⟩ := mapValue_eq_ok_iff.1 h
    have := ih hes
    simp only [List.length_cons]
    omega
  | case5 => simp
  | case6 c rest hc₁ hc₂ hc₃ ih =>
    intro ds rest'' h
    obtain ⟨es, hes, -⟩ := mapValue_eq_ok_iff.1 h
    exact Nat.lt_succ_of_lt (ih hes)

theorem skipString_length (cs : List Char) : ∀ {rest : List Char},
    skipString cs = .ok rest → rest.length < cs.length := by
  fun_induction skipString cs <;> intro rest'' h <;> simp_all <;> grind

/-- The spelling of one character between quotes. -/
def escaped (c : Char) : List Char :=
  if c = '"' then ['\\', '"']
  else if c = '\\' then ['\\', '\\']
  else if c = Char.ofNat 8 then ['\\', 'b']
  else if c = Char.ofNat 12 then ['\\', 'f']
  else if c = '\n' then ['\\', 'n']
  else if c = '\r' then ['\\', 'r']
  else if c = '\t' then ['\\', 't']
  else if c.toNat < 0x20 then
    ['\\', 'u', '0', '0', Nat.digitChar (c.toNat / 16), Nat.digitChar (c.toNat % 16)]
  else [c]

/-- The JSON string of a text. -/
def string (cs : List Char) : List Char := '"' :: cs.flatMap escaped ++ ['"']

end PathPattern.Json
