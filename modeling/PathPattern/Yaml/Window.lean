/-!
# The readable part of a YAML text

A text is read in windows: as many whole characters as fit into a number of bytes, and the next
window starts with the first character that did not fit. A window that holds a character which no
YAML text may have cannot be read at all, and neither can what follows it; the windows before it
can.
-/

namespace PathPattern.Yaml

/-- The characters of a YAML text; controls are left out, but a byte order mark may stand
anywhere. -/
def isAllowed (c : Char) : Bool :=
  let n := c.toNat
  c == '\t' || c == '\n' || c == '\r' || (0x20 ≤ n && n ≤ 0x7e) || n == 0x85 ||
    (0xa0 ≤ n && n ≤ 0xd7ff) || (0xe000 ≤ n && n ≤ 0xfffd) || 0x10000 ≤ n

/-- The bytes of a window. -/
def windowBytes : Nat := 16384

/-- Where the first window starts that cannot be read. The window at hand starts at `first` and
holds `used` bytes before the character at `place`. -/
def unreadableFrom? (first used place : Nat) : List Char → Option Nat
  | [] => none
  | c :: cs =>
    let fits := used + c.utf8Size ≤ windowBytes
    let first := if fits then first else place
    let used := if fits then used + c.utf8Size else c.utf8Size
    if isAllowed c then unreadableFrom? first used (place + 1) cs else some first

/-- A text of allowed characters is readable as a whole. -/
theorem unreadableFrom?_of_all {first used place : Nat} {cs : List Char}
    (h : cs.all isAllowed = true) : unreadableFrom? first used place cs = none := by
  induction cs generalizing first used place with
  | nil => rfl
  | cons c cs ih =>
    simp only [List.all_cons, Bool.and_eq_true] at h
    simp [unreadableFrom?, h.1, ih h.2]

/-- The readable part of a text, and whether an unreadable part follows it. -/
def readable (cs : List Char) : List Char × Bool :=
  match unreadableFrom? 0 0 0 cs with
  | none => (cs, false)
  | some first => (cs.take first, true)

end PathPattern.Yaml
