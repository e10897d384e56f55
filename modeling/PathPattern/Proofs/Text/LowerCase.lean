import PathPattern.Proofs.Text.CodePoint
import PathPattern.Text.Lower

/-!
# Lower case and ASCII

The lower case of an ASCII character is its ASCII lower case. Of the others only the Kelvin sign has a
single ASCII letter for its lower case, a `k`; the tables say so (`lower_ne_of_not_ascii`). So
lower-case letters without a `k` among them are the lower case of their ASCII case variants and of
nothing else (`lowerAll_eq_iff`). Lowering ASCII letters alone keeps every character that is no letter.
-/

namespace PathPattern.Text

variable {c d : Char} {cs ds : List Char}

/-- A character that a table moves is moved by one of its runs. -/
theorem CaseRun.exists_of_apply_eq {runs : List CaseRun} (image : CaseRun.apply runs c = d)
    (moved : c ≠ d) (nonzero : d.toNat ≠ 0) : ∃ run ∈ runs, run.map? c.toNat = some d.toNat := by
  rcases CaseRun.apply_eq_or_exists runs c with same | ⟨run, mem, n, maps, applied⟩
  · exact absurd (same.symm.trans image) moved
  · refine ⟨run, mem, ?_⟩
    rw [applied] at image
    by_cases valid : n.isValidChar
    · rw [maps, ← image, toNat_ofNat valid]
    · rw [← image, ofNat_of_not_valid valid] at nonzero
      exact absurd rfl nonzero

/-- The run takes no character into ASCII from outside of it, unless to `k`. -/
def CaseRun.KeepsAside (run : CaseRun) : Prop :=
  run.last < 128 ∨ 128 ≤ run.image ∨ run.first = run.last ∧ run.image = 'k'.toNat

instance (run : CaseRun) : Decidable run.KeepsAside := inferInstanceAs (Decidable (_ ∨ _))

theorem CaseRun.KeepsAside.eq_of_map? {run : CaseRun} {n m : Nat} (h : run.KeepsAside)
    (maps : run.map? n = some m) (outside : 128 ≤ n) (ascii : m < 128) : m = 'k'.toNat := by
  unfold CaseRun.map? at maps
  split at maps
  · next holds =>
    cases maps
    rcases h with low | high | ⟨single, kelvin⟩ <;> omega
  · cases maps

/-! ### ASCII letters by their code points -/

theorem isUpper_iff : c.isUpper = true ↔ 65 ≤ c.toNat ∧ c.toNat ≤ 90 :=
  decide_eq_true_iff.trans (and_congr UInt32.le_iff_toNat_le UInt32.le_iff_toNat_le)

theorem isLower_iff : c.isLower = true ↔ 97 ≤ c.toNat ∧ c.toNat ≤ 122 :=
  Bool.and_eq_true_iff.trans <| and_congr (decide_eq_true_iff.trans UInt32.le_iff_toNat_le)
    (decide_eq_true_iff.trans UInt32.le_iff_toNat_le)

theorem isAlpha_iff :
    c.isAlpha = true ↔ 65 ≤ c.toNat ∧ c.toNat ≤ 90 ∨ 97 ≤ c.toNat ∧ c.toNat ≤ 122 :=
  Bool.or_eq_true_iff.trans (or_congr isUpper_iff isLower_iff)

/-- A capital moves by 32, and all else stays. -/
theorem toNat_toLower (c : Char) :
    c.toLower.toNat = if 65 ≤ c.toNat ∧ c.toNat ≤ 90 then c.toNat + 32 else c.toNat := by
  unfold Char.toLower
  split
  · next upper =>
    have inside := isUpper_iff.1 (decide_eq_true upper)
    have small : c.val.toNat + 32 < 2 ^ 32 := by
      have last : c.val.toNat ≤ 90 := inside.2
      omega
    rw [if_pos inside]
    exact (UInt32.toNat_add c.val 32).trans (Nat.mod_eq_of_lt small)
  · next other => rw [if_neg fun inside => other (of_decide_eq_true (isUpper_iff.2 inside))]

theorem toLower_of_not_ascii (outside : 128 ≤ c.toNat) : c.toLower = c := by
  rw [← Char.toNat_inj, toNat_toLower, if_neg (by omega)]

/-! ### The tables in ASCII -/

/-- No run takes a character into ASCII, unless to `k`, and the first one alone starts there. -/
theorem lowerRuns_in_ascii : (∀ run ∈ lowerRunsLow ++ lowerRunsHigh, run.KeepsAside) ∧
    ∀ run ∈ lowerRunsLow.tail, 128 ≤ run.first := by
  decide +kernel

/-- The run of the ASCII capitals, the first of the table. -/
def capitals : CaseRun := ⟨0x41, 0x5a, 1, 0x61⟩

theorem map?_capitals (n : Nat) :
    capitals.map? n = if 65 ≤ n ∧ n ≤ 90 then some (n + 32) else none := by
  unfold CaseRun.map? capitals
  by_cases inside : 65 ≤ n ∧ n ≤ 90
  · rw [if_pos inside, if_pos ⟨inside.1, inside.2, Nat.mod_one _⟩, Option.some.injEq]
    show 97 + (n - 65) = n + 32
    omega
  · rw [if_neg inside, if_neg fun holds => inside ⟨holds.1, holds.2.1⟩]

theorem lower_of_ascii (ascii : c.toNat < 128) : lower c = [c.toLower] := by
  have rest : lowerRunsLow.tail.findSome? (·.map? c.toNat) = none := by
    rw [List.findSome?_eq_none_iff]
    intro run mem
    have first := lowerRuns_in_ascii.2 run mem
    exact if_neg (by omega)
  have split : lowerRunsLow = capitals :: lowerRunsLow.tail := rfl
  have table : CaseRun.apply lowerRunsLow c = c.toLower := by
    rw [CaseRun.apply, split, List.findSome?_cons, rest, map?_capitals, ← Char.toNat_inj,
      toNat_toLower]
    by_cases capital : 65 ≤ c.toNat ∧ c.toNat ≤ 90
    · have valid : (c.toNat + 32).isValidChar := .inl (by omega)
      rw [if_pos capital, if_pos capital]
      exact toNat_ofNat valid
    · rw [if_neg capital, if_neg capital]
  rw [lower, if_neg (by omega), if_pos (by omega), table]

/-- Outside of ASCII only the Kelvin sign has an ASCII letter for its lower case. -/
theorem lower_ne_of_not_ascii (outside : 128 ≤ c.toNat) (letter : d.isLower = true) (other : d ≠ 'k') :
    lower c ≠ [d] := by
  obtain ⟨low, high⟩ := isLower_iff.1 letter
  have apart : ∀ runs : List CaseRun, (∀ run ∈ runs, run.KeepsAside) → CaseRun.apply runs c ≠ d := by
    intro runs keep image
    obtain ⟨run, mem, maps⟩ := CaseRun.exists_of_apply_eq image (by rintro rfl; omega) (by omega)
    exact other (Char.toNat_inj.1 ((keep run mem).eq_of_map? maps outside (by omega)))
  obtain ⟨keepLow, keepHigh⟩ := List.forall_mem_append.1 lowerRuns_in_ascii.1
  unfold lower
  split
  · simp
  · split
    · simpa using apart _ keepLow
    · simpa using apart _ keepHigh

theorem lower_eq_singleton_iff (letter : d.isLower = true) (other : d ≠ 'k') :
    lower c = [d] ↔ c.toLower = d := by
  by_cases ascii : c.toNat < 128
  · simp [lower_of_ascii ascii]
  · have outside : 128 ≤ c.toNat := Nat.not_lt.1 ascii
    have apart : c ≠ d := by
      rintro rfl
      have := isLower_iff.1 letter
      omega
    simp [lower_ne_of_not_ascii outside letter other, toLower_of_not_ascii outside, apart]

theorem lower_eq_singleton_or (c : Char) :
    (∃ d, lower c = [d]) ∨ lower c = ['i', Char.ofNat 0x307] := by
  unfold lower
  split
  · exact .inr rfl
  · split <;> exact .inl ⟨_, rfl⟩

/-- Of all texts, the ASCII case variants of `ds` and no others have `ds` for their lower case. -/
theorem lowerAll_eq_iff (letters : ∀ d ∈ ds, d.isLower = true ∧ d ≠ 'k') :
    lowerAll cs = ds ↔ cs.map Char.toLower = ds := by
  induction cs generalizing ds with
  | nil => simp [lowerAll]
  | cons c cs ih =>
    rw [lowerAll, List.flatMap_cons, List.map_cons]
    constructor
    · rintro rfl
      rcases lower_eq_singleton_or c with ⟨d, single⟩ | double
      · rw [single, List.singleton_append, List.forall_mem_cons] at letters
        obtain ⟨⟨letter, other⟩, letters⟩ := letters
        rw [single, (lower_eq_singleton_iff letter other).1 single, (ih letters).1 rfl]
        rfl
      · -- The dot of the dotted capital is no letter.
        have dot := (letters (Char.ofNat 0x307) (by simp [double])).1
        exact absurd dot (by decide)
    · rintro rfl
      obtain ⟨⟨letter, other⟩, letters⟩ := List.forall_mem_cons.1 letters
      rw [(lower_eq_singleton_iff letter other).2 rfl, ← (ih letters).2 rfl]
      rfl

/-! ### Lower case of ASCII letters alone -/

theorem isAlpha_toLower (c : Char) : c.toLower.isAlpha = c.isAlpha := by
  rw [Bool.eq_iff_iff, isAlpha_iff, isAlpha_iff, toNat_toLower]
  split <;> omega

theorem isDigit_toLower (c : Char) : c.toLower.isDigit = c.isDigit := by
  rw [Bool.eq_iff_iff, Char.isDigit_iff_toNat, Char.isDigit_iff_toNat, toNat_toLower]
  have last : '9'.toNat = 57 := rfl
  split <;> omega

theorem toLower_toLower (c : Char) : c.toLower.toLower = c.toLower := by
  have letter := toNat_toLower c
  rw [← Char.toNat_inj, toNat_toLower, if_neg]
  split at letter <;> omega

theorem not_isAlpha_of_isDigit (digit : c.isDigit = true) : c.isAlpha = false := by
  have last : c.toNat ≤ 57 := (Char.isDigit_iff_toNat.1 digit).2
  rw [Bool.eq_false_iff, Ne, isAlpha_iff]
  omega

theorem toLower_of_not_isAlpha (other : c.isAlpha = false) : c.toLower = c := by
  rw [Bool.eq_false_iff, Ne, isAlpha_iff] at other
  rw [← Char.toNat_inj, toNat_toLower, if_neg fun capital => other (.inl capital)]

/-- No letter becomes a character that is none. -/
theorem toLower_eq_iff (other : d.isAlpha = false) : c.toLower = d ↔ c = d := by
  constructor
  · rintro rfl
    rw [isAlpha_toLower] at other
    exact (toLower_of_not_isAlpha other).symm
  · rintro rfl
    exact toLower_of_not_isAlpha other

theorem mem_map_toLower_iff (other : d.isAlpha = false) : d ∈ cs.map Char.toLower ↔ d ∈ cs := by
  simp only [List.mem_map, toLower_eq_iff other, exists_eq_right]

theorem map_toLower_of_not_isAlpha (others : ∀ c ∈ cs, c.isAlpha = false) :
    cs.map Char.toLower = cs :=
  (List.map_congr_left fun c mem => toLower_of_not_isAlpha (others c mem)).trans (List.map_id cs)

theorem toList_toLower (text : String) : text.toLower.toList = text.toList.map Char.toLower :=
  String.toList_map

theorem map_toLower_map_toLower (cs : List Char) :
    (cs.map Char.toLower).map Char.toLower = cs.map Char.toLower := by
  rw [List.map_map]
  exact List.map_congr_left fun c _ => toLower_toLower c

end PathPattern.Text
