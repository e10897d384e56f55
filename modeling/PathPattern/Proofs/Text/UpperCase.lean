import PathPattern.Proofs.Text.CodePoint
import PathPattern.Text.Blank
import PathPattern.Text.Upper

/-!
# The upper case of an upper case

A character is its own upper case, or its upper case is made of images of the tables. `upperImages`
lists the images run by run, and the tables say of them what is needed: none of them is mapped any
further, none is white space, and in ASCII they are capital letters. So upper case is reached in one
step (`upper_of_mem_upper`), and only white space has white space for its upper case
(`isBlank_of_mem_upper`). Whether two sets of code points meet is asked of numbers that have a bit for
each of them, not pair by pair.
-/

namespace PathPattern.Text

variable {c d : Char} {n m s t : Nat} {points : List Nat} {sets : List Nat}

/-! ### White space -/

/-- The code points of white space. -/
def blankPoints : List Nat :=
  [9, 10, 11, 12, 13, 0x20, 0x85, 0xa0, 0x1680, 0x2000, 0x2001, 0x2002, 0x2003, 0x2004, 0x2005, 0x2006,
    0x2007, 0x2008, 0x2009, 0x200a, 0x2028, 0x2029, 0x202f, 0x205f, 0x3000]

theorem isBlank_iff : isBlank c = true ↔ c.toNat ∈ blankPoints := by
  simp only [isBlank, blankPoints, Bool.or_eq_true, Bool.and_eq_true, decide_eq_true_eq, beq_iff_eq,
    List.mem_cons, List.not_mem_nil, or_false]
  omega

/-! ### Code points as bits -/

/-- The bits of all of the numbers. -/
def union (sets : List Nat) : Nat := sets.foldr (· ||| ·) 0

theorem testBit_union : (union sets).testBit n = true ↔ ∃ set ∈ sets, set.testBit n = true := by
  induction sets with
  | nil => simp [union]
  | cons set sets ih =>
    rw [union, List.foldr_cons, Nat.testBit_or, Bool.or_eq_true, ← union, ih]
    simp

/-- The number with the bits at these places. -/
def bits (points : List Nat) : Nat := union (points.map (1 <<< ·))

theorem testBit_bits : (bits points).testBit n = true ↔ n ∈ points := by
  have one (k : Nat) : (1 <<< k).testBit n = true ↔ k = n := by
    rw [Nat.one_shiftLeft, Nat.testBit_two_pow, decide_eq_true_iff]
  rw [bits, testBit_union]
  constructor
  · rintro ⟨_, mem, bit⟩
    obtain ⟨k, inside, rfl⟩ := List.mem_map.1 mem
    exact (one k).1 bit ▸ inside
  · exact fun mem => ⟨_, List.mem_map_of_mem mem, (one n).2 rfl⟩

theorem testBit_of_apart (apart : s &&& t = 0) (mem : s.testBit n = true) : t.testBit n = false := by
  have none : (s &&& t).testBit n = false := by rw [apart, Nat.zero_testBit]
  rwa [Nat.testBit_and, mem, Bool.true_and] at none

/-! ### The tables as runs -/

namespace CaseRun

variable {r : CaseRun}

/-- The run of one code point that it leaves as it is. -/
def single (n : Nat) : CaseRun := ⟨n, n, 1, n⟩

theorem map?_single (n : Nat) : (single n).map? n = some n := by
  simp [single, map?]

/-- The number of code points that the run maps. -/
def count (r : CaseRun) : Nat := (r.last - r.first) / r.step + 1

/-- The code points that the run maps. -/
def sources (r : CaseRun) : List Nat := List.range' r.first r.count r.step

/-- The code points that the run maps to. -/
def images (r : CaseRun) : List Nat := List.range' r.image r.count r.step

theorem mem_of_map? (maps : r.map? n = some m) : n ∈ r.sources ∧ m ∈ r.images := by
  unfold map? at maps
  split at maps
  · next inside =>
    cases maps
    obtain ⟨first, last, whole⟩ := inside
    have steps : r.step * ((n - r.first) / r.step) = n - r.first :=
      Nat.mul_div_cancel' (Nat.dvd_of_mod_eq_zero whole)
    have few : (n - r.first) / r.step < r.count :=
      Nat.lt_succ_of_le (Nat.div_le_div_right (Nat.sub_le_sub_right last _))
    refine ⟨List.mem_range'.2 ⟨_, few, ?_⟩, List.mem_range'.2 ⟨_, few, ?_⟩⟩
    · omega
    · omega
  · cases maps

/-- The last image of a run. -/
def lastImage (r : CaseRun) : Nat := r.image + (r.last - r.first)

/-- The images of the run are capital letters or not in ASCII, and none is a surrogate or past the last
character. -/
def IsCapital (r : CaseRun) : Prop :=
  ('A'.toNat ≤ r.image ∧ r.lastImage ≤ 'Z'.toNat ∨ 128 ≤ r.image) ∧
    (r.lastImage < 0xd800 ∨ 0xdfff < r.image ∧ r.lastImage < 0x110000)

instance (r : CaseRun) : Decidable r.IsCapital := inferInstanceAs (Decidable (_ ∧ _))

end CaseRun

/-- The code points that the tables map. -/
def upperSources : List CaseRun :=
  upperRunsLow ++ upperRunsHigh ++ upperLong.map fun entry => .single entry.1

/-- The runs that the tables map to; an image in a longer upper case is a run of its own. -/
def upperImages : List CaseRun :=
  upperRunsLow ++ upperRunsHigh ++ (upperLong.flatMap (·.2)).map .single

/-- A bit for each code point that the tables map. -/
def upperSourceBits : Nat := union (upperSources.map fun r => bits r.sources)

/-- A bit for each image of the tables. -/
def upperImageBits : Nat := union (upperImages.map fun r => bits r.images)

/-- What the tables map, what they map to and white space have no code points in common. -/
theorem apart_upper : upperImageBits &&& upperSourceBits = 0 ∧
    upperImageBits &&& bits blankPoints = 0 ∧ bits blankPoints &&& upperSourceBits = 0 := by
  decide +kernel

theorem isCapital_upperImages : ∀ r ∈ upperImages, r.IsCapital := by decide +kernel

/-- A character that no table maps is its own upper case. -/
theorem upper_of_not_source (free : upperSourceBits.testBit c.toNat = false) : upper c = [c] := by
  have stays : ∀ r ∈ upperSources, r.map? c.toNat = none := by
    intro r source
    rw [Option.eq_none_iff_forall_ne_some]
    intro m maps
    have listed := testBit_bits.2 (CaseRun.mem_of_map? maps).1
    have mapped : upperSourceBits.testBit c.toNat = true :=
      testBit_union.2 ⟨_, List.mem_map_of_mem source, listed⟩
    exact Bool.false_ne_true (free.symm.trans mapped)
  simp only [upperSources, List.forall_mem_append, List.forall_mem_map] at stays
  obtain ⟨⟨low, high⟩, long⟩ := stays
  have absent : upperLong.lookup c.toNat = none := by
    rw [List.lookup_eq_none_iff]
    intro entry mem
    rw [bne_iff_ne]
    intro same
    have none := long entry mem
    rw [← same, CaseRun.map?_single] at none
    cases none
  unfold upper
  rw [absent]
  simp only [CaseRun.apply_of_forall_none low, CaseRun.apply_of_forall_none high, ite_self]

theorem upper_of_isBlank (blank : isBlank c = true) : upper c = [c] :=
  upper_of_not_source (testBit_of_apart apart_upper.2.2 (testBit_bits.2 (isBlank_iff.1 blank)))

/-! ### Images -/

/-- The code point is an image of the tables. -/
def IsUpperImage (m : Nat) : Prop := ∃ r ∈ upperImages, ∃ n, r.map? n = some m

namespace IsUpperImage

theorem testBit (h : IsUpperImage m) : upperImageBits.testBit m = true := by
  obtain ⟨r, mem, n, maps⟩ := h
  have listed := testBit_bits.2 (CaseRun.mem_of_map? maps).2
  exact testBit_union.2 ⟨_, List.mem_map_of_mem mem, listed⟩

theorem isCapital (h : IsUpperImage m) :
    m.isValidChar ∧ ('A'.toNat ≤ m ∧ m ≤ 'Z'.toNat ∨ 128 ≤ m) := by
  obtain ⟨r, mem, n, maps⟩ := h
  obtain ⟨letters, valid⟩ := isCapital_upperImages r mem
  unfold CaseRun.map? at maps
  split at maps
  · next inside =>
    cases maps
    unfold CaseRun.lastImage at letters valid
    refine ⟨?_, by omega⟩
    unfold Nat.isValidChar
    omega
  · cases maps

theorem not_blank (h : IsUpperImage m) : m ∉ blankPoints := by
  intro blank
  have absent := testBit_of_apart apart_upper.2.1 h.testBit
  exact Bool.false_ne_true (absent.symm.trans (testBit_bits.2 blank))

/-- No table maps an image any further. -/
theorem upper_eq (h : IsUpperImage c.toNat) : upper c = [c] :=
  upper_of_not_source (testBit_of_apart apart_upper.1 h.testBit)

end IsUpperImage

theorem isUpperImage_apply {runs : List CaseRun} (tables : ∀ r ∈ runs, r ∈ upperImages) (c : Char) :
    CaseRun.apply runs c = c ∨ IsUpperImage (CaseRun.apply runs c).toNat := by
  rcases CaseRun.apply_eq_or_exists runs c with same | ⟨r, mem, n, maps, applied⟩
  · exact .inl same
  · have image : IsUpperImage n := ⟨r, tables r mem, _, maps⟩
    rw [applied, toNat_ofNat image.isCapital.1]
    exact .inr image

/-- A character is its own upper case, or its upper case is made of images. -/
theorem upper_eq_self_or (c : Char) :
    upper c = [c] ∨ upper c ≠ [] ∧ ∀ d ∈ upper c, IsUpperImage d.toNat := by
  have ofRuns {runs : List CaseRun} (tables : ∀ r ∈ runs, r ∈ upperImages) :
      [CaseRun.apply runs c] = [c] ∨ [CaseRun.apply runs c] ≠ [] ∧
        ∀ d ∈ [CaseRun.apply runs c], IsUpperImage d.toNat := by
    rcases isUpperImage_apply tables c with same | image
    · exact .inl (by rw [same])
    · exact .inr ⟨by simp, by simpa using image⟩
  unfold upper
  split
  · next images found =>
    obtain ⟨before, after, split, -⟩ := List.lookup_eq_some_iff.1 found
    have entry : (c.toNat, images) ∈ upperLong := by simp [split]
    have nonempty : ∀ entry ∈ upperLong, entry.2 ≠ [] := by decide +kernel
    refine .inr ⟨by simpa using nonempty _ entry, fun d mem => ?_⟩
    obtain ⟨n, inside, rfl⟩ := List.mem_map.1 mem
    have listed : CaseRun.single n ∈ upperImages :=
      List.mem_append_right _ (List.mem_map_of_mem (List.mem_flatMap.2 ⟨_, entry, inside⟩))
    have image : IsUpperImage n := ⟨_, listed, n, CaseRun.map?_single n⟩
    rwa [toNat_ofNat image.isCapital.1]
  · split
    · exact ofRuns fun r mem => by simp [upperImages, mem]
    · exact ofRuns fun r mem => by simp [upperImages, mem]

/-! ### Upper case -/

theorem upper_ne_nil (c : Char) : upper c ≠ [] := by
  rcases upper_eq_self_or c with same | ⟨nonempty, -⟩
  · simp [same]
  · exact nonempty

/-- A character of an upper case is the character itself or an image. -/
theorem eq_or_isUpperImage_of_mem_upper (mem : d ∈ upper c) : d = c ∨ IsUpperImage d.toNat := by
  rcases upper_eq_self_or c with same | ⟨-, images⟩
  · exact .inl (by simpa [same] using mem)
  · exact .inr (images d mem)

/-- A character of an upper case is the character itself or comes no earlier than `A`. -/
theorem eq_or_le_of_mem_upper (mem : d ∈ upper c) : d = c ∨ 'A'.toNat ≤ d.toNat := by
  refine (eq_or_isUpperImage_of_mem_upper mem).imp_right fun image => ?_
  have letters := image.isCapital.2
  have first : 'A'.toNat = 65 := rfl
  omega

/-- Upper case is reached in one step. -/
theorem upper_of_mem_upper (mem : d ∈ upper c) : upper d = [d] := by
  rcases upper_eq_self_or c with same | ⟨-, images⟩
  · rw [same, List.mem_singleton] at mem
    rw [mem, same]
  · exact (images d mem).upper_eq

theorem flatMap_upper_of_forall {cs : List Char} (h : ∀ c ∈ cs, upper c = [c]) :
    cs.flatMap upper = cs := by
  induction cs with
  | nil => rfl
  | cons c cs ih =>
    obtain ⟨first, more⟩ := List.forall_mem_cons.1 h
    rw [List.flatMap_cons, first, ih more, List.singleton_append]

/-- Only white space has white space for its upper case. -/
theorem isBlank_of_mem_upper (mem : d ∈ upper c) : isBlank d = isBlank c := by
  cases blank : isBlank c with
  | true =>
    rw [upper_of_isBlank blank, List.mem_singleton] at mem
    rw [mem, blank]
  | false =>
    rcases eq_or_isUpperImage_of_mem_upper mem with rfl | image
    · exact blank
    · rw [← Bool.not_eq_true, isBlank_iff]
      exact image.not_blank

end PathPattern.Text
