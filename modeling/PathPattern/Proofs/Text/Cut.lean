import Mathlib.Data.List.DropRight
import PathPattern.Text.Pieces

/-!
# Laws of cutting

`pieces` is the library's `splitOn`, so it distributes over a separator between two texts and
undoes `intercalate`. Separators at the two ends of a text only add empty pieces, which is all
that `trimSep` takes away. `cutAt` is decided by the part before the first stop, and
`byteCount` is the size of the text as a string.
-/

namespace PathPattern.Text

variable {sep stop : Char} {cs p before after : List Char}

/-! ### Pieces -/

theorem pieces_eq_splitOn (sep : Char) (cs : List Char) : pieces sep cs = cs.splitOn sep := by
  induction cs with
  | nil => simp [pieces]
  | cons c cs ih =>
    rw [pieces, List.splitOn_cons_eq_if_modifyHead, ← ih]
    by_cases same : c = sep
    · simp [same]
    · cases split : pieces sep cs with
      | nil => exact absurd split (pieces_ne_nil sep cs)
      | cons p ps => simp [same]

theorem pieces_of_not_mem (free : sep ∉ cs) : pieces sep cs = [cs] := by
  rw [pieces_eq_splitOn, List.splitOn_eq_singleton free]

theorem pieces_append_cons (as bs : List Char) :
    pieces sep (as ++ sep :: bs) = pieces sep as ++ pieces sep bs := by
  simp only [pieces_eq_splitOn, List.splitOn_append_cons_self]

theorem pieces_cons_self (cs : List Char) : pieces sep (sep :: cs) = [] :: pieces sep cs := by
  simp [pieces]

/-- The pieces with separators between them are the text again. -/
theorem intercalate_pieces (sep : Char) (cs : List Char) :
    [sep].intercalate (pieces sep cs) = cs := by
  rw [pieces_eq_splitOn, List.intercalate_splitOn]

theorem pieces_intercalate {ps : List (List Char)} (free : ∀ p ∈ ps, sep ∉ p) (some : ps ≠ []) :
    pieces sep ([sep].intercalate ps) = ps := by
  rw [pieces_eq_splitOn, List.splitOn_intercalate sep free some]

theorem not_mem_of_mem_pieces (h : p ∈ pieces sep cs) : sep ∉ p := by
  induction cs generalizing p with
  | nil => simp_all [pieces]
  | cons c cs ih =>
    rw [pieces] at h
    split at h
    · rcases List.mem_cons.1 h with rfl | h
      · simp
      · exact ih h
    · next differ =>
      cases split : pieces sep cs with
      | nil => exact absurd split (pieces_ne_nil sep cs)
      | cons q qs =>
        simp only [split, List.mem_cons] at h ih
        rcases h with rfl | h
        · simpa [Ne.symm differ] using ih (.inl rfl)
        · exact ih (.inr h)

/-! ### Separators at the ends -/

theorem intercalate_append_singleton {ps : List (List Char)} (some : ps ≠ []) (p : List Char) :
    [sep].intercalate (ps ++ [p]) = [sep].intercalate ps ++ sep :: p := by
  induction ps with
  | nil => exact absurd rfl some
  | cons q ps ih =>
    cases ps with
    | nil => simp [List.intercalate]
    | cons r ps =>
      have step := ih (by simp)
      simp only [List.cons_append, List.intercalate_cons_cons] at step ⊢
      simp [step]

/-- A text starts with a separator exactly if it has several pieces and the first is empty. -/
theorem head?_eq_sep_iff :
    cs.head? = some sep ↔ 2 ≤ (pieces sep cs).length ∧ (pieces sep cs).head? = some [] := by
  cases cs with
  | nil => simp [pieces]
  | cons c cs =>
    have count := List.length_pos_iff.2 (pieces_ne_nil sep cs)
    by_cases same : c = sep
    · rw [same, pieces_cons_self]
      simp only [List.head?_cons, List.length_cons, and_true, true_iff]
      omega
    · cases split : pieces sep cs with
      | nil => exact absurd split (pieces_ne_nil sep cs)
      | cons p ps => simp [pieces, same, split]

/-- A text ends with a separator exactly if it has several pieces and the last is empty. -/
theorem getLast?_eq_sep_iff :
    cs.getLast? = some sep ↔ 2 ≤ (pieces sep cs).length ∧ (pieces sep cs).getLast? = some [] := by
  constructor
  · intro h
    obtain ⟨front, rfl⟩ := List.getLast?_eq_some_iff.1 h
    have count := List.length_pos_iff.2 (pieces_ne_nil sep front)
    have split : pieces sep (front ++ [sep]) = pieces sep front ++ [[]] := pieces_append_cons front []
    rw [split, List.length_append, List.length_singleton]
    exact ⟨by omega, by simp⟩
  · rintro ⟨count, last⟩
    obtain ⟨ps, split⟩ := List.getLast?_eq_some_iff.1 last
    have some : ps ≠ [] := by
      rintro rfl
      simp [split] at count
    rw [← intercalate_pieces sep cs, split, intercalate_append_singleton some]
    simp

theorem pieces_replicate_append (n : Nat) (cs : List Char) :
    pieces sep (List.replicate n sep ++ cs) = List.replicate n [] ++ pieces sep cs := by
  induction n with
  | zero => rfl
  | succ n ih => rw [List.replicate_succ, List.cons_append, pieces_cons_self, ih]; rfl

theorem pieces_append_replicate (n : Nat) (cs : List Char) :
    pieces sep (cs ++ List.replicate n sep) = pieces sep cs ++ List.replicate n [] := by
  induction n generalizing cs with
  | zero => simp
  | succ n ih =>
    have step := ih (cs ++ [sep])
    rw [pieces_append_cons, List.append_assoc] at step
    simpa [pieces, List.replicate_succ] using step

theorem trimSep_eq_rdropWhile (sep : Char) (cs : List Char) :
    trimSep sep cs = (cs.dropWhile (· == sep)).rdropWhile (· == sep) := rfl

/-- What trimming takes away is separators only. -/
theorem eq_append_trimSep_append (sep : Char) (cs : List Char) :
    ∃ m n, cs = List.replicate m sep ++ (trimSep sep cs ++ List.replicate n sep) := by
  refine ⟨(cs.takeWhile (· == sep)).length,
    ((cs.dropWhile (· == sep)).rtakeWhile (· == sep)).length, ?_⟩
  have front : List.replicate (cs.takeWhile (· == sep)).length sep = cs.takeWhile (· == sep) :=
    (List.eq_replicate_of_mem fun c mem => by simpa using List.mem_takeWhile_imp mem).symm
  have back : ∀ l : List Char,
      List.replicate (l.rtakeWhile (· == sep)).length sep = l.rtakeWhile (· == sep) := fun l =>
    (List.eq_replicate_of_mem fun c mem => by simpa using List.mem_rtakeWhile_imp mem).symm
  rw [front, back, trimSep_eq_rdropWhile, List.rdropWhile_append_rtakeWhile,
    List.takeWhile_append_dropWhile]

/-- Trimming takes away empty pieces only, and those at the ends. -/
theorem pieces_eq_append_trimSep_append (sep : Char) (cs : List Char) :
    ∃ m n, pieces sep cs =
      List.replicate m [] ++ (pieces sep (trimSep sep cs) ++ List.replicate n []) := by
  obtain ⟨m, n, same⟩ := eq_append_trimSep_append sep cs
  refine ⟨m, n, ?_⟩
  conv_lhs => rw [same]
  rw [pieces_replicate_append, pieces_append_replicate]

theorem trimSep_eq_self (front : cs.head? ≠ some sep) (back : cs.getLast? ≠ some sep) :
    trimSep sep cs = cs := by
  rw [trimSep_eq_rdropWhile]
  cases cs with
  | nil => rfl
  | cons c cs =>
    have first : c ≠ sep := by simpa using front
    rw [List.dropWhile_cons_of_neg (by simp [first]), List.rdropWhile_eq_self_iff]
    intro nonempty
    simpa [List.getLast?_eq_some_getLast nonempty] using back

theorem getLast?_trimSep (sep : Char) (cs : List Char) : (trimSep sep cs).getLast? ≠ some sep := by
  intro last
  rw [trimSep_eq_rdropWhile] at last
  have nonempty : (cs.dropWhile (· == sep)).rdropWhile (· == sep) ≠ [] := by
    intro empty
    simp [empty] at last
  rw [List.getLast?_eq_some_getLast nonempty, Option.some.injEq] at last
  exact List.rdropWhile_last_not _ _ nonempty (by simp [last])

theorem head?_trimSep (sep : Char) (cs : List Char) : (trimSep sep cs).head? ≠ some sep := by
  intro first
  rw [trimSep_eq_rdropWhile] at first
  obtain ⟨rest, same⟩ := List.rdropWhile_prefix (· == sep) (cs.dropWhile (· == sep))
  have dropped : (cs.dropWhile (· == sep)).head? = some sep := by
    rw [← same, List.head?_append, first]; rfl
  have := List.head?_dropWhile_not (· == sep) cs
  simp [dropped] at this

/-! ### The piece around a place -/

theorem not_mem_takeWhile_ne (sep : Char) (cs : List Char) : sep ∉ cs.takeWhile (· != sep) := by
  intro mem
  simpa using List.mem_takeWhile_imp mem

theorem not_mem_rtakeWhile_ne (sep : Char) (cs : List Char) : sep ∉ cs.rtakeWhile (· != sep) := by
  intro mem
  simpa using List.mem_rtakeWhile_imp mem

theorem takeWhile_isPrefix_append (as bs : List Char) (f : Char → Bool) :
    as.takeWhile f <+: (as ++ bs).takeWhile f := by
  rw [List.takeWhile_append]
  split
  · exact (List.takeWhile_prefix f).trans (List.prefix_append as _)
  · exact List.prefix_rfl

/-- Only the last piece of a text goes on in what follows the text. -/
theorem exists_pieces_append (sep : Char) (cs : List Char) :
    ∃ front, pieces sep cs = front ++ [cs.rtakeWhile (· != sep)] ∧ ∀ tail,
      pieces sep (cs ++ tail) = front ++ pieces sep (cs.rtakeWhile (· != sep) ++ tail) := by
  have parts : cs.rdropWhile (· != sep) ++ cs.rtakeWhile (· != sep) = cs :=
    List.rdropWhile_append_rtakeWhile
  obtain ⟨front, goesOn⟩ : ∃ front, ∀ tail, pieces sep (cs ++ tail) =
      front ++ pieces sep (cs.rtakeWhile (· != sep) ++ tail) := by
    by_cases whole : cs.rdropWhile (· != sep) = []
    · rw [whole, List.nil_append] at parts
      exact ⟨[], fun tail => by rw [parts, List.nil_append]⟩
    · have last := List.rdropWhile_last_not (· != sep) cs whole
      have split := List.dropLast_append_getLast whole
      simp only [bne_iff_ne, ne_eq, Decidable.not_not] at last
      rw [last] at split
      refine ⟨pieces sep (cs.rdropWhile (· != sep)).dropLast, fun tail => ?_⟩
      conv_lhs => rw [← parts, ← split]
      rw [List.append_assoc, List.append_assoc, List.singleton_append, pieces_append_cons]
  have alone := goesOn []
  rw [List.append_nil, List.append_nil, pieces_of_not_mem (not_mem_rtakeWhile_ne sep cs)] at alone
  exact ⟨front, alone, goesOn⟩

/-- Only the first piece of a text goes on from what precedes the text. -/
theorem exists_append_pieces (sep : Char) (cs : List Char) :
    ∃ back, ∀ head, sep ∉ head → pieces sep (head ++ cs) =
      (head ++ cs.takeWhile (· != sep)) :: back := by
  have parts : cs.takeWhile (· != sep) ++ cs.dropWhile (· != sep) = cs :=
    List.takeWhile_append_dropWhile
  have free := not_mem_takeWhile_ne sep cs
  cases rest : cs.dropWhile (· != sep) with
  | nil =>
    refine ⟨[], fun head clear => ?_⟩
    rw [rest, List.append_nil] at parts
    rw [parts] at free ⊢
    exact pieces_of_not_mem (by simp [clear, free])
  | cons c rest' =>
    have first := List.head?_dropWhile_not (· != sep) cs
    simp only [rest, List.head?_cons, bne_eq_false_iff_eq] at first
    refine ⟨pieces sep rest', fun head clear => ?_⟩
    conv_lhs => rw [← parts, rest, first]
    rw [← List.append_assoc, pieces_append_cons, pieces_of_not_mem (by simp [clear, free])]
    rfl

/-- Side by side, the last piece of one text and the first piece of another become one. -/
theorem exists_pieces_append_append (sep : Char) (as bs : List Char) :
    ∃ front p q back, pieces sep as = front ++ [p] ∧ pieces sep bs = q :: back ∧
      pieces sep (as ++ bs) = front ++ (p ++ q) :: back := by
  obtain ⟨front, last, before⟩ := exists_pieces_append sep as
  obtain ⟨back, behind⟩ := exists_append_pieces sep bs
  have first := behind [] (by simp)
  rw [List.nil_append, List.nil_append] at first
  refine ⟨front, _, _, back, last, first, ?_⟩
  rw [before, behind _ (not_mem_rtakeWhile_ne sep as)]

/-- The piece around a character other than the separator, with those before it and behind it. -/
theorem exists_pieces_append_cons {c : Char} (other : c ≠ sep) (q : List Char) :
    ∃ front, pieces sep q = front ++ [q.rtakeWhile (· != sep)] ∧ ∀ rest, ∃ back,
      pieces sep rest = rest.takeWhile (· != sep) :: back ∧
      pieces sep (q ++ c :: rest) =
        front ++ (q.rtakeWhile (· != sep) ++ c :: rest.takeWhile (· != sep)) :: back := by
  obtain ⟨front, last, before⟩ := exists_pieces_append sep q
  have free := not_mem_rtakeWhile_ne sep q
  refine ⟨front, last, fun rest => ?_⟩
  obtain ⟨back, behind⟩ := exists_append_pieces sep rest
  refine ⟨back, by simpa using behind [] (by simp), ?_⟩
  rw [before, List.append_cons, behind _ (by simp [free, Ne.symm other])]
  simp

theorem intercalate_append_cons (sep : Char) (pre post : List (List Char)) (as bs : List Char) :
    [sep].intercalate (pre ++ (as ++ bs) :: post) =
      [sep].intercalate (pre ++ [as]) ++ [sep].intercalate (bs :: post) := by
  induction pre with
  | nil => cases post <;> simp
  | cons p pre ih =>
    have behind (q : List Char) (qs : List (List Char)) :
        [sep].intercalate (p :: (pre ++ q :: qs)) =
          p ++ [sep] ++ [sep].intercalate (pre ++ q :: qs) :=
      List.intercalate_cons_of_ne_nil (by simp)
    rw [List.cons_append, List.cons_append, behind, behind, ih]
    simp only [List.append_assoc]

/-- A piece cut in two cuts the text in two. -/
theorem exists_append_cons_of_pieces {c : Char} {pre post : List (List Char)}
    (h : pieces sep cs = pre ++ (before ++ c :: after) :: post) :
    ∃ q rest, cs = q ++ c :: rest ∧ pieces sep q = pre ++ [before] ∧
      pieces sep (c :: rest) = (c :: after) :: post := by
  have free : ∀ p ∈ pieces sep cs, sep ∉ p := fun p mem => not_mem_of_mem_pieces mem
  rw [h, List.forall_mem_append, List.forall_mem_cons] at free
  obtain ⟨freePre, freePiece, freePost⟩ := free
  rw [List.mem_append, not_or] at freePiece
  have whole := intercalate_append_cons sep pre post before (c :: after)
  rw [← h, intercalate_pieces] at whole
  have behind : [sep].intercalate ((c :: after) :: post) =
      c :: [sep].intercalate (after :: post) := List.intercalate_cons_cons_left
  refine ⟨[sep].intercalate (pre ++ [before]), [sep].intercalate (after :: post), ?_, ?_, ?_⟩
  · rw [whole, behind]
  · refine pieces_intercalate (List.forall_mem_append.2 ⟨freePre, ?_⟩) (by simp)
    simpa using freePiece.1
  · rw [← behind]
    exact pieces_intercalate (List.forall_mem_cons.2 ⟨freePiece.2, freePost⟩) (by simp)

/-! ### The first stop -/

theorem cutAt_append_cons (free : stop ∉ before) (after : List Char) :
    cutAt stop (before ++ stop :: after) = (before, some after) := by
  induction before with
  | nil => simp [cutAt]
  | cons c before ih =>
    simp only [List.mem_cons, not_or] at free
    simp [cutAt, ih free.2, Ne.symm free.1]

theorem cutAt_of_not_mem (free : stop ∉ cs) : cutAt stop cs = (cs, none) := by
  induction cs with
  | nil => rfl
  | cons c cs ih =>
    simp only [List.mem_cons, not_or] at free
    simp [cutAt, ih free.2, Ne.symm free.1]

theorem cutAt_eq_some_iff :
    cutAt stop cs = (before, some after) ↔ cs = before ++ stop :: after ∧ stop ∉ before := by
  constructor
  · intro h
    have free := not_mem_cutAt_fst stop cs
    rw [h] at free
    exact ⟨append_of_cutAt_some h, free⟩
  · rintro ⟨rfl, free⟩
    exact cutAt_append_cons free after

theorem cutAt_eq_none_iff : cutAt stop cs = (before, none) ↔ before = cs ∧ stop ∉ cs := by
  constructor
  · intro h
    have same := eq_of_cutAt_none h
    have free := not_mem_cutAt_fst stop cs
    rw [h] at free
    exact ⟨same.symm, same ▸ free⟩
  · rintro ⟨rfl, free⟩
    exact cutAt_of_not_mem free

/-- A text with the stop in it has a first one. -/
theorem exists_first_of_mem (h : stop ∈ cs) :
    ∃ before after, cs = before ++ stop :: after ∧ stop ∉ before := by
  cases cut : cutAt stop cs with
  | mk before after =>
    cases after with
    | none => exact absurd h (cutAt_eq_none_iff.1 cut).2
    | some after => exact ⟨before, after, cutAt_eq_some_iff.1 cut⟩

/-- The first stop is at one place only. -/
theorem first_unique {before' after' : List Char} (free : stop ∉ before) (free' : stop ∉ before')
    (same : before ++ stop :: after = before' ++ stop :: after') :
    before = before' ∧ after = after' := by
  have cut := cutAt_append_cons free after
  rw [same, cutAt_append_cons free'] at cut
  simpa [eq_comm] using cut

/-! ### Bytes -/

theorem byteCount_cons (c : Char) (cs : List Char) :
    byteCount (c :: cs) = c.utf8Size + byteCount cs := rfl

theorem byteCount_append (as bs : List Char) :
    byteCount (as ++ bs) = byteCount as + byteCount bs := by
  induction as with
  | nil => simp [byteCount]
  | cons a as ih => simp only [List.cons_append, byteCount_cons, ih, Nat.add_assoc]

theorem utf8ByteSize_ofList (cs : List Char) : (String.ofList cs).utf8ByteSize = byteCount cs := by
  induction cs with
  | nil => rfl
  | cons c cs ih =>
    have split : String.ofList (c :: cs) = String.singleton c ++ String.ofList cs := by
      rw [String.singleton_eq_ofList, ← String.ofList_append, List.singleton_append]
    rw [split, String.utf8ByteSize_append, String.utf8ByteSize_singleton, ih, byteCount_cons]

end PathPattern.Text
