import PathPattern.Json.Skip
import PathPattern.Proofs.Json.Grammar

/-!
# Skipping takes exactly one value

What is skipped is a value of the grammar, and every value of the grammar is skipped, brackets and
escapes in its strings included. Numbers, strings and words come first. For the rest, `Demands` says
what a state of the skip with its open brackets still asks of the text: a step of the skip keeps it
(`takesToken_of_step`), and so does a run (`exists_demands_of_skipFrom`).
-/

namespace PathPattern.Json

variable {c : Char} {cs ds fs es body rest value before : List Char}
  {stack stack' below : List Bracket} {due due' : Due}

/-! ### Numbers -/

theorem IsDigits.countDigits_ne_zero (h : IsDigits ds)
    (stop : ∀ c ∈ rest.head?, c.isDigit = false) : countDigits (ds ++ rest) ≠ 0 := by
  rw [countDigits_append h.digits stop]
  exact fun empty => h.nonempty (List.length_eq_zero_iff.1 empty)

theorem isDigits_of_all (some : ds ≠ []) (all : ds.all Char.isDigit = true) : IsDigits ds :=
  ⟨some, List.all_eq_true.1 all⟩

theorem exists_isDigits (some : countDigits cs ≠ 0) :
    ∃ ds, IsDigits ds ∧ ds.length = countDigits cs ∧ cs = ds ++ dropDigits cs := by
  refine ⟨cs.takeWhile Integer.isDigit, ⟨?_, ?_⟩, rfl, List.takeWhile_append_dropWhile.symm⟩
  · exact fun empty => some (List.length_eq_zero_iff.2 empty)
  · intro c mem
    rw [← Integer.isDigit_eq]
    exact List.mem_takeWhile_imp mem

theorem IsExponent.stop (h : IsExponent es) (ends : EndsNumber rest) :
    ∀ c ∈ (es ++ rest).head?, c.isDigit = false := by
  cases h with
  | missing => exact ends.stop
  | power marked =>
    rintro c mem
    obtain rfl := Option.mem_some_iff.1 mem
    rcases marked with rfl | rfl <;> decide

theorem IsFraction.stop (h : IsFraction fs) (exponent : IsExponent es) (ends : EndsNumber rest) :
    ∀ c ∈ (fs ++ (es ++ rest)).head?, c.isDigit = false := by
  cases h with
  | missing => exact exponent.stop ends
  | point =>
    rintro c mem
    obtain rfl := Option.mem_some_iff.1 mem
    decide

theorem skipExponent_append {sign : List Char} (signed : sign = [] ∨ sign = ['+'] ∨ sign = ['-'])
    (digits : IsDigits ds) (stop : ∀ c ∈ rest.head?, c.isDigit = false) :
    skipExponent (sign ++ (ds ++ rest)) = .ok rest := by
  have run : (if countDigits (ds ++ rest) = 0 then .error .malformed
      else .ok (dropDigits (ds ++ rest)) : Except Fault (List Char)) = .ok rest := by
    rw [if_neg (digits.countDigits_ne_zero stop), dropDigits_append digits.digits stop]
  rcases signed with rfl | rfl | rfl
  · obtain ⟨d, ds, rfl⟩ := List.exists_cons_of_ne_nil digits.nonempty
    have digit := digits.digits d (by simp)
    unfold skipExponent
    split
    · next same =>
      cases (List.cons.inj same).1
      cases digit
    · next same =>
      cases (List.cons.inj same).1
      cases digit
    · exact run
  · exact run
  · exact run

/-- An exponent is skipped alike behind a fraction and without one. -/
theorem skipPower_append (exponent : IsExponent es) (ends : EndsNumber rest) :
    skipFraction (es ++ rest) = .ok rest ∧
      (match es ++ rest with
        | 'e' :: cs => skipExponent cs
        | 'E' :: cs => skipExponent cs
        | cs => .ok cs) = .ok rest := by
  cases exponent with
  | missing =>
    rw [List.nil_append]
    unfold skipFraction
    constructor
    · split
      · exact absurd rfl (ends '.' (by simp)).2.1
      · exact absurd rfl (ends 'e' (by simp)).2.2.1
      · exact absurd rfl (ends 'E' (by simp)).2.2.2
      · rfl
    · split
      · exact absurd rfl (ends 'e' (by simp)).2.2.1
      · exact absurd rfl (ends 'E' (by simp)).2.2.2
      · rfl
  | power marked signed digits =>
    have skipped := skipExponent_append signed digits ends.stop
    rw [List.cons_append, List.append_assoc]
    rcases marked with rfl | rfl <;> exact ⟨skipped, skipped⟩

theorem skipFraction_append (fraction : IsFraction fs) (exponent : IsExponent es)
    (ends : EndsNumber rest) : skipFraction (fs ++ (es ++ rest)) = .ok rest := by
  cases fraction with
  | missing => exact (skipPower_append exponent ends).1
  | point digits =>
    have stop := exponent.stop ends
    rw [List.cons_append, skipFraction, if_neg (digits.countDigits_ne_zero stop),
      dropDigits_append digits.digits stop]
    exact (skipPower_append exponent ends).2

theorem skipUnsigned_append (form : IsUnsigned value) (ends : EndsNumber rest) :
    skipUnsigned (value ++ rest) = .ok rest := by
  cases form with
  | @mk ws fs es whole fraction exponent =>
    have stop := fraction.stop exponent ends
    have noZero : ¬((ws ++ (fs ++ (es ++ rest))).head? = some '0' ∧
        1 < countDigits (ws ++ (fs ++ (es ++ rest)))) := by
      rw [countDigits_append whole.digits stop]
      rintro ⟨zero, long⟩
      obtain ⟨d, ws, rfl⟩ := List.exists_cons_of_ne_nil whole.nonempty
      exact absurd (whole.noZero zero) (Nat.not_le.2 long)
    rw [List.append_assoc, List.append_assoc, skipUnsigned,
      if_neg (whole.countDigits_ne_zero stop), if_neg noZero, dropDigits_append whole.digits stop]
    exact skipFraction_append fraction exponent ends

theorem exists_sign_of_skipExponent (h : skipExponent cs = .ok rest) :
    ∃ sign ds, (sign = [] ∨ sign = ['+'] ∨ sign = ['-']) ∧ IsDigits ds ∧
      cs = sign ++ (ds ++ rest) := by
  have run : ∀ ds : List Char, (if countDigits ds = 0 then .error .malformed
      else .ok (dropDigits ds)) = (.ok rest : Except Fault (List Char)) →
        ∃ digits, IsDigits digits ∧ ds = digits ++ rest := by
    intro ds skipped
    split at skipped
    · cases skipped
    · next some =>
      cases skipped
      obtain ⟨digits, isDigits, -, shape⟩ := exists_isDigits some
      exact ⟨digits, isDigits, shape⟩
  unfold skipExponent at h
  split at h
  · obtain ⟨ds, digits, rfl⟩ := run _ h
    exact ⟨['+'], ds, by simp, digits, rfl⟩
  · obtain ⟨ds, digits, rfl⟩ := run _ h
    exact ⟨['-'], ds, by simp, digits, rfl⟩
  · obtain ⟨ds, digits, rfl⟩ := run _ h
    exact ⟨[], ds, by simp, digits, rfl⟩

theorem exists_power_of_skipExponent (marked : c = 'e' ∨ c = 'E')
    (h : skipExponent cs = .ok rest) : ∃ es, IsExponent es ∧ c :: cs = es ++ rest := by
  obtain ⟨sign, ds, signed, digits, rfl⟩ := exists_sign_of_skipExponent h
  exact ⟨_, .power marked signed digits, by simp⟩

theorem exists_isFraction_of_skipFraction (h : skipFraction cs = .ok rest) :
    ∃ fs es, IsFraction fs ∧ IsExponent es ∧ cs = fs ++ (es ++ rest) := by
  unfold skipFraction at h
  split at h
  · next ds =>
    split at h
    · cases h
    next some =>
    obtain ⟨digits, isDigits, -, shape⟩ := exists_isDigits some
    have behind : ∃ es, IsExponent es ∧ dropDigits ds = es ++ rest := by
      split at h
      · next start => exact start ▸ exists_power_of_skipExponent (.inl rfl) h
      · next start => exact start ▸ exists_power_of_skipExponent (.inr rfl) h
      · cases h
        exact ⟨[], .missing, rfl⟩
    obtain ⟨es, exponent, split⟩ := behind
    exact ⟨_, es, .point isDigits, exponent, by rw [shape, split]; simp⟩
  · obtain ⟨es, exponent, split⟩ := exists_power_of_skipExponent (.inl rfl) h
    exact ⟨[], es, .missing, exponent, split⟩
  · obtain ⟨es, exponent, split⟩ := exists_power_of_skipExponent (.inr rfl) h
    exact ⟨[], es, .missing, exponent, split⟩
  · cases h
    exact ⟨[], [], .missing, .missing, rfl⟩

theorem exists_isUnsigned_of_skipUnsigned (h : skipUnsigned cs = .ok rest) :
    ∃ value, IsUnsigned value ∧ cs = value ++ rest := by
  unfold skipUnsigned at h
  split at h
  · cases h
  next given =>
  split at h
  · cases h
  next noZero =>
  obtain ⟨fs, es, fraction, exponent, split⟩ := exists_isFraction_of_skipFraction h
  obtain ⟨ws, isDigits, count, shape⟩ := exists_isDigits given
  refine ⟨_, .mk ⟨isDigits, fun zero => ?_⟩ fraction exponent, by rw [shape, split]; simp⟩
  have head : cs.head? = some '0' := by
    rw [shape, List.head?_append, zero]
    rfl
  exact count ▸ Nat.not_lt.1 fun long => noZero ⟨head, long⟩

/-! ### Strings -/

theorem skipString_quote (rest : List Char) : skipString ('"' :: rest) = .ok rest := by
  rw [skipString.eq_def]
  exact if_pos rfl

theorem skipString_symbol (h : IsSymbol cs) (rest : List Char) :
    skipString (cs ++ rest) = skipString rest := by
  cases h with
  | itself quote backslash shown =>
    rw [List.singleton_append, skipString.eq_def]
    simp only [if_neg quote, if_neg backslash, if_neg (Nat.not_lt.2 shown)]
  | short mem =>
    rw [List.cons_append, List.singleton_append, skipString.eq_def]
    simp [ne_of_mem_shortEscapes mem, shortEscape?_eq_some_iff.2 mem]
  | @unit digits n unit =>
    have read : hexCode (digits ++ rest) = .ok (n, rest) := hexCode_eq_ok_iff.2 ⟨_, unit, rfl⟩
    rw [List.cons_append, List.cons_append, skipString.eq_def]
    simp only [if_true, if_neg (show '\\' ≠ '"' by decide)]
    split
    · next fault => simp [read] at fault
    · next found =>
      rw [read, Except.ok.injEq, Prod.mk.injEq] at found
      rw [found.2]

theorem skipString_append (h : IsSymbols body) (rest : List Char) :
    skipString (body ++ '"' :: rest) = .ok rest := by
  induction h with
  | nil => exact skipString_quote rest
  | cons first more ih => rw [List.append_assoc, skipString_symbol first, ih]

theorem exists_isSymbols_of_skipString (cs : List Char) : ∀ {rest : List Char},
    skipString cs = .ok rest → ∃ body, IsSymbols body ∧ cs = body ++ '"' :: rest := by
  fun_induction skipString cs with
  | case1 | case3 | case4 | case7 | case8 =>
    intro rest h
    cases h
  | case2 rest =>
    intro rest' h
    cases h
    exact ⟨[], .nil, rfl⟩
  | case5 _ n _ read _ _ ih =>
    intro rest h
    obtain ⟨digits, unit, rfl⟩ := hexCode_eq_ok_iff.1 read
    obtain ⟨body, symbols, rfl⟩ := ih h
    exact ⟨_, .cons (.unit unit) symbols, by simp⟩
  | case6 letter _ _ short _ ih =>
    intro rest h
    obtain ⟨d, found⟩ := Option.isSome_iff_exists.1 short
    obtain ⟨body, symbols, rfl⟩ := ih h
    exact ⟨_, .cons (.short (shortEscape?_eq_some_iff.1 found)) symbols, by simp⟩
  | case9 c _ quote backslash shown ih =>
    intro rest h
    obtain ⟨body, symbols, rfl⟩ := ih h
    exact ⟨_, .cons (.itself quote backslash (Nat.not_lt.1 shown)) symbols, by simp⟩

/-! ### Values without brackets -/

theorem word_eq_ok_iff {letters : List Char} :
    word letters cs = .ok rest ↔ cs = letters ++ rest := by
  fun_induction word letters cs with
  | case1 cs => simp
  | case2 => simp
  | case3 ws c cs ih => simp [ih]
  | case4 w ws c cs other => simp [other]

theorem skipScalar_digit (digit : c.isDigit = true) (cs : List Char) :
    skipScalar c cs = skipUnsigned (c :: cs) := by
  have other {d : Char} (noDigit : d.isDigit = false) : c ≠ d := by
    rintro rfl
    rw [noDigit] at digit
    cases digit
  rw [skipScalar, if_neg (other (by decide)), if_neg (other (by decide)),
    if_neg (other (by decide)), if_neg (other (by decide)), if_neg (other (by decide)),
    if_pos (by rwa [Integer.isDigit_eq])]

/-- A value without brackets starts as a value may, with no bracket, and is skipped. -/
theorem IsScalar.exists_skipScalar (h : IsScalar value) : ∃ c cs, value = c :: cs ∧ StartsValue c ∧
    c ≠ '[' ∧ c ≠ '{' ∧ ∀ rest, EndsNumber rest → skipScalar c (cs ++ rest) = .ok rest := by
  cases h with
  | word mem =>
    simp only [words, List.mem_cons, List.not_mem_nil, or_false] at mem
    rcases mem with rfl | rfl | rfl
    all_goals
      refine ⟨_, _, rfl, startsValue_of_mem (by decide), by decide, by decide, fun rest _ => ?_⟩
      exact word_eq_ok_iff.2 rfl
  | number form =>
    cases form with
    | plain form =>
      have skipped {rest : List Char} (ends : EndsNumber rest) := skipUnsigned_append form ends
      cases form with
      | mk whole =>
        obtain ⟨d, ws, rfl⟩ := List.exists_cons_of_ne_nil whole.nonempty
        have digit : d.isDigit = true := whole.digits d (by simp)
        refine ⟨d, _, rfl, startsValue_of_isDigit digit, ?_, ?_, fun rest ends => ?_⟩
        · rintro rfl
          cases digit
        · rintro rfl
          cases digit
        · rw [skipScalar_digit digit]
          exact skipped ends
    | minus form =>
      exact ⟨'-', _, rfl, startsValue_of_mem (by simp), by decide, by decide,
        fun rest ends => skipUnsigned_append form ends⟩
  | string symbols =>
    refine ⟨'"', _, rfl, startsValue_of_mem (by simp), by decide, by decide, fun rest _ => ?_⟩
    rw [skipScalar, if_pos rfl, List.append_assoc]
    exact skipString_append symbols rest

theorem exists_isScalar_of_skipScalar (h : skipScalar c cs = .ok rest) :
    ∃ value, IsScalar value ∧ c :: cs = value ++ rest := by
  unfold skipScalar at h
  split at h
  · next quote =>
    obtain ⟨body, symbols, rfl⟩ := exists_isSymbols_of_skipString cs h
    exact ⟨_, .string symbols, by simp [quote]⟩
  split at h
  · next start =>
    rw [word_eq_ok_iff.1 h, start]
    exact ⟨_, .word (by decide : "null".toList ∈ words), rfl⟩
  split at h
  · next start =>
    rw [word_eq_ok_iff.1 h, start]
    exact ⟨_, .word (by decide : "true".toList ∈ words), rfl⟩
  split at h
  · next start =>
    rw [word_eq_ok_iff.1 h, start]
    exact ⟨_, .word (by decide : "false".toList ∈ words), rfl⟩
  split at h
  · next minus =>
    obtain ⟨value, form, rfl⟩ := exists_isUnsigned_of_skipUnsigned h
    exact ⟨_, .number (.minus form), by rw [minus, List.cons_append]⟩
  split at h
  · obtain ⟨value, form, shape⟩ := exists_isUnsigned_of_skipUnsigned h
    exact ⟨value, .number (.plain form), shape⟩
  · cases h

/-! ### Every value is skipped -/

theorem IsPhrase.exists_start (h : IsValue value) : ∃ c cs, value = c :: cs ∧ StartsValue c := by
  cases h with
  | scalar form =>
    obtain ⟨c, cs, shape, start, -⟩ := form.exists_skipScalar
    exact ⟨c, cs, shape, start⟩
  | emptyList | list | emptyMap | map => exact ⟨_, _, rfl, startsValue_of_mem (by simp)⟩

theorem IsPhrase.exists_element_start (h : IsPhrase .element cs) :
    ∃ before c rest, cs = before ++ c :: rest ∧ White before ∧ StartsValue c := by
  cases h with
  | element front form =>
    obtain ⟨c, rest, rfl, start⟩ := form.exists_start
    exact ⟨_, c, _, rfl, front, start⟩

theorem IsPhrase.exists_elements_start (h : IsPhrase .elements cs) :
    ∃ before c rest, cs = before ++ c :: rest ∧ White before ∧ StartsValue c := by
  cases h with
  | lastElement element => exact element.exists_element_start
  | moreElements element =>
    obtain ⟨before, c, rest, rfl, white, start⟩ := element.exists_element_start
    exact ⟨before, c, _, List.append_assoc _ _ _, white, start⟩

theorem IsPhrase.exists_members_start (h : IsPhrase .members cs) :
    ∃ before rest, cs = before ++ '"' :: rest ∧ White before := by
  cases h with
  | lastMember member =>
    cases member with
    | member front => exact ⟨_, _, rfl, front⟩
  | moreMembers member =>
    cases member with
    | member front => exact ⟨_, _, List.append_assoc _ _ _, front⟩

/-- A step of the skip. -/
theorem skipFrom_cons (busy : ¬(due = .more ∧ stack = [])) : skipFrom due stack (c :: cs) =
    match step due stack c cs with
    | .error fault => .error fault
    | .ok (due, stack, rest) => skipFrom due stack rest := by
  rw [skipFrom, if_neg busy]
  dsimp only
  split
  · next fault => simp only [fault]
  · next taken => simp only [taken]

theorem skipFrom_of_step (busy : ¬(due = .more ∧ stack = []))
    (taken : step due stack c cs = .ok (due', stack', rest)) :
    skipFrom due stack (c :: cs) = skipFrom due' stack' rest := by
  rw [skipFrom_cons busy, taken]

theorem step_white (white : isWhite c = true) (due : Due) (stack : List Bracket)
    (rest : List Char) : step due stack c rest = .ok (due, stack, rest) := by
  rw [step.eq_def, if_pos white]

theorem skipFrom_append (busy : ¬(due = .more ∧ stack = [])) (white : White before)
    (rest : List Char) : skipFrom due stack (before ++ rest) = skipFrom due stack rest := by
  induction before with
  | nil => rfl
  | cons c before ih =>
    obtain ⟨here, white⟩ := List.forall_mem_cons.1 white
    rw [List.cons_append, skipFrom_of_step busy (step_white here due stack _), ih white]

/-- Where the next token ends no list, the first element is due like any other. -/
theorem skipFrom_element (white : White before) (start : StartsValue c) (below : List Bracket)
    (cs : List Char) : skipFrom .element (.list :: below) (before ++ c :: cs) =
      skipFrom .value (.list :: below) (before ++ c :: cs) := by
  rw [skipFrom_append (by simp) white, skipFrom_append (by simp) white]
  have same : step .element (.list :: below) c cs = step .value (.list :: below) c cs := by
    rw [step.eq_def, step.eq_def]
    simp only [start.shown, Bool.false_eq_true, if_false, if_neg start.notListEnd]
  rw [skipFrom_cons (by simp), skipFrom_cons (by simp), same]

/-- Where the next token starts a string, the first key is due like any other. -/
theorem skipFrom_firstKey (white : White before) (below : List Bracket) (cs : List Char) :
    skipFrom .firstKey (.map :: below) (before ++ '"' :: cs) =
      skipFrom .key (.map :: below) (before ++ '"' :: cs) := by
  rw [skipFrom_append (by simp) white, skipFrom_append (by simp) white, skipFrom_cons (by simp),
    skipFrom_cons (by simp)]
  rfl

/-- What is skipped of a phrase, and what is due behind it. -/
def Passes : Phrase → List Char → Prop
  | .value, cs => ∀ stack rest, EndsNumber rest →
    skipFrom .value stack (cs ++ rest) = skipFrom .more stack rest
  | .element, cs => ∀ top below rest, EndsNumber rest →
    skipFrom .value (top :: below) (cs ++ rest) = skipFrom .more (top :: below) rest
  | .elements, cs => ∀ below rest,
    skipFrom .value (.list :: below) (cs ++ ']' :: rest) = skipFrom .more below rest
  | .member, cs => ∀ below rest, EndsNumber rest →
    skipFrom .key (.map :: below) (cs ++ rest) = skipFrom .more (.map :: below) rest
  | .members, cs => ∀ below rest,
    skipFrom .key (.map :: below) (cs ++ '}' :: rest) = skipFrom .more below rest

theorem step_scalar (start : StartsValue c) (noList : c ≠ '[') (noMap : c ≠ '{')
    (skipped : skipScalar c cs = .ok rest) (stack : List Bracket) :
    step .value stack c cs = .ok (.more, stack, rest) := by
  rw [step.eq_def]
  simp only [start.shown, Bool.false_eq_true, if_false, startValue, if_neg noList, if_neg noMap,
    skipped]
  rfl

theorem passes_of_isPhrase {phrase : Phrase} (h : IsPhrase phrase cs) : Passes phrase cs := by
  induction h with
  | scalar form =>
    intro stack rest ends
    obtain ⟨c, cs, rfl, start, noList, noMap, skips⟩ := form.exists_skipScalar
    exact skipFrom_of_step (by simp) (step_scalar start noList noMap (skips rest ends) stack)
  | @emptyList inside white =>
    intro stack rest _
    have opened : step .value stack '[' (inside ++ [']'] ++ rest) =
        .ok (.element, .list :: stack, inside ++ [']'] ++ rest) := rfl
    have closed : step .element (.list :: stack) ']' rest = .ok (.more, stack, rest) := rfl
    rw [List.cons_append, skipFrom_of_step (by simp) opened, List.append_assoc,
      skipFrom_append (by simp) white, List.singleton_append, skipFrom_of_step (by simp) closed]
  | @list inside elements ih =>
    intro stack rest _
    have opened : step .value stack '[' (inside ++ [']'] ++ rest) =
        .ok (.element, .list :: stack, inside ++ [']'] ++ rest) := rfl
    obtain ⟨before, c, cs, rfl, white, start⟩ := elements.exists_elements_start
    rw [List.cons_append, skipFrom_of_step (by simp) opened, List.append_assoc, List.append_assoc,
      List.cons_append, skipFrom_element white start]
    have passed := ih stack rest
    rwa [List.append_assoc, List.cons_append] at passed
  | @emptyMap inside white =>
    intro stack rest _
    have opened : step .value stack '{' (inside ++ ['}'] ++ rest) =
        .ok (.firstKey, .map :: stack, inside ++ ['}'] ++ rest) := rfl
    have closed : step .firstKey (.map :: stack) '}' rest = .ok (.more, stack, rest) := rfl
    rw [List.cons_append, skipFrom_of_step (by simp) opened, List.append_assoc,
      skipFrom_append (by simp) white, List.singleton_append, skipFrom_of_step (by simp) closed]
  | @map inside members ih =>
    intro stack rest _
    have opened : step .value stack '{' (inside ++ ['}'] ++ rest) =
        .ok (.firstKey, .map :: stack, inside ++ ['}'] ++ rest) := rfl
    obtain ⟨before, cs, rfl, white⟩ := members.exists_members_start
    rw [List.cons_append, skipFrom_of_step (by simp) opened, List.append_assoc, List.append_assoc,
      List.cons_append, skipFrom_firstKey white]
    have passed := ih stack rest
    rwa [List.append_assoc, List.cons_append] at passed
  | @element before value after front form back ih =>
    intro top below rest ends
    rw [List.append_assoc, List.append_assoc, skipFrom_append (by simp) front,
      ih _ _ (endsNumber_append back ends), skipFrom_append (by simp) back]
  | lastElement element ih =>
    intro below rest
    have closed : step .more (.list :: below) ']' rest = .ok (.more, below, rest) := rfl
    rw [ih .list below _ (by simp [EndsNumber]), skipFrom_of_step (by simp) closed]
  | moreElements element more ih ihMore =>
    intro below rest
    have next (cs : List Char) : step .more (.list :: below) ',' cs =
        .ok (.value, .list :: below, cs) := rfl
    rw [List.append_assoc, ih .list below _ (by simp [EndsNumber]), List.cons_append,
      skipFrom_of_step (by simp) (next _), ihMore]
  | @member before body after cs front key back element ih =>
    intro below rest ends
    have named (cs : List Char) : step .key (.map :: below) '"' (body ++ '"' :: cs) =
        .ok (.colon, .map :: below, cs) := by
      rw [step.eq_def]
      simp only [startKey, skipString_append key]
      rfl
    have colon (cs : List Char) : step .colon (.map :: below) ':' cs =
        .ok (.value, .map :: below, cs) := rfl
    simp only [List.append_assoc, List.cons_append]
    rw [skipFrom_append (by simp) front, skipFrom_of_step (by simp) (named _),
      skipFrom_append (by simp) back, skipFrom_of_step (by simp) (colon _), ih .map below rest ends]
  | lastMember member ih =>
    intro below rest
    have closed : step .more (.map :: below) '}' rest = .ok (.more, below, rest) := rfl
    rw [ih below _ (by simp [EndsNumber]), skipFrom_of_step (by simp) closed]
  | moreMembers member more ih ihMore =>
    intro below rest
    have next (cs : List Char) : step .more (.map :: below) ',' cs =
        .ok (.key, .map :: below, cs) := rfl
    rw [List.append_assoc, ih below _ (by simp [EndsNumber]), List.cons_append,
      skipFrom_of_step (by simp) (next _), ihMore]

/-- A value is skipped, and the white space before it; what follows is left. -/
theorem skipValue_append (form : IsValue value) (front : White before) (ends : EndsNumber rest) :
    skipValue (before ++ (value ++ rest)) = .ok rest := by
  have done : skipFrom .more [] rest = .ok rest := by rw [skipFrom.eq_def, if_pos ⟨rfl, rfl⟩]
  rw [skipValue, skipFrom_append (by simp) front, passes_of_isPhrase form [] rest ends, done]

/-! ### Nothing but a value is skipped -/

/-- What the open brackets still ask of the text, once a value has been read. -/
inductive Closes : List Bracket → List Char → Prop where
  | nothing : Closes [] []
  | listEnd {below : List Bracket} {before cs : List Char} (white : White before)
    (more : Closes below cs) : Closes (.list :: below) (before ++ ']' :: cs)
  | nextElements {below : List Bracket} {before inside cs : List Char} (white : White before)
    (elements : IsPhrase .elements inside) (more : Closes below cs) :
    Closes (.list :: below) (before ++ ',' :: (inside ++ ']' :: cs))
  | mapEnd {below : List Bracket} {before cs : List Char} (white : White before)
    (more : Closes below cs) : Closes (.map :: below) (before ++ '}' :: cs)
  | nextMembers {below : List Bracket} {before inside cs : List Char} (white : White before)
    (members : IsPhrase .members inside) (more : Closes below cs) :
    Closes (.map :: below) (before ++ ',' :: (inside ++ '}' :: cs))

/-- What a state of the skip still asks of the text. -/
inductive Demands : Due → List Bracket → List Char → Prop where
  | value {stack : List Bracket} {before value cs : List Char} (white : White before)
    (form : IsValue value) (more : Closes stack cs) : Demands .value stack (before ++ (value ++ cs))
  | noElement {below : List Bracket} {before cs : List Char} (white : White before)
    (more : Closes below cs) : Demands .element (.list :: below) (before ++ ']' :: cs)
  | element {below : List Bracket} {inside cs : List Char} (elements : IsPhrase .elements inside)
    (more : Closes below cs) : Demands .element (.list :: below) (inside ++ ']' :: cs)
  | noKey {below : List Bracket} {before cs : List Char} (white : White before)
    (more : Closes below cs) : Demands .firstKey (.map :: below) (before ++ '}' :: cs)
  | firstKey {below : List Bracket} {inside cs : List Char} (members : IsPhrase .members inside)
    (more : Closes below cs) : Demands .firstKey (.map :: below) (inside ++ '}' :: cs)
  | key {below : List Bracket} {inside cs : List Char} (members : IsPhrase .members inside)
    (more : Closes below cs) : Demands .key (.map :: below) (inside ++ '}' :: cs)
  | colon {below : List Bracket} {before cs : List Char} (white : White before)
    (more : Demands .value (.map :: below) cs) :
    Demands .colon (.map :: below) (before ++ ':' :: cs)
  | more {stack : List Bracket} {cs : List Char} (more : Closes stack cs) : Demands .more stack cs

/-- What is due is possible with these brackets open. -/
def Fits : Due → List Bracket → Prop
  | .value, _ => True
  | .more, _ => True
  | .element, stack => stack.head? = some .list
  | .firstKey, stack => stack.head? = some .map
  | .key, stack => stack.head? = some .map
  | .colon, stack => stack.head? = some .map

/-- Elements up to the end of a list, and what the brackets below ask. -/
def ElementsThen (below : List Bracket) (text : List Char) : Prop :=
  ∃ inside rest, IsPhrase .elements inside ∧ Closes below rest ∧ text = inside ++ ']' :: rest

/-- Members up to the end of a map, and what the brackets below ask. -/
def MembersThen (below : List Bracket) (text : List Char) : Prop :=
  ∃ inside rest, IsPhrase .members inside ∧ Closes below rest ∧ text = inside ++ '}' :: rest

theorem Demands.elementsThen (h : Demands .value (.list :: below) cs) : ElementsThen below cs := by
  cases h with
  | value white form more =>
    cases more with
    | listEnd back more => exact ⟨_, _, .lastElement (.element white form back), more, by simp⟩
    | nextElements back elements more =>
      exact ⟨_, _, .moreElements (.element white form back) elements, more, by simp⟩

/-- What is asked behind a key makes members with it. -/
theorem Demands.membersThen (key : IsSymbols body) (h : Demands .colon (.map :: below) cs) :
    MembersThen below ('"' :: (body ++ '"' :: cs)) := by
  have none : White [] := List.forall_mem_nil _
  cases h with
  | colon after demands =>
    cases demands with
    | value front form more =>
      cases more with
      | mapEnd back more =>
        exact ⟨_, _, .lastMember (.member none key after (.element front form back)), more,
          by simp⟩
      | nextMembers back members more =>
        exact ⟨_, _, .moreMembers (.member none key after (.element front form back)) members,
          more, by simp⟩

theorem IsPhrase.element_cons_white (white : isWhite c = true) (h : IsPhrase .element cs) :
    IsPhrase .element (c :: cs) := by
  cases h with
  | element front form back => exact .element (List.forall_mem_cons.2 ⟨white, front⟩) form back

theorem IsPhrase.elements_cons_white (white : isWhite c = true) (h : IsPhrase .elements cs) :
    IsPhrase .elements (c :: cs) := by
  cases h with
  | lastElement element => exact .lastElement (element.element_cons_white white)
  | moreElements element more => exact .moreElements (element.element_cons_white white) more

theorem IsPhrase.member_cons_white (white : isWhite c = true) (h : IsPhrase .member cs) :
    IsPhrase .member (c :: cs) := by
  cases h with
  | member front key back element =>
    exact .member (List.forall_mem_cons.2 ⟨white, front⟩) key back element

theorem IsPhrase.members_cons_white (white : isWhite c = true) (h : IsPhrase .members cs) :
    IsPhrase .members (c :: cs) := by
  cases h with
  | lastMember member => exact .lastMember (member.member_cons_white white)
  | moreMembers member more => exact .moreMembers (member.member_cons_white white) more

theorem Closes.cons_white (white : isWhite c = true) (some : stack ≠ []) (h : Closes stack cs) :
    Closes stack (c :: cs) := by
  cases h with
  | nothing => exact absurd rfl some
  | listEnd front more => exact .listEnd (List.forall_mem_cons.2 ⟨white, front⟩) more
  | nextElements front elements more =>
    exact .nextElements (List.forall_mem_cons.2 ⟨white, front⟩) elements more
  | mapEnd front more => exact .mapEnd (List.forall_mem_cons.2 ⟨white, front⟩) more
  | nextMembers front members more =>
    exact .nextMembers (List.forall_mem_cons.2 ⟨white, front⟩) members more

/-- White space may come before whatever is due. -/
theorem Demands.cons_white (white : isWhite c = true) (busy : ¬(due = .more ∧ stack = []))
    (h : Demands due stack cs) : Demands due stack (c :: cs) := by
  cases h with
  | value front form more => exact .value (List.forall_mem_cons.2 ⟨white, front⟩) form more
  | noElement front more => exact .noElement (List.forall_mem_cons.2 ⟨white, front⟩) more
  | element elements more => exact .element (elements.elements_cons_white white) more
  | noKey front more => exact .noKey (List.forall_mem_cons.2 ⟨white, front⟩) more
  | firstKey members more => exact .firstKey (members.members_cons_white white) more
  | key members more => exact .key (members.members_cons_white white) more
  | colon front more => exact .colon (List.forall_mem_cons.2 ⟨white, front⟩) more
  | more closes => exact .more (closes.cons_white white fun none => busy ⟨rfl, none⟩)

/-- A token is taken off the text, and what is due behind it is possible; with the token before it,
whatever meets the demands behind is as asked. -/
def TakesToken (text rest : List Char) (due : Due) (stack : List Bracket)
    (Asked : List Char → Prop) : Prop :=
  Fits due stack ∧ ∃ token, text = token ++ rest ∧
    ∀ used, Demands due stack used → Asked (token ++ used)

theorem TakesToken.mono {Asked Asked' : List Char → Prop} (h : TakesToken cs rest due stack Asked)
    (weaker : ∀ used, Asked used → Asked' used) : TakesToken cs rest due stack Asked' := by
  obtain ⟨fits, token, split, keeps⟩ := h
  exact ⟨fits, token, split, fun used demands => weaker _ (keeps used demands)⟩

/-- A token of one character. -/
theorem takesToken_char {Asked : List Char → Prop} (fits : Fits due stack)
    (keeps : ∀ used, Demands due stack used → Asked (c :: used)) :
    TakesToken (c :: cs) cs due stack Asked :=
  ⟨fits, [c], rfl, keeps⟩

/-- Where a value is due, its token is taken: all of it, or its bracket. -/
theorem takesToken_of_startValue (taken : startValue stack c cs = .ok (due', stack', rest)) :
    TakesToken (c :: cs) rest due' stack' (Demands .value stack) := by
  have none : White [] := List.forall_mem_nil _
  have value {text more : List Char} (form : IsValue text) (closes : Closes stack more) :
      Demands .value stack (text ++ more) := .value none form closes
  unfold startValue at taken
  split at taken
  · next bracket =>
    cases taken
    refine takesToken_char rfl fun used demands => ?_
    subst bracket
    cases demands with
    | noElement white more => simpa using value (.emptyList white) more
    | element elements more => simpa using value (.list elements) more
  split at taken
  · next bracket =>
    cases taken
    refine takesToken_char rfl fun used demands => ?_
    subst bracket
    cases demands with
    | noKey white more => simpa using value (.emptyMap white) more
    | firstKey members more => simpa using value (.map members) more
  · cases skipped : skipScalar c cs with
    | error fault => simp [skipped, Except.map] at taken
    | ok rest' =>
      rw [skipped] at taken
      cases taken
      obtain ⟨text, form, split⟩ := exists_isScalar_of_skipScalar skipped
      refine ⟨trivial, text, split, fun used demands => ?_⟩
      cases demands with
      | more closes => exact value (.scalar form) closes

/-- Where a key is due, the key is taken. -/
theorem takesToken_of_startKey
    (taken : startKey (.map :: below) c cs = .ok (due', stack', rest)) :
    TakesToken (c :: cs) rest due' stack' (MembersThen below) := by
  unfold startKey at taken
  split at taken
  · next quote =>
    cases skipped : skipString cs with
    | error fault => simp [skipped, Except.map] at taken
    | ok rest' =>
      rw [skipped] at taken
      cases taken
      obtain ⟨body, symbols, rfl⟩ := exists_isSymbols_of_skipString cs skipped
      refine ⟨rfl, '"' :: (body ++ ['"']), by simp [quote], fun used demands => ?_⟩
      simpa using demands.membersThen symbols
  · cases taken

/-- A step takes a token off the text, and what is asked of the text behind it is what was asked
before, with the token taken off. -/
theorem takesToken_of_step (taken : step due stack c cs = .ok (due', stack', rest))
    (busy : ¬(due = .more ∧ stack = [])) (fits : Fits due stack) :
    TakesToken (c :: cs) rest due' stack' (Demands due stack) := by
  have none : White [] := List.forall_mem_nil _
  rw [step.eq_def] at taken
  split at taken
  · next white =>
    cases taken
    exact takesToken_char fits fun used demands => demands.cons_white white busy
  split at taken
  · -- value
    exact takesToken_of_startValue taken
  · -- key
    obtain ⟨below, rfl⟩ := List.head?_eq_some_iff.1 fits
    refine (takesToken_of_startKey taken).mono ?_
    rintro used ⟨inside, more, members, closes, rfl⟩
    exact .key members closes
  · -- colon
    split at taken
    · next colon =>
      cases taken
      obtain ⟨below, rfl⟩ := List.head?_eq_some_iff.1 fits
      exact takesToken_char trivial fun used demands => colon ▸ .colon none demands
    · cases taken
  · -- element
    obtain ⟨below, rfl⟩ := List.head?_eq_some_iff.1 fits
    split at taken
    · next close =>
      cases taken
      refine takesToken_char trivial fun used demands => ?_
      cases demands with
      | more closes => exact close ▸ .noElement none closes
    · refine (takesToken_of_startValue taken).mono fun used demands => ?_
      obtain ⟨inside, rest, elements, closes, rfl⟩ := demands.elementsThen
      exact .element elements closes
  · -- first key
    obtain ⟨below, rfl⟩ := List.head?_eq_some_iff.1 fits
    split at taken
    · next close =>
      cases taken
      refine takesToken_char trivial fun used demands => ?_
      cases demands with
      | more closes => exact close ▸ .noKey none closes
    · refine (takesToken_of_startKey taken).mono ?_
      rintro used ⟨inside, more, members, closes, rfl⟩
      exact .firstKey members closes
  · cases taken
  · -- comma or end
    next top below =>
    split at taken
    · next comma =>
      cases taken
      cases top with
      | list =>
        refine takesToken_char trivial fun used demands => ?_
        obtain ⟨inside, rest, elements, closes, rfl⟩ := demands.elementsThen
        exact comma ▸ .more (.nextElements none elements closes)
      | map =>
        refine takesToken_char rfl fun used demands => ?_
        cases demands with
        | key members closes => exact comma ▸ .more (.nextMembers none members closes)
    split at taken
    · next close =>
      cases taken
      refine takesToken_char trivial fun used demands => ?_
      cases demands with
      | more closes =>
        cases top with
        | list => exact close ▸ .more (.listEnd none closes)
        | map => exact close ▸ .more (.mapEnd none closes)
    · cases taken

theorem exists_demands_of_skipFrom (due : Due) (stack : List Bracket) (cs : List Char) :
    ∀ {rest : List Char}, Fits due stack → skipFrom due stack cs = .ok rest →
      ∃ used, cs = used ++ rest ∧ Demands due stack used := by
  fun_induction skipFrom due stack cs with
  | case1 due stack cs done =>
    intro rest _ h
    obtain ⟨rfl, rfl⟩ := done
    cases h
    exact ⟨[], rfl, .more .nothing⟩
  | case2 | case3 =>
    intro rest _ h
    cases h
  | case4 due stack busy c cs due' stack' rest' taken _ ih =>
    intro rest fits h
    obtain ⟨fits', token, split, keeps⟩ := takesToken_of_step taken busy fits
    obtain ⟨used, rfl, demands⟩ := ih fits' h
    exact ⟨token ++ used, by rw [split, List.append_assoc], keeps used demands⟩

/-- What is skipped is a value with white space before it. -/
theorem exists_isValue_of_skipValue (h : skipValue cs = .ok rest) :
    ∃ before value, White before ∧ IsValue value ∧ cs = before ++ (value ++ rest) := by
  obtain ⟨used, rfl, demands⟩ := exists_demands_of_skipFrom .value [] cs trivial h
  cases demands with
  | value white form more =>
    cases more
    exact ⟨_, _, white, form, by simp⟩

end PathPattern.Json
