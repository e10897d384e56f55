import PathPattern.Proofs.Template.Acceptance

/-!
# Where reading stops

`FaultyAt` says what is wrong with a placeholder, by the text behind its opening brace alone.
Reading a component ends in a fault exactly if some brace in it has an `IsComponent` before it
and is faulty; there is only one such brace, because the text behind a faulty brace never starts
with a body and its closing brace (`FaultyAt.not_isBody`). A template has the fault of its first
component that has one.
-/

namespace PathPattern.Template

open Text (pieces byteCount)

variable {cs before after body text q rest : List Char} {fault : TemplateFault}
  {component : String} {offset : Nat}

/-! ### Faulty placeholders -/

/-- The first operand of an address that is no integer of 64 bits. -/
inductive BadOperand : List Char → List Char → Prop where
  | single {body : List Char} (free : ':' ∉ body) (bad : ¬IsOperand body) : BadOperand body body
  | first {first last : List Char} (free : ':' ∉ first) (bad : ¬IsOperand first) :
    BadOperand (first ++ ':' :: last) first
  | last {first last : List Char} (free : ':' ∉ first) (good : IsOperand first)
    (bad : ¬IsOperand last) : BadOperand (first ++ ':' :: last) last

/-- What is wrong with the placeholder at a byte of a component, given the text of the component
behind its opening brace. -/
inductive FaultyAt (component : String) (offset : Nat) (after : List Char) :
    TemplateFault → Prop where
  | unclosed (open_ : '}' ∉ after) :
    FaultyAt component offset after (.missingClosingDelimiter component offset)
  | hollow {rest : List Char} (split : after = '}' :: rest) :
    FaultyAt component offset after (.emptyPlaceholder component offset)
  | operand {body rest operand : List Char} {cause : IntegerFault}
    (split : after = body ++ '}' :: rest) (closed : '}' ∉ body) (numeric : LooksNumeric body)
    (bad : BadOperand body operand) (read : Integer.read operand = .error cause) :
    FaultyAt component offset after (.invalidNumericOperand (String.ofList operand) cause)

/-- The faults are of one kind, at one offset and about one operand; only the component told may
differ. -/
inductive SameSpot : TemplateFault → TemplateFault → Prop where
  | hollow (component component' : String) (offset : Nat) :
    SameSpot (.emptyPlaceholder component offset) (.emptyPlaceholder component' offset)
  | operand (text : String) (cause : IntegerFault) :
    SameSpot (.invalidNumericOperand text cause) (.invalidNumericOperand text cause)

theorem badOperand_iff_of_not_mem (free : ':' ∉ body) :
    BadOperand body text ↔ ¬IsOperand body ∧ text = body := by
  constructor
  · intro h
    cases h with
    | single _ bad => exact ⟨bad, rfl⟩
    | first => simp at free
    | last => simp at free
  · rintro ⟨bad, rfl⟩
    exact .single free bad

theorem badOperand_append_cons_iff {first last : List Char} (free : ':' ∉ first) :
    BadOperand (first ++ ':' :: last) text ↔
      ¬IsOperand first ∧ text = first ∨ IsOperand first ∧ ¬IsOperand last ∧ text = last := by
  constructor
  · intro h
    generalize same : first ++ ':' :: last = body at h
    cases h with
    | single alone => simp [← same] at alone
    | first free' bad =>
      obtain ⟨rfl, rfl⟩ := Text.first_unique free free' same
      exact .inl ⟨bad, rfl⟩
    | last free' good bad =>
      obtain ⟨rfl, rfl⟩ := Text.first_unique free free' same
      exact .inr ⟨good, bad, rfl⟩
  · rintro (⟨bad, rfl⟩ | ⟨good, bad, rfl⟩)
    · exact .first free bad
    · exact .last free good bad

theorem isOperand_iff_operand : IsOperand text ↔ ∃ i, operand text = .ok i := by
  simp only [operand_eq_ok_iff, isOperand_iff]

theorem operand_eq_error_iff :
    operand text = .error fault ↔ ¬IsOperand text ∧ ∃ cause, Integer.read text = .error cause ∧
      fault = .invalidNumericOperand (String.ofList text) cause := by
  rw [isOperand_iff_operand, operand]
  cases Integer.read text <;> simp [eq_comm]

/-- An address ends in the fault of its first operand that is no integer. -/
theorem address_eq_error_iff :
    address body = .error fault ↔ ∃ text cause, BadOperand body text ∧
      Integer.read text = .error cause ∧
      fault = .invalidNumericOperand (String.ofList text) cause := by
  by_cases colon : ':' ∈ body
  · obtain ⟨first, last, rfl, free⟩ := Text.exists_first_of_mem colon
    have split : address (first ++ ':' :: last) = .error fault ↔
        operand first = .error fault ∨ IsOperand first ∧ operand last = .error fault := by
      rw [address_append_cons free, isOperand_iff_operand]
      cases operand first <;> cases operand last <;> simp [bind, Except.bind, pure, Except.pure]
    rw [split, operand_eq_error_iff, operand_eq_error_iff]
    simp only [badOperand_append_cons_iff free]
    constructor
    · rintro (⟨bad, cause, read⟩ | ⟨good, bad, cause, read⟩)
      · exact ⟨first, cause, .inl ⟨bad, rfl⟩, read⟩
      · exact ⟨last, cause, .inr ⟨good, bad, rfl⟩, read⟩
    · rintro ⟨_, cause, ⟨bad, rfl⟩ | ⟨good, bad, rfl⟩, read⟩
      · exact .inl ⟨bad, cause, read⟩
      · exact .inr ⟨good, bad, cause, read⟩
  · have alone : address body = .error fault ↔ operand body = .error fault := by
      rw [address_of_not_mem colon]
      cases operand body <;> simp [Except.map]
    rw [alone, operand_eq_error_iff]
    simp only [badOperand_iff_of_not_mem colon]
    constructor
    · rintro ⟨bad, cause, read⟩
      exact ⟨body, cause, ⟨bad, rfl⟩, read⟩
    · rintro ⟨_, cause, ⟨bad, rfl⟩, read⟩
      exact ⟨bad, cause, read⟩

/-- A body is at fault only as an address. -/
theorem placeholder_eq_error_iff :
    (placeholder body).outcome = .error fault ↔ LooksNumeric body ∧
      ∃ text cause, BadOperand body text ∧ Integer.read text = .error cause ∧
        fault = .invalidNumericOperand (String.ofList text) cause := by
  rw [placeholder]
  split
  · next numeric =>
    rw [address_eq_error_iff]
    exact (and_iff_right (any_startsAddress_iff.1 numeric)).symm
  · next plain =>
    constructor
    · intro h
      cases h
    · rintro ⟨numeric, -⟩
      exact absurd (any_startsAddress_iff.2 numeric) plain

/-- What may stand between braces has no bad operand. -/
theorem IsBody.not_badOperand (h : IsBody body) (numeric : LooksNumeric body) :
    ¬BadOperand body text := by
  rcases h.operands numeric with single | ⟨first, last, rfl, free, begin, finish⟩
  · obtain ⟨i, value⟩ := isOperand_iff.1 single
    rw [badOperand_iff_of_not_mem (colon_not_mem_of_numeral value)]
    exact fun bad => bad.1 single
  · rw [badOperand_append_cons_iff free]
    rintro (⟨bad, -⟩ | ⟨-, bad, -⟩)
    · exact bad begin
    · exact bad finish

/-- Behind a faulty brace stands no body with its closing brace. -/
theorem FaultyAt.not_isBody (h : FaultyAt component offset (body ++ '}' :: rest) fault) :
    ¬IsBody body := by
  intro isBody
  cases h with
  | unclosed open_ => simp at open_
  | hollow split =>
    obtain ⟨empty, -⟩ := Text.first_unique isBody.closed List.not_mem_nil split
    exact isBody.nonempty empty
  | operand split closed numeric bad =>
    obtain ⟨rfl, -⟩ := Text.first_unique isBody.closed closed split
    exact isBody.not_badOperand numeric bad

/-- What follows a closed placeholder matters for the component told only. -/
theorem FaultyAt.of_closed {component' : String} {tail : List Char}
    (h : FaultyAt component offset (body ++ '}' :: rest) fault) (closed : '}' ∉ body) :
    ∃ fault', SameSpot fault fault' ∧ FaultyAt component' offset (body ++ '}' :: tail) fault' := by
  cases h with
  | unclosed open_ => simp at open_
  | hollow split =>
    obtain ⟨rfl, -⟩ := Text.first_unique closed List.not_mem_nil split
    exact ⟨_, .hollow component component' offset, .hollow rfl⟩
  | operand split closed' numeric bad read =>
    obtain ⟨rfl, -⟩ := Text.first_unique closed closed' split
    exact ⟨_, .operand _ _, .operand rfl closed numeric bad read⟩

/-! ### Components -/

theorem byteCount_span (l : Layout) :
    offset + byteCount (Layout.span text body l).chars =
      offset + byteCount (text ++ '{' :: (body ++ ['}'])) + byteCount l.chars := by
  rw [Nat.add_assoc, ← Text.byteCount_append]
  simp [Layout.chars]

/-- Behind a well-formed layout, a faulty brace ends the reading. -/
theorem nodes_of_faultyAt {component : List Char} {l : Layout} (valid : l.WellFormed)
    (faulty : FaultyAt (String.ofList component) (offset + byteCount l.chars) after fault) :
    (nodes component offset (l.chars ++ '{' :: after)).outcome = .error fault := by
  induction l generalizing offset with
  | last text =>
    cases faulty with
    | unclosed open_ => rw [Layout.chars, nodes_unclosed valid open_]
    | hollow split => rw [split, Layout.chars, nodes_hollow valid]
    | @operand body rest _ _ split closed numeric bad read =>
      have nonempty : body ≠ [] := by
        rintro rfl
        simp [LooksNumeric] at numeric
      rw [split, Layout.chars, nodes_span valid nonempty closed]
      exact Reading.outcome_bind_of_error
        (placeholder_eq_error_iff.2 ⟨numeric, _, _, bad, read, rfl⟩)
  | span text body rest ih =>
    obtain ⟨free, isBody, more⟩ := valid
    obtain ⟨node, denotes⟩ := isBody.exists_denotes
    rw [byteCount_span] at faulty
    simp only [Layout.chars, List.append_assoc, List.cons_append]
    rw [nodes_span free isBody.nonempty isBody.closed,
      Reading.outcome_bind_of_ok (placeholder_eq_ok_iff.2 denotes),
      Reading.outcome_bind_of_error (ih more faulty)]

/-- A reading that ends in a fault ends at a faulty brace behind a well-formed layout. -/
theorem faultyAt_of_nodes {component : List Char}
    (h : (nodes component offset cs).outcome = .error fault) :
    ∃ l : Layout, ∃ after, l.WellFormed ∧ cs = l.chars ++ '{' :: after ∧
      FaultyAt (String.ofList component) (offset + byteCount l.chars) after fault := by
  induction scan cs generalizing offset with
  | last free =>
    rw [nodes_last free] at h
    cases h
  | @unclosed text inner free unclosed =>
    rw [nodes_unclosed free unclosed] at h
    cases h
    exact ⟨.last text, inner, free, rfl, .unclosed unclosed⟩
  | @hollow text after free =>
    rw [nodes_hollow free] at h
    cases h
    exact ⟨.last text, '}' :: after, free, rfl, .hollow rfl⟩
  | @span text body rest free nonempty closed _ ih =>
    rw [nodes_span free nonempty closed] at h
    rcases Reading.outcome_bind_eq_error_iff.1 h with h | ⟨node, read, h⟩
    · obtain ⟨numeric, operand, cause, bad, read, rfl⟩ := placeholder_eq_error_iff.1 h
      exact ⟨.last text, body ++ '}' :: rest, free, rfl, .operand rfl closed numeric bad read⟩
    · rcases Reading.outcome_bind_eq_error_iff.1 h with h | ⟨more, -, h⟩
      · obtain ⟨l, after, valid, rfl, faulty⟩ := ih h
        have isBody := (placeholder_eq_ok_iff.1 read).isBody nonempty closed
        refine ⟨.span text body l, after, ⟨free, isBody, valid⟩, by simp [Layout.chars], ?_⟩
        rwa [byteCount_span]
      · cases h

/-- A component has a fault exactly if it has a faulty brace behind a component. -/
theorem component_eq_error_iff :
    (Template.component cs).outcome = .error fault ↔
      ∃ before after, cs = before ++ '{' :: after ∧ IsComponent before ∧
        FaultyAt (String.ofList cs) (byteCount before) after fault := by
  rw [Template.component, Reading.outcome_bind_eq_error_iff]
  constructor
  · rintro (h | ⟨_, -, h⟩)
    · obtain ⟨l, after, valid, same, faulty⟩ := faultyAt_of_nodes h
      rw [Nat.zero_add] at faulty
      exact ⟨l.chars, after, same, ⟨l, valid, rfl⟩, faulty⟩
    · cases h
  · rintro ⟨_, after, same, ⟨l, valid, rfl⟩, faulty⟩
    rw [← Nat.zero_add (byteCount _)] at faulty
    have read := nodes_of_faultyAt valid faulty
    rw [← same] at read
    exact .inl read

/-- A brace between two ends of a component opens a body. -/
theorem exists_body_of_isComponent (h : IsComponent before)
    (h' : IsComponent (before ++ '{' :: after)) :
    ∃ body rest, after = body ++ '}' :: rest ∧ IsBody body := by
  obtain ⟨l, valid, rfl⟩ := h
  obtain ⟨l', valid', same⟩ := h'
  induction l generalizing l' with
  | last text =>
    cases l' with
    | last text' =>
      simp only [Layout.chars] at same
      simp [Layout.WellFormed, same] at valid'
    | span text' body rest =>
      obtain ⟨free', isBody, -⟩ := valid'
      obtain ⟨-, rfl⟩ := Text.first_unique free' valid same
      exact ⟨body, rest.chars, rfl, isBody⟩
  | span text body rest ih =>
    obtain ⟨free, isBody, more⟩ := valid
    simp only [Layout.chars, List.append_assoc, List.cons_append] at same
    cases l' with
    | last text' =>
      simp only [Layout.chars] at same
      simp [Layout.WellFormed, same] at valid'
    | span text' body' rest' =>
      obtain ⟨free', isBody', more'⟩ := valid'
      obtain ⟨-, inner⟩ := Text.first_unique free' free same
      obtain ⟨-, tail⟩ := Text.first_unique isBody'.closed isBody.closed inner
      exact ih more rest' more' tail

/-! ### Templates -/

/-- What comes before the brace between `q` and `rest` is a template of its own, the brace starts
a placeholder, and the fault is that of this placeholder in its component. -/
structure FirstFault (q rest : List Char) (fault : TemplateFault) : Prop where
  parses : ∃ tree, compile (String.ofList q) = .ok tree
  starts : IsComponent (q.rtakeWhile (· != '/'))
  faulty : FaultyAt (String.ofList (q.rtakeWhile (· != '/') ++ '{' :: rest.takeWhile (· != '/')))
    (String.ofList (q.rtakeWhile (· != '/'))).utf8ByteSize (rest.takeWhile (· != '/')) fault

theorem exists_compile_ofList_iff :
    (∃ tree, compile (String.ofList q) = .ok tree) ↔ ∀ cs ∈ pieces '/' q, IsComponent cs := by
  rw [exists_compile_iff, String.toList_ofList]

/-- The first component with a fault is the one that is told. -/
theorem exists_faulty_component {css : List (List Char)}
    (h : (components css).outcome = .error fault) :
    ∃ pre cs post, css = pre ++ cs :: post ∧ (∀ p ∈ pre, IsComponent p) ∧
      (Template.component cs).outcome = .error fault := by
  induction css with
  | nil => cases h
  | cons cs css ih =>
    rcases components_cons_eq_error_iff.1 h with h | ⟨good, h⟩
    · exact ⟨[], cs, css, rfl, by simp, h⟩
    · obtain ⟨pre, bad, post, rfl, front, h⟩ := ih h
      exact ⟨cs :: pre, bad, post, rfl, List.forall_mem_cons.2 ⟨good, front⟩, h⟩

/-- A text whose components have a fault has a first one. -/
theorem exists_firstFault (h : (components (pieces '/' cs)).outcome = .error fault) :
    ∃ q rest, cs = q ++ '{' :: rest ∧ FirstFault q rest fault := by
  obtain ⟨pre, bad, post, split, good, h⟩ := exists_faulty_component h
  obtain ⟨before, after, rfl, isComponent, faulty⟩ := component_eq_error_iff.1 h
  obtain ⟨q, rest, rfl, frontSplit, backSplit⟩ := Text.exists_append_cons_of_pieces split
  -- The last piece of `q` is what stands before the brace, the first one behind it what follows.
  obtain ⟨front, whole, -⟩ := Text.exists_pieces_append_cons (show '{' ≠ '/' by decide) q
  obtain ⟨back, behind⟩ := Text.exists_append_pieces '/' rest
  obtain ⟨rfl, beforeSame⟩ := List.append_inj' (frontSplit.symm.trans whole) rfl
  have afterSame := backSplit.symm.trans (behind ['{'] (by decide))
  simp only [List.cons.injEq, and_true] at beforeSame
  simp only [List.singleton_append, List.cons.injEq, true_and] at afterSame
  refine ⟨q, rest, rfl, exists_compile_ofList_iff.2 ?_, beforeSame ▸ isComponent, ?_⟩
  · rw [frontSplit, List.forall_mem_append]
    exact ⟨good, by simpa using isComponent⟩
  · rw [← beforeSame, ← afterSame.1, Text.utf8ByteSize_ofList]
    exact faulty

/-- A first fault is the answer for the text, whatever slashes come before it. -/
theorem FirstFault.compile_eq (h : FirstFault q rest fault) (n : Nat) :
    compile (String.ofList (List.replicate n '/' ++ (q ++ '{' :: rest))) = .error fault := by
  have good := exists_compile_ofList_iff.1 h.parses
  obtain ⟨front, whole, around⟩ := Text.exists_pieces_append_cons (show '{' ≠ '/' by decide) q
  obtain ⟨back, -, joined⟩ := around rest
  rw [whole, List.forall_mem_append] at good
  have faulty := h.faulty
  rw [Text.utf8ByteSize_ofList] at faulty
  rw [compile_eq_error_iff, String.toList_ofList, Text.pieces_replicate_append, joined,
    components_append_eq_error_iff, components_append_eq_error_iff, components_cons_eq_error_iff]
  have told := component_eq_error_iff.2 ⟨_, _, rfl, h.starts, faulty⟩
  exact .inr ⟨fun cs => isComponent_of_mem_replicate, .inr ⟨good.1, .inl told⟩⟩

/-- Only the rest of the component behind the brace matters. -/
theorem FirstFault.congr {rest' : List Char} (h : FirstFault q rest fault)
    (same : rest'.takeWhile (· != '/') = rest.takeWhile (· != '/')) : FirstFault q rest' fault :=
  ⟨h.parses, h.starts, by rw [same]; exact h.faulty⟩

/-- Behind the brace of a first fault no template goes on past another brace. -/
theorem FirstFault.not_append {more : List Char} {fault' : TemplateFault}
    (h : FirstFault q (more ++ '{' :: rest) fault) :
    ¬FirstFault (q ++ '{' :: more) rest fault' := by
  intro h'
  have good := exists_compile_ofList_iff.1 h'.parses
  obtain ⟨front, -, around⟩ := Text.exists_pieces_append_cons (show '{' ≠ '/' by decide) q
  obtain ⟨back, -, joined⟩ := around more
  rw [joined] at good
  obtain ⟨body, tail, split, isBody⟩ := exists_body_of_isComponent h.starts
    (good (q.rtakeWhile (· != '/') ++ '{' :: more.takeWhile (· != '/')) (by simp))
  -- The body ends in `more`, so that it stands behind the first brace, too.
  obtain ⟨w, goesOn⟩ := Text.takeWhile_isPrefix_append more ('{' :: rest) (· != '/')
  have faulty := h.faulty
  rw [← goesOn, split, List.append_assoc, List.cons_append] at faulty
  exact faulty.not_isBody isBody

theorem FirstFault.eq_nil {mid rest' : List Char} {fault' : TemplateFault}
    (h : FirstFault q rest fault) (h' : FirstFault (q ++ mid) rest' fault')
    (same : '{' :: rest = mid ++ '{' :: rest') : mid = [] := by
  cases mid with
  | nil => rfl
  | cons c more =>
    simp only [List.cons_append, List.cons.injEq] at same
    obtain ⟨rfl, rfl⟩ := same
    exact absurd h' h.not_append

/-- A text has one first fault, at one brace. -/
theorem FirstFault.unique {q' rest' : List Char} {fault' : TemplateFault}
    (h : FirstFault q rest fault) (h' : FirstFault q' rest' fault')
    (same : q ++ '{' :: rest = q' ++ '{' :: rest') : q' = q ∧ rest' = rest ∧ fault' = fault := by
  have place : q' = q ∧ rest' = rest := by
    rcases List.append_eq_append_iff.1 same with ⟨mid, rfl, behind⟩ | ⟨mid, rfl, behind⟩
    · obtain rfl := h.eq_nil h' behind
      simpa [eq_comm] using behind
    · obtain rfl := h'.eq_nil h behind
      simpa using behind
  obtain ⟨rfl, rfl⟩ := place
  have told := h.compile_eq 0
  rw [h'.compile_eq 0] at told
  exact ⟨rfl, rfl, by simpa using told⟩

/-- No text behind the component of the fault changes the fault. -/
theorem FirstFault.compile_component_append (h : FirstFault q rest fault) {tail : List Char}
    (ends : tail = [] ∨ tail.head? = some '/') (n : Nat) :
    compile (String.ofList (List.replicate n '/' ++
      (q ++ '{' :: (rest.takeWhile (· != '/') ++ tail)))) = .error fault := by
  refine (h.congr ?_).compile_eq n
  rw [List.takeWhile_append_of_pos fun c mem => List.mem_takeWhile_imp (p := (· != '/')) mem]
  rcases ends with rfl | ends
  · simp
  · obtain ⟨tail, rfl⟩ := List.head?_eq_some_iff.1 ends
    simp

/-- Nor does a text behind a placeholder that is closed change more than the component told. -/
theorem FirstFault.compile_placeholder_append (h : FirstFault q rest fault)
    (closing : rest.takeWhile (· != '/') = body ++ '}' :: after) (closed : '}' ∉ body)
    (tail : List Char) (n : Nat) :
    ∃ fault', SameSpot fault fault' ∧ compile (String.ofList (List.replicate n '/' ++
      (q ++ '{' :: (body ++ '}' :: tail)))) = .error fault' := by
  have free : '/' ∉ body ++ '}' :: after := closing ▸ Text.not_mem_takeWhile_ne '/' rest
  have behind : (body ++ '}' :: tail).takeWhile (· != '/') =
      body ++ '}' :: tail.takeWhile (· != '/') := by
    rw [List.takeWhile_append_of_pos, List.takeWhile_cons_of_pos (by decide)]
    intro c mem
    have : c ≠ '/' := by
      rintro rfl
      exact free (List.mem_append_left _ mem)
    simpa using this
  have faulty := h.faulty
  rw [closing] at faulty
  obtain ⟨fault', spot, faulty'⟩ := faulty.of_closed closed
  refine ⟨fault', spot, FirstFault.compile_eq ⟨h.parses, h.starts, ?_⟩ n⟩
  rw [behind]
  exact faulty'

/-- A template that is refused has one first fault, which is the one told; of what follows it,
only the rest of its component can change it, and behind a closed placeholder not even that, but
for the component told. -/
theorem compile_error_at_first_fault {template : String} (h : compile template = .error fault) :
    ∃ q rest, stripped template = q ++ '{' :: rest ∧ FirstFault q rest fault ∧
      (∀ q' rest' fault', stripped template = q' ++ '{' :: rest' → FirstFault q' rest' fault' →
        q' = q ∧ rest' = rest ∧ fault' = fault) ∧
      (∀ tail : List Char, tail = [] ∨ tail.head? = some '/' → ∀ n,
        compile (String.ofList (List.replicate n '/' ++
          (q ++ '{' :: (rest.takeWhile (· != '/') ++ tail)))) = .error fault) ∧
      ∀ body after, rest.takeWhile (· != '/') = body ++ '}' :: after → '}' ∉ body → ∀ tail n,
        ∃ fault', SameSpot fault fault' ∧ compile (String.ofList (List.replicate n '/' ++
          (q ++ '{' :: (body ++ '}' :: tail)))) = .error fault' := by
  rw [compile_eq_error_iff_componentTexts, componentTexts_eq] at h
  obtain ⟨q, rest, split, first⟩ := exists_firstFault h
  refine ⟨q, rest, split, first, ?_, ?_, ?_⟩
  · intro q' rest' fault' split' first'
    exact first.unique first' (split.symm.trans split')
  · exact fun tail ends n => first.compile_component_append ends n
  · exact fun body after closing closed tail n =>
      first.compile_placeholder_append closing closed tail n

/-- Two bytes of a letter and five of a placeholder come before the fault. -/
theorem first_fault_counts_bytes :
    compile "/é/à{doy}{}/b" = .error (.emptyPlaceholder "à{doy}{}" 7) ∧
      ∃ q rest, stripped "/é/à{doy}{}/b" = q ++ '{' :: rest ∧
        FirstFault q rest (.emptyPlaceholder "à{doy}{}" 7) := by
  have refused : compile "/é/à{doy}{}/b" = .error (.emptyPlaceholder "à{doy}{}" 7) := by
    decide +kernel
  obtain ⟨q, rest, split, first, -⟩ := compile_error_at_first_fault refused
  exact ⟨refused, q, rest, split, first⟩

end PathPattern.Template
