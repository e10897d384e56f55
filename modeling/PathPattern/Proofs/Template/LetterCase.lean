import PathPattern.Pattern
import PathPattern.Proofs.Node.LetterCase
import PathPattern.Proofs.Template.Component

/-!
# Letter case between braces

Putting the letters between the braces of a template into lower case keeps its components, its braces
and its operands, and reading the template so changed goes as before, to the tree with its names in
lower case (`read_lowersTo`). Templates that are the same but for the case of letters between braces
have one such lower case, so what is said of one holds of the other.
-/

namespace PathPattern

variable {cs body rest : List Char} {inside : Bool}

/-! ### Texts -/

namespace Template

open Text (pieces trimSep toLower_eq_iff mem_map_toLower_iff)

/-- The text with the ASCII letters between braces in lower case, from a place inside or outside of
braces on. A component ends also where a brace is open. -/
def lowerInside : Bool → List Char → List Char
  | _, [] => []
  | false, c :: cs => c :: lowerInside (c == '{') cs
  | true, c :: cs => c.toLower :: lowerInside (c != '}' && c != '/') cs

/-- The templates are the same but for the case of ASCII letters between braces. -/
def Recased (t t' : String) : Prop := lowerInside false t.toList = lowerInside false t'.toList

instance (t t' : String) : Decidable (Recased t t') := inferInstanceAs (Decidable (_ = _))

theorem lowerInside_nil : lowerInside inside [] = [] := by cases inside <;> rfl

theorem lowerInside_open (cs : List Char) :
    lowerInside false ('{' :: cs) = '{' :: lowerInside true cs := rfl

theorem lowerInside_close (cs : List Char) :
    lowerInside true ('}' :: cs) = '}' :: lowerInside false cs := rfl

theorem lowerInside_slash (cs : List Char) :
    lowerInside inside ('/' :: cs) = '/' :: lowerInside false cs := by cases inside <;> rfl

/-- Fixed text stays as it is. -/
theorem lowerInside_append (free : '{' ∉ cs) (rest : List Char) :
    lowerInside false (cs ++ rest) = cs ++ lowerInside false rest := by
  induction cs with
  | nil => rfl
  | cons c cs ih =>
    obtain ⟨other, free⟩ := List.ne_and_not_mem_of_not_mem_cons free
    have outside : (c == '{') = false := beq_eq_false_iff_ne.2 (Ne.symm other)
    rw [List.cons_append, lowerInside, outside, ih free, List.cons_append]

theorem lowerInside_of_not_mem (free : '{' ∉ cs) : lowerInside false cs = cs := by
  simpa [lowerInside_nil] using lowerInside_append free []

/-- What stands between braces is put into lower case. -/
theorem lowerInside_body (closed : '}' ∉ body) (flat : '/' ∉ body) (rest : List Char) :
    lowerInside true (body ++ rest) = body.map Char.toLower ++ lowerInside true rest := by
  induction body with
  | nil => rfl
  | cons c body ih =>
    obtain ⟨other, closed⟩ := List.ne_and_not_mem_of_not_mem_cons closed
    obtain ⟨other', flat⟩ := List.ne_and_not_mem_of_not_mem_cons flat
    have goesOn : (c != '}' && c != '/') = true := by simp [Ne.symm other, Ne.symm other']
    rw [List.cons_append, lowerInside, goesOn, ih closed flat, List.map_cons, List.cons_append]

/-- Components are put into lower case one by one. -/
theorem lowerInside_append_slash (inside : Bool) (cs rest : List Char) :
    lowerInside inside (cs ++ '/' :: rest) = lowerInside inside cs ++ '/' :: lowerInside false rest := by
  induction cs generalizing inside with
  | nil => rw [List.nil_append, lowerInside_slash, lowerInside_nil, List.nil_append]
  | cons c cs ih => cases inside <;> simp [lowerInside, ih]

/-- No case is changed by changing cases. -/
theorem map_toLower_lowerInside (inside : Bool) (cs : List Char) :
    (lowerInside inside cs).map Char.toLower = cs.map Char.toLower := by
  induction cs generalizing inside with
  | nil => cases inside <;> rfl
  | cons c cs ih =>
    cases inside with
    | false => rw [lowerInside, List.map_cons, ih, List.map_cons]
    | true => rw [lowerInside, List.map_cons, ih, Text.toLower_toLower, List.map_cons]

theorem slash_mem_lowerInside_iff : '/' ∈ lowerInside inside cs ↔ '/' ∈ cs := by
  rw [← mem_map_toLower_iff (by decide), map_toLower_lowerInside, mem_map_toLower_iff (by decide)]

theorem lowerInside_intercalate (ps : List (List Char)) :
    lowerInside false (['/'].intercalate ps) = ['/'].intercalate (ps.map (lowerInside false)) := by
  induction ps with
  | nil => rfl
  | cons p ps ih =>
    cases ps with
    | nil => simp
    | cons q ps =>
      simp only [List.map_cons, List.intercalate_cons_cons] at ih ⊢
      simp [lowerInside_append_slash, ih]

theorem pieces_lowerInside (cs : List Char) :
    pieces '/' (lowerInside false cs) = (pieces '/' cs).map (lowerInside false) := by
  conv_lhs => rw [← Text.intercalate_pieces '/' cs, lowerInside_intercalate]
  refine Text.pieces_intercalate (List.forall_mem_map.2 fun p mem => ?_) ?_
  · rw [slash_mem_lowerInside_iff]
    exact Text.not_mem_of_mem_pieces mem
  · simpa using Text.pieces_ne_nil '/' cs

theorem dropWhile_lowerInside (cs : List Char) :
    (lowerInside false cs).dropWhile (· == '/') = lowerInside false (cs.dropWhile (· == '/')) := by
  induction cs with
  | nil => rfl
  | cons c cs ih =>
    by_cases slash : c = '/'
    · simp [slash, lowerInside, ih]
    · simp [slash, lowerInside]

theorem rdropWhile_lowerInside (inside : Bool) (cs : List Char) :
    (lowerInside inside cs).rdropWhile (· == '/') =
      lowerInside inside (cs.rdropWhile (· == '/')) := by
  induction cs using List.reverseRecOn with
  | nil => cases inside <;> rfl
  | append_singleton cs c ih =>
    by_cases slash : c = '/'
    · rw [slash, lowerInside_append_slash, lowerInside_nil, List.rdropWhile_concat_pos _ _ _ (by simp),
        List.rdropWhile_concat_pos _ _ _ (by simp), ih]
    · rw [List.rdropWhile_concat_neg _ _ _ (by simpa using slash), List.rdropWhile_eq_self_iff]
      intro some last
      have same := congrArg List.getLast? (map_toLower_lowerInside inside (cs ++ [c]))
      rw [List.getLast?_map, List.getLast?_eq_some_getLast some, beq_iff_eq.1 last, List.map_append,
        List.map_singleton, List.getLast?_concat, Option.map_some, Option.some_inj] at same
      exact slash ((toLower_eq_iff (by decide)).1 same.symm)

theorem trimSep_lowerInside (cs : List Char) :
    trimSep '/' (lowerInside false cs) = lowerInside false (trimSep '/' cs) := by
  rw [Text.trimSep_eq_rdropWhile, Text.trimSep_eq_rdropWhile, dropWhile_lowerInside,
    rdropWhile_lowerInside]

end Template

/-! ### Readings -/

namespace Reading

/-- The second reading meets the names that the first one meets, in lower case, and comes to the
image of what the first one comes to. Their faults may differ. -/
structure LowersTo {α β : Type} (f : α → β) (x : Reading α) (y : Reading β) : Prop where
  unknown : y.unknown = x.unknown.map String.toLower
  outcome : ∀ b, y.outcome = .ok b ↔ ∃ a, x.outcome = .ok a ∧ f a = b

variable {α β γ δ : Type} {f : α → β} {x : Reading α} {y : Reading β}

theorem LowersTo.pure (f : α → β) (a : α) : LowersTo f (pure a) (pure (f a)) := ⟨rfl, by simp⟩

theorem LowersTo.fault (f : α → β) (fault fault' : TemplateFault) :
    LowersTo f ⟨[], .error fault⟩ ⟨[], .error fault'⟩ := ⟨rfl, by simp⟩

/-- Readings that follow each other step by step do so from end to end. -/
theorem LowersTo.bind {g : α → Reading γ} {h : β → Reading δ} {k : γ → δ} (first : LowersTo f x y)
    (next : ∀ a, LowersTo k (g a) (h (f a))) : LowersTo k (x >>= g) (y >>= h) where
  unknown := by
    cases ends : x.outcome with
    | error fault =>
      cases ends' : y.outcome with
      | error fault' =>
        rw [unknown_bind_of_error ends, unknown_bind_of_error ends', first.unknown]
      | ok b =>
        obtain ⟨a, ok, -⟩ := (first.outcome b).1 ends'
        rw [ends] at ok
        cases ok
    | ok a =>
      have ends' : y.outcome = .ok (f a) := (first.outcome _).2 ⟨a, ends, rfl⟩
      rw [unknown_bind_of_ok ends, unknown_bind_of_ok ends', first.unknown, (next a).unknown,
        List.map_append]
  outcome d := by
    simp only [outcome_bind_eq_ok_iff, first.outcome]
    constructor
    · rintro ⟨-, ⟨a, ok, rfl⟩, more⟩
      obtain ⟨c, more, image⟩ := ((next a).outcome d).1 more
      exact ⟨c, ⟨a, ok, more⟩, image⟩
    · rintro ⟨c, ⟨a, ok, more⟩, image⟩
      exact ⟨f a, ⟨a, ok, rfl⟩, ((next a).outcome d).2 ⟨c, more, image⟩⟩

end Reading

namespace Template

open Text (pieces trimSep toLower_eq_iff mem_map_toLower_iff)

variable {whole whole' : List Char} {offset offset' : Nat} {node : Node}

theorem looksNumeric_map_toLower_iff : LooksNumeric (body.map Char.toLower) ↔ LooksNumeric body := by
  cases body with
  | nil => rfl
  | cons c body =>
    have minus : c.toLower = '-' ↔ c = '-' := toLower_eq_iff (by decide)
    simp [LooksNumeric, Text.isDigit_toLower, minus]

theorem ofList_map_toLower (cs : List Char) :
    String.ofList (cs.map Char.toLower) = (String.ofList cs).toLower := by
  rw [← String.toList_inj, Text.toList_toLower, String.toList_ofList, String.toList_ofList]

/-- A body in lower case stands for the node with its name in lower case. -/
theorem denotes_map_toLower_iff :
    Denotes (body.map Char.toLower) node ↔ ∃ n, Denotes body n ∧ n.lowered = node := by
  constructor
  · intro h
    generalize same : body.map Char.toLower = text at h
    cases h with
    | keyword plain =>
      rw [← same, looksNumeric_map_toLower_iff] at plain
      exact ⟨_, .keyword plain, by rw [Node.lowered, ← same, ofList_map_toLower]⟩
    | @index _ i numeric value =>
      rw [← same, looksNumeric_map_toLower_iff] at numeric
      rw [← same, Integer.numeral_map_toLower_iff] at value
      exact ⟨_, .index numeric value, rfl⟩
    | @slice first last i j numeric begin finish =>
      rw [← same, looksNumeric_map_toLower_iff] at numeric
      obtain ⟨first, behind, rfl, rfl, same'⟩ := List.map_eq_append_iff.1 same
      obtain ⟨c, last, rfl, colon, rfl⟩ := List.map_eq_cons_iff.1 same'
      obtain rfl := (toLower_eq_iff (by decide)).1 colon
      rw [Integer.numeral_map_toLower_iff] at begin finish
      exact ⟨_, .slice numeric begin finish, rfl⟩
  · rintro ⟨n, h, rfl⟩
    cases h with
    | keyword plain =>
      rw [Node.lowered, ← ofList_map_toLower]
      exact .keyword (mt looksNumeric_map_toLower_iff.1 plain)
    | index numeric value =>
      exact .index (looksNumeric_map_toLower_iff.2 numeric) (Integer.numeral_map_toLower_iff.2 value)
    | @slice first last i j numeric begin finish =>
      have numeric' := looksNumeric_map_toLower_iff.2 numeric
      have colon : ':'.toLower = ':' := rfl
      rw [List.map_append, List.map_cons, colon] at numeric' ⊢
      exact .slice numeric' (Integer.numeral_map_toLower_iff.2 begin)
        (Integer.numeral_map_toLower_iff.2 finish)

theorem placeholder_lowersTo (body : List Char) :
    (placeholder body).LowersTo Node.lowered (placeholder (body.map Char.toLower)) where
  unknown := by
    have numeric : (body.map Char.toLower).head?.any startsAddress = true ↔
        body.head?.any startsAddress = true := by
      rw [any_startsAddress_iff, any_startsAddress_iff, looksNumeric_map_toLower_iff]
    unfold placeholder
    by_cases address : body.head?.any startsAddress = true
    · rw [if_pos address, if_pos (numeric.2 address)]
      rfl
    · rw [if_neg address, if_neg (mt numeric.1 address)]
      simp only [ofList_map_toLower, Keyword.isUnknown_toLower]
      split <;> rfl
  outcome node := by
    simp only [placeholder_eq_ok_iff, denotes_map_toLower_iff]

theorem map_lowered_literals (text : List Char) :
    (literals text).map Node.lowered = literals text := by
  unfold literals
  split <;> rfl

theorem nodes_lowersTo (flat : '/' ∉ rest) :
    (nodes whole offset rest).LowersTo (List.map Node.lowered)
      (nodes whole' offset' (lowerInside false rest)) := by
  induction scan rest generalizing offset offset' with
  | @last text free =>
    rw [lowerInside_of_not_mem free, nodes_last free, nodes_last free]
    have done := Reading.LowersTo.pure (List.map Node.lowered) (literals text)
    rwa [map_lowered_literals] at done
  | @unclosed text inner free unclosed =>
    have inner_flat : '/' ∉ inner := fun mem => flat (by simp [mem])
    have unclosed' : '}' ∉ inner.map Char.toLower := mt (mem_map_toLower_iff (by decide)).1 unclosed
    have lowered := lowerInside_body unclosed inner_flat []
    rw [lowerInside_nil, List.append_nil, List.append_nil] at lowered
    rw [lowerInside_append free, lowerInside_open, lowered, nodes_unclosed free unclosed,
      nodes_unclosed free unclosed']
    exact .fault _ _ _
  | hollow free =>
    rw [lowerInside_append free, lowerInside_open, lowerInside_close, nodes_hollow free,
      nodes_hollow free]
    exact .fault _ _ _
  | @span text body rest free nonempty closed _ ih =>
    have body_flat : '/' ∉ body := fun mem => flat (by simp [mem])
    have rest_flat : '/' ∉ rest := fun mem => flat (by simp [mem])
    have nonempty' : body.map Char.toLower ≠ [] := mt List.map_eq_nil_iff.1 nonempty
    have closed' : '}' ∉ body.map Char.toLower := mt (mem_map_toLower_iff (by decide)).1 closed
    rw [lowerInside_append free, lowerInside_open, lowerInside_body closed body_flat,
      lowerInside_close, nodes_span free nonempty closed, nodes_span free nonempty' closed']
    refine (placeholder_lowersTo body).bind fun node => (ih rest_flat).bind fun more => ?_
    have done := Reading.LowersTo.pure (List.map Node.lowered) (literals text ++ node :: more)
    rwa [List.map_append, List.map_cons, map_lowered_literals] at done

theorem combine_map_lowered (found : List Node) :
    combine (found.map Node.lowered) = (combine found).lowered := by
  match found with
  | [] => rfl
  | [_] => rfl
  | a :: b :: found => exact (Node.lowered_tree .compound (a :: b :: found)).symm

theorem component_lowersTo (flat : '/' ∉ cs) :
    (component cs).LowersTo Node.lowered (component (lowerInside false cs)) := by
  refine (nodes_lowersTo flat).bind fun found => ?_
  rw [combine_map_lowered]
  exact .pure _ _

theorem components_lowersTo {css : List (List Char)} (flat : ∀ cs ∈ css, '/' ∉ cs) :
    (components css).LowersTo (List.map Node.lowered) (components (css.map (lowerInside false))) := by
  induction css with
  | nil => exact .pure _ _
  | cons cs css ih =>
    obtain ⟨first, more⟩ := List.forall_mem_cons.1 flat
    exact (component_lowersTo first).bind fun node => (ih more).bind fun nodes => .pure _ _

theorem read_lowersTo (cs : List Char) :
    (read cs).LowersTo Node.lowered (read (lowerInside false cs)) := by
  by_cases empty : cs = []
  · rw [empty]
    exact .pure Node.lowered .empty
  · have nonempty : lowerInside false cs ≠ [] := by
      cases cs with
      | nil => exact absurd rfl empty
      | cons c cs => exact List.cons_ne_nil c _
    rw [read, read, if_neg empty, if_neg nonempty, trimSep_lowerInside, pieces_lowerInside]
    refine (components_lowersTo fun p mem => Text.not_mem_of_mem_pieces mem).bind fun children => ?_
    have whole : (Node.path children).lowered = .path (children.map Node.lowered) :=
      Node.lowered_tree .path children
    rw [← whole]
    exact .pure _ _

/-- Letter case between braces does not matter: of two templates that differ in nothing else, both
compile if one does, to trees that differ in the case of names only. The names that mean nothing are
as many, both trees are constant or none is, and for every record they give one path. -/
theorem compile_of_recased {t t' : String} {tree : Node} (recased : Recased t t')
    (compiled : compile t = .ok tree) :
    ∃ tree', compile t' = .ok tree' ∧ tree'.lowered = tree.lowered ∧
      tree'.isConstant = tree.isConstant ∧
      (Pattern.compile t').2.length = (Pattern.compile t).2.length ∧
      ∀ r, tree'.resolve r = tree.resolve r := by
  have first := read_lowersTo t.toList
  have second := read_lowersTo t'.toList
  rw [← recased] at second
  obtain ⟨tree', compiled', same⟩ := (second.outcome _).1 ((first.outcome _).2 ⟨tree, compiled, rfl⟩)
  refine ⟨tree', compiled', same, ?_, ?_, fun r => ?_⟩
  · rw [← Node.isConstant_lowered, same, Node.isConstant_lowered]
  · have names : (unknownKeywords t').map String.toLower = (unknownKeywords t).map String.toLower :=
      second.unknown.symm.trans first.unknown
    simpa [Pattern.compile] using congrArg List.length names
  · rw [← Node.resolve_lowered, same, Node.resolve_lowered]

/-- A field, a name that means nothing and a slice in braces, and a letter outside of them that stays
as it is. -/
theorem compile_spanned_recased :
    Recased "k{Source}/{BoGus}{0:-1}" "k{soURCE}/{bogus}{0:-1}" ∧
    ¬Recased "k{Source}/{BoGus}{0:-1}" "K{Source}/{BoGus}{0:-1}" ∧
    compile "k{Source}/{BoGus}{0:-1}" = .ok (.path [.compound [.literal "k", .keyword "Source"],
      .compound [.keyword "BoGus", .slice 0 (-1)]]) ∧
    ∃ tree', compile "k{soURCE}/{bogus}{0:-1}" = .ok tree' ∧
      ∀ r, tree'.resolve r = (Node.path [.compound [.literal "k", .keyword "Source"],
        .compound [.keyword "BoGus", .slice 0 (-1)]]).resolve r := by
  have recased : Recased "k{Source}/{BoGus}{0:-1}" "k{soURCE}/{bogus}{0:-1}" := by decide +kernel
  have compiled : compile "k{Source}/{BoGus}{0:-1}" = .ok (.path [
      .compound [.literal "k", .keyword "Source"],
      .compound [.keyword "BoGus", .slice 0 (-1)]]) := by decide +kernel
  obtain ⟨tree', compiled', -, -, -, same⟩ := compile_of_recased recased compiled
  exact ⟨recased, by decide +kernel, compiled, tree', compiled', same⟩

end Template

end PathPattern
