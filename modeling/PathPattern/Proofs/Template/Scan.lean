import PathPattern.Proofs.Number.Numeral
import PathPattern.Proofs.Text.Cut
import PathPattern.Template.Reading

/-!
# Reading a component step by step

From any place in a component on, reading meets one of four things: fixed text to the end, a
brace that nothing closes, two braces with nothing between them, or a placeholder with more
behind it. `Scan` lists the four and is the induction for every fact about a component; the
equations `nodes_last`, `nodes_unclosed`, `nodes_hollow` and `nodes_span` say what `nodes` does
on each, so that no later proof opens it.
-/

namespace PathPattern

/-! ### Readings -/

namespace Reading

variable {α β : Type} {x : Reading α} {f : α → Reading β} {a : α} {b : β} {fault : TemplateFault}

@[simp] theorem outcome_pure (a : α) : (pure a : Reading α).outcome = .ok a := rfl

theorem outcome_done (a : α) : (done a).outcome = .ok a := rfl

theorem outcome_bind_of_ok (h : x.outcome = .ok a) : (x >>= f).outcome = (f a).outcome := by
  simp [bind, andThen, h]

theorem outcome_bind_of_error (h : x.outcome = .error fault) :
    (x >>= f).outcome = .error fault := by
  simp [bind, andThen, h]

theorem unknown_bind_of_ok (h : x.outcome = .ok a) :
    (x >>= f).unknown = x.unknown ++ (f a).unknown := by
  simp [bind, andThen, h]

theorem unknown_bind_of_error (h : x.outcome = .error fault) : (x >>= f).unknown = x.unknown := by
  simp [bind, andThen, h]

theorem outcome_bind_eq_ok_iff :
    (x >>= f).outcome = .ok b ↔ ∃ a, x.outcome = .ok a ∧ (f a).outcome = .ok b := by
  cases first : x.outcome with
  | error fault => simp [outcome_bind_of_error first]
  | ok a => simp [outcome_bind_of_ok first]

theorem outcome_bind_eq_error_iff :
    (x >>= f).outcome = .error fault ↔
      x.outcome = .error fault ∨ ∃ a, x.outcome = .ok a ∧ (f a).outcome = .error fault := by
  cases first : x.outcome with
  | error other => simp [outcome_bind_of_error first]
  | ok a => simp [outcome_bind_of_ok first]

end Reading

namespace Template

open Text (cutAt byteCount cutAt_append_cons cutAt_of_not_mem)

variable {component text body inner rest after cs : List Char} {offset : Nat}

/-! ### The four things a place can start with -/

/-- How a component goes on from a place in it. -/
inductive Scan : List Char → Prop where
  /-- Fixed text up to the end. -/
  | last {text : List Char} (free : '{' ∉ text) : Scan text
  /-- A brace that nothing closes. -/
  | unclosed {text inner : List Char} (free : '{' ∉ text) (unclosed : '}' ∉ inner) :
    Scan (text ++ '{' :: inner)
  /-- Two braces with nothing between them. -/
  | hollow {text after : List Char} (free : '{' ∉ text) : Scan (text ++ '{' :: '}' :: after)
  /-- A placeholder and what follows it. -/
  | span {text body rest : List Char} (free : '{' ∉ text) (nonempty : body ≠ [])
    (closed : '}' ∉ body) (more : Scan rest) : Scan (text ++ '{' :: (body ++ '}' :: rest))

/-- Every text goes on in one of the four ways. -/
theorem scan (cs : List Char) : Scan cs := by
  -- What is behind a placeholder is shorter than the text, hence the induction on the length.
  induction size : cs.length using Nat.strongRecOn generalizing cs with
  | ind n ih =>
    by_cases opened : '{' ∈ cs
    · obtain ⟨text, inner, rfl, free⟩ := Text.exists_first_of_mem opened
      by_cases closed : '}' ∈ inner
      · obtain ⟨body, rest, rfl, shut⟩ := Text.exists_first_of_mem closed
        cases body with
        | nil => exact .hollow free
        | cons c body =>
          refine .span free (by simp) shut (ih rest.length ?_ rest rfl)
          simp only [← size, List.length_append, List.length_cons]
          omega
      · exact .unclosed free closed
    · exact .last opened

/-! ### What reading does on each -/

theorem nodes_last (free : '{' ∉ text) :
    nodes component offset text = .done (literals text) := by
  have cut := cutAt_of_not_mem free
  rw [nodes]
  split <;> simp_all

theorem nodes_unclosed (free : '{' ∉ text) (unclosed : '}' ∉ inner) :
    nodes component offset (text ++ '{' :: inner) =
      ⟨[], .error (.missingClosingDelimiter (String.ofList component)
        (offset + byteCount text))⟩ := by
  have first := cutAt_append_cons free inner
  have second := cutAt_of_not_mem unclosed
  rw [nodes]
  split
  · simp_all
  · split <;> simp_all

theorem nodes_hollow (free : '{' ∉ text) :
    nodes component offset (text ++ '{' :: '}' :: after) =
      ⟨[], .error (.emptyPlaceholder (String.ofList component) (offset + byteCount text))⟩ := by
  have first := cutAt_append_cons free ('}' :: after)
  have second : cutAt '}' ('}' :: after) = ([], some after) := by simp [cutAt]
  rw [nodes]
  split
  · simp_all
  · split <;> simp_all

theorem nodes_span (free : '{' ∉ text) (nonempty : body ≠ []) (closed : '}' ∉ body) :
    nodes component offset (text ++ '{' :: (body ++ '}' :: rest)) = (do
      let node ← placeholder body
      let more ← nodes component (offset + byteCount (text ++ '{' :: (body ++ ['}']))) rest
      return literals text ++ node :: more) := by
  have first := cutAt_append_cons free (body ++ '}' :: rest)
  have second := cutAt_append_cons closed rest
  have size : byteCount (text ++ '{' :: (body ++ ['}'])) = byteCount text + byteCount body + 2 := by
    have openSize : '{'.utf8Size = 1 := rfl
    have closeSize : '}'.utf8Size = 1 := rfl
    simp only [Text.byteCount_append, Text.byteCount_cons, openSize, closeSize]
    simp only [byteCount, List.foldr_nil]
    omega
  rw [size, ← Nat.add_assoc, ← Nat.add_assoc]
  conv_lhs => rw [nodes]
  split
  · simp_all
  · split
    · simp_all
    · simp_all

end Template

end PathPattern
