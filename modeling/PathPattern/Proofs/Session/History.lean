import PathPattern.Proofs.Template.Acceptance
import PathPattern.Session

/-!
# The patterns of a session

A step changes a session in one of three ways or not at all (`perform_effect`): it puts a pattern
in force, remembers the one in force under a name, or changes the record. So a session only ever
holds patterns whose tree their template compiles to, and what it holds can be told from the
steps of its run. The kind of the holder is never seen (`run_seen`).
-/

namespace PathPattern

variable {s t : Session} {step : Step} {steps more : List Step} {p q : Pattern}
  {template name : String} {fault : TemplateFault}

/-- The answer to a step that failed. -/
def Answer.IsError : Answer → Prop
  | badTemplate _ | badRecord _ | timeOutOfRange | noSnapshot => True
  | done | text _ | truth _ | record _ => False

/-- The step is to put a pattern in force. -/
def Step.SetsPattern : Step → Prop
  | configure _ | compile _ | reset | restore _ => True
  | _ => False

/-! ### Compiled patterns -/

namespace Pattern

/-- The tree is the one that the template compiles to. -/
def Compiled (p : Pattern) : Prop := Template.compile p.template = .ok p.tree

theorem compiled_unset : unset.Compiled := Template.compile_empty

theorem compiled_of_ofTemplate (h : (ofTemplate template).toOption = some p) : p.Compiled := by
  rw [ofTemplate, compile] at h
  cases read : Template.compile template with
  | error fault => simp [read, Except.map, Except.toOption] at h
  | ok tree =>
    simp only [read, Except.map, Except.toOption, Option.some.injEq] at h
    rw [← h]
    exact read

/-- Compiled patterns are told apart by their templates alone. -/
theorem Compiled.eq_iff (hp : p.Compiled) (hq : q.Compiled) : p = q ↔ p.template = q.template := by
  constructor
  · exact congrArg template
  · intro same
    rw [Compiled, same, hq, Except.ok.injEq] at hp
    cases p
    cases q
    exact congr (congrArg mk same) hp.symm

theorem configure_fst (template : String) : (configure template).1 = ofTemplate template := by
  rw [configure, ofTemplate]
  split <;> simp_all

end Pattern

/-! ### One step -/

namespace Holder

@[simp] theorem pattern_replace (h : Holder) (p : Pattern) : (h.replace p).pattern = p := by
  cases h <;> rfl

/-- Both kinds of holder are configured alike. -/
theorem configure_eq (h : Holder) (template : String) :
    h.configure template =
      match Pattern.ofTemplate template with
      | .ok p => (h.replace p, none, (Pattern.configure template).2)
      | .error fault => (h, some fault, (Pattern.configure template).2) := by
  rw [← Pattern.configure_fst]
  cases h with
  | plain p =>
    rw [configure]
    rcases Pattern.configure template with ⟨_ | _, events⟩ <;> rfl
  | shared s =>
    rw [configure, SharedPattern.configure]
    rcases Pattern.configure template with ⟨_ | _, events⟩ <;> rfl

end Holder

namespace Session

/-- The pattern that a step puts in force, if it does. -/
def produces? (s : Session) : Step → Option Pattern
  | .configure template | .compile template => (Pattern.ofTemplate template).toOption
  | .reset => some .unset
  | .restore name => s.remembered? name
  | _ => none

/-- What a step does to a session, with its answer. -/
inductive Effect (s : Session) (step : Step) : Session → Answer → Prop where
  /-- A pattern is put in force. -/
  | produces {p : Pattern} (some : s.produces? step = some p) :
    Effect s step { s with holder := s.holder.replace p } .done
  /-- The pattern in force is remembered. -/
  | remembers {name : String} (same : step = .snapshot name) :
    Effect s step { s with snapshots := (name, s.pattern) :: s.snapshots } .done
  /-- The record is changed. -/
  | records (r : Record) (keeps : ¬step.SetsPattern) : Effect s step { s with current := r } .done
  | nothing {answer : Answer} (none : s.produces? step = none)
    (failed : step.SetsPattern → answer.IsError) : Effect s step s answer

theorem perform_effect (s : Session) (step : Step) :
    Effect s step (s.perform step).1 (s.perform step).2.1 := by
  cases step with
  | configure template =>
    rw [perform, Holder.configure_eq]
    cases read : Pattern.ofTemplate template with
    | ok p => exact .produces (by rw [produces?, read]; rfl)
    | error fault => exact .nothing (by rw [produces?, read]; rfl) fun _ => trivial
  | compile template =>
    have same : Pattern.ofTemplate template = (Pattern.compile template).1 := rfl
    rw [perform]
    rcases read : Pattern.compile template with ⟨fault | p, events⟩
    · rw [read] at same
      exact .nothing (by rw [produces?, same]; rfl) fun _ => trivial
    · rw [read] at same
      exact .produces (by rw [produces?, same]; rfl)
  | reset => exact .produces rfl
  | record json =>
    rw [perform]
    cases Json.decodeRecord json with
    | ok r => exact .records r id
    | error fault => exact .nothing rfl fun _ => trivial
  | set setting =>
    rw [perform]
    cases setting.apply? s.current with
    | some r => exact .records r id
    | none => exact .nothing rfl fun _ => trivial
  | showRecord => exact .nothing rfl False.elim
  | snapshot name => exact .remembers rfl
  | restore name =>
    rw [perform]
    cases found : s.remembered? name with
    | some p => exact .produces found
    | none => exact .nothing found fun _ => trivial
  | resolveSnapshot name =>
    rw [perform]
    cases s.remembered? name <;> exact .nothing rfl False.elim
  | isSame name =>
    rw [perform]
    cases s.remembered? name <;> exact .nothing rfl False.elim
  | serialize => exact .nothing rfl False.elim

/-- A step that fails changes nothing. -/
theorem perform_of_isError (failed : (s.perform step).2.1.IsError) : (s.perform step).1 = s := by
  have effect := s.perform_effect step
  generalize (s.perform step).1 = after, (s.perform step).2.1 = answer at effect failed ⊢
  cases effect with
  | nothing => rfl
  | produces | remembers | records => exact failed.elim

theorem produces?_eq_none (keeps : ¬step.SetsPattern) : s.produces? step = none := by
  cases step <;> first | rfl | exact absurd trivial keeps

/-- The pattern in force is the one that the step puts in force, if it does. -/
theorem perform_pattern (s : Session) (step : Step) :
    (s.perform step).1.pattern = (s.produces? step).getD s.pattern := by
  have effect := s.perform_effect step
  generalize (s.perform step).1 = after, (s.perform step).2.1 = answer at effect ⊢
  cases effect with
  | produces some => rw [some, pattern, Holder.pattern_replace, Option.getD_some]
  | remembers same => rw [same]; rfl
  | records r keeps => rw [produces?_eq_none keeps]; rfl
  | nothing none => rw [none]; rfl

/-- A step that is to put a pattern in force says whether it did. -/
theorem perform_eq_done_iff (sets : step.SetsPattern) :
    (s.perform step).2.1 = .done ↔ ∃ p, s.produces? step = some p := by
  have effect := s.perform_effect step
  generalize (s.perform step).1 = after, (s.perform step).2.1 = answer at effect ⊢
  cases effect with
  | @produces p some => exact ⟨fun _ => ⟨p, some⟩, fun _ => rfl⟩
  | remembers same => exact (same ▸ sets : Step.SetsPattern (.snapshot _)).elim
  | records r keeps => exact absurd sets keeps
  | nothing none failed =>
    have failed := failed sets
    constructor
    · rintro rfl
      exact failed.elim
    · simp [none]

/-- Remembering under a name replaces what was remembered under it. -/
theorem remembered?_perform_snapshot (s : Session) (name : String) :
    (s.perform (.snapshot name)).1.remembered? name = some s.pattern := by
  simp [perform, remembered?]

/-- No other step changes what is remembered under a name. -/
theorem remembered?_perform (other : step ≠ .snapshot name) :
    (s.perform step).1.remembered? name = s.remembered? name := by
  have effect := s.perform_effect step
  generalize (s.perform step).1 = after, (s.perform step).2.1 = answer at effect ⊢
  cases effect with
  | produces | records | nothing => rfl
  | @remembers name' same =>
    have differ : name ≠ name' := by
      rintro rfl
      exact other same
    simp [remembered?, List.lookup_cons, beq_false_of_ne differ]

/-! ### Runs -/

/-- The session after a list of steps. -/
def after (s : Session) (steps : List Step) : Session :=
  steps.foldl (fun s step => (s.perform step).1) s

theorem after_cons (s : Session) (step : Step) (steps : List Step) :
    s.after (step :: steps) = (s.perform step).1.after steps := rfl

theorem after_append (s : Session) (steps more : List Step) :
    s.after (steps ++ more) = (s.after steps).after more := List.foldl_append

/-- A run performs each step on the session after the steps before it. -/
theorem run_append_singleton (s : Session) (steps : List Step) (step : Step) :
    s.run (steps ++ [step]) = s.run steps ++ [(s.after steps).perform step] := by
  induction steps generalizing s with
  | nil => rfl
  | cons first steps ih => rw [List.cons_append, run, run, ih]; rfl

/-- The pattern is in force or remembered under a name. -/
def Holds (s : Session) (p : Pattern) : Prop :=
  p = s.pattern ∨ ∃ name, s.remembered? name = some p

/-- The patterns that the steps of a run put in force, in order. -/
def productions (s : Session) : List Step → List Pattern
  | [] => []
  | step :: steps => (s.produces? step).toList ++ (s.perform step).1.productions steps

theorem pattern_after (s : Session) (steps : List Step) :
    (s.after steps).pattern = (s.productions steps).getLastD s.pattern := by
  induction steps generalizing s with
  | nil => rfl
  | cons step steps ih =>
    rw [after_cons, productions, ih, perform_pattern]
    cases s.produces? step with
    | none => rfl
    | some p => exact List.getLastD_cons.symm

theorem remembered?_after (free : .snapshot name ∉ steps) :
    (s.after steps).remembered? name = s.remembered? name := by
  induction steps generalizing s with
  | nil => rfl
  | cons step steps ih =>
    rw [List.mem_cons, not_or] at free
    exact (ih free.2).trans (remembered?_perform (Ne.symm free.1))

/-! ### Only compiled patterns -/

/-- What a step puts in force is compiled if all that the session holds is. -/
theorem compiled_of_produces? (valid : ∀ p, s.Holds p → p.Compiled)
    (some : s.produces? step = some p) : p.Compiled := by
  cases step with
  | configure template | compile template => exact Pattern.compiled_of_ofTemplate some
  | reset =>
    cases some
    exact Pattern.compiled_unset
  | restore name => exact valid p (.inr ⟨name, some⟩)
  | _ => cases some

/-- A step holds nothing but what it puts in force and what was held before it. -/
theorem holds_perform (h : (s.perform step).1.Holds p) :
    s.produces? step = some p ∨ s.Holds p := by
  rcases h with inForce | ⟨name, remembered⟩
  · rw [perform_pattern] at inForce
    cases produced : s.produces? step with
    | none => exact .inr (.inl (by rw [inForce, produced]; rfl))
    | some q => exact .inl (by rw [inForce, produced]; rfl)
  · by_cases same : step = .snapshot name
    · rw [same, remembered?_perform_snapshot] at remembered
      exact .inr (.inl (Option.some.inj remembered).symm)
    · rw [remembered?_perform same] at remembered
      exact .inr (.inr ⟨name, remembered⟩)

theorem compiled_of_holds (valid : ∀ p, s.Holds p → p.Compiled) (steps : List Step) :
    ∀ p, (s.after steps).Holds p → p.Compiled := by
  induction steps generalizing s with
  | nil => exact valid
  | cons step steps ih =>
    refine ih fun p h => ?_
    rcases holds_perform h with produced | held
    · exact compiled_of_produces? valid produced
    · exact valid p held

theorem start_pattern (shared : Bool) (r : Record) : (start shared r).pattern = .unset := by
  cases shared <;> rfl

/-- The session that a list of steps leads to from the start. -/
def reached (shared : Bool) (r : Record) (steps : List Step) : Session :=
  (start shared r).after steps

theorem compiled_of_reached {shared : Bool} {r : Record} (h : (reached shared r steps).Holds p) :
    p.Compiled := by
  refine compiled_of_holds (fun q held => ?_) steps p h
  rcases held with rfl | ⟨name, remembered⟩
  · rw [start_pattern]
    exact Pattern.compiled_unset
  · cases remembered

/-! ### Plain and shared sessions -/

/-- What can be seen of a session: all but the kind of its holder. -/
def seen (s : Session) : Pattern × Record × List (String × Pattern) :=
  (s.pattern, s.current, s.snapshots)

/-- What can be seen of a step. -/
def seenAfter (result : Session × Answer × List Event) :
    (Pattern × Record × List (String × Pattern)) × Answer × List Event :=
  (result.1.seen, result.2)

theorem perform_seen (same : s.seen = t.seen) (step : Step) :
    seenAfter (s.perform step) = seenAfter (t.perform step) := by
  obtain ⟨holder, current, snapshots⟩ := s
  obtain ⟨holder', current', snapshots'⟩ := t
  simp only [seen, pattern, Prod.mk.injEq] at same
  obtain ⟨inForce, rfl, rfl⟩ := same
  cases step with
  | configure template =>
    simp only [perform, Holder.configure_eq]
    cases Pattern.ofTemplate template <;> simp [seenAfter, seen, pattern, inForce]
  | compile template =>
    simp only [perform]
    rcases Pattern.compile template with ⟨_ | _, events⟩ <;>
      simp [seenAfter, seen, pattern, inForce]
  | record json =>
    simp only [perform]
    cases Json.decodeRecord json <;> simp [seenAfter, seen, pattern, inForce]
  | set setting =>
    simp only [perform]
    cases setting.apply? current <;> simp [seenAfter, seen, pattern, inForce]
  | restore name | resolveSnapshot name | isSame name =>
    simp only [perform, remembered?]
    cases snapshots.lookup name <;> simp [seenAfter, seen, pattern, inForce]
  | reset | showRecord | snapshot name | serialize =>
    simp [perform, seenAfter, seen, pattern, inForce]

theorem run_seen (same : s.seen = t.seen) (steps : List Step) :
    (s.run steps).map seenAfter = (t.run steps).map seenAfter := by
  induction steps generalizing s t with
  | nil => rfl
  | cons step steps ih =>
    have here := perform_seen same step
    rw [run, run, List.map_cons, List.map_cons, here, ih (congrArg Prod.fst here)]

/-! ### The patterns of a run -/

/-- Wherever a run stands: all patterns held are compiled, a step that fails changes nothing, the
pattern in force is the last one put in force, a name keeps its pattern until it is given again,
and patterns are equal if their templates are. Both kinds of session answer alike. -/
theorem patterns_of_run (shared : Bool) (r : Record) (steps : List Step) :
    (∀ step, (start shared r).run (steps ++ [step]) =
      (start shared r).run steps ++ [(reached shared r steps).perform step]) ∧
    (∀ p, (reached shared r steps).Holds p → Template.compile p.template = .ok p.tree) ∧
    (∀ step, ((reached shared r steps).perform step).2.1.IsError →
      ((reached shared r steps).perform step).1 = reached shared r steps) ∧
    ((reached shared r steps).pattern = ((start shared r).productions steps).getLastD .unset ∧
      ∀ step : Step, step.SetsPattern → (((reached shared r steps).perform step).2.1 = .done ↔
        ∃ p, (reached shared r steps).produces? step = some p)) ∧
    (∀ name, ((reached shared r steps).perform (.snapshot name)).1.remembered? name =
        some (reached shared r steps).pattern ∧
      ∀ more, .snapshot name ∉ more →
        (reached shared r (steps ++ more)).remembered? name =
          (reached shared r steps).remembered? name ∧
        ∀ p, (reached shared r steps).remembered? name = some p →
          ((reached shared r (steps ++ more)).perform (.resolveSnapshot name)).2.1 =
            .text (p.resolve (reached shared r (steps ++ more)).current)) ∧
    (∀ other p q, (reached shared r steps).Holds p → (reached shared r other).Holds q →
      ((p == q) = true ↔ p.template = q.template)) ∧
    ((start true r).run steps).map seenAfter = ((start false r).run steps).map seenAfter := by
  refine ⟨run_append_singleton _ steps, fun p => compiled_of_reached,
    fun step => perform_of_isError, ⟨?_, ?_⟩, ?_, ?_, ?_⟩
  · rw [reached, pattern_after, start_pattern]
  · exact fun step => perform_eq_done_iff
  · refine fun name => ⟨remembered?_perform_snapshot _ name, fun more free => ?_⟩
    have kept : (reached shared r (steps ++ more)).remembered? name =
        (reached shared r steps).remembered? name := by
      rw [reached, after_append]
      exact remembered?_after free
    refine ⟨kept, fun p found => ?_⟩
    simp only [perform, kept, found]
  · intro other p q hp hq
    rw [beq_iff_eq]
    exact (compiled_of_reached hp).eq_iff (compiled_of_reached hq)
  · exact run_seen (s := start true r) (t := start false r) rfl steps

end Session
end PathPattern
