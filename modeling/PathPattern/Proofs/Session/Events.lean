import PathPattern.Proofs.Session.History
import PathPattern.Proofs.Template.Unknown

/-!
# The events of a session

Configuring and compiling report each keyword that means nothing, in the order in which reading meets
them; configuring reports last how it went, and no other step reports anything. So
the events of a step tell the unknown names of the tree that is put in force, or those of what comes
before the first fault of a template that is refused (`events_of_run`).
-/

namespace PathPattern

variable {s : Session} {step : Step} {template : String} {tree : Node} {fault : TemplateFault}

/-- What is seen of an event: its severity, its message and its fields. -/
structure Report where
  severity : Severity
  message : String
  fields : List (String × String)
  deriving DecidableEq, Repr

namespace Report

/-- A fragment means nothing. -/
def unknown (name : String) : Report where
  severity := .debug
  message := "unrecognized placeholder keyword will resolve to an empty string"
  fields := [("keyword", name)]

/-- A template is in force. -/
def configured (template : String) (tree : Node) : Report where
  severity := .debug
  message := "pattern configured"
  fields := [("template", template), ("resolver", tree.render)]

/-- A template is refused. -/
def rejected (template : String) (fault : TemplateFault) : Report where
  severity := .warn
  message := "pattern rejected, keeping previous configuration"
  fields := [("template", template), ("error", fault.message)]

end Report

/-- The report of an event. -/
def Event.report (e : Event) : Report := ⟨e.severity, e.message, e.fields⟩

/-- The reports of a step. -/
def reports (result : Session × Answer × List Event) : List Report := result.2.2.map Event.report

/-- The step reads a template. -/
def Step.ReadsTemplate : Step → Prop
  | configure _ | compile _ => True
  | _ => False

theorem reports_unknown (names : List String) :
    (names.map Event.unknownKeyword).map Event.report = names.map Report.unknown := by
  rw [List.map_map]
  rfl

namespace Pattern

theorem ofTemplate_of_ok (h : Template.compile template = .ok tree) :
    ofTemplate template = .ok ⟨template, tree⟩ := by
  rw [ofTemplate, compile, h]
  rfl

theorem configure_snd_of_ok (h : Template.compile template = .ok tree) :
    (configure template).2.map Event.report =
      (Template.unknownKeywords template).map Report.unknown ++ [.configured template tree] := by
  simp only [configure, compile, h, Except.map, List.map_append, reports_unknown]
  rfl

theorem configure_snd_of_error (h : Template.compile template = .error fault) :
    (configure template).2.map Event.report =
      (Template.unknownKeywords template).map Report.unknown ++ [.rejected template fault] := by
  simp only [configure, compile, h, Except.map, List.map_append, reports_unknown]
  rfl

end Pattern

namespace Session

/-! ### One step -/

theorem reports_configure (s : Session) (template : String) :
    reports (s.perform (.configure template)) = (Pattern.configure template).2.map Event.report := by
  rw [perform, Holder.configure_eq]
  cases Pattern.ofTemplate template <;> rfl

theorem reports_compile (s : Session) (template : String) :
    reports (s.perform (.compile template)) =
      (Template.unknownKeywords template).map Report.unknown := by
  rw [← reports_unknown, perform]
  have events : (Pattern.compile template).2 =
      (Template.unknownKeywords template).map .unknownKeyword := rfl
  rw [← events]
  rcases Pattern.compile template with ⟨_ | _, events⟩ <;> rfl

theorem reports_of_not_readsTemplate (other : ¬step.ReadsTemplate) :
    reports (s.perform step) = [] := by
  cases step with
  | configure template | compile template => exact absurd trivial other
  | reset | showRecord | snapshot name | serialize => rfl
  | record json =>
    rw [perform]
    cases Json.decodeRecord json <;> rfl
  | set setting =>
    rw [perform]
    cases setting.apply? s.current <;> rfl
  | restore name | resolveSnapshot name | isSame name =>
    rw [perform]
    cases s.remembered? name <;> rfl

/-- A step that reads a template that compiles puts the template and its tree in force. -/
theorem pattern_perform_of_ok (h : Template.compile template = .ok tree)
    (reads : step = .configure template ∨ step = .compile template) :
    (s.perform step).1.pattern = ⟨template, tree⟩ := by
  have produced : s.produces? step = some ⟨template, tree⟩ := by
    rcases reads with rfl | rfl <;> rw [produces?, Pattern.ofTemplate_of_ok h] <;> rfl
  rw [perform_pattern, produced, Option.getD_some]

/-- Reading a template that compiles reports the unknown names of its tree, and configuring also that
the tree is in force. -/
theorem reports_of_ok (s : Session) (h : Template.compile template = .ok tree) :
    reports (s.perform (.configure template)) =
        tree.unknownNames.map .unknown ++ [.configured template tree] ∧
      reports (s.perform (.compile template)) = tree.unknownNames.map .unknown := by
  rw [reports_configure, reports_compile, Pattern.configure_snd_of_ok h,
    Template.unknownKeywords_of_ok h]
  exact ⟨rfl, rfl⟩

/-- Reading a template that is refused reports the unknown names of what comes before its first
fault, and configuring also the fault. -/
theorem reports_of_error (s : Session) (h : Template.compile template = .error fault) :
    ∃ q rest front, template.toList = q ++ '{' :: rest ∧ Template.FirstFault q rest fault ∧
      Template.compile (String.ofList q) = .ok front ∧
      reports (s.perform (.configure template)) =
        front.unknownNames.map .unknown ++ [.rejected template fault] ∧
      reports (s.perform (.compile template)) = front.unknownNames.map .unknown := by
  obtain ⟨q, rest, split, first⟩ := Template.exists_firstFault_of_error h
  obtain ⟨front, parses⟩ := first.parses
  have reported := Template.unknownKeywords_of_firstFault first parses
  rw [← split, String.ofList_toList] at reported
  refine ⟨q, rest, front, split, first, parses, ?_, ?_⟩
  · rw [reports_configure, Pattern.configure_snd_of_error h, reported]
  · rw [reports_compile, reported]

/-! ### Runs -/

/-- Wherever a run of either kind of session stands: a template that compiles is told by the unknown
names of the tree that it puts in force, one that is refused by those of what comes before the brace
at fault, both from left to right; configuring tells last what became of the template, and no step
that reads no template tells anything. -/
theorem events_of_run (shared : Bool) (r : Record) (steps : List Step) :
    (∀ step, (start shared r).run (steps ++ [step]) =
      (start shared r).run steps ++ [(reached shared r steps).perform step]) ∧
    (∀ template tree, Template.compile template = .ok tree →
      (∀ step, step = .configure template ∨ step = .compile template →
        ((reached shared r steps).perform step).1.pattern = ⟨template, tree⟩) ∧
      reports ((reached shared r steps).perform (.configure template)) =
        tree.unknownNames.map .unknown ++ [.configured template tree] ∧
      reports ((reached shared r steps).perform (.compile template)) =
        tree.unknownNames.map .unknown) ∧
    (∀ template fault, Template.compile template = .error fault →
      ∃ q rest front, template.toList = q ++ '{' :: rest ∧ Template.FirstFault q rest fault ∧
        Template.compile (String.ofList q) = .ok front ∧
        reports ((reached shared r steps).perform (.configure template)) =
          front.unknownNames.map .unknown ++ [.rejected template fault] ∧
        reports ((reached shared r steps).perform (.compile template)) =
          front.unknownNames.map .unknown) ∧
    ∀ step : Step, ¬step.ReadsTemplate → reports ((reached shared r steps).perform step) = [] := by
  refine ⟨run_append_singleton _ steps, ?_, ?_, ?_⟩
  · intro template tree h
    exact ⟨fun step reads => pattern_perform_of_ok h reads, reports_of_ok _ h⟩
  · intro template fault h
    exact reports_of_error _ h
  · intro step other
    exact reports_of_not_readsTemplate other

-- What comes before the fault is told, also from the component of the fault; what follows is not.
example :
    reports ((start true default).perform (.configure "{foo}/{doy}{bar}-{foo}{}{baz}")) =
      [.unknown "foo", .unknown "bar", .unknown "foo", .rejected "{foo}/{doy}{bar}-{foo}{}{baz}"
        (.emptyPlaceholder "{doy}{bar}-{foo}{}{baz}" 16)] := by
  decide +kernel

end Session
end PathPattern
