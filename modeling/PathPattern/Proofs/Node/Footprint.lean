import PathPattern.Proofs.Keyword.Meaning
import PathPattern.Proofs.Node.Leaves

/-!
# What a tree reads of a record

A field is the text of one part of the record, and the fields of the calendar are all texts of one
part, the whole second of the acquisition. `AgreeOn` asks two records to agree on the parts that
the leaves of a tree name, and on no other. Such records get the same path (`resolve_congr` says
that the leaves decide), so neither the name of the file nor the part of a second, nor a leap
second, ever shows in a path.
-/

namespace PathPattern

variable {r r' : Record} {f : Field} {tree leaf : Node}

/-- The field is a text of the time of the acquisition. -/
def Field.IsTime : Field → Prop
  | year | dayOfYear | month | day | hour | minute | second | timestamp => True
  | level | source | run | model | mime | kind => False

/-- The time is told to the second: no text of it reads more of the instant. -/
theorem Field.IsTime.extract_eq (h : f.IsTime) (same : r.acquired.second = r'.acquired.second) :
    f.extract r = f.extract r' := by
  have day : r.acquired.day = r'.acquired.day := by rw [Instant.day, Instant.day, same]
  have secondOfDay : r.acquired.secondOfDay = r'.acquired.secondOfDay := by
    rw [Instant.secondOfDay, Instant.secondOfDay, same]
  cases f with
  | year => simp only [extract, Instant.year, day]
  | dayOfYear | month | day => simp only [extract, day]
  | hour => simp only [extract, Instant.hour, secondOfDay]
  | minute => simp only [extract, Instant.minute, secondOfDay]
  | second => simp only [extract, Instant.secondOfMinute, secondOfDay]
  | timestamp => simp only [extract, same]
  | level | source | run | model | mime | kind => exact h.elim

namespace Node

/-- A keyword of the tree addresses the field. -/
def Names (tree : Node) (f : Field) : Prop :=
  ∃ name, keyword name ∈ tree.leaves ∧ Field.lookup name = some f

/-- The tree has an index or a slice. -/
def Addresses (tree : Node) : Prop :=
  (∃ i, index i ∈ tree.leaves) ∨ ∃ first last, slice first last ∈ tree.leaves

/-- The records agree on all that the tree names. -/
structure AgreeOn (tree : Node) (r r' : Record) : Prop where
  level : tree.Names .level → r.level = r'.level
  source : tree.Names .source ∨ tree.Names .run → r.source = r'.source
  model : tree.Names .model → r.model = r'.model
  subtype : tree.Names .mime → subtype r.mime = subtype r'.mime
  kind : tree.Names .kind → r.kind = r'.kind
  second : (∃ f : Field, f.IsTime ∧ tree.Names f) → r.acquired.second = r'.acquired.second
  directories : tree.Addresses → directorySegments r.file = directorySegments r'.file

namespace AgreeOn

theorem extract_eq (h : AgreeOn tree r r') (named : tree.Names f) :
    f.extract r = f.extract r' := by
  by_cases time : f.IsTime
  · exact time.extract_eq (h.second ⟨f, time, named⟩)
  cases f with
  | level => simp only [Field.extract, h.level named]
  | source => simp only [Field.extract, h.source (.inl named)]
  | run => simp only [Field.extract, h.source (.inr named)]
  | model => simp only [Field.extract, h.model named]
  | mime => simp only [Field.extract, h.subtype named]
  | kind => simp only [Field.extract, h.kind named]
  | year | dayOfYear | month | day | hour | minute | second | timestamp =>
    exact (time trivial).elim

/-- Every leaf gives the same for both records. -/
theorem resolve_leaf_eq (h : AgreeOn tree r r') (mem : leaf ∈ tree.leaves) :
    leaf.resolve r = leaf.resolve r' := by
  cases isAtom_of_mem_leaves tree leaf mem with
  | empty => rfl
  | literal text => rfl
  | keyword name =>
    rw [resolve, resolve]
    cases found : Field.lookup name with
    | none =>
      rw [Keyword.resolve_of_lookup_eq_none found, Keyword.resolve_of_lookup_eq_none found]
    | some f =>
      rw [Keyword.resolve_of_lookup_eq_some found, Keyword.resolve_of_lookup_eq_some found]
      exact h.extract_eq ⟨name, mem, found⟩
  | index i => rw [resolve, resolve, h.directories (.inl ⟨i, mem⟩)]
  | slice first last => rw [resolve, resolve, h.directories (.inr ⟨first, last, mem⟩)]

theorem resolve_eq (h : AgreeOn tree r r') : tree.resolve r = tree.resolve r' :=
  resolve_congr fun _ mem => h.resolve_leaf_eq mem

/-- Records that differ in the file only, which is in the same directories, agree on every tree. -/
theorem of_directorySegments {file : String}
    (same : directorySegments file = directorySegments r.file) :
    AgreeOn tree { r with file := file } r where
  level _ := rfl
  source _ := rfl
  model _ := rfl
  subtype _ := rfl
  kind _ := rfl
  second _ := rfl
  directories _ := same

/-- So do records that differ in the media type only, but not in its subtype. -/
theorem of_subtype {mime : String} (same : PathPattern.subtype mime = PathPattern.subtype r.mime) :
    AgreeOn tree { r with mime := mime } r where
  level _ := rfl
  source _ := rfl
  model _ := rfl
  subtype _ := same
  kind _ := rfl
  second _ := rfl
  directories _ := rfl

/-- So do records that differ in the acquisition only, but not by a whole second. -/
theorem of_second {t : Instant} (same : t.second = r.acquired.second) :
    AgreeOn tree { r with acquired := t } r where
  level _ := rfl
  source _ := rfl
  model _ := rfl
  subtype _ := rfl
  kind _ := rfl
  second _ := same
  directories _ := rfl

end AgreeOn

/-- Records that agree on what a tree names get the same path from it, whatever else they hold. In
particular the name of the file does not matter, nor what an instant is past its whole second. -/
theorem resolve_reads_named_parts (tree : Node) :
    (∀ r r', AgreeOn tree r r' → tree.resolve r = tree.resolve r') ∧
    (∀ (r : Record) (dir name name' : String), (dir = "" ∨ dir.toList.getLast? = some '/') →
      '/' ∉ name.toList → '/' ∉ name'.toList →
      tree.resolve { r with file := dir ++ name } = tree.resolve { r with file := dir ++ name' }) ∧
    ∀ (r : Record) (t : Instant), t.second = r.acquired.second →
      tree.resolve { r with acquired := t } = tree.resolve r := by
  refine ⟨fun r r' agree => agree.resolve_eq, ?_, fun r t same => ?_⟩
  · intro r dir name name' ends free free'
    have same := directorySegments_append_name ends free
    rw [← directorySegments_append_name ends free'] at same
    have agree : AgreeOn tree { r with file := dir ++ name } { r with file := dir ++ name' } :=
      .of_directorySegments (r := { r with file := dir ++ name' }) same
    exact agree.resolve_eq
  · have agree : AgreeOn tree { r with acquired := t } r := .of_second same
    exact agree.resolve_eq

end Node

end PathPattern
