import PathPattern.Proofs.Node.Footprint
import PathPattern.Proofs.Text.Cut

/-!
# Media types and their parameters

The first slash of a media type is looked for before its parameters are cut off. Where something
follows that slash in the type itself, the parameters do not matter (`subtype_append_of_hasSubtype`).
A type that ends in its first slash loses the slash and all before it to any parameters, and a type
without a slash is cut at the first slash of the parameters. So a parameter shows in a path exactly if
`subtype_append_eq_iff` says so.
-/

namespace PathPattern

open Text (cutAt cutAt_append_cons cutAt_of_not_mem)

variable {cs kind sub params : List Char} {mime : String}

/-- Something follows the first slash. -/
def HasSubtype (cs : List Char) : Prop :=
  ∃ kind sub, cs = kind ++ '/' :: sub ∧ '/' ∉ kind ∧ sub ≠ []

/-! ### The first slash -/

theorem afterType_of_not_mem (free : '/' ∉ cs) : afterType cs = cs := by
  rw [afterType, cutAt_of_not_mem free]

theorem afterType_append_cons (free : '/' ∉ kind) (some : sub ≠ []) :
    afterType (kind ++ '/' :: sub) = sub := by
  obtain ⟨c, sub, rfl⟩ := List.exists_cons_of_ne_nil some
  rw [afterType, cutAt_append_cons free]

/-- A text has no subtype if it has no slash, or ends in its first one. -/
theorem not_hasSubtype_iff :
    ¬HasSubtype cs ↔ '/' ∉ cs ∨ ∃ kind, cs = kind ++ ['/'] ∧ '/' ∉ kind := by
  constructor
  · intro h
    by_cases slash : '/' ∈ cs
    · obtain ⟨kind, sub, rfl, free⟩ := Text.exists_first_of_mem slash
      cases sub with
      | nil => exact .inr ⟨kind, rfl, free⟩
      | cons c sub => exact absurd ⟨kind, c :: sub, rfl, free, by simp⟩ h
    · exact .inl slash
  · rintro (none | ⟨kind, rfl, free⟩) ⟨kind', sub, same, free', some⟩
    · simp [same] at none
    · obtain ⟨-, rfl⟩ := Text.first_unique free free' same
      exact some rfl

theorem afterType_of_not_hasSubtype (h : ¬HasSubtype cs) : afterType cs = cs := by
  rcases not_hasSubtype_iff.1 h with none | ⟨kind, rfl, free⟩
  · exact afterType_of_not_mem none
  · rw [afterType, cutAt_append_cons free]

/-! ### Parameters -/

theorem subtype_eq (mime : String) :
    subtype mime = String.ofList (cutAt ';' (afterType mime.toList)).1 := rfl

theorem subtype_append (mime params : String) :
    subtype (mime ++ ";" ++ params) =
      String.ofList (cutAt ';' (afterType (mime.toList ++ ';' :: params.toList))).1 := by
  simp [subtype_eq]

theorem ofList_cutAt_append (free : ';' ∉ cs) (params : List Char) :
    String.ofList (cutAt ';' (cs ++ ';' :: params)).1 = String.ofList (cutAt ';' cs).1 := by
  rw [cutAt_append_cons free, cutAt_of_not_mem free]

/-- No parameter changes a subtype that the type itself tells. -/
theorem subtype_append_of_hasSubtype (free : ';' ∉ mime.toList) (told : HasSubtype mime.toList)
    (params : String) : subtype (mime ++ ";" ++ params) = subtype mime := by
  obtain ⟨kind, sub, split, first, some⟩ := told
  have behind : ';' ∉ sub := by
    rw [split] at free
    simp_all
  rw [subtype_append, subtype_eq, split, List.append_assoc, List.cons_append,
    afterType_append_cons first (by simp), afterType_append_cons first some,
    ofList_cutAt_append behind]

/-- A type that ends in its first slash is lost to its parameters. -/
theorem subtype_append_of_slash (split : mime.toList = kind ++ ['/']) (first : '/' ∉ kind)
    (params : String) : subtype (mime ++ ";" ++ params) = "" := by
  rw [subtype_append, split, List.append_assoc, List.singleton_append,
    afterType_append_cons first (by simp), cutAt]
  rfl

/-- A type without a slash is itself the subtype, unless the parameters have one. -/
theorem subtype_append_of_not_mem (free : ';' ∉ mime.toList) (none : '/' ∉ mime.toList)
    {params : String} (plain : ¬HasSubtype params.toList) :
    subtype (mime ++ ";" ++ params) = subtype mime := by
  have whole : ¬HasSubtype (mime.toList ++ ';' :: params.toList) := by
    rw [not_hasSubtype_iff]
    rcases not_hasSubtype_iff.1 plain with free' | ⟨kind, split, free'⟩
    · exact .inl (by simp [none, free'])
    · exact .inr ⟨mime.toList ++ ';' :: kind, by simp [split], by simp [none, free']⟩
  rw [subtype_append, subtype_eq, afterType_of_not_hasSubtype whole, afterType_of_not_mem none,
    ofList_cutAt_append free]

/-- If they have one, the subtype is taken out of the parameters. -/
theorem subtype_append_of_mem (none : '/' ∉ mime.toList) {params : String}
    (split : params.toList = kind ++ '/' :: sub) (first : '/' ∉ kind) (some : sub ≠ []) :
    subtype (mime ++ ";" ++ params) = String.ofList (cutAt ';' sub).1 := by
  have front : '/' ∉ mime.toList ++ ';' :: kind := by simp [none, first]
  rw [subtype_append, split, ← List.cons_append, ← List.append_assoc,
    afterType_append_cons front some]

/-- Parameters do not matter for the subtype if the type tells it, or if it has no slash and they have
none, or none that is not the last character; or if they happen to repeat the type. -/
theorem subtype_append_eq_iff (free : ';' ∉ mime.toList) (params : String) :
    subtype (mime ++ ";" ++ params) = subtype mime ↔
      HasSubtype mime.toList ∨ '/' ∉ mime.toList ∧
        ∀ kind sub, params.toList = kind ++ '/' :: sub → '/' ∉ kind → sub ≠ [] →
          (cutAt ';' sub).1 = mime.toList := by
  by_cases told : HasSubtype mime.toList
  · exact iff_of_true (subtype_append_of_hasSubtype free told params) (.inl told)
  have self : subtype mime = mime := by
    rw [subtype_eq, afterType_of_not_hasSubtype told, cutAt_of_not_mem free, String.ofList_toList]
  rcases not_hasSubtype_iff.1 told with none | ⟨kind, split, first⟩
  · by_cases inside : HasSubtype params.toList
    · obtain ⟨kind, sub, split, first, some⟩ := inside
      rw [subtype_append_of_mem none split first some, self, ← String.toList_inj,
        String.toList_ofList]
      constructor
      · rintro same
        refine .inr ⟨none, fun kind' sub' split' first' _ => ?_⟩
        obtain ⟨-, rfl⟩ := Text.first_unique first first' (split.symm.trans split')
        exact same
      · rintro (yes | ⟨-, all⟩)
        · exact absurd yes told
        · exact all kind sub split first some
    · refine iff_of_true (subtype_append_of_not_mem free none inside) (.inr ⟨none, ?_⟩)
      exact fun kind sub split first some => absurd ⟨kind, sub, split, first, some⟩ inside
  · rw [subtype_append_of_slash split first params, self]
    refine iff_of_false ?_ ?_
    · rintro rfl
      simp at split
    · rintro (yes | ⟨none, -⟩)
      · exact told yes
      · simp [split] at none

/-- So the parameters do not matter, whatever they are, exactly for a type that tells its subtype. -/
theorem hasSubtype_iff_forall (free : ';' ∉ mime.toList) :
    HasSubtype mime.toList ↔ ∀ params, subtype (mime ++ ";" ++ params) = subtype mime := by
  constructor
  · exact fun told => subtype_append_of_hasSubtype free told
  · intro all
    -- Parameters that repeat the type behind a slash, and one more character, tell all others.
    have same := (subtype_append_eq_iff free ("/" ++ mime ++ "x")).1 (all _)
    refine same.resolve_right ?_
    rintro ⟨-, repeats⟩
    have repeated := repeats [] (mime.toList ++ ['x']) (by simp) (by simp) (by simp)
    rw [cutAt_of_not_mem (by simp [free])] at repeated
    simp at repeated

/-! ### Paths -/

/-- Whether parameters change the subtype of a media type: never, exactly if the type tells it, and
else as the first slash of the parameters has it. Where they do not, no template shows them. -/
theorem parameters_show_iff (free : ';' ∉ mime.toList) :
    (HasSubtype mime.toList ↔ ∀ params, subtype (mime ++ ";" ++ params) = subtype mime) ∧
    ∀ params, (subtype (mime ++ ";" ++ params) = subtype mime ↔
        HasSubtype mime.toList ∨ '/' ∉ mime.toList ∧
          ∀ kind sub, params.toList = kind ++ '/' :: sub → '/' ∉ kind → sub ≠ [] →
            (cutAt ';' sub).1 = mime.toList) ∧
      (subtype (mime ++ ";" ++ params) = subtype mime → ∀ (tree : Node) (r : Record),
        tree.resolve { r with mime := mime ++ ";" ++ params } =
          tree.resolve { r with mime := mime }) := by
  refine ⟨hasSubtype_iff_forall free, fun params => ⟨subtype_append_eq_iff free params, ?_⟩⟩
  intro same tree r
  have agree : Node.AgreeOn tree { r with mime := mime ++ ";" ++ params } { r with mime := mime } :=
    .of_subtype (r := { r with mime := mime }) same
  exact agree.resolve_eq

/-- A type with a subtype, and parameters with slashes and semicolons. -/
theorem parameters_show_iff_slashes :
    ';' ∉ "text/plain".toList ∧ HasSubtype "text/plain".toList ∧
      subtype ("text/plain" ++ ";" ++ "a=b/c;d") = subtype "text/plain" := by
  have free : ';' ∉ "text/plain".toList := by decide
  have told : HasSubtype "text/plain".toList := ⟨"text".toList, "plain".toList, by decide⟩
  exact ⟨free, told, (parameters_show_iff free).1.1 told _⟩

/-- A slash in the parameters of a type without one: what follows it is taken for the subtype. -/
theorem parameter_with_slash_shows :
    ';' ∉ "plain".toList ∧ subtype ("plain" ++ ";" ++ "x=a/b") = "b" ∧ subtype "plain" = "plain" ∧
      ∀ r : Record, Field.extract .mime { r with mime := "plain;x=a/b" } = "B" ∧
        Field.extract .mime { r with mime := "plain" } = "Plain" := by
  have shown : label (subtype "plain;x=a/b") = "B" := by decide +kernel
  have hidden : label (subtype "plain") = "Plain" := by decide +kernel
  exact ⟨by decide, by decide +kernel, by decide +kernel, fun r => ⟨shown, hidden⟩⟩

end PathPattern
