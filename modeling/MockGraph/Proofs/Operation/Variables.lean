import MockGraph.Proofs.Operation.Coercion
set_option autoImplicit false

namespace MockGraph

open Syntax

/-- A variable that may not be null and is provided as `null`, whether or not it has a default, or
is left out without one. -/
def Syntax.VariableDefinition.Missing (provided : Ordered String Json)
    (declared : VariableDefinition) : Prop :=
  declared.type.isNonNull = true ∧
    (Ordered.get? provided declared.name = some .null ∨
      Ordered.get? provided declared.name = none ∧ declared.default = none)

instance (provided : Ordered String Json) (declared : VariableDefinition) :
    Decidable (declared.Missing provided) :=
  inferInstanceAs (Decidable (_ ∧ (_ ∨ _ ∧ _)))

/-- The entry that a variable adds: its default, if it is left out. -/
def Syntax.VariableDefinition.defaulted? (provided : Ordered String Json)
    (declared : VariableDefinition) : Option (String × Json) :=
  match Ordered.get? provided declared.name with
  | some _ => none
  | none => declared.default.map fun value => (declared.name, value.constant)

section

variable {provided : Ordered String Json} {declared : VariableDefinition}

theorem coerceVariables_of_missing (rest : List VariableDefinition)
    (missing : declared.Missing provided) :
    coerceVariables (declared :: rest) provided = .error (.missingVariable declared.name) := by
  obtain ⟨nonNull, null | ⟨absent, undefaulted⟩⟩ := missing
  · simp only [coerceVariables, null, nonNull, if_true]
  · simp only [coerceVariables, absent, undefaulted, nonNull, if_true]

theorem defaulted?_of_given {value : Json}
    (given : Ordered.get? provided declared.name = some value) :
    declared.defaulted? provided = none := by
  rw [VariableDefinition.defaulted?, given]

theorem defaulted?_of_absent (absent : Ordered.get? provided declared.name = none) :
    declared.defaulted? provided =
      declared.default.map fun value => (declared.name, value.constant) := by
  rw [VariableDefinition.defaulted?, absent]

/-- A variable that is not missing adds its default at the end, if it has to. -/
theorem coerceVariables_of_not_missing (rest : List VariableDefinition)
    (met : ¬ declared.Missing provided) :
    coerceVariables (declared :: rest) provided =
      coerceVariables rest (provided ++ (declared.defaulted? provided).toList) := by
  have nullable :
      Ordered.get? provided declared.name = some .null ∨
          Ordered.get? provided declared.name = none ∧ declared.default = none →
        declared.type.isNonNull = false :=
    fun unmet => Bool.eq_false_iff.mpr fun nonNull => met ⟨nonNull, unmet⟩
  cases given : Ordered.get? provided declared.name with
  | some value =>
    rw [defaulted?_of_given given, Option.toList_none, List.append_nil]
    cases value with
    | null => simp [coerceVariables, given, nullable (Or.inl given)]
    | _ => simp [coerceVariables, given]
  | none =>
    rw [defaulted?_of_absent given]
    cases default : declared.default with
    | some value =>
      have free := (Ordered.get?_eq_none_iff _ _).mp given
      simp [coerceVariables, given, default, Ordered.insert_of_notMem _ _ _ free]
    | none => simp [coerceVariables, given, default, nullable (Or.inr ⟨given, default⟩)]

/-- The entry of one variable is not seen under the name of another. -/
theorem get?_append_defaulted (provided : Ordered String Json) {name : String}
    (other : name ≠ declared.name) :
    Ordered.get? (provided ++ (declared.defaulted? provided).toList) name =
      Ordered.get? provided name := by
  cases added : declared.defaulted? provided with
  | none => rw [Option.toList_none, List.append_nil]
  | some entry =>
    cases given : Ordered.get? provided declared.name with
    | some value => cases (defaulted?_of_given given).symm.trans added
    | none =>
      rw [defaulted?_of_absent given] at added
      obtain ⟨value, -, rfl⟩ := Option.map_eq_some_iff.mp added
      rw [Option.toList_some,
        ← Ordered.insert_of_notMem _ _ _ ((Ordered.get?_eq_none_iff _ _).mp given),
        Ordered.get?_insert, if_neg (Ne.symm other)]

/-- Whether a variable is missing, and what it adds, is seen from the value that is provided for
it. -/
theorem unaffected_of_get? {provided others : Ordered String Json} {later : VariableDefinition}
    (same : Ordered.get? others later.name = Ordered.get? provided later.name) :
    (later.Missing others ↔ later.Missing provided) ∧
      later.defaulted? others = later.defaulted? provided := by
  constructor
  · rw [VariableDefinition.Missing, VariableDefinition.Missing, same]
  · rw [VariableDefinition.defaulted?, VariableDefinition.defaulted?, same]

/-- A variable that may not be null has a value, unless it is missing or its default is `null`. -/
theorem Coerced.value_of_nonNull {bindings : Ordered String Json}
    (now : Coerced provided declared bindings) (nonNull : declared.type.isNonNull = true)
    (defaults : ∀ default, declared.default = some default → default.constant ≠ .null) :
    ∃ value, Ordered.get? bindings declared.name = some value ∧ value ≠ .null := by
  have met :
      ¬ (Ordered.get? provided declared.name = some .null ∨
        Ordered.get? bindings declared.name = none) :=
    fun unmet => Bool.false_ne_true ((now.nullable unmet).symm.trans nonNull)
  obtain ⟨value, found⟩ := Option.ne_none_iff_exists'.mp fun absent => met (Or.inr absent)
  refine ⟨value, found, ?_⟩
  rintro rfl
  have source := now.value.symm.trans found
  cases given : Ordered.get? provided declared.name with
  | some other =>
    rw [given, Option.some_or] at source
    exact met (Or.inl (given.trans source))
  | none =>
    rw [given, Option.none_or] at source
    obtain ⟨default, present, null⟩ := Option.map_eq_some_iff.mp source
    exact defaults default present null

end

/-- What one variable adds does not matter to those after it, which have other names. -/
theorem unaffected_of_mem {declared : VariableDefinition} {rest : List VariableDefinition}
    (distinct : ((declared :: rest).map (·.name)).Nodup) (provided : Ordered String Json) :
    ∀ later ∈ rest,
      (later.Missing (provided ++ (declared.defaulted? provided).toList) ↔ later.Missing provided) ∧
        later.defaulted? (provided ++ (declared.defaulted? provided).toList) =
          later.defaulted? provided := by
  intro later member
  have other : later.name ≠ declared.name := by
    intro same
    rw [List.map_cons, List.nodup_cons] at distinct
    exact distinct.1 (same ▸ List.mem_map.mpr ⟨later, member, rfl⟩)
  exact unaffected_of_get? (get?_append_defaulted provided other)

/-- The first missing variable is the one that is named. The induction is on the variables before
it, of which none is missing. -/
theorem coerceVariables_of_first_missing (before after : List VariableDefinition)
    {declared : VariableDefinition} (provided : Ordered String Json)
    (distinct : ((before ++ declared :: after).map (·.name)).Nodup)
    (missing : declared.Missing provided) (met : ∀ earlier ∈ before, ¬ earlier.Missing provided) :
    coerceVariables (before ++ declared :: after) provided =
      .error (.missingVariable declared.name) := by
  induction before generalizing provided with
  | nil => exact coerceVariables_of_missing after missing
  | cons first before ih =>
    have unaffected := unaffected_of_mem distinct provided
    rw [List.cons_append, coerceVariables_of_not_missing _ (met first List.mem_cons_self)]
    refine ih _ (List.nodup_cons.mp distinct).2 ?_ fun earlier member => ?_
    · exact (unaffected declared (by simp)).1.mpr missing
    · rw [(unaffected earlier (List.mem_append_left _ member)).1]
      exact met earlier (List.mem_cons_of_mem _ member)

/-- If no variable is missing, the defaults of those that are left out follow what is provided, in
their order. -/
theorem coerceVariables_of_none_missing (variableDefs : List VariableDefinition)
    (provided : Ordered String Json) (distinct : (variableDefs.map (·.name)).Nodup)
    (met : ∀ declared ∈ variableDefs, ¬ declared.Missing provided) :
    coerceVariables variableDefs provided =
      .ok (provided ++ variableDefs.filterMap (VariableDefinition.defaulted? provided)) := by
  induction variableDefs generalizing provided with
  | nil => rw [coerceVariables, List.filterMap_nil, List.append_nil]
  | cons declared rest ih =>
    have unaffected := unaffected_of_mem distinct provided
    have stillMet : ∀ later ∈ rest,
        ¬ later.Missing (provided ++ (declared.defaulted? provided).toList) := fun later member =>
      (unaffected later member).1.not.mpr (met later (List.mem_cons_of_mem _ member))
    have kept :
        rest.filterMap
            (VariableDefinition.defaulted? (provided ++ (declared.defaulted? provided).toList)) =
          rest.filterMap (VariableDefinition.defaulted? provided) :=
      List.filterMap_congr fun later member => (unaffected later member).2
    rw [coerceVariables_of_not_missing _ (met declared List.mem_cons_self),
      ih _ (List.nodup_cons.mp distinct).2 stillMet, kept, List.append_assoc]
    cases added : declared.defaulted? provided with
    | none => rw [List.filterMap_cons_none added, Option.toList_none, List.nil_append]
    | some entry => rw [List.filterMap_cons_some added, Option.toList_some, List.singleton_append]

theorem first_missing (variableDefs : List VariableDefinition) (provided : Ordered String Json) :
    (∀ declared ∈ variableDefs, ¬ declared.Missing provided) ∨
      ∃ before declared after, variableDefs = before ++ declared :: after ∧
        declared.Missing provided ∧ ∀ earlier ∈ before, ¬ earlier.Missing provided := by
  induction variableDefs with
  | nil => exact Or.inl (by simp)
  | cons declared rest ih =>
    by_cases missing : declared.Missing provided
    · exact Or.inr ⟨[], declared, rest, rfl, missing, by simp⟩
    · rcases ih with met | ⟨before, first, after, rfl, isMissing, met⟩
      · exact Or.inl (List.forall_mem_cons.mpr ⟨missing, met⟩)
      · exact Or.inr ⟨declared :: before, first, after, rfl, isMissing,
          List.forall_mem_cons.mpr ⟨missing, met⟩⟩

/-- Variables with distinct names, of which the first missing one is named in the error. If none is
missing, all that is provided stays where it is and the defaults of variables that are left out
follow, in the order of the definitions. So a variable that may not be null has a value other than
`null`, if that is so of its default. -/
theorem coerceVariables_spec (variableDefs : List VariableDefinition)
    (provided : Ordered String Json) (distinct : (variableDefs.map (·.name)).Nodup) :
    (∀ name, coerceVariables variableDefs provided = .error (.missingVariable name) ↔
        ∃ before declared after, variableDefs = before ++ declared :: after ∧ declared.name = name ∧
          declared.Missing provided ∧ ∀ earlier ∈ before, ¬ earlier.Missing provided) ∧
      ((∀ declared ∈ variableDefs, ¬ declared.Missing provided) →
        coerceVariables variableDefs provided =
          .ok (provided ++ variableDefs.filterMap (VariableDefinition.defaulted? provided))) ∧
      (∀ bindings, coerceVariables variableDefs provided = .ok bindings →
        ∀ declared ∈ variableDefs, declared.type.isNonNull = true →
          (∀ default, declared.default = some default → default.constant ≠ .null) →
          ∃ value, Ordered.get? bindings declared.name = some value ∧ value ≠ .null) := by
  refine ⟨fun name => ⟨fun rejected => ?_, ?_⟩,
    coerceVariables_of_none_missing variableDefs provided distinct, ?_⟩
  · rcases first_missing variableDefs provided with
      met | ⟨before, declared, after, rfl, missing, met⟩
    · rw [coerceVariables_of_none_missing variableDefs provided distinct met] at rejected
      cases rejected
    · rw [coerceVariables_of_first_missing before after provided distinct missing met] at rejected
      have named := ValidationError.missingVariable.inj (Except.error.inj rejected)
      exact ⟨before, declared, after, rfl, named, missing, met⟩
  · rintro ⟨before, declared, after, rfl, rfl, missing, met⟩
    exact coerceVariables_of_first_missing before after provided distinct missing met
  · intro bindings coerced declared member nonNull defaults
    exact (coerced_of_mem variableDefs distinct member provided coerced).value_of_nonNull nonNull
      defaults

namespace Lodge

/-- The day, the depth of snow that is asked for, and a remark. -/
def questions : List VariableDefinition :=
  [⟨"day", .nonNull (.named "Int"), none, []⟩,
    ⟨"depth", .nonNull (.named "Int"), some (.int "3"), []⟩,
    ⟨"note", .named "String", some (.string "none"), []⟩]

def dayless : Ordered String Json := [("depth", .null), ("note", .null)]

/-- A remark that is `null`, a day, and something that is no variable. -/
def provided : Ordered String Json := [("note", .null), ("day", .ofInt 4), ("lift", .bool true)]

theorem coerceVariables_questions :
    coerceVariables questions dayless = .error (.missingVariable "day") ∧
      coerceVariables questions provided = .ok (provided ++ [("depth", .ofInt 3)]) ∧
      ∃ value, Ordered.get? (provided ++ [("depth", .ofInt 3)]) "depth" = some value ∧
        value ≠ .null := by
  have distinct : (questions.map (·.name)).Nodup := by decide
  have met : ∀ declared ∈ questions, ¬ declared.Missing provided := by decide
  have coerced : coerceVariables questions provided = .ok (provided ++ [("depth", .ofInt 3)]) :=
    (coerceVariables_spec questions provided distinct).2.1 met
  refine
    ⟨((coerceVariables_spec questions dayless distinct).1 "day").mpr
      ⟨[], _, _, rfl, rfl, by decide, by simp⟩, coerced, ?_⟩
  refine (coerceVariables_spec questions provided distinct).2.2 _ coerced
    ⟨"depth", .nonNull (.named "Int"), some (.int "3"), []⟩ (by simp [questions]) rfl ?_
  rintro default ⟨⟩
  decide

end Lodge

end MockGraph
